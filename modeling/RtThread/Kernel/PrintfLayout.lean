import RtThread.Kernel.Printf
import Mathlib.Tactic.SplitIfs

/-!
# The text of a format

A format and its arguments describe a list of pieces, whatever the buffer is: plain text, or a
number with a sign, where the width left for the padding depends on whether the sign finds a place
in the buffer. Laying them out one after the other gives the text that `rt_vsnprintf` emits.
-/

namespace RtThread.Kernel.Printf

open Text BoundedWriter

/-!
## Pieces
-/

/-- A number with a sign is the sign, `lead`, as many fill characters as the width
leaves and `body`. -/
inductive Piece where
  | text (bytes : List UInt8)
  | signed (sign : UInt8) (lead : List UInt8) (fill : UInt8) (size : Int)
      (body : List UInt8)
deriving DecidableEq

def widthLeft (fits : Nat -> Bool) (position : Nat) (size : Int) : Int :=
  if fits position then size - 1 else size

def Piece.lay (fits : Nat -> Bool) (position : Nat) : Piece -> List UInt8
  | .text bytes => bytes
  | .signed sign lead fill size body =>
    sign :: (lead ++ List.replicate (widthLeft fits position size).toNat fill ++ body)

/-- The text of a list of pieces that starts at a position. -/
def layout (fits : Nat -> Bool) : Nat -> List Piece -> List UInt8
  | _, [] => []
  | position, p :: ps =>
    p.lay fits position ++ layout fits (position + (p.lay fits position).length) ps

def digitsOf (cfg : Config) (type : Flags) (num : BitVec 32) (base : Nat) : List UInt8 :=
  (tmpDigits cfg type num base).getD []

def leadingBlanks (type : Flags) (sign : Option UInt8) (size : Int) : Int × Int :=
  if type.left || type.zeropad then (0, size)
  else
    let count := if sign.isSome && 0 < size then size - 1 else size
    (count, min count 0 - 1)

/-- The pieces of `print_number`. -/
def numberPieces (cfg : Config) (num : BitVec 32) (base : Nat) (s precision : Int)
    (type : Flags) : List Piece :=
  let (sign, num) := getSign type num
  let start := specialPrefix cfg type base
  let tmp := digitsOf cfg type num base
  let precision := max (tmp.length : Int) precision
  let zeros := List.replicate (precision - tmp.length).toNat (byte '0')
  let (blanks, size) := leadingBlanks type sign (s - start.length - precision)
  let number := zeros ++ tmp.reverse
  let (lead, fill, body) :=
    if type.left then (start ++ number, byte ' ', [])
    else if type.zeropad then (start, byte '0', number)
    else (start, byte ' ', number)
  match sign with
  | some sign =>
    [.text (List.replicate blanks.toNat (byte ' ')), .signed sign lead fill size body]
  | none =>
    [.text (List.replicate blanks.toNat (byte ' ')),
      .text (lead ++ List.replicate size.toNat fill ++ body)]

def justify (left : Bool) (width : Int) (text : List UInt8) : List UInt8 :=
  let blanks := List.replicate (width - text.length).toNat (byte ' ')
  if left then text ++ blanks else blanks ++ text

def stringText (precision : Int) (s : Option CString) : List UInt8 :=
  let bytes := (s.map CString.bytes).getD nullText
  if 0 < precision then bytes.take precision.toNat else bytes

/-- The pieces of one directive, with the format at the conversion character. -/
def directivePieces (cfg : Config) (spec : Spec) : Input -> Option (List Piece × Input)
  | (fmt, args) =>
    match conversion (first fmt) with
    | .char =>
      (takeInt args).map fun (value, args) =>
        ([.text (justify spec.flags.left spec.fieldWidth
          [UInt8.ofNat (value.toNat % 256)])], fmt.tail, args)
    | .string =>
      match args with
      | Arg.str s :: args =>
        some ([.text (justify spec.flags.left spec.fieldWidth
          (stringText spec.precision s))], fmt.tail, args)
      | _ => none
    | .pointer =>
      match args with
      | Arg.ptr value :: args =>
        let pieces :=
          if spec.fieldWidth = -1 then
            numberPieces cfg value 16 8 spec.precision
              { spec.flags with zeropad := true }
          else numberPieces cfg value 16 spec.fieldWidth spec.precision spec.flags
        some (pieces, fmt.tail, args)
      | _ => none
    | .percent => some ([.text [byte '%']], fmt.tail, args)
    | .number base sign large =>
      let flags := { spec.flags with sign := sign, large := large }
      (getNumber spec.qualifier flags args).map fun (num, args) =>
        (numberPieces cfg num base spec.fieldWidth spec.precision flags,
          fmt.tail, args)
    | .other => some ([.text (byte '%' :: fmt.take 1)], fmt.tail, args)

/-- The pieces of a format; there are none when an argument is missing or of another
type than the directive takes. -/
def pieceLoop (cfg : Config) : Nat -> List UInt8 -> List Arg -> Option (List Piece)
  | _, [], _ => some []
  | 0, _ :: _, _ => none
  | fuel + 1, c :: fmt, args =>
    if c ≠ byte '%' then (pieceLoop cfg fuel fmt args).map (.text [c] :: ·)
    else
      match getSpec cfg fmt args with
      | none => none
      | some (spec, input) =>
        match directivePieces cfg spec input with
        | none => none
        | some (ps, fmt, args) => (pieceLoop cfg fuel fmt args).map (ps ++ ·)

def pieces (cfg : Config) (fmt : CString) (args : List Arg) : Option (List Piece) :=
  pieceLoop cfg fmt.bytes.length fmt.bytes args

/-- The arguments have the types that the directives of a format take. -/
inductive Matching (cfg : Config) : List UInt8 -> List Arg -> Prop where
  | nil (args : List Arg) : Matching cfg [] args
  | plain {c : UInt8} {fmt : List UInt8} {args : List Arg} (hc : c ≠ byte '%')
      (hrest : Matching cfg fmt args) : Matching cfg (c :: fmt) args
  | directive {fmt fmt' : List UInt8} {args args' : List Arg} {spec : Spec}
      {input : Input} {ps : List Piece} (hspec : getSpec cfg fmt args = some (spec, input))
      (htaken : directivePieces cfg spec input = some (ps, fmt', args'))
      (hrest : Matching cfg fmt' args') : Matching cfg (byte '%' :: fmt) args

/-!
## The format is used up
-/

theorem getFlags_length (fmt : List UInt8) (flags : Flags) :
    (getFlags fmt flags).2.length ≤ fmt.length := by
  fun_induction getFlags fmt flags with
  | case1 flags => exact Nat.le_refl _
  | case7 flags c fmt => exact Nat.le_refl _
  | _ => simp only [List.length_cons]; omega

theorem skipAtoi_length (fmt : List UInt8) (i : Int) :
    (skipAtoi fmt i).2.length ≤ fmt.length := by
  fun_induction skipAtoi fmt i with
  | case1 i => exact Nat.le_refl _
  | case2 c fmt i hc ih => simp only [List.length_cons]; omega
  | case3 c fmt i hc => exact Nat.le_refl _

variable {spec : Spec} {input : Input} {cfg : Config} {fmt : List UInt8} {args : List Arg}

theorem getWidth_length {spec' : Spec} {input' : Input}
    (h : getWidth spec input = some (spec', input')) :
    input'.1.length ≤ input.1.length := by
  obtain ⟨fmt, args⟩ := input
  unfold getWidth at h
  simp only at h
  split at h
  · cases h
    exact skipAtoi_length fmt 0
  · split at h
    · rw [Option.map_eq_some_iff] at h
      obtain ⟨⟨value, rest⟩, _, h⟩ := h
      simp only at h
      split at h <;> cases h <;> simp
    · cases h
      exact Nat.le_refl _

theorem getPrecision_length {spec' : Spec} {input' : Input}
    (h : getPrecision spec input = some (spec', input')) :
    input'.1.length ≤ input.1.length := by
  obtain ⟨fmt, args⟩ := input
  unfold getPrecision at h
  simp only at h
  have htail : fmt.tail.length ≤ fmt.length := by simp
  split at h
  · split at h
    · cases h
      exact Nat.le_trans (skipAtoi_length fmt.tail 0) htail
    · split at h
      · rw [Option.map_eq_some_iff] at h
        obtain ⟨⟨value, rest⟩, _, h⟩ := h
        cases h
        simp only [List.length_tail]
        omega
      · cases h
        exact htail
  · cases h
    exact Nat.le_refl _

theorem getQualifier_length (cfg : Config) (spec : Spec) (input : Input) :
    (getQualifier cfg spec input).2.1.length ≤ input.1.length := by
  obtain ⟨fmt, args⟩ := input
  unfold getQualifier
  simp only
  split
  · split <;> simp only [List.length_tail] <;> omega
  · exact Nat.le_refl _

theorem getSpec_length (h : getSpec cfg fmt args = some (spec, input)) :
    input.1.length ≤ fmt.length := by
  unfold getSpec at h
  simp only at h
  split at h
  · cases h
  · next spec1 input1 hwidth =>
      rw [Option.map_eq_some_iff] at h
      obtain ⟨⟨spec2, input2⟩, hprecision, h⟩ := h
      have hqualifier := getQualifier_length cfg spec2 input2
      simp only at h
      rw [h] at hqualifier
      calc
        input.1.length ≤ input2.1.length := hqualifier
        _ ≤ input1.1.length := getPrecision_length hprecision
        _ ≤ (getFlags fmt {}).2.length := getWidth_length hwidth
        _ ≤ fmt.length := getFlags_length fmt {}

theorem directivePieces_length {ps : List Piece} {rest : Input}
    (h : directivePieces cfg spec input = some (ps, rest)) :
    rest.1.length ≤ input.1.length := by
  obtain ⟨fmt, args⟩ := input
  have htail : rest.1 = fmt.tail := by
    unfold directivePieces at h
    simp only at h
    split at h
    · rw [Option.map_eq_some_iff] at h
      obtain ⟨taken, _, h⟩ := h
      cases h
      rfl
    · split at h <;> cases h
      rfl
    · split at h <;> cases h
      rfl
    · cases h
      rfl
    · rw [Option.map_eq_some_iff] at h
      obtain ⟨taken, _, h⟩ := h
      cases h
      rfl
    · cases h
      rfl
  rw [htail]
  simp

theorem Matching.pieceLoop_some (hmatch : Matching cfg fmt args) {fuel : Nat}
    (hfuel : fmt.length ≤ fuel) :
    exists ps, pieceLoop cfg fuel fmt args = some ps := by
  induction hmatch generalizing fuel with
  | nil args => cases fuel <;> exact ⟨[], rfl⟩
  | plain hc _ ih =>
    rw [List.length_cons] at hfuel
    obtain ⟨fuel, rfl⟩ : exists n, fuel = n + 1 := ⟨fuel - 1, by omega⟩
    obtain ⟨ps, hps⟩ := @ih fuel (by omega)
    exact ⟨_, by rw [pieceLoop, if_pos hc, hps]; rfl⟩
  | @directive fmt fmt' args args' spec input taken hspec htaken _ ih =>
    have hlength := Nat.le_trans (directivePieces_length htaken) (getSpec_length hspec)
    rw [List.length_cons] at hfuel
    obtain ⟨fuel, rfl⟩ : exists n, fuel = n + 1 := ⟨fuel - 1, by omega⟩
    obtain ⟨ps, hps⟩ := @ih fuel (Nat.le_trans hlength (by omega))
    refine ⟨taken ++ ps, ?_⟩
    rw [pieceLoop, if_neg (by simp), hspec]
    simp only [htaken, hps]
    rfl

theorem matching_of_pieceLoop {fuel : Nat} {ps : List Piece}
    (h : pieceLoop cfg fuel fmt args = some ps) :
    Matching cfg fmt args := by
  induction fuel generalizing fmt args ps with
  | zero =>
    cases fmt with
    | nil => exact .nil args
    | cons c fmt => cases h
  | succ fuel ih =>
    cases fmt with
    | nil => exact .nil args
    | cons c fmt =>
      unfold pieceLoop at h
      by_cases hc : c ≠ byte '%'
      · rw [if_pos hc, Option.map_eq_some_iff] at h
        obtain ⟨rest, hrest, _⟩ := h
        exact .plain hc (ih hrest)
      · rw [if_neg hc] at h
        rw [ne_eq, not_not] at hc
        subst hc
        split at h
        · cases h
        · next spec input hspec =>
            split at h
            · cases h
            · next taken fmt' args' htaken =>
                rw [Option.map_eq_some_iff] at h
                obtain ⟨rest, hrest, _⟩ := h
                exact .directive hspec htaken (ih hrest)

theorem matching_iff_pieces {fmt : CString} :
    Matching cfg fmt.bytes args <-> (pieces cfg fmt args).isSome := by
  constructor
  · intro hmatch
    obtain ⟨ps, hps⟩ := hmatch.pieceLoop_some (Nat.le_refl _)
    exact Option.isSome_of_eq_some hps
  · intro hsome
    obtain ⟨ps, hps⟩ := Option.isSome_iff_exists.mp hsome
    exact matching_of_pieceLoop hps

instance (cfg : Config) (fmt : CString) (args : List Arg) :
    Decidable (Matching cfg fmt.bytes args) :=
  decidable_of_iff _ matching_iff_pieces.symm

/-- The pieces that a format and matching arguments describe. -/
def described (cfg : Config) (fmt : CString) (args : List Arg) : List Piece :=
  (pieces cfg fmt args).getD []

theorem Matching.pieces_eq {fmt : CString} (hmatch : Matching cfg fmt.bytes args) :
    pieces cfg fmt args = some (described cfg fmt args) := by
  unfold described
  obtain ⟨ps, hps⟩ := Option.isSome_iff_exists.mp (matching_iff_pieces.mp hmatch)
  rw [hps]
  rfl

/-!
## Emission
-/

/-- The characters that a piece emits from the present pointer on. -/
def emit (stop : Nat) (o : Out) (p : Piece) : Out :=
  Out.puts stop o (p.lay (fun _ => o.cursor ≤ stop) 0)

@[simp] theorem puts_nil (stop : Nat) (o : Out) : Out.puts stop o [] = o := rfl

theorem puts_append (stop : Nat) (o : Out) (xs ys : List UInt8) :
    Out.puts stop o (xs ++ ys) = Out.puts stop (Out.puts stop o xs) ys :=
  BoundedWriter.puts_append

theorem puts_cons (stop : Nat) (o : Out) (c : UInt8) (xs : List UInt8) :
    Out.puts stop o (c :: xs) = Out.puts stop (Out.put stop o c) xs := rfl

theorem divide_rest_lt {num base room : Nat} (hnum : num < 10 ^ (room + 1)) :
    (divide num base).2 < 10 ^ room := by
  have hten : num / 10 < 10 ^ room := by
    apply Nat.div_lt_of_lt_mul
    rw [Nat.pow_succ] at hnum
    omega
  unfold divide
  split
  · exact hten
  · exact Nat.lt_of_le_of_lt (by omega) hten

theorem digitLoop_isSome {digits : List UInt8} {base room num : Nat}
    (hnum : num < 10 ^ room) : (digitLoop digits base room num).isSome := by
  induction room generalizing num with
  | zero =>
    have hzero : num = 0 := by simpa using hnum
    simp [digitLoop, hzero]
  | succ room ih =>
    unfold digitLoop
    by_cases hzero : num = 0
    · simp [hzero]
    · rw [if_neg hzero, Option.isSome_map]
      exact ih (divide_rest_lt hnum)

theorem tmpDigits_eq (cfg : Config) (type : Flags) (num : BitVec 32) (base : Nat) :
    tmpDigits cfg type num base = some (digitsOf cfg type num base) := by
  have hsome : (tmpDigits cfg type num base).isSome := by
    unfold tmpDigits
    by_cases hzero : num = 0
    · simp [hzero]
    · rw [if_neg hzero]
      apply digitLoop_isSome
      have hroom : 16 ≤ tmpSize cfg := by
        unfold tmpSize
        split <;> omega
      calc
        num.toNat < 2 ^ 32 := num.isLt
        _ ≤ 10 ^ 16 := by decide
        _ ≤ 10 ^ tmpSize cfg := Nat.pow_le_pow_right (by omega) hroom
  unfold digitsOf
  rw [Option.eq_some_of_isSome hsome]
  rfl

theorem printNumber_eq (cfg : Config) (stop : Nat) (o : Out) (num : BitVec 32)
    (base : Nat) (s precision : Int) (type : Flags) :
    printNumber cfg stop o num base s precision type =
      some ((numberPieces cfg num base s precision type).foldl (emit stop) o) := by
  have hmax (i : Int) : (if i > precision then i else precision) = max i precision := by
    omega
  unfold printNumber numberPieces leadingBlanks
  rcases getSign type num with ⟨sign, num'⟩
  simp only [tmpDigits_eq, hmax]
  cases hleft : type.left <;> cases hzero : type.zeropad <;> cases sign
  all_goals simp [emit, Out.pad, Piece.lay, widthLeft, puts_append, puts_cons]

theorem emit_text (stop : Nat) (o : Out) (bytes : List UInt8) :
    emit stop o (.text bytes) = Out.puts stop o bytes := rfl

theorem justify_emitted (stop : Nat) (o : Out) (left : Bool) (width : Int)
    (text : List UInt8) (count : Int) (hcount : count = width - text.length) :
    emit stop o (.text (justify left width text)) =
      (let (o, count) :=
        if !left then Out.pad stop o (byte ' ') count else (o, count)
      (Out.pad stop (Out.puts stop o text) (byte ' ') count).1) := by
  subst hcount
  cases left <;> simp [emit_text, justify, Out.pad, puts_append]

theorem length_stringText (precision : Int) (s : Option CString) :
    ((stringText precision s).length : Int) =
      (let len : Int := ((s.map CString.bytes).getD nullText).length
      if 0 < precision ∧ len > precision then precision else len) := by
  unfold stringText
  by_cases hprec : 0 < precision
  · simp only [hprec, if_true, true_and, List.length_take]
    split <;> omega
  · simp [hprec]

theorem take_stringText (precision : Int) (s : Option CString) :
    ((s.map CString.bytes).getD nullText).take (stringText precision s).length =
      stringText precision s := by
  unfold stringText
  split
  · rw [List.length_take, List.take_eq_take_min]
    simp
  · simp

theorem convert_eq (cfg : Config) (stop : Nat) (o : Out) (spec : Spec) (input : Input) :
    convert cfg stop o spec input = (directivePieces cfg spec input).map fun (ps, rest) =>
        (ps.foldl (emit stop) o, rest) := by
  obtain ⟨fmt, args⟩ := input
  unfold convert directivePieces
  cases hconv : conversion (first fmt) with
  | char =>
    simp only [hconv, Option.map_map]
    congr 1
    funext ⟨value, rest⟩
    have hpad := justify_emitted stop o spec.flags.left spec.fieldWidth
      [UInt8.ofNat (value.toNat % 256)] (spec.fieldWidth - 1) (by simp)
    simp only [Function.comp_apply, List.foldl_cons, List.foldl_nil, hpad]
    rfl
  | string =>
    simp only [hconv]
    rcases args with _ | ⟨_ | _ | s | _, args⟩
    case cons.str =>
      have hpad := justify_emitted stop o spec.flags.left spec.fieldWidth
        (stringText spec.precision s) _ rfl
      simp only [Option.map_some, List.foldl_cons, List.foldl_nil, hpad]
      simp only [← length_stringText, Int.toNat_natCast, take_stringText]
    all_goals rfl
  | pointer =>
    simp only [hconv]
    rcases args with _ | ⟨_ | _ | _ | value, args⟩
    case cons.ptr =>
      by_cases hwidth : spec.fieldWidth = -1
      · simp [hwidth, printNumber_eq]
      · simp [hwidth, printNumber_eq]
    all_goals rfl
  | percent =>
    simp only [hconv]
    rfl
  | number base sign large =>
    simp only [hconv]
    cases getNumber spec.qualifier { spec.flags with sign := sign, large := large } args with
    | none => rfl
    | some taken => simp [printNumber_eq]
  | other =>
    simp only [hconv]
    cases fmt with
    | nil => rfl
    | cons c fmt => rfl

theorem formatLoop_eq (cfg : Config) (stop fuel : Nat) (fmt : List UInt8)
    (args : List Arg) (o : Out) :
    formatLoop cfg stop fuel fmt args o =
      (pieceLoop cfg fuel fmt args).map fun ps => ps.foldl (emit stop) o := by
  induction fuel generalizing fmt args o with
  | zero => cases fmt <;> rfl
  | succ fuel ih =>
    cases fmt with
    | nil => rfl
    | cons c fmt =>
      unfold formatLoop pieceLoop
      by_cases hc : c ≠ byte '%'
      · rw [if_pos hc, if_pos hc, ih, Option.map_map]
        rfl
      · rw [if_neg hc, if_neg hc]
        cases getSpec cfg fmt args with
        | none => rfl
        | some found =>
          obtain ⟨spec, input⟩ := found
          simp only [convert_eq]
          cases directivePieces cfg spec input with
          | none => rfl
          | some laid =>
            obtain ⟨ps, fmt, args⟩ := laid
            simp only [Option.map_some, ih, Option.map_map]
            congr 1
            funext rest
            simp

/-!
## Layout in a buffer
-/

/-- A position behind `buf` has an address that is not behind `end`. -/
def fitsBuffer (buf stop position : Nat) : Bool := (buf + position) % addresses ≤ stop

theorem foldl_emit_eq {buf stop position : Nat} {o : Out}
    (hcursor : o.cursor = (buf + position) % addresses) (ps : List Piece) :
    ps.foldl (emit stop) o = Out.puts stop o (layout (fitsBuffer buf stop) position ps) := by
  induction ps generalizing o position with
  | nil => rfl
  | cons p ps ih =>
    have hlay : p.lay (fun _ => decide (o.cursor ≤ stop)) 0 =
        p.lay (fitsBuffer buf stop) position := by
      cases p with
      | text bytes => rfl
      | signed sign lead fill size body =>
        simp only [Piece.lay, widthLeft, fitsBuffer, hcursor]
        rfl
    have hbound : o.cursor < addresses := by
      rw [hcursor]
      exact Nat.mod_lt _ (by decide)
    have hnext : (emit stop o p).cursor =
        (buf + (position + (p.lay (fitsBuffer buf stop) position).length)) %
          addresses := by
      unfold emit Out.puts
      rw [puts_cursor hbound, hlay, hcursor, Nat.mod_add_mod, Nat.add_assoc]
    rw [List.foldl_cons, ih hnext, layout, Printf.puts_append]
    unfold emit
    rw [hlay]

def emittedText (buf size : Nat) (ps : List Piece) : List UInt8 :=
  layout (fitsBuffer buf (lastAddress buf size)) 0 ps

theorem rtVsnprintf_eq {memory : Nat -> UInt8} {buf size : Nat}
    {fmt : CString} (hbuf : buf < addresses)
    (hmatch : Matching cfg fmt.bytes args) :
    rtVsnprintf cfg memory buf size fmt args = some (finish buf (lastAddress buf size)
        (Out.puts (lastAddress buf size) { memory := memory, written := [], cursor := buf }
          (emittedText buf size (described cfg fmt args)))) := by
  have hpieces := hmatch.pieces_eq
  unfold pieces at hpieces
  unfold rtVsnprintf emittedText
  simp only [formatLoop_eq, hpieces, Option.map_some]
  rw [foldl_emit_eq]
  exact (Nat.mod_eq_of_lt hbuf).symm

end RtThread.Kernel.Printf
