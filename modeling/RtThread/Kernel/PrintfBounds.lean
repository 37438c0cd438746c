import RtThread.Kernel.PrintfLayout

/-!
# Bounds and truncation of formatted output

The text of a format in a buffer of limited size differs from its full text in one
way: a sign behind the end of the buffer is not charged to the width of its field, so
that one more fill character follows it.
-/

namespace RtThread.Kernel.Printf

open Text BoundedWriter

/-!
## Limited layouts
-/

def fullText (ps : List Piece) : List UInt8 := layout (fun _ => true) 0 ps

/-- The position of a sign that is followed or preceded by fill characters. -/
def Piece.paddedSign (position : Nat) : Piece -> List Nat
  | .text _ => []
  | .signed _ _ _ size _ => if 0 < size then [position] else []

/-- The positions of such signs in the full text from a position on. -/
def paddedSignsFrom : Nat -> List Piece -> List Nat
  | _, [] => []
  | position, p :: ps =>
    p.paddedSign position ++
      paddedSignsFrom (position + (p.lay (fun _ => true) position).length) ps

def paddedSigns (ps : List Piece) : List Nat := paddedSignsFrom 0 ps

def countedLength (size : Nat) (ps : List Piece) : Nat :=
  (fullText ps).length + (paddedSigns ps).countP (size ≤ ·)

def inside (size position : Nat) : Bool := position < size

theorem layout_congr {f g : Nat -> Bool} {position : Nat} {ps : List Piece}
    (hsame : forall p, p < position + (layout f position ps).length -> f p = g p) :
    layout f position ps = layout g position ps := by
  induction ps generalizing position with
  | nil => rfl
  | cons p ps ih =>
    simp only [layout, List.length_append] at hsame ⊢
    have hlay : p.lay f position = p.lay g position := by
      cases p with
      | text bytes => rfl
      | signed sign lead fill size body =>
        have hhere := hsame position (by simp only [Piece.lay, List.length_cons]; omega)
        simp only [Piece.lay, widthLeft, hhere]
    rw [← hlay, ih]
    intro q hq
    exact hsame q (by omega)

theorem paddedSignsFrom_ge {position : Nat} {ps : List Piece} {p : Nat}
    (hp : p ∈ paddedSignsFrom position ps) : position ≤ p := by
  induction ps generalizing position with
  | nil => cases hp
  | cons q ps ih =>
    rw [paddedSignsFrom, List.mem_append] at hp
    rcases hp with hhere | hrest
    · cases q with
      | text bytes => cases hhere
      | signed sign lead fill size body =>
        simp only [Piece.paddedSign] at hhere
        split at hhere
        · rw [List.mem_singleton] at hhere
          omega
        · cases hhere
    · have hle := ih hrest
      omega

theorem Piece.lay_behind {room position position' : Nat} (hbehind : room ≤ position')
    (p : Piece) :
    (p.lay (inside room) position').length =
      (p.lay (fun _ => true) position).length + (p.paddedSign position).length := by
  cases p with
  | text bytes => rfl
  | signed sign lead fill size body =>
    have hout : inside room position' = false := by
      simpa [inside] using hbehind
    have hsign : (if 0 < size then [position] else []).length =
        if 0 < size then 1 else 0 := by
      split <;> rfl
    simp only [Piece.lay, Piece.paddedSign, widthLeft, hout, hsign, List.length_cons,
      List.length_append, List.length_replicate, Bool.false_eq_true, if_false, if_true]
    split <;> omega

theorem length_layout_behind {room position position' : Nat}
    (hbehind : room ≤ position') (ps : List Piece) :
    (layout (inside room) position' ps).length = (layout (fun _ => true) position ps).length +
        (paddedSignsFrom position ps).length := by
  induction ps generalizing position position' with
  | nil => rfl
  | cons p ps ih =>
    have hhere := @Piece.lay_behind room position position' hbehind p
    have hrest := @ih (position + (p.lay (fun _ => true) position).length)
      (position' + (p.lay (inside room) position').length) (by omega)
    simp only [layout, paddedSignsFrom, List.length_append, hrest]
    omega

theorem Piece.lay_inside {room position : Nat} (hroom : position < room) (p : Piece) :
    p.lay (inside room) position = p.lay (fun _ => true) position := by
  cases p with
  | text bytes => rfl
  | signed sign lead fill size body =>
    have hin : inside room position = true := by simpa [inside] using hroom
    simp only [Piece.lay, widthLeft, hin]

theorem length_layout_inside {room position : Nat} (ps : List Piece) :
    (layout (inside room) position ps).length = (layout (fun _ => true) position ps).length +
        (paddedSignsFrom position ps).countP (room ≤ ·) := by
  induction ps generalizing position with
  | nil => rfl
  | cons p ps ih =>
    by_cases hroom : position < room
    · have hlay := Piece.lay_inside hroom p
      have hnone : (p.paddedSign position).countP (room ≤ ·) = 0 := by
        rw [List.countP_eq_zero]
        intro q hq
        cases p with
        | text bytes => cases hq
        | signed sign lead fill size body =>
          simp only [Piece.paddedSign] at hq
          split at hq
          · rw [List.mem_singleton] at hq
            simpa [hq] using hroom
          · cases hq
      simp only [layout, paddedSignsFrom, List.length_append, List.countP_append, hlay, hnone, ih]
      omega
    · have hall : (paddedSignsFrom position (p :: ps)).countP (room ≤ ·) =
          (paddedSignsFrom position (p :: ps)).length := by
        rw [List.countP_eq_length]
        intro q hq
        have hle := paddedSignsFrom_ge hq
        simp only [decide_eq_true_eq]
        omega
      rw [hall]
      exact length_layout_behind (by omega) (p :: ps)

theorem take_layout_inside {room position : Nat} (ps : List Piece) :
    (layout (inside room) position ps).take (room - position) =
      (layout (fun _ => true) position ps).take (room - position) := by
  induction ps generalizing position with
  | nil => rfl
  | cons p ps ih =>
    by_cases hroom : position < room
    · have hlay := Piece.lay_inside hroom p
      have hrest := @ih (position + (p.lay (fun _ => true) position).length)
      simp only [layout, hlay, List.take_append]
      rw [Nat.sub_add_eq] at hrest
      rw [hrest]
    · rw [Nat.sub_eq_zero_of_le (by omega)]
      rfl

theorem length_layout_size (size : Nat) (ps : List Piece) :
    (layout (inside size) 0 ps).length = countedLength size ps :=
  length_layout_inside ps

/-!
## The emitted text
-/

section Call

variable {cfg : Config} {memory : Nat -> UInt8} {buf size : Nat} {ps : List Piece}

theorem lastAddress_eq (hbuf : buf < addresses) (hsize : 0 < size) (hlimit : size < addresses) :
    lastAddress buf size = min (buf + size - 1) (addresses - 1) := by
  unfold lastAddress addresses at *
  simp only
  split <;> omega

theorem fitsBuffer_eq (hsize : 0 < size) (hlimit : size < addresses) {position : Nat}
    (hposition : buf + position < addresses) :
    fitsBuffer buf (lastAddress buf size) position = inside size position := by
  unfold fitsBuffer inside
  rw [Nat.mod_eq_of_lt hposition, lastAddress_eq (by omega) hsize hlimit]
  simp only [decide_eq_decide]
  omega

theorem emittedText_eq (hsize : 0 < size) (hlimit : size < addresses)
    (hroom : buf + (emittedText buf size ps).length < addresses ∨
      buf + countedLength size ps < addresses) :
    emittedText buf size ps = layout (inside size) 0 ps := by
  unfold emittedText
  rcases hroom with hroom | hroom
  · apply layout_congr
    intro p hp
    apply fitsBuffer_eq hsize hlimit
    unfold emittedText at hroom
    omega
  · symm
    apply layout_congr
    intro p hp
    rw [length_layout_size] at hp
    exact (fitsBuffer_eq hsize hlimit (by omega)).symm

theorem emittedText_room_iff (hsize : 0 < size) (hlimit : size < addresses) :
    buf + (emittedText buf size ps).length < addresses <->
      buf + countedLength size ps < addresses := by
  constructor
  · intro hroom
    have heq := emittedText_eq hsize hlimit (Or.inl hroom)
    rwa [heq, length_layout_size] at hroom
  · intro hroom
    have heq := emittedText_eq hsize hlimit (Or.inr hroom)
    rwa [heq, length_layout_size]

def printed (memory : Nat -> UInt8) (buf size : Nat) (ps : List Piece) : Out :=
  Out.puts (lastAddress buf size) { memory := memory, written := [], cursor := buf }
    (emittedText buf size ps)

theorem printed_cursor (hbuf : buf < addresses) : (printed memory buf size ps).cursor =
      (buf + (emittedText buf size ps).length) % addresses :=
  puts_cursor hbuf

theorem mem_printed_written (hbuf : buf < addresses) {a : Nat} :
    a ∈ (printed memory buf size ps).written <-> exists i,
      i < (emittedText buf size ps).length ∧
        a = (buf + i) % addresses ∧ a ≤ lastAddress buf size := by
  unfold printed Out.puts
  rw [mem_written_puts hbuf]
  simp

def terminator (buf size : Nat) (o : Out) : Nat :=
  if o.cursor ≤ lastAddress buf size then o.cursor else lastAddress buf size

theorem finish_memory_terminator {o : Out} :
    (finish buf (lastAddress buf size) o).memory (terminator buf size o) = 0 := by
  simp [finish, terminator]

theorem mem_finish_written {o : Out} {a : Nat} :
    a ∈ (finish buf (lastAddress buf size) o).written <->
      a ∈ o.written ∨ a = terminator buf size o := by
  simp [finish, terminator]

theorem terminator_printed (hbuf : buf < addresses) (hsize : 0 < size)
    (hlimit : size < addresses) (hroom : buf + countedLength size ps < addresses) :
    terminator buf size (printed memory buf size ps) =
      buf + min (size - 1) (countedLength size ps) := by
  have hlength : (emittedText buf size ps).length = countedLength size ps := by
    rw [emittedText_eq hsize hlimit (Or.inr hroom), length_layout_size]
  have hcursor : (printed memory buf size ps).cursor = buf + countedLength size ps := by
    rw [printed_cursor hbuf, hlength, Nat.mod_eq_of_lt hroom]
  unfold terminator
  rw [hcursor, lastAddress_eq hbuf hsize hlimit]
  split <;> omega

/-- No byte outside the buffer is written, and a buffer that is not empty holds a
zero byte. -/
def StaysInside (buf size : Nat) (r : Result) : Prop :=
  (forall a, a ∈ r.written -> buf ≤ a ∧ a < buf + size) ∧
    (0 < size -> exists a, buf ≤ a ∧ a < buf + size ∧ r.memory a = 0)

theorem staysInside_of_room (hbuf : buf < addresses) (hsize : 0 < size)
    (hlimit : size < addresses) (hroom : buf + countedLength size ps < addresses) :
    StaysInside buf size (finish buf (lastAddress buf size) (printed memory buf size ps)) := by
  have hterminator := @terminator_printed memory buf size ps hbuf hsize hlimit hroom
  constructor
  · intro a ha
    rw [mem_finish_written, mem_printed_written hbuf] at ha
    rcases ha with ⟨i, hi, ha, hlast⟩ | ha
    · have hemitted := (emittedText_room_iff hsize hlimit).mpr hroom
      have hfits := @fitsBuffer_eq buf size hsize hlimit i (by omega)
      have hin : inside size i = true := by
        rw [← hfits, fitsBuffer, ← ha]
        simpa using hlast
      have hi : i < size := by simpa [inside] using hin
      rw [Nat.mod_eq_of_lt (by omega)] at ha
      omega
    · rw [hterminator] at ha
      omega
  · intro _
    refine ⟨terminator buf size (printed memory buf size ps), ?_, ?_, finish_memory_terminator⟩
    · rw [hterminator]
      omega
    · rw [hterminator]
      omega

theorem zero_mem_written (hbuf : buf < addresses)
    (hwrap : addresses ≤ buf + (emittedText buf size ps).length) :
    0 ∈ (finish buf (lastAddress buf size) (printed memory buf size ps)).written := by
  rw [mem_finish_written, mem_printed_written hbuf]
  by_cases hmore : addresses - buf < (emittedText buf size ps).length
  · refine Or.inl ⟨addresses - buf, hmore, ?_, Nat.zero_le _⟩
    rw [Nat.add_sub_cancel' (Nat.le_of_lt hbuf), Nat.mod_self]
  · right
    have hcursor := @printed_cursor memory buf size ps hbuf
    have hend : buf + (emittedText buf size ps).length = addresses := by omega
    rw [hend, Nat.mod_self] at hcursor
    rw [terminator, hcursor, if_pos (Nat.zero_le _)]

end Call

/-!
## In bounds
-/

/-- For a buffer anywhere but at address zero, a call with matching arguments returns. It
stays inside the buffer exactly if the buffer has a cell and the counted text ends before
the address space does. -/
theorem rt_vsnprintf_stays_inside_iff (cfg : Config) (memory : Nat -> UInt8)
    (buf size : Nat) (fmt : CString) (args : List Arg) (hnull : 0 < buf)
    (hbuf : buf < addresses) (hlimit : size < addresses)
    (hmatch : Matching cfg fmt.bytes args) :
    exists r, rtVsnprintf cfg memory buf size fmt args = some r ∧
      (StaysInside buf size r <->
        0 < size ∧ buf + countedLength size (described cfg fmt args) < addresses) := by
  refine ⟨_, rtVsnprintf_eq hbuf hmatch, ?_⟩
  change StaysInside buf size
    (finish buf (lastAddress buf size) (printed memory buf size _)) <-> _
  constructor
  · rintro ⟨hinside, _⟩
    have hsize : 0 < size := by
      have hlast := hinside _ (mem_finish_written.mpr (Or.inr rfl))
      omega
    refine ⟨hsize, (emittedText_room_iff hsize hlimit).mp ?_⟩
    by_contra hwrap
    have hzero := hinside 0 (zero_mem_written hbuf (by omega))
    omega
  · rintro ⟨hsize, hroom⟩
    exact staysInside_of_room hbuf hsize hlimit hroom

def sampleFormat : CString := ⟨['n', '=', '%', '0', '5', 'd'].map byte, by decide⟩

def sampleArgs : List Arg := [.int (-3)]

def plainConfig : Config := { longlong := false, special := false }

theorem rt_vsnprintf_stays_inside_four_bytes :
    Matching plainConfig sampleFormat.bytes sampleArgs ∧
      exists r, rtVsnprintf plainConfig (fun _ => 1) 4096 4 sampleFormat sampleArgs =
        some r ∧ StaysInside 4096 4 r := by
  have hmatch : Matching plainConfig sampleFormat.bytes sampleArgs := by decide +kernel
  obtain ⟨r, hcall, hiff⟩ := rt_vsnprintf_stays_inside_iff plainConfig (fun _ => 1) 4096 4
    sampleFormat sampleArgs (by decide) (by decide) (by decide) hmatch
  exact ⟨hmatch, r, hcall, hiff.mpr (by decide +kernel)⟩

/-- With the size zero `end` is the last address there is, and the text and its
terminator are written behind the empty buffer. -/
theorem empty_buffer_is_written :
    exists r, rtVsnprintf plainConfig (fun _ => 1) 4096 0 sampleFormat sampleArgs = some r ∧
      r.written = [4096, 4097, 4098, 4099, 4100, 4101, 4102, 4103] ∧
        ¬ StaysInside 4096 0 r := by
  have hrun : (rtVsnprintf plainConfig (fun _ => 1) 4096 0 sampleFormat sampleArgs).map
      Result.written = some [4096, 4097, 4098, 4099, 4100, 4101, 4102, 4103] := by
    decide +kernel
  rw [Option.map_eq_some_iff] at hrun
  obtain ⟨r, hcall, hwritten⟩ := hrun
  refine ⟨r, hcall, hwritten, ?_⟩
  rintro ⟨hinside, _⟩
  have hfirst := hinside 4096 (by rw [hwritten]; decide)
  omega

/-!
## Truncation
-/

theorem paddedSignsFrom_lt {position : Nat} {ps : List Piece} {p : Nat}
    (hp : p ∈ paddedSignsFrom position ps) :
    p < position + (layout (fun _ => true) position ps).length := by
  induction ps generalizing position with
  | nil => cases hp
  | cons q ps ih =>
    rw [paddedSignsFrom, List.mem_append] at hp
    rw [layout, List.length_append]
    rcases hp with hhere | hrest
    · cases q with
      | text bytes => cases hhere
      | signed sign lead fill size body =>
        simp only [Piece.paddedSign] at hhere
        split at hhere
        · rw [List.mem_singleton] at hhere
          simp only [Piece.lay, List.length_cons]
          omega
        · cases hhere
    · have hlt := ih hrest
      omega

theorem length_fullText_le (size : Nat) (ps : List Piece) :
    (fullText ps).length ≤ countedLength size ps :=
  Nat.le_add_right _ _

theorem countedLength_of_fits {size : Nat} {ps : List Piece} (hfits : (fullText ps).length < size) :
    countedLength size ps = (fullText ps).length := by
  have hnone : (paddedSigns ps).countP (size ≤ ·) = 0 := by
    rw [List.countP_eq_zero]
    intro p hp
    have hlt := paddedSignsFrom_lt hp
    simp only [decide_eq_true_eq]
    unfold fullText at hfits
    omega
  unfold countedLength
  omega

/-- The buffer holds the first characters of a text and a terminator. -/
def HoldsText (buf size : Nat) (text : List UInt8) (r : Result) : Prop :=
  let n := min (size - 1) text.length
  (List.range n).map (fun i => r.memory (buf + i)) = text.take n ∧ r.memory (buf + n) = 0

/-- The buffer, and the text counted in it, end before the address space does. -/
structure FarBelow (buf size : Nat) (ps : List Piece) : Prop where
  nonempty : 0 < size
  buffer : buf + size < addresses
  text : buf + countedLength size ps < addresses

section Truncated

variable {cfg : Config} {memory : Nat -> UInt8} {buf size : Nat} {ps : List Piece}

theorem FarBelow.terminator (hfar : FarBelow buf size ps) :
    terminator buf size (printed memory buf size ps) =
      buf + min (size - 1) (fullText ps).length := by
  have hbuffer := hfar.buffer
  rw [terminator_printed (by omega) hfar.nonempty (by omega) hfar.text]
  by_cases hfits : (fullText ps).length < size
  · rw [countedLength_of_fits hfits]
  · have hle := length_fullText_le size ps
    omega

theorem FarBelow.emitted_get (hfar : FarBelow buf size ps) {i : Nat} (hi : i < size) :
    (emittedText buf size ps)[i]? = (fullText ps)[i]? := by
  have hbuffer := hfar.buffer
  have htake := @take_layout_inside size 0 ps
  rw [Nat.sub_zero] at htake
  rw [emittedText_eq hfar.nonempty (by omega) (Or.inr hfar.text),
    ← List.getElem?_take_of_lt hi, htake, List.getElem?_take_of_lt hi]
  rfl

theorem FarBelow.printed_memory (hfar : FarBelow buf size ps) {i : Nat}
    (hi : i < size) (hlength : i < (fullText ps).length) :
    some ((printed memory buf size ps).memory (buf + i)) = (fullText ps)[i]? := by
  have hbuffer := hfar.buffer
  have hroom := (emittedText_room_iff hfar.nonempty (by omega)).mpr hfar.text
  have hi' : i < (emittedText buf size ps).length := by
    rw [emittedText_eq hfar.nonempty (by omega) (Or.inr hfar.text), length_layout_size]
    exact Nat.lt_of_lt_of_le hlength (length_fullText_le size ps)
  have hlast : buf + i ≤ lastAddress buf size := by
    rw [lastAddress_eq (by omega) hfar.nonempty (by omega)]
    omega
  rw [← hfar.emitted_get hi, List.getElem?_eq_getElem hi']
  congr 1
  exact memory_puts_get (Nat.le_of_lt hroom) hi' hlast

theorem FarBelow.holdsText (hfar : FarBelow buf size ps) : HoldsText buf size (fullText ps)
      (finish buf (lastAddress buf size) (printed memory buf size ps)) := by
  have hterminator := @FarBelow.terminator memory buf size ps hfar
  constructor
  · apply List.ext_getElem?
    intro i
    by_cases hi : i < min (size - 1) (fullText ps).length
    · have hne : buf + i ≠ Printf.terminator buf size (printed memory buf size ps) := by
        rw [hterminator]
        omega
      rw [List.getElem?_take_of_lt hi,
        ← @FarBelow.printed_memory memory buf size ps hfar i (by omega) (by omega)]
      simp only [List.getElem?_map, List.getElem?_range hi, Option.map_some]
      exact congrArg some (Function.update_of_ne hne _ _)
    · rw [List.getElem?_eq_none (by simp only [List.length_map, List.length_range]; omega),
        List.getElem?_eq_none (by simp only [List.length_take]; omega)]
  · rw [← hterminator]
    exact finish_memory_terminator

theorem FarBelow.value (hfar : FarBelow buf size ps) :
    (finish buf (lastAddress buf size) (printed memory buf size ps)).value =
      (countedLength size ps : Int).bmod addresses := by
  have hbuffer := hfar.buffer
  have hcursor := @printed_cursor memory buf size ps (by omega)
  rw [emittedText_eq hfar.nonempty (by omega) (Or.inr hfar.text), length_layout_size,
    Nat.mod_eq_of_lt hfar.text] at hcursor
  simp only [finish, hcursor]
  congr 1
  omega

end Truncated

theorem bmod_addresses_inj {m n : Nat} (hm : m < addresses) (hn : n < addresses) :
    (m : Int).bmod addresses = (n : Int).bmod addresses <-> m = n := by
  constructor
  · intro h
    have hmod := congrArg (· % (addresses : Int)) h
    simp only [Int.bmod_emod] at hmod
    rw [Int.emod_eq_of_lt (by omega) (by omega), Int.emod_eq_of_lt (by omega) (by omega)] at hmod
    omega
  · intro h
    rw [h]

theorem countP_ge_eq_iff {s t : Nat} (hst : s ≤ t) (l : List Nat) :
    l.countP (s ≤ ·) = l.countP (t ≤ ·) <-> forall p, p ∈ l -> s ≤ p -> t ≤ p := by
  induction l with
  | nil => simp
  | cons q l ih =>
    have hmono : l.countP (t ≤ ·) ≤ l.countP (s ≤ ·) := by
      apply List.countP_mono_left
      intro p _ hp
      simp only [decide_eq_true_eq] at hp ⊢
      omega
    simp only [List.countP_cons, List.forall_mem_cons, ← ih, decide_eq_true_eq]
    split <;> split <;> omega

theorem countedLength_eq_iff {s t : Nat} {ps : List Piece} :
    countedLength s ps = countedLength t ps <->
      forall p, p ∈ paddedSigns ps -> (p < s <-> p < t) := by
  unfold countedLength
  rw [Nat.add_left_cancel_iff]
  rcases Nat.le_total s t with hst | hst
  · rw [countP_ge_eq_iff hst]
    constructor
    · intro h p hp
      have hp' := h p hp
      omega
    · intro h p hp hs
      have hp' := h p hp
      omega
  · rw [eq_comm, countP_ge_eq_iff hst]
    constructor
    · intro h p hp
      have hp' := h p hp
      omega
    · intro h p hp hs
      have hp' := h p hp
      omega

/-- Two calls with the same format and matching arguments return. Each buffer holds the
first characters of the full text, and they return the same value exactly if no padded sign
lies in one buffer and behind the end of the other. -/
theorem rt_vsnprintf_truncation_iff (cfg : Config) (memory memory' : Nat -> UInt8)
    (buf buf' s s' : Nat) (fmt : CString) (args : List Arg)
    (hmatch : Matching cfg fmt.bytes args)
    (hfar : FarBelow buf s (described cfg fmt args))
    (hfar' : FarBelow buf' s' (described cfg fmt args)) :
    exists r r', rtVsnprintf cfg memory buf s fmt args = some r ∧
      rtVsnprintf cfg memory' buf' s' fmt args = some r' ∧
        ((r.value = r'.value ∧
          HoldsText buf s (fullText (described cfg fmt args)) r ∧
            HoldsText buf' s' (fullText (described cfg fmt args)) r') <->
          forall p, p ∈ paddedSigns (described cfg fmt args) -> (p < s <-> p < s')) := by
  have hbuffer := hfar.buffer
  have hbuffer' := hfar'.buffer
  have htext := hfar.text
  have htext' := hfar'.text
  refine ⟨_, _, rtVsnprintf_eq (by omega) hmatch, rtVsnprintf_eq (by omega) hmatch, ?_⟩
  have hvalue := @FarBelow.value memory buf s _ hfar
  have hvalue' := @FarBelow.value memory' buf' s' _ hfar'
  unfold printed at hvalue hvalue'
  rw [hvalue, hvalue', bmod_addresses_inj (by omega) (by omega), countedLength_eq_iff]
  constructor
  · exact fun h => h.1
  · exact fun h => ⟨h, hfar.holdsText, hfar'.holdsText⟩

theorem rt_vsnprintf_truncation_one_and_two :
    Matching plainConfig sampleFormat.bytes sampleArgs ∧
      exists r r',
        rtVsnprintf plainConfig (fun _ => 1) 4096 1 sampleFormat sampleArgs = some r ∧
          rtVsnprintf plainConfig (fun _ => 1) 8192 2 sampleFormat sampleArgs = some r' ∧
            r.value = r'.value := by
  have hmatch : Matching plainConfig sampleFormat.bytes sampleArgs := by decide +kernel
  obtain ⟨r, r', hcall, hcall', hiff⟩ := rt_vsnprintf_truncation_iff plainConfig
    (fun _ => 1) (fun _ => 1) 4096 8192 1 2 sampleFormat sampleArgs hmatch
    ⟨by decide, by decide, by decide +kernel⟩ ⟨by decide, by decide, by decide +kernel⟩
  exact ⟨hmatch, r, r', hcall, hcall', (hiff.mpr (by decide +kernel)).1⟩

/-- The sign of `n=-0003` is at position two: a buffer of two bytes counts eight
characters and one of three bytes counts seven. -/
theorem truncated_sign_counts_more :
    (rtVsnprintf plainConfig (fun _ => 1) 4096 2 sampleFormat sampleArgs).map
        Result.value = some 8 ∧
      (rtVsnprintf plainConfig (fun _ => 1) 4096 3 sampleFormat sampleArgs).map
        Result.value = some 7 := by
  decide +kernel

end RtThread.Kernel.Printf
