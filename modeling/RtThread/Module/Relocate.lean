import Mathlib.Tactic.IntervalCases
import RtThread.Kernel.Align
import RtThread.Library.ByteMemory

/-!
# Relocation of branches

`rt_module_arm_relocate` on the bytes of the module space.  The bit fields of an instruction
are disjoint, so they are cut out with remainders and joined with sums.
-/

namespace RtThread.Module.Relocate

open ByteMemory Kernel

def sword (x : Int) : Int := Int.bmod x (2 ^ 32)

/-- A field of `2 * half` values, with its sign. -/
def signExtend (half field : Nat) : Int :=
  if field / half % 2 = 1 then (field : Int) - 2 * half else field

def bit (n i : Nat) : Nat := n / 2 ^ i % 2

/-- The offset of a Thumb branch with the halves `upper` and `lower`. -/
def thumbOffset (upper lower : Nat) : Int :=
  let sign := bit upper 10
  let j1 := bit lower 13
  let j2 := bit lower 11
  signExtend (2 ^ 24) (sign * 2 ^ 24 + (1 - (j1 + sign) % 2) * 2 ^ 23 +
    (1 - (j2 + sign) % 2) * 2 ^ 22 + upper % 2 ^ 10 * 2 ^ 12 + lower % 2 ^ 11 * 2)

/-- Bit `i` of a signed number. -/
def sbit (offset : Int) (i : Nat) : Nat := (offset / 2 ^ i % 2).toNat

def thumbUpper (upper : Nat) (offset : Int) : Nat :=
  upper / 2 ^ 11 * 2 ^ 11 + sbit offset 24 * 2 ^ 10 + (offset / 2 ^ 12 % 2 ^ 10).toNat

def thumbLower (lower : Nat) (offset : Int) : Nat :=
  let sign := sbit offset 24
  let j1 := (sign + (1 - sbit offset 23)) % 2
  let j2 := (sign + (1 - sbit offset 22)) % 2
  lower / 2 ^ 14 * 2 ^ 14 + j1 * 2 ^ 13 + bit lower 12 * 2 ^ 12 + j2 * 2 ^ 11 +
    (offset / 2 % 2 ^ 11).toNat

/-- The offset of an ARM branch. -/
def armOffset (word : Nat) : Int := 4 * signExtend (2 ^ 23) (word % 2 ^ 24)

/-- The types of `ELF32_R_TYPE` that the switch has a case for, and all others. -/
inductive RelType where
  | none
  | abs32
  | pc24
  | plt32
  | call
  | jump24
  | rel32
  | v4bx
  | globDat
  | jumpSlot
  | relative
  | thmCall
  | thmJump24
  | other
deriving DecidableEq

def RelType.isArm : RelType -> Bool
  | pc24 | plt32 | call | jump24 => true
  | _ => false

def RelType.isThumb : RelType -> Bool
  | thmCall | thmJump24 => true
  | _ => false

/-- The offset that a branch has to have after its relocation. -/
def target (offset : Int) (symVal place : Nat) : Int := sword (offset + symVal - place)

def armTarget (m : Memory) (symVal place : Nat) : Int :=
  target (armOffset (readNumber m place 4)) symVal place

def thumbTarget (m : Memory) (symVal place : Nat) : Int :=
  target (thumbOffset (readNumber m place 2) (readNumber m (place + 2) 2)) symVal place

/-- The offsets that the Thumb case takes. -/
def Accepted (offset : Int) : Prop := offset % 2 = 1 ∧ -2 ^ 24 < offset ∧ offset < 2 ^ 24

instance (offset : Int) : Decidable (Accepted offset) := inferInstanceAs (Decidable (_ ∧ _))

/-- `rt_module_arm_relocate` of the word at `place`: the value returned and the memory. -/
def rtModuleArmRelocate (m : Memory) (type : RelType) (symVal place : Nat) : Int × Memory :=
  let word := readNumber m place 4
  match type with
  | .none => (0, m)
  | .abs32 => (0, writeNumber m place 4 (add32 word symVal))
  | .pc24 | .plt32 | .call | .jump24 =>
    let tmp := ((armOffset word + symVal - place) % 2 ^ 32).toNat
    (0, writeNumber m place 4 (word / 2 ^ 24 * 2 ^ 24 + tmp / 4 % 2 ^ 24))
  | .rel32 => (0, writeNumber m place 4 (add32 word (sub32 symVal place)))
  | .v4bx => (0, writeNumber m place 4 (word / 2 ^ 28 * 2 ^ 28 + word % 2 ^ 4 + 0x01a0f000))
  | .globDat | .jumpSlot => (0, writeNumber m place 4 symVal)
  | .relative => (0, writeNumber m place 4 (add32 symVal word))
  | .thmCall | .thmJump24 =>
    let upper := readNumber m place 2
    let lower := readNumber m (place + 2) 2
    let offset := thumbTarget m symVal place
    if Accepted offset then
      -- `where` points to words, so `where + 2` is 8 bytes on
      (0, writeNumber (writeNumber m place 2 (thumbUpper upper offset)) (add32 place 8) 2
        (thumbLower lower offset))
    else (-1, m)
  | .other => (-1, m)

/-- A relocated branch is the same instruction with the offset of the target, a failure
changes nothing, and nothing changes but the word. -/
structure Exact (m m' : Memory) (result : Int) (type : RelType) (symVal place : Nat) : Prop where
  failed : result = -1 -> m' = m
  outside : forall x, x < place ∨ place + 4 ≤ x -> m' x = m x
  arm : type.isArm = true -> -2 ^ 25 ≤ armTarget m symVal place ->
    armTarget m symVal place < 2 ^ 25 ->
    readNumber m' place 4 / 2 ^ 24 = readNumber m place 4 / 2 ^ 24 ∧
      armOffset (readNumber m' place 4) = armTarget m symVal place
  thumb : type.isThumb = true -> result = 0 ->
    readNumber m' place 2 / 2 ^ 11 = readNumber m place 2 / 2 ^ 11 ∧
      readNumber m' (place + 2) 2 / 2 ^ 14 = readNumber m (place + 2) 2 / 2 ^ 14 ∧
      bit (readNumber m' (place + 2) 2) 12 = bit (readNumber m (place + 2) 2) 12 ∧
      thumbOffset (readNumber m' place 2) (readNumber m' (place + 2) 2) =
        thumbTarget m symVal place - thumbTarget m symVal place % 2

/-- An ARM branch in range goes to a word, and a relocated Thumb branch has its lower half
already, as has the half-word 8 bytes behind it. -/
def Fits (m : Memory) (type : RelType) (symVal place : Nat) : Prop :=
  (type.isArm = true -> -2 ^ 25 ≤ armTarget m symVal place ->
    armTarget m symVal place < 2 ^ 25 -> armTarget m symVal place % 4 = 0) ∧
  (type.isThumb = true -> Accepted (thumbTarget m symVal place) ->
    thumbLower (readNumber m (place + 2) 2) (thumbTarget m symVal place) =
        readNumber m (place + 2) 2 ∧
      readNumber m (add32 place 8) 2 = readNumber m (place + 2) 2)

/-!
## Encoding
-/

theorem sbit_le (offset : Int) (i : Nat) : sbit offset i ≤ 1 := by
  unfold sbit
  omega

variable {sign imm upper lower : Nat}

theorem upper_fields {t : Nat} (hsign : sign ≤ 1) (himm : imm < 2 ^ 10) :
    bit (t * 2 ^ 11 + sign * 2 ^ 10 + imm) 10 = sign ∧
      (t * 2 ^ 11 + sign * 2 ^ 10 + imm) % 2 ^ 10 = imm := by
  unfold bit
  omega

theorem lower_fields {t j1 mid j2 : Nat} (hj1 : j1 ≤ 1) (hmid : mid ≤ 1) (hj2 : j2 ≤ 1)
    (himm : imm < 2 ^ 11) :
    let lower := t * 2 ^ 14 + j1 * 2 ^ 13 + mid * 2 ^ 12 + j2 * 2 ^ 11 + imm
    bit lower 13 = j1 ∧ bit lower 11 = j2 ∧ lower % 2 ^ 11 = imm := by
  unfold bit
  dsimp only
  omega

theorem top_fields {top : Int} (hlow : -4 ≤ top) (hhigh : top < 4) :
    ((top / 4 % 2).toNat : Int) * 4 + (top / 2 % 2).toNat * 2 + (top % 2).toNat =
      if top < 0 then top + 8 else top := by
  interval_cases top <;> rfl

theorem offset_fields {offset : Int} (hlow : -2 ^ 24 < offset) (hhigh : offset < 2 ^ 24)
    (hodd : offset % 2 = 1) :
    signExtend (2 ^ 24) (sbit offset 24 * 2 ^ 24 + sbit offset 23 * 2 ^ 23 +
      sbit offset 22 * 2 ^ 22 + (offset / 2 ^ 12 % 2 ^ 10).toNat * 2 ^ 12 +
      (offset / 2 % 2 ^ 11).toNat * 2) = offset - 1 := by
  have h23 : offset / 2 ^ 23 = offset / 2 ^ 22 / 2 := by omega
  have h24 : offset / 2 ^ 24 = offset / 2 ^ 22 / 4 := by omega
  have hsplit : offset = offset / 2 ^ 22 * 2 ^ 22 + offset / 2 ^ 12 % 2 ^ 10 * 2 ^ 12 +
      offset / 2 % 2 ^ 11 * 2 + 1 := by omega
  have hs := sbit_le offset 24
  have hs' := sbit_le offset 23
  have hs'' := sbit_le offset 22
  have htop := @top_fields (offset / 2 ^ 22) (by omega) (by omega)
  rw [← h24, ← h23] at htop
  change (sbit offset 24 : Int) * 4 + sbit offset 23 * 2 + sbit offset 22 = _ at htop
  generalize sbit offset 24 = s at *
  generalize sbit offset 23 = s' at *
  generalize sbit offset 22 = s'' at *
  have himm := Int.emod_nonneg (offset / 2 ^ 12) (b := 2 ^ 10) (by decide)
  have himm' := Int.emod_lt_of_pos (offset / 2 ^ 12) (b := 2 ^ 10) (by decide)
  have hlow := Int.emod_nonneg (offset / 2) (b := 2 ^ 11) (by decide)
  have hlow' := Int.emod_lt_of_pos (offset / 2) (b := 2 ^ 11) (by decide)
  generalize offset / 2 ^ 22 = top at hsplit htop
  generalize offset / 2 ^ 12 % 2 ^ 10 = imm at *
  generalize offset / 2 % 2 ^ 11 = low at *
  clear h23 h24 hodd
  unfold signExtend
  split at htop <;> split <;> omega

theorem unsign {i : Nat} (_ : sign ≤ 1) (hi : i ≤ 1) :
    1 - ((sign + (1 - i)) % 2 + sign) % 2 = i := by
  omega

theorem thumb_decode {offset : Int} (hlow : -2 ^ 24 < offset)
    (hhigh : offset < 2 ^ 24) (hodd : offset % 2 = 1) :
    thumbOffset (thumbUpper upper offset) (thumbLower lower offset) = offset - 1 := by
  have hs := sbit_le offset 24
  have hupper : (offset / 2 ^ 12 % 2 ^ 10).toNat < 2 ^ 10 := by omega
  have hlower : (offset / 2 % 2 ^ 11).toNat < 2 ^ 11 := by omega
  have hmid : bit lower 12 ≤ 1 := Nat.lt_succ_iff.mp (Nat.mod_lt _ (by decide))
  rcases upper_fields (t := upper / 2 ^ 11) hs hupper with ⟨hsign, himm⟩
  rcases lower_fields (t := lower / 2 ^ 14) (Nat.lt_succ_iff.mp (Nat.mod_lt _ (by decide)))
    hmid (Nat.lt_succ_iff.mp (Nat.mod_lt _ (by decide))) hlower with ⟨hj1, hj2, himm'⟩
  rw [<- offset_fields hlow hhigh hodd]
  unfold thumbOffset thumbUpper thumbLower
  dsimp only
  rw [hsign, himm, hj1, hj2, himm', unsign hs (sbit_le _ _), unsign hs (sbit_le _ _)]

theorem signExtend_inj {half field field' : Nat} (hlt : field < 2 * half)
    (hlt' : field' < 2 * half) (heq : signExtend half field = signExtend half field') :
    field = field' := by
  unfold signExtend at heq
  split at heq <;> split at heq <;> omega

theorem lower_split (lower : Nat) :
    lower = lower / 2 ^ 14 * 2 ^ 14 + bit lower 13 * 2 ^ 13 + bit lower 12 * 2 ^ 12 +
      bit lower 11 * 2 ^ 11 + lower % 2 ^ 11 := by
  unfold bit
  omega

theorem bit_le (n i : Nat) : bit n i ≤ 1 := Nat.lt_succ_iff.mp (Nat.mod_lt _ (by decide))

theorem field_inj {j1 j2 j1' j2' imm' : Nat} (_ : sign ≤ 1) (hj1 : j1 ≤ 1)
    (hj2 : j2 ≤ 1) (himm : imm < 2 ^ 11) (hj1' : j1' ≤ 1) (hj2' : j2' ≤ 1)
    (himm' : imm' < 2 ^ 11)
    (heq : sign * 2 ^ 24 + (1 - (j1 + sign) % 2) * 2 ^ 23 + (1 - (j2 + sign) % 2) * 2 ^ 22 +
      upper * 2 ^ 12 + imm * 2 = sign * 2 ^ 24 + (1 - (j1' + sign) % 2) * 2 ^ 23 +
      (1 - (j2' + sign) % 2) * 2 ^ 22 + upper * 2 ^ 12 + imm' * 2) :
    j1 = j1' ∧ j2 = j2' ∧ imm = imm' := by
  have hbit : forall j j', j ≤ 1 -> j' ≤ 1 ->
      1 - (j + sign) % 2 = 1 - (j' + sign) % 2 -> j = j' := by omega
  generalize h1 : 1 - (j1 + sign) % 2 = a1 at heq
  generalize h2 : 1 - (j2 + sign) % 2 = a2 at heq
  generalize h1' : 1 - (j1' + sign) % 2 = a1' at heq
  generalize h2' : 1 - (j2' + sign) % 2 = a2' at heq
  refine ⟨hbit _ _ hj1 hj1' ?_, hbit _ _ hj2 hj2' ?_, ?_⟩ <;> omega

theorem thumb_lower_inj {lower' : Nat}
    (htop : lower / 2 ^ 14 = lower' / 2 ^ 14) (hmid : bit lower 12 = bit lower' 12)
    (heq : thumbOffset upper lower = thumbOffset upper lower') : lower = lower' := by
  have himm := Nat.mod_lt lower (Nat.two_pow_pos 11)
  have himm' := Nat.mod_lt lower' (Nat.two_pow_pos 11)
  have hupper := Nat.mod_lt upper (Nat.two_pow_pos 10)
  have hsign := bit_le upper 10
  have hfields := signExtend_inj (by omega) (by omega) heq
  rcases field_inj hsign (bit_le _ _) (bit_le _ _) himm (bit_le _ _) (bit_le _ _) himm' hfields
    with ⟨hj1, hj2, hlow⟩
  rw [lower_split lower, lower_split lower', htop, hmid, hj1, hj2, hlow]

theorem arm_decode {word : Nat} {x : Int} (hlow : -2 ^ 25 ≤ sword x) (hhigh : sword x < 2 ^ 25) :
    armOffset (word / 2 ^ 24 * 2 ^ 24 + (x % 2 ^ 32).toNat / 4 % 2 ^ 24) =
      sword x - sword x % 4 := by
  have hmod : sword x % 2 ^ 32 = x % 2 ^ 32 := Int.bmod_emod
  rw [<- hmod]
  generalize sword x = offset at *
  unfold armOffset signExtend
  omega

theorem thumb_lt (hupper : upper < 2 ^ 16) (hlower : lower < 2 ^ 16)
    (offset : Int) : thumbUpper upper offset < 2 ^ 16 ∧ thumbLower lower offset < 2 ^ 16 := by
  unfold thumbUpper thumbLower
  dsimp only
  have hs := sbit_le offset 24
  have hmid := bit_le lower 12
  omega

theorem thumb_kind (upper lower : Nat) (offset : Int) :
    thumbUpper upper offset / 2 ^ 11 = upper / 2 ^ 11 ∧
      thumbLower lower offset / 2 ^ 14 = lower / 2 ^ 14 ∧
      bit (thumbLower lower offset) 12 = bit lower 12 := by
  have hs := sbit_le offset 24
  have hmid := bit_le lower 12
  unfold thumbUpper thumbLower
  dsimp only
  refine ⟨by omega, by omega, ?_⟩
  generalize bit lower 12 = mid at *
  unfold bit
  omega

/-!
## Memory
-/

variable {m : Memory} {type : RelType} {symVal place : Nat}

theorem half_lt (m : Memory) (a : Nat) : readNumber m a 2 < 2 ^ 16 := readNumber_lt m a 2

theorem exact_of_thumb (_ : place + 4 ≤ 2 ^ 32) (htype : type.isThumb = true) :
    Exact m (rtModuleArmRelocate m type symVal place).2
      (rtModuleArmRelocate m type symVal place).1 type symVal place <->
      Fits m type symVal place := by
  have harm : type.isArm ≠ true := by
    cases type <;> cases htype <;> decide
  have hcall : rtModuleArmRelocate m type symVal place =
      if Accepted (thumbTarget m symVal place) then
        (0, writeNumber (writeNumber m place 2
          (thumbUpper (readNumber m place 2) (thumbTarget m symVal place))) (add32 place 8) 2
          (thumbLower (readNumber m (place + 2) 2) (thumbTarget m symVal place)))
      else (-1, m) := by
    cases type <;> cases htype <;> rfl
  rw [hcall]
  by_cases haccept : Accepted (thumbTarget m symVal place)
  · rw [if_pos haccept]
    rcases thumb_lt (half_lt m place) (half_lt m (place + 2)) (thumbTarget m symVal place) with
      ⟨hupper, hlower⟩
    have hdecode : forall lower, thumbOffset
        (thumbUpper (readNumber m place 2) (thumbTarget m symVal place))
        (thumbLower lower (thumbTarget m symVal place)) = thumbTarget m symVal place - 1 :=
      fun _ => thumb_decode haccept.2.1 haccept.2.2 haccept.1
    have hkind := thumb_kind (readNumber m place 2) (readNumber m (place + 2) 2)
      (thumbTarget m symVal place)
    have hodd := haccept.1
    generalize hoffset : thumbTarget m symVal place = offset at *
    generalize hu : thumbUpper (readNumber m place 2) offset = u at *
    generalize hl : thumbLower (readNumber m (place + 2) 2) offset = l at *
    -- the second store does not meet the word
    have hapart : add32 place 8 + 2 ≤ place ∨ place + 4 ≤ add32 place 8 := by
      unfold add32
      omega
    generalize hm' : (writeNumber (writeNumber m place 2 u) (add32 place 8) 2 l : Memory) = m'
    have hread : readNumber m' place 2 = u := by
      rw [<- hm', readNumber_writeNumber_apart (by omega), readNumber_writeNumber]
      exact Nat.mod_eq_of_lt hupper
    have hread' : readNumber m' (place + 2) 2 = readNumber m (place + 2) 2 := by
      rw [<- hm', readNumber_writeNumber_apart (by omega), readNumber_writeNumber_apart (by omega)]
    have hfar : readNumber m' (add32 place 8) 2 = l := by
      rw [<- hm', readNumber_writeNumber]
      exact Nat.mod_eq_of_lt hlower
    constructor
    · intro hexact
      refine ⟨fun h => absurd h harm, fun _ _ => ?_⟩
      have hfar' : readNumber m (add32 place 8) 2 = l := by
        rw [<- hfar]
        exact (readNumber_congr fun x hle hlt => hexact.outside x (by omega)).symm
      rcases hexact.thumb htype rfl with ⟨-, -, -, hnew⟩
      rw [hread, hread', hoffset, hodd, <- hdecode (readNumber m (place + 2) 2), hl] at hnew
      have hsame := thumb_lower_inj hkind.2.1 hkind.2.2 hnew.symm
      rw [hoffset, hl, hfar', hsame]
      exact ⟨rfl, rfl⟩
    · intro hfits
      rcases hfits.2 htype (hoffset ▸ haccept) with ⟨hsame, hfar'⟩
      rw [hoffset, hl] at hsame
      refine ⟨fun h => absurd h (show (0 : Int) ≠ -1 by decide), fun x hx => ?_,
        fun h => absurd h harm, fun _ _ => ?_⟩
      · have hstored : writeNumber m (add32 place 8) 2 l = m := by
          rw [hsame, <- hfar', writeNumber_readNumber]
        show m' x = m x
        by_cases hin : add32 place 8 ≤ x ∧ x < add32 place 8 + 2
        · refine Eq.trans ?_ (congrFun hstored x)
          subst hm'
          unfold writeNumber
          rw [if_pos hin, if_pos hin]
        · rw [<- hm', writeNumber_outside (by omega), writeNumber_outside (by omega)]
      · rw [hread, hread', hoffset, hodd, <- hdecode (readNumber m (place + 2) 2), hl]
        exact ⟨hkind.1, rfl, rfl, by rw [hsame]⟩
  · rw [if_neg haccept]
    refine iff_of_true ⟨fun _ => rfl, fun _ _ => rfl, fun h => absurd h harm, ?_⟩
      ⟨fun h => absurd h harm, fun _ h => absurd h haccept⟩
    exact fun _ hzero => absurd hzero (show (-1 : Int) ≠ 0 by decide)

/-- The relocation of a branch is exact, and all else is left as it was, exactly when the branch
fits. -/
theorem relocate_iff (hplace : place + 4 ≤ 2 ^ 32) :
    Exact m (rtModuleArmRelocate m type symVal place).2
      (rtModuleArmRelocate m type symVal place).1 type symVal place <->
      Fits m type symVal place := by
  by_cases hthumb : type.isThumb = true
  · exact exact_of_thumb hplace hthumb
  have hword : forall v x, x < place ∨ place + 4 ≤ x -> writeNumber m place 4 v x = m x :=
    fun _ _ hx => writeNumber_outside (by omega)
  by_cases harm : type.isArm = true
  · have hcall : rtModuleArmRelocate m type symVal place = (0, writeNumber m place 4
        (readNumber m place 4 / 2 ^ 24 * 2 ^ 24 + ((armOffset (readNumber m place 4) + symVal -
          place) % 2 ^ 32).toNat / 4 % 2 ^ 24)) := by
      cases type <;> cases harm <;> rfl
    have hlt : readNumber m place 4 < 2 ^ 32 := readNumber_lt m place 4
    have hdecode := @arm_decode (readNumber m place 4)
      (armOffset (readNumber m place 4) + symVal - place)
    have htarget : armTarget m symVal place =
      sword (armOffset (readNumber m place 4) + symVal - place) := rfl
    rw [hcall]
    generalize armOffset (readNumber m place 4) + symVal - place = x at *
    have hnew : forall v, v < 2 ^ 32 -> readNumber (writeNumber m place 4 v) place 4 = v :=
      fun v hv => (readNumber_writeNumber m place 4 v).trans (Nat.mod_eq_of_lt hv)
    have hv := hnew (readNumber m place 4 / 2 ^ 24 * 2 ^ 24 + (x % 2 ^ 32).toNat / 4 % 2 ^ 24)
      (by omega)
    constructor
    · intro hexact
      refine ⟨fun _ hlow hhigh => ?_, fun h => absurd h hthumb⟩
      have hoffset := (hexact.arm harm hlow hhigh).2
      rw [htarget] at hlow hhigh hoffset
      rw [htarget]
      rw [hv, hdecode hlow hhigh] at hoffset
      omega
    · intro hfits
      refine ⟨fun h => absurd h (show (0 : Int) ≠ -1 by decide), hword _,
        fun _ hlow hhigh => ?_, fun h => absurd h hthumb⟩
      have hmod := hfits.1 harm hlow hhigh
      rw [htarget] at hlow hhigh hmod
      rw [htarget, hv, hdecode hlow hhigh, hmod]
      exact ⟨by omega, Int.sub_zero _⟩
  · refine iff_of_true ⟨?_, ?_, fun h => absurd h harm, fun h => absurd h hthumb⟩
      ⟨fun h => absurd h harm, fun h => absurd h hthumb⟩
    · cases type <;> first
      | exact fun _ => rfl
      | exact fun h => absurd h (show (0 : Int) ≠ -1 by decide)
      | exact absurd rfl hthumb
    · cases type <;> first
      | exact fun _ _ => rfl
      | exact hword _
      | exact absurd rfl hthumb

theorem relocate_iff_call :
    Exact (fun _ => 0) (rtModuleArmRelocate (fun _ => 0) RelType.call 8192 4096).2
      (rtModuleArmRelocate (fun _ => 0) RelType.call 8192 4096).1 RelType.call 8192 4096 <->
      Fits (fun _ => 0) RelType.call 8192 4096 :=
  relocate_iff (by decide)

/-- A `bl` at 32768. -/
def blMemory : Memory := writeNumber (fun _ => 0) 32768 4 0xfffef7ff

/-- The relocation of a `bl` leaves its lower half and stores the new one 8 bytes behind it. -/
theorem thumb_call_inexact :
    let r := rtModuleArmRelocate blMemory RelType.thmCall 33025 32768
    r.1 = 0 ∧ readNumber r.2 32768 2 = 0xf000 ∧ readNumber r.2 32770 2 = 0xfffe ∧
      readNumber r.2 32776 2 = 0xf87e ∧
      ¬ Exact blMemory r.2 r.1 RelType.thmCall 33025 32768 := by
  refine ⟨by decide, by decide, by decide, by decide, fun hexact => ?_⟩
  exact absurd (hexact.outside 32776 (by decide)) (by decide)

end RtThread.Module.Relocate
