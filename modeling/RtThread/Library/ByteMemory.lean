import Mathlib.Algebra.Group.Nat.Defs
import Mathlib.Data.Nat.Basic
import Mathlib.Logic.Function.Basic

/-!
# Records in byte memory

A memory is a function from addresses to bytes, and a layout says where the fields of a record
lie, as little-endian numbers. Three facts are all that a program's assignments need: a field
reads back what was written to it, other fields of the record keep their values, and so do records
that lie apart.
-/

namespace RtThread.ByteMemory

universe u

abbrev Byte := BitVec 8

abbrev Memory := Nat -> Byte

/-!
## Numbers in memory
-/

/-- The little-endian number in `n` bytes from `a` on. -/
def readNumber (m : Memory) (a : Nat) : Nat -> Nat
  | 0 => 0
  | n + 1 => (m a).toNat + 256 * readNumber m (a + 1) n

/-- Store the low `n` bytes of a number from `a` on. -/
def writeNumber (m : Memory) (a n value : Nat) : Memory := fun x =>
  if a ≤ x ∧ x < a + n then BitVec.ofNat 8 (value / 256 ^ (x - a)) else m x

theorem readNumber_congr {m m' : Memory} {a n : Nat}
    (hsame : forall x, a ≤ x -> x < a + n -> m' x = m x) :
    readNumber m' a n = readNumber m a n := by
  induction n generalizing a with
  | zero => rfl
  | succ n ih =>
    have hrest := @ih (a + 1) (fun x hle hlt => hsame x (by omega) (by omega))
    simp only [readNumber, hrest]
    rw [hsame a (Nat.le_refl a) (by omega)]

theorem readNumber_of_digits {m : Memory} {a n value : Nat} (hdigits : forall i, i < n ->
      m (a + i) = BitVec.ofNat 8 (value / 256 ^ i)) :
    readNumber m a n = value % 256 ^ n := by
  induction n generalizing a value with
  | zero =>
    rw [Nat.pow_zero, Nat.mod_one]
    rfl
  | succ n ih =>
    have hrest : readNumber m (a + 1) n = (value / 256) % 256 ^ n := by
      apply ih
      intro i hi
      have hdigit := hdigits (i + 1) (by omega)
      rw [Nat.add_assoc, Nat.add_comm 1 i, hdigit, Nat.pow_succ', Nat.div_div_eq_div_mul]
    have hfirst := hdigits 0 (Nat.succ_pos n)
    rw [Nat.add_zero, Nat.pow_zero, Nat.div_one] at hfirst
    have hsplit : value % 256 ^ (n + 1) = value % 256 + 256 * (value / 256 % 256 ^ n) := by
      rw [Nat.pow_succ', Nat.mod_mul]
    simp only [readNumber, hrest, hfirst, hsplit, BitVec.toNat_ofNat]

theorem readNumber_writeNumber (m : Memory) (a n value : Nat) :
    readNumber (writeNumber m a n value) a n = value % 256 ^ n := by
  apply readNumber_of_digits
  intro i hi
  unfold writeNumber
  rw [if_pos (by omega), Nat.add_sub_cancel_left]

theorem writeNumber_outside {m : Memory} {a n value x : Nat}
    (hx : x < a ∨ a + n ≤ x) : writeNumber m a n value x = m x := by
  unfold writeNumber
  rw [if_neg (by omega)]

theorem readNumber_lt (m : Memory) (a n : Nat) : readNumber m a n < 256 ^ n := by
  induction n generalizing a with
  | zero => exact Nat.one_pos
  | succ n ih =>
    have hrest := ih (a + 1)
    rw [readNumber, Nat.pow_succ']
    omega

theorem writeNumber_comm {m : Memory} {a n value b k value' : Nat}
    (hapart : b + k ≤ a ∨ a + n ≤ b) :
    writeNumber (writeNumber m a n value) b k value' =
      writeNumber (writeNumber m b k value') a n value := by
  funext x
  unfold writeNumber
  by_cases ha : a ≤ x ∧ x < a + n
  · rw [if_neg (by omega), if_pos ha, if_pos ha]
  · rw [if_neg ha, if_neg ha]

theorem readNumber_writeNumber_apart {m : Memory} {a n value b k : Nat}
    (hapart : b + k ≤ a ∨ a + n ≤ b) :
    readNumber (writeNumber m a n value) b k = readNumber m b k := by
  apply readNumber_congr
  intro x hle hlt
  apply writeNumber_outside
  omega

theorem readNumber_add (m : Memory) (a n k : Nat) :
    readNumber m a (n + k) = readNumber m a n + 256 ^ n * readNumber m (a + n) k := by
  induction n generalizing a with
  | zero => rw [Nat.zero_add, Nat.pow_zero, Nat.one_mul, readNumber, Nat.zero_add, Nat.add_zero]
  | succ n ih =>
    rw [Nat.succ_add, readNumber, readNumber, ih, Nat.add_right_comm a 1 n, Nat.pow_succ',
      Nat.mul_add, Nat.mul_assoc, ← Nat.add_assoc, Nat.add_assoc a n 1]

theorem readNumber_add_mod (m : Memory) (a n k : Nat) :
    readNumber m a (n + k) % 256 ^ n = readNumber m a n := by
  rw [readNumber_add, Nat.add_mul_mod_self_left, Nat.mod_eq_of_lt (readNumber_lt m a n)]

theorem readNumber_add_div (m : Memory) (a n k : Nat) :
    readNumber m a (n + k) / 256 ^ n = readNumber m (a + n) k := by
  rw [readNumber_add, Nat.add_mul_div_left _ _ (Nat.pow_pos (by decide)),
    Nat.div_eq_of_lt (readNumber_lt m a n), Nat.zero_add]

theorem readNumber_digit {m : Memory} {a n i : Nat} (hi : i < n) :
    BitVec.ofNat 8 (readNumber m a n / 256 ^ i) = m (a + i) := by
  induction n generalizing a i with
  | zero => cases hi
  | succ n ih =>
    have hlt := (m a).isLt
    cases i with
    | zero =>
      apply BitVec.eq_of_toNat_eq
      rw [readNumber, BitVec.toNat_ofNat, Nat.pow_zero, Nat.div_one]
      show _ = (m a).toNat
      omega
    | succ i =>
      have hrest : readNumber m a (n + 1) / 256 = readNumber m (a + 1) n := by
        rw [readNumber]
        omega
      rw [Nat.pow_succ', <- Nat.div_div_eq_div_mul, hrest, ih (Nat.lt_of_succ_lt_succ hi),
        Nat.add_right_comm, Nat.add_assoc]

theorem writeNumber_readNumber (m : Memory) (a n : Nat) :
    writeNumber m a n (readNumber m a n) = m := by
  funext x
  unfold writeNumber
  split
  · next hin =>
      rw [readNumber_digit (by omega), Nat.add_sub_cancel' hin.left]
  · rfl

theorem writeNumber_mod (m : Memory) (a n value : Nat) :
    writeNumber m a n (value % 256 ^ n) = writeNumber m a n value := by
  funext x
  unfold writeNumber
  by_cases hx : a ≤ x ∧ x < a + n
  · rw [if_pos hx, if_pos hx]
    apply BitVec.eq_of_toNat_eq
    obtain ⟨k, hk⟩ := Nat.exists_eq_add_of_lt (show x - a < n by omega)
    rw [BitVec.toNat_ofNat, BitVec.toNat_ofNat, hk, Nat.pow_succ, Nat.pow_add,
      Nat.mul_assoc, Nat.mod_mul_right_div_self, Nat.mul_comm (256 ^ k) 256]
    exact Nat.mod_mul_right_mod _ _ _
  · rw [if_neg hx, if_neg hx]

/-!
## Records
-/

/-- Where the fields of a record lie, and how many bytes each has. -/
structure Layout (Field : Type u) where
  offset : Field -> Nat
  width : Field -> Nat
  size : Nat
  fits : forall f, offset f + width f ≤ size
  separate : forall f g, f ≠ g ->
    offset f + width f ≤ offset g ∨ offset g + width g ≤ offset f

variable {Field : Type u} (layout : Layout Field)

def Layout.get (m : Memory) (a : Nat) (f : Field) : Nat :=
  readNumber m (a + layout.offset f) (layout.width f)

def Layout.put (m : Memory) (a : Nat) (f : Field) (value : Nat) : Memory :=
  writeNumber m (a + layout.offset f) (layout.width f) value

def Layout.Apart (a b : Nat) : Prop := a + layout.size ≤ b ∨ b + layout.size ≤ a

variable {layout} {m : Memory} {a b value : Nat} {f g : Field}

theorem Layout.Apart.symm (hapart : layout.Apart a b) : layout.Apart b a :=
  Or.symm hapart

theorem Layout.get_put_same (hvalue : value < 256 ^ layout.width f) :
    layout.get (layout.put m a f value) a f = value := by
  unfold Layout.get Layout.put
  rw [readNumber_writeNumber, Nat.mod_eq_of_lt hvalue]

theorem Layout.get_put_field (hne : g ≠ f) :
    layout.get (layout.put m a f value) a g = layout.get m a g := by
  apply readNumber_writeNumber_apart
  have hsep := layout.separate g f hne
  omega

theorem Layout.get_put_apart (hapart : layout.Apart a b) :
    layout.get (layout.put m a f value) b g = layout.get m b g := by
  apply readNumber_writeNumber_apart
  have hf := layout.fits f
  have hg := layout.fits g
  unfold Layout.Apart at hapart
  omega

theorem Layout.get_lt : layout.get m a f < 256 ^ layout.width f :=
  readNumber_lt _ _ _

theorem Layout.put_comm {value' : Nat} (hapart : layout.Apart a b) :
    layout.put (layout.put m a f value) b g value' =
      layout.put (layout.put m b g value') a f value := by
  apply writeNumber_comm
  have hf := layout.fits f
  have hg := layout.fits g
  unfold Layout.Apart at hapart
  omega

theorem Layout.put_outside {x : Nat} (hx : x < a ∨ a + layout.size ≤ x) :
    layout.put m a f value x = m x := by
  apply writeNumber_outside
  have hf := layout.fits f
  omega

theorem Layout.get_congr {m' : Memory}
    (hsame : forall x, a ≤ x -> x < a + layout.size -> m' x = m x) :
    layout.get m' a f = layout.get m a f := by
  apply readNumber_congr
  intro x hle hlt
  have hf := layout.fits f
  exact hsame x (by omega) (by omega)

/-!
## Copying
-/

def copy (m : Memory) (dst src : Nat) : Nat -> Memory
  | 0 => m
  | n + 1 => fun x =>
    if x = dst + n then copy m dst src n (src + n) else copy m dst src n x

theorem copy_outside {dst src n x : Nat} (hx : x < dst ∨ dst + n ≤ x) :
    copy m dst src n x = m x := by
  induction n with
  | zero => rfl
  | succ n ih =>
    simp only [copy]
    rw [if_neg (by omega)]
    exact ih (by omega)

theorem copy_inside {dst src n i : Nat} (hapart : dst + n ≤ src ∨ src + n ≤ dst)
    (hi : i < n) :
    copy m dst src n (dst + i) = m (src + i) := by
  induction n with
  | zero => cases hi
  | succ n ih =>
    simp only [copy]
    rcases Nat.lt_or_ge i n with hlt | hge
    · rw [if_neg (by omega)]
      exact ih (by omega) hlt
    · have heq : i = n := by omega
      subst heq
      rw [if_pos rfl]
      exact copy_outside (by omega)

end RtThread.ByteMemory
