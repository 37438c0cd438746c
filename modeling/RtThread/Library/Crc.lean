import Mathlib.Data.BitVec

/-!
# Cyclic redundancy checks

The remainder of a message by a polynomial over two elements, one bit at a time with the
highest bit first, and the evaluation a byte at a time from a table of the remainders of
all bytes.
-/

namespace RtThread.Crc

variable {w : Nat} (poly : BitVec w)

/-- Multiply by `x` and reduce. -/
def step (r : BitVec w) : BitVec w :=
  if r.msb then (r <<< 1) ^^^ poly else r <<< 1

def steps : Nat -> BitVec w -> BitVec w
  | 0, r => r
  | n + 1, r => steps n (step poly r)

def feed (r : BitVec w) (b : BitVec 8) : BitVec w :=
  steps poly 8 (r ^^^ (b.setWidth w <<< (w - 8)))

def remainder (message : List (BitVec 8)) : BitVec w :=
  message.foldl (feed poly) 0

variable {poly} {x y : BitVec w} {n : Nat}

theorem step_xor : step poly (x ^^^ y) = step poly x ^^^ step poly y := by
  unfold step
  rw [BitVec.msb_xor, BitVec.shiftLeft_xor_distrib]
  cases x.msb <;> cases y.msb
  · rfl
  · exact BitVec.xor_assoc _ _ _
  · show x <<< 1 ^^^ y <<< 1 ^^^ poly = x <<< 1 ^^^ poly ^^^ y <<< 1
    rw [BitVec.xor_assoc, BitVec.xor_assoc, BitVec.xor_comm poly]
  · show x <<< 1 ^^^ y <<< 1 = (x <<< 1 ^^^ poly) ^^^ (y <<< 1 ^^^ poly)
    rw [BitVec.xor_assoc, BitVec.xor_comm (y <<< 1), ← BitVec.xor_assoc poly,
      BitVec.xor_self, BitVec.zero_xor]

theorem steps_xor : steps poly n (x ^^^ y) = steps poly n x ^^^ steps poly n y := by
  induction n generalizing x y with
  | zero => rfl
  | succ n ih =>
    show steps poly n (step poly (x ^^^ y)) = _
    rw [step_xor, ih]
    rfl

theorem steps_of_low (hn : n ≤ w) (hlow : forall i, w - n ≤ i -> x.getLsbD i = false) :
    steps poly n x = x <<< n := by
  induction n generalizing x with
  | zero => exact (BitVec.shiftLeft_zero x).symm
  | succ n ih =>
    have hmsb : x.msb = false := by
      rw [BitVec.msb_eq_getLsbD_last]
      exact hlow _ (by omega)
    have hstep : step poly x = x <<< 1 := by
      rw [step, if_neg (by rw [hmsb]; decide)]
    show steps poly n (step poly x) = _
    rw [hstep, ih (by omega), ← BitVec.shiftLeft_add, Nat.add_comm]
    intro i hi
    rw [BitVec.getLsbD_shiftLeft]
    rcases Nat.lt_or_ge i 1 with hzero | hpos
    · simp [hzero]
    · rw [hlow (i - 1) (by omega), Bool.and_false]

def index (r : BitVec w) (b : BitVec 8) : BitVec 8 :=
  (r >>> (w - 8)).setWidth 8 ^^^ b

theorem feed_eq_table (hw : 8 ≤ w) (b : BitVec 8) : feed poly x b =
      (x <<< 8) ^^^ steps poly 8 ((index x b).setWidth w <<< (w - 8)) := by
  have hhigh : ((x >>> (w - 8)).setWidth 8).setWidth w = x >>> (w - 8) := by
    apply BitVec.eq_of_getLsbD_eq
    intro i hi
    rw [BitVec.getLsbD_setWidth, BitVec.getLsbD_setWidth, BitVec.getLsbD_ushiftRight]
    rcases Nat.lt_or_ge i 8 with hlt | hge
    · simp [hlt, hi]
    · rw [BitVec.getLsbD_of_ge x _ (by omega), Bool.and_false, Bool.and_false]
  have hindex : (index x b).setWidth w <<< (w - 8) =
      (x >>> (w - 8)) <<< (w - 8) ^^^ b.setWidth w <<< (w - 8) := by
    rw [index, BitVec.setWidth_xor, hhigh, BitVec.shiftLeft_xor_distrib]
  -- the bits below the index
  have hlow : steps poly 8 (x ^^^ (x >>> (w - 8)) <<< (w - 8)) = x <<< 8 := by
    rw [steps_of_low hw, BitVec.shiftLeft_xor_distrib, ← BitVec.shiftLeft_add,
      Nat.sub_add_cancel hw, BitVec.shiftLeft_eq_zero (Nat.le_refl w), BitVec.xor_zero]
    intro i hi
    rw [BitVec.getLsbD_xor, BitVec.getLsbD_shiftLeft, BitVec.getLsbD_ushiftRight,
      show w - 8 + (i - (w - 8)) = i by omega]
    rcases Nat.lt_or_ge i w with hlt | hge
    · simp [hlt, hi]
    · rw [BitVec.getLsbD_of_ge x i hge, Bool.and_false, Bool.xor_false]
  have hsplit : x ^^^ b.setWidth w <<< (w - 8) =
      (x ^^^ (x >>> (w - 8)) <<< (w - 8)) ^^^ (index x b).setWidth w <<< (w - 8) := by
    rw [hindex, BitVec.xor_assoc, ← BitVec.xor_assoc _ _ (b.setWidth w <<< (w - 8)),
      BitVec.xor_self, BitVec.zero_xor]
  rw [feed, hsplit, steps_xor, hlow]

theorem feed_high (hw : 8 ≤ w) : feed poly x ((x >>> (w - 8)).setWidth 8) = x <<< 8 := by
  have hzero : steps poly 8 (0 : BitVec w) = 0 := by
    rw [steps_of_low hw]
    · exact BitVec.zero_shiftLeft 8
    · exact fun i _ => BitVec.getLsbD_zero
  rw [feed_eq_table hw, index, BitVec.xor_self, BitVec.setWidth_zero, BitVec.zero_shiftLeft]
  exact (congrArg _ hzero).trans BitVec.xor_zero

end RtThread.Crc
