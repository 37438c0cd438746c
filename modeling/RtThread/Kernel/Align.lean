import Mathlib.Algebra.Order.Group.Nat
import Mathlib.Data.Nat.Basic

/-!
# Alignment

`RT_ALIGN` and `RT_ALIGN_DOWN` on 32-bit sizes.  The alignment is a power of
two, so clearing the low bits is subtracting the remainder.
-/

namespace RtThread.Kernel

def rtAlignDown (size align : Nat) : Nat := size - size % align

def rtAlign (size align : Nat) : Nat :=
  rtAlignDown ((size + (align - 1)) % 2 ^ 32) align

/-- The next multiple of the alignment, as a natural number. -/
def alignUp (size align : Nat) : Nat := rtAlignDown (size + (align - 1)) align

def add32 (a b : Nat) : Nat := (a + b) % 2 ^ 32

def sub32 (a b : Nat) : Nat := (a + (2 ^ 32 - b)) % 2 ^ 32

theorem add32_of_lt {a b : Nat} (hlt : a + b < 2 ^ 32) : add32 a b = a + b :=
  Nat.mod_eq_of_lt hlt

theorem sub32_of_le {a b : Nat} (hle : b ≤ a) (hlt : a < 2 ^ 32) : sub32 a b = a - b := by
  unfold sub32
  omega

theorem rtAlignDown_le (size align : Nat) : rtAlignDown size align ≤ size :=
  Nat.sub_le _ _

theorem rtAlignDown_mod (size align : Nat) : rtAlignDown size align % align = 0 :=
  Nat.sub_mod_eq_zero_of_mod_eq (by simp)

theorem rtAlign_mod (size align : Nat) : rtAlign size align % align = 0 :=
  rtAlignDown_mod _ _

theorem rtAlign_lt (size align : Nat) : rtAlign size align < 2 ^ 32 :=
  Nat.lt_of_le_of_lt (rtAlignDown_le _ _) (Nat.mod_lt _ (by decide))

variable {size align : Nat}

theorem le_rtAlign (halign : 0 < align)
    (hfits : size + align ≤ 2 ^ 32) : size ≤ rtAlign size align := by
  unfold rtAlign rtAlignDown
  rw [Nat.mod_eq_of_lt (by omega)]
  have hmod := Nat.mod_lt (size + (align - 1)) halign
  omega

theorem le_alignUp (halign : 0 < align) : size ≤ alignUp size align := by
  have hmod := Nat.mod_lt (size + (align - 1)) halign
  unfold alignUp rtAlignDown
  omega

theorem rtAlign_of_lt (hfits : size + (align - 1) < 2 ^ 32) :
    rtAlign size align = alignUp size align := by
  unfold rtAlign alignUp
  rw [Nat.mod_eq_of_lt hfits]

theorem rtAlign_of_ge (halign : 0 < align) (hsize : size < 2 ^ 32)
    (hwraps : 2 ^ 32 ≤ size + (align - 1)) : rtAlign size align = 0 := by
  unfold rtAlign rtAlignDown
  rcases Nat.lt_or_ge ((size + (align - 1)) % 2 ^ 32) align with hlt | hge
  · rw [Nat.mod_eq_of_lt hlt]
    omega
  · omega

end RtThread.Kernel
