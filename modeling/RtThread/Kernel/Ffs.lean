import Mathlib.Data.Nat.Bitwise

/-!
# Find first set

`__rt_ffs` of `kservice.c` looks up the lowest set bit of the first non-zero
byte of a word in a table of 256 entries.  Its specification is stated on the
bits of the word: the result is zero for the zero word, and otherwise one more
than the index of the lowest set bit.
-/

namespace RtThread.Kernel

/-- One row of `__lowest_bit_bitmap`: only its first entry depends on the row. -/
def lowestBitRow (first : Nat) : List Nat :=
  [first, 0, 1, 0, 2, 0, 1, 0, 3, 0, 1, 0, 2, 0, 1, 0]

def lowestBitBitmap : List Nat :=
  lowestBitRow 0 ++ lowestBitRow 4 ++ lowestBitRow 5 ++ lowestBitRow 4 ++
  lowestBitRow 6 ++ lowestBitRow 4 ++ lowestBitRow 5 ++ lowestBitRow 4 ++
  lowestBitRow 7 ++ lowestBitRow 4 ++ lowestBitRow 5 ++ lowestBitRow 4 ++
  lowestBitRow 6 ++ lowestBitRow 4 ++ lowestBitRow 5 ++ lowestBitRow 4

def lowestBit (byte : Nat) : Nat :=
  lowestBitBitmap.getD byte 0

def rtFfs (value : BitVec 32) : Nat :=
  if value = 0 then 0
  else if value &&& 0xff#32 ≠ 0 then
    lowestBit (value &&& 0xff#32).toNat + 1
  else if value &&& 0xff00#32 ≠ 0 then
    lowestBit ((value &&& 0xff00#32) >>> 8).toNat + 9
  else if value &&& 0xff0000#32 ≠ 0 then
    lowestBit ((value &&& 0xff0000#32) >>> 16).toNat + 17
  else
    lowestBit ((value &&& 0xff000000#32) >>> 24).toNat + 25

theorem lowestBitBitmap_eq : lowestBitBitmap =
      (List.range 256).map fun byte => ((List.range 8).find? byte.testBit).getD 0 := by
  decide +kernel

theorem lowestBit_spec : forall byte, byte < 256 -> byte ≠ 0 ->
      lowestBit byte < 8 ∧ byte.testBit (lowestBit byte) = true ∧
        forall i, i < lowestBit byte -> byte.testBit i = false := by
  intro byte hbyte hne
  have hlowest : lowestBit byte = ((List.range 8).find? byte.testBit).getD 0 := by
    rw [lowestBit, lowestBitBitmap_eq, List.getD_eq_getElem?_getD, List.getElem?_map,
      List.getElem?_range hbyte]
    rfl
  cases hfind : (List.range 8).find? byte.testBit with
  | none =>
    obtain ⟨i, hi⟩ := Nat.exists_testBit_of_ne_zero hne
    have hlt : i < 8 := by
      by_contra hge
      have hpow : 2 ^ 8 ≤ 2 ^ i := Nat.pow_le_pow_right Nat.two_pos (Nat.not_lt.mp hge)
      rw [Nat.testBit_lt_two_pow (Nat.lt_of_lt_of_le hbyte hpow)] at hi
      cases hi
    exact absurd hi (List.find?_eq_none.mp hfind i (List.mem_range.mpr hlt))
  | some i =>
    obtain ⟨hi, hmem, hbelow⟩ := List.find?_range_eq_some.mp hfind
    rw [hlowest, hfind]
    exact ⟨List.mem_range.mp hmem, hi, fun j hj => by simpa using hbelow j hj⟩

def LowestSet (value : BitVec 32) (i : Nat) : Prop :=
  value.getLsbD i = true ∧ forall j, j < i -> value.getLsbD j = false

/-!
## The bytes of a word
-/

def byteMask (k : Nat) : BitVec 32 :=
  0xff#32 <<< (8 * k)

theorem byteMask_getLsbD : forall k, k < 4 -> forall j, j < 32 ->
    (byteMask k).getLsbD j = decide (8 * k ≤ j ∧ j < 8 * k + 8) := by
  decide

variable {value : BitVec 32} {k : Nat}

theorem and_byteMask_eq_zero (hk : k < 4) : value &&& byteMask k = 0 <->
      forall i, i < 8 -> value.getLsbD (8 * k + i) = false := by
  constructor
  · intro h i hi
    have hbit : (value &&& byteMask k).getLsbD (8 * k + i) = false := by
      rw [h]
      simp
    rw [BitVec.getLsbD_and, byteMask_getLsbD k hk _ (by omega)] at hbit
    have hin : 8 * k ≤ 8 * k + i ∧ 8 * k + i < 8 * k + 8 := by omega
    simpa [hin] using hbit
  · intro h
    apply BitVec.eq_of_getLsbD_eq
    intro j hj
    rw [BitVec.getLsbD_and, byteMask_getLsbD k hk j hj]
    by_cases hin : 8 * k ≤ j ∧ j < 8 * k + 8
    · have hbit := h (j - 8 * k) (by omega)
      rw [show 8 * k + (j - 8 * k) = j by omega] at hbit
      simp [hbit]
    · simp [hin]

def byteOf (value : BitVec 32) (k : Nat) : Nat :=
  ((value &&& byteMask k) >>> (8 * k)).toNat

theorem byteOf_eq (value : BitVec 32) {n : Nat} (hn : n = 8 * k) :
    lowestBit ((value &&& byteMask k) >>> n).toNat = lowestBit (byteOf value k) := by
  subst hn
  rfl

theorem byteOf_testBit (hk : k < 4) (i : Nat) : (byteOf value k).testBit i =
      (decide (i < 8) && value.getLsbD (8 * k + i)) := by
  unfold byteOf
  rw [BitVec.testBit_toNat, BitVec.getLsbD_ushiftRight, BitVec.getLsbD_and]
  by_cases hj : 8 * k + i < 32
  · rw [byteMask_getLsbD k hk _ hj]
    by_cases hi : i < 8
    · have hin : 8 * k ≤ 8 * k + i ∧ 8 * k + i < 8 * k + 8 := by omega
      simp [hin, hi]
    · simp [hi]
  · rw [BitVec.getLsbD_of_ge value _ (by omega)]
    simp

theorem byteOf_lt (hk : k < 4) : byteOf value k < 256 := by
  apply Nat.lt_pow_two_of_testBit (n := 8)
  intro i hi
  rw [byteOf_testBit hk]
  simp [Nat.not_lt.mpr hi]

theorem lowestSet_byte (hk : k < 4) (hbyte : value &&& byteMask k ≠ 0)
    (hlow : forall j, j < 8 * k -> value.getLsbD j = false) :
    LowestSet value (8 * k + lowestBit (byteOf value k)) := by
  have hne : byteOf value k ≠ 0 := by
    intro hzero
    apply hbyte
    rw [and_byteMask_eq_zero hk]
    intro i hi
    have hbit := @byteOf_testBit value k hk i
    rw [hzero] at hbit
    simpa [hi] using hbit.symm
  rcases lowestBit_spec _ (byteOf_lt hk) hne with ⟨hlt, hset, hfirst⟩
  rw [byteOf_testBit hk] at hset
  constructor
  · simpa [hlt] using hset
  · intro j hj
    by_cases hjk : j < 8 * k
    · exact hlow j hjk
    · have hbit := hfirst (j - 8 * k) (by omega)
      rw [byteOf_testBit hk, show 8 * k + (j - 8 * k) = j by omega] at hbit
      have hlt8 : j - 8 * k < 8 := by omega
      simpa [hlt8] using hbit

theorem low_bits_of_zero_bytes (hk : k ≤ 4)
    (hzero : forall b, b < k -> value &&& byteMask b = 0) :
    forall j, j < 8 * k -> value.getLsbD j = false := by
  intro j hj
  have hbyte := (@and_byteMask_eq_zero value (j / 8)
    (by omega)).mp (hzero (j / 8) (by omega)) (j % 8) (by omega)
  rwa [show 8 * (j / 8) + j % 8 = j by omega] at hbyte

theorem rtFfs_spec (hvalue : value ≠ 0) : exists i, rtFfs value = i + 1 ∧
    LowestSet value i := by
  -- the four masks of the source, as the byte masks above
  have h0 : (0xff#32 : BitVec 32) = byteMask 0 := by decide
  have h1 : (0xff00#32 : BitVec 32) = byteMask 1 := by decide
  have h2 : (0xff0000#32 : BitVec 32) = byteMask 2 := by decide
  have h3 : (0xff000000#32 : BitVec 32) = byteMask 3 := by decide
  have hfound : forall k, k < 4 -> value &&& byteMask k ≠ 0 ->
      (forall b, b < k -> value &&& byteMask b = 0) ->
      LowestSet value (8 * k + lowestBit (byteOf value k)) := by
    intro k hk hne hzero
    exact lowestSet_byte hk hne (low_bits_of_zero_bytes (by omega) hzero)
  unfold rtFfs
  rw [if_neg hvalue, h0, h1, h2, h3]
  by_cases hb0 : value &&& byteMask 0 = 0
  · rw [if_neg (by simpa using hb0)]
    by_cases hb1 : value &&& byteMask 1 = 0
    · rw [if_neg (by simpa using hb1)]
      by_cases hb2 : value &&& byteMask 2 = 0
      · rw [if_neg (by simpa using hb2)]
        have hzero : forall b, b < 3 -> value &&& byteMask b = 0 := by
          intro b hb
          have hcases : b = 0 ∨ b = 1 ∨ b = 2 := by omega
          rcases hcases with rfl | rfl | rfl
          · exact hb0
          · exact hb1
          · exact hb2
        have hb3 : value &&& byteMask 3 ≠ 0 := by
          intro hb3
          apply hvalue
          apply BitVec.eq_of_getLsbD_eq
          intro j hj
          have hall : forall b, b < 4 -> value &&& byteMask b = 0 := by
            intro b hb
            by_cases hlt : b < 3
            · exact hzero b hlt
            · rw [show b = 3 by omega]
              exact hb3
          rw [low_bits_of_zero_bytes (by omega) hall j (by omega)]
          simp
        exact ⟨_, by rw [byteOf_eq value (k := 3) rfl]; omega, hfound 3 (by omega) hb3 hzero⟩
      · rw [if_pos hb2]
        refine ⟨_, by rw [byteOf_eq value (k := 2) rfl]; omega, hfound 2 (by omega) hb2 ?_⟩
        intro b hb
        have hcases : b = 0 ∨ b = 1 := by omega
        rcases hcases with rfl | rfl
        · exact hb0
        · exact hb1
    · rw [if_pos hb1]
      refine ⟨_, by rw [byteOf_eq value (k := 1) rfl]; omega, hfound 1 (by omega) hb1 ?_⟩
      intro b hb
      rw [show b = 0 by omega]
      exact hb0
  · rw [if_pos hb0]
    refine ⟨_, ?_, hfound 0 (by omega) hb0 (by omega)⟩
    simp [byteOf]

end RtThread.Kernel
