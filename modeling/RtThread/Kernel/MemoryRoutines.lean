import RtThread.Library.BlockCopy
import Mathlib.Data.BitVec

/-!
# Memory routines

`rt_memset`, `rt_memcpy` and `rt_memmove` on a 32-bit machine whose words have four bytes,
the lowest one first.  Addresses wrap around.  With `RT_TINY_SIZE` the first two go byte by
byte, else word by word where the addresses are aligned.  Counts are such that the `int` of
`rt_memcpy` holds them.
-/

namespace RtThread.Kernel.MemoryRoutines

open BlockCopy
open Function (update update_of_ne)

abbrev Address := BitVec 32

abbrev Memory := Address -> BitVec 8

def loadWord (m : Memory) (a : Address) : BitVec 32 :=
  (m (a + 3) ++ m (a + 2) ++ m (a + 1) ++ m a : BitVec (8 + 8 + 8 + 8))

def storeWord (m : Memory) (a : Address) (w : BitVec 32) : Memory :=
  Function.update (Function.update (Function.update (Function.update m
    a (w.extractLsb' 0 8)) (a + 1) (w.extractLsb' 8 8)) (a + 2) (w.extractLsb' 16 8))
    (a + 3) (w.extractLsb' 24 8)

def unaligned (a : Address) : Bool := a &&& 3 ≠ 0

/-!
## Filling
-/

/-- `*aligned_addr++ = buffer;` a number of times -/
def storeWords (m : Memory) (a : Address) (buffer : BitVec 32) : Nat -> Memory × Address
  | 0 => (m, a)
  | n + 1 => storeWords (storeWord m a buffer) (a + 4) buffer n

/-- `while (count >= LBLOCKSIZE * 4)` -/
def setBlocks (m : Memory) (a : Address) (buffer : BitVec 32) (count : Nat) :
    Memory × Address × Nat :=
  if 16 ≤ count then
    let (m, a) := storeWords m a buffer 4
    setBlocks m a buffer (count - 16)
  else (m, a, count)
termination_by count

/-- `while (count >= LBLOCKSIZE)` -/
def setWords (m : Memory) (a : Address) (buffer : BitVec 32) (count : Nat) :
    Memory × Address × Nat :=
  if 4 ≤ count then
    let (m, a) := storeWords m a buffer 1
    setWords m a buffer (count - 4)
  else (m, a, count)
termination_by count

/-- The byte `d` in each byte of a word. -/
def spread (d : BitVec 32) : BitVec 32 :=
  let buffer := (d <<< 8) ||| d
  buffer ||| (buffer <<< 16)

/-- `rt_memset`: the memory and the returned address. -/
def rtMemset (tinySize : Bool) (m : Memory) (s : Address) (c : BitVec 32) (count : Nat) :
    Memory × Address :=
  if tinySize then (fill m s (c.setWidth 8) count, s)
  else
    let d := c &&& 0xff
    let (m, a, count) :=
      if ¬ count < 4 ∧ ¬ unaligned s then
        let (m, a, count) := setBlocks m s (spread d) count
        setWords m a (spread d) count
      else (m, s, count)
    (fill m a (d.setWidth 8) count, s)

/-!
## Copying
-/

/-- `*aligned_dst++ = *aligned_src++;` a number of times -/
def moveWords (m : Memory) (dst src : Address) : Nat -> Memory × Address × Address
  | 0 => (m, dst, src)
  | n + 1 => moveWords (storeWord m dst (loadWord m src)) (dst + 4) (src + 4) n

/-- `while (len >= BIGBLOCKSIZE)` -/
def copyBlocks (m : Memory) (dst src : Address) (len : Nat) :
    Memory × Address × Address × Nat :=
  if 16 ≤ len then
    let (m, dst, src) := moveWords m dst src 4
    copyBlocks m dst src (len - 16)
  else (m, dst, src, len)
termination_by len

/-- `while (len >= LITTLEBLOCKSIZE)` -/
def copyWords (m : Memory) (dst src : Address) (len : Nat) :
    Memory × Address × Address × Nat :=
  if 4 ≤ len then
    let (m, dst, src) := moveWords m dst src 1
    copyWords m dst src (len - 4)
  else (m, dst, src, len)
termination_by len

/-- `rt_memcpy`: the memory and the returned address. -/
def rtMemcpy (tinySize : Bool) (m : Memory) (dst src : Address) (count : Nat) :
    Memory × Address :=
  if tinySize then (forward m dst src count, dst)
  else
    let (m, dstPtr, srcPtr, len) :=
      if ¬ count < 16 ∧ ¬ (unaligned src ∨ unaligned dst) then
        let (m, dstPtr, srcPtr, len) := copyBlocks m dst src count
        copyWords m dstPtr srcPtr len
      else (m, dst, src, count)
    (forward m dstPtr srcPtr len, dst)

/-- `rt_memmove`: the memory and the returned address. -/
def rtMemmove (m : Memory) (dest src : Address) (n : Nat) : Memory × Address :=
  if src < dest ∧ dest < src + n then (backward m (dest + n) (src + n) n, dest)
  else (forward m dest src n, dest)

/-!
## Words as bytes
-/

theorem fill_four (m : Memory) (a : Address) (d : BitVec 8) :
    fill m a d 4 = update (update (update (update m a d) (a + 1) d) (a + 2) d) (a + 3) d := by
  have htwo : a + 1 + 1 = a + 2 := BitVec.add_assoc a 1 1
  have hthree : a + 2 + 1 = a + 3 := BitVec.add_assoc a 2 1
  simp only [fill, htwo, hthree]

theorem spread_byte (c : BitVec 32) {k : Nat} (hk : k = 0 ∨ k = 8 ∨ k = 16 ∨ k = 24) :
    (spread (c &&& 0xff)).extractLsb' k 8 = c.setWidth 8 := by
  unfold spread
  ext i hi
  have hbits : i = 0 ∨ i = 1 ∨ i = 2 ∨ i = 3 ∨ i = 4 ∨ i = 5 ∨ i = 6 ∨ i = 7 := by
    omega
  rcases hk with rfl | rfl | rfl | rfl
  all_goals rcases hbits with rfl | rfl | rfl | rfl | rfl | rfl | rfl | rfl <;> simp

theorem storeWord_spread (m : Memory) (a : Address) (c : BitVec 32) :
    storeWord m a (spread (c &&& 0xff)) = fill m a (c.setWidth 8) 4 := by
  rw [fill_four, storeWord, spread_byte c (by decide), spread_byte c (by decide),
    spread_byte c (by decide), spread_byte c (by decide)]

theorem loadWord_bytes (m : Memory) (a : Address) :
    (loadWord m a).extractLsb' 0 8 = m a ∧ (loadWord m a).extractLsb' 8 8 = m (a + 1) ∧
      (loadWord m a).extractLsb' 16 8 = m (a + 2) ∧
      (loadWord m a).extractLsb' 24 8 = m (a + 3) := by
  unfold loadWord
  refine ⟨?_, ?_, ?_, ?_⟩
  · ext i hi
    simp only [BitVec.getElem_extractLsb', BitVec.getLsbD_append]
    simp [hi]
  · ext i hi
    simp only [BitVec.getElem_extractLsb', BitVec.getLsbD_append]
    simp [show ¬ 8 + i < 8 by omega, show 8 + i - 8 = i by omega, hi]
  · ext i hi
    simp only [BitVec.getElem_extractLsb', BitVec.getLsbD_append]
    simp [show ¬ 16 + i < 8 by omega, show ¬ 16 + i - 8 < 8 by omega,
      show 16 + i - 8 - 8 = i by omega, hi]
  · ext i hi
    simp only [BitVec.getElem_extractLsb', BitVec.getLsbD_append]
    simp [show ¬ 24 + i < 8 by omega, show ¬ 24 + i - 8 < 8 by omega,
      show ¬ 24 + i - 8 - 8 < 8 by omega, show 24 + i - 8 - 8 - 8 = i by omega, hi]

theorem toNat_small {i : Nat} (hi : i < 4) : ((i : Nat) : Address).toNat = i := by
  rw [BitVec.natCast_eq_ofNat, BitVec.toNat_ofNat]
  exact Nat.mod_eq_of_lt (by omega)

theorem moved_word (m : Memory) (dst src : Address) :
    Moved m (storeWord m dst (loadWord m src)) dst src 4 := by
  rcases loadWord_bytes m src with ⟨h0, h1, h2, h3⟩
  unfold storeWord
  rw [h0, h1, h2, h3]
  refine ⟨fun i hi => ?_, fun a ha => ?_⟩
  · have hcases : i = 0 ∨ i = 1 ∨ i = 2 ∨ i = 3 := by omega
    rcases hcases with rfl | rfl | rfl | rfl
    all_goals simp
  · have ha0 : a ≠ dst := by simpa using ha 0 (by decide)
    have ha1 : a ≠ dst + 1 := ha 1 (by decide)
    have ha2 : a ≠ dst + 2 := ha 2 (by decide)
    have ha3 : a ≠ dst + 3 := ha 3 (by decide)
    rw [update_of_ne ha3, update_of_ne ha2, update_of_ne ha1, update_of_ne ha0]

/-- Where no byte of a word is written before it is read, four bytes are copied like it. -/
def WordSafe (dst src : Address) : Prop :=
  forall i j : Nat, j < i -> i < 4 -> dst + (j : Address) ≠ src + (i : Address)

variable {m : Memory} {dst src : Address}

theorem storeWord_loadWord (hsafe : WordSafe dst src) :
    storeWord m dst (loadWord m src) = forward m dst src 4 := by
  have hdistinct : Distinct dst 4 := by
    intro i j hi hj heq
    have hval := congrArg BitVec.toNat ((BitVec.add_right_inj _).mp heq)
    rwa [toNat_small hi, toNat_small hj] at hval
  exact (moved_word m dst src).unique (forward_moved hdistinct hsafe)

theorem WordSafe.advance (h : WordSafe dst src) (k : Address) : WordSafe (dst + k) (src + k) := by
  intro i j hj hi heq
  apply h i j hj hi
  rw [BitVec.add_assoc, BitVec.add_assoc, BitVec.add_comm k, BitVec.add_comm k,
    <- BitVec.add_assoc, <- BitVec.add_assoc] at heq
  exact (BitVec.add_left_inj _).mp heq

/-!
## Loops
-/

theorem storeWords_eq (m : Memory) (a : Address) (c : BitVec 32) (n : Nat) :
    storeWords m a (spread (c &&& 0xff)) n =
      (fill m a (c.setWidth 8) (4 * n), a + ((4 * n : Nat) : Address)) := by
  induction n generalizing m a with
  | zero => simp [storeWords, fill]
  | succ n ih =>
    rw [storeWords, storeWord_spread, ih, Nat.mul_succ, Nat.add_comm (4 * n) 4, fill_add]
    congr 1
    push_cast
    exact BitVec.add_assoc a 4 _

theorem moveWords_eq (hsafe : WordSafe dst src) (n : Nat) : moveWords m dst src n =
      (forward m dst src (4 * n), dst + ((4 * n : Nat) : Address),
        src + ((4 * n : Nat) : Address)) := by
  induction n generalizing m dst src with
  | zero => simp [moveWords, forward]
  | succ n ih =>
    rw [moveWords, storeWord_loadWord hsafe, ih (hsafe.advance 4), Nat.mul_succ,
      Nat.add_comm (4 * n) 4, forward_add]
    congr 1
    push_cast
    rw [BitVec.add_assoc, BitVec.add_assoc]

/-- What a loop of `rt_memset` has left to do. -/
def SetUpTo (m : Memory) (s : Address) (d : BitVec 8) (count : Nat)
    (state : Memory × Address × Nat) : Prop :=
  exists k, k ≤ count ∧ state = (fill m s d k, s + (k : Address), count - k)

theorem SetUpTo.trans {m' : Memory} {s s' : Address} {d : BitVec 8} {count count' : Nat}
    {state : Memory × Address × Nat} (h : SetUpTo m s d count (m', s', count'))
    (h' : SetUpTo m' s' d count' state) : SetUpTo m s d count state := by
  rcases h with ⟨k, hk, heq⟩
  rcases h' with ⟨k', hk', rfl⟩
  cases heq
  refine ⟨k + k', by omega, ?_⟩
  rw [fill_add, Nat.sub_sub]
  congr 2
  push_cast
  rw [BitVec.add_assoc]

theorem setBlocks_upTo (m : Memory) (s : Address) (c : BitVec 32) (count : Nat) :
    SetUpTo m s (c.setWidth 8) count (setBlocks m s (spread (c &&& 0xff)) count) := by
  induction count using Nat.strong_induction_on generalizing m s with
  | h count ih =>
    rw [setBlocks]
    split
    · next hle =>
        rw [storeWords_eq]
        exact SetUpTo.trans ⟨16, hle, rfl⟩ (ih (count - 16) (by omega) _ _)
    · exact ⟨0, Nat.zero_le _, by simp [fill]⟩

theorem setWords_upTo (m : Memory) (s : Address) (c : BitVec 32) (count : Nat) :
    SetUpTo m s (c.setWidth 8) count (setWords m s (spread (c &&& 0xff)) count) := by
  induction count using Nat.strong_induction_on generalizing m s with
  | h count ih =>
    rw [setWords]
    split
    · next hle =>
        rw [storeWords_eq]
        exact SetUpTo.trans ⟨4, hle, rfl⟩ (ih (count - 4) (by omega) _ _)
    · exact ⟨0, Nat.zero_le _, by simp [fill]⟩

/-- What a loop of `rt_memcpy` has left to do. -/
def CopiedUpTo (m : Memory) (dst src : Address) (len : Nat)
    (state : Memory × Address × Address × Nat) : Prop :=
  exists k, k ≤ len ∧
    state = (forward m dst src k, dst + (k : Address), src + (k : Address), len - k)

theorem CopiedUpTo.trans {m' : Memory} {dst' src' : Address} {len len' : Nat}
    {state : Memory × Address × Address × Nat}
    (h : CopiedUpTo m dst src len (m', dst', src', len'))
    (h' : CopiedUpTo m' dst' src' len' state) : CopiedUpTo m dst src len state := by
  rcases h with ⟨k, hk, heq⟩
  rcases h' with ⟨k', hk', rfl⟩
  cases heq
  refine ⟨k + k', by omega, ?_⟩
  rw [forward_add, Nat.sub_sub]
  congr 2
  · push_cast
    rw [BitVec.add_assoc]
  · push_cast
    rw [BitVec.add_assoc]

theorem copyBlocks_upTo (hsafe : WordSafe dst src)
    (len : Nat) : CopiedUpTo m dst src len (copyBlocks m dst src len) := by
  induction len using Nat.strong_induction_on generalizing m dst src with
  | h len ih =>
    rw [copyBlocks]
    split
    · next hle =>
        rw [moveWords_eq hsafe]
        exact CopiedUpTo.trans ⟨16, hle, rfl⟩ (ih (len - 16) (by omega) (hsafe.advance 16))
    · exact ⟨0, Nat.zero_le _, by simp [forward]⟩

theorem copyWords_upTo (hsafe : WordSafe dst src)
    (len : Nat) : CopiedUpTo m dst src len (copyWords m dst src len) := by
  induction len using Nat.strong_induction_on generalizing m dst src with
  | h len ih =>
    rw [copyWords]
    split
    · next hle =>
        rw [moveWords_eq hsafe]
        exact CopiedUpTo.trans ⟨4, hle, rfl⟩ (ih (len - 4) (by omega) (hsafe.advance 4))
    · exact ⟨0, Nat.zero_le _, by simp [forward]⟩

/-!
## Routines
-/

theorem rtMemset_tinySize (m : Memory) (s : Address) (c : BitVec 32) (count : Nat) :
    rtMemset false m s c count = rtMemset true m s c count := by
  have hbyte : (c &&& 0xff).setWidth 8 = c.setWidth 8 := by
    ext i hi
    have hbits : i = 0 ∨ i = 1 ∨ i = 2 ∨ i = 3 ∨ i = 4 ∨ i = 5 ∨ i = 6 ∨
      i = 7 := by omega
    rcases hbits with rfl | rfl | rfl | rfl | rfl | rfl | rfl | rfl <;> simp
  have hrest {state : Memory × Address × Nat} (h : SetUpTo m s (c.setWidth 8) count state) :
      fill state.1 state.2.1 (c.setWidth 8) state.2.2 = fill m s (c.setWidth 8) count := by
    rcases h with ⟨k, hk, rfl⟩
    rw [<- fill_add, Nat.add_sub_cancel' hk]
  unfold rtMemset
  simp only [if_true, hbyte, Bool.false_eq_true, if_false]
  congr 1
  split
  · apply hrest
    exact SetUpTo.trans (setBlocks_upTo m s c count) (setWords_upTo _ _ c _)
  · rfl

theorem wordSafe_of_aligned (hdst : unaligned dst = false)
    (hsrc : unaligned src = false) : WordSafe dst src := by
  have hmod (a : Address) (ha : unaligned a = false) : a.toNat % 4 = 0 := by
    have hmask : a &&& 3 = 0 := by simpa [unaligned] using ha
    have hval := congrArg BitVec.toNat hmask
    rw [BitVec.toNat_and] at hval
    have hand := Nat.and_two_pow_sub_one_eq_mod a.toNat 2
    exact hand.symm.trans hval
  have hdst' := hmod dst hdst
  have hsrc' := hmod src hsrc
  intro i j hj hi heq
  have hval := congrArg BitVec.toNat heq
  rw [BitVec.toNat_add, BitVec.toNat_add, toNat_small hi, toNat_small (Nat.lt_trans hj hi)] at hval
  omega

theorem rtMemcpy_tinySize (m : Memory) (dst src : Address) (count : Nat) :
    rtMemcpy false m dst src count = rtMemcpy true m dst src count := by
  have hrest {state : Memory × Address × Address × Nat} (h : CopiedUpTo m dst src count state) :
      forward state.1 state.2.1 state.2.2.1 state.2.2.2 = forward m dst src count := by
    rcases h with ⟨k, hk, rfl⟩
    rw [<- forward_add, Nat.add_sub_cancel' hk]
  unfold rtMemcpy
  simp only [if_true, Bool.false_eq_true, if_false]
  congr 1
  split
  · next hwords =>
      have hsafe : WordSafe dst src := by
        apply wordSafe_of_aligned
        · exact Bool.eq_false_iff.mpr fun h => hwords.right (Or.inr h)
        · exact Bool.eq_false_iff.mpr fun h => hwords.right (Or.inl h)
      apply hrest
      have hblocks := copyBlocks_upTo (m := m) hsafe count
      refine CopiedUpTo.trans hblocks (copyWords_upTo ?_ _)
      rcases hblocks with ⟨k, -, hstate⟩
      rw [hstate]
      exact hsafe.advance _
  · rfl

theorem rtMemmove_moved (m : Memory) {dest : Address} {n : Nat}
    (hdest : dest.toNat + n ≤ 2 ^ 32) (hsrc : src.toNat + n < 2 ^ 32) :
    Moved m (rtMemmove m dest src n).1 dest src n := by
  have hpos (a : Address) {i : Nat} (hi : a.toNat + i < 2 ^ 32) :
      (a + (i : Address)).toNat = a.toNat + i := by
    rw [BitVec.toNat_add, BitVec.natCast_eq_ofNat, BitVec.toNat_ofNat]
    omega
  have hdistinct : Distinct dest n := by
    intro i j hi hj heq
    have hval := congrArg BitVec.toNat heq
    rw [hpos dest (by omega), hpos dest (by omega)] at hval
    omega
  unfold rtMemmove
  split
  · next hbehind =>
      apply backward_moved hdistinct
      intro i j hij hj heq
      have hval := congrArg BitVec.toNat heq
      rw [hpos dest (by omega), hpos src (by omega)] at hval
      have hlt := BitVec.lt_def.mp hbehind.left
      omega
  · next hbefore =>
      apply forward_moved hdistinct
      intro i j hji hi heq
      have hval := congrArg BitVec.toNat heq
      rw [hpos dest (by omega), hpos src (by omega)] at hval
      apply hbefore
      rw [BitVec.lt_def, BitVec.lt_def, hpos src hsrc]
      omega

/-- The routines do what their byte loops do, and a move is right for every overlap. -/
theorem memory_routines_bytewise (m : Memory) (dst src : Address) (c : BitVec 32)
    (count : Nat) (hdst : dst.toNat < 2 ^ 31) (hsrc : src.toNat < 2 ^ 31)
    (hcount : count < 2 ^ 31) :
    rtMemcpy false m dst src count = rtMemcpy true m dst src count ∧
      rtMemset false m dst c count = rtMemset true m dst c count ∧
      Moved m (rtMemmove m dst src count).1 dst src count :=
  ⟨rtMemcpy_tinySize m dst src count, rtMemset_tinySize m dst c count,
    rtMemmove_moved m (by omega) (by omega)⟩

def ramp : Memory := fun a => a.setWidth 8

/-- Twenty bytes that are copied four bytes upwards, onto themselves. -/
theorem memory_routines_bytewise_overlap :
    rtMemcpy false ramp 0x20000004 0x20000000 20 = rtMemcpy true ramp 0x20000004 0x20000000 20 ∧
      rtMemset false ramp 0x20000004 0xff 20 = rtMemset true ramp 0x20000004 0xff 20 ∧
      Moved ramp (rtMemmove ramp 0x20000004 0x20000000 20).1 0x20000004 0x20000000 20 :=
  memory_routines_bytewise ramp _ _ _ _ (by decide) (by decide) (by decide)

end RtThread.Kernel.MemoryRoutines
