import RtThread.Kernel.Align
import RtThread.Library.ByteMemory

/-!
# Aligned blocks

`rt_malloc_align` asks `rt_malloc` for a larger block and keeps the address of that block in
the word before the aligned address; `rt_free_align` reads it back.
-/

namespace RtThread.Kernel.MallocAlign

open ByteMemory

/-- `rt_malloc`: a call returns 0 or a block of at least the bytes asked for. -/
structure Allocator where
  rtMalloc : Nat -> Nat
  room : Nat -> Nat
  aligned : forall n, rtMalloc n % 4 = 0
  enough : forall n, n ≤ room n
  inside : forall n, rtMalloc n ≠ 0 -> rtMalloc n + room n ≤ 2 ^ 32

def alignSize (size align : Nat) : Nat := add32 (rtAlign size 4) (rtAlign align 4)

/-- The address behind the hidden word, for `align` rounded up to 4 bytes. -/
def alignPtr (ptr align : Nat) : Nat :=
  if ptr % align = 0 then add32 ptr align else rtAlign ptr align

def rtMallocAlign (rt : Allocator) (m : Memory) (size align : Nat) : Nat × Memory :=
  let ptr := rt.rtMalloc (alignSize size align)
  if ptr ≠ 0 then
    let align_ptr := alignPtr ptr (rtAlign align 4)
    (align_ptr, writeNumber m (sub32 align_ptr 4) 4 ptr)
  else (ptr, m)

/-- The address that `rt_free_align` passes to `rt_free`. -/
def rtFreeAlign (m : Memory) (ptr : Nat) : Nat := readNumber m (sub32 ptr 4) 4

/-- A block that is returned is aligned, lies with its hidden word in the block of
`rt_malloc`, and gives it back whatever the user stores in it. -/
def RoundTrips (rt : Allocator) (m : Memory) (size align : Nat) : Prop :=
  let block := rt.rtMalloc (alignSize size align)
  let ptr := (rtMallocAlign rt m size align).1
  ptr ≠ 0 ->
    ptr % align = 0 ∧ block + 4 ≤ ptr ∧
      ptr + size ≤ block + rt.room (alignSize size align) ∧
      forall m' : Memory, (forall x, x < ptr ∨ ptr + size ≤ x ->
        m' x = (rtMallocAlign rt m size align).2 x) -> rtFreeAlign m' ptr = block

variable {rt : Allocator} {m : Memory} {size align ptr : Nat}

theorem rtAlign_align {k : Nat} (hpow : align = 2 ^ k) (hlt : align < 2 ^ 32) :
    rtAlign align 4 = alignUp align 4 ∧ alignUp align 4 % align = 0 ∧
      alignUp align 4 % 4 = 0 ∧ 4 ≤ alignUp align 4 ∧ alignUp align 4 ≤ 2 ^ 31 := by
  have hk : k ≤ 31 :=
    Nat.lt_succ_iff.mp ((Nat.pow_lt_pow_iff_right (by decide)).mp (hpow ▸ hlt))
  have hle : align ≤ 2 ^ 31 := hpow ▸ Nat.pow_le_pow_right (by decide) hk
  refine ⟨rtAlign_of_lt (by omega), ?_, rtAlignDown_mod _ _, ?_, ?_⟩
  · match k, hpow with
    | 0, hpow => rw [hpow]; rfl
    | 1, hpow => rw [hpow]; rfl
    | k + 2, hpow =>
      have hfour : align % 4 = 0 := by rw [hpow, Nat.pow_add]; exact Nat.mul_mod_left _ _
      have hsame : alignUp align 4 = align := by unfold alignUp rtAlignDown; omega
      rw [hsame, Nat.mod_self]
  · have hpos : 0 < align := hpow ▸ Nat.two_pow_pos k
    unfold alignUp rtAlignDown
    omega
  · unfold alignUp rtAlignDown
    omega

theorem alignPtr_spec {al : Nat} (hfour : al % 4 = 0) (hpos : 4 ≤ al) (hptr : ptr % 4 = 0)
    (hend : ptr + al ≤ 2 ^ 32) (hne : alignPtr ptr al ≠ 0) :
    alignPtr ptr al % al = 0 ∧ ptr + 4 ≤ alignPtr ptr al ∧ alignPtr ptr al ≤ ptr + al := by
  unfold alignPtr at hne ⊢
  split at hne
  · next hzero =>
      have hlt : ptr + al < 2 ^ 32 := by
        -- the address after the end of the memory would be 0
        refine Nat.lt_of_le_of_ne hend fun heq => hne ?_
        rw [add32, heq, Nat.mod_self]
      rw [if_pos hzero, add32_of_lt hlt, Nat.add_mod_right]
      exact ⟨hzero, Nat.add_le_add_left hpos _, Nat.le_refl _⟩
  · next hout =>
      rw [if_neg hout]
      have hmod := rtAlign_mod ptr al
      have hle : ptr ≤ rtAlign ptr al := le_rtAlign (by omega) hend
      have hup : rtAlign ptr al ≤ ptr + (al - 1) :=
        Nat.le_trans (rtAlignDown_le _ _) (Nat.mod_le _ _)
      have hmod4 : rtAlign ptr al % 4 = 0 := Nat.mod_eq_zero_of_dvd
        (Nat.dvd_trans (Nat.dvd_of_mod_eq_zero hfour) (Nat.dvd_of_mod_eq_zero hmod))
      have hdiff : rtAlign ptr al ≠ ptr := fun heq => hout (heq ▸ hmod)
      omega

theorem rtFreeAlign_eq {m' : Memory} {block : Nat} (hlow : block + 4 ≤ ptr) (hlt : ptr < 2 ^ 32)
    (hsame : forall x, x < ptr ∨ ptr + size ≤ x ->
      m' x = writeNumber m (sub32 ptr 4) 4 block x) :
    rtFreeAlign m' ptr = block := by
  have hsub : sub32 ptr 4 = ptr - 4 := sub32_of_le (by omega) hlt
  rw [rtFreeAlign, readNumber_congr (m := writeNumber m (sub32 ptr 4) 4 block),
    readNumber_writeNumber]
  · exact Nat.mod_eq_of_lt (by omega)
  · exact fun x _ hx => hsame x (Or.inl (by omega))

theorem alignPtr_lt {al : Nat} : alignPtr ptr al < 2 ^ 32 := by
  unfold alignPtr
  split
  · exact Nat.mod_lt _ (by decide)
  · exact rtAlign_lt _ _

theorem rtMallocAlign_eq (hne : rt.rtMalloc (alignSize size align) ≠ 0) :
    rtMallocAlign rt m size align =
      let align_ptr := alignPtr (rt.rtMalloc (alignSize size align)) (rtAlign align 4)
      (align_ptr, writeNumber m (sub32 align_ptr 4) 4 (rt.rtMalloc (alignSize size align))) :=
  if_pos hne

theorem roundTrips_of_fits {k : Nat} (hpow : align = 2 ^ k) (hlt : align < 2 ^ 32)
    (hfits : alignUp size 4 + alignUp align 4 < 2 ^ 32) : RoundTrips rt m size align := by
  rcases rtAlign_align hpow hlt with ⟨hround, hmul, hfour, hpos, -⟩
  have hup : size ≤ alignUp size 4 := le_alignUp (by decide)
  have hsize : rtAlign size 4 = alignUp size 4 := by
    have hmod : alignUp size 4 % 4 = 0 := rtAlignDown_mod _ _
    exact rtAlign_of_lt (by unfold alignUp rtAlignDown at *; omega)
  have hask : alignSize size align = alignUp size 4 + alignUp align 4 := by
    rw [alignSize, hsize, hround, add32_of_lt hfits]
  have hroom := rt.enough (alignSize size align)
  unfold RoundTrips
  by_cases hblock : rt.rtMalloc (alignSize size align) = 0
  · have hnull : (rtMallocAlign rt m size align).1 = 0 := by
      unfold rtMallocAlign
      rw [if_neg (not_not.mpr hblock)]
      exact hblock
    exact fun hptr => absurd hnull hptr
  · have hin := rt.inside _ hblock
    rw [rtMallocAlign_eq hblock, hround]
    dsimp only
    intro hptr
    rcases alignPtr_spec hfour hpos (rt.aligned _) (by omega) hptr with ⟨hmod, hlow, hhigh⟩
    refine ⟨?_, hlow, by omega, fun m' hsame => rtFreeAlign_eq hlow alignPtr_lt hsame⟩
    exact Nat.mod_eq_zero_of_dvd
      (Nat.dvd_trans (Nat.dvd_of_mod_eq_zero hmul) (Nat.dvd_of_mod_eq_zero hmod))

/-- Gives out the lowest addresses. -/
def lowest : Allocator where
  rtMalloc := fun n => if n + 4 ≤ 2 ^ 32 then 4 else 0
  room := id
  aligned := fun n => by split <;> rfl
  enough := Nat.le_refl
  inside := fun n hne => by
    by_cases hfits : n + 4 ≤ 2 ^ 32
    · rw [if_pos hfits]
      exact Nat.add_comm n 4 ▸ hfits
    · exact absurd (if_neg hfits) hne

theorem alignSize_wraps {k : Nat} (hpow : align = 2 ^ k) (hlt : align < 2 ^ 32)
    (hsize : size < 2 ^ 32) (hwraps : ¬ alignUp size 4 + alignUp align 4 < 2 ^ 32) :
    alignSize size align < size ∧ alignSize size align + 4 ≤ 2 ^ 32 := by
  rcases rtAlign_align hpow hlt with ⟨hround, -, hfour, -, hle⟩
  rw [alignSize, hround]
  rcases Nat.lt_or_ge (size + 3) (2 ^ 32) with hthree | hthree
  · rw [rtAlign_of_lt hthree, add32]
    have hmod : alignUp size 4 % 4 = 0 := rtAlignDown_mod _ _
    have hup : alignUp size 4 ≤ size + 3 := rtAlignDown_le _ _
    omega
  · rw [rtAlign_of_ge (by decide) hsize hthree, add32]
    omega

/-- Every block that is returned round-trips, whatever the allocator, exactly when the size with
the padding is a 32-bit number. -/
theorem malloc_align_iff (hpow : exists k, align = 2 ^ k) (hlt : align < 2 ^ 32)
    (hsize : size < 2 ^ 32) :
    (forall rt m, RoundTrips rt m size align) <->
      alignUp size 4 + alignUp align 4 < 2 ^ 32 := by
  rcases hpow with ⟨k, hpow⟩
  constructor
  · intro hall
    by_contra hwraps
    rcases alignSize_wraps hpow hlt hsize hwraps with ⟨hless, hfits⟩
    rcases rtAlign_align hpow hlt with ⟨hround, -, -, hpos, hle⟩
    have hblock : lowest.rtMalloc (alignSize size align) = 4 := if_pos hfits
    have hptr : (rtMallocAlign lowest (fun _ => 0) size align).1 ≠ 0 := by
      rw [rtMallocAlign_eq (hblock ▸ by decide), hround, hblock]
      show alignPtr 4 (alignUp align 4) ≠ 0
      unfold alignPtr
      split
      · rw [add32_of_lt (by omega)]
        omega
      · have hup : 4 ≤ rtAlign 4 (alignUp align 4) := le_rtAlign (by omega) (by omega)
        omega
    rcases hall lowest (fun _ => 0) hptr with ⟨-, hlow, hhigh, -⟩
    have hroom : lowest.room (alignSize size align) = alignSize size align := rfl
    rw [hblock] at hlow hhigh
    omega
  · exact fun hfits rt m => roundTrips_of_fits hpow hlt hfits

theorem malloc_align_iff_32 :
    (forall rt m, RoundTrips rt m 10 32) <-> alignUp 10 4 + alignUp 32 4 < 2 ^ 32 :=
  malloc_align_iff ⟨5, rfl⟩ (by decide) (by decide)

/-- The size 2^32 - 1 with alignment 8 asks for 8 bytes. -/
theorem largest_size_wraps :
    alignSize (2 ^ 32 - 1) 8 = 8 ∧ (rtMallocAlign lowest (fun _ => 0) (2 ^ 32 - 1) 8).1 = 8 ∧
      ¬ RoundTrips lowest (fun _ => 0) (2 ^ 32 - 1) 8 :=
  ⟨by decide, by decide, fun hround => absurd (hround (by decide)).2.2.1 (by decide)⟩

end RtThread.Kernel.MallocAlign
