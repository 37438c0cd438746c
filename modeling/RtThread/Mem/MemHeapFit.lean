import RtThread.Mem.MemHeapRuns

/-!
# Sizes and exact fits in a memory heap

`rt_memheap_alloc` against what it promises: there is a block whenever an unused block is
large enough, and then the payload has the size.  The call does not search when the aligned
size is all that is available, and a size near `2^32` is aligned to zero.
-/

namespace RtThread.Mem.MemHeap

open Kernel ByteMemory Tiling Transition

/-- The size of the payload for a request, as a natural number. -/
def payloadFor (c : Config) (size : Nat) : Nat :=
  max (alignUp size c.alignSize) memheapMinialloc

/-- There is a block exactly if an unused one is large enough, and it has the size. -/
def AllocLaw (c : Config) (h : RtMemheap) (l : List Block) (size : Nat) : Prop :=
  exists h' r, rtMemheapAlloc c h size = some (h', r) ∧
    (r.isSome = true <-> exists b, b ∈ l ∧ Roomy c (payloadFor c size) b) ∧
      forall p, r = some p -> size ≤ payloadSize c h' p

/-- An unused block that is large enough is not all that is available; of a size that cannot
be aligned, there is no unused block, or the least one is all there is. -/
def AllocSuits (c : Config) (h : RtMemheap) (l : List Block) (size : Nat) : Prop :=
  if c.Aligns size then
    (exists b, b ∈ l ∧ Roomy c (payloadFor c size) b) ->
      h.availableSize ≠ payloadFor c size
  else
    h.availableSize ≤ memheapMinialloc ∨ forall b, b ∈ l -> ¬ Roomy c memheapMinialloc b

section Fit

variable {c : Config} {h : RtMemheap} {l : List Block} {size : Nat}

theorem allocSize_eq_max : c.allocSize size = max (rtAlign size c.alignSize) memheapMinialloc := by
  unfold Config.allocSize
  dsimp only
  split <;> omega

theorem Config.alignSize_le_memheapSize : c.alignSize ≤ c.memheapSize := by
  have hhdr := c.le_memheapSize
  have hmod : c.memheapSize % c.alignSize = 0 := rtAlign_mod _ _
  exact Nat.le_of_dvd (by omega) (Nat.dvd_of_mod_eq_zero hmod)

theorem Consistent.roomy_le {b : Block} (hc : Consistent c h l) (hb : b ∈ l)
    (hroom : Roomy c size b) : size ≤ h.availableSize := by
  rcases List.append_of_mem hb with ⟨l1, l2, hl⟩
  have hbytes := freeBytes_free (c := c) hroom.left
  have hle := hroom.right
  rw [hc.available, hl, total_append, total_cons, hbytes]
  omega

theorem Consistent.alloc_iff (hc : Consistent c h l) (size : Nat) :
    exists h' r, rtMemheapAlloc c h size = some (h', r) ∧
      (r.isSome = true <-> c.allocSize size < h.availableSize ∧
        exists b, b ∈ l ∧ Roomy c (c.allocSize size) b) ∧
      forall p, r = some p -> c.allocSize size ≤ payloadSize c h' p ∧
        payloadSize c h' p + c.memheapSize ≤ h.poolSize := by
  rcases hc.alloc_cases size with ⟨hnull, hserves⟩ | ⟨hserves, h', l', d, hsome, ha⟩
  · exact ⟨h, none, hnull, iff_of_false nofun hserves, nofun⟩
  · have hd : d ∈ l' := (ha.more.right.right d ha.more.left).mpr (Or.inr rfl)
    have hshape := ha.evolves.consistent.shape
    have hroom := ha.room
    have hbd := hshape.tiles.bounds hd
    refine ⟨h', _, hsome, iff_of_true rfl hserves, ?_⟩
    rintro p ⟨rfl⟩
    have hadd := hshape.tail_add
    have hhdr := c.le_memheapSize
    rw [ha.evolves.edit.core.poolSize] at hadd
    rw [hshape.payloadSize_eq hd]
    omega

theorem Consistent.allocLaw_iff (hc : Consistent c h l) (hlt : size < 2 ^ 32) :
    AllocLaw c h l size <-> AllocSuits c h l size := by
  have hpool := hc.shape.pool_lt
  rcases hc.alloc_iff size with ⟨h', r, hm, hiff, hroom⟩
  rw [allocSize_eq_max] at hiff hroom
  have hlaw : AllocLaw c h l size <->
      (r.isSome = true <-> exists b, b ∈ l ∧ Roomy c (payloadFor c size) b) ∧
        forall p, r = some p -> size ≤ payloadSize c h' p := by
    constructor
    · rintro ⟨h1, r1, hm1, hrest⟩
      cases hm.symm.trans hm1
      exact hrest
    · intro hrest
      exact ⟨h', r, hm, hrest⟩
  rw [hlaw]
  unfold AllocSuits
  by_cases hfits : c.Aligns size
  · have hup : size ≤ alignUp size c.alignSize := le_alignUp c.alignSize_pos
    have hsize : size ≤ payloadFor c size := by
      unfold payloadFor
      omega
    rw [if_pos hfits]
    rw [rtAlign_of_lt hfits] at hiff hroom
    change r.isSome = true <-> payloadFor c size < h.availableSize ∧ _ at hiff
    rw [hiff]
    constructor
    · rintro ⟨hall, _⟩ hex
      have hlt' := (hall.mpr hex).left
      omega
    · intro hsuits
      refine ⟨⟨fun hboth => hboth.right, ?_⟩, ?_⟩
      · rintro ⟨b, hb, hroomy⟩
        have hle := hc.roomy_le hb hroomy
        have hne := hsuits ⟨b, hb, hroomy⟩
        exact ⟨by omega, b, hb, hroomy⟩
      · intro p hp
        have hpayload : payloadFor c size ≤ payloadSize c h' p := (hroom p hp).left
        omega
  · rw [if_neg hfits]
    unfold Config.Aligns at hfits
    have hal := Config.alignSize_le_memheapSize (c := c)
    have hle := hc.shape.free_le
    rw [← hc.available] at hle
    rw [rtAlign_of_ge c.alignSize_pos hlt (by omega), Nat.zero_max] at hiff
    -- no block has the size
    have hnone : ¬ exists b, b ∈ l ∧ Roomy c (payloadFor c size) b := by
      rintro ⟨b, hb, hroomy⟩
      have hmore := hc.roomy_le hb hroomy
      have hup : size ≤ alignUp size c.alignSize := le_alignUp c.alignSize_pos
      unfold payloadFor at hmore
      omega
    have hsuits : (h.availableSize ≤ memheapMinialloc ∨
        forall b, b ∈ l -> ¬ Roomy c memheapMinialloc b) <-> ¬ r.isSome = true := by
      rw [hiff, not_and_or, not_exists, Nat.not_lt]
      simp only [not_and]
    rw [hsuits]
    constructor
    · rintro ⟨hall, _⟩ hsome
      exact hnone (hall.mp hsome)
    · intro hnull
      refine ⟨⟨fun hsome => absurd hsome hnull, fun hex => absurd hex hnone⟩, ?_⟩
      intro p hp
      rw [hp] at hnull
      exact absurd rfl hnull

end Fit

/-- In every heap that calls can reach without a size that wraps around in a reallocation,
and for every size, `rt_memheap_alloc` keeps its promise exactly if the size suits the heap.
-/
theorem alloc_fits_iff {c : Config} {m : Memory} {self freeHeader startAddr poolSize : Nat}
    {ops : List Op} {s : State} (hp : Placed c self freeHeader startAddr poolSize)
    (hrun : Run (Guarded (fun s op => ¬ Overflows c s.heap op) (Graph (step c)))
      (boot (rtMemheapInit c m self freeHeader startAddr poolSize)) ops s) :
    exists l, HeapHolds c s l ∧ forall size, size < 2 ^ 32 ->
      (AllocLaw c s.heap l size <-> AllocSuits c s.heap l size) := by
  rcases sound_run hp hrun with ⟨l, hs, hi⟩
  exact ⟨l, hs.holds hi, fun size hlt => hs.consistent.allocLaw_iff hlt⟩

/-- After one allocation there are 164 bytes in one unused block. -/
theorem alloc_fits_iff_full :
    exists s l, Run (Guarded (fun s op => ¬ Overflows four s.heap op) (Graph (step four)))
        (boot smallPool) [Op.malloc 20] s ∧
      s.heap.availableSize = 164 ∧ HeapHolds four s l ∧
      (AllocLaw four s.heap l 164 <-> AllocSuits four s.heap l 164) := by
  have hexec : (exec (fun s op => if ¬ Overflows four s.heap op then step four s op
      else none) (boot smallPool) [Op.malloc 20]).map (fun s => s.heap.availableSize) =
        some 164 := by
    decide +kernel
  rw [Option.map_eq_some_iff] at hexec
  rcases hexec with ⟨s, hexec, havail⟩
  have hrun := guarded_run_of_exec hexec
  rcases alloc_fits_iff smallPool_placed hrun with ⟨l, hholds, hlaw⟩
  exact ⟨s, l, hrun, havail, hholds, hlaw 164 (by decide)⟩

/-- All of a fresh heap is one unused block of 208 bytes.  A request for 208 bytes fails,
and one for 2^32 - 1 gets 12. -/
theorem alloc_breaks_law :
    ¬ AllocLaw four smallPool [⟨4096, 4328, false⟩] 208 ∧
      ¬ AllocLaw four smallPool [⟨4096, 4328, false⟩] (2 ^ 32 - 1) := by
  constructor
  · rintro ⟨h', r, hm, hiff, _⟩
    have hnull : (rtMemheapAlloc four smallPool 208).map Prod.snd = some none := by
      decide +kernel
    rw [hm] at hnull
    cases hnull
    have hsome := hiff.mpr ⟨_, List.mem_singleton_self _, rfl, by decide⟩
    cases hsome
  · rintro ⟨h', r, hm, _, hroom⟩
    have hshort : (rtMemheapAlloc four smallPool (2 ^ 32 - 1)).map (fun r =>
        (r.2, r.2.map (payloadSize four r.1))) = some (some 4120, some 12) := by
      decide +kernel
    rw [hm, Option.map_some, Option.some.injEq, Prod.mk.injEq] at hshort
    rcases hshort with ⟨hr, hpayload⟩
    have hr' : r = some 4120 := hr
    subst hr'
    have hpayload' : payloadSize four h' 4120 = 12 := Option.some.inj hpayload
    have hle := hroom 4120 rfl
    omega

end RtThread.Mem.MemHeap
