import RtThread.Mem.SmallMemLowest

/-!
# Sizes and exact fits

`rt_malloc` and `rt_calloc` against what they promise: the block is large enough, and there is one
whenever a free block is. A size near `2^32` is aligned to zero; the loop of `rt_malloc` starts at
`lfree` and stops in front of a block that would be filled up to the end of the heap; in a heap
smaller than the least block it does not stop.
-/

namespace RtThread.Mem.SmallMem

open Kernel ByteMemory Tiling Transition

/-- `rt_memset` with zero, inside of the heap. -/
def rtMemsetZero (h : Heap) (dst count : Nat) : Heap :=
  { h with mem := fun x => if dst ≤ x ∧ x < dst + count then 0 else h.mem x }

def mul32 (a b : Nat) : Nat := a * b % 2 ^ 32

def rtCalloc (c : Config) (h : Heap) (count size : Nat) : Option (Heap × Option Nat) :=
  match rtMalloc c h (mul32 count size) with
  | none => none
  | some (h, none) => some (h, none)
  | some (h, some p) => some (rtMemsetZero h (p - h.heapPtr) (mul32 count size), some p)

/-!
## What they promise
-/

def Roomy (c : Config) (size : Nat) (b : Block) : Prop :=
  b.used = false ∧ b.start + c.sizeofStructMem + size ≤ b.stop

structure MallocLaw (c : Config) (h : Heap) (l : List Block) (size : Nat) : Prop where
  returns : exists r, rtMalloc c h size = some r
  room : forall h' p, rtMalloc c h size = some (h', some p) ->
    size ≤ payloadSize c h' p ∧ h.heapPtr + c.sizeofStructMem ≤ p ∧
      p + payloadSize c h' p ≤ h.heapPtr + h.heapEnd c
  complete : forall h', rtMalloc c h size = some (h', none) ->
    forall b, b ∈ l -> ¬ Roomy c (max (alignUp size c.alignSize) c.minSizeAligned) b

def CallocLaw (c : Config) (h : Heap) (count size : Nat) : Prop :=
  forall h' p, rtCalloc c h count size = some (h', some p) ->
    count * size ≤ payloadSize c h' p

/-!
## When they keep it
-/

/-- A free block of the size, not below `lfree` and not filled by it to the end of the
heap. -/
def Reached (c : Config) (h : Heap) (l : List Block) (size : Nat) : Prop :=
  exists b, b ∈ l ∧ Roomy c size b ∧ h.lfree ≤ b.start ∧
    b.start + c.sizeofStructMem + size ≠ h.heapEnd c

/-- The aligned size is more than the heap; or the heap can hold a least block, and if any
free block has the size, one is reached. Of a size that cannot be aligned none may be. -/
def MallocSuits (c : Config) (h : Heap) (l : List Block) (size : Nat) : Prop :=
  if c.Aligns size then
    h.memSizeAligned < alignUp size c.alignSize ∨
      c.minSizeAligned ≤ h.memSizeAligned ∧
        ((exists b, b ∈ l ∧ Roomy c (max (alignUp size c.alignSize) c.minSizeAligned) b) ->
          Reached c h l (max (alignUp size c.alignSize) c.minSizeAligned))
  else
    c.minSizeAligned ≤ h.memSizeAligned ∧ ¬ Reached c h l c.minSizeAligned

/-- The product can be aligned in 32 bits; or what is left of it is nothing, more than the
heap, or a size of which no block is reached. -/
def CallocSuits (c : Config) (h : Heap) (l : List Block) (count size : Nat) : Prop :=
  c.Aligns (count * size) ∨ mul32 count size = 0 ∨
    h.memSizeAligned < rtAlign (mul32 count size) c.alignSize ∨
      ¬ Reached c h l (c.dataSize (rtAlign (mul32 count size) c.alignSize))

section Fit

variable {c : Config} {h h' : Heap} {l : List Block} {size count : Nat}

theorem dataSize_eq_max : c.dataSize size = max size c.minSizeAligned := by
  unfold Config.dataSize
  split <;> omega

theorem Shape.payload_le {b : Block} (hs : Shape c h l) (hb : b ∈ l)
    (hroom : Roomy c size b) : b.start + size ≤ h.memSizeAligned := by
  have hbd := hs.tiles.bounds hb
  have hle := hroom.right
  unfold Heap.heapEnd at hbd
  omega

theorem Consistent.search_iff (hc : Consistent c h l) (hsize : size ≤ h.memSizeAligned) :
    exists r, search c h size (h.turns c) h.lfree = some r ∧
      (r.isSome = true <-> Reached c h l size) := by
  have hhdr := c.le_sizeof
  rcases hc.from_lfree with ⟨s, ht, hmem⟩
  have hlen := ht.length_le (by omega)
  refine ⟨_, search_eq hc.shape ht (fun d hd => ((hmem d).mp hd).left) hsize
    (by unfold Heap.turns; omega), ?_⟩
  rw [Option.isSome_map, List.find?_isSome]
  constructor
  · rintro ⟨b, hb, hcand⟩
    unfold candidate at hcand
    rw [decide_eq_true_iff] at hcand
    refine ⟨b, ((hmem b).mp hb).left, ⟨hcand.left, hcand.right.left⟩,
      ((hmem b).mp hb).right, ?_⟩
    unfold Heap.heapEnd
    omega
  · rintro ⟨b, hb, hroom, hle, hne⟩
    have hpayload := hc.shape.payload_le hb hroom
    refine ⟨b, (hmem b).mpr ⟨hb, hle⟩, ?_⟩
    unfold Heap.heapEnd at hne
    unfold candidate
    rw [decide_eq_true_iff]
    exact ⟨hroom.left, hroom.right, by omega⟩

theorem Consistent.search_endless {fuel ptr : Nat} (hc : Consistent c h l)
    (hsize : h.memSizeAligned < c.minSizeAligned)
    (hptr : ptr = h.heapEnd c ∨ exists d, d ∈ l ∧ d.start = ptr) :
    search c h c.minSizeAligned fuel ptr = none := by
  have hs := hc.shape
  have hsmall := hs.small
  have hmin := c.minSizeAligned_eq
  have hhdr : c.sizeofStructMem ≤ 65547 := by
    have hle := rtAlignDown_le ((heapMem.size + (c.alignSize - 1)) % 2 ^ 32) c.alignSize
    have hal := c.alignSize_le
    have hsz : heapMem.size = 12 := rfl
    unfold Config.sizeofStructMem rtAlign
    omega
  induction fuel generalizing ptr with
  | zero => rfl
  | succ fuel ih =>
    have hbelow : ptr < sub32 h.memSizeAligned c.minSizeAligned := by
      have hle : ptr ≤ h.heapEnd c := by
        rcases hptr with rfl | ⟨d, hd, rfl⟩
        · exact Nat.le_refl _
        · have hbd := hs.tiles.bounds hd
          omega
      unfold Heap.heapEnd at hle hsmall
      unfold sub32
      omega
    have hfits : ¬ fits c h c.minSizeAligned ptr = true := by
      intro hfits
      rcases hptr with rfl | ⟨d, hd, rfl⟩
      · unfold fits at hfits
        rw [decide_eq_true_iff] at hfits
        exact hs.endUsed hfits.left
      · have hroom := hs.payload_le hd ((hs.fits_iff hd).mp hfits)
        omega
    rw [search, if_pos hbelow, if_neg hfits]
    apply ih
    rcases hptr with rfl | ⟨d, hd, rfl⟩
    · exact Or.inl hs.endNext
    · rw [hs.next_eq hd]
      exact hs.stop_cases hd

theorem Consistent.malloc_iff (hc : Consistent c h l) (hpos : size ≠ 0)
    (hsize : rtAlign size c.alignSize ≤ h.memSizeAligned)
    (hmin : c.minSizeAligned ≤ h.memSizeAligned) :
    exists h' r, rtMalloc c h size = some (h', r) ∧
      (r.isSome = true <-> Reached c h l (c.dataSize (rtAlign size c.alignSize))) := by
  have hdata : c.dataSize (rtAlign size c.alignSize) ≤ h.memSizeAligned := by
    rw [dataSize_eq_max]
    omega
  have hdpos := c.le_dataSize (rtAlign size c.alignSize)
  rcases hc.search_iff hdata with ⟨r, hsearch, hiff⟩
  unfold rtMalloc
  rw [if_neg hpos, if_neg (by omega)]
  simp only [hsearch]
  cases r with
  | none => exact ⟨h, none, rfl, hiff⟩
  | some mem =>
    have hptr : h.lfree = h.heapEnd c ∨ exists d, d ∈ l ∧ d.start = h.lfree := by
      rcases hc.lfree with hend | ⟨d, hd, _, hstart⟩
      · exact Or.inl hend
      · exact Or.inr ⟨d, hd, hstart⟩
    rcases search_sound hc.shape hptr hsearch with ⟨b, hb, hstart, hfree, hroom⟩
    have hhdr := c.le_sizeof
    rcases allocate_spec hc hb hfree (by omega) (Config.dataSize_mod (rtAlign_mod _ _))
      hroom with ⟨h', _, d, heq, _⟩
    rw [hstart] at heq
    exact ⟨h', _, heq, hiff⟩

theorem Consistent.malloc_endless (hc : Consistent c h l) (hpos : size ≠ 0)
    (hsize : rtAlign size c.alignSize ≤ h.memSizeAligned)
    (hmin : h.memSizeAligned < c.minSizeAligned) : rtMalloc c h size = none := by
  have hptr : h.lfree = h.heapEnd c ∨ exists d, d ∈ l ∧ d.start = h.lfree := by
    rcases hc.lfree with hend | ⟨d, hd, _, hstart⟩
    · exact Or.inl hend
    · exact Or.inr ⟨d, hd, hstart⟩
  have hdata : c.dataSize (rtAlign size c.alignSize) = c.minSizeAligned := by
    rw [dataSize_eq_max]
    omega
  unfold rtMalloc
  rw [if_neg hpos, if_neg (by omega)]
  simp only [hdata, hc.search_endless hmin hptr]

theorem Consistent.malloc_room {p : Nat} (hc : Consistent c h l)
    (hm : rtMalloc c h size = some (h', some p)) :
    c.dataSize (rtAlign size c.alignSize) ≤ payloadSize c h' p ∧
      h.heapPtr + c.sizeofStructMem ≤ p ∧
      p + payloadSize c h' p ≤ h.heapPtr + h.heapEnd c := by
  rcases rtMalloc_spec hc hm with ⟨hr, _⟩ | ⟨l', d, hr, ha⟩
  · cases hr
  · cases hr
    have hd : d ∈ l' := (ha.more.right.right d ha.more.left).mpr (Or.inr rfl)
    have hs := ha.evolves.consistent.shape
    have hbd := hs.tiles.bounds hd
    have hroom := ha.room
    have hend := ha.evolves.heapEnd
    unfold payloadSize payload
    rw [ha.evolves.heapPtr,
      show h.heapPtr + d.start + c.sizeofStructMem - c.sizeofStructMem - h.heapPtr = d.start by
        omega, hs.next_eq hd]
    omega

theorem Consistent.malloc_same {r : Option Nat} (hc : Consistent c h l)
    (hm : rtMalloc c h size = some (h', r)) : h'.heapPtr = h.heapPtr := by
  rcases rtMalloc_spec hc hm with ⟨_, heq⟩ | ⟨l', d, _, ha⟩
  · rw [heq]
  · exact ha.evolves.heapPtr

theorem Consistent.mallocLaw_iff (hc : Consistent c h l) (hpos : 0 < size)
    (hlt : size < 2 ^ 32) : MallocLaw c h l size <-> MallocSuits c h l size := by
  have hne : size ≠ 0 := by omega
  have hup : size ≤ alignUp size c.alignSize := le_alignUp c.alignSize_pos
  have hsmall := hc.shape.small
  have hal := c.alignSize_le_sizeof
  unfold Heap.heapEnd at hsmall
  unfold MallocSuits
  by_cases hfits : c.Aligns size
  · rw [if_pos hfits]
    have halign := rtAlign_of_lt hfits
    by_cases hmore : h.memSizeAligned < alignUp size c.alignSize
    · have hnull : rtMalloc c h size = some (h, none) := by
        unfold rtMalloc
        rw [if_neg hne, if_pos (halign ▸ hmore)]
      refine iff_of_true ⟨⟨_, hnull⟩, ?_, ?_⟩ (Or.inl hmore)
      · intro h' p hm
        cases hnull.symm.trans hm
      · intro h' _ b hb hroom
        have hle := hc.shape.payload_le hb hroom
        omega
    · rcases Nat.lt_or_ge h.memSizeAligned c.minSizeAligned with htiny | hmin
      · have hnone := hc.malloc_endless hne (by omega) htiny
        apply iff_of_false
        · rintro ⟨⟨r, hr⟩, _, _⟩
          cases hnone.symm.trans hr
        · rintro (hlarge | ⟨hmin, _⟩)
          · exact hmore hlarge
          · omega
      · rcases hc.malloc_iff hne (by omega) hmin with ⟨h1, r, hm, hiff⟩
        rw [dataSize_eq_max, halign] at hiff
        constructor
        · intro hlaw
          refine Or.inr ⟨hmin, ?_⟩
          rintro ⟨b, hb, hroom⟩
          rw [← hiff]
          cases r with
          | none => exact absurd hroom (hlaw.complete h1 hm b hb)
          | some p => rfl
        · rintro (hlarge | ⟨_, hreach⟩)
          · exact absurd hlarge hmore
          · refine ⟨⟨_, hm⟩, ?_, ?_⟩
            · intro h' p hm'
              have hroom := hc.malloc_room hm'
              rw [dataSize_eq_max, halign] at hroom
              exact ⟨by omega, hroom.right⟩
            · intro h' hm' b hb hroom
              cases hm.symm.trans hm'
              exact absurd (hiff.mpr (hreach ⟨b, hb, hroom⟩)) nofun
  · rw [if_neg hfits]
    have halign := rtAlign_of_ge c.alignSize_pos hlt (by unfold Config.Aligns at hfits; omega)
    unfold Config.Aligns at hfits
    have hzero : rtAlign size c.alignSize ≤ h.memSizeAligned := by omega
    rcases Nat.lt_or_ge h.memSizeAligned c.minSizeAligned with htiny | hmin
    · have hnone := hc.malloc_endless hne hzero htiny
      apply iff_of_false
      · rintro ⟨⟨r, hr⟩, _, _⟩
        cases hnone.symm.trans hr
      · rintro ⟨hmin, _⟩
        omega
    · rcases hc.malloc_iff hne hzero hmin with ⟨h1, r, hm, hiff⟩
      rw [halign, dataSize_eq_max, Nat.zero_max] at hiff
      rw [← hiff]
      constructor
      · intro hlaw
        refine ⟨hmin, ?_⟩
        intro hsome
        rcases Option.isSome_iff_exists.mp hsome with ⟨p, hp⟩
        subst hp
        have hroom := hlaw.room h1 p hm
        unfold Heap.heapEnd at hroom
        omega
      · rintro ⟨_, hnull⟩
        have hr : r = none := by simpa using hnull
        subst hr
        refine ⟨⟨_, hm⟩, ?_, ?_⟩
        · intro h' p hm'
          cases hm.symm.trans hm'
        · intro h' _ b hb hroom
          have hle := hc.shape.payload_le hb hroom
          omega

theorem Consistent.malloc_null_iff (hc : Consistent c h l) :
    (forall h' p, rtMalloc c h size ≠ some (h', some p)) <->
      size = 0 ∨ h.memSizeAligned < rtAlign size c.alignSize ∨
        ¬ Reached c h l (c.dataSize (rtAlign size c.alignSize)) := by
  by_cases hzero : size = 0
  · refine iff_of_true ?_ (Or.inl hzero)
    intro h' p hm
    rw [hzero] at hm
    cases hm
  · by_cases hmore : h.memSizeAligned < rtAlign size c.alignSize
    · refine iff_of_true ?_ (Or.inr (Or.inl hmore))
      intro h' p hm
      unfold rtMalloc at hm
      simp only [if_neg hzero, if_pos hmore] at hm
      cases hm
    · simp only [hzero, hmore, false_or]
      rcases Nat.lt_or_ge h.memSizeAligned c.minSizeAligned with htiny | hmin
      · apply iff_of_true
        · intro h' p hm
          rw [hc.malloc_endless hzero (by omega) htiny] at hm
          cases hm
        · rintro ⟨b, hb, hroom, _⟩
          have hle := hc.shape.payload_le hb hroom
          rw [dataSize_eq_max] at hle
          omega
      · rcases hc.malloc_iff hzero (by omega) hmin with ⟨h1, r, hm1, hiff⟩
        constructor
        · intro hall hreach
          rcases Option.isSome_iff_exists.mp (hiff.mpr hreach) with ⟨p, hp⟩
          subst hp
          exact hall h1 p hm1
        · intro hnone h' p hm
          cases hm1.symm.trans hm
          exact hnone (hiff.mp rfl)

theorem payloadSize_memset {p n : Nat} (hp : h.heapPtr + c.sizeofStructMem ≤ p) :
    payloadSize c (rtMemsetZero h (p - h.heapPtr) n) p = payloadSize c h p := by
  have hhdr := c.le_sizeof
  have hget : (rtMemsetZero h (p - h.heapPtr) n).get (p - c.sizeofStructMem - h.heapPtr)
      Field.next = h.get (p - c.sizeofStructMem - h.heapPtr) Field.next := by
    apply heapMem.get_congr
    intro x hle hlt
    have hsize : heapMem.size = 12 := rfl
    exact if_neg (by omega)
  have hptr : (rtMemsetZero h (p - h.heapPtr) n).heapPtr = h.heapPtr := rfl
  unfold payloadSize
  rw [hptr, hget]

theorem Consistent.calloc_iff {n : Nat} (hc : Consistent c h l) :
    (exists h' p, rtCalloc c h count size = some (h', some p) ∧ payloadSize c h' p = n) <->
      exists h' p, rtMalloc c h (mul32 count size) = some (h', some p) ∧
        payloadSize c h' p = n := by
  unfold rtCalloc
  constructor
  · rintro ⟨h', p, hcalloc, hn⟩
    split at hcalloc
    · cases hcalloc
    · cases hcalloc
    · rename_i h1 p1 hm
      cases hcalloc
      have hroom := (hc.malloc_room hm).right.left
      rw [← (hc.malloc_same hm)] at hroom
      rw [payloadSize_memset hroom] at hn
      exact ⟨h1, p, hm, hn⟩
  · rintro ⟨h1, p, hm, hn⟩
    have hroom := (hc.malloc_room hm).right.left
    rw [← (hc.malloc_same hm)] at hroom
    rw [hm]
    exact ⟨_, p, rfl, (payloadSize_memset hroom).trans hn⟩

theorem Consistent.callocLaw_iff (hc : Consistent c h l) :
    CallocLaw c h count size <-> CallocSuits c h l count size := by
  have hsmall := hc.shape.small
  have hal := c.alignSize_le_sizeof
  unfold Heap.heapEnd at hsmall
  have hlaw : CallocLaw c h count size <-> forall h' p,
      rtMalloc c h (mul32 count size) = some (h', some p) ->
        count * size ≤ payloadSize c h' p := by
    constructor
    · intro hlaw h' p hm
      rcases hc.calloc_iff.mpr ⟨h', p, hm, rfl⟩ with ⟨h1, p1, hcalloc, hn⟩
      rw [← hn]
      exact hlaw h1 p1 hcalloc
    · intro hlaw h' p hcalloc
      rcases hc.calloc_iff.mp ⟨h', p, hcalloc, rfl⟩ with ⟨h1, p1, hm, hn⟩
      rw [← hn]
      exact hlaw h1 p1 hm
  rw [hlaw]
  unfold CallocSuits
  by_cases hfits : c.Aligns (count * size)
  · refine iff_of_true ?_ (Or.inl hfits)
    intro h' p hm
    have heq : mul32 count size = count * size :=
      Nat.mod_eq_of_lt (by unfold Config.Aligns at hfits; omega)
    have hup : count * size ≤ alignUp (count * size) c.alignSize := le_alignUp c.alignSize_pos
    have hroom := hc.malloc_room hm
    rw [heq, dataSize_eq_max, rtAlign_of_lt hfits] at hroom
    omega
  · simp only [hfits, false_or]
    rw [← hc.malloc_null_iff]
    -- any block is smaller than the product
    constructor
    · intro hlaw h' p hm
      have hroom := hc.malloc_room hm
      have hle := hlaw h' p hm
      unfold Config.Aligns at hfits
      unfold Heap.heapEnd at hroom
      omega
    · intro hnull h' p hm
      exact absurd hm (hnull h' p)

end Fit

/-- In every heap that calls can reach, and for every size, `rt_malloc` and `rt_calloc` keep
their promises exactly if the sizes suit the heap. -/
theorem malloc_fits_iff {c : Config} {h0 : Heap} {m : Memory} {beginAddr endAddr : Nat}
    {ops : List Op} {s : State}
    (hinit : rtSystemHeapInit c m beginAddr endAddr = some h0)
    (hrun : Run (Graph (step c)) (boot h0) ops s) :
    exists l, Tiles c.sizeofStructMem 0 l (s.heap.heapEnd c) ∧ Headers (links s.heap) 0 l ∧
      (forall size, 0 < size -> size < 2 ^ 32 ->
        (MallocLaw c s.heap l size <-> MallocSuits c s.heap l size)) ∧
      forall count size,
        (CallocLaw c s.heap count size <-> CallocSuits c s.heap l count size) := by
  have hinv : exists l, Sound c s l := by
    apply hrun.invariant (fun s => exists l, Sound c s l)
    · exact ⟨_, (boot_sound hinit).left⟩
    · rintro s op s' ⟨l, hs⟩ hstep
      rcases hs.step hstep with ⟨l', hnext⟩
      exact ⟨l', hnext.sound⟩
  rcases hinv with ⟨l, hs⟩
  have hc := hs.consistent
  exact ⟨l, hc.shape.tiles, hc.shape.headers, fun _ hpos hlt => hc.mallocLaw_iff hpos hlt,
    fun _ _ => hc.callocLaw_iff⟩

/-- A block in front of a free one that a request for 76 bytes would fill to the end. -/
theorem malloc_fits_iff_full :
    exists h0 s l, smallBoard = some h0 ∧
      Run (Graph (step four)) (boot h0) [Op.malloc 16] s ∧
      Headers (links s.heap) 0 l ∧
      (MallocLaw four s.heap l 76 <-> MallocSuits four s.heap l 76) := by
  have hexec : (smallBoard.bind fun h0 =>
      (exec (step four) (boot h0) [Op.malloc 16]).map fun s => s.heap.lfree) = some 28 := by
    decide +kernel
  rw [Option.bind_eq_some_iff] at hexec
  rcases hexec with ⟨h0, hinit, hexec⟩
  rw [Option.map_eq_some_iff] at hexec
  rcases hexec with ⟨s, hexec, _⟩
  rcases malloc_fits_iff hinit (run_of_exec hexec) with ⟨l, _, hheaders, hlaw, _⟩
  exact ⟨h0, s, l, hinit, run_of_exec hexec, hheaders, hlaw 76 (by decide) (by decide)⟩

/-- The heap of a board with 32 bytes left: 8 bytes between the two headers. -/
def tinyBoard : Option Heap :=
  rtSystemHeapInit four (fun _ => 0) 4096 4128

/-- All of a fresh heap of 104 bytes is one free block. A request for 104 bytes fails, one
for 2^32 - 1 gets 12, and so do 3 objects of 1431655766 bytes; in a heap of 8 bytes a
request for 4 never returns. -/
theorem malloc_breaks_law :
    (exists h0, smallBoard = some h0 ∧
      ¬ MallocLaw four h0 [⟨0, 116, false⟩] 104 ∧
      ¬ MallocLaw four h0 [⟨0, 116, false⟩] (2 ^ 32 - 1) ∧
      ¬ CallocLaw four h0 3 1431655766) ∧
    exists h0, tinyBoard = some h0 ∧ forall l, ¬ MallocLaw four h0 l 4 := by
  constructor
  · have hvalues : smallBoard.map (fun h0 => ((rtMalloc four h0 104).map Prod.snd,
        (rtMalloc four h0 (2 ^ 32 - 1)).map fun r => (r.2, r.2.map (payloadSize four r.1)),
        (rtCalloc four h0 3 1431655766).map fun r => (r.2, r.2.map (payloadSize four r.1)))) =
        some (some none, some (some 4108, some 12), some (some 4108, some 12)) := by
      decide +kernel
    rw [Option.map_eq_some_iff] at hvalues
    rcases hvalues with ⟨h0, hinit, hvalues⟩
    simp only [Prod.mk.injEq, Option.map_eq_some_iff] at hvalues
    rcases hvalues with ⟨⟨⟨h1, r1⟩, hnull, hr1⟩,
      ⟨⟨h2, r2⟩, hwrap, hr2, p2, hp2, hsize2⟩,
      ⟨h3, r3⟩, hcalloc, hr3, p3, hp3, hsize3⟩
    simp only at hr1 hr2 hr3 hp2 hp3
    subst hr1 hr2 hr3
    cases hp2
    cases hp3
    refine ⟨h0, hinit, ?_, ?_, ?_⟩
    · intro hlaw
      exact hlaw.complete h1 hnull ⟨0, 116, false⟩ (by simp) ⟨rfl, by decide⟩
    · intro hlaw
      have hroom := (hlaw.room h2 4108 hwrap).left
      have hpayload : payloadSize four h2 4108 = 12 := hsize2
      omega
    · intro hlaw
      have hroom := hlaw h3 4108 hcalloc
      have hpayload : payloadSize four h3 4108 = 12 := hsize3
      omega
  · have hvalues : tinyBoard.map (fun h0 => (rtMalloc four h0 4).isSome) = some false := by
      decide +kernel
    rw [Option.map_eq_some_iff] at hvalues
    rcases hvalues with ⟨h0, hinit, hnone⟩
    refine ⟨h0, hinit, ?_⟩
    rintro l ⟨⟨r, hr⟩, _, _⟩
    rw [hr] at hnone
    cases hnone

end RtThread.Mem.SmallMem
