import RtThread.Mem.MemHeapSafety

/-!
# Runs of a memory heap

`rt_memheap_init` leaves one free block and the tailer.  From there every run in
which no reallocation lets a size wrap around keeps the two lists, the statistics
and the bytes of the callers in order.
-/

namespace RtThread.Mem.MemHeap

open Kernel ByteMemory Tiling LinkRing Transition

/-!
## Initialisation
-/

/-- The pool lies in the address space apart from the free list header of the heap object,
and has room for two items. -/
structure Placed (c : Config) (heap freeHeader startAddr size : Nat) : Prop where
  room : 2 * c.memheapSize ≤ size
  small : startAddr + size ≤ 2 ^ 32
  heap32 : heap < 2 ^ 32
  list32 : freeHeader < 2 ^ 32
  away : freeHeader + 24 ≤ startAddr ∨ startAddr + size ≤ freeHeader

/-- The first assignments of `rt_memheap_init`: the header of the free list. -/
def initList (h : RtMemheap) (self freeHeader : Nat) : RtMemheap :=
  let h := h.put freeHeader Field.magic memheapMagic
  let h := h.put freeHeader Field.poolPtr self
  let h := h.put freeHeader Field.next 0
  let h := h.put freeHeader Field.prev 0
  let h := h.put freeHeader Field.nextFree freeHeader
  let h := h.put freeHeader Field.prevFree freeHeader
  { h with freeList := freeHeader }

def initBlock (h : RtMemheap) (self startAddr tailAddr : Nat) : RtMemheap :=
  let h := h.put startAddr Field.magic memheapMagic
  let h := h.put startAddr Field.poolPtr self
  let h := h.put startAddr Field.next 0
  let h := h.put startAddr Field.prev 0
  let h := h.put startAddr Field.nextFree startAddr
  let h := h.put startAddr Field.prevFree startAddr
  let h := h.put startAddr Field.next tailAddr
  let h := h.put startAddr Field.prev (h.get startAddr Field.next)
  { h with blockList := startAddr }

def initTail (h : RtMemheap) (self startAddr tailAddr : Nat) : RtMemheap :=
  let h := h.put tailAddr Field.magic (memheapMagic ||| memheapUsed)
  let h := h.put tailAddr Field.poolPtr self
  let h := h.put tailAddr Field.next startAddr
  let h := h.put tailAddr Field.prev startAddr
  let h := h.put tailAddr Field.prevFree 0
  h.put tailAddr Field.nextFree 0

section Init

variable {c : Config} {h : RtMemheap} {m : Memory}
  {self freeHeader startAddr size tailAddr x : Nat} {f : Field}

theorem get_with_freeList {v : Nat} : ({ h with freeList := v } : RtMemheap).get x f = h.get x f :=
  rfl

theorem get_with_blockList {v : Nat} :
    ({ h with blockList := v } : RtMemheap).get x f = h.get x f :=
  rfl

theorem initList_ring (hlist : freeHeader < 2 ^ 32) : FreeRing (initList h self freeHeader) [] := by
  unfold FreeRing initList
  simp only [get_with_freeList]
  apply ring_nil_iff.mpr
  constructor
  · simp (disch := decide) only [get_put_field, get_put_same hlist]
  · simp only [get_put_same hlist]

theorem initBlock_apart (hapart : memheapItem.Apart startAddr x) :
    (initBlock h self startAddr tailAddr).get x f = h.get x f := by
  unfold initBlock
  simp only [get_with_blockList, get_put_apart hapart]

theorem initBlock_fields (h : RtMemheap) (startAddr : Nat) (hself : self < 2 ^ 32)
    (htail : tailAddr < 2 ^ 32) :
    (initBlock h self startAddr tailAddr).get startAddr Field.magic = memheapMagic ∧
      (initBlock h self startAddr tailAddr).get startAddr Field.poolPtr = self ∧
      (initBlock h self startAddr tailAddr).get startAddr Field.next = tailAddr ∧
      (initBlock h self startAddr tailAddr).get startAddr Field.prev = tailAddr := by
  have hmagic : memheapMagic < 2 ^ 32 := by decide
  unfold initBlock
  simp only [get_with_blockList]
  refine ⟨?_, ?_, ?_, ?_⟩
  · simp (disch := decide) only [get_put_field, get_put_same hmagic]
  · simp (disch := decide) only [get_put_field, get_put_same hself]
  · simp (disch := decide) only [get_put_field, get_put_same htail]
  · rw [get_put_same get_lt, get_put_same htail]

theorem initTail_apart (hapart : memheapItem.Apart tailAddr x) :
    (initTail h self startAddr tailAddr).get x f = h.get x f := by
  unfold initTail
  simp only [get_put_apart hapart]

theorem initTail_fields (h : RtMemheap) (self tailAddr : Nat) (hstart : startAddr < 2 ^ 32) :
    (initTail h self startAddr tailAddr).get tailAddr Field.magic = magicOf true ∧
      (initTail h self startAddr tailAddr).get tailAddr Field.next = startAddr ∧
      (initTail h self startAddr tailAddr).get tailAddr Field.prev = startAddr := by
  have hmagic : memheapMagic ||| memheapUsed < 2 ^ 32 := by decide
  unfold initTail
  refine ⟨?_, ?_, ?_⟩
  · simp (disch := decide) only [get_put_field, get_put_same hmagic]
    rfl
  · simp (disch := decide) only [get_put_field, get_put_same hstart]
  · simp (disch := decide) only [get_put_field, get_put_same hstart]

theorem FreeRing.insert_first (hr : FreeRing h []) (hapart : memheapItem.Apart h.freeList x)
    (hx : x < 2 ^ 32) (hlist : h.freeList < 2 ^ 32) :
    FreeRing (freeInsert h x) [x] ∧ SameItem h (freeInsert h x) x := by
  have hne : x ≠ h.freeList := (apart_ne hapart).symm
  have hclear : forall a, a ∈ x :: h.freeList :: [] -> forall b,
      b ∈ x :: h.freeList :: [] -> Clear a b := by
    intro a ha b hb
    simp only [List.mem_cons, List.not_mem_nil, or_false] at ha hb
    rcases ha with rfl | rfl
    · rcases hb with rfl | rfl
      · exact Or.inl rfl
      · exact Or.inr hapart.symm
    · rcases hb with rfl | rfl
      · exact Or.inr hapart
      · exact Or.inl rfl
  refine ⟨hr.insert hclear (by simpa using hne) hx hlist, ?_⟩
  intro f hnext hprev
  have hhead : h.get h.freeList Field.nextFree = h.freeList := hr.next_head
  rw [freeInsert_get (Or.inl rfl) (Or.inr hapart) (Or.inr hapart.symm)
    (by rw [hhead]; exact Or.inr hapart) hne hx hlist]
  simp only [hnext, hprev, and_false, if_false]

theorem SameCore.with_blockList {h' : RtMemheap} {v : Nat} (hc : SameCore h h') :
    SameCore h { h' with blockList := v } :=
  ⟨hc.self, hc.startAddr, hc.poolSize, hc.freeList⟩

theorem SameStats.with_blockList {h' : RtMemheap} {v : Nat} (hs : SameStats h h') :
    SameStats h { h' with blockList := v } :=
  ⟨hs.available, hs.maxUsed⟩

theorem initBlock_core (h : RtMemheap) (self startAddr tailAddr : Nat) :
    SameCore h (initBlock h self startAddr tailAddr) := by
  unfold initBlock
  exact put_core.put.put.put.put.put.put.put.with_blockList

theorem initBlock_stats (h : RtMemheap) (self startAddr tailAddr : Nat) :
    SameStats h (initBlock h self startAddr tailAddr) := by
  unfold initBlock
  exact put_stats.put.put.put.put.put.put.put.with_blockList

theorem initTail_core (h : RtMemheap) (self startAddr tailAddr : Nat) :
    SameCore h (initTail h self startAddr tailAddr) := by
  unfold initTail
  exact put_core.put.put.put.put.put

theorem initTail_stats (h : RtMemheap) (self startAddr tailAddr : Nat) :
    SameStats h (initTail h self startAddr tailAddr) := by
  unfold initTail
  exact put_stats.put.put.put.put.put

theorem Placed.room_aligned (hp : Placed c self freeHeader startAddr size) :
    2 * c.memheapSize ≤ rtAlignDown size c.alignSize := by
  have hmod : 2 * c.memheapSize % c.alignSize = 0 :=
    Nat.mod_eq_zero_of_dvd (Nat.dvd_mul_left_of_dvd (Nat.dvd_of_mod_eq_zero (rtAlign_mod _ _)) 2)
  have hle := Nat.div_le_div_right (c := c.alignSize) hp.room
  have hmul := Nat.mul_le_mul_left c.alignSize hle
  have hroom := Nat.div_add_mod (2 * c.memheapSize) c.alignSize
  have hsize := Nat.div_add_mod size c.alignSize
  unfold rtAlignDown
  omega

theorem Placed.pool_lt (hp : Placed c self freeHeader startAddr size) :
    rtAlignDown size c.alignSize < 2 ^ 32 := by
  have hle := rtAlignDown_le size c.alignSize
  have hsmall := hp.small
  have hlist := hp.list32
  rcases hp.away with haway | haway
  · omega
  · omega

theorem rtMemheapInit_eq (hp : Placed c self freeHeader startAddr size) :
    rtMemheapInit c m self freeHeader startAddr size = initTail (freeInsert (initBlock (initList
        ⟨self, freeHeader, startAddr, rtAlignDown size c.alignSize,
          rtAlignDown size c.alignSize - 2 * c.memheapSize, 2 * c.memheapSize, 0, 0, m⟩
        self freeHeader) self startAddr
          (startAddr + rtAlignDown size c.alignSize - c.memheapSize)) startAddr)
        self startAddr (startAddr + rtAlignDown size c.alignSize - c.memheapSize) := by
  have hhdr := c.le_memheapSize
  have hroom := hp.room_aligned
  have hle := rtAlignDown_le size c.alignSize
  have hlt := hp.pool_lt
  have hsmall := hp.small
  have havail : sub32 (rtAlignDown size c.alignSize) (2 * c.memheapSize) =
      rtAlignDown size c.alignSize - 2 * c.memheapSize := sub32_of_le hroom (by omega)
  have hused : sub32 (rtAlignDown size c.alignSize)
      (rtAlignDown size c.alignSize - 2 * c.memheapSize) = 2 * c.memheapSize := by
    rw [sub32_of_le (by omega) (by omega)]
    omega
  have htail : add32 (add32 startAddr
      (rtAlignDown size c.alignSize - 2 * c.memheapSize)) c.memheapSize =
      startAddr + rtAlignDown size c.alignSize - c.memheapSize := by
    rw [add32_of_lt (b := rtAlignDown size c.alignSize - 2 * c.memheapSize) (by omega),
      add32_of_lt (by omega)]
    omega
  unfold rtMemheapInit
  simp only [havail, hused, htail]
  rfl

structure FirstItems (h : RtMemheap) (startAddr tailAddr : Nat) : Prop where
  ring : FreeRing h [startAddr]
  magic : h.get startAddr Field.magic = magicOf false
  poolPtr : h.get startAddr Field.poolPtr = h.self
  next : h.get startAddr Field.next = tailAddr
  prev : h.get startAddr Field.prev = tailAddr
  tailMagic : h.get tailAddr Field.magic = magicOf true
  tailNext : h.get tailAddr Field.next = startAddr
  tailPrev : h.get tailAddr Field.prev = startAddr

/-- The assignments of `rt_memheap_init` behind those of the free list header. -/
def initItems (h : RtMemheap) (startAddr tailAddr : Nat) : RtMemheap :=
  initTail (freeInsert (initBlock h h.self startAddr tailAddr) startAddr) h.self
    startAddr tailAddr

theorem initItems_core : SameCore h (initItems h startAddr tailAddr) :=
  ((initBlock_core h h.self startAddr tailAddr).trans freeInsert_core).trans
    (initTail_core _ h.self startAddr tailAddr)

theorem initItems_stats : SameStats h (initItems h startAddr tailAddr) :=
  ((initBlock_stats h h.self startAddr tailAddr).trans freeInsert_stats).trans
    (initTail_stats _ h.self startAddr tailAddr)

theorem initItems_first (hr : FreeRing h []) (hself : h.self < 2 ^ 32)
    (hlist : h.freeList < 2 ^ 32) (hstart : startAddr < 2 ^ 32) (htail : tailAddr < 2 ^ 32)
    (hlapart : memheapItem.Apart h.freeList startAddr)
    (htapart : memheapItem.Apart tailAddr h.freeList)
    (hbapart : memheapItem.Apart tailAddr startAddr) :
    FirstItems (initItems h startAddr tailAddr) startAddr tailAddr := by
  have hcore : SameCore h (initItems h startAddr tailAddr) := initItems_core
  have hcore' := initBlock_core h h.self startAddr tailAddr
  have hfields := initBlock_fields h startAddr hself htail
  have hblock : FreeRing (initBlock h h.self startAddr tailAddr) [] := by
    refine hr.congr hcore'.freeList ?_
    intro y hy f _
    rw [List.mem_singleton] at hy
    rw [hy]
    exact initBlock_apart hlapart.symm
  rw [← hcore'.freeList] at hlapart hlist
  rcases hblock.insert_first hlapart hstart hlist with ⟨hinsert, hsame⟩
  have hlast := initTail_fields (freeInsert (initBlock h h.self startAddr tailAddr)
    startAddr) h.self tailAddr hstart
  have hfirst : SameItem (initBlock h h.self startAddr tailAddr)
      (initItems h startAddr tailAddr) startAddr :=
    hsame.trans fun f _ _ => initTail_apart hbapart
  refine ⟨?_, ?_, ?_, ?_, ?_, hlast.left, hlast.right.left, hlast.right.right⟩
  · refine hinsert.congr (initTail_core _ h.self startAddr tailAddr).freeList ?_
    intro y hy f _
    apply initTail_apart
    rw [freeInsert_core.freeList, hcore'.freeList] at hy
    simp only [List.mem_cons, List.not_mem_nil, or_false] at hy
    rcases hy with rfl | rfl
    · exact htapart
    · exact hbapart
  · exact (hfirst _ (by decide) (by decide)).trans hfields.left
  · rw [hcore.self]
    exact (hfirst _ (by decide) (by decide)).trans hfields.right.left
  · exact (hfirst _ (by decide) (by decide)).trans hfields.right.right.left
  · exact (hfirst _ (by decide) (by decide)).trans hfields.right.right.right

theorem FirstItems.shape {tailAddr : Nat} (hf : FirstItems h h.startAddr tailAddr)
    (hroom : 2 * c.memheapSize ≤ h.poolSize) (hsmall : h.startAddr + h.poolSize ≤ 2 ^ 32)
    (hself : h.self < 2 ^ 32) (hlist : h.freeList < 2 ^ 32)
    (haway : h.freeList + 24 ≤ h.startAddr ∨ h.startAddr + h.poolSize ≤ h.freeList)
    (htail : h.startAddr + h.poolSize - c.memheapSize = tailAddr) :
    Shape c h [⟨h.startAddr, tailAddr, false⟩] := by
  have hhdr := c.le_memheapSize
  have htaileq : tail c h = tailAddr := htail
  have htailer : tailer c h = ⟨tailAddr, h.startAddr, true⟩ := by
    unfold tailer
    rw [htaileq]
  refine ⟨hroom, hsmall, hself, hlist, haway, ?_, ?_, ?_, ?_⟩
  · rw [htaileq]
    exact ⟨rfl, by show h.startAddr + c.memheapSize ≤ tailAddr; omega, rfl⟩
  · rw [htaileq, htailer]
    exact ⟨hf.next, isUsed_of_magic hf.magic, hf.prev, hf.tailNext,
      isUsed_of_magic hf.tailMagic, hf.tailPrev, trivial⟩
  · intro b hb
    rw [htailer] at hb
    simp only [List.cons_append, List.nil_append, List.mem_cons, List.not_mem_nil, or_false] at hb
    rcases hb with rfl | rfl
    · exact hf.magic
    · exact hf.tailMagic
  · intro b hb
    rw [List.mem_singleton] at hb
    rw [hb]
    exact hf.poolPtr

theorem rtMemheapInit_consistent (hp : Placed c self freeHeader startAddr size) :
    Consistent c (rtMemheapInit c m self freeHeader startAddr size)
      [⟨startAddr, startAddr + rtAlignDown size c.alignSize - c.memheapSize, false⟩] := by
  have hhdr := c.le_memheapSize
  have hroom := hp.room_aligned
  have hle := rtAlignDown_le size c.alignSize
  have hsmall := hp.small
  have haway := hp.away
  have hlist := hp.list32
  have hheap := hp.heap32
  rw [rtMemheapInit_eq hp]
  generalize rtAlignDown size c.alignSize = pool at *
  generalize htail : startAddr + pool - c.memheapSize = tailAddr
  generalize hlisted : initList _ self freeHeader = h1
  have hcore1 : h1.self = self ∧ h1.startAddr = startAddr ∧ h1.poolSize = pool ∧
      h1.freeList = freeHeader ∧ h1.availableSize = pool - 2 * c.memheapSize ∧
      h1.maxUsedSize = 2 * c.memheapSize := by
    rw [← hlisted]
    exact ⟨rfl, rfl, rfl, rfl, rfl, rfl⟩
  have hring : FreeRing h1 [] := by
    rw [← hlisted]
    exact initList_ring hlist
  clear hlisted
  rcases hcore1 with ⟨rfl, rfl, rfl, rfl, havail, hused⟩
  have hlapart : memheapItem.Apart h1.freeList h1.startAddr := by
    rcases haway with haway | haway
    · exact Or.inl (by show h1.freeList + 24 ≤ h1.startAddr; omega)
    · exact Or.inr (by show h1.startAddr + 24 ≤ h1.freeList; omega)
  have htapart : memheapItem.Apart tailAddr h1.freeList := by
    rcases haway with haway | haway
    · exact Or.inr (by show h1.freeList + 24 ≤ tailAddr; omega)
    · exact Or.inl (by show tailAddr + 24 ≤ h1.freeList; omega)
  have hbapart : memheapItem.Apart tailAddr h1.startAddr :=
    Or.inr (by show h1.startAddr + 24 ≤ tailAddr; omega)
  have hitems := initItems_first hring hheap hlist (by omega) (by omega) hlapart htapart hbapart
  have hcore : SameCore h1 (initItems h1 h1.startAddr tailAddr) := initItems_core
  have hstats : SameStats h1 (initItems h1 h1.startAddr tailAddr) := initItems_stats
  show Consistent c (initItems h1 h1.startAddr tailAddr) _
  generalize initItems h1 h1.startAddr tailAddr = h2 at *
  rw [← hcore.startAddr] at hitems
  have hshape := hitems.shape (c := c) (by rw [hcore.poolSize]; exact hroom)
    (by rw [hcore.startAddr, hcore.poolSize]; omega) (by rw [hcore.self]; exact hheap)
    (by rw [hcore.freeList]; exact hlist)
    (by rw [hcore.freeList, hcore.startAddr, hcore.poolSize]; omega)
    (by rw [hcore.startAddr, hcore.poolSize]; exact htail)
  have hring2 := hitems.ring
  rw [hcore.startAddr] at hshape hring2
  refine ⟨hshape, ⟨[h1.startAddr], hring2, fun x => by simp [eq_comm]⟩,
    List.IsChain.singleton _, ?_, ?_⟩
  · rw [hstats.available, havail, total_cons, total_nil, freeBytes_free rfl]
    show _ = tailAddr - h1.startAddr - c.memheapSize + 0
    omega
  · rw [hcore.poolSize, hstats.available, havail, hstats.maxUsed, hused]
    omega

end Init

/-!
## Runs from the initialisation
-/

section Runs

variable {c : Config} {h : RtMemheap} {m : Memory} {self freeHeader startAddr size : Nat}
  {s : State} {ops : List Op} {l : List Block} {b : Block}

theorem boot_sound (hp : Placed c self freeHeader startAddr size) :
    exists l, Sound c (boot (rtMemheapInit c m self freeHeader startAddr size)) l ∧
      Intact c (boot (rtMemheapInit c m self freeHeader startAddr size)) l := by
  refine ⟨_, ⟨rtMemheapInit_consistent hp, ?_⟩, ?_⟩
  · intro p
    constructor
    · intro hlive
      cases hlive
    · rintro ⟨b, hb, hused, _⟩
      rw [List.mem_singleton] at hb
      rw [hb] at hused
      cases hused
  · intro b hb hused o ho
    cases ho

theorem Shape.prev_of_next (hs : Shape c h l) (hb : b ∈ l ++ [tailer c h]) :
    h.get (h.get b.start Field.next) Field.prev = b.start := by
  have hheaders := hs.headers
  rcases List.mem_append.mp hb with hb | hb
  · rcases List.append_of_mem hb with ⟨l1, l2, hl⟩
    subst hl
    rcases hs.nextEntry with ⟨d, r, hright, hstart, _⟩
    rw [hs.next_eq hb, ← hstart]
    rw [List.append_assoc, List.cons_append, headers_append, hright] at hheaders
    exact hheaders.right.right.right.right.right.right.left
  · rw [List.mem_singleton] at hb
    subst hb
    have hnext := (hheaders.of_mem (b := tailer c h) (by simp)).left
    have hnext' : h.get (tailer c h).start Field.next = h.startAddr := hnext
    rw [hnext']
    cases l with
    | nil =>
      have htail : h.startAddr = tail c h := hs.tiles
      rw [htail]
      exact hheaders.right.right.left
    | cons d l =>
      have hstart : d.start = h.startAddr := hs.tiles.left
      rw [← hstart]
      exact hheaders.right.right.left

theorem Shape.next_of_prev (hs : Shape c h l) (hb : b ∈ l ++ [tailer c h]) :
    h.get (h.get b.start Field.prev) Field.next = b.start := by
  have hheaders := hs.headers
  have hlast := (hheaders.of_mem (b := tailer c h) (by simp)).left
  have hlast' : h.get (tail c h) Field.next = h.startAddr := hlast
  -- what lies in front of the item ends where it starts
  have hfront : exists l1 l2, l ++ [tailer c h] = l1 ++ b :: l2 ∧
      Tiles c.memheapSize h.startAddr l1 b.start ∧ forall x, x ∈ l1 -> x ∈ l := by
    rcases List.mem_append.mp hb with hb | hb
    · rcases List.append_of_mem hb with ⟨l1, l2, hl⟩
      subst hl
      exact ⟨l1, l2 ++ [tailer c h], by simp, (tiles_append.mp hs.tiles).left,
        fun x hx => by simp [hx]⟩
    · rw [List.mem_singleton] at hb
      subst hb
      exact ⟨l, [], rfl, hs.tiles, fun x hx => hx⟩
  rcases hfront with ⟨l1, l2, heq, htiles, hsub⟩
  rw [heq, headers_append] at hheaders
  have hprev : h.get b.start Field.prev = lastStart (tail c h) l1 :=
    hheaders.right.right.right.left
  rw [hprev]
  rcases List.eq_nil_or_concat l1 with hnil | ⟨t, x, hconcat⟩
  · subst hnil
    exact hlast'.trans htiles
  · rw [List.concat_eq_append] at hconcat
    subst hconcat
    rw [lastStart_concat, hs.next_eq (hsub x (by simp))]
    exact (tiles_append.mp htiles).right.right

/-- What the headers and the callers see of a heap of blocks `l`. -/
structure HeapHolds (c : Config) (s : State) (l : List Block) : Prop where
  tiles : Tiles c.memheapSize s.heap.startAddr l (tail c s.heap)
  ring : Headers (links s.heap) (tail c s.heap) (l ++ [tailer c s.heap])
  inverse : forall b, b ∈ l ++ [tailer c s.heap] ->
    s.heap.get (s.heap.get b.start Field.next) Field.prev = b.start ∧
      s.heap.get (s.heap.get b.start Field.prev) Field.next = b.start
  freeList : FreeSet s.heap (FreeStart l)
  noTwoFree : NoTwoFree l
  availableSize : s.heap.availableSize = total (freeBytes c) l
  maxUsedSize : s.heap.poolSize - s.heap.availableSize ≤ s.heap.maxUsedSize
  live : Live 0 c.memheapSize l s.live
  disjoint : forall p q, (s.live p).isSome = true -> (s.live q).isSome = true ->
    p ≠ q -> p + payloadSize c s.heap p ≤ q ∨ q + payloadSize c s.heap q ≤ p
  bytes : forall p o, s.live p = some o -> o.size ≤ payloadSize c s.heap p ∧
    forall i v, o.bytes i = some v -> i < payloadSize c s.heap p ∧
      s.heap.mem (p + i) = v

theorem Sound.holds (hs : Sound c s l) (hi : Intact c s l) : HeapHolds c s l := by
  have hshape := hs.consistent.shape
  have hhdr := c.le_memheapSize
  constructor
  · exact hshape.tiles
  · exact hshape.headers
  · intro b hb
    exact ⟨hshape.prev_of_next hb, hshape.next_of_prev hb⟩
  · exact hs.consistent.free
  · exact hs.consistent.plugged
  · exact hs.consistent.available
  · have hmax := hs.consistent.maxUsed
    omega
  · exact hs.live
  · intro p q hp hq hne
    rcases hs.block hp with ⟨b, hb, _, hpb⟩
    rcases hs.block hq with ⟨d, hd, _, hqd⟩
    have hbb := hshape.tiles.bounds hb
    have hdb := hshape.tiles.bounds hd
    rw [hpb, hqd, hshape.payloadSize_eq hb, hshape.payloadSize_eq hd]
    rcases hshape.tiles.eq_or_apart hb hd with heq | hapart | hapart
    · rw [hpb, hqd, heq] at hne
      exact absurd rfl hne
    · unfold payload
      omega
    · unfold payload
      omega
  · intro p o ho
    rcases hs.block (by rw [ho]; rfl) with ⟨b, hb, hused, hpb⟩
    have hbb := hshape.tiles.bounds hb
    rw [hpb] at ho
    rcases hi b hb hused o ho with ⟨hsize, hbytes⟩
    rw [hpb, hshape.payloadSize_eq hb]
    refine ⟨by omega, ?_⟩
    intro i v hv
    rcases hbytes i v hv with ⟨hlt, hbyte⟩
    refine ⟨by omega, ?_⟩
    rw [← hbyte]
    congr 1
    unfold payload
    omega

theorem sound_run (hp : Placed c self freeHeader startAddr size)
    (hrun : Run (Guarded (fun s op => ¬ Overflows c s.heap op) (Graph (step c)))
      (boot (rtMemheapInit c m self freeHeader startAddr size)) ops s) :
    exists l, Sound c s l ∧ Intact c s l := by
  apply hrun.invariant (fun s => exists l, Sound c s l ∧ Intact c s l) (boot_sound hp)
  rintro s op s' ⟨l, hs, hi⟩ ⟨hok, hstep⟩
  rcases hs.step hok hstep with ⟨l', hnext⟩
  exact ⟨l', hnext.sound, hnext.intact hi⟩

/-- In every run in which no reallocation of a live pointer lets a size wrap around, the
ring tiles the pool, the free list has the free blocks, the statistics are right and the
live payloads are apart and keep their bytes. -/
theorem memheap_representation (hp : Placed c self freeHeader startAddr size)
    (hrun : Run (Guarded (fun s op => ¬ Overflows c s.heap op) (Graph (step c)))
      (boot (rtMemheapInit c m self freeHeader startAddr size)) ops s) :
    exists l, HeapHolds c s l := by
  rcases sound_run hp hrun with ⟨l, hs, hi⟩
  exact ⟨l, hs.holds hi⟩

end Runs

def four : Config := ⟨4, four_power⟩

def smallPool : RtMemheap :=
  rtMemheapInit four (fun _ => 0) 1024 1064 4096 256

theorem smallPool_placed : Placed four 1024 1064 4096 256 :=
  ⟨by decide, by decide, by decide, by decide, by decide⟩

/-- Two allocations, a byte written, and reallocations that move a block, extend it
and cut it off. -/
theorem memheap_representation_resized :
    exists s l, Run (Guarded (fun s op => ¬ Overflows four s.heap op)
        (Graph (step four))) (boot smallPool)
        [Op.malloc 20, Op.write 4120 3 90, Op.malloc 12, Op.realloc (some 4120) 40,
          Op.realloc (some 4200) 60, Op.realloc (some 4200) 12] s ∧
      s.heap.availableSize = 112 ∧ HeapHolds four s l := by
  have hexec : (exec (fun s op => if ¬ Overflows four s.heap op then step four s op
      else none) (boot smallPool)
      [Op.malloc 20, Op.write 4120 3 90, Op.malloc 12, Op.realloc (some 4120) 40,
        Op.realloc (some 4200) 60, Op.realloc (some 4200) 12]).map
        (fun s => s.heap.availableSize) = some 112 := by
    decide +kernel
  rw [Option.map_eq_some_iff] at hexec
  rcases hexec with ⟨s, hexec, havail⟩
  have hrun := guarded_run_of_exec hexec
  rcases memheap_representation smallPool_placed hrun with ⟨l, hholds⟩
  exact ⟨s, l, hrun, havail, hholds⟩

/-- A reallocation to almost 4 GiB puts the new free item in front of the payload. -/
theorem memheap_ring_misses_wrapped_size :
    exists s, Run (Graph (step four)) (boot smallPool)
        [Op.malloc 100, Op.realloc (some 4120) 0xfffffff8] s ∧
      ¬ exists l, HeapHolds four s l := by
  have hexec : (exec (step four) (boot smallPool)
      [Op.malloc 100, Op.realloc (some 4120) 0xfffffff8]).map
        (fun s => ((s.live 4120).isSome, s.heap.get 4096 Field.next)) =
      some (true, 4112) := by
    decide +kernel
  rw [Option.map_eq_some_iff] at hexec
  rcases hexec with ⟨s, hexec, hend⟩
  rw [Prod.mk.injEq] at hend
  refine ⟨s, run_of_exec hexec, ?_⟩
  rintro ⟨l, hholds⟩
  rcases (hholds.live 4120).mp hend.left with ⟨b, hb, _, hpayload⟩
  have hsize : four.memheapSize = 24 := by decide
  have hstart : b.start = 4096 := by
    rw [hsize] at hpayload
    unfold payload at hpayload
    omega
  have hnext : s.heap.get b.start Field.next = b.stop :=
    (hholds.ring.of_mem (List.mem_append_left _ hb)).left
  rw [hstart, hend.right] at hnext
  have hbd := hholds.tiles.bounds hb
  rw [hsize] at hbd
  omega

end RtThread.Mem.MemHeap
