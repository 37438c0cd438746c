import RtThread.Mem.MemHeapEdits

/-!
# The calls of a memory heap

A heap is consistent when its headers describe a list of blocks in which no two
free blocks are neighbours, its free list has the free blocks, and its
statistics are those of the list.  Allocation and release preserve this.
-/

namespace RtThread.Mem

open Kernel ByteMemory Tiling LinkRing

namespace MemHeap

def freeBytes (c : Config) (b : Block) : Nat :=
  if b.used then 0 else b.stop - b.start - c.memheapSize

def FreeStart (l : List Block) (x : Nat) : Prop :=
  exists b, b ∈ l ∧ b.used = false ∧ b.start = x

/-- The heap is the list of blocks `l`. -/
structure Consistent (c : Config) (h : RtMemheap) (l : List Block) : Prop where
  shape : Shape c h l
  free : FreeSet h (FreeStart l)
  plugged : NoTwoFree l
  available : h.availableSize = total (freeBytes c) l
  maxUsed : h.poolSize ≤ h.availableSize + h.maxUsedSize

structure Evolves (c : Config) (h : RtMemheap) (l : List Block) (h' : RtMemheap)
    (l' : List Block) : Prop where
  edit : Edit c h l h' l'
  consistent : Consistent c h' l'

/-!
## Statistics
-/

structure SameStats (h h' : RtMemheap) : Prop where
  available : h'.availableSize = h.availableSize
  maxUsed : h'.maxUsedSize = h.maxUsedSize

section Stats

variable {h h' h2 : RtMemheap} {a v x : Nat} {f : Field}

theorem SameStats.trans (hs : SameStats h h') (hs' : SameStats h' h2) : SameStats h h2 :=
  ⟨hs'.available.trans hs.available, hs'.maxUsed.trans hs.maxUsed⟩

theorem put_stats : SameStats h (h.put a f v) :=
  ⟨rfl, rfl⟩

theorem SameStats.put (hs : SameStats h h') : SameStats h (h'.put a f v) :=
  hs.trans put_stats

theorem freeInsert_stats : SameStats h (freeInsert h x) := by
  unfold freeInsert
  exact put_stats.put.put.put

theorem freeRemove_stats : SameStats h (freeRemove h x) := by
  unfold freeRemove
  exact put_stats.put

theorem freeTake_stats : SameStats h (freeTake h x) := by
  unfold freeTake
  exact freeRemove_stats.put.put

theorem splitBlock_stats {header new : Nat} : SameStats h (splitBlock h header new) := by
  unfold splitBlock
  exact put_stats.put.put.put.put.put

theorem joinBlocks_stats {header e : Nat} : SameStats h (joinBlocks h header e) :=
  put_stats.put

theorem noteUsed_stats (h : RtMemheap) (available : Nat) (hle : available ≤ h.poolSize)
    (hlt : h.poolSize < 2 ^ 32) :
    { h with availableSize := available }.noteUsed.availableSize = available ∧
      h.poolSize ≤ available + { h with availableSize := available }.noteUsed.maxUsedSize := by
  refine ⟨rfl, ?_⟩
  unfold RtMemheap.noteUsed
  simp only [sub32_of_le hle hlt]
  split
  · omega
  · omega

end Stats

section Sizes

variable {c : Config} {h : RtMemheap} {l l' : List Block} {b d : Block} {x : Nat}

@[simp]
theorem freeStart_append : FreeStart (l ++ l') x <-> FreeStart l x ∨ FreeStart l' x := by
  simp only [FreeStart, List.mem_append, or_and_right, exists_or]

@[simp]
theorem freeStart_cons :
    FreeStart (b :: l) x <-> (b.used = false ∧ b.start = x) ∨ FreeStart l x := by
  simp only [FreeStart, List.mem_cons, or_and_right, exists_or, exists_eq_left]

@[simp]
theorem freeStart_nil : ¬ FreeStart [] x := by
  simp [FreeStart]

@[simp]
theorem freeBytes_used (hb : b.used = true) : freeBytes c b = 0 := by
  simp [freeBytes, hb]

@[simp]
theorem freeBytes_free (hb : b.used = false) :
    freeBytes c b = b.stop - b.start - c.memheapSize := by
  simp [freeBytes, hb]

theorem freeBytes_le : freeBytes c b ≤ b.stop - b.start := by
  unfold freeBytes
  split
  · exact Nat.zero_le _
  · exact Nat.sub_le _ _

theorem Shape.pool_lt (hs : Shape c h l) : h.poolSize < 2 ^ 32 := by
  have hsmall := hs.small
  have hlist := hs.list32
  rcases hs.away with hle | hle
  · omega
  · omega

theorem Shape.free_le (hs : Shape c h l) :
    total (freeBytes c) l + c.memheapSize ≤ h.poolSize := by
  have hle := hs.tiles.total_le (w := freeBytes c) fun b => freeBytes_le
  have hadd := hs.tail_add
  omega

theorem Shape.memitemSize_eq (hs : Shape c h l) (hb : b ∈ l) :
    memitemSize c h b.start = b.stop - b.start - c.memheapSize := by
  have hbd := hs.tiles.bounds hb
  have hlt : b.stop < 2 ^ 32 := by
    have hhdr := c.le_memheapSize
    have hadd := hs.tail_add
    have hsmall := hs.small
    omega
  unfold memitemSize
  rw [hs.next_eq hb, sub32_of_le (by omega) hlt, sub32_of_le (by omega) (by omega)]

theorem Shape.not_freeStart (hs : Shape c h (l ++ b :: l')) :
    ¬ FreeStart l b.start ∧ ¬ FreeStart l' b.start := by
  have hhdr := c.le_memheapSize
  have haround := hs.tiles.around
  have hbd := hs.tiles.bounds (b := b) (by simp)
  constructor
  · rintro ⟨x, hx, _, hstart⟩
    have hxb := hs.tiles.bounds (b := x) (by simp [hx])
    have hle := haround.left x hx
    omega
  · rintro ⟨x, hx, _, hstart⟩
    have hle := haround.right x hx
    omega

theorem Shape.freeStart_without (hs : Shape c h (l ++ b :: l')) :
    FreeStart (l ++ b :: l') x ∧ x ≠ b.start <-> FreeStart l x ∨ FreeStart l' x := by
  have hout := hs.not_freeStart
  simp only [freeStart_append, freeStart_cons]
  constructor
  · rintro ⟨hx | ⟨_, heq⟩ | hx, hne⟩
    · exact Or.inl hx
    · exact absurd heq.symm hne
    · exact Or.inr hx
  · intro hx
    constructor
    · exact hx.imp_right Or.inr
    · rintro rfl
      rcases hx with hx | hx
      · exact hout.left hx
      · exact hout.right hx

theorem Shape.cut_not_freeStart {cut : Nat} (hs : Shape c h l) (hb : b ∈ l)
    (hlow : b.start + c.memheapSize ≤ cut) (hhigh : cut + c.memheapSize ≤ b.stop) :
    ¬ FreeStart l cut := by
  rintro ⟨x, hx, _, hstart⟩
  exact apart_ne (hs.cut_apart hb hlow hhigh (Entry.of_mem hx)) hstart.symm

theorem FreeStart.within (hx : FreeStart l x) : exists b, b ∈ l ∧ b.start = x := by
  rcases hx with ⟨b, hb, _, hstart⟩
  exact ⟨b, hb, hstart⟩

theorem Consistent.reached (hc : Consistent c h l) : Reached c h l h l (FreeStart l) :=
  Reached.refl hc.shape hc.free fun _ hx => hx.within

theorem Consistent.behind_used (hc : Consistent c h (l ++ b :: l'))
    (hb : b.used = false) : forall x, x ∈ l'.head? -> x.used = true := by
  intro x hx
  have hplug := (noTwoFree_append.mp hc.plugged).right.right.left x hx
  simpa [hb] using hplug

theorem Reached.evolves {h0 g : RtMemheap} {l0 : List Block} {P : Nat -> Prop}
    (hr : Reached c h0 l0 h l P) (hiff : forall x, P x <-> FreeStart l x)
    (hplug : NoTwoFree l) (hstats : SameStats g h)
    (havail : g.availableSize = total (freeBytes c) l)
    (hmax : h0.poolSize ≤ g.availableSize + g.maxUsedSize) :
    Evolves c h0 l0 h l := by
  refine ⟨hr.edit, hr.shape, hr.free.congr hiff, hplug, ?_, ?_⟩
  · rw [hstats.available]
    exact havail
  · rw [hstats.available, hstats.maxUsed, hr.edit.core.poolSize]
    exact hmax

end Sizes

/-!
## Allocation
-/

section Allocation

variable {c : Config} {h h' : RtMemheap} {l l' : List Block} {b d : Block}

theorem searchFree_spec {size fuel freeSize : Nat} {xs ys : List Nat}
    (hs : Shape c h l) (hr : FreeRing h (xs ++ ys))
    (hw : Within l (xs ++ ys)) (hfuel : ys.length + 2 ≤ fuel)
    (hfree : freeSize < size) :
    exists header found, searchFree c h size fuel
        ((ys ++ [h.freeList]).head (by simp)) freeSize = some (header, found) ∧
      ((found < size ∧ forall b, b ∈ l -> b.start ∈ ys ->
        b.stop - b.start - c.memheapSize < size) ∨
        exists b, b ∈ l ∧ b.start ∈ ys ∧ b.start = header ∧
          found = b.stop - b.start - c.memheapSize ∧ size ≤ found) := by
  induction ys generalizing xs fuel freeSize with
  | nil =>
    cases fuel with
    | zero => omega
    | succ fuel =>
      refine ⟨h.freeList, freeSize, ?_, Or.inl ⟨hfree, by simp⟩⟩
      show (if h.freeList ≠ h.freeList ∧ freeSize < size then _ else _) = _
      rw [if_neg (fun hcond => hcond.left rfl)]
      rfl
  | cons y ys ih =>
    rcases hw y (by simp) with ⟨b, hb, hstart⟩
    subst hstart
    have hne : b.start ≠ h.freeList := by
      have hnd := (List.nodup_cons.mp hr.nodup).left
      intro heq
      rw [← heq] at hnd
      exact hnd (by simp)
    rw [List.length_cons] at hfuel
    obtain ⟨fuel, rfl⟩ : exists n, fuel = n + 1 := ⟨fuel - 1, by omega⟩
    have hturn : searchFree c h size (fuel + 1) b.start freeSize =
        if b.stop - b.start - c.memheapSize < size then
          searchFree c h size fuel (h.get b.start Field.nextFree) (b.stop - b.start - c.memheapSize)
        else searchFree c h size fuel b.start (b.stop - b.start - c.memheapSize) := by
      rw [searchFree, if_pos ⟨hne, hfree⟩, hs.memitemSize_eq hb]
    by_cases hsmall : b.stop - b.start - c.memheapSize < size
    · -- too small: the rest of the list decides
      have hnext : h.get b.start Field.nextFree =
          (ys ++ [h.freeList]).head (by simp) := hr.neighbours.left
      have hr' : FreeRing h ((xs ++ [b.start]) ++ ys) := by simpa using hr
      have hw' : Within l ((xs ++ [b.start]) ++ ys) := by simpa using hw
      have hroom : ys.length + 2 ≤ fuel := by omega
      rcases ih hr' hw' hroom hsmall with
        ⟨header, found, hsearch, hfound⟩
      refine ⟨header, found, ?_, ?_⟩
      · show searchFree c h size (fuel + 1) b.start freeSize = _
        rw [hturn, if_pos hsmall, hnext]
        exact hsearch
      · rcases hfound with ⟨hlt, hall⟩ | ⟨d, hd, hmem, hrest⟩
        · refine Or.inl ⟨hlt, ?_⟩
          intro d hd hmem
          rcases List.mem_cons.mp hmem with heq | hmem
          · rw [hs.tiles.eq_of_start (by have := c.le_memheapSize; omega) hd hb heq]
            exact hsmall
          · exact hall d hd hmem
        · exact Or.inr ⟨d, hd, List.mem_cons_of_mem _ hmem, hrest⟩
    · obtain ⟨fuel, rfl⟩ : exists n, fuel = n + 1 := ⟨fuel - 1, by omega⟩
      refine ⟨b.start, b.stop - b.start - c.memheapSize, ?_,
        Or.inr ⟨b, hb, by simp, rfl, rfl, by omega⟩⟩
      show searchFree c h size (fuel + 1 + 1) b.start freeSize = _
      rw [hturn, if_neg hsmall, searchFree, if_neg (fun hcond => hsmall hcond.right)]

theorem Reached.use {h0 : RtMemheap} {l0 : List Block} {P : Nat -> Prop}
    (hr : Reached c h0 l0 h (l ++ b :: l') P) (hb : b.used = false) :
    Reached c h0 l0 (h.put b.start Field.magic (h.get b.start Field.magic ||| memheapUsed))
      (l ++ { b with used := true } :: l') P := by
  have hmagic := hr.shape.header.right.left
  rw [hb] at hmagic
  rw [hmagic]
  exact hr.mark true

theorem Reached.noteUsed {h0 : RtMemheap} {l0 : List Block} {P : Nat -> Prop}
    (hr : Reached c h0 l0 h l P) (available : Nat) :
    Reached c h0 l0 { h with availableSize := available }.noteUsed l P :=
  hr.counted available _

theorem Consistent.take_part {size : Nat} (hc : Consistent c h (l ++ b :: l')) (hb : b.used = false)
    (hroom : size + c.memheapSize + memheapMinialloc ≤ b.stop - b.start - c.memheapSize) :
    Evolves c h (l ++ b :: l') (takeBlock c h size b.start (b.stop - b.start - c.memheapSize))
      (l ++ ⟨b.start, b.start + size + c.memheapSize, true⟩ ::
        ⟨b.start + size + c.memheapSize, b.stop, false⟩ :: l') := by
  have hmini : memheapMinialloc = 12 := rfl
  have hs := hc.shape
  have hbd := hs.tiles.bounds (b := b) (by simp)
  have hplug := noTwoFree_append.mp hc.plugged
  have hle := hs.free_le
  have hlt := hs.pool_lt
  have havail := hc.available
  rw [total_append, total_cons, freeBytes_free hb] at hle havail
  generalize hcut : b.start + size + c.memheapSize = cut
  have hlow : b.start + c.memheapSize ≤ cut := by omega
  have hhigh : cut + c.memheapSize ≤ b.stop := by omega
  have hcutfree := hs.cut_not_freeStart (by simp) hlow hhigh
  have hpart := (hc.reached.split hlow hhigh).take (x := b.start) (by simp [hb])
  have hlists := hpart.insert (b := ⟨cut, b.stop, false⟩) (by simp)
    (fun hin => hcutfree hin.left)
  have hstats : SameStats h (freeInsert (freeTake (splitBlock h b.start cut) b.start) cut) :=
    (splitBlock_stats.trans freeTake_stats).trans freeInsert_stats
  have hsub : sub32 (sub32 h.availableSize size) c.memheapSize =
      h.availableSize - size - c.memheapSize := by
    have hsize : sub32 h.availableSize size = h.availableSize - size :=
      sub32_of_le (by omega) (by omega)
    rw [hsize, sub32_of_le (by omega) (by omega)]
  simp only [takeBlock, if_pos hroom, hcut]
  generalize freeInsert (freeTake (splitBlock h b.start cut) b.start) cut = g at *
  rw [hstats.available, hsub]
  have hpool : g.poolSize = h.poolSize := hlists.edit.core.poolSize
  have hnote := noteUsed_stats g (h.availableSize - size - c.memheapSize) (by omega) (by omega)
  refine ((hlists.noteUsed _).use hb).evolves ?_ ?_ put_stats ?_ ?_
  · intro x
    rw [hs.freeStart_without]
    simp only [freeStart_append, freeStart_cons, reduceCtorEq, false_and, true_and,
      false_or, eq_comm (a := x)]
    exact or_left_comm
  · exact noTwoFree_append.mpr ⟨hplug.left, fun _ _ => Or.inr rfl,
      fun _ _ => Or.inl rfl, List.isChain_cons.mpr
        ⟨fun x hx => Or.inr (hc.behind_used hb x hx), hplug.right.right.right⟩⟩
  · rw [hnote.left, total_append, total_cons, total_cons, freeBytes_used rfl, freeBytes_free rfl]
    show _ = total (freeBytes c) l + (0 + (b.stop - cut - c.memheapSize + total (freeBytes c) l'))
    omega
  · rw [hnote.left, ← hpool]
    exact hnote.right

theorem Consistent.take_whole {size : Nat} (hc : Consistent c h (l ++ b :: l'))
    (hb : b.used = false)
    (hroom : ¬ size + c.memheapSize + memheapMinialloc ≤ b.stop - b.start - c.memheapSize) :
    Evolves c h (l ++ b :: l') (takeBlock c h size b.start (b.stop - b.start - c.memheapSize))
      (l ++ { b with used := true } :: l') := by
  have hs := hc.shape
  have hplug := noTwoFree_append.mp hc.plugged
  have hle := hs.free_le
  have hlt := hs.pool_lt
  have havail := hc.available
  rw [total_append, total_cons, freeBytes_free hb] at hle havail
  have hsub : sub32 h.availableSize (b.stop - b.start - c.memheapSize) =
      h.availableSize - (b.stop - b.start - c.memheapSize) :=
    sub32_of_le (by omega) (by omega)
  simp only [takeBlock, if_neg hroom, hsub]
  have hcount := hc.reached.noteUsed (h.availableSize - (b.stop - b.start - c.memheapSize))
  have hnote := noteUsed_stats h
    (h.availableSize - (b.stop - b.start - c.memheapSize)) (by omega) hlt
  generalize ({ h with availableSize := h.availableSize -
    (b.stop - b.start - c.memheapSize) } : RtMemheap).noteUsed = g at *
  have htake := hcount.take (x := b.start) (by simp [hb])
  refine (htake.use hb).evolves ?_ ?_ freeTake_stats.put ?_ ?_
  · intro x
    rw [hs.freeStart_without]
    simp only [freeStart_append, freeStart_cons, reduceCtorEq, false_and, false_or]
  · exact noTwoFree_append.mpr ⟨hplug.left, fun _ _ => Or.inr rfl,
      fun _ _ => Or.inl rfl, hplug.right.right.right⟩
  · rw [hnote.left, total_append, total_cons, freeBytes_used rfl]
    omega
  · rw [hnote.left]
    exact hnote.right

def Roomy (c : Config) (size : Nat) (b : Block) : Prop :=
  b.used = false ∧ b.start + c.memheapSize + size ≤ b.stop

/-- `rt_memheap_alloc` finds a block. -/
def Serves (c : Config) (h : RtMemheap) (l : List Block) (size : Nat) : Prop :=
  c.allocSize size < h.availableSize ∧ exists b, b ∈ l ∧ Roomy c (c.allocSize size) b

/-- What an allocation of `size` bytes did. -/
structure Allocated (c : Config) (h : RtMemheap) (l : List Block) (size : Nat)
    (h' : RtMemheap) (l' : List Block) (d : Block) : Prop where
  evolves : Evolves c h l h' l'
  more : OneMore l l' d
  place : exists b, b ∈ l ∧ b.used = false ∧ b.start = d.start ∧ d.stop ≤ b.stop
  room : d.start + c.memheapSize + size ≤ d.stop

theorem Consistent.take {size : Nat} (hc : Consistent c h l) (hb : b ∈ l)
    (hfree : b.used = false) (hroom : size ≤ b.stop - b.start - c.memheapSize) :
    exists l' d, d.start = b.start ∧ Allocated c h l size
      (takeBlock c h size b.start (b.stop - b.start - c.memheapSize)) l' d := by
  have hhdr := c.le_memheapSize
  have hbd := hc.shape.tiles.bounds hb
  have hmark : ({ b with used := false } : Block) = b := by rw [← hfree]
  rcases List.append_of_mem hb with ⟨l1, l2, hl⟩
  subst hl
  by_cases hlarge : size + c.memheapSize + memheapMinialloc ≤ b.stop - b.start - c.memheapSize
  · have hmore := hc.shape.tiles.oneMore_replace
      (d := ⟨b.start, b.start + size + c.memheapSize, true⟩)
      (r := [⟨b.start + size + c.memheapSize, b.stop, false⟩]) (by omega) rfl rfl
      (by simp)
    rw [hmark] at hmore
    exact ⟨_, ⟨b.start, b.start + size + c.memheapSize, true⟩, rfl,
      hc.take_part hfree hlarge, hmore,
      ⟨b, hb, hfree, rfl, by show b.start + size + c.memheapSize ≤ b.stop; omega⟩,
      by show b.start + c.memheapSize + size ≤ b.start + size + c.memheapSize; omega⟩
  · have hmore := hc.shape.tiles.oneMore_replace (d := { b with used := true })
      (r := []) (by omega) rfl rfl (by simp)
    rw [hmark] at hmore
    exact ⟨_, { b with used := true }, rfl, hc.take_whole hfree hlarge, hmore,
      ⟨b, hb, hfree, rfl, Nat.le_refl _⟩,
      by show b.start + c.memheapSize + size ≤ b.stop; omega⟩

theorem FreeRing.length_le {fl : List Nat} (hr : FreeRing h fl)
    (hw : forall x, x ∈ fl -> exists b, b ∈ l ∧ b.start = x) : fl.length ≤ l.length := by
  have hnodup : fl.Nodup := (List.nodup_cons.mp hr.nodup).right
  have hsub : forall x, x ∈ fl -> x ∈ l.map Block.start := by
    intro x hx
    rcases hw x hx with ⟨b, hb, hstart⟩
    exact List.mem_map.mpr ⟨b, hb, hstart⟩
  have hle := (List.subperm_of_subset hnodup hsub).length_le
  rwa [List.length_map] at hle

theorem rtMemheapAlloc_cases (size : Nat) (hc : Consistent c h l) :
    (rtMemheapAlloc c h size = some (h, none) ∧ (h.availableSize ≤ c.allocSize size ∨
        forall b, b ∈ l -> b.used = false ->
          b.stop - b.start - c.memheapSize < c.allocSize size)) ∨
      c.allocSize size < h.availableSize ∧ exists h' l' d, rtMemheapAlloc c h size =
            some (h', some (payload 0 c.memheapSize d)) ∧
          Allocated c h l (c.allocSize size) h' l' d := by
  have hhdr := c.le_memheapSize
  have hpos := (c.le_allocSize size).left
  unfold rtMemheapAlloc
  simp only
  by_cases havail : c.allocSize size < h.availableSize
  · rw [if_pos havail]
    rcases hc.free with ⟨fl, hr, hfl⟩
    have hw : forall x, x ∈ fl -> exists b, b ∈ l ∧ b.start = x :=
      fun x hx => ((hfl x).mp hx).within
    have hlen := hr.length_le hw
    have hgap := hc.shape.tiles.length_le (by omega)
    have htail := hc.shape.tail_add
    have hfuel : fl.length + 2 ≤ h.turns := by
      unfold RtMemheap.turns
      omega
    have hzero : 0 < c.allocSize size := by omega
    have hr' : FreeRing h ([] ++ fl) := hr
    rcases searchFree_spec hc.shape hr' hw hfuel hzero with
      ⟨header, found, hsearch, hfound⟩
    have hhead : h.get h.freeList Field.nextFree =
        (fl ++ [h.freeList]).head (by simp) := hr.next_head
    rw [hhead, hsearch]
    simp only
    rcases hfound with ⟨hlt, hall⟩ | ⟨b, hb, hmem, hstart, hfound, hle⟩
    · refine Or.inl ⟨if_neg (by omega), Or.inr ?_⟩
      intro b hb hfree
      exact hall b hb ((hfl b.start).mpr ⟨b, hb, hfree, rfl⟩)
    · subst hstart hfound
      rcases (hfl _).mp hmem with ⟨b', hb', hfree, hstart⟩
      have heq : b' = b := hc.shape.tiles.eq_of_start (by omega) hb' hb hstart
      subst heq
      rcases hc.take hb hfree hle with ⟨l', d, hstart', hal⟩
      refine Or.inr ⟨havail, _, l', d, ?_, hal⟩
      rw [if_pos hle, ← hstart']
      simp [payload]
  · exact Or.inl ⟨if_neg havail, Or.inl (by omega)⟩

theorem rtMemheapAlloc_spec (size : Nat) (hc : Consistent c h l) :
    rtMemheapAlloc c h size = some (h, none) ∨ exists h' l' d, rtMemheapAlloc c h size =
          some (h', some (payload 0 c.memheapSize d)) ∧
        Allocated c h l (c.allocSize size) h' l' d := by
  rcases rtMemheapAlloc_cases size hc with ⟨hnull, _⟩ | ⟨_, hsome⟩
  · exact Or.inl hnull
  · exact Or.inr hsome

theorem Consistent.alloc_cases (hc : Consistent c h l) (size : Nat) :
    (rtMemheapAlloc c h size = some (h, none) ∧ ¬ Serves c h l size) ∨
      Serves c h l size ∧ exists h' l' d,
        rtMemheapAlloc c h size = some (h', some (payload 0 c.memheapSize d)) ∧
          Allocated c h l (c.allocSize size) h' l' d := by
  have hmini : 12 ≤ c.allocSize size := (c.le_allocSize size).left
  rcases rtMemheapAlloc_cases size hc with ⟨hnull, hwhy⟩ | ⟨hlt, h', l', d, hsome, ha⟩
  · refine Or.inl ⟨hnull, ?_⟩
    rintro ⟨hlt, b, hb, hfree, hroom⟩
    rcases hwhy with hle | hall
    · omega
    · have hsmall := hall b hb hfree
      omega
  · refine Or.inr ⟨⟨hlt, ?_⟩, h', l', d, hsome, ha⟩
    rcases ha.place with ⟨b, hb, hfree, hstart, hle⟩
    have hroom := ha.room
    exact ⟨b, hb, hfree, by omega⟩

end Allocation

/-!
## Release
-/

section Release

variable {c : Config} {h : RtMemheap} {l l' s t : List Block} {b d : Block}
  {p q : Option Block}

theorem Shape.next_used (hs : Shape c h (l ++ b :: l'))
    (hend : forall x, x ∈ l'.head? -> x.used = true) :
    isUsed h (h.get b.start Field.next) = true := by
  rw [hs.header.left]
  rcases hs.tiles.next with ⟨hnil, hstop⟩ | ⟨d, t, hcons, hstart⟩
  · rw [hstop]
    exact hs.isUsed_eq (b := tailer c h) (by simp)
  · rw [← hstart, hs.isUsed_eq (b := d) (by simp [hcons])]
    exact hend d (by simp [hcons])

/-- In front of a block there is one in use, or it is the first one, whose previous
item is the tailer. -/
theorem Shape.prev_used (hs : Shape c h (l ++ b :: l'))
    (hend : forall x, x ∈ l.getLast? -> x.used = true) :
    isUsed h (h.get b.start Field.prev) = true := by
  rw [hs.header.right.right.left]
  rcases List.eq_nil_or_concat l with hnil | ⟨t, d, hconcat⟩
  · rw [hnil]
    exact hs.isUsed_eq (b := tailer c h) (by simp)
  · rw [List.concat_eq_append] at hconcat
    rw [hconcat, lastStart_concat, hs.isUsed_eq (b := d) (by simp [hconcat])]
    exact hend d (by simp [hconcat])

theorem mergeLeft_used {header : Nat} (hused : isUsed h (h.get header Field.prev) = true) :
    mergeLeft c h header = (h, header, true) := by
  unfold mergeLeft
  rw [if_neg (not_not.mpr hused)]

theorem mergeRight_used {header : Nat}
    (hused : isUsed h (h.get header Field.next) = true) : mergeRight c h header = h := by
  unfold mergeRight
  rw [if_neg (not_not.mpr hused)]

theorem mergeLeft_free (hs : Shape c h (l ++ d :: b :: l')) (hd : d.used = false) :
    mergeLeft c h b.start = ({ joinBlocks h d.start b.stop with
          availableSize := add32 h.availableSize c.memheapSize }, d.start, false) := by
  rcases hs.behind with ⟨hdb, _, hbroom, _⟩
  have hhdr := c.le_memheapSize
  have hs' : Shape c h ((l ++ [d]) ++ b :: l') := by simpa using hs
  rcases hs'.header with ⟨hnext, _, hprev, _⟩
  rw [lastStart_concat] at hprev
  have hfree : isUsed h (h.get b.start Field.prev) = false := by
    rw [hprev, hs.isUsed_eq (b := d) (by simp), hd]
  have hdbApart : memheapItem.Apart d.start b.start := Shape.apart_of_le (c := c) hdb
  have hbeApart : memheapItem.Apart b.start b.stop :=
    Or.inl (by show b.start + 24 ≤ b.stop; omega)
  have hdeApart : memheapItem.Apart d.start b.stop :=
    Or.inl (by show d.start + 24 ≤ b.stop; omega)
  unfold mergeLeft
  rw [if_pos (by rw [hfree]; decide)]
  generalize hg : ({ h with availableSize := add32 h.availableSize c.memheapSize } : RtMemheap) = g
  have hgnext : g.get b.start Field.next = b.stop := by
    rw [← hg]
    exact hnext
  have hgprev : g.get b.start Field.prev = d.start := by
    rw [← hg]
    exact hprev
  have hjprev : (joinBlocks g d.start b.stop).get b.start Field.prev = d.start := by
    unfold joinBlocks
    rw [get_put_apart hdbApart, get_put_apart hbeApart.symm, hgprev]
  simp only [hgnext, hgprev, get_put_apart hdbApart, joinBlocks_comm hdeApart, hjprev]
  rw [← hg]
  rfl

theorem absorb_eq_joinBlocks (hs : Shape c h (l ++ b :: d :: l')) :
    (h.put (h.get d.start Field.next) Field.prev b.start).put b.start Field.next
      ((h.put (h.get d.start Field.next) Field.prev b.start).get d.start Field.next) =
      joinBlocks h b.start d.stop := by
  rcases hs.behind with ⟨_, _, hdroom, _⟩
  have hhdr := c.le_memheapSize
  have hs' : Shape c h ((l ++ [b]) ++ d :: l') := by simpa using hs
  have hnext : h.get d.start Field.next = d.stop := hs'.header.left
  have hapart : memheapItem.Apart d.stop d.start :=
    Or.inr (by show d.start + 24 ≤ d.stop; omega)
  rw [hnext, get_put_apart hapart, hnext]
  rfl

theorem mergeRight_free (hs : Shape c h (l ++ b :: d :: l')) (hd : d.used = false) :
    mergeRight c h b.start = { freeRemove (joinBlocks h b.start d.stop) d.start with
      availableSize := add32 h.availableSize c.memheapSize } := by
  rcases hs.behind with ⟨_, hbd, _⟩
  have hcount := ((Edit.refl hs).counted (add32 h.availableSize c.memheapSize) h.maxUsedSize).shape
  have hnext : h.get b.start Field.next = d.start := hs.header.left.trans hbd
  have hfree : isUsed h (h.get b.start Field.next) = false := by
    rw [hnext, hs.isUsed_eq (b := d) (by simp), hd]
  unfold mergeRight
  rw [if_pos (by rw [hfree]; decide)]
  have hgnext : ({ h with availableSize := add32 h.availableSize c.memheapSize } :
      RtMemheap).get b.start Field.next = d.start := hnext
  simp only [hgnext, absorb_eq_joinBlocks hcount]
  rfl

theorem total_joined {a e : Nat} (hj : Join l l' p q s t)
    (ht : Tiles c.memheapSize a (l ++ b :: l') e) :
    total (freeBytes c) (s ++ joined p b q :: t) = total (freeBytes c) l + total (freeBytes c) l' +
        (b.stop - b.start - c.memheapSize) +
        (if p.isSome then c.memheapSize else 0) +
        (if q.isSome then c.memheapSize else 0) := by
  have hleft := hj.left
  have hright := hj.right
  have hsplit := tiles_append.mp ht
  have hp : total (freeBytes c) l + (if p.isSome then c.memheapSize else 0) =
      total (freeBytes c) s + (b.start - (p.getD b).start) ∧
      (p.getD b).start ≤ b.start := by
    cases p with
    | none => simp [hleft]
    | some x =>
      have hx : x.stop = b.start ∧ x.start + c.memheapSize ≤ x.stop := by
        rw [hleft] at hsplit
        have hsplit' := tiles_append.mp hsplit.left
        exact ⟨hsplit'.right.right, hsplit'.right.left⟩
      have hw := freeBytes_free (c := c) (hj.leftFree x rfl)
      rw [hleft]
      simp only [Option.toList_some, total_append, total_cons, total_nil,
        Option.getD_some, Option.isSome_some, if_true, hw]
      omega
  have hq : total (freeBytes c) l' + (if q.isSome then c.memheapSize else 0) =
      total (freeBytes c) t + ((q.getD b).stop - b.stop) ∧
      b.stop ≤ (q.getD b).stop := by
    cases q with
    | none => simp [hright]
    | some x =>
      have hx : x.start = b.stop ∧ b.stop + c.memheapSize ≤ x.stop := by
        rw [hright] at hsplit
        exact ⟨hsplit.right.right.left, hsplit.right.right.right.left⟩
      have hw := freeBytes_free (c := c) (hj.rightFree x rfl)
      rw [hright]
      simp only [Option.toList_some, List.cons_append, List.nil_append, total_cons,
        Option.getD_some, Option.isSome_some, if_true, hw]
      omega
  have hroom := hsplit.right.left
  have hjoined : freeBytes c (joined p b q) =
      (q.getD b).stop - (p.getD b).start - c.memheapSize := rfl
  rw [total_append, total_cons, hjoined]
  omega

variable {h0 : RtMemheap} {l0 : List Block} {P : Nat -> Prop}

theorem Reached.congr {Q : Nat -> Prop}
    (hr : Reached c h0 l0 h l P) (hiff : forall x, P x <-> Q x) :
    Reached c h0 l0 h l Q :=
  ⟨hr.edit, hr.free.congr hiff, fun x hx => hr.within x ((hiff x).mpr hx)⟩

theorem Reached.mergeLeft (hr : Reached c h0 l0 h (l ++ b :: l') P) (hb : b.used = false)
    (hstart : exists x, x ∈ l0 ∧ x.start = b.start) (hout : ¬ P b.start)
    (hj : Join l l' p q s t) (hroom : h.availableSize + c.memheapSize < 2 ^ 32) :
    exists g, MemHeap.mergeLeft c h b.start = (g, (p.getD b).start, p.isNone) ∧
      Reached c h0 l0 g (s ++ ⟨(p.getD b).start, b.stop, false⟩ :: l') P ∧
      g.availableSize = h.availableSize + (if p.isSome then c.memheapSize else 0) ∧
      g.maxUsedSize = h.maxUsedSize := by
  have hleft := hj.left
  cases p with
  | none =>
    rw [Option.toList_none, List.append_nil] at hleft
    subst hleft
    refine ⟨h, mergeLeft_used (hr.shape.prev_used (hj.leftEnd rfl)), ?_, rfl, rfl⟩
    rw [← hb]
    exact hr
  | some d =>
    have hd := hj.leftFree d rfl
    rw [Option.toList_some] at hleft
    subst hleft
    rw [List.append_assoc, List.singleton_append] at hr
    have hjoin := (hr.join hstart hout).counted (add32 h.availableSize c.memheapSize) h.maxUsedSize
    refine ⟨_, mergeLeft_free hr.shape hd, ?_, add32_of_lt hroom, rfl⟩
    rw [Option.getD_some, ← hd]
    exact hjoin

theorem Reached.mergeRight (hr : Reached c h0 l0 h (l ++ b :: l') P) (hright : l' = q.toList ++ t)
    (hfree : forall x, x ∈ q -> x.used = false)
    (hend : q = none -> forall x, x ∈ t.head? -> x.used = true)
    (hin : forall x, x ∈ q -> x ∈ l0 ∧ P x.start)
    (hroom : h.availableSize + c.memheapSize < 2 ^ 32) :
    exists g, MemHeap.mergeRight c h b.start = g ∧
      Reached c h0 l0 g (l ++ { b with stop := (q.getD b).stop } :: t)
        (fun y => P y ∧ forall x, x ∈ q -> y ≠ x.start) ∧
      g.availableSize = h.availableSize + (if q.isSome then c.memheapSize else 0) ∧
      g.maxUsedSize = h.maxUsedSize := by
  cases q with
  | none =>
    rw [Option.toList_none, List.nil_append] at hright
    subst hright
    refine ⟨h, mergeRight_used (hr.shape.next_used (hend rfl)), ?_, rfl, rfl⟩
    exact hr.congr fun x => by simp
  | some d =>
    rw [Option.toList_some, List.singleton_append] at hright
    subst hright
    rcases hin d rfl with ⟨hd, hdP⟩
    have hstats : SameStats h (freeRemove (joinBlocks h b.start d.stop) d.start) :=
      joinBlocks_stats.trans freeRemove_stats
    have hmerge := mergeRight_free hr.shape (hfree d rfl)
    have hjoin := hr.absorb ⟨d, hd, rfl⟩ hdP
    generalize freeRemove (joinBlocks h b.start d.stop) d.start = g at *
    refine ⟨_, hmerge, ?_, add32_of_lt hroom, hstats.maxUsed⟩
    have hcount := hjoin.counted (add32 h.availableSize c.memheapSize) g.maxUsedSize
    exact hcount.congr fun x => by simp

theorem freeStart_joined (hs : Shape c h (l ++ b :: l')) (hj : Join l l' p q s t) (x : Nat) :
    FreeStart (s ++ joined p b q :: t) x <-> x = (p.getD b).start ∨
        (FreeStart l x ∨ FreeStart l' x) ∧ forall y, y ∈ q -> x ≠ y.start := by
  have hleft : FreeStart l x ∨ x = (p.getD b).start <-> FreeStart s x ∨
    x = (p.getD b).start := by
    rw [hj.left]
    cases p with
    | none => simp
    | some d =>
      simp only [Option.toList_some, freeStart_append, freeStart_cons, freeStart_nil,
        hj.leftFree d rfl, true_and, or_false, Option.getD_some, eq_comm (a := d.start)]
      tauto
  have hright : FreeStart l' x ∧ (forall y, y ∈ q -> x ≠ y.start) <-> FreeStart t x := by
    have hs' := hs
    rw [hj.right] at hs' ⊢
    cases q with
    | none => simp
    | some d =>
      rw [Option.toList_some, List.singleton_append,
        show l ++ b :: d :: t = (l ++ [b]) ++ d :: t by simp] at hs'
      have hout := hs'.not_freeStart.right
      simp only [Option.toList_some, List.singleton_append, freeStart_cons,
        hj.rightFree d rfl, true_and, Option.mem_some_iff, forall_eq']
      constructor
      · rintro ⟨heq | hx, hne⟩
        · exact absurd heq.symm hne
        · exact hx
      · intro hx
        refine ⟨Or.inr hx, ?_⟩
        rintro rfl
        exact hout hx
  have hbefore : FreeStart l x -> forall y, y ∈ q -> x ≠ y.start := by
    rintro ⟨z, hz, _, hzx⟩ y hy heq
    have ht := hs.tiles
    have hleft := ht.around.left z hz
    have hright := ht.around.right y (by rw [hj.right, hy]; simp)
    have hzb := ht.bounds (b := z) (by simp [hz])
    have hbb := ht.bounds (b := b) (by simp)
    have hhdr := c.le_memheapSize
    omega
  have hjoined : (joined p b q).start = (p.getD b).start := rfl
  simp only [freeStart_append, freeStart_cons, hjoined, eq_comm (b := x)]
  have hfree : (joined p b q).used = false := rfl
  simp only [hfree, true_and]
  constructor
  · rintro (hx | heq | hx)
    · rcases hleft.mpr (Or.inl hx) with hl | heq
      · exact Or.inr ⟨Or.inl hl, hbefore hl⟩
      · exact Or.inl heq
    · exact Or.inl heq
    · have hl' := hright.mpr hx
      exact Or.inr ⟨Or.inr hl'.left, hl'.right⟩
  · rintro (heq | ⟨hl | hl', hne⟩)
    · exact Or.inr (Or.inl heq)
    · rcases hleft.mp (Or.inl hl) with hx | heq
      · exact Or.inl hx
      · exact Or.inr (Or.inl heq)
    · exact Or.inr (Or.inr (hright.mp ⟨hl', hne⟩))

theorem Shape.free_checks (hs : Shape c h (l ++ b :: l')) (hb : b.used = true) :
    h.get b.start Field.magic = magicOf true ∧
      h.get (h.get b.start Field.next) Field.magic &&& memheapMask = memheapMagic ∧
      h.get b.start Field.poolPtr = h.self := by
  rcases hs.header with ⟨hnext, hmagic, _, howned⟩
  rcases hs.around.right.right with ⟨d, r, hright, hstart, _⟩
  have hd := hs.stamped d (by
    rw [List.append_assoc, List.cons_append, hright]
    simp)
  rw [hb] at hmagic
  refine ⟨hmagic, ?_, howned⟩
  rw [hnext, ← hstart, hd]
  cases d.used <;> decide

theorem Consistent.release (hc : Consistent c h (l ++ b :: l')) (hb : b.used = true) :
    exists h' r, rtMemheapFree c h (some (payload 0 c.memheapSize b)) = some h' ∧
      Evolves c h (l ++ b :: l') h' r ∧ OneMore r (l ++ b :: l') b := by
  have hhdr := c.le_memheapSize
  have hs := hc.shape
  have hplug := noTwoFree_append.mp hc.plugged
  have hlt := hs.pool_lt
  have hheader : payload 0 c.memheapSize b - c.memheapSize = b.start := by
    unfold payload
    omega
  rcases hs.free_checks hb with ⟨hmagic, hnext, howned⟩
  have hone := hs.tiles.oneMore_mark (by omega) hb
  have hold : forall x, FreeStart (l ++ b :: l') x <-> FreeStart l x ∨ FreeStart l' x := by
    intro x
    simp [hb]
  have hout : ¬ FreeStart (l ++ b :: l') b.start := by
    rw [hold]
    exact not_or.mpr hs.not_freeStart
  have hmark := hc.reached.mark false
  -- the sizes, with the block marked as free
  have hsize : memitemSize c (h.put b.start Field.magic (magicOf false)) b.start =
      b.stop - b.start - c.memheapSize :=
    hmark.shape.memitemSize_eq (b := { b with used := false }) (by simp)
  rcases exists_join l l' with ⟨p, q, s, t, hj⟩
  have htotal := total_joined (c := c) hj hs.tiles
  have hshape' := hj.tiles hs.tiles
  have hbound := hshape'.total_le (w := freeBytes c) fun _ => freeBytes_le
  have htail := hs.tail_add
  have havail := hc.available
  rw [total_append, total_cons, freeBytes_used hb] at havail
  have hadd : add32 h.availableSize (b.stop - b.start - c.memheapSize) =
      h.availableSize + (b.stop - b.start - c.memheapSize) := add32_of_lt (by omega)
  have hcount := hmark.counted (add32 h.availableSize (b.stop - b.start - c.memheapSize))
    h.maxUsedSize
  rw [hadd] at hcount
  rcases hcount.mergeLeft rfl ⟨b, by simp, rfl⟩ hout hj
    (by show h.availableSize + _ + _ < _; omega) with
    ⟨g, hleft, hreached, hgavail, hgmax⟩
  have hin : forall x, x ∈ q -> x ∈ l ++ b :: l' ∧ FreeStart (l ++ b :: l') x.start := by
    intro x hx
    have hmem : x ∈ l ++ b :: l' := by
      rw [hj.right, hx]
      simp
    exact ⟨hmem, x, hmem, hj.rightFree x hx, rfl⟩
  simp only at hgavail hgmax
  rcases hreached.mergeRight hj.right hj.rightFree hj.rightEnd hin
    (by omega) with ⟨g', hright, hreached', hgavail', hgmax'⟩
  have hgtotal : g'.availableSize = total (freeBytes c) (s ++ joined p b q :: t) := by
    rw [hgavail', hgavail, htotal]
    omega
  have hgused : h.poolSize ≤ g'.availableSize + g'.maxUsedSize := by
    have hmax := hc.maxUsed
    rw [hgmax', hgmax, hgavail', hgavail]
    omega
  have hstart : (p.getD { b with used := false }).start = (p.getD b).start := by
    cases p <;> rfl
  have hlists : Reached c h (l ++ b :: l') g' (s ++ joined p b q :: t)
      (fun y => FreeStart (l ++ b :: l') y ∧ forall x, x ∈ q -> y ≠ x.start) := by
    cases p <;> cases q <;> exact hreached'
  rw [hstart] at hleft
  have hplug' := hj.noTwoFree (b := b) hplug.left hplug.right.right.right
  have hsame : SameUsed (l ++ { b with used := false } :: l') (s ++ joined p b q :: t) := by
    have hsame := hj.sameUsed (b := { b with used := false }) rfl
    have heq : joined p { b with used := false } q = joined p b q := by
      cases p <;> cases q <;> rfl
    rwa [heq] at hsame
  have hfree : rtMemheapFree c h (some (payload 0 c.memheapSize b)) =
      some (if p.isNone then freeInsert g' (p.getD b).start else g') := by
    simp only [rtMemheapFree, hheader, hmagic]
    rw [if_pos ⟨by decide, by decide, hnext, howned⟩]
    have hmagicFalse : magicOf true &&& memheapMask = magicOf false := by decide
    simp only [hmagicFalse, hsize]
    have havail' : (h.put b.start Field.magic (magicOf false)).availableSize =
        h.availableSize := rfl
    rw [havail', hadd]
    have hleft' : mergeLeft c { h.put b.start Field.magic (magicOf false) with
        availableSize := h.availableSize + (b.stop - b.start - c.memheapSize) } b.start =
        (g, (p.getD b).start, p.isNone) := hleft
    rw [hleft', ← hright, hstart]
  refine ⟨_, _, hfree, ?_, hone.of_same hsame⟩
  cases p with
  | none =>
    simp only [Option.isNone_none, if_true]
    have hnew : ¬ (FreeStart (l ++ b :: l') b.start ∧
        forall x, x ∈ q -> b.start ≠ x.start) := fun h => hout h.left
    refine (hlists.insert (b := joined none b q) (by simp) hnew).evolves ?_ hplug'
      freeInsert_stats hgtotal hgused
    intro x
    rw [freeStart_joined hs hj, hold]
    exact Iff.rfl
  | some d =>
    simp only [Option.isNone_some, Bool.false_eq_true, if_false]
    refine hlists.evolves ?_ hplug' ⟨rfl, rfl⟩ hgtotal hgused
    intro x
    rw [freeStart_joined hs hj, hold, Option.getD_some]
    constructor
    · exact Or.inr
    · rintro (rfl | hx)
      · -- the block in front is on the free list already
        have hdl : d ∈ l := by
          rw [hj.left]
          simp
        refine ⟨Or.inl ⟨d, hdl, hj.leftFree d rfl, rfl⟩, ?_⟩
        intro y hy heq
        have hleft := hs.tiles.around.left d hdl
        have hright := hs.tiles.around.right y (by rw [hj.right, hy]; simp)
        have hdb := hs.tiles.bounds (b := d) (by simp [hdl])
        have hbb := hs.tiles.bounds (b := b) (by simp)
        omega
      · exact hx

end Release

/-!
## Bytes in payloads
-/

section Payloads

variable {c : Config} {h h' : RtMemheap} {l l' : List Block} {b : Block}

theorem header_of_payload : payload 0 c.memheapSize b - c.memheapSize = b.start := by
  unfold payload
  omega

theorem Evolves.tiles (he : Evolves c h l h' l') :
    Tiles c.memheapSize h.startAddr l' (tail c h) := by
  have ht := he.consistent.shape.tiles
  rwa [he.edit.core.startAddr, he.edit.core.tail_eq] at ht

theorem Consistent.over_items {m : Memory} (hc : Consistent c h l)
    (hsame : forall x, Entry c h l x -> forall y, x ≤ y -> y < x + 24 -> m y = h.mem y) :
    Consistent c { h with mem := m } l := by
  have hs := hc.shape
  have hget : forall x f, Entry c h l x ->
      ({ h with mem := m } : RtMemheap).get x f = h.get x f := by
    intro x f hx
    apply Layout.get_congr
    intro y hle hlt
    exact hsame x hx y hle hlt
  refine ⟨hs.of_fields ⟨rfl, rfl, rfl, rfl⟩ ?_, ?_, hc.plugged, hc.available, hc.maxUsed⟩
  · intro b hb f _ _
    exact hget _ _ (Or.inr ⟨b, hb, rfl⟩)
  · rcases hc.free with ⟨fl, hr, hfl⟩
    refine ⟨fl, hr.congr rfl ?_, hfl⟩
    intro y hy f _
    apply hget
    apply Within.entry _ hy
    intro x hx
    exact ((hfl x).mp hx).within

theorem Consistent.scribble {m : Memory} (hc : Consistent c h l)
    (hsame : forall y, InHeader c.memheapSize l h.startAddr (tail c h) y ->
      m y = h.mem y) : Consistent c { h with mem := m } l := by
  apply hc.over_items
  intro x hx y hle hlt
  by_contra hne
  have hout : ¬ InHeader c.memheapSize l h.startAddr (tail c h) y :=
    fun hin => hne (hsame y hin)
  have hapart := hc.shape.outside hx hout
  omega

theorem Consistent.over_extent {m : Memory} (hc : Consistent c h l)
    (hsame : forall y, Extent h y -> m y = h.mem y) : Consistent c { h with mem := m } l :=
  hc.over_items fun _ hx y hle hlt => hsame y (hc.shape.entry_extent hx hle hlt)

end Payloads

end MemHeap
end RtThread.Mem
