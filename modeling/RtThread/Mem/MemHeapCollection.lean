import RtThread.Mem.MemHeapExchange
import RtThread.Mem.MemHeaps

/-!
# Collections of memory heaps

The heaps of a collection are consistent, and their pools and free list headers lie
apart, so that a call on one of them leaves the others as they are.  `rt_malloc` then
finds a block exactly if one of the heaps has one.
-/

namespace RtThread.Mem.MemHeap

open Kernel ByteMemory Tiling
open Function (update update_eq_self update_of_ne update_self)

/-- The heap at each address of the list is the list of blocks `ls` has there. -/
structure Collection (c : Config) (s : Heaps) (ls : Nat -> List Block) : Prop where
  system : s.system ∈ s.list
  named : forall a, a ∈ s.list -> (s.heap a).self = a
  consistent : forall a, a ∈ s.list -> Consistent c (s.heap a) (ls a)
  apart : forall a a', a ∈ s.list -> a' ∈ s.list -> a ≠ a' ->
    forall x, Extent (s.heap a) x -> ¬ Extent (s.heap a') x

def InUse (s : Heaps) (ls : Nat -> List Block) (a : Nat) (b : Block) : Prop :=
  a ∈ s.list ∧ b ∈ ls a ∧ b.used = true

theorem payload_eq {c : Config} {b : Block} :
    payload 0 c.memheapSize b = b.start + c.memheapSize := by
  unfold payload
  omega

section Heaps

variable {s : Heaps} {h : RtMemheap} {a k x : Nat} {b : Block} {ls : Nat -> List Block}
  {l : List Block}

@[simp]
theorem Heaps.heap_put_self : (s.put a h).heap a = h := by
  have hobject : (s.put a h).objects a = h.object := update_self ..
  unfold Heaps.heap
  rw [hobject]
  rfl

theorem Heaps.heap_put_of_ne (hne : k ≠ a) :
    (s.put a h).heap k = { s.heap k with mem := h.mem } := by
  have hobject : (s.put a h).objects k = s.objects k := update_of_ne hne ..
  unfold Heaps.heap
  rw [hobject]
  rfl

theorem Heaps.put_heap : s.put a (s.heap a) = s := by
  unfold Heaps.put
  have hobject : (s.heap a).object = s.objects a := rfl
  rw [hobject, update_eq_self]
  rfl

theorem Heaps.put_mem {m : Memory} : s.put a { s.heap a with mem := m } = { s with mem := m } := by
  unfold Heaps.put
  have hobject : ({ s.heap a with mem := m } : RtMemheap).object = s.objects a := rfl
  rw [hobject, update_eq_self]

theorem Heaps.extent_put (hcore : SameCore (s.heap a) h) :
    Extent ((s.put a h).heap k) x <-> Extent (s.heap k) x := by
  by_cases hk : k = a
  · subst hk
    rw [Heaps.heap_put_self]
    exact hcore.extent
  · rw [Heaps.heap_put_of_ne hk]
    exact Iff.rfl

theorem inUse_put_self :
    InUse (s.put a h) (update ls a l) a b <-> a ∈ s.list ∧ b ∈ l ∧ b.used = true := by
  unfold InUse
  rw [update_self]
  exact Iff.rfl

theorem inUse_put_of_ne (hne : k ≠ a) :
    InUse (s.put a h) (update ls a l) k b <-> InUse s ls k b := by
  unfold InUse
  rw [update_of_ne hne]
  exact Iff.rfl

end Heaps

section Collection

variable {c : Config} {s s' : Heaps} {ls ls' : Nat -> List Block} {a a' k : Nat}
  {b b' d x : Block} {h' : RtMemheap} {l' : List Block} {size n : Nat}

theorem Collection.put (hc : Collection c s ls) (ha : a ∈ s.list)
    (hcore : SameCore (s.heap a) h') (hcons : Consistent c h' l')
    (hconfined : forall x, ¬ Extent (s.heap a) x -> h'.mem x = s.mem x) :
    Collection c (s.put a h') (update ls a l') := by
  refine ⟨hc.system, ?_, ?_, ?_⟩
  · intro k hk
    by_cases hka : k = a
    · subst hka
      rw [Heaps.heap_put_self, hcore.self]
      exact hc.named k hk
    · rw [Heaps.heap_put_of_ne hka]
      exact hc.named k hk
  · intro k hk
    by_cases hka : k = a
    · subst hka
      rw [Heaps.heap_put_self, update_self]
      exact hcons
    · rw [Heaps.heap_put_of_ne hka, update_of_ne hka]
      apply (hc.consistent k hk).over_extent
      intro y hy
      exact hconfined y (hc.apart k a hk ha hka y hy)
  · intro k k' hk hk' hne y hy hy'
    exact hc.apart k k' hk hk' hne y ((Heaps.extent_put hcore).mp hy)
      ((Heaps.extent_put hcore).mp hy')

theorem Collection.unique (hc : Collection c s ls) (hc' : Collection c s ls')
    (ha : a ∈ s.list) : ls a = ls' a := by
  have hhdr := c.le_memheapSize
  have hs := (hc.consistent a ha).shape
  have hs' := (hc'.consistent a ha).shape
  apply Tiles.unique (fun x => (s.heap a).get x Field.next) (isUsed (s.heap a)) (by omega)
    hs.tiles hs'.tiles
  · intro b hb
    exact ⟨(hs.next_eq hb).symm, (hs.isUsed_eq (List.mem_append_left _ hb)).symm⟩
  · intro b hb
    exact ⟨(hs'.next_eq hb).symm, (hs'.isUsed_eq (List.mem_append_left _ hb)).symm⟩

theorem Collection.inUse_iff (hc : Collection c s ls) (hc' : Collection c s ls') :
    InUse s ls a b <-> InUse s ls' a b := by
  unfold InUse
  constructor
  · rintro ⟨ha, hb, hused⟩
    exact ⟨ha, hc.unique hc' ha ▸ hb, hused⟩
  · rintro ⟨ha, hb, hused⟩
    exact ⟨ha, (hc.unique hc' ha).symm ▸ hb, hused⟩

theorem InUse.extent (hu : InUse s ls a b) (hc : Collection c s ls) :
    Extent (s.heap a) b.start := by
  have hhdr := c.le_memheapSize
  have hs := (hc.consistent a hu.left).shape
  have hbd := hs.tiles.bounds hu.right.left
  have htail := hs.tail_add
  exact Or.inl ⟨by omega, by omega⟩

theorem Collection.payload_unique (hc : Collection c s ls) (hb : InUse s ls a b)
    (hb' : InUse s ls a' b')
    (heq : payload 0 c.memheapSize b = payload 0 c.memheapSize b') : a = a' ∧ b = b' := by
  have hhdr := c.le_memheapSize
  rw [payload_eq, payload_eq, Nat.add_right_cancel_iff] at heq
  have hsame : a = a' := by
    by_contra hne
    have hin := hb.extent hc
    rw [heq] at hin
    exact hc.apart a a' hb.left hb'.left hne _ hin (hb'.extent hc)
  subst hsame
  exact ⟨rfl, (hc.consistent a hb.left).shape.tiles.eq_of_start (by omega)
    hb.right.left hb'.right.left heq⟩

theorem Collection.poolPtr_eq (hc : Collection c s ls) (hu : InUse s ls a b) :
    s.poolPtr c (payload 0 c.memheapSize b) = a := by
  have howned := (hc.consistent a hu.left).shape.owned b hu.right.left
  rw [hc.named a hu.left] at howned
  unfold Heaps.poolPtr
  rw [header_of_payload]
  exact howned

theorem Collection.scribble {m : Memory} (hc : Collection c s ls) (hu : InUse s ls a b)
    (hsame : forall y, y < b.start + c.memheapSize ∨ b.stop ≤ y -> m y = s.mem y) :
    Collection c { s with mem := m } ls := by
  have hcons := hc.consistent a hu.left
  have hs := hcons.shape
  have hbd := hs.tiles.bounds hu.right.left
  have htail := hs.tail_add
  have hwritten : Consistent c { s.heap a with mem := m } (ls a) := by
    apply hcons.scribble
    intro y hy
    apply hsame
    by_contra hin
    exact Tiles.payload_not_header hs.tiles hu.right.left (by omega) (by omega) hy
  have hcore : SameCore (s.heap a) { s.heap a with mem := m } := ⟨rfl, rfl, rfl, rfl⟩
  have hput := hc.put hu.left hcore hwritten (by
    intro y hy
    apply hsame
    by_contra hin
    exact hy (Or.inl ⟨by omega, by omega⟩))
  rwa [Heaps.put_mem, update_eq_self] at hput

/-!
## Allocation
-/

theorem Collection.allocated (hc : Collection c s ls) (ha : a ∈ s.list)
    (hal : Allocated c (s.heap a) (ls a) n h' l' d) :
    Collection c (s.put a h') (update ls a l') ∧
      forall k x, InUse (s.put a h') (update ls a l') k x <-> InUse s ls k x ∨
        (k = a ∧ x = d) := by
  have hedit := hal.evolves.edit
  refine ⟨hc.put ha hedit.core hal.evolves.consistent hedit.confined, ?_⟩
  intro k x
  by_cases hk : k = a
  · subst hk
    rw [inUse_put_self]
    unfold InUse
    constructor
    · rintro ⟨hk, hx, hused⟩
      rcases (hal.more.right.right x hused).mp hx with hold | heq
      · exact Or.inl ⟨hk, hold, hused⟩
      · exact Or.inr ⟨rfl, heq⟩
    · rintro (⟨hk, hx, hused⟩ | ⟨_, rfl⟩)
      · exact ⟨hk, (hal.more.right.right x hused).mpr (Or.inl hx), hused⟩
      · exact ⟨ha, (hal.more.right.right x hal.more.left).mpr (Or.inr rfl), hal.more.left⟩
  · rw [inUse_put_of_ne hk]
    constructor
    · exact Or.inl
    · rintro (hx | ⟨heq, _⟩)
      · exact hx
      · exact absurd heq hk

theorem Collection.memheapAlloc_cases (hc : Collection c s ls) (ha : a ∈ s.list) (size : Nat) :
    (s.memheapAlloc c a size = some (s, none) ∧ ¬ Serves c (s.heap a) (ls a) size) ∨
      Serves c (s.heap a) (ls a) size ∧ exists h' l' d,
        s.memheapAlloc c a size = some (s.put a h', some (payload 0 c.memheapSize d)) ∧
          Allocated c (s.heap a) (ls a) (c.allocSize size) h' l' d := by
  unfold Heaps.memheapAlloc
  rcases (hc.consistent a ha).alloc_cases size with
    ⟨hnull, hserves⟩ | ⟨hserves, h', l', d, hsome, hal⟩
  · rw [hnull, Option.map_some, Heaps.put_heap]
    exact Or.inl ⟨rfl, hserves⟩
  · rw [hsome]
    exact Or.inr ⟨hserves, h', l', d, rfl, hal⟩

theorem Collection.allocOther_cases (hc : Collection c s ls) (size : Nat) {rest : List Nat}
    (hrest : forall a, a ∈ rest -> a ∈ s.list) :
    (allocOther c size s rest = some (s, none) ∧
        forall a, a ∈ rest -> a ≠ s.system -> ¬ Serves c (s.heap a) (ls a) size) ∨
      exists a h' l' d, a ∈ rest ∧ Serves c (s.heap a) (ls a) size ∧
        allocOther c size s rest = some (s.put a h', some (payload 0 c.memheapSize d)) ∧
          Allocated c (s.heap a) (ls a) (c.allocSize size) h' l' d := by
  induction rest with
  | nil => exact Or.inl ⟨rfl, by simp⟩
  | cons a rest ih =>
    have hrest' := ih fun k hk => hrest k (List.mem_cons_of_mem a hk)
    by_cases hsystem : a = s.system
    · simp only [allocOther, if_pos hsystem]
      rcases hrest' with ⟨hnull, hnone⟩ | ⟨k, h', l', d, hk, hsome⟩
      · refine Or.inl ⟨hnull, ?_⟩
        intro k hk hne
        rcases List.mem_cons.mp hk with heq | hk
        · exact absurd (heq.trans hsystem) hne
        · exact hnone k hk hne
      · exact Or.inr ⟨k, h', l', d, List.mem_cons_of_mem a hk, hsome⟩
    · simp only [allocOther, if_neg hsystem]
      rcases hc.memheapAlloc_cases (hrest a (by simp)) size with
        ⟨hnull, hserves⟩ | ⟨hserves, h', l', d, hsome, hal⟩
      · rw [hnull]
        rcases hrest' with ⟨hnull', hnone⟩ | ⟨k, h', l', d, hk, hsome⟩
        · refine Or.inl ⟨hnull', ?_⟩
          intro k hk hne
          rcases List.mem_cons.mp hk with heq | hk
          · rw [heq]
            exact hserves
          · exact hnone k hk hne
        · exact Or.inr ⟨k, h', l', d, List.mem_cons_of_mem a hk, hsome⟩
      · rw [hsome]
        exact Or.inr ⟨a, h', l', d, by simp, hserves, rfl, hal⟩

theorem Collection.rtMalloc_cases (hc : Collection c s ls) (size : Nat) :
    (rtMalloc c s size = some (s, none) ∧
        forall a, a ∈ s.list -> ¬ Serves c (s.heap a) (ls a) size) ∨
      exists a h' l' d, a ∈ s.list ∧ Serves c (s.heap a) (ls a) size ∧
        rtMalloc c s size = some (s.put a h', some (payload 0 c.memheapSize d)) ∧
          Allocated c (s.heap a) (ls a) (c.allocSize size) h' l' d := by
  unfold rtMalloc
  rcases hc.memheapAlloc_cases hc.system size with
    ⟨hnull, hserves⟩ | ⟨hserves, h', l', d, hsome, hal⟩
  · rw [hnull]
    rcases hc.allocOther_cases size (fun a ha => ha) with ⟨hnull', hnone⟩ | hsome
    · refine Or.inl ⟨hnull', ?_⟩
      intro a ha
      by_cases heq : a = s.system
      · rw [heq]
        exact hserves
      · exact hnone a ha heq
    · exact Or.inr hsome
  · rw [hsome]
    exact Or.inr ⟨s.system, h', l', d, hc.system, hserves, rfl, hal⟩

end Collection

end RtThread.Mem.MemHeap
