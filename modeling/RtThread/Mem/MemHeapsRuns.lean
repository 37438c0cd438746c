import RtThread.Mem.MemHeapRuns
import RtThread.Mem.MemHeapsRealloc

/-!
# Runs of the memory heaps

Heaps that are initialised over pools that lie apart are a collection.  Every call
keeps it one, and every live pointer the pointer to a block in use, as long as no
size wraps around in a test of `rt_memheap_realloc`.
-/

namespace RtThread.Mem.MemHeap

open Kernel ByteMemory Tiling Transition
open Function (update update_of_ne update_self)

/-!
## Initialisation
-/

def Separate (a n b k : Nat) : Prop := a + n ≤ b ∨ b + k ≤ a

instance (a n b k : Nat) : Decidable (Separate a n b k) :=
  inferInstanceAs (Decidable (_ ∨ _))

/-- Two heap objects whose pools and free list headers lie apart. -/
def Pool.Apart (p q : Pool) : Prop :=
  p.heap ≠ q.heap ∧ Separate p.startAddr p.size q.startAddr q.size ∧
    Separate p.startAddr p.size q.freeHeader 24 ∧
    Separate p.freeHeader 24 q.startAddr q.size ∧
    Separate p.freeHeader 24 q.freeHeader 24

instance (p q : Pool) : Decidable (p.Apart q) :=
  inferInstanceAs (Decidable (_ ∧ _))

/-- The pools that the heaps of the system are initialised with, one of them for `_heap`. -/
structure PoolsPlaced (c : Config) (system : Nat) (pools : List Pool) : Prop where
  system : system ∈ pools.map Pool.heap
  placed : forall p, p ∈ pools -> Placed c p.heap p.freeHeader p.startAddr p.size
  apart : pools.Pairwise Pool.Apart

/-- The bytes of a pool and of the header that belongs to it. -/
def Pool.Covers (p : Pool) (x : Nat) : Prop :=
  (p.startAddr ≤ x ∧ x < p.startAddr + p.size) ∨
    (p.freeHeader ≤ x ∧ x < p.freeHeader + 24)

theorem Pool.Apart.symm {p q : Pool} (ha : p.Apart q) : q.Apart p := by
  rcases ha with ⟨hne, hpp, hpl, hlp, hll⟩
  exact ⟨hne.symm, Or.symm hpp, Or.symm hlp, Or.symm hpl, Or.symm hll⟩

instance : Std.Symm Pool.Apart :=
  ⟨fun _ _ => Pool.Apart.symm⟩

theorem Pool.Apart.not_covers {p q : Pool} {x : Nat} (ha : p.Apart q) (hx : p.Covers x) :
    ¬ q.Covers x := by
  rcases ha with ⟨_, hpp, hpl, hlp, hll⟩
  unfold Separate at hpp hpl hlp hll
  unfold Pool.Covers at hx ⊢
  omega

section Init

variable {c : Config} {h : RtMemheap} {m : Memory} {self freeHeader startAddr size tailAddr : Nat}
  {x y : Nat}

theorem initList_outside (hy : y < freeHeader ∨ freeHeader + 24 ≤ y) :
    (initList h self freeHeader).mem y = h.mem y := by
  unfold initList
  simp only [put_outside hy]

theorem initBlock_outside (hy : y < startAddr ∨ startAddr + 24 ≤ y) :
    (initBlock h self startAddr tailAddr).mem y = h.mem y := by
  unfold initBlock
  simp only [put_outside hy]

theorem initTail_outside (hy : y < tailAddr ∨ tailAddr + 24 ≤ y) :
    (initTail h self startAddr tailAddr).mem y = h.mem y := by
  unfold initTail
  simp only [put_outside hy]

theorem FreeRing.insert_first_outside (hr : FreeRing h [])
    (hapart : memheapItem.Apart h.freeList x) (hx : y < x ∨ x + 24 ≤ y)
    (hlist : y < h.freeList ∨ h.freeList + 24 ≤ y) : (freeInsert h x).mem y = h.mem y := by
  have hhead : h.get h.freeList Field.nextFree = h.freeList := hr.next_head
  rw [freeInsert_eq (Or.inr hapart.symm) (apart_ne hapart).symm, hhead, put_outside hlist,
    put_outside hlist, put_outside hx, put_outside hx]

theorem rtMemheapInit_confined (hp : Placed c self freeHeader startAddr size)
    (hpool : y < startAddr ∨ startAddr + size ≤ y)
    (hlist : y < freeHeader ∨ freeHeader + 24 ≤ y) :
    (rtMemheapInit c m self freeHeader startAddr size).mem y = m y := by
  have hhdr := c.le_memheapSize
  have hroom := hp.room_aligned
  have hle := rtAlignDown_le size c.alignSize
  have haway := hp.away
  rw [rtMemheapInit_eq hp]
  generalize rtAlignDown size c.alignSize = pool at *
  generalize htail : startAddr + pool - c.memheapSize = tailAddr
  generalize hobject : (⟨self, freeHeader, startAddr, pool, pool - 2 * c.memheapSize,
    2 * c.memheapSize, 0, 0, m⟩ : RtMemheap) = h0
  have hmem : h0.mem y = m y := by rw [← hobject]
  have hapart : memheapItem.Apart freeHeader startAddr := by
    rcases haway with haway | haway
    · exact Or.inl (by show freeHeader + 24 ≤ startAddr; omega)
    · exact Or.inr (by show startAddr + 24 ≤ freeHeader; omega)
  have hcore := initBlock_core (initList h0 self freeHeader) self startAddr tailAddr
  have hring : FreeRing (initBlock (initList h0 self freeHeader) self startAddr tailAddr) [] := by
    refine (initList_ring hp.list32).congr hcore.freeList ?_
    intro z hz f _
    rw [List.mem_singleton] at hz
    rw [hz]
    exact initBlock_apart hapart.symm
  rw [initTail_outside (by omega), hring.insert_first_outside (by rw [hcore.freeList]; exact hapart)
    (by omega) (by rw [hcore.freeList]; exact hlist), initBlock_outside (by omega),
    initList_outside hlist, hmem]

theorem rtMemheapInit_core (c : Config) (m : Memory) (self freeHeader startAddr size : Nat) :
    (rtMemheapInit c m self freeHeader startAddr size).self = self ∧
      (rtMemheapInit c m self freeHeader startAddr size).startAddr = startAddr ∧
      (rtMemheapInit c m self freeHeader startAddr size).poolSize ≤ size ∧
      (rtMemheapInit c m self freeHeader startAddr size).freeList = freeHeader :=
  ⟨rfl, rfl, rtAlignDown_le size c.alignSize, rfl⟩

end Init

/-- The heaps over the pools `done` are initialised. -/
structure Started (c : Config) (s : Heaps) (done : List Pool) (ls : Nat -> List Block) :
    Prop where
  named : forall p, p ∈ done -> (s.heap p.heap).self = p.heap
  consistent : forall p, p ∈ done -> Consistent c (s.heap p.heap) (ls p.heap)
  covered : forall p, p ∈ done -> forall x, Extent (s.heap p.heap) x -> p.Covers x

section Start

variable {c : Config} {s : Heaps} {p : Pool} {done pools : List Pool} {ls : Nat -> List Block}

theorem Started.init (hs : Started c s done ls)
    (hp : Placed c p.heap p.freeHeader p.startAddr p.size)
    (hapart : forall q, q ∈ done -> q.Apart p) :
    exists ls', Started c (s.put p.heap
      (rtMemheapInit c s.mem p.heap p.freeHeader p.startAddr p.size)) (done ++ [p]) ls' := by
  rcases rtMemheapInit_core c s.mem p.heap p.freeHeader p.startAddr p.size with
    ⟨hself, hstart, hsize, hlist⟩
  have hfirst : exists l, Consistent c
      (rtMemheapInit c s.mem p.heap p.freeHeader p.startAddr p.size) l :=
    ⟨_, rtMemheapInit_consistent hp⟩
  rcases hfirst with ⟨l, hcons⟩
  have hconf : forall y, ¬ p.Covers y ->
      (rtMemheapInit c s.mem p.heap p.freeHeader p.startAddr p.size).mem y = s.mem y := by
    intro y hy
    unfold Pool.Covers at hy
    exact rtMemheapInit_confined hp (by omega) (by omega)
  generalize rtMemheapInit c s.mem p.heap p.freeHeader p.startAddr p.size = h at *
  refine ⟨update ls p.heap l, ?_, ?_, ?_⟩
  · intro q hq
    rcases List.mem_append.mp hq with hq | hq
    · rw [Heaps.heap_put_of_ne (hapart q hq).left]
      exact hs.named q hq
    · rw [List.mem_singleton] at hq
      rw [hq, Heaps.heap_put_self]
      exact hself
  · intro q hq
    rcases List.mem_append.mp hq with hq | hq
    · rw [Heaps.heap_put_of_ne (hapart q hq).left, update_of_ne (hapart q hq).left]
      apply (hs.consistent q hq).over_extent
      intro y hy
      exact hconf y ((hapart q hq).not_covers (hs.covered q hq y hy))
    · rw [List.mem_singleton] at hq
      rw [hq, Heaps.heap_put_self, update_self]
      exact hcons
  · intro q hq x hx
    rcases List.mem_append.mp hq with hq | hq
    · rw [Heaps.heap_put_of_ne (hapart q hq).left] at hx
      exact hs.covered q hq x hx
    · rw [List.mem_singleton] at hq
      rw [hq, Heaps.heap_put_self] at hx
      rw [hq]
      unfold Extent at hx
      unfold Pool.Covers
      rw [hstart, hlist] at hx
      omega

theorem Started.initHeaps (hs : Started c s done ls)
    (hplaced : forall p, p ∈ pools -> Placed c p.heap p.freeHeader p.startAddr p.size)
    (hapart : (done ++ pools).Pairwise Pool.Apart) :
    exists ls', Started c (MemHeap.initHeaps c s pools) (done ++ pools) ls' := by
  induction pools generalizing s done ls with
  | nil => exact ⟨ls, by rwa [List.append_nil]⟩
  | cons p pools ih =>
    have hsplit := List.pairwise_append.mp hapart
    rcases hs.init (hplaced p (by simp)) (fun q hq => hsplit.right.right q hq p (by simp)) with
      ⟨ls', hs'⟩
    rw [List.append_cons] at hapart ⊢
    exact ih hs' (fun q hq => hplaced q (by simp [hq])) hapart

theorem initHeaps_fixed (s : Heaps) (pools : List Pool) :
    (MemHeap.initHeaps c s pools).list = s.list ∧
      (MemHeap.initHeaps c s pools).system = s.system := by
  induction pools generalizing s with
  | nil => exact ⟨rfl, rfl⟩
  | cons p pools ih => exact ih _

theorem PoolsPlaced.apart_of_ne {system : Nat} {q : Pool} (hp : PoolsPlaced c system pools)
    (hpin : p ∈ pools) (hqin : q ∈ pools) (hne : p.heap ≠ q.heap) {x : Nat}
    (hx : p.Covers x) :
    ¬ q.Covers x := by
  have hne' : p ≠ q := fun heq => hne (congrArg Pool.heap heq)
  exact (hp.apart.forall hpin hqin hne').not_covers hx

theorem initHeaps_collection {system : Nat} (m : Memory) (objects : Nat -> HeapObject)
    (hp : PoolsPlaced c system pools) :
    exists ls, Collection c
      (MemHeap.initHeaps c ⟨objects, pools.map Pool.heap, system, m⟩ pools) ls := by
  have hempty : Started c ⟨objects, pools.map Pool.heap, system, m⟩ [] (fun _ => []) :=
    ⟨by simp, by simp, by simp⟩
  rcases hempty.initHeaps hp.placed hp.apart with ⟨ls, hs⟩
  have hfixed := initHeaps_fixed (c := c) ⟨objects, pools.map Pool.heap, system, m⟩ pools
  rw [List.nil_append] at hs
  generalize MemHeap.initHeaps c ⟨objects, pools.map Pool.heap, system, m⟩ pools = s at *
  have hin : forall a, a ∈ s.list -> exists p, p ∈ pools ∧ p.heap = a := by
    intro a ha
    rw [hfixed.left] at ha
    exact List.mem_map.mp ha
  refine ⟨ls, ?_, ?_, ?_, ?_⟩
  · rw [hfixed.left, hfixed.right]
    exact hp.system
  · intro a ha
    rcases hin a ha with ⟨p, hp, rfl⟩
    exact hs.named p hp
  · intro a ha
    rcases hin a ha with ⟨p, hp, rfl⟩
    exact hs.consistent p hp
  · intro a a' ha ha' hne x hx hx'
    rcases hin a ha with ⟨p, hpin, rfl⟩
    rcases hin a' ha' with ⟨q, hqin, rfl⟩
    exact hp.apart_of_ne hpin hqin hne (hs.covered p hpin x hx) (hs.covered q hqin x hx')

end Start

/-!
## Calls
-/

def Points (c : Config) (s : Heaps) (ls : Nat -> List Block) (p : Nat) : Prop :=
  exists a b, InUse s ls a b ∧ p = payload 0 c.memheapSize b

structure Held (c : Config) (s : System) (ls : Nat -> List Block) : Prop where
  collection : Collection c s.heaps ls
  live : forall p, (s.live p).isSome = true -> Points c s.heaps ls p

def Call.Wraps (c : Config) (s : System) (call : Call) : Prop :=
  match call.op with
  | Op.realloc (some ptr) newsize =>
    newsize ≠ 0 ∧ MemHeap.Wraps c (s.heaps.heap (s.heaps.poolPtr c ptr)) ptr newsize
  | _ => False

instance (c : Config) (s : System) (call : Call) : Decidable (call.Wraps c s) := by
  unfold Call.Wraps
  split
  · infer_instance
  · infer_instance

section Owners

variable {live : Owners} {P : Nat -> Prop} {p n newsize : Nat} {r : Option Nat}

theorem live_malloc (hlive : forall p, (live p).isSome = true -> P p)
    (hr : forall p, p ∈ r -> P p) : forall p, (live.malloc n r p).isSome = true -> P p := by
  intro q hq
  cases r with
  | none => exact hlive q hq
  | some p =>
    simp only [Owners.malloc] at hq
    by_cases hqp : q = p
    · subst hqp
      exact hr q rfl
    · rw [update_of_ne hqp] at hq
      exact hlive q hq

theorem live_free (hlive : forall q, q ≠ p -> (live q).isSome = true -> P q) :
    forall q, (live.free (some p) q).isSome = true -> P q := by
  intro q hq
  simp only [Owners.free] at hq
  by_cases hqp : q = p
  · subst hqp
    rw [update_self] at hq
    cases hq
  · rw [update_of_ne hqp] at hq
    exact hlive q hqp hq

theorem live_move {q : Nat} (hlive : forall q, q ≠ p -> (live q).isSome = true -> P q)
    (hq : P q) : forall x, (live.move p newsize n (some q) x).isSome = true -> P x := by
  intro x hx
  simp only [Owners.move] at hx
  by_cases hxq : x = q
  · subst hxq
    exact hq
  · rw [update_of_ne hxq] at hx
    exact live_free hlive x hx

end Owners

section Calls

variable {c : Config} {s : System} {ls : Nat -> List Block} {a n size newsize : Nat}
  {b d : Block} {h' : RtMemheap} {l' : List Block} {h1 : Heaps} {r : Option Nat}

theorem Held.other (hs : Held c s ls) {q : Nat}
    (hne : q ≠ payload 0 c.memheapSize b) (hq : (s.live q).isSome = true) :
    exists k x, (InUse s.heaps ls k x ∧ ¬ (k = a ∧ x = b)) ∧
      q = payload 0 c.memheapSize x := by
  rcases hs.live q hq with ⟨k, x, hx, hqx⟩
  refine ⟨k, x, ⟨hx, ?_⟩, hqx⟩
  rintro ⟨_, rfl⟩
  exact hne hqx

theorem Held.gave (hs : Held c s ls) (ha : a ∈ s.heaps.list)
    (hal : Allocated c (s.heaps.heap a) (ls a) size h' l' d) :
    Held c ⟨s.heaps.put a h', s.live.malloc n (some (payload 0 c.memheapSize d))⟩
      (update ls a l') := by
  rcases hs.collection.allocated ha hal with ⟨hc', hin⟩
  have hlive : forall p, (s.live.malloc n (some (payload 0 c.memheapSize d)) p).isSome = true ->
      Points c (s.heaps.put a h') (update ls a l') p := by
    apply live_malloc
    · intro q hq
      rcases hs.live q hq with ⟨k, x, hx, hqx⟩
      exact ⟨k, x, (hin k x).mpr (Or.inl hx), hqx⟩
    · rintro q ⟨rfl⟩
      exact ⟨a, d, (hin a d).mpr (Or.inr ⟨rfl, rfl⟩), rfl⟩
  exact ⟨hc', hlive⟩

theorem Held.memheapAlloc (hs : Held c s ls) (ha : a ∈ s.heaps.list)
    (hm : s.heaps.memheapAlloc c a size = some (h1, r)) :
    exists ls', Held c ⟨h1, s.live.malloc n r⟩ ls' := by
  rcases hs.collection.memheapAlloc_cases ha size with
    ⟨hnull, _⟩ | ⟨_, h', l', d, hsome, hal⟩
  · rw [hnull] at hm
    cases hm
    exact ⟨ls, hs⟩
  · rw [hsome] at hm
    cases hm
    exact ⟨_, hs.gave ha hal⟩

theorem Held.malloc (hs : Held c s ls) (heap : Option Nat)
    (hheap : forall k, k ∈ heap -> k ∈ s.heaps.list)
    (hm : Call.malloc c s.heaps size heap = some (h1, r)) :
    exists ls', Held c ⟨h1, s.live.malloc n r⟩ ls' := by
  cases heap with
  | some k => exact hs.memheapAlloc (hheap k rfl) hm
  | none =>
    rcases hs.collection.rtMalloc_cases size with
      ⟨hnull, _⟩ | ⟨a, h', l', d, ha, _, hsome, hal⟩
    · cases hnull.symm.trans hm
      exact ⟨ls, hs⟩
    · cases hsome.symm.trans hm
      exact ⟨_, hs.gave ha hal⟩

theorem Held.free (hs : Held c s ls) (hu : InUse s.heaps ls a b) :
    exists h' ls', rtMemheapFree c (s.heaps.heap a) (some (payload 0 c.memheapSize b)) = some h' ∧
      Held c ⟨s.heaps.put a h', s.live.free (some (payload 0 c.memheapSize b))⟩ ls' := by
  have hcons := hs.collection.consistent a hu.left
  rcases List.append_of_mem hu.right.left with ⟨l1, l2, hl⟩
  rw [hl] at hcons
  rcases hcons.release hu.right.right with ⟨h', l', hfree, hev, hone⟩
  rw [← hl] at hone
  refine ⟨h', update ls a l', hfree, ?_, live_free ?_⟩
  · exact hs.collection.put hu.left hev.edit.core hev.consistent hev.edit.confined
  · intro q hne hq
    rcases hs.other (a := a) hne hq with ⟨k, x, ⟨hx, hxb⟩, hqx⟩
    refine ⟨k, x, ?_, hqx⟩
    by_cases hk : k = a
    · subst hk
      have hxl : x ∈ l' := (hone.others hx.right.right).mp
        ⟨hx.right.left, fun heq => hxb ⟨rfl, heq⟩⟩
      exact inUse_put_self.mpr ⟨hx.left, hxl, hx.right.right⟩
    · exact (inUse_put_of_ne hk).mpr hx

theorem Held.moved {ls' : Nat -> List Block} {k : Nat} (hs : Held c s ls)
    (hc' : Collection c h1 ls') (hd : InUse h1 ls' k d)
    (hothers : forall k x, InUse s.heaps ls k x -> ¬ (k = a ∧ x = b) -> InUse h1 ls' k x) :
    Held c ⟨h1, s.live.move (payload 0 c.memheapSize b) newsize n
      (some (payload 0 c.memheapSize d))⟩ ls' := by
  refine ⟨hc', live_move ?_ ⟨k, d, hd, rfl⟩⟩
  intro q hne hq
  rcases hs.other (a := a) hne hq with ⟨k, x, ⟨hx, hxb⟩, hqx⟩
  exact ⟨k, x, hothers k x hx hxb, hqx⟩

theorem Held.fallback (hs : Held c s ls) (hu : InUse s.heaps ls a b) (hpos : newsize ≠ 0)
    (hdecl : Declines c (s.heaps.heap a) (ls a) (payload 0 c.memheapSize b) newsize)
    (hr : rtMemheapRealloc c (s.heaps.heap a) (some (payload 0 c.memheapSize b)) newsize =
      some (s.heaps.heap a, none))
    (hcall : rtRealloc c s.heaps (some (payload 0 c.memheapSize b)) newsize = some (h1, r)) :
    exists ls', Held c ⟨h1, s.live.move (payload 0 c.memheapSize b) newsize n r⟩ ls' := by
  rcases hs.collection.rtMalloc_cases newsize with
    ⟨hnull, _⟩ | ⟨k, h', l', d, hk, _, hm, hal⟩
  · cases (hs.collection.rtRealloc_none hu hr hnull).symm.trans hcall
    exact ⟨ls, hs⟩
  · rcases hs.collection.allocated hk hal with ⟨hc', hin⟩
    have hd := (hin k d).mpr (Or.inr ⟨rfl, rfl⟩)
    rcases hs.collection.rtRealloc_other hu hpos hr hm hc' ((hin a b).mpr (Or.inl hu)) with
      ⟨count, hcount, hother⟩
    cases hother.symm.trans hcall
    have hlt := hdecl.left
    have hroom := hal.room
    rw [header_of_payload,
      (hs.collection.consistent a hu.left).shape.memitemSize_eq hu.right.left] at hlt
    unfold blockSize at hcount
    have hcopied := hc'.scribble (m := copy h'.mem (payload 0 c.memheapSize d)
        (payload 0 c.memheapSize b) count) hd (by
      intro y hy
      rw [payload_eq]
      exact copy_outside (by omega))
    exact ⟨_, hs.moved (a := a) hcopied hd fun k x hx _ => (hin k x).mpr (Or.inl hx)⟩

variable {heap : Option Nat}

theorem Held.realloc (hs : Held c s ls) (hu : InUse s.heaps ls a b) (hpos : newsize ≠ 0)
    (hok : ¬ MemHeap.Wraps c (s.heaps.heap a) (payload 0 c.memheapSize b) newsize)
    (hheap : forall k, k ∈ heap -> k = a)
    (hcall : Call.realloc c s.heaps (some (payload 0 c.memheapSize b)) newsize heap =
      some (h1, r)) :
    exists ls', Held c ⟨h1, s.live.move (payload 0 c.memheapSize b) newsize n r⟩ ls' := by
  rcases (hs.collection.consistent a hu.left).realloc_cases hu.right.left hu.right.right hpos
    hok with ⟨hr, hdecl⟩ | ⟨_, h', l', d, hr, hex⟩
  · cases heap with
    | none => exact hs.fallback hu hpos hdecl hr hcall
    | some k =>
      rw [hheap k rfl] at hcall
      simp only [Call.realloc, Heaps.memheapRealloc, hr, Option.map_some, Heaps.put_heap] at hcall
      cases hcall
      exact ⟨ls, hs⟩
  · have hput : Call.realloc c s.heaps (some (payload 0 c.memheapSize b)) newsize heap =
        some (s.heaps.put a h', some (payload 0 c.memheapSize d)) := by
      cases heap with
      | none => exact hs.collection.rtRealloc_some hu hr
      | some k =>
        rw [hheap k rfl]
        simp only [Call.realloc, Heaps.memheapRealloc, hr, Option.map_some]
    cases hput.symm.trans hcall
    rcases hs.collection.exchanged hu hex with ⟨hc', hin⟩
    exact ⟨_, hs.moved (a := a) hc' ((hin a d).mpr (Or.inr ⟨rfl, rfl⟩))
      fun k x hx hne => (hin k x).mpr (Or.inl ⟨hx, hne⟩)⟩

theorem Held.write {ptr i : Nat} {v : Byte} (hs : Held c s ls) (hp : (s.live ptr).isSome = true)
    (hi : i < payloadSize c (s.heaps.heap (s.heaps.poolPtr c ptr)) ptr) :
    Held c ⟨{ s.heaps with mem := update s.heaps.mem (ptr + i) v },
      s.live.write ptr i v⟩ ls := by
  rcases hs.live ptr hp with ⟨a, b, hu, rfl⟩
  have hshape := (hs.collection.consistent a hu.left).shape
  rw [hs.collection.poolPtr_eq hu, hshape.payloadSize_eq hu.right.left] at hi
  rw [payload_eq]
  refine ⟨hs.collection.scribble hu ?_, ?_⟩
  · intro y hy
    exact update_of_ne (by omega) ..
  · intro q hq
    apply hs.live q
    simp only [Owners.write] at hq
    by_cases hqp : q = b.start + c.memheapSize
    · subst hqp
      rwa [update_self, Option.isSome_map] at hq
    · rwa [update_of_ne hqp] at hq

theorem Held.realloc_null (hs : Held c s ls) (hheap : forall k, k ∈ heap -> k ∈ s.heaps.list)
    (hcall : Call.realloc c s.heaps none newsize heap = some (h1, r)) :
    exists ls', Held c ⟨h1, s.live.malloc n r⟩ ls' := by
  cases heap with
  | none => exact hs.malloc none hheap hcall
  | some k =>
    simp only [Call.realloc, Heaps.memheapRealloc, rtMemheapRealloc] at hcall
    by_cases hzero : newsize = 0
    · simp only [if_pos hzero, rtMemheapFree, Option.map_some, Heaps.put_heap] at hcall
      cases hcall
      exact ⟨ls, hs⟩
    · rw [if_neg hzero] at hcall
      exact hs.memheapAlloc (hheap k rfl) hcall

theorem Held.realloc_zero (hs : Held c s ls) (hu : InUse s.heaps ls a b)
    (hheap : forall k, k ∈ heap -> k = a)
    (hcall : Call.realloc c s.heaps (some (payload 0 c.memheapSize b)) 0 heap = some (h1, r)) :
    exists ls', Held c ⟨h1, s.live.free (some (payload 0 c.memheapSize b))⟩ ls' := by
  rcases hs.free hu with ⟨h', ls', hfree, hs'⟩
  have hr : rtMemheapRealloc c (s.heaps.heap a) (some (payload 0 c.memheapSize b)) 0 =
      some (h', none) := by
    simp only [rtMemheapRealloc, if_true, hfree, Option.map_some]
  have hput : Call.realloc c s.heaps (some (payload 0 c.memheapSize b)) 0 heap =
      some (s.heaps.put a h', none) := by
    cases heap with
    | none =>
      simp only [Call.realloc, rtRealloc, Heaps.memheapRealloc, hs.collection.poolPtr_eq hu,
        hr, Option.map_some, if_true]
    | some k =>
      rw [hheap k rfl]
      simp only [Call.realloc, Heaps.memheapRealloc, hr, Option.map_some]
  cases hput.symm.trans hcall
  exact ⟨ls', hs'⟩

theorem Held.step {call : Call} {s' : System} (hs : Held c s ls) (hok : ¬ call.Wraps c s)
    (hstep : call.step c s = some s') : exists ls', Held c s' ls' := by
  unfold Call.step at hstep
  split at hstep
  · rename_i hlegal
    rcases call with ⟨heap, op⟩
    have hlist : forall k, k ∈ heap -> k ∈ s.heaps.list := fun k hk => (hlegal.right k hk).left
    have hlive := hlegal.left.right
    cases op with
    | malloc size =>
      simp only [Call.act, Option.map_eq_some_iff] at hstep
      rcases hstep with ⟨⟨h1, r⟩, hm, rfl⟩
      exact hs.malloc heap hlist hm
    | free rmem =>
      simp only [Call.act, Option.map_eq_some_iff] at hstep
      rcases hstep with ⟨h1, hm, rfl⟩
      cases rmem with
      | none =>
        cases hm
        exact ⟨ls, hs⟩
      | some p =>
        rcases hs.live p (hlive p rfl) with ⟨a, b, hu, rfl⟩
        rcases hs.free hu with ⟨h', ls', hfree, hs'⟩
        simp only [rtFree, hs.collection.poolPtr_eq hu, hfree, Option.map_some] at hm
        cases hm
        exact ⟨ls', hs'⟩
    | realloc rmem newsize =>
      cases rmem with
      | none =>
        simp only [Call.act, Option.map_eq_some_iff] at hstep
        rcases hstep with ⟨⟨h1, r⟩, hm, rfl⟩
        exact hs.realloc_null hlist hm
      | some p =>
        simp only [Call.act, Option.map_eq_some_iff] at hstep
        rcases hstep with ⟨⟨h1, r⟩, hm, rfl⟩
        rcases hs.live p (hlive p rfl) with ⟨a, b, hu, rfl⟩
        have hheap : forall k, k ∈ heap -> k = a := by
          intro k hk
          have hpool := (hlegal.right k hk).right _ rfl
          rwa [hs.collection.poolPtr_eq hu, eq_comm] at hpool
        by_cases hzero : newsize = 0
        · subst hzero
          exact hs.realloc_zero hu hheap hm
        · simp only [Call.Wraps, hs.collection.poolPtr_eq hu] at hok
          rw [if_neg hzero]
          exact hs.realloc hu hzero (fun hw => hok ⟨hzero, hw⟩) hheap hm
    | write p i v =>
      simp only [Call.act] at hstep
      split at hstep
      · rename_i hi
        cases hstep
        exact ⟨ls, hs.write (hlive p rfl) hi⟩
      · cases hstep
  · cases hstep

end Calls

/-!
## Runs
-/

section Runs

variable {c : Config} {m : Memory} {objects : Nat -> HeapObject} {system : Nat}
  {pools : List Pool} {calls : List Call} {s : System}

theorem held_run (hp : PoolsPlaced c system pools)
    (hrun : Run (Guarded (fun s call => ¬ call.Wraps c s) (Graph (Call.step c)))
      (bootSystem c m objects system pools) calls s) : exists ls, Held c s ls := by
  apply hrun.invariant (fun s => exists ls, Held c s ls)
  · rcases initHeaps_collection m objects hp with ⟨ls, hc⟩
    exact ⟨ls, hc, fun p hlive => nomatch hlive⟩
  · rintro s call s' ⟨ls, hs⟩ ⟨hok, hstep⟩
    exact hs.step hok hstep

/-- In every state that calls can reach without a size that wraps around in a test, and for
every block in use, `rt_realloc` conserves the blocks exactly if the request suits the
heaps. -/
theorem rt_realloc_conserves_iff (hp : PoolsPlaced c system pools)
    (hrun : Run (Guarded (fun s call => ¬ call.Wraps c s) (Graph (Call.step c)))
      (bootSystem c m objects system pools) calls s) :
    exists ls, Held c s ls ∧ forall a b newsize, InUse s.heaps ls a b -> newsize ≠ 0 ->
      (Conserves c s.heaps ls a b newsize <-> Suits c s.heaps ls a b newsize) := by
  rcases held_run hp hrun with ⟨ls, hs⟩
  exact ⟨ls, hs, fun a b newsize hu hpos => hs.collection.conserves_iff hu hpos⟩

end Runs

def twoPools : List Pool :=
  [⟨1024, 1064, 4096, 256⟩, ⟨2048, 2088, 8192, 1024⟩]

theorem twoPools_placed : PoolsPlaced four 1024 twoPools := by
  refine ⟨by decide, ?_, by decide⟩
  intro p hp
  simp only [twoPools, List.mem_cons, List.not_mem_nil, or_false] at hp
  rcases hp with rfl | rfl
  · exact ⟨by decide, by decide, by decide, by decide, by decide⟩
  · exact ⟨by decide, by decide, by decide, by decide, by decide⟩

def twoHeaps : System :=
  bootSystem four (fun _ => 0) (fun _ => ⟨0, 0, 0, 0, 0, 0, 0, 0⟩) 1024 twoPools

/-- 100 bytes of `_heap`, 100 of the other heap because `_heap` is full, and a block that
grows where it is. -/
theorem rt_realloc_conserves_iff_two_heaps :
    exists s ls, Run (Guarded (fun s call => ¬ call.Wraps four s) (Graph (Call.step four)))
        twoHeaps [⟨none, Op.malloc 100⟩, ⟨none, Op.malloc 100⟩,
          ⟨none, Op.realloc (some 8216) 200⟩] s ∧
      (s.live 4120).isSome = true ∧ (s.live 8216).isSome = true ∧ Held four s ls ∧
        forall a b newsize, InUse s.heaps ls a b -> newsize ≠ 0 ->
          (Conserves four s.heaps ls a b newsize <-> Suits four s.heaps ls a b newsize) := by
  have hexec : (exec (fun s call => if ¬ call.Wraps four s then Call.step four s call
      else none) twoHeaps [⟨none, Op.malloc 100⟩, ⟨none, Op.malloc 100⟩,
        ⟨none, Op.realloc (some 8216) 200⟩]).map
        (fun s => ((s.live 4120).isSome, (s.live 8216).isSome)) = some (true, true) := by
    decide +kernel
  rw [Option.map_eq_some_iff] at hexec
  rcases hexec with ⟨s, hexec, hlive⟩
  rw [Prod.mk.injEq] at hlive
  have hrun := guarded_run_of_exec hexec
  rcases rt_realloc_conserves_iff twoPools_placed hrun with ⟨ls, hs, hiff⟩
  exact ⟨s, ls, hrun, hlive.left, hlive.right, hs, hiff⟩

/-- A block of 100 bytes of `_heap` is to get 500: it is copied to the other heap and stays
in use. -/
theorem rt_realloc_keeps_old_block :
    exists s ls a b, Run (Graph (Call.step four)) twoHeaps [⟨none, Op.malloc 100⟩] s ∧
      Held four s ls ∧ InUse s.heaps ls a b ∧ (s.live 4120).isSome = true ∧
        4120 = payload 0 four.memheapSize b ∧ ¬ Conserves four s.heaps ls a b 500 := by
  have hexec : (exec (fun s call => if ¬ call.Wraps four s then Call.step four s call
      else none) twoHeaps [⟨none, Op.malloc 100⟩]).map (fun s => ((s.live 4120).isSome,
        s.heaps.poolPtr four 4120,
        decide (memitemSize four (s.heaps.heap 1024) (4120 - four.memheapSize) <
          four.allocSize 500 ∧ ¬ Extends four (s.heaps.heap 1024) 4120 (four.allocSize 500) ∧
          (s.heaps.heap 1024).availableSize ≤ four.allocSize (four.allocSize 500)),
        (rtMalloc four s.heaps 500).map Prod.snd)) =
      some (true, 1024, true, some (some 8216)) := by
    decide +kernel
  rw [Option.map_eq_some_iff] at hexec
  rcases hexec with ⟨s, hexec, hstate⟩
  simp only [Prod.mk.injEq, decide_eq_true_eq] at hstate
  rcases hstate with ⟨hlive, hpool, ⟨hlt, hext, hfull⟩, hm⟩
  have hrun := guarded_run_of_exec hexec
  rcases held_run twoPools_placed hrun with ⟨ls, hs⟩
  rcases hs.live 4120 hlive with ⟨a, b, hu, hb⟩
  refine ⟨s, ls, a, b, hrun.of_guarded, hs, hu, hlive, hb, ?_⟩
  rw [hs.collection.conserves_iff hu (by decide)]
  rw [hb, hs.collection.poolPtr_eq hu] at hpool
  intro hsuits
  apply hsuits.noLeak
  rw [hb] at hlt hext
  subst hpool
  refine ⟨⟨hlt, hext, fun hserves => Nat.not_lt.mpr hfull hserves.left⟩, ?_⟩
  rcases hs.collection.rtMalloc_cases 500 with ⟨hnull, _⟩ | ⟨k, _, _, _, hk, hserves, _⟩
  · rw [hnull] at hm
    cases hm
  · exact ⟨k, hk, hserves⟩

end RtThread.Mem.MemHeap
