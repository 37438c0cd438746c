import RtThread.Mem.MemHeapCollection

/-!
# Reallocation over all heaps

`rt_realloc` asks the heap of the block first.  When that declines it takes a block
from any heap through `rt_malloc` and copies the bytes, but does not release the old
block, as `rt_memheap_realloc` does where it moves one.
-/

namespace RtThread.Mem.MemHeap

open Kernel ByteMemory Tiling
open Function (update)

def blockSize (c : Config) (b : Block) : Nat := b.stop - b.start - c.memheapSize

/-- The blocks in use after a reallocation of the block `b` of the heap `a` are those from
before, with that of the returned pointer in the place of `b` and its bytes in it; on null,
those from before with the bytes of `b`. -/
def Conserves (c : Config) (s : Heaps) (ls : Nat -> List Block) (a : Nat) (b : Block)
    (newsize : Nat) : Prop :=
  exists s' r ls', rtRealloc c s (some (payload 0 c.memheapSize b)) newsize = some (s', r) ∧
    Collection c s' ls' ∧
      match r with
      | some p => exists k d, p = payload 0 c.memheapSize d ∧
          (forall k' x, InUse s' ls' k' x <->
            (InUse s ls k' x ∧ ¬ (k' = a ∧ x = b)) ∨ (k' = k ∧ x = d)) ∧
          min (blockSize c b) newsize ≤ blockSize c d ∧
          forall i, i < min (blockSize c b) newsize ->
            s'.mem (p + i) = s.mem (payload 0 c.memheapSize b + i)
      | none => (forall k' x, InUse s' ls' k' x <-> InUse s ls k' x) ∧
          forall i, i < blockSize c b ->
            s'.mem (payload 0 c.memheapSize b + i) = s.mem (payload 0 c.memheapSize b + i)

/-- The heap of the block declines, but some heap has a block for the request. -/
def Leaks (c : Config) (s : Heaps) (ls : Nat -> List Block) (a : Nat) (b : Block)
    (newsize : Nat) : Prop :=
  Declines c (s.heap a) (ls a) (payload 0 c.memheapSize b) newsize ∧
    exists k, k ∈ s.list ∧ Serves c (s.heap k) (ls k) newsize

/-- No size wraps around where it decides, and the heap of the block declines only
when all heaps are full. -/
structure Suits (c : Config) (s : Heaps) (ls : Nat -> List Block) (a : Nat) (b : Block)
    (newsize : Nat) : Prop where
  noWrap : ¬ Wraps c (s.heap a) (payload 0 c.memheapSize b) newsize
  noCut : ¬ Cuts c (s.heap a) (payload 0 c.memheapSize b) newsize
  noLeak : ¬ Leaks c s ls a b newsize

section Realloc

variable {c : Config} {s s' : Heaps} {ls ls' : Nat -> List Block} {a k newsize p : Nat}
  {b d : Block} {h' : RtMemheap} {l' : List Block}

theorem Declines.not_cuts {h : RtMemheap} {l : List Block}
    (hd : Declines c h l p newsize) : ¬ Cuts c h p newsize := by
  rintro ⟨hlt, _⟩
  have hlt' := hd.left
  omega

theorem Collection.rtRealloc_some (hc : Collection c s ls) (hu : InUse s ls a b)
    (hr : rtMemheapRealloc c (s.heap a) (some (payload 0 c.memheapSize b)) newsize =
      some (h', some p)) :
    rtRealloc c s (some (payload 0 c.memheapSize b)) newsize = some (s.put a h', some p) := by
  simp only [rtRealloc, Heaps.memheapRealloc, hc.poolPtr_eq hu, hr, Option.map_some]

theorem Collection.rtRealloc_none (hc : Collection c s ls) (hu : InUse s ls a b)
    (hr : rtMemheapRealloc c (s.heap a) (some (payload 0 c.memheapSize b)) newsize =
      some (s.heap a, none))
    (hm : rtMalloc c s newsize = some (s, none)) :
    rtRealloc c s (some (payload 0 c.memheapSize b)) newsize = some (s, none) := by
  simp only [rtRealloc, Heaps.memheapRealloc, hc.poolPtr_eq hu, hr, Option.map_some,
    Heaps.put_heap, hm, ite_self]

theorem Collection.rtRealloc_other (hc : Collection c s ls) (hu : InUse s ls a b)
    (hpos : newsize ≠ 0)
    (hr : rtMemheapRealloc c (s.heap a) (some (payload 0 c.memheapSize b)) newsize =
      some (s.heap a, none))
    (hm : rtMalloc c s newsize = some (s', some p)) (hc' : Collection c s' ls')
    (hu' : InUse s' ls' a b) :
    exists count, count ≤ blockSize c b ∧
      rtRealloc c s (some (payload 0 c.memheapSize b)) newsize =
        some ({ s' with mem := copy s'.mem p (payload 0 c.memheapSize b) count }, some p) := by
  simp only [rtRealloc, Heaps.memheapRealloc, hc.poolPtr_eq hu, hr, Option.map_some,
    Heaps.put_heap, hm, if_neg hpos, hc'.poolPtr_eq hu', header_of_payload,
    (hc'.consistent a hu'.left).shape.memitemSize_eq hu'.right.left]
  refine ⟨_, ?_, rfl⟩
  unfold blockSize
  split
  · omega
  · omega

theorem Collection.exchanged (hc : Collection c s ls) (hu : InUse s ls a b)
    (hex : Exchanged c (s.heap a) (ls a) b newsize h' l' d) :
    Collection c (s.put a h') (update ls a l') ∧
      forall k x, InUse (s.put a h') (update ls a l') k x <->
        (InUse s ls k x ∧ ¬ (k = a ∧ x = b)) ∨ (k = a ∧ x = d) := by
  refine ⟨hc.put hu.left hex.core hex.consistent hex.confined, ?_⟩
  rcases hex.swapped with ⟨hd, hswap⟩
  intro k x
  by_cases hk : k = a
  · subst hk
    rw [inUse_put_self]
    unfold InUse
    constructor
    · rintro ⟨hk, hx, hused⟩
      rcases (hswap x hused).mp hx with ⟨hold, hne⟩ | heq
      · exact Or.inl ⟨⟨hk, hold, hused⟩, fun hboth => hne hboth.right⟩
      · exact Or.inr ⟨rfl, heq⟩
    · rintro (⟨⟨hk, hx, hused⟩, hne⟩ | ⟨_, rfl⟩)
      · exact ⟨hk, (hswap x hused).mpr (Or.inl ⟨hx, fun heq => hne ⟨rfl, heq⟩⟩), hused⟩
      · exact ⟨hu.left, (hswap x hd).mpr (Or.inr rfl), hd⟩
  · rw [inUse_put_of_ne hk]
    constructor
    · intro hx
      exact Or.inl ⟨hx, fun hboth => hk hboth.left⟩
    · rintro (⟨hx, _⟩ | ⟨heq, _⟩)
      · exact hx
      · exact absurd heq hk

/-!
## When the blocks are conserved
-/

theorem Collection.exchanged_conserves (hc : Collection c s ls) (hu : InUse s ls a b)
    (hr : rtMemheapRealloc c (s.heap a) (some (payload 0 c.memheapSize b)) newsize =
      some (h', some (payload 0 c.memheapSize d)))
    (hex : Exchanged c (s.heap a) (ls a) b newsize h' l' d) :
    Conserves c s ls a b newsize <-> ¬ Cuts c (s.heap a) (payload 0 c.memheapSize b) newsize := by
  have hcall := hc.rtRealloc_some hu hr
  have hroom := hex.room
  rcases hc.exchanged hu hex with ⟨hc', hin⟩
  have hd : InUse (s.put a h') (update ls a l') a d := (hin a d).mpr (Or.inr ⟨rfl, rfl⟩)
  have hbd := (hc.consistent a hu.left).shape.tiles.bounds hu.right.left
  have hdb := (hc'.consistent a hd.left).shape.tiles.bounds hd.right.left
  rw [← hroom]
  constructor
  · rintro ⟨s', r, ls', hcall', hc2, hr'⟩
    rw [hcall] at hcall'
    cases hcall'
    rcases hr' with ⟨k, d', hp, hin', hsize, _⟩
    have hd' : InUse (s.put a h') (update ls a l') k d' := by
      rw [hc'.inUse_iff hc2]
      exact (hin' k d').mpr (Or.inr ⟨rfl, rfl⟩)
    rcases hc'.payload_unique hd hd' hp with ⟨_, heq⟩
    rw [← heq] at hsize
    unfold blockSize at hsize
    omega
  · intro hle
    refine ⟨_, _, _, hcall, hc', a, d, rfl, hin, ?_, ?_⟩
    · unfold blockSize
      omega
    · intro i hi
      unfold blockSize at hi
      rw [payload_eq, payload_eq]
      exact hex.bytes i (by omega) (by omega) (by omega)

theorem Collection.null_conserves (hc : Collection c s ls)
    (hcall : rtRealloc c s (some (payload 0 c.memheapSize b)) newsize = some (s, none)) :
    Conserves c s ls a b newsize :=
  ⟨s, none, ls, hcall, hc, fun _ _ => Iff.rfl, fun _ _ => rfl⟩

theorem Collection.leak_not_conserves (hc : Collection c s ls) (hu : InUse s ls a b)
    (hk : k ∈ s.list) (hal : Allocated c (s.heap k) (ls k) (c.allocSize newsize) h' l' d)
    {count : Nat} (hcount : count ≤ blockSize c d)
    (hcall : rtRealloc c s (some (payload 0 c.memheapSize b)) newsize = some ({ s.put k h' with
          mem := copy h'.mem (payload 0 c.memheapSize d) (payload 0 c.memheapSize b) count },
        some (payload 0 c.memheapSize d))) :
    ¬ Conserves c s ls a b newsize := by
  rcases hc.allocated hk hal with ⟨hc', hin⟩
  have hd : InUse (s.put k h') (update ls k l') k d := (hin k d).mpr (Or.inr ⟨rfl, rfl⟩)
  have hb : InUse (s.put k h') (update ls k l') a b := (hin a b).mpr (Or.inl hu)
  have hdb := (hc'.consistent k hd.left).shape.tiles.bounds hd.right.left
  have hcopied := hc'.scribble (m := copy h'.mem (payload 0 c.memheapSize d)
      (payload 0 c.memheapSize b) count) hd (by
    intro y hy
    unfold blockSize at hcount
    rw [payload_eq]
    exact copy_outside (by omega))
  rintro ⟨s', r, ls', hcall', hc2, hr'⟩
  rw [hcall] at hcall'
  cases hcall'
  rcases hr' with ⟨k', d', hp, hin', _⟩
  have hb' := (hcopied.inUse_iff hc2).mp hb
  have hd' := (hcopied.inUse_iff hc2).mpr ((hin' k' d').mpr (Or.inr ⟨rfl, rfl⟩))
  rcases (hin' a b).mp hb' with ⟨_, hne⟩ | ⟨_, heq⟩
  · exact hne ⟨rfl, rfl⟩
  · -- the new block would be the old one
    rw [← heq] at hp
    rcases hcopied.payload_unique hd hb hp with ⟨hka, hdb⟩
    subst hka hdb
    exact hal.more.right.left d hu.right.left hu.right.right rfl

theorem Collection.wraps_not_conserves (hc : Collection c s ls) (hu : InUse s ls a b)
    (hpos : newsize ≠ 0) (hw : Wraps c (s.heap a) (payload 0 c.memheapSize b) newsize) :
    ¬ Conserves c s ls a b newsize := by
  rcases (hc.consistent a hu.left).realloc_wraps hu.right.left hpos hw with
    ⟨h', hr, hcore, hnext⟩
  have hcall := hc.rtRealloc_some hu hr
  rintro ⟨s', r, ls', hcall', hc', hr'⟩
  rw [hcall] at hcall'
  cases hcall'
  rcases hr' with ⟨k, d, hp, hin, _⟩
  have hd : InUse (s.put a h') ls' k d := (hin k d).mpr (Or.inr ⟨rfl, rfl⟩)
  rw [payload_eq, payload_eq, Nat.add_right_cancel_iff] at hp
  have hka : a = k := by
    by_contra hne
    have hb := (Heaps.extent_put hcore).mpr (hu.extent hc)
    rw [hp] at hb
    exact hc'.apart a k hu.left hd.left hne _ hb (hd.extent hc')
  subst hka
  have hs := (hc'.consistent a hu.left).shape
  have hstop := hs.next_eq hd.right.left
  have hbd := hs.tiles.bounds hd.right.left
  rw [Heaps.heap_put_self, ← hp] at hstop
  rw [payload_eq] at hnext
  omega

theorem Collection.conserves_iff (hc : Collection c s ls) (hu : InUse s ls a b)
    (hpos : newsize ≠ 0) : Conserves c s ls a b newsize <-> Suits c s ls a b newsize := by
  by_cases hw : Wraps c (s.heap a) (payload 0 c.memheapSize b) newsize
  · exact iff_of_false (hc.wraps_not_conserves hu hpos hw) fun hsuits => hsuits.noWrap hw
  · rcases (hc.consistent a hu.left).realloc_cases hu.right.left hu.right.right hpos hw with
      ⟨hr, hdecl⟩ | ⟨hdecl, h', l', d, hr, hex⟩
    · rcases hc.rtMalloc_cases newsize with ⟨hnull, hnone⟩ |
        ⟨k, h', l', d, hk, hserves, hm, hal⟩
      · have hsuits : Suits c s ls a b newsize :=
          ⟨hw, hdecl.not_cuts, fun hleak => by
            rcases hleak.right with ⟨k, hk, hserves⟩
            exact hnone k hk hserves⟩
        exact iff_of_true (hc.null_conserves (hc.rtRealloc_none hu hr hnull)) hsuits
      · rcases hc.allocated hk hal with ⟨hc', hin⟩
        rcases hc.rtRealloc_other hu hpos hr hm hc' ((hin a b).mpr (Or.inl hu)) with
          ⟨count, hcount, hcall⟩
        have hlt := hdecl.left
        have hroom := hal.room
        rw [header_of_payload, (hc.consistent a hu.left).shape.memitemSize_eq hu.right.left] at hlt
        have hsize : count ≤ blockSize c d := by
          unfold blockSize at hcount ⊢
          omega
        exact iff_of_false (hc.leak_not_conserves hu hk hal hsize hcall)
          fun hsuits => hsuits.noLeak ⟨hdecl, k, hk, hserves⟩
    · rw [hc.exchanged_conserves hu hr hex]
      constructor
      · intro hcut
        exact ⟨hw, hcut, fun hleak => hdecl hleak.left⟩
      · exact Suits.noCut

end Realloc

end RtThread.Mem.MemHeap
