import RtThread.Mem.Slab

/-!
# The lock of the slab heap

Every function of `slab.c` takes `heap_sem` and gives it back; `rt_malloc` and `rt_free` also give
it up around a call of the page allocator. When there is no room for a new zone, `rt_malloc`
leaves through a label that gives the semaphore back a second time.
-/

namespace RtThread.Mem

open Kernel

namespace Slab

/-- Is every release one of a semaphore that is held, and is none held at the
end? -/
def balancedFrom : Nat -> List SemOp -> Bool
  | held, [] => held = 0
  | held, SemOp.take :: ops => balancedFrom (held + 1) ops
  | 0, SemOp.release :: _ => false
  | held + 1, SemOp.release :: ops => balancedFrom held ops

def Balanced (ops : List SemOp) : Prop := balancedFrom 0 ops = true

def semValue (ops : List SemOp) : Int :=
  1 + ops.count SemOp.release - ops.count SemOp.take

def pairs : Nat -> List SemOp
  | 0 => []
  | k + 1 => SemOp.take :: SemOp.release :: pairs k

section Pairs

variable {ops log log' : List SemOp} {j k : Nat}

theorem pairs_append : pairs j ++ pairs k = pairs (j + k) := by
  induction j with
  | zero => simp [pairs]
  | succ j ih =>
    rw [Nat.add_right_comm]
    simp only [pairs, List.cons_append, ih]

theorem balancedFrom_pairs : balancedFrom 0 (pairs k ++ ops) = balancedFrom 0 ops := by
  induction k with
  | zero => rfl
  | succ k ih => exact ih

theorem balanced_pairs : Balanced (pairs k) := by
  have hnil := @balancedFrom_pairs [] k
  rw [List.append_nil] at hnil
  exact hnil

theorem not_balanced_release : ¬Balanced (pairs k ++ [SemOp.release]) := by
  unfold Balanced
  rw [balancedFrom_pairs]
  decide

theorem semValue_pairs : semValue (log ++ pairs k) = semValue log := by
  have hcount : (pairs k).count SemOp.release = (pairs k).count SemOp.take := by
    induction k with
    | zero => rfl
    | succ k ih => simp [pairs, ih]
  unfold semValue
  rw [List.count_append, List.count_append, hcount]
  omega

def Paired (log log' : List SemOp) : Prop := exists k, log' = log ++ pairs k

theorem Paired.refl : Paired log log := ⟨0, by simp [pairs]⟩

theorem Paired.trans {log2 : List SemOp} (h : Paired log log') (h' : Paired log' log2) :
    Paired log log2 := by
  rcases h with ⟨j, hj⟩
  rcases h' with ⟨k, hk⟩
  exact ⟨j + k, by rw [hk, hj, List.append_assoc, pairs_append]⟩

theorem Paired.one (h : log' = log ++ [SemOp.take] ++ [SemOp.release]) :
    Paired log log' := ⟨1, by rw [h, List.append_assoc]; rfl⟩

end Pairs

/-!
## The page allocator
-/

section Pages

variable {h h' : PageHeap} {prev : Slot} {r : Option Nat} {n npages fuel : Nat}

/-- From `p` on there is a free run with enough pages. -/
inductive HasRun (h : PageHeap) (npages : Nat) : Option Nat -> Prop where
  | here {b : Nat} : npages ≤ h.page b -> HasRun h npages (some b)
  | later {b : Nat} : HasRun h npages (h.next b) -> HasRun h npages (some b)

theorem hasRun_some {b : Nat} :
    HasRun h npages (some b) <-> npages ≤ h.page b ∨ HasRun h npages (h.next b) := by
  constructor
  · intro hrun
    cases hrun with
    | here hle => exact Or.inl hle
    | later hlater => exact Or.inr hlater
  · rintro (hle | hlater)
    · exact HasRun.here hle
    · exact HasRun.later hlater

theorem hasRun_congr {p : Option Nat} (hnext : h'.next = h.next)
    (hpage : h'.page = h.page) : HasRun h' npages p <-> HasRun h npages p := by
  constructor
  · intro hrun
    induction hrun with
    | here hle => exact HasRun.here (hpage ▸ hle)
    | later _ ih => exact HasRun.later (hnext ▸ ih)
  · intro hrun
    induction hrun with
    | here hle => exact HasRun.here (hpage.symm ▸ hle)
    | later _ ih => exact HasRun.later (hnext.symm ▸ ih)

theorem pageAllocLoop_log (hr : pageAllocLoop npages fuel h prev = some (r, h')) :
    h'.heapSem = h.heapSem ∧ (r = none <-> ¬HasRun h npages (h.load prev)) := by
  induction fuel generalizing prev with
  | zero => cases hr
  | succ fuel ih =>
    unfold pageAllocLoop at hr
    cases hload : h.load prev with
    | none =>
      rw [hload] at hr
      cases hr
      refine ⟨rfl, ?_⟩
      simp only [true_iff]
      intro hrun
      cases hrun
    | some b =>
      rw [hload] at hr
      rw [hasRun_some]
      simp only at hr
      split at hr
      · cases hr
        refine ⟨by rw [store_heapSem]; rfl, ?_⟩
        simp only [reduceCtorEq, false_iff, not_not]
        left
        omega
      · split at hr
        · cases hr
          refine ⟨store_heapSem, ?_⟩
          simp only [reduceCtorEq, false_iff, not_not]
          left
          omega
        · have hih := ih hr
          refine ⟨hih.left, hih.right.trans (not_congr ?_)⟩
          have hsmall : ¬npages ≤ h.page b := by omega
          simp only [hsmall, false_or]
          exact Iff.rfl

theorem rtPageAlloc_log (hr : rtPageAlloc h npages = some (r, h')) : Paired h.heapSem h'.heapSem ∧
      (r = none <-> npages = 0 ∨ ¬HasRun h npages h.pageList) := by
  unfold rtPageAlloc at hr
  split at hr
  · rename_i hzero
    cases hr
    exact ⟨Paired.refl, by simp [hzero]⟩
  · rename_i hpos
    rw [Option.map_eq_some_iff] at hr
    rcases hr with ⟨⟨r1, h1⟩, hloop, heq⟩
    cases heq
    have hlog := pageAllocLoop_log hloop
    refine ⟨Paired.one ?_, ?_⟩
    · show h1.heapSem ++ _ = _
      rw [hlog.left]
      rfl
    · have hrun : HasRun h.lock npages (h.lock.load Slot.pageList) <->
          HasRun h npages h.pageList := hasRun_congr rfl rfl
      rw [hlog.right, hrun]
      simp [hpos]

theorem growRun_heapSem : (growRun h n npages).heapSem = h.heapSem := by
  unfold growRun
  simp only
  split
  · rfl
  · split <;> rfl

theorem pageFreeLoop_log (hr : pageFreeLoop n npages fuel h prev = some h') :
    h'.heapSem = h.heapSem := by
  induction fuel generalizing prev with
  | zero => cases hr
  | succ fuel ih =>
    unfold pageFreeLoop at hr
    split at hr
    · cases hr
      exact store_heapSem
    · split at hr
      · cases hr
      · split at hr
        · cases hr
        · split at hr
          · cases hr
            exact growRun_heapSem
          · split at hr
            · cases hr
              exact store_heapSem
            · split at hr
              · cases hr
                exact store_heapSem
              · exact ih hr

theorem rtPageFree_log (hr : rtPageFree h n npages = some h') : Paired h.heapSem h'.heapSem := by
  unfold rtPageFree at hr
  split at hr
  · cases hr
  · rw [Option.map_eq_some_iff] at hr
    rcases hr with ⟨h1, hloop, heq⟩
    subst heq
    apply Paired.one
    show h1.heapSem ++ _ = _
    rw [pageFreeLoop_log hloop]
    rfl

end Pages

/-!
## Allocation
-/

/-- An allocation that needs a new zone finds no pages for it. -/
def ZoneStarved (h : Heap) (size : Nat) : Prop :=
  size ≠ 0 ∧ size < h.zoneLimit ∧ h.zoneArray (zoneindex size).1 = none ∧
    h.zoneFree = none ∧
      (h.zoneSize / pageSize = 0 ∨
        ¬HasRun h.toPageHeap (h.zoneSize / pageSize) h.pageList)

section Alloc

variable {h h' : Heap} {r : Option Nat} {size zi z n ptr : Nat}

theorem takeChunk_log {x : Nat × Heap} (hr : takeChunk h zi z size = some x) :
    x.2.heapSem = h.heapSem := by
  unfold takeChunk at hr
  simp only at hr
  split at hr
  · cases hr
  · split at hr
    · cases hr
      split <;> rfl
    · split at hr
      · cases hr
      · cases hr
        split <;> rfl

theorem mallocLarge_log (hr : mallocLarge h size = some (r, h')) : Paired h.heapSem h'.heapSem := by
  unfold mallocLarge at hr
  simp only at hr
  split at hr
  · cases hr
  · rename_i hpage
    cases hr
    exact (rtPageAlloc_log hpage).left
  · rename_i hpage
    cases hr
    exact (rtPageAlloc_log hpage).left.trans (Paired.one rfl)

theorem rtMalloc_log (hr : rtMalloc h size = some (r, h')) :
    (¬ZoneStarved h size ∧ Paired h.heapSem h'.heapSem) ∨
      (ZoneStarved h size ∧ r = none ∧ exists log, Paired h.heapSem log ∧
        h'.heapSem = log ++ [SemOp.release]) := by
  unfold rtMalloc at hr
  split at hr
  · rename_i hzero
    cases hr
    exact Or.inl ⟨fun hst => hst.left hzero, Paired.refl⟩
  · rename_i hpos
    split at hr
    · rename_i hlarge
      refine Or.inl ⟨?_, mallocLarge_log hr⟩
      intro hst
      exact Nat.not_le.mpr hst.right.left hlarge
    · rename_i hsmall
      unfold mallocSmall at hr
      simp only at hr
      split at hr
      · cases hr
      · split at hr
        · rename_i z harray
          rw [Option.map_eq_some_iff] at hr
          rcases hr with ⟨x, htake, heq⟩
          cases heq
          refine Or.inl ⟨?_, Paired.one ?_⟩
          · intro hst
            have hnone := hst.right.right.left
            rw [show h.zoneArray (zoneindex size).1 = some z from harray] at hnone
            cases hnone
          · show x.2.heapSem ++ _ = _
            rw [takeChunk_log htake]
            rfl
        · rename_i harray
          split at hr
          · rename_i z hfree
            cases hr
            refine Or.inl ⟨?_, Paired.one rfl⟩
            intro hst
            have hnone := hst.right.right.right.left
            rw [show h.zoneFree = some z from hfree] at hnone
            cases hnone
          · rename_i hfree
            -- the pages are requested after one pair of lock operations
            have hpair : Paired h.heapSem h.lock.unlock.heapSem := Paired.one rfl
            have hrun : HasRun h.lock.unlock.toPageHeap (h.zoneSize / pageSize)
                h.lock.unlock.pageList <->
                HasRun h.toPageHeap (h.zoneSize / pageSize) h.pageList :=
              hasRun_congr rfl rfl
            split at hr
            · cases hr
            · rename_i pages hpage
              have hlog := rtPageAlloc_log hpage
              have hno := hlog.right.mp rfl
              cases hr
              refine Or.inr ⟨⟨hpos, Nat.lt_of_not_le hsmall, harray, hfree, ?_⟩, rfl,
                pages.heapSem, hpair.trans hlog.left, rfl⟩
              exact hno.imp_right (not_congr hrun).mp
            · rename_i page pages hpage
              have hlog := rtPageAlloc_log hpage
              cases hr
              refine Or.inl ⟨?_, (hpair.trans hlog.left).trans (Paired.one rfl)⟩
              intro hst
              have hnone := hlog.right.mpr
                (hst.right.right.right.right.imp_right (not_congr hrun).mpr)
              cases hnone

end Alloc

/-!
## Release
-/

section Release

variable {h h' : Heap} {z fuel ptr : Nat} {pz : ZoneSlot}

theorem unlinkZone_log (hr : unlinkZone z fuel h pz = some h') : h'.heapSem = h.heapSem := by
  induction fuel generalizing pz with
  | zero => cases hr
  | succ fuel ih =>
    unfold unlinkZone at hr
    split at hr
    · cases hr
    · split at hr
      · cases hr
        cases pz <;> rfl
      · exact ih hr

theorem retireZone_log {log : List SemOp} (hlock : h.heapSem = log ++ [SemOp.take])
    (hr : retireZone h z = some h') : Paired log h'.heapSem := by
  unfold retireZone at hr
  split at hr
  · cases hr
  · rename_i h1 hunlink
    have hlog := unlinkZone_log hunlink
    rw [hlock] at hlog
    simp only at hr
    split at hr
    · rw [Option.map_eq_some_iff] at hr
      rcases hr with ⟨pages, hfree, heq⟩
      subst heq
      refine Paired.trans (Paired.one ?_) (rtPageFree_log hfree)
      show h1.heapSem ++ _ = _
      rw [hlog]
    · cases hr
      apply Paired.one
      show h1.heapSem ++ _ = _
      rw [hlog]

theorem freeLarge_log (hr : freeLarge h ptr = some h') : Paired h.heapSem h'.heapSem := by
  unfold freeLarge at hr
  simp only at hr
  split at hr
  · cases hr
  · rw [Option.map_eq_some_iff] at hr
    rcases hr with ⟨pages, hfree, heq⟩
    subst heq
    exact Paired.trans (Paired.one rfl) (rtPageFree_log hfree)

theorem releaseChunk_heapSem : (releaseChunk h z ptr).heapSem = h.heapSem := by
  unfold releaseChunk
  simp only
  split <;> rfl

theorem freeSmall_log (hr : freeSmall h ptr = some h') : Paired h.heapSem h'.heapSem := by
  unfold freeSmall at hr
  simp only at hr
  split at hr
  · cases hr
  · split at hr
    · exact retireZone_log releaseChunk_heapSem hr
    · cases hr
      apply Paired.one
      show PageHeap.heapSem _ ++ _ = _
      rw [releaseChunk_heapSem]
      rfl

theorem rtFree_log {p : Option Nat} (hr : rtFree h p = some h') : Paired h.heapSem h'.heapSem := by
  unfold rtFree at hr
  split at hr
  · cases hr
    exact Paired.refl
  · split at hr
    · exact freeLarge_log hr
    · exact freeSmall_log hr

end Release

/-!
## Every call
-/

def Call.mallocSize (h : Heap) : Call -> Option Nat
  | Call.malloc size => some size
  | Call.free _ => none
  | Call.realloc none size => some size
  | Call.realloc (some ptr) size =>
    if size = 0 then none
    else
      match (h.memusage (h.btokup (rtAlignDown ptr pageSize))).type with
      | PageType.large => some size
      | PageType.small =>
        let chunk := (zoneindex size).2
        if (h.zone (zoneOf h ptr)).chunksize = chunk then none else some chunk
      | _ => none
  | Call.calloc count size => some (count * size % 2 ^ 32)

/-- The call allocates, needs a new zone, and finds no pages for it. -/
def Starved (h : Heap) (c : Call) : Prop :=
  exists size, c.mallocSize h = some size ∧ ZoneStarved h size

/-- A call has released `heap_sem` as often as it took it, never without holding
it, and has left its value at one. -/
def LockKept (h h' : Heap) : Prop :=
  exists ops, h'.heapSem = h.heapSem ++ ops ∧ Balanced ops ∧
    (semValue h.heapSem = 1 -> semValue h'.heapSem = 1)

section Calls

variable {h h' : Heap} {r : Option Nat} {c : Call} {size ptr : Nat}

theorem Paired.lockKept (hp : Paired h.heapSem h'.heapSem) : LockKept h h' := by
  rcases hp with ⟨k, hk⟩
  refine ⟨pairs k, hk, balanced_pairs, ?_⟩
  rw [hk, semValue_pairs]
  exact id

theorem not_lockKept {log : List SemOp} (hp : Paired h.heapSem log)
    (hlog : h'.heapSem = log ++ [SemOp.release]) : ¬LockKept h h' := by
  rcases hp with ⟨k, hk⟩
  rintro ⟨ops, hops, hbal, _⟩
  rw [hlog, hk, List.append_assoc] at hops
  rw [← List.append_cancel_left hops] at hbal
  exact not_balanced_release hbal

theorem rtMalloc_lockKept (hr : rtMalloc h size = some (r, h')) :
    LockKept h h' <-> ¬ZoneStarved h size := by
  rcases rtMalloc_log hr with ⟨hno, hpaired⟩ | ⟨hst, _, log, hp, hlog⟩
  · exact ⟨fun _ => hno, fun _ => hpaired.lockKept⟩
  · exact ⟨fun hkept => absurd hkept (not_lockKept hp hlog), fun hno => absurd hst hno⟩

theorem reallocMove_lockKept (hr : reallocMove h ptr size = some (r, h')) :
    LockKept h h' <-> ¬ZoneStarved h size := by
  unfold reallocMove at hr
  split at hr
  · cases hr
  · rename_i hmalloc
    cases hr
    exact rtMalloc_lockKept hmalloc
  · rename_i nptr h1 hmalloc
    rw [Option.map_eq_some_iff] at hr
    rcases hr with ⟨h2, hfree, heq⟩
    cases heq
    -- an allocation that succeeds is not starved
    rcases rtMalloc_log hmalloc with ⟨hno, hpaired⟩ | ⟨_, hnone, _⟩
    · exact ⟨fun _ => hno, fun _ => (hpaired.trans (rtFree_log hfree)).lockKept⟩
    · cases hnone

theorem starved_of_size (hsize : c.mallocSize h = some size) :
    Starved h c <-> ZoneStarved h size := by
  unfold Starved
  rw [hsize]
  simp

theorem not_starved (hsize : c.mallocSize h = none) : ¬Starved h c := by
  rintro ⟨size, heq, _⟩
  rw [hsize] at heq
  cases heq

theorem lockKept_of_not_starved (hsize : c.mallocSize h = none)
    (hp : Paired h.heapSem h'.heapSem) : LockKept h h' <-> ¬Starved h c :=
  ⟨fun _ => not_starved hsize, fun _ => hp.lockKept⟩

/-- A call keeps the lock balanced exactly when it does not run out of pages for a
new zone. -/
theorem lock_kept_iff (hr : call h c = some (r, h')) :
    LockKept h h' <-> ¬Starved h c := by
  cases c with
  | malloc size =>
    rw [starved_of_size (c := Call.malloc size) rfl]
    exact rtMalloc_lockKept hr
  | calloc count size =>
    rw [starved_of_size (c := Call.calloc count size) rfl]
    exact rtMalloc_lockKept hr
  | free ptr =>
    simp only [call, Option.map_eq_some_iff] at hr
    rcases hr with ⟨h1, hfree, heq⟩
    cases heq
    exact lockKept_of_not_starved rfl (rtFree_log hfree)
  | realloc ptr size =>
    cases ptr with
    | none =>
      rw [starved_of_size (c := Call.realloc none size) rfl]
      exact rtMalloc_lockKept hr
    | some ptr =>
      simp only [call, rtRealloc] at hr
      split at hr
      · rename_i hzero
        rw [Option.map_eq_some_iff] at hr
        rcases hr with ⟨h1, hfree, heq⟩
        cases heq
        exact lockKept_of_not_starved (by simp [Call.mallocSize, hzero])
          (rtFree_log hfree)
      · rename_i hpos
        split at hr
        · rename_i htype
          have hsize : (Call.realloc (some ptr) size).mallocSize h = some size := by
            simp [Call.mallocSize, hpos, htype]
          rw [starved_of_size hsize]
          exact reallocMove_lockKept hr
        · rename_i htype
          split at hr
          · cases hr
          · split at hr
            · rename_i hsame
              cases hr
              exact lockKept_of_not_starved
                (by simp [Call.mallocSize, hpos, htype, hsame]) Paired.refl
            · rename_i hother
              have hsize : (Call.realloc (some ptr) size).mallocSize h =
                  some (zoneindex size).2 := by
                simp [Call.mallocSize, hpos, htype, hother]
              rw [starved_of_size hsize]
              exact reallocMove_lockKept hr
        · rename_i hlarge hsmall
          cases hr
          refine lockKept_of_not_starved ?_ Paired.refl
          simp only [Call.mallocSize, hpos, if_false]

/-- On a heap of sixteen pages the first allocation makes a zone. -/
theorem lock_kept_iff_zone :
    exists h h', rtSystemHeapInit Heap.blank 0x10000 0x20000 = some h ∧
      call h (Call.malloc 16) = some (some (0x11000 + 48), h') ∧
      (LockKept h h' <-> ¬Starved h (Call.malloc 16)) := by
  have hiff := fun h h' (hr : call h (Call.malloc 16) = some (some (0x11000 + 48), h')) =>
    lock_kept_iff hr
  exact ⟨_, _, rfl, rfl, hiff _ _ rfl⟩

/-- On a heap of two pages it fails, and the semaphore is released once too
often. -/
theorem lock_released_twice :
    exists h h', rtSystemHeapInit Heap.blank 0x10000 0x12000 = some h ∧
      call h (Call.malloc 16) = some (none, h') ∧ semValue h.heapSem = 1 ∧
      ¬LockKept h h' ∧ semValue h'.heapSem = 2 := by
  refine ⟨_, _, rfl, rfl, by decide, ?_, by decide⟩
  have hpaired : Paired (pairs 2) (pairs 4) := ⟨2, rfl⟩
  exact not_lockKept hpaired rfl

end Calls

end Slab
end RtThread.Mem
