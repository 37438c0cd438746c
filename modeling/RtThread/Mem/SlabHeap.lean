import RtThread.Mem.SlabZones

/-!
# The invariant of the slab heap

The pages of the heap are free, or belong to a zone, to a large allocation or to the memory-usage
table. The table says of every page of a zone how far it is from the start of the zone, and of the
first page of a large allocation how many pages it has.
-/

namespace RtThread.Mem

open Kernel Chain Buckets Extents Transition
open Function (update update_of_ne update_self)

namespace Slab

def zoneRun (zonePageCnt z : Nat) : Extent := ⟨z / pageSize, zonePageCnt⟩

/-- The sizes that `rt_system_heap_init` chooses. -/
structure Sized (h : Heap) : Prop where
  zoneSize : h.zoneSize = 32768 ∨ h.zoneSize = 65536 ∨ h.zoneSize = 131072
  zoneLimit : h.zoneLimit = min (h.zoneSize / 4) zallocZoneLimit
  zonePageCnt : h.zonePageCnt = h.zoneSize / pageSize

def runsOf (zonePageCnt : Nat) (zones : List Nat) (large table : List Extent) : List Extent :=
  large ++ (zones.map (zoneRun zonePageCnt) ++ table)

/-- The heap from page `lo` to page `hi`, with its zones, the large allocations, the
table and the live pointers. -/
structure Slabbed (lo hi : Nat) (h : Heap) (zones live : List Nat)
    (place : Nat -> Option (Option Nat)) (free large table : List Extent) : Prop where
  pages : Pages lo hi h.toPageHeap free (runsOf h.zonePageCnt zones large table)
  bound : hi ≤ pageCount
  start : h.heapStart = lo * pageSize
  sized : Sized h
  aligned : forall z, z ∈ zones -> z % pageSize = 0
  zoned : Zoned h.zoneSize h.zone h.cNext h.zoneArray h.zoneFree zones live place
  zoneUsage : forall z, z ∈ zones -> forall x, (zoneRun h.zonePageCnt z).Has x ->
    h.memusage (x - lo) = ⟨PageType.small, x - z / pageSize⟩
  largeUsage : forall e, e ∈ large -> h.memusage (e.start - lo) = ⟨PageType.large, e.size⟩
  known : forall p, p ∈ live -> (exists e, e ∈ large ∧ p = e.start * pageSize) ∨
    exists z, z ∈ zones ∧ InZone h.zoneSize z p
  held : forall e, e ∈ large -> e.start * pageSize ∈ live
  nodup : live.Nodup

instance : Std.Symm Apart := ⟨fun _ _ => Or.symm⟩

section Slabbed

variable {lo hi : Nat} {h : Heap} {zones live : List Nat}
  {place : Nat -> Option (Option Nat)} {free large table : List Extent} {e f : Extent}
  {y z p x a n : Nat}

theorem Slabbed.zone_bytes (hs : Slabbed lo hi h zones live place free large table) :
    h.zonePageCnt * pageSize = h.zoneSize := by
  rw [hs.sized.zonePageCnt]
  have hsize := hs.sized.zoneSize
  unfold pageSize
  omega

theorem Slabbed.zonePageCnt_pos (hs : Slabbed lo hi h zones live place free large table) :
    0 < h.zonePageCnt := by
  have hbytes := hs.zone_bytes
  have hsize := hs.sized.zoneSize
  unfold pageSize at hbytes
  omega

theorem inZone_iff (hz : z % pageSize = 0) (hbytes : n * pageSize = h.zoneSize) :
    InZone h.zoneSize z p <-> (zoneRun n z).Has (p / pageSize) := by
  unfold InZone zoneRun Extent.Has Extent.stop
  unfold pageSize at *
  simp only
  omega

theorem Slabbed.inZone_iff (hs : Slabbed lo hi h zones live place free large table)
    (hz : z ∈ zones) :
    InZone h.zoneSize z p <-> (zoneRun h.zonePageCnt z).Has (p / pageSize) :=
  Slab.inZone_iff (hs.aligned z hz) hs.zone_bytes

theorem Slabbed.mem_large (he : e ∈ large) : e ∈ runsOf n zones large table :=
  List.mem_append_left _ he

theorem Slabbed.mem_zone (hz : z ∈ zones) : zoneRun n z ∈ runsOf n zones large table :=
  List.mem_append_right _ (List.mem_append_left _ (List.mem_map_of_mem hz))

theorem Slabbed.large_zone (hs : Slabbed lo hi h zones live place free large table)
    (he : e ∈ large) (hz : z ∈ zones) : Apart e (zoneRun h.zonePageCnt z) := by
  have hruns := (List.pairwise_append.mp hs.pages.apart).2.1
  exact (List.pairwise_append.mp hruns).2.2 e he _ (List.mem_append_left _ (List.mem_map_of_mem hz))

theorem Slabbed.large_large (hs : Slabbed lo hi h zones live place free large table)
    (he : e ∈ large) (hf : f ∈ large) (hne : e ≠ f) : Apart e f := by
  have hruns := (List.pairwise_append.mp hs.pages.apart).2.1
  exact (List.pairwise_append.mp hruns).1.forall he hf hne

theorem Slabbed.page_ge (hs : Slabbed lo hi h zones live place free large table)
    (he : e ∈ runsOf h.zonePageCnt zones large table) (hx : e.Has x) : lo ≤ x := by
  have hin := hs.pages.within (List.mem_append_right free he)
  have hlow := hx.1
  omega

theorem Slabbed.large_start (hs : Slabbed lo hi h zones live place free large table)
    (he : e ∈ large) : e.Has e.start :=
  has_start (hs.pages.positive e (Slabbed.mem_large he))

theorem Slabbed.large_not_inZone (hs : Slabbed lo hi h zones live place free large table)
    (he : e ∈ large) (hz : z ∈ zones) : ¬InZone h.zoneSize z (e.start * pageSize) := by
  rw [hs.inZone_iff hz, Nat.mul_div_cancel _ (by decide : 0 < pageSize)]
  exact (hs.large_zone he hz).not_has (hs.large_start he)

theorem Slabbed.fresh (hs : Slabbed lo hi h zones live place free large table)
    {r : Extent} (hl : forall e, e ∈ large -> Apart r e)
    (hz : forall z, z ∈ zones -> Apart r (zoneRun h.zonePageCnt z)) (hp : p ∈ live) :
    ¬r.Has (p / pageSize) := by
  intro hin
  rcases hs.known p hp with ⟨e, he, rfl⟩ | ⟨z, hzm, hpz⟩
  · rw [Nat.mul_div_cancel _ (by decide : 0 < pageSize)] at hin
    exact (hl e he).not_has hin (hs.large_start he)
  · exact (hz z hzm).not_has hin ((hs.inZone_iff hzm).mp hpz)

theorem Slabbed.large_nodup (hs : Slabbed lo hi h zones live place free large table) :
    large.Nodup := by
  have hruns := (List.pairwise_append.mp hs.pages.apart).2.1
  refine (List.pairwise_append.mp hruns).1.imp_of_mem ?_
  rintro e f he _ hap rfl
  have hpos := hs.pages.positive e (Slabbed.mem_large he)
  unfold Apart Extent.stop at hap
  omega

theorem Slabbed.account (hs : Slabbed lo hi h zones live place free large table)
    (pages : PageHeap) (hlist : pages.pageList = h.pageList) (hnext : pages.next = h.next)
    (hpage : pages.page = h.page) (cnt used most : Nat) :
    Slabbed lo hi { h with
      toPageHeap := pages, zoneFreeCnt := cnt, usedMem := used, maxMem := most }
      zones live place free large table :=
  ⟨hs.pages.congr hlist hnext hpage, hs.bound, hs.start,
    ⟨hs.sized.zoneSize, hs.sized.zoneLimit, hs.sized.zonePageCnt⟩, hs.aligned, hs.zoned,
    hs.zoneUsage, hs.largeUsage, hs.known, hs.held, hs.nodup⟩

theorem Slabbed.lock (hs : Slabbed lo hi h zones live place free large table) :
    Slabbed lo hi h.lock zones live place free large table :=
  hs.account h.toPageHeap.lock rfl rfl rfl _ _ _

theorem Slabbed.unlock (hs : Slabbed lo hi h zones live place free large table) :
    Slabbed lo hi h.unlock zones live place free large table :=
  hs.account h.toPageHeap.unlock rfl rfl rfl _ _ _

theorem Slabbed.noteUsed (hs : Slabbed lo hi h zones live place free large table)
    (size : Nat) : Slabbed lo hi (h.noteUsed size) zones live place free large table :=
  hs.account h.toPageHeap rfl rfl rfl _ _ _

theorem Slabbed.noteFreed (hs : Slabbed lo hi h zones live place free large table)
    (size : Nat) : Slabbed lo hi (h.noteFreed size) zones live place free large table :=
  hs.account h.toPageHeap rfl rfl rfl _ _ _

variable {pages : PageHeap} {free' : List Extent} {size : Nat}

theorem Slabbed.new_pages (hs : Slabbed lo hi h zones live place free large table)
    (hp : Pages lo hi pages free' (runsOf h.zonePageCnt zones large table)) :
    Slabbed lo hi { h with toPageHeap := pages } zones live place free' large table :=
  ⟨hp, hs.bound, hs.start, ⟨hs.sized.zoneSize, hs.sized.zoneLimit, hs.sized.zonePageCnt⟩,
    hs.aligned, hs.zoned, hs.zoneUsage, hs.largeUsage, hs.known, hs.held, hs.nodup⟩

theorem Slabbed.btokup (hs : Slabbed lo hi h zones live place free large table) :
    h.btokup (rtAlignDown p pageSize) = p / pageSize - lo := by
  have hstart := hs.start
  unfold Heap.btokup rtAlignDown
  unfold pageSize at *
  omega

/-!
## Large allocations
-/

theorem Slabbed.add_large (hs : Slabbed lo hi h zones live place free large table)
    (hp : Pages lo hi pages free' (⟨a, n⟩ :: runsOf h.zonePageCnt zones large table)) :
    Slabbed lo hi { h with
      toPageHeap := pages
      memusage := update h.memusage (a - lo) ⟨PageType.large, n⟩ }
      zones (a * pageSize :: live) place free' (⟨a, n⟩ :: large) table := by
  have hrun := (List.pairwise_append.mp hp.apart).2.1
  have hapart := (List.pairwise_cons.mp hrun).1
  have hpos : 0 < n := hp.positive _ List.mem_cons_self
  have hself : Extent.Has ⟨a, n⟩ a := has_start hpos
  have hlow : lo ≤ a :=
    (hp.within (List.mem_append_right free' List.mem_cons_self)).1
  have hdiv : a * pageSize / pageSize = a := Nat.mul_div_cancel _ (by decide)
  have hnew : a * pageSize ∉ live := by
    intro hin
    refine hs.fresh (fun e he => hapart e (Slabbed.mem_large he))
      (fun z hz => hapart _ (Slabbed.mem_zone hz)) hin ?_
    rw [hdiv]
    exact hself
  have hkeep : forall e, e ∈ runsOf h.zonePageCnt zones large table -> forall x, e.Has x ->
      update h.memusage (a - lo) ⟨PageType.large, n⟩ (x - lo) = h.memusage (x - lo) := by
    intro e he x hx
    have hge := hs.page_ge he hx
    apply update_of_ne
    intro heq
    have hxa : x = a := by omega
    exact (hapart e he).not_has hself (hxa ▸ hx)
  refine ⟨hp, hs.bound, hs.start, ⟨hs.sized.zoneSize, hs.sized.zoneLimit,
    hs.sized.zonePageCnt⟩, hs.aligned, ?_, ?_, ?_, ?_, ?_,
      List.nodup_cons.mpr ⟨hnew, hs.nodup⟩⟩
  · apply hs.zoned.live_congr
    intro z hz
    rw [inside_cons_of_not]
    rw [hs.inZone_iff hz, hdiv]
    exact (hapart _ (Slabbed.mem_zone hz)).not_has hself
  · intro z hz x hx
    exact (hkeep _ (Slabbed.mem_zone hz) x hx).trans (hs.zoneUsage z hz x hx)
  · intro e he
    rcases List.mem_cons.mp he with rfl | he
    · exact update_self _ _ _
    · exact (hkeep _ (Slabbed.mem_large he) _ (hs.large_start he)).trans (hs.largeUsage e he)
  · intro p hp
    rcases List.mem_cons.mp hp with rfl | hp
    · exact Or.inl ⟨_, List.mem_cons_self, rfl⟩
    · rcases hs.known p hp with ⟨e, he, heq⟩ | hz
      · exact Or.inl ⟨e, List.mem_cons_of_mem _ he, heq⟩
      · exact Or.inr hz
  · intro e he
    rcases List.mem_cons.mp he with rfl | he
    · exact List.mem_cons_self
    · exact List.mem_cons_of_mem _ (hs.held e he)

theorem Slabbed.remove_large (hs : Slabbed lo hi h zones live place free large table)
    (he : e ∈ large) {v : Memusage}
    (hp : Pages lo hi pages free' (runsOf h.zonePageCnt zones (large.erase e) table)) :
    Slabbed lo hi { h with
      toPageHeap := pages
      memusage := update h.memusage (e.start - lo) v }
      zones (live.erase (e.start * pageSize)) place free' (large.erase e) table := by
  have hmem : forall f, f ∈ large.erase e <-> f ≠ e ∧ f ∈ large :=
    fun f => hs.large_nodup.mem_erase_iff
  have hstart := hs.large_start he
  have hlow := hs.page_ge (Slabbed.mem_large he) hstart
  have hkeep : forall f, f ∈ runsOf h.zonePageCnt zones large table -> Apart e f ->
      forall x, f.Has x -> update h.memusage (e.start - lo) v (x - lo) = h.memusage (x - lo) := by
    intro f hf hap x hx
    have hge := hs.page_ge hf hx
    apply update_of_ne
    intro heq
    have hxe : x = e.start := by omega
    exact hap.not_has hstart (hxe ▸ hx)
  refine ⟨hp, hs.bound, hs.start, ⟨hs.sized.zoneSize, hs.sized.zoneLimit,
    hs.sized.zonePageCnt⟩, hs.aligned, ?_, ?_, ?_, ?_, ?_, hs.nodup.erase _⟩
  · apply hs.zoned.live_congr
    intro z hz
    have hperm := (List.perm_cons_erase (hs.held e he)).filter fun p =>
      decide (InZone h.zoneSize z p)
    rw [List.filter_cons_of_neg (by simpa using hs.large_not_inZone he hz)] at hperm
    exact hperm
  · intro z hz x hx
    exact (hkeep _ (Slabbed.mem_zone hz) (hs.large_zone he hz) x hx).trans (hs.zoneUsage z hz x hx)
  · intro f hf
    rw [hmem f] at hf
    exact (hkeep f (Slabbed.mem_large hf.2) (hs.large_large he hf.2 (Ne.symm hf.1)) _
      (hs.large_start hf.2)).trans (hs.largeUsage f hf.2)
  · intro p hp
    rw [hs.nodup.mem_erase_iff] at hp
    rcases hs.known p hp.2 with ⟨f, hf, heq⟩ | hz
    · refine Or.inl ⟨f, (hmem f).mpr ⟨?_, hf⟩, heq⟩
      rintro rfl
      exact hp.1 heq
    · exact Or.inr hz
  · intro f hf
    rw [hmem f] at hf
    rw [hs.nodup.mem_erase_iff]
    refine ⟨?_, hs.held f hf.2⟩
    intro heq
    have hsame : f.start = e.start := Nat.eq_of_mul_eq_mul_right (by decide) heq
    exact (hs.large_large he hf.2 (Ne.symm hf.1)).not_has hstart (hsame ▸ hs.large_start hf.2)

/-- What `rt_malloc` and `rt_realloc` leave: a heap in order, with the new pointer
among the live ones. -/
def Allocated (lo hi : Nat) (table : List Extent) (live : List Nat)
    (r : Option (Option Nat × Heap)) : Prop :=
  exists p h', r = some (p, h') ∧ exists zones place free large,
    Slabbed lo hi h' zones (p.toList ++ live) place free large table

/-- What `rt_free` leaves. -/
def Released (lo hi : Nat) (table : List Extent) (live : List Nat) (r : Option Heap) :
    Prop :=
  exists h', r = some h' ∧ exists zones place free large,
    Slabbed lo hi h' zones live place free large table

theorem mallocLarge_spec (hs : Slabbed lo hi h zones live place free large table)
    (size : Nat) : Allocated lo hi table live (mallocLarge h size) := by
  unfold mallocLarge
  rcases Nat.eq_zero_or_pos (rtAlign size pageSize / pageSize) with hzero | hpos
  · simp only [hzero, rtPageAlloc_zero]
    exact ⟨none, _, rfl, _, _, _, _, hs⟩
  · rcases rtPageAlloc_spec hs.pages hs.bound hpos with
      ⟨_, pages, halloc, hp⟩ | ⟨_, a, pages, free', halloc, hp⟩
    · simp only [halloc]
      exact ⟨none, _, rfl, _, _, _, _, hs.new_pages hp⟩
    · simp only [halloc]
      refine ⟨_, _, rfl, zones, place, free',
        ⟨a, rtAlign size pageSize / pageSize⟩ :: large, ?_⟩
      have hindex : (a * pageSize - h.heapStart) / pageSize = a - lo := by
        rw [hs.start, ← Nat.sub_mul, Nat.mul_div_cancel _ (by decide : 0 < pageSize)]
      have hadd := ((hs.add_large hp).lock.noteUsed (rtAlign size pageSize)).unlock
      rw [← hindex] at hadd
      exact hadd

theorem freeLarge_spec (hs : Slabbed lo hi h zones live place free large table) (he : e ∈ large) :
    Released lo hi table (live.erase (e.start * pageSize)) (freeLarge h (e.start * pageSize)) := by
  have hdiv : e.start * pageSize / pageSize = e.start := Nat.mul_div_cancel _ (by decide)
  have hmod : e.start * pageSize % pageSize = 0 := Nat.mul_mod_left _ _
  have hkup : h.btokup (rtAlignDown (e.start * pageSize) pageSize) = e.start - lo := by
    rw [hs.btokup, hdiv]
  have husage := hs.largeUsage e he
  have hperm : (runsOf h.zonePageCnt zones large table).Perm
      (e :: runsOf h.zonePageCnt zones (large.erase e) table) :=
    (List.perm_cons_erase he).append_right _
  -- the semaphore is taken and given back before the pages are
  have hpages : Pages lo hi h.toPageHeap.lock.unlock free
      (e :: runsOf h.zonePageCnt zones (large.erase e) table) := by
    have hlocked : Pages lo hi h.toPageHeap.lock.unlock free _ := hs.pages.congr rfl rfl rfl
    exact hlocked.perm hperm
  rcases rtPageFree_spec hpages hs.bound with ⟨pages, free', hfree, hp⟩
  have hsize : (h.lock.memusage (e.start - lo)).size = e.size := by
    show (h.memusage (e.start - lo)).size = e.size
    rw [husage]
  have hremove := (hs.remove_large he (v := ⟨PageType.large, 0⟩) hp).noteFreed
    (e.size * pageSize)
  unfold freeLarge
  simp only [hkup, hsize, hmod, hdiv]
  refine ⟨_, ?_, zones, place, free', large.erase e, hremove⟩
  have hval : ({ h.lock.memusage (e.start - lo) with size := 0 } : Memusage) =
      ⟨PageType.large, 0⟩ := by
    show (⟨(h.memusage (e.start - lo)).type, 0⟩ : Memusage) = _
    rw [husage]
  rw [hval]
  show (rtPageFree h.toPageHeap.lock.unlock e.start e.size).map _ = _
  rw [hfree]
  rfl

/-!
## Zones that come and go

Between the page allocator and the lists of zones, the pages of a zone count as part of
the table.
-/

theorem Slabbed.with_zoned (hs : Slabbed lo hi h zones live place free large table)
    {zone' : Nat -> SlabZone} {cNext' zoneArray' : Nat -> Option Nat} {zoneFree' : Option Nat}
    {live' : List Nat} {place' : Nat -> Option (Option Nat)}
    (hz : Zoned h.zoneSize zone' cNext' zoneArray' zoneFree' zones live' place')
    (hknown : forall p, p ∈ live' -> p ∈ live ∨ exists z, z ∈ zones ∧
      InZone h.zoneSize z p)
    (hheld : forall p, p ∈ live -> (forall z, z ∈ zones -> ¬InZone h.zoneSize z p) ->
      p ∈ live') (hnodup : live'.Nodup) :
    Slabbed lo hi { h with
      zone := zone', cNext := cNext', zoneArray := zoneArray', zoneFree := zoneFree' }
      zones live' place' free large table := by
  refine ⟨hs.pages, hs.bound, hs.start, ⟨hs.sized.zoneSize, hs.sized.zoneLimit,
    hs.sized.zonePageCnt⟩, hs.aligned, hz, hs.zoneUsage, hs.largeUsage, ?_, ?_, hnodup⟩
  · intro p hp
    rcases hknown p hp with hp | hp
    · exact hs.known p hp
    · exact Or.inr hp
  · intro e he
    exact hheld _ (hs.held e he) fun z hz => hs.large_not_inZone he hz

theorem Slabbed.drop_zone (hs : Slabbed lo hi h zones live place free large table)
    (hfree : h.zoneFree = some z) :
    z % pageSize = 0 ∧ (forall x, (zoneRun h.zonePageCnt z).Has x ->
        h.memusage (x - lo) = ⟨PageType.small, x - z / pageSize⟩) ∧
      exists place', Slabbed lo hi { h with zoneFree := (h.zone z).next } (zones.erase z) live
        place' free large (zoneRun h.zonePageCnt z :: table) := by
  have hsize := hs.sized.zoneSize
  have hzoned := hs.zoned
  rw [hfree] at hzoned
  rcases hzoned.drop (by omega) with ⟨hz, hempty, hdrop⟩
  refine ⟨hs.aligned z hz, hs.zoneUsage z hz, _, ?_, hs.bound, hs.start,
    ⟨hs.sized.zoneSize, hs.sized.zoneLimit, hs.sized.zonePageCnt⟩,
    fun y hy => hs.aligned y (List.mem_of_mem_erase hy), hdrop,
    fun y hy => hs.zoneUsage y (List.mem_of_mem_erase hy), hs.largeUsage, ?_, hs.held,
    hs.nodup⟩
  · apply hs.pages.perm
    have hperm := ((List.perm_cons_erase hz).map (zoneRun h.zonePageCnt)).append_right table
    exact (hperm.trans List.perm_middle.symm).append_left large
  · intro p hp
    rcases hs.known p hp with he | ⟨y, hy, hin⟩
    · exact Or.inl he
    · refine Or.inr ⟨y, ?_, hin⟩
      have hyz : y ≠ z := by
        rintro rfl
        have hmem : p ∈ inside h.zoneSize y live := mem_inside.mpr ⟨hp, hin⟩
        rw [hempty] at hmem
        cases hmem
      exact (List.mem_erase_of_ne hyz).mpr hy

theorem Slabbed.add_table (hs : Slabbed lo hi h zones live place free large table)
    (hp : Pages lo hi pages free' (e :: runsOf h.zonePageCnt zones large table)) :
    Slabbed lo hi { h with toPageHeap := pages } zones live place free' large (e :: table) := by
  refine ⟨?_, hs.bound, hs.start, ⟨hs.sized.zoneSize, hs.sized.zoneLimit,
    hs.sized.zonePageCnt⟩, hs.aligned, hs.zoned, hs.zoneUsage, hs.largeUsage, hs.known, hs.held,
    hs.nodup⟩
  apply hp.perm
  have hinner := (@List.perm_middle _ e (zones.map (zoneRun h.zonePageCnt))
    table).symm.append_left large
  exact List.perm_middle.symm.trans hinner

theorem Slabbed.free_table (hs : Slabbed lo hi h zones live place free large (e :: table)) :
    exists pages free', rtPageFree h.toPageHeap e.start e.size = some pages ∧
      Slabbed lo hi { h with toPageHeap := pages } zones live place free' large table := by
  have hperm : (runsOf h.zonePageCnt zones large (e :: table)).Perm
      (e :: runsOf h.zonePageCnt zones large table) := by
    have hinner := (@List.perm_middle _ e (zones.map (zoneRun h.zonePageCnt))
      table).append_left large
    exact hinner.trans List.perm_middle
  rcases rtPageFree_spec (hs.pages.perm hperm) hs.bound with ⟨pages, free', hfree, hp⟩
  exact ⟨pages, free', hfree, hp, hs.bound, hs.start, ⟨hs.sized.zoneSize, hs.sized.zoneLimit,
    hs.sized.zonePageCnt⟩, hs.aligned, hs.zoned, hs.zoneUsage, hs.largeUsage, hs.known, hs.held,
    hs.nodup⟩

theorem Slabbed.table_apart (hs : Slabbed lo hi h zones live place free large (e :: table)) :
    (forall f, f ∈ large -> Apart e f) ∧
      forall y, y ∈ zones -> Apart e (zoneRun h.zonePageCnt y) := by
  have hruns := (List.pairwise_append.mp hs.pages.apart).2.1
  have hsplit := List.pairwise_append.mp hruns
  constructor
  · intro f hf
    exact (hsplit.2.2 f hf e (by simp)).symm
  · intro y hy
    exact ((List.pairwise_append.mp hsplit.2.1).2.2 _ (List.mem_map_of_mem hy) e (by simp)).symm

theorem Slabbed.set_usage (hz : z % pageSize = 0)
    (hs : Slabbed lo hi h zones live place free large (zoneRun h.zonePageCnt z :: table))
    (value : Nat -> Memusage) :
    Slabbed lo hi (h.setZoneUsage z value) zones live place free large
        (zoneRun h.zonePageCnt z :: table) ∧
      forall x, (zoneRun h.zonePageCnt z).Has x ->
        (h.setZoneUsage z value).memusage (x - lo) = value (x - z / pageSize) := by
  have hfirst : h.btokup z = z / pageSize - lo := by
    have hdown : rtAlignDown z pageSize = z := by
      unfold rtAlignDown
      omega
    have hbtokup := @Slabbed.btokup lo hi h zones live place free large _ z hs
    rw [hdown] at hbtokup
    exact hbtokup
  have hin := hs.pages.within (e := zoneRun h.zonePageCnt z)
    (List.mem_append_right free (List.mem_append_right _ (List.mem_append_right _
      List.mem_cons_self)))
  have hlow : lo ≤ z / pageSize := hin.1
  have hkeep : forall f, f ∈ runsOf h.zonePageCnt zones large
      (zoneRun h.zonePageCnt z :: table) -> Apart (zoneRun h.zonePageCnt z) f ->
      forall x, f.Has x -> (h.setZoneUsage z value).memusage (x - lo) = h.memusage (x - lo) := by
    intro f hf hap x hx
    have hge := hs.page_ge hf hx
    have hout := hap.symm.not_has hx
    unfold zoneRun Extent.Has Extent.stop at hout
    show (if _ then _ else _) = _
    rw [hfirst, if_neg]
    simp only at hout
    omega
  refine ⟨⟨hs.pages, hs.bound, hs.start, ⟨hs.sized.zoneSize, hs.sized.zoneLimit,
    hs.sized.zonePageCnt⟩, hs.aligned, hs.zoned, ?_, ?_, hs.known, hs.held, hs.nodup⟩, ?_⟩
  · intro y hy x hx
    exact (hkeep _ (Slabbed.mem_zone hy) (hs.table_apart.2 y hy) x hx).trans
      (hs.zoneUsage y hy x hx)
  · intro f hf
    exact (hkeep f (Slabbed.mem_large hf) (hs.table_apart.1 f hf) _ (hs.large_start hf)).trans
      (hs.largeUsage f hf)
  · intro x hx
    unfold zoneRun Extent.Has Extent.stop at hx
    simp only at hx
    show (if _ then _ else _) = _
    rw [hfirst, if_pos (by omega)]
    congr 1
    omega

theorem Slabbed.limit (hs : Slabbed lo hi h zones live place free large table) :
    (h.zoneLimit = 8192 ∨ h.zoneLimit = 16384) ∧ 4 * h.zoneLimit ≤ h.zoneSize := by
  have hsize := hs.sized.zoneSize
  rw [hs.sized.zoneLimit]
  unfold zallocZoneLimit
  omega

theorem initZone_spec {zi : Nat} (hz : z % pageSize = 0)
    (hs : Slabbed lo hi h zones live place free large (zoneRun h.zonePageCnt z :: table))
    (husage : forall x, (zoneRun h.zonePageCnt z).Has x ->
      h.memusage (x - lo) = ⟨PageType.small, x - z / pageSize⟩)
    (hzi : zi < nzones) (hsize : size = chunkSizeOf zi) (hlimit : size ≤ h.zoneLimit) :
    exists place', Slabbed lo hi (initZone h zi z size).2 (z :: zones)
      ((initZone h zi z size).1 :: live) place' free large table := by
  have hmin : zallocMinZoneSize ≤ h.zoneSize := by
    have hsizes := hs.sized.zoneSize
    unfold zallocMinZoneSize
    omega
  have hfit : 4 * size ≤ h.zoneSize := by
    have hlim := hs.limit.2
    omega
  have hchunked := @chunked_init h.zoneSize z h.cNext zi size (h.zoneArray zi) hzi hsize hfit hmin
  have hmany := hchunked.many
  have hc : InZone h.zoneSize z (z + chunkOffset size) := hchunked.lt (by simp)
  have hbytes := hs.zone_bytes
  have hpos := hs.zonePageCnt_pos
  have hap := hs.table_apart
  have hspaced : forall y, y ∈ zones -> Spaced h.zoneSize z y := by
    intro y hy
    have happ := hap.2 y hy
    have hya := hs.aligned y hy
    unfold Apart zoneRun Extent.stop at happ
    unfold Spaced
    unfold pageSize at *
    simp only at happ
    omega
  have hzm : z ∉ zones := by
    intro hin
    have hself := hspaced z hin
    unfold Spaced at hself
    have hsizes := hs.sized.zoneSize
    omega
  have hnone : forall p, p ∈ live -> ¬InZone h.zoneSize z p := by
    intro p hp hin
    rw [inZone_iff hz hbytes] at hin
    exact hs.fresh hap.1 hap.2 hp hin
  have hempty : inside h.zoneSize z live = [] := by
    rw [inside, List.filter_eq_nil_iff]
    intro p hp
    simpa using hnone p hp
  have hfree : 0 < (h.zoneSize - chunkOffset size) / size - 1 := by
    have hmany' : 2 ≤ (h.zoneSize - chunkOffset size) / size := hmany
    omega
  have hstart := hs.zoned.start hspaced hzm hempty hc hchunked rfl hfree rfl rfl
  have hnew : z + chunkOffset size ∉ live := fun hin => hnone _ hin hc
  have hall : Slabbed lo hi { h with
      zone := update h.zone z
        { magic := zallocSlabMagic
          nfree := (h.zoneSize - chunkOffset size) / size - 1
          nmax := (h.zoneSize - chunkOffset size) / size
          next := h.zoneArray zi
          baseptr := z + chunkOffset size
          uindex := 0
          chunksize := size
          zoneindex := zi
          freechunk := none }
      zoneArray := update h.zoneArray zi (some z) }
      (z :: zones) ((z + chunkOffset size) :: live)
      (update place z (some (some zi))) free large table := by
    refine ⟨?_, hs.bound, hs.start, ⟨hs.sized.zoneSize, hs.sized.zoneLimit,
      hs.sized.zonePageCnt⟩, ?_, hstart, ?_, hs.largeUsage, ?_, ?_,
      List.nodup_cons.mpr ⟨hnew, hs.nodup⟩⟩
    · apply hs.pages.perm
      exact List.perm_middle.append_left large
    · intro y hy
      rcases List.mem_cons.mp hy with rfl | hy
      · exact hz
      · exact hs.aligned y hy
    · intro y hy
      rcases List.mem_cons.mp hy with rfl | hy
      · exact husage
      · exact hs.zoneUsage y hy
    · intro p hp
      rcases List.mem_cons.mp hp with rfl | hp
      · exact Or.inr ⟨z, List.mem_cons_self, hc⟩
      · rcases hs.known p hp with he | ⟨y, hy, hin⟩
        · exact Or.inl he
        · exact Or.inr ⟨y, List.mem_cons_of_mem z hy, hin⟩
    · intro e he
      exact List.mem_cons_of_mem _ (hs.held e he)
  exact ⟨_, hall.noteUsed size⟩

/-!
## Chunks
-/

theorem takeChunk_spec {zi : Nat} (hs : Slabbed lo hi h zones live place free large table)
    (hhead : h.zoneArray zi = some z) (hsize : size = chunkSizeOf zi) :
    exists c h', takeChunk h zi z size = some (c, h') ∧
      exists place', Slabbed lo hi h' zones (c :: live) place' free large table := by
  have hplace : place z = some (some zi) := hs.zoned.lists.place_head (b := some zi) hhead
  have hzm : z ∈ zones := by
    by_contra hnot
    rw [hs.zoned.outside z hnot] at hplace
    cases hplace
  have hok := hs.zoned.placed z hzm
  rw [hplace] at hok
  have hfree : (h.zone z).nfree ≠ 0 := Nat.ne_of_gt hok.2.1
  rcases hs.zoned.chunked z hzm with ⟨chain, hchunked⟩
  have hsz : size = (h.zone z).chunksize := by
    rw [hsize, hchunked.size, hok.1]
  -- what both ways to find a chunk have in common
  have hfinish : forall (c : Nat) (v : SlabZone) (rest : List Nat),
      Chunked h.zoneSize v h.cNext z rest (c :: inside h.zoneSize z live) ->
      v.zoneindex = (h.zone z).zoneindex -> v.magic = (h.zone z).magic ->
      v.nfree = (h.zone z).nfree - 1 ->
      v.next = (if (h.zone z).nfree - 1 = 0 then none else (h.zone z).next) ->
      exists place', Slabbed lo hi
        ((if (h.zone z).nfree - 1 = 0 then h.setArray zi (h.zone z).next else h).setZone z v)
        zones (c :: live) place' free large table := by
    intro c v rest hv hindex hmagic hnfree hnext
    have hin : InZone h.zoneSize z c := hv.lt (by simp)
    have hnew : c ∉ live := by
      intro hin'
      have hnodup := (List.nodup_append.mp hv.nodup).2.1
      exact (List.nodup_cons.mp hnodup).1 (mem_inside.mpr ⟨hin', hin⟩)
    rw [← hnfree] at hnext
    rcases hs.zoned.take hhead hv hindex hmagic hnext with ⟨place', hz⟩
    have hall := hs.with_zoned hz (by
        intro p hp
        rcases List.mem_cons.mp hp with rfl | hp
        · exact Or.inr ⟨z, hzm, hin⟩
        · exact Or.inl hp)
      (fun p hp _ => List.mem_cons_of_mem c hp) (List.nodup_cons.mpr ⟨hnew, hs.nodup⟩)
    refine ⟨place', ?_⟩
    rw [hnfree] at hall
    split
    · rename_i hzero
      rw [if_pos hzero] at hall
      exact hall
    · rename_i hzero
      rw [if_neg hzero] at hall
      exact hall
  unfold takeChunk
  simp only [hfree, if_false]
  by_cases htail : (h.zone z).uindex + 1 ≠ (h.zone z).nmax
  · rw [if_pos htail]
    have hv := hchunked.take_tail htail (if (h.zone z).nfree - 1 = 0 then none else (h.zone z).next)
    rcases hfinish _ _ chain hv rfl rfl rfl rfl with ⟨place', hall⟩
    rw [hsz]
    exact ⟨_, _, rfl, place', hall.noteUsed _⟩
  · rw [if_neg htail]
    rw [not_not] at htail
    rcases hchunked.take_chain htail hfree
      (if (h.zone z).nfree - 1 = 0 then none else (h.zone z).next) with
      ⟨c, rest, _, hchain, hv⟩
    rcases hfinish c _ rest hv rfl rfl rfl rfl with ⟨place', hall⟩
    rw [hchain]
    have hlinks : (if (h.zone z).nfree - 1 = 0 then h.setArray zi (h.zone z).next
        else h).cNext c = h.cNext c := by
      split <;> rfl
    simp only [hlinks]
    exact ⟨_, _, rfl, place', hall.noteUsed _⟩

theorem mallocSmall_spec (hs : Slabbed lo hi h zones live place free large table)
    (hpos : 0 < size) (hlimit : size < h.zoneLimit) :
    Allocated lo hi table live (mallocSmall h size) := by
  rcases zoneindex_spec hpos hlimit hs.limit.1 with ⟨hzi, _, hsize, hle⟩
  have hlocked := hs.lock
  unfold mallocSmall
  simp only [Nat.not_le.mpr hzi, if_false]
  cases hhead : h.lock.zoneArray (zoneindex size).1 with
  | some z =>
    rcases takeChunk_spec hlocked hhead hsize with ⟨c, h', htake, place', hall⟩
    simp only [htake]
    exact ⟨some c, _, rfl, zones, place', free, large, hall.unlock⟩
  | none =>
    cases hfree : h.lock.zoneFree with
    | some z =>
      rcases hlocked.drop_zone hfree with ⟨hz, husage, place', hdrop⟩
      have hcount := hdrop.account h.lock.toPageHeap rfl rfl rfl (h.lock.zoneFreeCnt - 1)
        h.lock.usedMem h.lock.maxMem
      rcases initZone_spec hz hcount husage hzi hsize hle with ⟨place2, hall⟩
      exact ⟨_, _, rfl, _, place2, free, large, hall.unlock⟩
    | none =>
      have hunlocked := hlocked.unlock
      have hpages : h.lock.unlock.zoneSize / pageSize = h.lock.unlock.zonePageCnt :=
        hunlocked.sized.zonePageCnt.symm
      simp only [hpages]
      rcases rtPageAlloc_spec hunlocked.pages hunlocked.bound hunlocked.zonePageCnt_pos with
        ⟨_, pages, halloc, hp⟩ | ⟨_, a, pages, free', halloc, hp⟩
      · rw [halloc]
        exact ⟨none, _, rfl, zones, place, free, large, (hunlocked.new_pages hp).unlock⟩
      · rw [halloc]
        have hz : a * pageSize % pageSize = 0 := Nat.mul_mod_left _ _
        have hrun : (⟨a, h.lock.unlock.zonePageCnt⟩ : Extent) =
            zoneRun h.lock.unlock.zonePageCnt (a * pageSize) := by
          rw [zoneRun, Nat.mul_div_cancel _ (by decide : 0 < pageSize)]
        rw [hrun] at hp
        have htable := (hunlocked.add_table hp).lock
        rcases Slabbed.set_usage hz htable fun off => ⟨PageType.small, off⟩ with
          ⟨hset, husage⟩
        rcases initZone_spec hz hset husage hzi hsize hle with ⟨place2, hall⟩
        exact ⟨_, _, rfl, _, place2, free', large, hall.unlock⟩

theorem rtMalloc_spec (hs : Slabbed lo hi h zones live place free large table) (size : Nat) :
    Allocated lo hi table live (rtMalloc h size) := by
  unfold rtMalloc
  split
  · exact ⟨none, h, rfl, zones, place, free, large, hs⟩
  · rename_i hpos
    split
    · exact mallocLarge_spec hs size
    · rename_i hlimit
      exact mallocSmall_spec hs (Nat.pos_of_ne_zero hpos) (Nat.not_le.mp hlimit)

/-!
## Release
-/

theorem Slabbed.zoneOf (hs : Slabbed lo hi h zones live place free large table)
    (hz : z ∈ zones) (hp : InZone h.zoneSize z p) :
    h.memusage (h.btokup (rtAlignDown p pageSize)) =
        ⟨PageType.small, p / pageSize - z / pageSize⟩ ∧ Slab.zoneOf h p = z := by
  have hrun := (hs.inZone_iff hz).mp hp
  have husage : h.memusage (h.btokup (rtAlignDown p pageSize)) =
      ⟨PageType.small, p / pageSize - z / pageSize⟩ := by
    rw [hs.btokup]
    exact hs.zoneUsage z hz _ hrun
  refine ⟨husage, ?_⟩
  have halign := hs.aligned z hz
  unfold InZone at hp
  simp only [Slab.zoneOf, husage]
  unfold rtAlignDown
  unfold pageSize at *
  omega

theorem releaseChunk_spec (hs : Slabbed lo hi h zones live place free large table)
    (hz : z ∈ zones) (hp : p ∈ live) (hin : InZone h.zoneSize z p) :
    Slabbed lo hi (releaseChunk h z p) zones (live.erase p)
      (update place z (some (some (h.zone z).zoneindex))) free large table := by
  have hgive := hs.zoned.give hz (mem_inside.mpr ⟨hp, hin⟩) (List.perm_cons_erase hp)
  have hall := hs.with_zoned hgive (fun q hq => Or.inl (List.mem_of_mem_erase hq)) (by
      intro q hq hout
      rw [hs.nodup.mem_erase_iff]
      refine ⟨?_, hq⟩
      rintro rfl
      exact hout z hz hin)
    (hs.nodup.erase p)
  have hfreed := hall.noteFreed (h.zone z).chunksize
  unfold releaseChunk
  simp only
  split
  · rename_i hzero
    rw [if_pos hzero, if_pos hzero] at hfreed
    exact hfreed
  · rename_i hzero
    rw [if_neg hzero, if_neg hzero] at hfreed
    exact hfreed

theorem Slabbed.zones_length (hs : Slabbed lo hi h zones live place free large table) :
    zones.length ≤ pageCount := by
  have hsize := hs.sized.zoneSize
  have hpos := hs.zonePageCnt_pos
  have hbound := hs.bound
  have hnodup : (zones.map fun z => z / pageSize).Nodup := by
    refine List.pairwise_map.mpr (hs.zoned.spaced.imp_of_mem ?_)
    intro y z hy hz hsp heq
    have hya := hs.aligned y hy
    have hza := hs.aligned z hz
    unfold Spaced at hsp
    unfold pageSize at *
    omega
  have hsub : (zones.map fun z => z / pageSize) ⊆ List.range pageCount := by
    intro x hx
    rcases List.mem_map.mp hx with ⟨z, hz, rfl⟩
    have hin := hs.pages.within (List.mem_append_right free
      (Slabbed.mem_zone (n := h.zonePageCnt) hz))
    unfold zoneRun Extent.stop at hin
    rw [List.mem_range]
    simp only at hin
    omega
  have hle := hnodup.length_le_of_subset hsub
  rw [List.length_map, List.length_range] at hle
  exact hle

theorem retireZone_spec (hs : Slabbed lo hi h zones live place free large table)
    (hz : z ∈ zones) (hplace : place z = some (some (h.zone z).zoneindex))
    (hempty : inside h.zoneSize z live = []) :
    Released lo hi table live (retireZone h z) := by
  rcases unlinkZone_zoned hs.zoned hz hplace hempty hs.zones_length with ⟨zone', zoneArray',
    hunlink, hzoned⟩
  have hall := hs.with_zoned hzoned (fun q hq => Or.inl hq) (fun q hq _ => hq) hs.nodup
  unfold retireZone
  rw [hunlink]
  simp only
  split
  · have hcount := hall.account h.toPageHeap rfl rfl rfl (h.zoneFreeCnt + 1 - 1) h.usedMem h.maxMem
    rcases hcount.drop_zone rfl with ⟨halign, _, place2, hdrop⟩
    rcases Slabbed.set_usage halign hdrop fun _ => ⟨PageType.free, 0⟩ with ⟨hset, _⟩
    rcases hset.unlock.free_table with ⟨pages, free', hfree, hdone⟩
    refine ⟨_, ?_, zones.erase z, place2, free', large, hdone⟩
    have hsize : h.zoneSize / pageSize = h.zonePageCnt := hs.sized.zonePageCnt.symm
    show (rtPageFree h.toPageHeap.unlock (z / pageSize) (h.zoneSize / pageSize)).map _ = _
    rw [hsize]
    exact congrArg (Option.map _) hfree
  · exact ⟨_, rfl, zones, _, free, large, (hall.account h.toPageHeap rfl rfl rfl _ _ _).unlock⟩

theorem releaseChunk_zoneindex :
    ((releaseChunk h z p).zone z).zoneindex = (h.zone z).zoneindex := by
  unfold releaseChunk
  simp only
  split <;> simp [Heap.setZone, Heap.setArray]

theorem Slabbed.magic (hs : Slabbed lo hi h zones live place free large table)
    (hz : z ∈ zones) (hp : p ∈ live) (hin : InZone h.zoneSize z p) :
    (h.zone z).magic = zallocSlabMagic := by
  have hok := hs.zoned.placed z hz
  rcases hplace : place z with _ | _ | zi
  · rw [hplace] at hok
    exact hok.2
  · rw [hplace] at hok
    have hnil : inside h.zoneSize z live = [] := hok
    have hmem : p ∈ inside h.zoneSize z live := mem_inside.mpr ⟨hp, hin⟩
    rw [hnil] at hmem
    cases hmem
  · rw [hplace] at hok
    exact hok.2.2

theorem Slabbed.live_perm {live' : List Nat}
    (hs : Slabbed lo hi h zones live place free large table) (hperm : live.Perm live') :
    Slabbed lo hi h zones live' place free large table :=
  ⟨hs.pages, hs.bound, hs.start, hs.sized, hs.aligned,
    hs.zoned.live_congr fun _ _ => hperm.filter _, hs.zoneUsage, hs.largeUsage,
    fun p hp => hs.known p (hperm.mem_iff.mpr hp), fun e he => hperm.mem_iff.mp (hs.held e he),
    hperm.nodup_iff.mp hs.nodup⟩

theorem freeSmall_spec (hs : Slabbed lo hi h zones live place free large table)
    (hz : z ∈ zones) (hp : p ∈ live) (hin : InZone h.zoneSize z p) :
    Released lo hi table (live.erase p) (freeSmall h p) := by
  have hlocked := hs.lock
  have hzone : Slab.zoneOf h.lock p = z := (hlocked.zoneOf hz hin).2
  have hmagic : (h.lock.zone z).magic = zallocSlabMagic := hs.magic hz hp hin
  have hreleased := releaseChunk_spec hlocked hz hp hin
  unfold freeSmall
  simp only [hzone, hmagic, ne_eq, not_true_eq_false, if_false]
  split
  · rename_i hfull
    rcases hreleased.zoned.chunked z hz with ⟨chain, hchunked⟩
    have hcount := hchunked.nfree_add
    have hempty : inside (releaseChunk h.lock z p).zoneSize z (live.erase p) = [] := by
      rw [← List.length_eq_zero_iff]
      omega
    refine retireZone_spec hreleased hz ?_ hempty
    rw [update_self, releaseChunk_zoneindex]
  · exact ⟨_, rfl, zones, _, free, large, hreleased.unlock⟩

theorem rtFree_spec (hs : Slabbed lo hi h zones live place free large table) (hp : p ∈ live) :
    Released lo hi table (live.erase p) (rtFree h (some p)) := by
  rcases hs.known p hp with ⟨e, he, rfl⟩ | ⟨z, hz, hin⟩
  · have husage := hs.largeUsage e he
    have hkup : h.btokup (rtAlignDown (e.start * pageSize) pageSize) = e.start - lo := by
      rw [hs.btokup, Nat.mul_div_cancel _ (by decide : 0 < pageSize)]
    simp only [rtFree, hkup, husage]
    exact freeLarge_spec hs he
  · simp only [rtFree, (hs.zoneOf hz hin).1]
    exact freeSmall_spec hs hz hp hin

/-- What `rt_realloc` of a live pointer leaves: the pointer is replaced, or all is as it
was. -/
def Moved (lo hi : Nat) (table : List Extent) (live : List Nat) (p : Nat)
    (r : Option (Option Nat × Heap)) : Prop :=
  exists q h', r = some (q, h') ∧ exists zones place free large,
    Slabbed lo hi h' zones (match q with
      | none => live
      | some q => q :: live.erase p) place free large table

theorem reallocMove_spec (hs : Slabbed lo hi h zones live place free large table)
    (hp : p ∈ live) (size : Nat) : Moved lo hi table live p (reallocMove h p size) := by
  unfold reallocMove
  rcases rtMalloc_spec hs size with ⟨q, h1, hmalloc, zones1, place1, free1, large1, hs1⟩
  rw [hmalloc]
  cases q with
  | none => exact ⟨none, h1, rfl, zones1, place1, free1, large1, hs1⟩
  | some q =>
    have hnew : q ∉ live := (List.nodup_cons.mp hs1.nodup).1
    have hne : q ≠ p := by
      rintro rfl
      exact hnew hp
    rcases rtFree_spec hs1 (List.mem_cons_of_mem q hp) with
      ⟨h2, hfree, zones2, place2, free2, large2, hs2⟩
    simp only [hfree]
    refine ⟨some q, h2, rfl, zones2, place2, free2, large2, ?_⟩
    rw [show (some q).toList ++ live = q :: live from rfl,
      List.erase_cons_tail (by simpa using hne)]
      at hs2
    exact hs2

theorem rtRealloc_spec (hs : Slabbed lo hi h zones live place free large table)
    (hp : p ∈ live) (hsize : size ≠ 0) :
    Moved lo hi table live p (rtRealloc h (some p) size) := by
  unfold rtRealloc
  simp only [hsize, if_false]
  split
  · exact reallocMove_spec hs hp size
  · rename_i htype
    have hmagic : (h.zone (Slab.zoneOf h p)).magic = zallocSlabMagic := by
      rcases hs.known p hp with ⟨e, he, rfl⟩ | ⟨z, hz, hin⟩
      · rw [hs.btokup, Nat.mul_div_cancel _ (by decide : 0 < pageSize),
          hs.largeUsage e he] at htype
        cases htype
      · rw [(hs.zoneOf hz hin).2]
        exact hs.magic hz hp hin
    simp only [hmagic, ne_eq, not_true_eq_false, if_false]
    split
    · exact ⟨some p, h, rfl, zones, place, free, large, hs.live_perm (List.perm_cons_erase hp)⟩
    · exact reallocMove_spec hs hp _
  · exact ⟨none, h, rfl, zones, place, free, large, hs⟩

end Slabbed

/-!
## Initialisation
-/

theorem zoneSizeFor_cases (limsize : Nat) : zoneSizeFor limsize 2 zallocMinZoneSize = 32768 ∨
      zoneSizeFor limsize 2 zallocMinZoneSize = 65536 ∨
      zoneSizeFor limsize 2 zallocMinZoneSize = 131072 := by
  unfold zoneSizeFor
  split
  · unfold zoneSizeFor
    split
    · exact Or.inr (Or.inr rfl)
    · exact Or.inr (Or.inl rfl)
  · exact Or.inl rfl

theorem rtPageAlloc_first {lo hi : Nat} {pages : PageHeap} {free : List Extent}
    (hp : Pages lo hi pages free []) (hhi : hi ≤ pageCount) (n : Nat) :
    exists r pages' free' table, rtPageAlloc pages n = some (r, pages') ∧
      Pages lo hi pages' free' table := by
  rcases Nat.eq_zero_or_pos n with rfl | hpos
  · exact ⟨none, pages, free, [], rtPageAlloc_zero, hp⟩
  · rcases rtPageAlloc_spec hp hhi hpos with
      ⟨_, pages', halloc, hp'⟩ | ⟨_, a, pages', free', halloc, hp'⟩
    · exact ⟨none, pages', free, [], halloc, hp'⟩
    · exact ⟨some a, pages', free', _, halloc, hp'⟩

theorem zoned_nil (zoneSize : Nat) (zone : Nat -> SlabZone) (cNext : Nat -> Option Nat) :
    Zoned zoneSize zone cNext (fun _ => none) none [] [] (fun _ => none) := by
  refine ⟨List.Pairwise.nil, nofun, nofun, fun _ _ => rfl, ?_⟩
  intro b
  refine ⟨[], List.nodup_nil, ?_, by simp⟩
  cases b <;> rfl

theorem pages_between {a e : Nat} (ha : a % pageSize = 0) (he : e % pageSize = 0) (hlt : a < e)
    (hend : e < 2 ^ 32) :
    0 < (e - a) / pageSize ∧ a / pageSize + (e - a) / pageSize ≤ pageCount := by
  unfold pageCount
  unfold pageSize at *
  omega

theorem rtSystemHeapInit_spec {h0 h : Heap} {beginAddr endAddr : Nat}
    (hend : endAddr < 2 ^ 32) (hinit : rtSystemHeapInit h0 beginAddr endAddr = some h) :
    exists lo hi free table, Slabbed lo hi h [] [] (fun _ => none) free [] table := by
  have haligned := rtAlign_mod beginAddr pageSize
  have hdown := rtAlignDown_le endAddr pageSize
  have hdownmod := rtAlignDown_mod endAddr pageSize
  unfold rtSystemHeapInit at hinit
  simp only at hinit
  split at hinit
  · cases hinit
  · rename_i hlt
    obtain ⟨hpos, hfit⟩ := pages_between haligned hdownmod (Nat.not_le.mp hlt)
      (Nat.lt_of_le_of_lt hdown hend)
    rcases @rtPageInit_spec { h0 with heapSem := [] }.toPageHeap _ _ hpos hfit with
      ⟨pages, free, hpages, hp⟩
    rw [hpages] at hinit
    simp only at hinit
    rcases rtPageAlloc_first hp hfit (rtAlign ((rtAlignDown endAddr pageSize -
      rtAlign beginAddr pageSize) / pageSize * 4) pageSize / pageSize) with
      ⟨r, pages', free', table, halloc, hp'⟩
    rw [halloc] at hinit
    cases hinit
    refine ⟨_, _, free', table, hp', hfit, ?_, ⟨zoneSizeFor_cases _, rfl, rfl⟩, nofun,
      zoned_nil _ _ _, nofun, nofun, nofun, nofun, List.nodup_nil⟩
    show rtAlign beginAddr pageSize = rtAlign beginAddr pageSize / pageSize * pageSize
    exact (Nat.div_mul_cancel (Nat.dvd_of_mod_eq_zero haligned)).symm

/-!
## Runs
-/

structure SlabSystem where
  heap : Heap
  live : List Nat

def Call.OnLive (live : List Nat) : Call -> Prop
  | Call.free (some p) => p ∈ live
  | Call.realloc (some p) _ => p ∈ live
  | _ => True

instance {live : List Nat} : (c : Call) -> Decidable (c.OnLive live)
  | Call.malloc _ => isTrue trivial
  | Call.free none => isTrue trivial
  | Call.free (some p) => inferInstanceAs (Decidable (p ∈ live))
  | Call.realloc none _ => isTrue trivial
  | Call.realloc (some p) _ => inferInstanceAs (Decidable (p ∈ live))
  | Call.calloc _ _ => isTrue trivial

/-- The pointers in use after a call that returns `r`. -/
def liveAfter (live : List Nat) : Call -> Option Nat -> List Nat
  | Call.malloc _, r => r.toList ++ live
  | Call.calloc _ _, r => r.toList ++ live
  | Call.free none, _ => live
  | Call.free (some p), _ => live.erase p
  | Call.realloc none _, r => r.toList ++ live
  | Call.realloc (some p) size, r =>
    if size = 0 then live.erase p
    else match r with
      | none => live
      | some q => q :: live.erase p

def slabStep (s : SlabSystem) (c : Call) : Option SlabSystem :=
  if c.OnLive s.live then (call s.heap c).map fun r => ⟨r.2, liveAfter s.live c r.1⟩
  else none

section Runs

variable {lo hi : Nat} {table : List Extent} {s s' : SlabSystem} {c : Call}

def SlabOk (lo hi : Nat) (table : List Extent) (s : SlabSystem) : Prop :=
  exists zones place free large, Slabbed lo hi s.heap zones s.live place free large table

theorem SlabOk.call (hs : SlabOk lo hi table s) (hc : c.OnLive s.live) :
    exists r h', call s.heap c = some (r, h') ∧
      SlabOk lo hi table ⟨h', liveAfter s.live c r⟩ := by
  rcases hs with ⟨zones, place, free, large, hs⟩
  cases c with
  | malloc size => exact rtMalloc_spec hs size
  | calloc count size => exact rtMalloc_spec hs _
  | free ptr =>
    cases ptr with
    | none => exact ⟨none, s.heap, rfl, zones, place, free, large, hs⟩
    | some p =>
      rcases rtFree_spec hs hc with ⟨h', hfree, hok⟩
      refine ⟨none, h', ?_, hok⟩
      show (rtFree s.heap (some p)).map _ = _
      rw [hfree]
      rfl
  | realloc ptr size =>
    cases ptr with
    | none => exact rtMalloc_spec hs size
    | some p =>
      by_cases hsize : size = 0
      · subst hsize
        rcases rtFree_spec hs hc with ⟨h', hfree, hok⟩
        refine ⟨none, h', ?_, hok⟩
        show (rtFree s.heap (some p)).map _ = _
        rw [hfree]
        rfl
      · rcases rtRealloc_spec hs hc hsize with ⟨q, h', hrealloc, hok⟩
        refine ⟨q, h', hrealloc, ?_⟩
        simp only [liveAfter, if_neg hsize]
        exact hok

theorem SlabOk.step (hs : SlabOk lo hi table s) (hstep : slabStep s c = some s') :
    SlabOk lo hi table s' := by
  unfold slabStep at hstep
  split at hstep
  · rename_i hc
    rcases hs.call hc with ⟨r, h', hcall, hok⟩
    rw [hcall] at hstep
    cases hstep
    exact hok
  · cases hstep

/-- The count of free chunks is that of the unused tail and the chain; no chunk is twice in
the chain or in use, or both; the chunks lie behind the header in the zone and do not
overlap. -/
structure ZoneInvariant (h : Heap) (live : List Nat) (z : Nat) (chain : List Nat) : Prop where
  freechunk : Linked h.cNext (h.zone z).freechunk chain
  nfree : (h.zone z).nfree = (h.zone z).nmax - 1 - (h.zone z).uindex + chain.length
  uindex : (h.zone z).uindex < (h.zone z).nmax
  nodup : (chain ++ inside h.zoneSize z live).Nodup
  within : forall c, c ∈ chain ++ inside h.zoneSize z live ->
    z + sizeofZone ≤ c ∧ c + (h.zone z).chunksize ≤ z + h.zoneSize
  apart : forall c d, c ∈ chain ++ inside h.zoneSize z live ->
    d ∈ chain ++ inside h.zoneSize z live -> c ≠ d ->
    c + (h.zone z).chunksize ≤ d ∨ d + (h.zone z).chunksize ≤ c

/-- What holds of the heap: of its zones, of which some are spare, of the large
allocations and of the live pointers. -/
structure SlabInvariant (h : Heap) (live zones spare : List Nat) (large : List Extent) :
    Prop where
  zone : forall z, z ∈ zones -> exists chain, ZoneInvariant h live z chain
  runs : (large ++ zones.map (zoneRun h.zonePageCnt)).Pairwise Apart
  zoneArray : forall zi, exists l, l.Nodup ∧ Linked (nextZone h.zone) (h.zoneArray zi) l ∧
    forall z, z ∈ l <-> z ∈ zones ∧ z ∉ spare ∧ (h.zone z).zoneindex = zi ∧
      0 < (h.zone z).nfree
  zoneFree : Linked (nextZone h.zone) h.zoneFree spare
  empty : forall z, z ∈ spare -> z ∈ zones ∧ (h.zone z).nfree = (h.zone z).nmax
  zoneUsage : forall z, z ∈ zones -> forall p, InZone h.zoneSize z p ->
    (h.memusage (h.btokup (rtAlignDown p pageSize))).type = PageType.small ∧ zoneOf h p = z
  largeUsage : forall e, e ∈ large ->
    h.memusage (h.btokup (e.start * pageSize)) = ⟨PageType.large, e.size⟩
  nodup : live.Nodup
  known : forall p, p ∈ live -> (exists e, e ∈ large ∧ p = e.start * pageSize) ∨
    exists z, z ∈ zones ∧ z ∉ spare ∧ p ∈ inside h.zoneSize z live

theorem SlabOk.invariant (hs : SlabOk lo hi table s) :
    exists zones spare large, SlabInvariant s.heap s.live zones spare large := by
  rcases hs with ⟨zones, place, free, large, hs⟩
  rcases hs.zoned.lists none with ⟨spare, _, hspare, hmem⟩
  have hin : forall z, z ∈ spare -> z ∈ zones := by
    intro z hz
    by_contra hnot
    rw [hmem z, hs.zoned.outside z hnot] at hz
    cases hz
  have hempty : forall z, z ∈ spare -> inside s.heap.zoneSize z s.live = [] := by
    intro z hz
    have hok := hs.zoned.placed z (hin z hz)
    rw [(hmem z).mp hz] at hok
    exact hok
  refine ⟨zones, spare, large, ?_, ?_, ?_, hspare, ?_, ?_, ?_, hs.nodup, ?_⟩
  · intro z hz
    rcases hs.zoned.chunked z hz with ⟨chain, hc⟩
    exact ⟨chain, hc.links, hc.count, hc.tail, hc.nodup, fun c hcc => hc.inside hcc,
      fun c d hcc hdd hne => hc.apart hcc hdd hne⟩
  · have hruns := (List.pairwise_append.mp hs.pages.apart).2.1
    unfold runsOf at hruns
    rw [← List.append_assoc] at hruns
    exact (List.pairwise_append.mp hruns).1
  · intro zi
    rcases hs.zoned.lists (some zi) with ⟨l, hnodup, hl, hmem'⟩
    refine ⟨l, hnodup, hl, ?_⟩
    intro z
    rw [hmem' z]
    constructor
    · intro hplace
      have hz : z ∈ zones := by
        by_contra hnot
        rw [hs.zoned.outside z hnot] at hplace
        cases hplace
      have hok := hs.zoned.placed z hz
      rw [hplace] at hok
      refine ⟨hz, ?_, hok.1, hok.2.1⟩
      rw [hmem z, hplace]
      nofun
    · rintro ⟨hz, hnot, hindex, hfree⟩
      have hok := hs.zoned.placed z hz
      rcases hplace : place z with _ | _ | zj
      · rw [hplace] at hok
        exact absurd hok.1 (Nat.ne_of_gt hfree)
      · exact absurd ((hmem z).mpr hplace) hnot
      · rw [hplace] at hok
        rw [← hindex, hok.1]
  · intro z hz
    refine ⟨hin z hz, ?_⟩
    rcases hs.zoned.chunked z (hin z hz) with ⟨chain, hc⟩
    have hcount := hc.nfree_add
    rw [hempty z hz] at hcount
    exact hcount
  · intro z hz p hp
    have hzone := hs.zoneOf hz hp
    rw [hzone.1]
    exact ⟨rfl, hzone.2⟩
  · intro e he
    have hdown : rtAlignDown (e.start * pageSize) pageSize = e.start * pageSize := by
      unfold rtAlignDown
      rw [Nat.mul_mod_left, Nat.sub_zero]
    rw [← hdown, hs.btokup, Nat.mul_div_cancel _ (by decide : 0 < pageSize)]
    exact hs.largeUsage e he
  · intro p hp
    rcases hs.known p hp with he | ⟨z, hz, hpz⟩
    · exact Or.inl he
    · have hmemp : p ∈ inside s.heap.zoneSize z s.live := mem_inside.mpr ⟨hp, hpz⟩
      refine Or.inr ⟨z, hz, ?_, hmemp⟩
      intro hsp
      rw [hempty z hsp] at hmemp
      cases hmemp

/-- In every run of the slab heap on live pointers the zones, the lists of zones, the
chunks and the usage table agree, and every call on live pointers returns. -/
theorem slab_zones_consistent {h0 h : Heap} {beginAddr endAddr : Nat} {calls : List Call}
    (hend : endAddr < 2 ^ 32) (hinit : rtSystemHeapInit h0 beginAddr endAddr = some h)
    (hrun : Run (Graph slabStep) ⟨h, []⟩ calls s) :
    (exists zones spare large, SlabInvariant s.heap s.live zones spare large) ∧
      forall c, c.OnLive s.live -> slabStep s c ≠ none := by
  rcases rtSystemHeapInit_spec hend hinit with ⟨lo, hi, free, table, hs⟩
  have hok : SlabOk lo hi table s := by
    apply hrun.invariant (SlabOk lo hi table)
    · exact ⟨[], _, free, [], hs⟩
    · intro s c s' hs hstep
      exact hs.step hstep
  refine ⟨hok.invariant, ?_⟩
  intro c hc
  rcases hok.call hc with ⟨r, h', hcall, _⟩
  unfold slabStep
  rw [if_pos hc, hcall]
  nofun

/-- A heap of twenty pages: two chunks of one size, a large allocation, and the first
chunk is given back. -/
theorem slab_zones_consistent_sample :
    exists h s, rtSystemHeapInit Heap.blank 0x10000 0x24000 = some h ∧
      exec slabStep ⟨h, []⟩ [Call.malloc 20, Call.malloc 24, Call.malloc 8192,
        Call.free (some 0x11028)] = some s ∧
      s.live = [0x19000, 0x11040] ∧
      (exists zones spare large, SlabInvariant s.heap s.live zones spare large) ∧
      forall c, c.OnLive s.live -> slabStep s c ≠ none := by
  have hlive : ((rtSystemHeapInit Heap.blank 0x10000 0x24000).bind fun h =>
      exec slabStep ⟨h, []⟩ [Call.malloc 20, Call.malloc 24, Call.malloc 8192,
        Call.free (some 0x11028)]).map SlabSystem.live = some [0x19000, 0x11040] := by
    decide +kernel
  rw [Option.map_eq_some_iff] at hlive
  rcases hlive with ⟨s, hbind, hlive⟩
  rw [Option.bind_eq_some_iff] at hbind
  rcases hbind with ⟨h, hinit, hexec⟩
  exact ⟨h, s, hinit, hexec, hlive,
    slab_zones_consistent (by decide) hinit (run_of_exec hexec)⟩

end Runs

end Slab
end RtThread.Mem
