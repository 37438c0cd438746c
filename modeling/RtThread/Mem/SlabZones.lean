import RtThread.Library.Buckets
import RtThread.Mem.SlabChunks
import Mathlib.Data.List.Pairwise

/-!
# The zones of the slab heap

A zone with a free chunk is in the list of `zone_array` for its chunk size, or, when no
chunk of it is in use, possibly in `zone_free`; a zone without a free chunk is in no
list.  Both kinds of list use `z_next`.
-/

namespace RtThread.Mem

open Kernel Chain Buckets
open Function (update update_eq_self update_idem update_of_ne update_self)

namespace Slab

def nextZone (zone : Nat -> SlabZone) (z : Nat) : Option Nat := (zone z).next

/-- The heads of the lists: that of `zone_free` and those of `zone_array`. -/
def zoneHeads (zoneArray : Nat -> Option Nat) (zoneFree : Option Nat) :
    Option Nat -> Option Nat
  | none => zoneFree
  | some zi => zoneArray zi

/-- An address in the zone at `z`. -/
def InZone (zoneSize z p : Nat) : Prop := z ≤ p ∧ p < z + zoneSize

instance {zoneSize z p : Nat} : Decidable (InZone zoneSize z p) :=
  inferInstanceAs (Decidable (_ ∧ _))

def inside (zoneSize z : Nat) (live : List Nat) : List Nat :=
  live.filter fun p => InZone zoneSize z p

def Spaced (zoneSize z z' : Nat) : Prop := z + zoneSize ≤ z' ∨ z' + zoneSize ≤ z

instance {zoneSize : Nat} : Std.Symm (Spaced zoneSize) := ⟨fun _ _ => Or.symm⟩

def PlaceOk (zone : SlabZone) (used : List Nat) : Option (Option Nat) -> Prop
  | none => zone.nfree = 0 ∧ zone.magic = zallocSlabMagic
  | some (some zi) => zone.zoneindex = zi ∧ 0 < zone.nfree ∧ zone.magic = zallocSlabMagic
  | some none => used = []

structure Zoned (zoneSize : Nat) (zone : Nat -> SlabZone) (cNext : Nat -> Option Nat)
    (zoneArray : Nat -> Option Nat) (zoneFree : Option Nat) (zones live : List Nat)
    (place : Nat -> Option (Option Nat)) : Prop where
  spaced : zones.Pairwise (Spaced zoneSize)
  chunked : forall z, z ∈ zones ->
    exists chain, Chunked zoneSize (zone z) cNext z chain (inside zoneSize z live)
  placed : forall z, z ∈ zones -> PlaceOk (zone z) (inside zoneSize z live) (place z)
  outside : forall z, z ∉ zones -> place z = none
  lists : Bucketed (nextZone zone) (zoneHeads zoneArray zoneFree) place

section Inside

variable {zoneSize y z c : Nat} {live live' : List Nat}

theorem inside_cons (hc : InZone zoneSize z c) :
    inside zoneSize z (c :: live) = c :: inside zoneSize z live := by
  simp [inside, hc]

theorem inside_cons_of_not (hc : ¬InZone zoneSize z c) :
    inside zoneSize z (c :: live) = inside zoneSize z live := by
  simp [inside, hc]

theorem mem_inside {p : Nat} : p ∈ inside zoneSize z live <-> p ∈ live ∧
    InZone zoneSize z p := by
  simp [inside]

theorem Spaced.not_inZone (hs : Spaced zoneSize y z) (hc : InZone zoneSize z c) :
    ¬InZone zoneSize y c := by
  unfold Spaced at hs
  unfold InZone at *
  omega

theorem Spaced.symm (hs : Spaced zoneSize y z) : Spaced zoneSize z y := Or.symm hs

theorem PlaceOk.perm {zone : SlabZone} {used used' : List Nat} {p : Option (Option Nat)}
    (hp : PlaceOk zone used p) (hperm : used.Perm used') : PlaceOk zone used' p := by
  rcases p with _ | _ | zi
  · exact hp
  · have hnil : used = [] := hp
    subst hnil
    exact hperm.symm.eq_nil
  · exact hp

end Inside

theorem nextZone_update (zone : Nat -> SlabZone) (z : Nat) (v : SlabZone) :
    nextZone (update zone z v) = update (nextZone zone) z v.next := by
  funext y
  unfold nextZone
  by_cases hy : y = z
  · subst hy
    rw [update_self, update_self]
  · rw [update_of_ne hy, update_of_ne hy]

theorem zoneHeads_array (zoneArray : Nat -> Option Nat) (zoneFree : Option Nat) (zi : Nat)
    (v : Option Nat) :
    zoneHeads (update zoneArray zi v) zoneFree =
      update (zoneHeads zoneArray zoneFree) (some zi) v := by
  funext b
  cases b with
  | none => rfl
  | some j =>
    by_cases hj : j = zi
    · subst hj
      rw [update_self]
      exact update_self _ _ _
    · rw [update_of_ne (fun heq => hj (Option.some.inj heq))]
      exact update_of_ne hj _ _

theorem zoneHeads_free (zoneArray : Nat -> Option Nat) (zoneFree v : Option Nat) :
    zoneHeads zoneArray v = update (zoneHeads zoneArray zoneFree) none v := by
  funext b
  cases b with
  | none => rw [update_self, zoneHeads]
  | some j =>
    rw [update_of_ne (show some j ≠ none by nofun)]
    rfl

section Zoned

variable {zoneSize y z zi c : Nat} {zone : Nat -> SlabZone} {cNext : Nat -> Option Nat}
  {zoneArray : Nat -> Option Nat} {zoneFree : Option Nat} {zones zones' live live' : List Nat}
  {place : Nat -> Option (Option Nat)} {v : SlabZone}

theorem Zoned.apart (hz : Zoned zoneSize zone cNext zoneArray zoneFree zones live place)
    (hy : y ∈ zones) (hzm : z ∈ zones) (hne : y ≠ z) : Spaced zoneSize y z :=
  hz.spaced.forall hy hzm hne

theorem Zoned.live_congr (hz : Zoned zoneSize zone cNext zoneArray zoneFree zones live place)
    (hsame : forall z, z ∈ zones -> (inside zoneSize z live).Perm (inside zoneSize z live')) :
    Zoned zoneSize zone cNext zoneArray zoneFree zones live' place := by
  refine ⟨hz.spaced, ?_, ?_, hz.outside, hz.lists⟩
  · intro z hzm
    rcases hz.chunked z hzm with ⟨chain, hc⟩
    exact ⟨chain, hc.perm (hsame z hzm)⟩
  · intro z hzm
    exact (hz.placed z hzm).perm (hsame z hzm)

theorem Zoned.modify
    (hz : Zoned zoneSize zone cNext zoneArray zoneFree zones live place) (hzm : z ∈ zones)
    {cNext' : Nat -> Option Nat} {zoneArray' : Nat -> Option Nat} {zoneFree' : Option Nat}
    {p : Option (Option Nat)} {chain : List Nat}
    (hchunked : Chunked zoneSize v cNext' z chain (inside zoneSize z live'))
    (hplaced : PlaceOk v (inside zoneSize z live') p)
    (hlinks : forall c, ¬InZone zoneSize z c -> cNext' c = cNext c)
    (hlive : forall y, y ∈ zones -> y ≠ z ->
      (inside zoneSize y live).Perm (inside zoneSize y live'))
    (hlists : Bucketed (update (nextZone zone) z v.next)
      (zoneHeads zoneArray' zoneFree') (update place z p)) :
    Zoned zoneSize (update zone z v) cNext' zoneArray' zoneFree' zones live'
      (update place z p) := by
  refine ⟨hz.spaced, ?_, ?_, ?_, ?_⟩
  · intro y hy
    by_cases hyz : y = z
    · subst hyz
      rw [update_self]
      exact ⟨chain, hchunked⟩
    · rw [update_of_ne hyz]
      rcases hz.chunked y hy with ⟨chain', hc⟩
      refine ⟨chain', (hc.congr ?_).perm (hlive y hy hyz)⟩
      intro c hcc
      apply hlinks
      exact (hz.apart hzm hy (Ne.symm hyz)).not_inZone (hc.lt (List.mem_append_left _ hcc))
  · intro y hy
    by_cases hyz : y = z
    · subst hyz
      rw [update_self, update_self]
      exact hplaced
    · rw [update_of_ne hyz, update_of_ne hyz]
      exact (hz.placed y hy).perm (hlive y hy hyz)
  · intro y hy
    rw [update_of_ne (by rintro rfl; exact hy hzm)]
    exact hz.outside y hy
  · rw [nextZone_update]
    exact hlists

theorem Zoned.drop (hz : Zoned zoneSize zone cNext zoneArray (some z) zones live place)
    (hpos : 0 < zoneSize) :
    z ∈ zones ∧ inside zoneSize z live = [] ∧
      Zoned zoneSize zone cNext zoneArray (zone z).next (zones.erase z) live
        (update place z none) := by
  have hplace : place z = some none := hz.lists.place_head (b := none) rfl
  have hzm : z ∈ zones := by
    by_contra hnot
    rw [hz.outside z hnot] at hplace
    cases hplace
  have hnodup : zones.Nodup := by
    apply hz.spaced.imp
    intro a b hab heq
    unfold Spaced at hab
    omega
  have hempty := hz.placed z hzm
  rw [hplace] at hempty
  refine ⟨hzm, hempty, hz.spaced.sublist List.erase_sublist, ?_, ?_, ?_, ?_⟩
  · intro y hy
    exact hz.chunked y (List.mem_of_mem_erase hy)
  · intro y hy
    rw [hnodup.mem_erase_iff] at hy
    rw [update_of_ne hy.left]
    exact hz.placed y hy.right
  · intro y hy
    by_cases hyz : y = z
    · subst hyz
      exact update_self _ _ _
    · rw [update_of_ne hyz]
      apply hz.outside
      intro hin
      exact hy (hnodup.mem_erase_iff.mpr ⟨hyz, hin⟩)
  · have hpop := hz.lists.pop (b := none) rfl
    rw [← zoneHeads_free] at hpop
    exact hpop

theorem Zoned.start (hz : Zoned zoneSize zone cNext zoneArray zoneFree zones live place)
    (hnew : forall y, y ∈ zones -> Spaced zoneSize z y) (hzm : z ∉ zones)
    (hempty : inside zoneSize z live = []) (hc : InZone zoneSize z c)
    (hchunked : Chunked zoneSize v cNext z [] [c]) (hindex : v.zoneindex = zi)
    (hfree : 0 < v.nfree) (hmagic : v.magic = zallocSlabMagic) (hnext : v.next = zoneArray zi) :
    Zoned zoneSize (update zone z v) cNext (update zoneArray zi (some z))
      zoneFree (z :: zones) (c :: live) (update place z (some (some zi))) := by
  have hne : forall y, y ∈ zones -> y ≠ z := by
    rintro y hy rfl
    exact hzm hy
  have hout : forall y, y ∈ zones -> inside zoneSize y (c :: live) = inside zoneSize y live :=
    fun y hy => inside_cons_of_not ((hnew y hy).symm.not_inZone hc)
  refine ⟨List.pairwise_cons.mpr ⟨hnew, hz.spaced⟩, ?_, ?_, ?_, ?_⟩
  · intro y hy
    rcases List.mem_cons.mp hy with rfl | hy
    · rw [update_self, inside_cons hc, hempty]
      exact ⟨[], hchunked⟩
    · rw [update_of_ne (hne y hy), hout y hy]
      exact hz.chunked y hy
  · intro y hy
    rcases List.mem_cons.mp hy with rfl | hy
    · rw [update_self, update_self]
      exact ⟨hindex, hfree, hmagic⟩
    · rw [update_of_ne (hne y hy), update_of_ne (hne y hy), hout y hy]
      exact hz.placed y hy
  · intro y hy
    rw [List.mem_cons, not_or] at hy
    rw [update_of_ne hy.left]
    exact hz.outside y hy.right
  · have hpush := hz.lists.push (hz.outside z hzm) (some zi)
    rw [nextZone_update, hnext, zoneHeads_array]
    exact hpush

theorem Zoned.take (hz : Zoned zoneSize zone cNext zoneArray zoneFree zones live place)
    (hhead : zoneArray zi = some z) {chain : List Nat}
    (hchunked : Chunked zoneSize v cNext z chain (c :: inside zoneSize z live))
    (hindex : v.zoneindex = (zone z).zoneindex) (hmagic : v.magic = (zone z).magic)
    (hnext : v.next = if v.nfree = 0 then none else (zone z).next) :
    exists place', Zoned zoneSize (update zone z v) cNext
      (if v.nfree = 0 then update zoneArray zi (zone z).next else zoneArray) zoneFree
      zones (c :: live) place' := by
  have hplace : place z = some (some zi) := hz.lists.place_head (b := some zi) hhead
  have hzm : z ∈ zones := by
    by_contra hnot
    rw [hz.outside z hnot] at hplace
    cases hplace
  have hok := hz.placed z hzm
  rw [hplace] at hok
  have hc : InZone zoneSize z c := hchunked.lt (by simp)
  have hin := @inside_cons zoneSize z c live hc
  have hlive : forall y, y ∈ zones -> y ≠ z ->
      (inside zoneSize y live).Perm (inside zoneSize y (c :: live)) := by
    intro y hy hyz
    rw [inside_cons_of_not ((hz.apart hy hzm hyz).not_inZone hc)]
  rw [← hin] at hchunked
  by_cases hzero : v.nfree = 0
  · rw [if_pos hzero]
    refine ⟨_, hz.modify hzm hchunked (p := none) ⟨hzero, hmagic.trans hok.2.2⟩
      (fun _ _ => rfl) hlive ?_⟩
    rw [zoneHeads_array]
    have hpop := hz.lists.pop (b := some zi) hhead
    exact hpop.frame (update_self _ _ _) _
  · rw [if_neg hzero] at hnext ⊢
    refine ⟨_, hz.modify hzm hchunked (p := some (some zi))
      ⟨hindex.trans hok.1, Nat.pos_of_ne_zero hzero, hmagic.trans hok.2.2⟩
      (fun _ _ => rfl) hlive ?_⟩
    rw [hnext, ← hplace, update_eq_self]
    have hsame : update (nextZone zone) z (zone z).next = nextZone zone :=
      update_eq_self z (nextZone zone)
    rw [hsame]
    exact hz.lists

theorem Zoned.give (hz : Zoned zoneSize zone cNext zoneArray zoneFree zones live place)
    (hzm : z ∈ zones) (hc : c ∈ inside zoneSize z live) (hlive : live.Perm (c :: live')) :
    Zoned zoneSize (update zone z { zone z with
        next := if (zone z).nfree = 0 then zoneArray (zone z).zoneindex else (zone z).next
        freechunk := some c
        nfree := (zone z).nfree + 1 })
      (update cNext c (zone z).freechunk)
      (if (zone z).nfree = 0 then update zoneArray (zone z).zoneindex (some z) else zoneArray)
      zoneFree zones live' (update place z (some (some (zone z).zoneindex))) := by
  have hin : InZone zoneSize z c := (mem_inside.mp hc).2
  have hused : (inside zoneSize z live).Perm (c :: inside zoneSize z live') := by
    rw [← inside_cons hin]
    exact hlive.filter _
  have hother : forall y, y ∈ zones -> y ≠ z ->
      (inside zoneSize y live).Perm (inside zoneSize y live') := by
    intro y hy hyz
    rw [← @inside_cons_of_not zoneSize y c live' ((hz.apart hy hzm hyz).not_inZone hin)]
    exact hlive.filter _
  rcases hz.chunked z hzm with ⟨chain, hchunked⟩
  have hok := hz.placed z hzm
  -- a zone with a chunk in use is not in `zone_free`
  have hmagic : (zone z).magic = zallocSlabMagic ∧ (((zone z).nfree = 0 ∧ place z = none) ∨
        ((zone z).nfree ≠ 0 ∧ place z = some (some (zone z).zoneindex))) := by
    rcases hp : place z with _ | _ | zi
    · rw [hp] at hok
      exact ⟨hok.2, Or.inl ⟨hok.1, rfl⟩⟩
    · rw [hp] at hok
      have hnil : inside zoneSize z live = [] := hok
      rw [hnil] at hc
      cases hc
    · rw [hp] at hok
      exact ⟨hok.2.2, Or.inr ⟨Nat.ne_of_gt hok.2.1, by rw [hok.1]⟩⟩
  have hlinks : forall d, ¬InZone zoneSize z d ->
      update cNext c (zone z).freechunk d = cNext d := by
    intro d hd
    apply update_of_ne
    rintro rfl
    exact hd hin
  refine hz.modify hzm (hchunked.give hused _) ⟨rfl, Nat.succ_pos _, hmagic.1⟩ hlinks hother ?_
  rcases hmagic.2 with ⟨hzero, hplace⟩ | ⟨hpos, hplace⟩
  · rw [if_pos hzero, if_pos hzero, zoneHeads_array]
    exact hz.lists.push hplace (some (zone z).zoneindex)
  · rw [if_neg hpos, if_neg hpos, ← hplace, update_eq_self]
    have hsame : update (nextZone zone) z (zone z).next = nextZone zone :=
      update_eq_self z (nextZone zone)
    rw [hsame]
    exact hz.lists

/-- A zone goes from its list to `zone_free`: only links between zones and its magic
number change. -/
theorem Zoned.relist (hz : Zoned zoneSize zone cNext zoneArray zoneFree zones live place)
    (hzm : z ∈ zones) (hempty : inside zoneSize z live = []) {zone' : Nat -> SlabZone}
    {zoneArray' : Nat -> Option Nat} {zoneFree' : Option Nat}
    (hother : forall y, y ≠ z -> exists n, zone' y = { zone y with next := n })
    (hself : exists n m, zone' z = { zone z with next := n, magic := m })
    (hlists : Bucketed (nextZone zone') (zoneHeads zoneArray' zoneFree')
      (update place z (some none))) :
    Zoned zoneSize zone' cNext zoneArray' zoneFree' zones live (update place z (some none)) := by
  refine ⟨hz.spaced, ?_, ?_, ?_, hlists⟩
  · intro y hy
    rcases hz.chunked y hy with ⟨chain, hc⟩
    by_cases hyz : y = z
    · subst hyz
      rcases hself with ⟨n, m, heq⟩
      rw [heq]
      exact ⟨chain, hc.relink n m⟩
    · rcases hother y hyz with ⟨n, heq⟩
      rw [heq]
      exact ⟨chain, hc.relink n _⟩
  · intro y hy
    by_cases hyz : y = z
    · subst hyz
      rw [update_self]
      exact hempty
    · rcases hother y hyz with ⟨n, heq⟩
      rw [heq, update_of_ne hyz]
      have hok := hz.placed y hy
      rcases hp : place y with _ | _ | zi
      · rw [hp] at hok
        exact hok
      · rw [hp] at hok
        exact hok
      · rw [hp] at hok
        exact hok
  · intro y hy
    rw [update_of_ne (by rintro rfl; exact hy hzm)]
    exact hz.outside y hy

end Zoned

/-!
## Taking a zone out of its list
-/

section Unlink

variable {h : Heap} {pz : ZoneSlot} {l l' zones live : List Nat} {y z fuel : Nat}
  {place : Nat -> Option (Option Nat)}

/-- The pointer to what comes behind the zones of a list. -/
def lastSlot : ZoneSlot -> List Nat -> ZoneSlot
  | pz, [] => pz
  | _, y :: l => lastSlot (ZoneSlot.next y) l

theorem lastSlot_append : lastSlot pz (l ++ [y]) = ZoneSlot.next y := by
  induction l generalizing pz with
  | nil => rfl
  | cons x l ih => exact ih

theorem unlinkZone_eq (hl : Linked (nextZone h.zone) (h.loadZone pz) (l ++ z :: l'))
    (hz : z ∉ l) (hfuel : l.length < fuel) :
    unlinkZone z fuel h pz = some (h.storeZone (lastSlot pz l) (h.zone z).next) := by
  induction l generalizing fuel pz with
  | nil =>
    cases fuel with
    | zero => cases hfuel
    | succ fuel =>
      have hload : h.loadZone pz = some z := hl.left
      simp only [unlinkZone, hload, if_true]
      rfl
  | cons y l ih =>
    rw [List.mem_cons, not_or] at hz
    cases fuel with
    | zero => cases hfuel
    | succ fuel =>
      have hload : h.loadZone pz = some y := hl.left
      simp only [unlinkZone, hload, Ne.symm hz.left, if_false]
      exact @ih (ZoneSlot.next y) fuel hl.right hz.right (Nat.lt_of_succ_lt_succ hfuel)

theorem unlinkZone_zoned
    (hz : Zoned h.zoneSize h.zone h.cNext h.zoneArray h.zoneFree zones live place)
    (hzm : z ∈ zones) (hplace : place z = some (some (h.zone z).zoneindex))
    (hempty : inside h.zoneSize z live = []) (hlen : zones.length ≤ pageCount) :
    exists zone' zoneArray', unlinkZone z (pageCount + 1) h (ZoneSlot.array (h.zone z).zoneindex) =
        some { h with zone := zone', zoneArray := zoneArray' } ∧
      Zoned h.zoneSize (update zone' z { zone' z with magic := -1, next := h.zoneFree })
        h.cNext zoneArray' (some z) zones live (update place z (some none)) := by
  rcases hz.lists.split hplace with ⟨l, l', hnodup, hl, hmem⟩
  have hzl : z ∉ l := fun hin => (List.nodup_append.mp hnodup).2.2 z hin z (by simp) rfl
  have hshort : l.length < pageCount + 1 := by
    have hsub : l ++ z :: l' ⊆ zones := by
      intro x hx
      by_contra hnot
      have hx' := (hmem x).mp hx
      rw [hz.outside x hnot] at hx'
      cases hx'
    have hle := hnodup.length_le_of_subset hsub
    rw [List.length_append, List.length_cons] at hle
    omega
  have hwalk := @unlinkZone_eq h (ZoneSlot.array (h.zone z).zoneindex) _ _ _ _ hl hzl hshort
  -- what both cases have in common: the zone, in no list, is pushed on `zone_free`
  have hfinish : forall (zone' : Nat -> SlabZone) (zoneArray' : Nat -> Option Nat),
      (forall x, exists n, zone' x = { h.zone x with next := n }) ->
      Bucketed (nextZone zone') (zoneHeads zoneArray' h.zoneFree) (update place z none) ->
      Zoned h.zoneSize (update zone' z { zone' z with magic := -1, next := h.zoneFree })
        h.cNext zoneArray' (some z) zones live (update place z (some none)) := by
    intro zone' zoneArray' hsame hlists
    refine hz.relist hzm hempty ?_ ?_ ?_
    · intro x hx
      rw [update_of_ne hx]
      exact hsame x
    · rcases hsame z with ⟨n, heq⟩
      rw [update_self, heq]
      exact ⟨_, _, rfl⟩
    · have hpush := hlists.push (update_self z none place) none
      rw [update_idem] at hpush
      rw [nextZone_update, zoneHeads_free zoneArray' h.zoneFree]
      exact hpush
  rcases List.eq_nil_or_concat l with rfl | ⟨l1, y, rfl⟩
  · refine ⟨h.zone, update h.zoneArray (h.zone z).zoneindex (h.zone z).next, hwalk, ?_⟩
    apply hfinish
    · exact fun x => ⟨_, rfl⟩
    · rw [zoneHeads_array]
      exact hz.lists.pop hl.left
  · rw [List.concat_eq_append] at hl hnodup hmem hzl hwalk
    rw [lastSlot_append] at hwalk
    rw [List.append_assoc] at hl hnodup hmem
    refine ⟨update h.zone y { h.zone y with next := (h.zone z).next }, h.zoneArray, hwalk, ?_⟩
    apply hfinish
    · intro x
      by_cases hx : x = y
      · subst hx
        rw [update_self]
        exact ⟨_, rfl⟩
      · rw [update_of_ne hx]
        exact ⟨_, rfl⟩
    · rw [nextZone_update]
      exact hz.lists.unlink hl hnodup hmem

end Unlink

end Slab
end RtThread.Mem
