import RtThread.Module.Memory

/-!
# The module allocator conserves its memory

A request for pages that fails leaves `mod_sem` taken, and handing pages back makes the count of
the page array wrong. In a run without either, and without a release of a block at the start of a
page, the free blocks and those handed out divide the pages of the module, and every call returns.
-/

namespace RtThread.Module.Memory

open Extents

/-- Block `n` does not start a page, and with the free blocks it touches it does not make up
whole pages behind the start of one. -/
def Unpaged (l : List Extent) (n : Extent) : Prop :=
  n.start % pageUnits ≠ 0 ∧
    forall b, b ∈ l -> b.stop = n.start -> b.start % pageUnits = 0 ->
      b.size + n.size < pageUnits ∧
        forall c, c ∈ l -> c.start = n.stop -> b.size + n.size + c.size < pageUnits

/-- When pages are needed there are some, and an entry of the page array to note them. -/
def Granted (s : State) (size : UInt32) (chunks : List (Option Nat)) : Prop :=
  take (nunits size) s.memList = none ->
    (exists p rest, chunks = some p :: rest) ∧ s.pageCnt.toNat < pageCountMax

/-- The free list without what a request for `n` units takes from it. -/
def remaining (n : Nat) (l : List Extent) : List Extent := ((take n l).map Prod.snd).getD l

/-- Pages are granted and never handed back, no block at the start of a page is released,
and a module that enlarges a block has a free one. -/
def Keeps (s : State) : Op -> Prop
  | Op.malloc size chunks => Granted s size chunks
  | Op.free b => forall n, n ∈ s.live -> n.start = b -> Unpaged s.memList n
  | Op.realloc none size chunks => Granted s size chunks
  | Op.realloc (some ptr) size chunks => forall b, b ∈ s.live -> b.start = ptr ->
      if size = 0 then Unpaged s.memList b
      else if nunits size < b.size then
        Unpaged s.memList ⟨b.start + nunits size, b.size - nunits size⟩
      else if nunits size = b.size then True
      else s.memList ≠ [] ∧
        (nextFree b (nunits size) s.memList.tail = none ->
          Granted s size chunks ∧ Unpaged (remaining (nunits size) s.memList) b)

/-! ### Sizes -/

theorem nunits_pos (size : UInt32) : 0 < nunits size := by
  unfold nunits
  have hlt := size.toNat_lt
  simp only [UInt32.toNat_add, UInt32.toNat_sub, UInt32.toNat_div, UInt32.reduceToNat]
  omega

theorem nunits_le_npages {size : UInt32} (hpages : npages size ≠ 0) :
    nunits size ≤ npages size * pageUnits := by
  unfold nunits npages pageUnits at *
  have hlt := size.toNat_lt
  simp only [UInt32.toNat_add, UInt32.toNat_sub, UInt32.toNat_div, UInt32.reduceToNat] at *
  omega

/-! ### The free list -/

theorem insertPages_perm (up : Extent) (l : List Extent) : (insertPages up l).Perm (up :: l) := by
  induction l with
  | nil => exact List.Perm.refl _
  | cons b l ih =>
    unfold insertPages
    split
    · exact List.Perm.refl _
    · exact (ih.cons b).trans (List.Perm.swap up b l)

variable {n : Extent} {l : List Extent}

theorem take_insertPages {n : Nat} {up : Extent} (htake : take n l = none) (hle : n ≤ up.size) :
    exists l', take n (insertPages up l) = some (up.start, l') ∧
      forall c, c ∈ l' -> c ∈ l ∨ c.start = up.start + n ∧ c.stop = up.stop := by
  have hfront : forall l, exists l', take n (up :: l) = some (up.start, l') ∧
      forall c, c ∈ l' -> c ∈ l ∨ c.start = up.start + n ∧ c.stop = up.stop := by
    intro l
    rcases Nat.lt_or_ge n up.size with hlt | hge
    · refine ⟨⟨up.start + n, up.size - n⟩ :: l, by simp [take, hlt], ?_⟩
      intro c hc
      rcases List.mem_cons.mp hc with rfl | hc
      · refine Or.inr ⟨rfl, ?_⟩
        simp only [Extent.stop]
        omega
      · exact Or.inl hc
    · have heq : up.size = n := Nat.le_antisymm hge hle
      exact ⟨l, by simp [take, heq], fun c hc => Or.inl hc⟩
  induction l with
  | nil => exact hfront []
  | cons b l ih =>
    unfold insertPages
    split
    · exact hfront (b :: l)
    · have hall := take_eq_none.mp htake
      have hb := hall b List.mem_cons_self
      obtain ⟨l', htake', hmem⟩ := ih (take_eq_none.mpr fun e he =>
        hall e (List.mem_cons_of_mem b he))
      refine ⟨b :: l', ?_, fun c hc => ?_⟩
      · rw [take, if_neg (by omega), if_neg (by omega), htake', Option.map_some]
      · rcases List.mem_cons.mp hc with rfl | hc
        · exact Or.inl List.mem_cons_self
        · exact (hmem c hc).imp (List.mem_cons_of_mem b) id

theorem Unpaged.mono {l' : List Extent} (h : Unpaged l n)
    (hsub : forall c, c ∈ l' -> c ∈ l) : Unpaged l' n :=
  ⟨h.1, fun b hb hstop hstart =>
    ⟨(h.2 b (hsub b hb) hstop hstart).1, fun c hc =>
      (h.2 b (hsub b hb) hstop hstart).2 c (hsub c hc)⟩⟩

theorem mergeNext_cases (b n : Extent) (l : List Extent) :
    mergeNext b n l = (⟨b.start, b.size + n.size⟩, l) ∨
      exists c l', l = c :: l' ∧ b.start + (b.size + n.size) = c.start ∧
        mergeNext b n l = (⟨b.start, b.size + (c.size + n.size)⟩, l') := by
  cases l with
  | nil => exact Or.inl rfl
  | cons c l =>
    by_cases hnext : b.start + (b.size + n.size) = c.start
    · exact Or.inr ⟨c, l, rfl, hnext, if_pos hnext⟩
    · exact Or.inl (if_neg hnext)

theorem mergeNext_regroups {b : Extent} (l : List Extent) (htouch : b.stop = n.start) :
    Regroups (n :: b :: l) ((mergeNext b n l).1 :: (mergeNext b n l).2) := by
  have hjoin : Regroups (n :: b :: l) (⟨b.start, b.size + n.size⟩ :: l) :=
    (Regroups.of_perm (List.Perm.swap _ _ _)).trans ((regroups_join htouch).append_right l)
  rcases mergeNext_cases b n l with heq | ⟨c, l', rfl, hnext, heq⟩
  · rw [heq]
    exact hjoin
  · have hjoin' :=
      (regroups_join (e := ⟨b.start, b.size + n.size⟩) (f := c) hnext).append_right l'
    have hsize : b.size + n.size + c.size = b.size + (c.size + n.size) := by omega
    rw [hsize] at hjoin'
    rw [heq]
    exact hjoin.trans hjoin'

theorem mergeNext_unpaged {b : Extent} (hn : Unpaged (b :: l) n) (htouch : b.stop = n.start) :
    ¬ ((mergeNext b n l).1.start % pageUnits = 0 ∧
      0 < (mergeNext b n l).1.size / pageUnits) := by
  rintro ⟨hpage, hsize⟩
  refine Nat.ne_of_gt hsize (Nat.div_eq_of_lt ?_)
  rcases mergeNext_cases b n l with heq | ⟨c, l', rfl, hnext, heq⟩
  · rw [heq] at hpage ⊢
    exact (hn.2 b List.mem_cons_self htouch hpage).1
  · rw [heq] at hpage ⊢
    have hc : c.start = n.stop := by
      unfold Extent.stop at *
      omega
    have hlt := (hn.2 b List.mem_cons_self htouch hpage).2 c
      (List.mem_cons_of_mem b List.mem_cons_self) hc
    simp only
    omega

theorem freeLoop_unpaged (hs : Scattered (n :: l))
    (hn : Unpaged l n) : exists l', freeLoop n l = some (l', none) ∧ Regroups (n :: l) l' := by
  have hstart := hn.1
  induction l with
  | nil => exact ⟨[n], by simp [freeLoop, freeEnd, hstart], Regroups.refl _⟩
  | cons b l ih =>
    have hs' := scattered_cons.mp hs
    have hb := scattered_cons.mp hs'.2.2
    have hapart := hs'.2.1 b List.mem_cons_self
    have hnpos := hs'.1
    have hassert : b.start > n.start ∨ b.stop ≤ n.start := by
      unfold Apart Extent.stop at *
      omega
    unfold freeLoop
    rw [if_neg (Nat.ne_of_gt hb.1), if_neg (not_not.mpr hassert)]
    by_cases hleft : b.stop = n.start
    · rw [if_pos ⟨hleft, hstart⟩]
      rw [if_neg (mergeNext_unpaged hn hleft)]
      exact ⟨_, rfl, mergeNext_regroups l hleft⟩
    · rw [if_neg fun h => hleft h.1]
      by_cases hright : b.start = n.stop
      · rw [if_pos hright, if_neg hstart]
        have hjoin := (regroups_join (e := n) (f := b) hright.symm).append_right l
        rw [Nat.add_comm] at hjoin
        exact ⟨_, rfl, hjoin⟩
      · rw [if_neg hright]
        by_cases hbehind : b.start > n.stop
        · rw [if_pos hbehind]
          exact ⟨n :: b :: l, by simp [freeEnd, hstart], Regroups.refl _⟩
        · rw [if_neg hbehind]
          have hs1 : Scattered (n :: l) := hs.sublist (by simp)
          obtain ⟨l', hloop, hgroup⟩ := ih hs1 (hn.mono fun c hc => List.mem_cons_of_mem b hc)
          refine ⟨b :: l', by rw [hloop, Option.map_some], ?_⟩
          exact (Regroups.of_perm (List.Perm.swap _ _ _)).trans (hgroup.cons b)

/-! ### The invariant -/

/-- The entries of the page array that are in use stand at its start. -/
structure Recorded (s : State) (entries : List Extent) : Prop where
  array : s.pageArray =
    entries.map some ++ List.replicate (pageCountMax - entries.length) none
  count : s.pageCnt.toNat = entries.length
  pages : Partitions entries fun x => s.pages x = true

structure Tidy (s : State) : Prop where
  units : Partitions (s.memList ++ s.live) fun u => s.pages (u / pageUnits) = true
  recorded : exists entries, Recorded s entries
  released : s.modSem = 1

theorem tidy_start : Tidy start where
  units := ⟨⟨by simp [start], List.Pairwise.nil⟩, by simp [start]⟩
  recorded := ⟨[], rfl, rfl, ⟨by simp, List.Pairwise.nil⟩, by simp [start]⟩
  released := rfl

section Tidy

variable {s : State} {size : UInt32} {chunks : List (Option Nat)}

theorem Tidy.conserved (hs : Tidy s) : Conserved s := by
  obtain ⟨entries, hentries⟩ := hs.recorded
  have hinUse : s.inUse = entries := by
    unfold State.inUse
    rw [hentries.array, List.filterMap_append, List.filterMap_map]
    simp
  exact {
    units := hs.units
    recorded := hinUse ▸ hentries.pages
    count := hinUse ▸ hentries.count
    released := hs.released }

variable {l : List Extent} {n b : Extent}

theorem Tidy.regroup {live : List Extent} (hs : Tidy s)
    (hgroup : Regroups (s.memList ++ s.live) (l ++ live)) :
    Tidy { s with memList := l, live := live } where
  units := hgroup.partitions hs.units
  recorded := by
    obtain ⟨entries, hentries⟩ := hs.recorded
    exact ⟨entries, hentries.array, hentries.count, hentries.pages⟩
  released := hs.released

theorem Tidy.live_eq {m : Extent} (hs : Tidy s) (hn : n ∈ s.live) (hm : m ∈ s.live)
    (hstart : n.start = m.start) : n = m :=
  hs.units.scattered.eq_of_start (List.mem_append_right _ hn) (List.mem_append_right _ hm) hstart

theorem find_live (hs : Tidy s) (hn : n ∈ s.live) :
    (s.live.find? fun m => m.start = n.start) = some n := by
  cases hfind : s.live.find? fun m => m.start = n.start with
  | none => simpa using List.find?_eq_none.mp hfind n hn
  | some m =>
    have hstart : m.start = n.start := by simpa using List.find?_some hfind
    rw [hs.live_eq (List.mem_of_find?_eq_some hfind) hn hstart]

/-! ### Release and allocation -/

theorem rtModuleFree_unpaged (hs : Tidy s) (hn : n ∈ s.live) (hpaged : Unpaged s.memList n) :
    exists s', rtModuleFree n.start s = some s' ∧ Tidy s' := by
  have hperm : (s.memList ++ s.live).Perm (n :: s.memList ++ s.live.erase n) :=
    ((List.perm_cons_erase hn).append_left _).trans List.perm_middle
  have hscattered : Scattered (n :: s.memList) :=
    (hs.units.scattered.perm hperm).sublist (List.sublist_append_left _ _)
  obtain ⟨l, hloop, hgroup⟩ := freeLoop_unpaged hscattered hpaged
  refine ⟨{ s with memList := l, live := s.live.erase n }, ?_,
    hs.regroup ((Regroups.of_perm hperm).trans (hgroup.append_right _))⟩
  unfold rtModuleFree
  rw [if_neg (by simp [hs.released])]
  simp only [find_live hs hn, hloop]

theorem rtModuleMalloc_fit {b : Nat} (hsize : size ≠ 0)
    (hsem : s.modSem = 1) (htake : take (nunits size) s.memList = some (b, l)) :
    rtModuleMalloc size chunks s =
      some (some b, { s with memList := l, live := ⟨b, nunits size⟩ :: s.live }) := by
  unfold rtModuleMalloc
  simp [hsize, hsem, htake]

/-- The state with `npage` more pages from `p` on, all of them free. -/
def State.addPages (s : State) (p npage : Nat) : State :=
  { s with
    memList := insertPages ⟨p * pageUnits, npage * pageUnits⟩ s.memList
    pageArray := s.pageArray.set s.pageCnt.toNat (some ⟨p, npage⟩)
    pageCnt := s.pageCnt + 1
    pages := fun x => p ≤ x && x < p + npage || s.pages x }

theorem rtModuleMalloc_new {p : Nat} (hsize : size ≠ 0) (hsem : s.modSem = 1)
    (htake : take (nunits size) s.memList = none) (hroom : s.pageCnt.toNat < pageCountMax) :
    rtModuleMalloc size (some p :: chunks) s =
      rtModuleMalloc size chunks (s.addPages p (npages size)) := by
  conv_lhs => unfold rtModuleMalloc
  simp [hsize, hsem, htake, rtModuleMallocPage, hroom, State.addPages]

theorem Tidy.addPages {p npage : Nat} (hs : Tidy s) (hpos : 0 < npage)
    (hroom : s.pageCnt.toNat < pageCountMax)
    (hfresh : forall x, p ≤ x -> x < p + npage -> s.pages x = false) :
    Tidy (s.addPages p npage) := by
  obtain ⟨entries, hentries⟩ := hs.recorded
  have hnew : forall x, Extent.Has ⟨p, npage⟩ x -> ¬ s.pages x = true := by
    rintro x ⟨hx, hx'⟩
    simp [hfresh x hx hx']
  have hpages : forall x, (s.addPages p npage).pages x = true ↔
      Extent.Has ⟨p, npage⟩ x ∨ s.pages x = true := by
    intro x
    simp [State.addPages, Extent.Has, Extent.stop]
  -- a unit of the new block is one of the new pages
  have hunit : forall u, Extent.Has ⟨p * pageUnits, npage * pageUnits⟩ u ↔
      Extent.Has ⟨p, npage⟩ (u / pageUnits) := by
    intro u
    have hdiv : 0 < pageUnits := by decide
    unfold Extent.Has Extent.stop
    simp only
    rw [Nat.le_div_iff_mul_le hdiv, Nat.div_lt_iff_lt_mul hdiv, Nat.add_mul]
  refine ⟨?_, ⟨entries ++ [⟨p, npage⟩], ?_, ?_, ?_⟩, hs.released⟩
  · have hadd := hs.units.add (e := ⟨p * pageUnits, npage * pageUnits⟩)
      (Nat.mul_pos hpos (by decide)) fun u hu => hnew _ ((hunit u).mp hu)
    refine (hadd.congr fun u => ?_).perm ((insertPages_perm _ _).symm.append_right _)
    rw [hpages, hunit]
  · have hlt : entries.length < pageCountMax := hentries.count ▸ hroom
    obtain ⟨k, hk⟩ := Nat.exists_eq_succ_of_ne_zero (Nat.sub_ne_zero_of_lt hlt)
    have hk' : pageCountMax - (entries.length + 1) = k := by omega
    simp only [State.addPages, hentries.array, hentries.count, List.length_append,
      List.length_singleton, hk', hk]
    simp [List.replicate_succ]
  · have hlt : entries.length < pageCountMax := hentries.count ▸ hroom
    unfold pageCountMax at hlt
    simp only [State.addPages, UInt32.toNat_add, hentries.count, UInt32.reduceToNat,
      List.length_append, List.length_singleton]
    omega
  · have hadd := hentries.pages.add (e := ⟨p, npage⟩) hpos hnew
    exact (hadd.congr hpages).perm (List.perm_append_singleton _ _).symm

theorem rtModuleMalloc_granted (hs : Tidy s) (hsize : size ≠ 0)
    (hanswer : Answer s size chunks) (hgranted : Granted s size chunks) :
    exists b s', rtModuleMalloc size chunks s = some (some b, s') ∧ Tidy s' ∧
      s'.live = ⟨b, nunits size⟩ :: s.live ∧
      forall n, n ∈ s.live -> Unpaged (remaining (nunits size) s.memList) n ->
        Unpaged s'.memList n := by
  have hpos := nunits_pos size
  -- the block is put in front of the others, in whatever list it was
  have htaken : forall {t : State} {b : Nat} {l : List Extent}, Tidy t ->
      take (nunits size) t.memList = some (b, l) ->
      Tidy { t with memList := l, live := ⟨b, nunits size⟩ :: t.live } := by
    intro t b l ht htake
    refine ht.regroup (((regroups_take hpos htake).append_right _).trans ?_)
    exact Regroups.of_perm List.perm_middle.symm
  cases htake : take (nunits size) s.memList with
  | some r =>
    obtain ⟨b, l⟩ := r
    refine ⟨b, _, rtModuleMalloc_fit hsize hs.released htake, htaken hs htake, rfl, ?_⟩
    intro n _ hn
    simpa [remaining, htake] using hn
  | none =>
    obtain ⟨⟨p, rest, rfl⟩, hroom⟩ := hgranted htake
    obtain ⟨chunk, rest', heq, hfresh⟩ := hanswer
    cases heq
    obtain ⟨hnpages, hfresh⟩ := hfresh p rfl
    have hnew := hs.addPages (Nat.pos_of_ne_zero hnpages) hroom hfresh
    have hfits : nunits size ≤ Extent.size ⟨p * pageUnits, npages size * pageUnits⟩ :=
      nunits_le_npages hnpages
    obtain ⟨l, htake', hmem⟩ := take_insertPages htake hfits
    refine ⟨p * pageUnits, _, (rtModuleMalloc_new hsize hs.released htake hroom).trans
      (rtModuleMalloc_fit hsize hnew.released htake'), htaken hnew htake', rfl, ?_⟩
    intro n hn hpaged
    simp only [remaining, htake, Option.map_none, Option.getD_none] at hpaged
    -- what is left of the pages does not touch a block that was there before
    have hold : exists x, n.stop = x + 1 ∧ s.pages (x / pageUnits) = true := by
      have hnpos := hs.units.scattered.positive n (List.mem_append_right _ hn)
      refine ⟨n.stop - 1, by unfold Extent.stop; omega, (hs.units.covers _).mpr ⟨n,
        List.mem_append_right _ hn, ?_⟩⟩
      unfold Extent.Has Extent.stop
      omega
    have hleft : forall b, b ∈ l -> b.stop = n.start -> b ∈ s.memList := by
      intro b hb hstop
      rcases hmem b hb with hb | ⟨_, hbstop⟩
      · exact hb
      · refine absurd ?_ hpaged.1
        rw [← hstop, hbstop]
        unfold Extent.stop
        simp [← Nat.add_mul]
    have hright : forall c, c ∈ l -> c.start = n.stop -> c ∈ s.memList := by
      intro c hc hstart
      rcases hmem c hc with hc | ⟨hcstart, _⟩
      · exact hc
      · obtain ⟨x, hx, hpages⟩ := hold
        have hle := nunits_le_npages hnpages
        have hxp : p ≤ x / pageUnits ∧ x / pageUnits < p + npages size := by
          have hdiv : 0 < pageUnits := by decide
          rw [Nat.le_div_iff_mul_le hdiv, Nat.div_lt_iff_lt_mul hdiv, Nat.add_mul]
          simp only at hcstart
          omega
        rw [hfresh _ hxp.1 hxp.2] at hpages
        exact absurd hpages Bool.false_ne_true
    refine ⟨hpaged.1, fun b hb hstop hstart => ?_⟩
    have hb' := hpaged.2 b (hleft b hb hstop) hstop hstart
    exact ⟨hb'.1, fun c hc hcstart => hb'.2 c (hright c hc hcstart) hcstart⟩

/-! ### Reallocation -/

theorem Tidy.shrink {k : Nat} (hs : Tidy s) (hb : b ∈ s.live) (hk : 0 < k) (hlt : k < b.size) :
    Tidy { s with live := ⟨b.start, k⟩ :: ⟨b.start + k,
      b.size - k⟩ :: s.live.erase b } := by
  have hsize : k + (b.size - k) = b.size := by omega
  have hsplit := regroups_split (a := b.start) hk (Nat.sub_pos_of_lt hlt)
  rw [hsize] at hsplit
  exact hs.regroup (((Regroups.of_perm (List.perm_cons_erase hb)).trans
    (hsplit.append_right _)).append_left _)

theorem grow_regroups {p prev : Extent} (hb : b ∈ s.live)
    (hlist : s.memList = prev :: p :: l) (htouch : b.stop = p.start) :
    Regroups (s.memList ++ s.live)
      (⟨b.start, b.size + p.size⟩ :: (prev :: l ++ s.live.erase b)) := by
  have hperm : (s.memList ++ s.live).Perm ([b, p] ++ (prev :: l ++ s.live.erase b)) := by
    have hlist' : s.memList.Perm (p :: prev :: l) := hlist ▸ List.Perm.swap _ _ _
    have hlive := List.perm_cons_erase hb
    exact (hlist'.append hlive).trans List.perm_middle
  exact (Regroups.of_perm hperm).trans ((regroups_join htouch).append_right _)

theorem nextFree_eq_some {p : Extent} {k : Nat} {l' : List Extent}
    (hnext : nextFree b k l = some (p, l')) :
    l = p :: l' ∧ k - b.size ≤ p.size ∧ p.start = b.stop := by
  cases l with
  | nil => cases hnext
  | cons c l =>
    by_cases hfits : c.size ≥ k - b.size ∧ c.start = b.stop
    · rw [nextFree, if_pos hfits] at hnext
      cases hnext
      exact ⟨rfl, hfits⟩
    · rw [nextFree, if_neg hfits] at hnext
      cases hnext

theorem rtModuleRealloc_kept {ptr : Nat} (hs : Tidy s)
    (hlegal : Legal s (Op.realloc (some ptr) size chunks))
    (hkeeps : Keeps s (Op.realloc (some ptr) size chunks)) :
    exists r s', rtModuleRealloc (some ptr) size chunks s = some (r, s') ∧ Tidy s' := by
  obtain ⟨⟨b, hb, rfl⟩, hanswer⟩ := hlegal
  have hkeeps := hkeeps b hb rfl
  have hpos := nunits_pos size
  simp only [rtModuleRealloc]
  by_cases hsize : size = 0
  · rw [if_pos hsize] at hkeeps ⊢
    obtain ⟨s', hfree, hs'⟩ := rtModuleFree_unpaged hs hb hkeeps
    exact ⟨none, s', by rw [hfree, Option.map_some], hs'⟩
  rw [if_neg hsize] at hkeeps ⊢
  simp only [find_live hs hb]
  rcases Nat.lt_trichotomy (nunits size) b.size with hlt | heq | hgt
  · rw [if_pos hlt] at hkeeps
    rw [if_pos (Nat.le_of_lt hlt), if_neg (Nat.ne_of_lt hlt)]
    obtain ⟨s', hfree, hs'⟩ := rtModuleFree_unpaged (hs.shrink hb hpos hlt)
      (List.mem_cons_of_mem _ List.mem_cons_self) hkeeps
    exact ⟨some b.start, s', by rw [hfree, Option.map_some], hs'⟩
  · rw [if_pos (Nat.le_of_eq heq), if_pos heq]
    exact ⟨_, s, rfl, hs⟩
  · rw [if_neg (Nat.lt_asymm hgt), if_neg (Nat.ne_of_gt hgt)] at hkeeps
    rw [if_neg (Nat.not_le.mpr hgt)]
    cases hlist : s.memList with
    | nil => exact absurd hlist hkeeps.1
    | cons prev l =>
      simp only
      cases hnext : nextFree b (nunits size) l with
      | some r =>
        obtain ⟨p, l'⟩ := r
        obtain ⟨rfl, hroom, htouch⟩ := nextFree_eq_some hnext
        have hgrow := grow_regroups hb hlist htouch.symm
        simp only
        split
        · rename_i hfits
          have hsum : b.size + p.size = nunits size := by omega
          rw [hsum] at hgrow
          exact ⟨_, _, rfl, hs.regroup (hgrow.trans (Regroups.of_perm List.perm_middle.symm))⟩
        · have hsum : nunits size + (p.size + b.size - nunits size) = b.size + p.size := by omega
          have hrest : 0 < p.size + b.size - nunits size := by omega
          have hsplit := regroups_split (a := b.start) hpos hrest
          rw [hsum] at hsplit
          refine ⟨_, _, rfl, hs.regroup ((hgrow.trans (hsplit.append_right _)).trans
            (Regroups.of_perm ?_))⟩
          -- the rest of the free block stays where the free block was
          refine List.Perm.trans ?_ List.perm_middle.symm
          exact (List.Perm.swap _ _ _).cons _
      | none =>
        rw [hlist] at hkeeps
        obtain ⟨hgranted, hpaged⟩ := hkeeps.2 hnext
        rw [← hlist] at hpaged
        obtain ⟨a, s1, hmalloc, hs1, hlive, hstill⟩ :=
          rtModuleMalloc_granted hs hsize hanswer hgranted
        have hb1 : b ∈ s1.live := hlive ▸ List.mem_cons_of_mem _ hb
        obtain ⟨s', hfree, hs'⟩ := rtModuleFree_unpaged hs1 hb1 (hstill b hb hpaged)
        exact ⟨some a, s', by simp [hmalloc, hfree], hs'⟩

/-! ### Runs -/

theorem step_kept {op : Op} (hs : Tidy s) (hlegal : Legal s op) (hkeeps : Keeps s op) :
    exists s', step s op = some s' ∧ Tidy s' := by
  cases op with
  | malloc size chunks =>
    obtain ⟨b, s', hmalloc, hs', _⟩ :=
      rtModuleMalloc_granted hs hlegal.1 hlegal.2 hkeeps
    exact ⟨s', by simp [step, hmalloc], hs'⟩
  | free b =>
    obtain ⟨n, hn, rfl⟩ := hlegal
    exact rtModuleFree_unpaged hs hn (hkeeps n hn rfl)
  | realloc ptr size chunks =>
    cases ptr with
    | none =>
      obtain ⟨b, s', hmalloc, hs', _⟩ :=
        rtModuleMalloc_granted hs hlegal.1 hlegal.2 hkeeps
      exact ⟨s', by simp [step, rtModuleRealloc, hmalloc], hs'⟩
    | some ptr =>
      obtain ⟨r, s', hrealloc, hs'⟩ := rtModuleRealloc_kept hs hlegal hkeeps
      exact ⟨s', by simp [step, hrealloc], hs'⟩

theorem Reached.tidy (hs : Reached Keeps s) : Tidy s := by
  induction hs with
  | start => exact tidy_start
  | step _ hlegal hkeeps hstep ih =>
    obtain ⟨s1, hstep1, hs1⟩ := step_kept ih hlegal hkeeps
    rw [hstep] at hstep1
    cases hstep1
    exact hs1

/-- In every run whose calls are granted the pages they need and release nothing that makes
up whole pages, the memory is conserved, and the next such call returns. -/
theorem module_memory_conserved (hs : Reached Keeps s) :
    Conserved s ∧
      forall op, Legal s op -> Keeps s op -> exists s', step s op = some s' := by
  refine ⟨hs.tidy.conserved, fun op hlegal hkeeps => ?_⟩
  obtain ⟨s', hstep, _⟩ := step_kept hs.tidy hlegal hkeeps
  exact ⟨s', hstep⟩

end Tidy

/-- The state with page 3 and nothing else, for these lists. -/
def onPage (memList live : List Extent) : State :=
  { start with
    memList := memList
    live := live
    pageArray := start.pageArray.set 0 (some ⟨3, 1⟩)
    pageCnt := 1
    pages := fun x => 3 ≤ x && x < 3 + 1 || false }

theorem answer_none (s : State) (size : UInt32) : Answer s size [none] :=
  ⟨none, [], rfl, by simp⟩

theorem Reached.call {cond : State -> Op -> Prop} {s s' : State} (hs : Reached cond s)
    (op : Op) (hlegal : Legal s op) (hcond : cond s op)
    (hstep : Memory.step s op = some s') : Reached cond s' :=
  Reached.step hs hlegal hcond hstep

theorem reached_first {cond : State -> Op -> Prop} (hcond : cond start (Op.malloc 10 [some 3])) :
    Reached cond (onPage [⟨1539, 509⟩] [⟨1536, 3⟩]) := by
  have hanswer : Answer start 10 [some 3] := by
    refine ⟨some 3, [], rfl, fun p hp => ?_⟩
    cases hp
    exact ⟨by decide, fun x _ _ => rfl⟩
  exact Reached.start.call (Op.malloc 10 [some 3]) ⟨by decide, hanswer⟩ hcond rfl

/-- A second block is allocated and released again. -/
theorem module_memory_conserved_second : Conserved (onPage [⟨1539, 509⟩] [⟨1536, 3⟩]) ∧
    forall op, Legal (onPage [⟨1539, 509⟩] [⟨1536, 3⟩]) op ->
      Keeps (onPage [⟨1539, 509⟩] [⟨1536, 3⟩]) op ->
      exists s', step (onPage [⟨1539, 509⟩] [⟨1536, 3⟩]) op = some s' := by
  have h1 : Reached Keeps (onPage [⟨1539, 509⟩] [⟨1536, 3⟩]) :=
    reached_first fun _ => ⟨⟨3, [], rfl⟩, by decide⟩
  have h2 : Reached Keeps (onPage [⟨1543, 505⟩] [⟨1539, 4⟩, ⟨1536, 3⟩]) := by
    refine h1.call (Op.malloc 20 [none]) ⟨by decide, answer_none _ _⟩ ?_ rfl
    intro htake
    exact absurd htake (by decide)
  refine module_memory_conserved
    (h2.call (Op.free 1539) ⟨⟨1539, 4⟩, by decide, rfl⟩ ?_ rfl)
  intro n hn hstart
  simp only [onPage, List.mem_cons, List.not_mem_nil, or_false] at hn
  rcases hn with rfl | rfl
  · exact ⟨by decide, by simp [onPage, Extent.stop]⟩
  · cases hstart

/-- Three legal runs after which it is not: the block of the first is released, and with it
the page; a block is released that starts its page and touches no free one; the request for
a page fails. -/
theorem module_memory_not_conserved :
    (exists s, Reached (fun _ _ => True) s ∧
        step (onPage [⟨1539, 509⟩] [⟨1536, 3⟩]) (Op.free 1536) = some s ∧
        s.pageCnt = 4294967295 ∧ ¬ Conserved s) ∧
      (Reached (fun _ _ => True) (onPage [⟨2040, 8⟩] [⟨1539, 501⟩]) ∧
        ¬ Conserved (onPage [⟨2040, 8⟩] [⟨1539, 501⟩])) ∧
      (Reached (fun _ _ => True) { start with modSem := 0 } ∧
        ¬ Conserved { start with modSem := 0 }) := by
  have h1 : Reached (fun _ _ => True) (onPage [⟨1539, 509⟩] [⟨1536, 3⟩]) :=
    reached_first trivial
  have h2 : Reached (fun _ _ => True) (onPage [⟨2040, 8⟩] [⟨1539, 501⟩, ⟨1536, 3⟩]) :=
    h1.call (Op.malloc 4000 [none]) ⟨by decide, answer_none _ _⟩ trivial rfl
  refine ⟨?_, ⟨?_, fun h => ?_⟩, ?_, fun h => ?_⟩
  · refine ⟨_, h1.call (Op.free 1536) ⟨⟨1536, 3⟩, by decide, rfl⟩ trivial rfl,
      rfl, rfl, fun h => ?_⟩
    exact absurd h.count (by decide +kernel)
  · exact h2.call (Op.free 1536) ⟨⟨1536, 3⟩, by decide, rfl⟩ trivial rfl
  · have hunit := (h.units.covers 1536).mp (by decide)
    simp [onPage, Extent.Has, Extent.stop] at hunit
  · exact Reached.start.call (Op.malloc 10 [none])
      ⟨by decide, answer_none _ _⟩ trivial rfl
  · exact absurd h.released (by decide)

end RtThread.Module.Memory
