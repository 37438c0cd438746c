import Mathlib.Algebra.Group.Nat.Defs
import RtThread.Library.Extents
import RtThread.Library.Transition
import Mathlib.Logic.Function.Basic

/-!
# The page allocator of the slab heap

`rt_page_alloc`, `rt_page_free` and `rt_page_init` of `slab.c`. A page is named by its address
divided by `RT_MM_PAGE_SIZE`, which makes the arithmetic on `struct rt_page_head` pointers that of
numbers. The head of a free run lies in its first page. An operation has no result when an
assertion fails or its loop does not end.
-/

namespace RtThread.Mem

open Extents Transition
open Function (update update_of_ne update_self)

namespace Slab

def pageSize : Nat := 4096

def pageCount : Nat := 2 ^ 20

/-- What is done to `heap_sem`. -/
inductive SemOp where
  | take
  | release
deriving DecidableEq, Repr

/-- `rt_page_list`, the page heads, and what was done to `heap_sem`, latest
last. -/
structure PageHeap where
  pageList : Option Nat
  next : Nat -> Option Nat
  page : Nat -> Nat
  heapSem : List SemOp

/-- What the pointer `prev` of the two loops points at. -/
inductive Slot where
  | pageList
  | next (b : Nat)
deriving DecidableEq, Repr

def PageHeap.load (h : PageHeap) : Slot -> Option Nat
  | Slot.pageList => h.pageList
  | Slot.next b => h.next b

def PageHeap.store (h : PageHeap) (prev : Slot) (v : Option Nat) : PageHeap :=
  match prev with
  | Slot.pageList => { h with pageList := v }
  | Slot.next b => { h with next := Function.update h.next b v }

def PageHeap.head (h : PageHeap) (n : Nat) (next : Option Nat) (page : Nat) :
    PageHeap :=
  { h with next := Function.update h.next n next
           page := Function.update h.page n page }

/-- `rt_sem_take` on `heap_sem` -/
def PageHeap.lock (h : PageHeap) : PageHeap :=
  { h with heapSem := h.heapSem ++ [SemOp.take] }

/-- `rt_sem_release` on `heap_sem` -/
def PageHeap.unlock (h : PageHeap) : PageHeap :=
  { h with heapSem := h.heapSem ++ [SemOp.release] }

def pageAllocLoop (npages : Nat) :
    Nat -> PageHeap -> Slot -> Option (Option Nat × PageHeap)
  | 0, _, _ => none
  | fuel + 1, h, prev =>
    match h.load prev with
    | none => some (none, h)
    | some b =>
      if npages < h.page b then
        let n := b + npages
        some (some b, (h.head n (h.next b) (h.page b - npages)).store prev
          (some n))
      else if h.page b = npages then some (some b, h.store prev (h.next b))
      else pageAllocLoop npages fuel h (Slot.next b)

def rtPageAlloc (h : PageHeap) (npages : Nat) :
    Option (Option Nat × PageHeap) :=
  if npages = 0 then some (none, h)
  else
    (pageAllocLoop npages (pageCount + 1) h.lock Slot.pageList).map fun r =>
      (r.1, r.2.unlock)

/-- The run in front of `n` grows, and takes in the one behind it if they now
touch. -/
def growRun (h : PageHeap) (b npages : Nat) : PageHeap :=
  let page := h.page b + npages
  let h := { h with page := Function.update h.page b page }
  match h.next b with
  | none => h
  | some c =>
    if b + page = c then h.head b (h.next c) (page + h.page c) else h

def pageFreeLoop (n npages : Nat) : Nat -> PageHeap -> Slot -> Option PageHeap
  | 0, _, _ => none
  | fuel + 1, h, prev =>
    match h.load prev with
    | none => some ((h.head n none npages).store prev (some n))
    | some b =>
      if h.page b = 0 then none
      else if ¬(n < b ∨ b + h.page b ≤ n) then none
      else if b + h.page b = n then some (growRun h b npages)
      else if b = n + npages then
        some ((h.head n (h.next b) (h.page b + npages)).store prev (some n))
      else if n + npages < b then
        some ((h.head n (some b) npages).store prev (some n))
      else pageFreeLoop n npages fuel h (Slot.next b)

def rtPageFree (h : PageHeap) (addr npages : Nat) : Option PageHeap :=
  if npages = 0 then none
  else
    (pageFreeLoop addr npages (pageCount + 1) h.lock Slot.pageList).map
      PageHeap.unlock

def rtPageInit (h : PageHeap) (addr npages : Nat) : Option PageHeap :=
  if npages = 0 then none
  else rtPageFree { h with pageList := none } addr npages

/-!
## The free list in memory
-/

/-- From `p` on, the page heads describe these runs. -/
def Heads (h : PageHeap) : Option Nat -> List Extent -> Prop
  | p, [] => p = none
  | p, e :: l => p = some e.start ∧ h.page e.start = e.size ∧
      Heads h (h.next e.start) l

/-- `rt_page_list` describes these runs. -/
def FreeRuns (h : PageHeap) (l : List Extent) : Prop := Heads h h.pageList l

section Heads

variable {h h' : PageHeap} {p : Option Nat} {l l' : List Extent} {prev : Slot}

theorem Heads.congr (hh : Heads h p l) (hsame : forall e, e ∈ l ->
      h'.next e.start = h.next e.start ∧ h'.page e.start = h.page e.start) :
    Heads h' p l := by
  induction l generalizing p with
  | nil => exact hh
  | cons e l ih =>
    rcases hh with ⟨hp, hpage, hrest⟩
    have he := hsame e List.mem_cons_self
    refine ⟨hp, he.right.trans hpage, ?_⟩
    rw [he.left]
    exact ih hrest (fun f hf => hsame f (List.mem_cons_of_mem e hf))

@[simp]
theorem load_store : (h.store prev p).load prev = p := by
  cases prev with
  | pageList => rfl
  | next b => simp [PageHeap.store, PageHeap.load]

@[simp]
theorem load_store_of_ne {q : Slot} (hne : q ≠ prev) : (h.store prev p).load q = h.load q := by
  cases prev with
  | pageList =>
    cases q with
    | pageList => exact absurd rfl hne
    | next b => rfl
  | next b =>
    cases q with
    | pageList => rfl
    | next c =>
      have hcb : c ≠ b := fun heq => hne (by rw [heq])
      simp [PageHeap.store, PageHeap.load, hcb]

@[simp]
theorem store_page : (h.store prev p).page = h.page := by
  cases prev <;> rfl

@[simp]
theorem store_heapSem : (h.store prev p).heapSem = h.heapSem := by
  cases prev <;> rfl

end Heads

/-- One slot and the heads of a region have changed, and the slot now leads to
these runs. -/
structure Rewired (h h' : PageHeap) (prev : Slot) (region : Nat -> Prop)
    (l' : List Extent) : Prop where
  heads : Heads h' (h'.load prev) l'
  slots : forall q, q ≠ prev -> (forall b, q = Slot.next b -> ¬region b) ->
    h'.load q = h.load q
  sizes : forall x, ¬region x -> h'.page x = h.page x
  sem : h'.heapSem = h.heapSem

section Rewired

variable {h h' : PageHeap} {prev : Slot} {l l' : List Extent} {e r : Extent}
  {region region' : Nat -> Prop} {n a x : Nat} {v : Option Nat}

def Slot.Outside (prev : Slot) (region : Nat -> Prop) : Prop :=
  forall b, prev = Slot.next b -> ¬region b

theorem Slot.Outside.ne_next (ho : prev.Outside region) (hx : region x) :
    Slot.next x ≠ prev := fun heq => ho x heq.symm hx

theorem Rewired.mono (hw : Rewired h h' prev region l')
    (hsub : forall x, region x -> region' x) : Rewired h h' prev region' l' :=
  ⟨hw.heads, fun q hq ho => hw.slots q hq fun b hb hx => ho b hb (hsub b hx),
    fun x hx => hw.sizes x fun hr => hx (hsub x hr), hw.sem⟩

theorem Rewired.cons (hw : Rewired h h' (Slot.next e.start) region l')
    (hload : h.load prev = some e.start) (hpage : h.page e.start = e.size)
    (hne : prev ≠ Slot.next e.start) (ho : prev.Outside region)
    (he : ¬region e.start) (hsize : 0 < e.size) :
    Rewired h h' prev (fun x => e.Has x ∨ region x) (e :: l') := by
  have hstart : e.Has e.start := by
    unfold Extent.Has Extent.stop
    omega
  refine ⟨⟨?_, ?_, hw.heads⟩, ?_, ?_, hw.sem⟩
  · rw [hw.slots prev hne ho, hload]
  · rw [hw.sizes e.start he, hpage]
  · intro q hq hout
    apply hw.slots q
    · intro heq
      exact hout e.start heq (Or.inl hstart)
    · intro b hb hx
      exact hout b hb (Or.inr hx)
  · intro x hx
    exact hw.sizes x (fun hr => hx (Or.inr hr))

theorem Rewired.head_store (ho : prev.Outside region) (ha : region a)
    (hl : Heads h v l) (hfree : forall f, f ∈ l -> region f.start ∧ f.start ≠ a)
    (hn : e = ⟨a, n⟩) :
    Rewired h ((h.head a v n).store prev (some a)) prev region (e :: l) := by
  subst hn
  have hnext : forall x, region x -> ((h.head a v n).store prev (some a)).next x =
      update h.next a v x := by
    intro x hx
    exact load_store_of_ne (ho.ne_next hx)
  refine ⟨⟨load_store, ?_, ?_⟩, ?_, ?_, store_heapSem⟩
  · simp [PageHeap.head]
  · rw [hnext a ha, update_self]
    apply hl.congr
    intro f hf
    rw [hnext f.start (hfree f hf).left, store_page]
    exact ⟨update_of_ne (hfree f hf).right _ _, update_of_ne (hfree f hf).right _ _⟩
  · intro q hq hout
    rw [load_store_of_ne hq]
    cases q with
    | pageList => rfl
    | next b =>
      have hba : b ≠ a := fun heq => hout b rfl (heq ▸ ha)
      exact update_of_ne hba _ _
  · intro x hx
    have hxa : x ≠ a := fun heq => hx (heq ▸ ha)
    rw [store_page]
    exact update_of_ne hxa _ _

theorem Rewired.store (ho : prev.Outside region) (hl : Heads h v l)
    (hfree : forall f, f ∈ l -> region f.start) :
    Rewired h (h.store prev v) prev region l := by
  refine ⟨?_, ?_, ?_, store_heapSem⟩
  · rw [load_store]
    apply hl.congr
    intro f hf
    rw [store_page]
    exact ⟨load_store_of_ne (ho.ne_next (hfree f hf)), rfl⟩
  · intro q hq _
    exact load_store_of_ne hq
  · intro x _
    rw [store_page]

theorem Rewired.head_keep (ho : prev.Outside region) (ha : region a)
    (hload : h.load prev = some a) (hl : Heads h v l)
    (hfree : forall f, f ∈ l -> f.start ≠ a) (hn : e = ⟨a, n⟩) :
    Rewired h (h.head a v n) prev region (e :: l) := by
  subst hn
  have hslot : forall q, q ≠ Slot.next a -> (h.head a v n).load q = h.load q := by
    intro q hq
    cases q with
    | pageList => rfl
    | next b =>
      have hba : b ≠ a := fun heq => hq (by rw [heq])
      exact update_of_ne hba _ _
  refine ⟨⟨?_, ?_, ?_⟩, ?_, ?_, rfl⟩
  · rw [hslot prev (Ne.symm (ho.ne_next ha)), hload]
  · simp [PageHeap.head]
  · show Heads _ (update h.next a v a) l
    rw [update_self]
    apply hl.congr
    intro f hf
    exact ⟨update_of_ne (hfree f hf) _ _, update_of_ne (hfree f hf) _ _⟩
  · intro q _ hout
    apply hslot
    intro heq
    exact hout a heq ha
  · intro x hx
    have hxa : x ≠ a := fun heq => hx (heq ▸ ha)
    exact update_of_ne hxa _ _

theorem Rewired.refl (hl : Heads h (h.load prev) l) : Rewired h h prev region l :=
  ⟨hl, fun _ _ _ => rfl, fun _ _ => rfl, rfl⟩

end Rewired

/-!
## The loops
-/

section Loops

variable {h : PageHeap} {prev : Slot} {l : List Extent} {e r : Extent}
  {n fuel x : Nat}

theorem has_start (hpos : 0 < e.size) : e.Has e.start := by
  unfold Extent.Has Extent.stop
  omega

theorem covers_start (hs : Separated l) (he : e ∈ l) : Covers l e.start :=
  ⟨e, he, has_start (hs.positive e he)⟩

theorem not_covers_of_before (hlow : forall e, e ∈ l -> x < e.start) : ¬Covers l x := by
  rintro ⟨e, he, hx⟩
  have hlt := hlow e he
  unfold Extent.Has at hx
  omega

theorem Separated.not_covers_start (hs : Separated (e :: l)) : ¬Covers l e.start := by
  apply not_covers_of_before
  intro f hf
  have hbehind := hs.behind hf
  unfold Extent.stop at hbehind
  omega

theorem pageAllocLoop_take (hs : Separated l) (hh : Heads h (h.load prev) l)
    (hn : 0 < n) (ho : prev.Outside (Covers l)) (hfuel : l.length < fuel) :
    exists h', pageAllocLoop n fuel h prev = some ((take n l).map Prod.fst, h') ∧
      Rewired h h' prev (Covers l) ((take n l).elim l Prod.snd) := by
  induction l generalizing fuel prev with
  | nil =>
    have hload : h.load prev = none := hh
    cases fuel with
    | zero => cases hfuel
    | succ fuel =>
      simp only [pageAllocLoop, hload]
      exact ⟨h, rfl, Rewired.refl hh⟩
  | cons e l ih =>
    rcases hh with ⟨hload, hpage, hrest⟩
    have hpos := hs.positive e List.mem_cons_self
    cases fuel with
    | zero => cases hfuel
    | succ fuel =>
      simp only [pageAllocLoop, hload, hpage, take]
      split
      · rename_i hlt
        refine ⟨_, rfl, ?_⟩
        apply Rewired.head_store ho ?_ hrest ?_ rfl
        · rw [covers_cons]
          left
          unfold Extent.Has Extent.stop
          omega
        · intro f hf
          refine ⟨covers_start hs (List.mem_cons_of_mem e hf), ?_⟩
          have hbehind := hs.behind hf
          unfold Extent.stop at hbehind
          omega
      · split
        · refine ⟨_, rfl, ?_⟩
          apply Rewired.store ho hrest
          intro f hf
          exact covers_start hs (List.mem_cons_of_mem e hf)
        · have hnot := Separated.not_covers_start hs
          have hout : (Slot.next e.start).Outside (Covers l) := by
            rintro b ⟨⟩
            exact hnot
          have hrest' : Heads h (h.load (Slot.next e.start)) l := hrest
          have hih := ih hs.tail hrest' hout (Nat.lt_of_succ_lt_succ hfuel)
          rcases hih with ⟨h', hloop, hw⟩
          have hcons := hw.cons hload hpage
            (Ne.symm (ho.ne_next (covers_start hs List.mem_cons_self)))
            (fun b hb hx => ho b hb (by simp [hx])) hnot hpos
          refine ⟨h', ?_, ?_⟩
          · rw [hloop]
            cases take n l <;> rfl
          · have hlist : ((take n l).map fun r => (r.1, e :: r.2)).elim (e :: l)
                Prod.snd = e :: (take n l).elim l Prod.snd := by
              cases take n l <;> rfl
            rw [hlist]
            exact hcons.mono fun x hx => covers_cons.mpr hx

theorem growRun_give (hs : Separated (e :: l)) (hload : h.load prev = some e.start)
    (hpage : h.page e.start = e.size) (hrest : Heads h (h.next e.start) l)
    (htouch : e.stop = r.start)
    (ho : prev.Outside fun x => r.Has x ∨ Covers (e :: l) x) :
    Rewired h (growRun h e.start r.size) prev
      (fun x => r.Has x ∨ Covers (e :: l) x) (give r (e :: l)) := by
  have hstart : r.Has e.start ∨ Covers (e :: l) e.start :=
    Or.inr (covers_start hs List.mem_cons_self)
  have hsame : { h with page := update h.page e.start (e.size + r.size) } =
      h.head e.start (h.next e.start) (e.size + r.size) := by
    simp [PageHeap.head]
  cases l with
  | nil =>
    have hnone : h.next e.start = none := hrest
    simp only [growRun, give, htouch, if_true, hpage, hnone]
    rw [hsame]
    exact Rewired.head_keep ho hstart hload hrest (by simp) rfl
  | cons f l =>
    rcases hrest with ⟨hnext, hpagef, hrest⟩
    have hne : forall d, d ∈ f :: l -> d.start ≠ e.start := by
      intro d hd heq
      have hbehind := hs.behind hd
      unfold Extent.stop at hbehind
      omega
    have hfe := hne f List.mem_cons_self
    have hjoin : e.start + (e.size + r.size) = r.stop := by
      unfold Extent.stop at *
      omega
    simp only [growRun, give, htouch, if_true, hpage, hnext, hjoin]
    split
    · rw [update_of_ne hfe, hpagef]
      have hhead : PageHeap.head { h with page := update h.page e.start (e.size + r.size) }
          e.start (h.next f.start) (e.size + r.size + f.size) =
          h.head e.start (h.next f.start) (e.size + r.size + f.size) := by
        simp [PageHeap.head]
      rw [hhead]
      exact Rewired.head_keep ho hstart hload hrest
        (fun d hd => hne d (List.mem_cons_of_mem f hd)) rfl
    · rw [hsame]
      exact Rewired.head_keep ho hstart hload ⟨hnext, hpagef, hrest⟩ hne rfl

theorem pageFreeLoop_give (hs : Separated l) (hh : Heads h (h.load prev) l)
    (hr : 0 < r.size) (hapart : forall e, e ∈ l -> Apart r e)
    (ho : prev.Outside fun x => r.Has x ∨ Covers l x) (hfuel : l.length < fuel) :
    exists h', pageFreeLoop r.start r.size fuel h prev = some h' ∧
      Rewired h h' prev (fun x => r.Has x ∨ Covers l x) (give r l) := by
  have hrstart : r.Has r.start := has_start hr
  induction l generalizing fuel prev with
  | nil =>
    have hload : h.load prev = none := hh
    cases fuel with
    | zero => cases hfuel
    | succ fuel =>
      simp only [pageFreeLoop, hload, give]
      exact ⟨_, rfl, Rewired.head_store ho (Or.inl hrstart) rfl (by simp) rfl⟩
  | cons e l ih =>
    rcases hh with ⟨hload, hpage, hrest⟩
    have hpos := hs.positive e List.mem_cons_self
    have he := hapart e List.mem_cons_self
    unfold Apart Extent.stop at he
    have hwhole : Heads h (some e.start) (e :: l) := ⟨rfl, hpage, hrest⟩
    have hne : forall f, f ∈ e :: l -> f.start ≠ r.start := by
      intro f hf heq
      have hf' := hapart f hf
      have hfpos := hs.positive f hf
      unfold Apart Extent.stop at hf'
      omega
    have hregion : forall f, f ∈ e :: l -> (r.Has f.start ∨ Covers (e :: l) f.start) ∧
        f.start ≠ r.start :=
      fun f hf => ⟨Or.inr (covers_start hs hf), hne f hf⟩
    cases fuel with
    | zero => cases hfuel
    | succ fuel =>
      -- the two assertions hold
      have hassert : r.start < e.start ∨ e.start + e.size ≤ r.start := by omega
      simp only [pageFreeLoop, hload, hpage, Nat.ne_of_gt hpos, hassert, if_false,
        not_true_eq_false]
      split
      · rename_i htouch
        exact ⟨_, rfl, growRun_give hs hload hpage hrest htouch ho⟩
      · rename_i hapartE
        have hnot : ¬e.stop = r.start := hapartE
        split
        · rename_i htouch
          have hgive : give r (e :: l) = ⟨r.start, e.size + r.size⟩ :: l := by
            exact give_touching hnot htouch
          rw [hgive]
          exact ⟨_, rfl, Rewired.head_store ho (Or.inl hrstart) hrest
            (fun f hf => hregion f (List.mem_cons_of_mem e hf)) rfl⟩
        · rename_i hnot'
          split
          · rename_i hlt
            have hgive : give r (e :: l) = r :: e :: l := by
              exact give_before hnot hnot' hlt
            rw [hgive]
            exact ⟨_, rfl, Rewired.head_store ho (Or.inl hrstart) hwhole hregion rfl⟩
          · rename_i hge
            have hgive : give r (e :: l) = e :: give r l := by
              exact give_behind hnot hnot' hge
            have hout : ¬(r.Has e.start ∨ Covers l e.start) := by
              rintro (hx | hx)
              · unfold Extent.Has Extent.stop at hx
                omega
              · exact Separated.not_covers_start hs hx
            have hrest' : Heads h (h.load (Slot.next e.start)) l := hrest
            have hih := ih hs.tail hrest' (fun f hf => hapart f (List.mem_cons_of_mem e hf))
              (by rintro b ⟨⟩; exact hout) (Nat.lt_of_succ_lt_succ hfuel)
            rcases hih with ⟨h', hloop, hw⟩
            refine ⟨h', hloop, ?_⟩
            rw [hgive]
            have hcons := hw.cons hload hpage
              (Ne.symm (ho.ne_next (hregion e List.mem_cons_self).left))
              (fun b hb hx => ho b hb (hx.imp_right fun hc => covers_cons.mpr (Or.inr hc)))
              hout hpos
            apply hcons.mono
            intro x hx
            rw [covers_cons]
            tauto

end Loops

/-!
## Free and live pages
-/

/-- The free runs and the live runs make up the pages from `lo` to `hi`. -/
structure Pages (lo hi : Nat) (h : PageHeap) (free live : List Extent) : Prop where
  runs : FreeRuns h free
  separated : Separated free
  positive : forall e, e ∈ live -> 0 < e.size
  apart : (free ++ live).Pairwise Apart
  covers : forall x, Covers (free ++ live) x <-> lo ≤ x ∧ x < hi

section Pages

variable {lo hi n a : Nat} {h h' : PageHeap} {free free' live : List Extent}
  {e r : Extent}

theorem Pages.within (hp : Pages lo hi h free live) (he : e ∈ free ++ live) :
    lo ≤ e.start ∧ e.stop ≤ hi := by
  have hpos : 0 < e.size := by
    rcases List.mem_append.mp he with he | he
    · exact hp.separated.positive e he
    · exact hp.positive e he
  have hfirst := (hp.covers e.start).mp ⟨e, he, has_start hpos⟩
  have hlast := (hp.covers (e.stop - 1)).mp ⟨e, he, by
    unfold Extent.Has Extent.stop
    omega⟩
  unfold Extent.stop at *
  omega

theorem Pages.length_le (hp : Pages lo hi h free live) (hhi : hi ≤ pageCount) :
    free.length < pageCount + 1 := by
  cases free with
  | nil => exact Nat.succ_pos _
  | cons e l =>
    have he := hp.within (List.mem_append_left live (List.mem_cons_self (a := e)))
    have hlen : lo + (e :: l).length ≤ hi := hp.separated.length_le
      (by unfold Extent.stop at he; omega)
      (fun f hf => hp.within (List.mem_append_left live hf))
    omega

theorem Pages.congr (hp : Pages lo hi h free live) (hlist : h'.pageList = h.pageList)
    (hnext : h'.next = h.next) (hpage : h'.page = h.page) :
    Pages lo hi h' free live := by
  refine ⟨?_, hp.separated, hp.positive, hp.apart, hp.covers⟩
  unfold FreeRuns
  rw [hlist]
  apply Heads.congr (h := h) hp.runs
  intro e _
  rw [hnext, hpage]
  exact ⟨rfl, rfl⟩

theorem Pages.unlock (hp : Pages lo hi h free live) : Pages lo hi h.unlock free live :=
  hp.congr rfl rfl rfl

theorem Pages.of_taken (hp : Pages lo hi h free live) (hn : 0 < n)
    (ht : Taken n free a free') (hruns : FreeRuns h' free') :
    Pages lo hi h' free' (⟨a, n⟩ :: live) := by
  have hsplit := List.pairwise_append.mp hp.apart
  have hnew : forall e, 0 < e.size -> (forall x, e.Has x -> Covers free x) ->
      forall f, f ∈ live -> Apart e f := by
    intro e he hsub f hf
    exact apart_of_covers he (hp.positive f hf) (fun d hd => hsplit.right.right d hd f hf) hsub
  refine ⟨hruns, ht.separated, ?_, ?_, ?_⟩
  · intro e he
    rcases List.mem_cons.mp he with heq | he
    · rw [heq]
      exact hn
    · exact hp.positive e he
  · refine List.pairwise_append.mpr ⟨ht.separated.pairwise_apart,
      List.pairwise_cons.mpr ⟨?_, hsplit.right.left⟩, ?_⟩
    · apply hnew ⟨a, n⟩ hn
      intro x hx
      exact (ht.covers x).mpr (Or.inl hx)
    · intro e he f hf
      rcases List.mem_cons.mp hf with heq | hf
      · rw [heq]
        exact (ht.apart e he).symm
      · apply hnew e (ht.separated.positive e he) ?_ f hf
        intro x hx
        exact (ht.covers x).mpr (Or.inr ⟨e, he, hx⟩)
  · intro x
    rw [← hp.covers x, covers_append, covers_append, covers_cons, ht.covers x]
    tauto

theorem Pages.of_given (hp : Pages lo hi h free (r :: live))
    (hg : Given r free free') (hruns : FreeRuns h' free') :
    Pages lo hi h' free' live := by
  have hsplit := List.pairwise_append.mp hp.apart
  have hlive := List.pairwise_cons.mp hsplit.right.left
  refine ⟨hruns, hg.separated, fun e he => hp.positive e (List.mem_cons_of_mem r he),
    List.pairwise_append.mpr ⟨hg.separated.pairwise_apart, hlive.right, ?_⟩, ?_⟩
  · intro e he f hf
    apply apart_of_covers (l := r :: free) (hg.separated.positive e he)
      (hp.positive f (List.mem_cons_of_mem r hf))
    · intro d hd
      rcases List.mem_cons.mp hd with heq | hd
      · rw [heq]
        exact hlive.left f hf
      · exact hsplit.right.right d hd f (List.mem_cons_of_mem r hf)
    · intro x hx
      exact covers_cons.mpr ((hg.covers x).mp ⟨e, he, hx⟩)
  · intro x
    rw [← hp.covers x, covers_append, covers_append, covers_cons, hg.covers x]
    tauto

theorem Pages.perm {live' : List Extent} (hp : Pages lo hi h free live)
    (hperm : live.Perm live') : Pages lo hi h free live' := by
  have hall : (free ++ live).Perm (free ++ live') := hperm.append_left free
  refine ⟨hp.runs, hp.separated, fun e he => hp.positive e (hperm.mem_iff.mpr he),
    (hall.pairwise_iff Apart.symm).mp hp.apart, ?_⟩
  intro x
  rw [← hp.covers x]
  unfold Covers
  simp only [hall.mem_iff]

/-!
## The two functions
-/

theorem rtPageAlloc_zero : rtPageAlloc h 0 = some (none, h) := rfl

/-- `rt_page_alloc` takes a run from the first free run with enough pages, and
fails if there is none. -/
theorem rtPageAlloc_spec (hp : Pages lo hi h free live) (hhi : hi ≤ pageCount) (hn : 0 < n) :
    ((forall e, e ∈ free -> e.size < n) ∧ exists h', rtPageAlloc h n = some (none, h') ∧
      Pages lo hi h' free live) ∨
    (exists e, e ∈ free ∧ n ≤ e.size) ∧ exists a h' free',
      rtPageAlloc h n = some (some a, h') ∧ Pages lo hi h' free' (⟨a, n⟩ :: live) := by
  have hlock : Pages lo hi h.lock free live := hp.congr rfl rfl rfl
  have hheads : Heads h.lock (h.lock.load Slot.pageList) free := hlock.runs
  rcases pageAllocLoop_take hp.separated hheads hn (by rintro b ⟨⟩)
    (hp.length_le hhi) with ⟨h1, hloop, hw⟩
  unfold rtPageAlloc
  rw [if_neg (Nat.ne_of_gt hn), hloop]
  cases htake : take n free with
  | none =>
    rw [htake] at hw
    refine Or.inl ⟨take_eq_none.mp htake, h1.unlock, rfl, ?_⟩
    have hkeep : Pages lo hi h1 free live :=
      ⟨hw.heads, hp.separated, hp.positive, hp.apart, hp.covers⟩
    exact hkeep.unlock
  | some r =>
    rw [htake] at hw
    have hsome : ¬forall e, e ∈ free -> e.size < n := by
      intro hall
      rw [take_eq_none.mpr hall] at htake
      cases htake
    push Not at hsome
    rcases hsome with ⟨e, he, hle⟩
    refine Or.inr ⟨⟨e, he, by omega⟩, r.1, h1.unlock, r.2, rfl, ?_⟩
    exact (hp.of_taken hn (take_taken hp.separated hn htake) hw.heads).unlock

theorem rtPageFree_spec (hp : Pages lo hi h free (r :: live)) (hhi : hi ≤ pageCount) :
    exists h' free', rtPageFree h r.start r.size = some h' ∧ Pages lo hi h' free' live := by
  have hpos := hp.positive r List.mem_cons_self
  have hapart : forall e, e ∈ free -> Apart r e := by
    intro e he
    exact ((List.pairwise_append.mp hp.apart).right.right e he r List.mem_cons_self).symm
  have hlock : Pages lo hi h.lock free (r :: live) := hp.congr rfl rfl rfl
  have hheads : Heads h.lock (h.lock.load Slot.pageList) free := hlock.runs
  rcases pageFreeLoop_give hp.separated hheads hpos hapart (by rintro b ⟨⟩)
    (hp.length_le hhi) with ⟨h1, hloop, hw⟩
  refine ⟨h1.unlock, give r free, ?_,
    (hp.of_given (give_given hp.separated hpos hapart) hw.heads).unlock⟩
  unfold rtPageFree
  rw [if_neg (Nat.ne_of_gt hpos), hloop]
  rfl

theorem rtPageInit_spec {start npages : Nat} (hn : 0 < npages)
    (hfit : start + npages ≤ pageCount) :
    exists h' free, rtPageInit h start npages = some h' ∧
      Pages start (start + npages) h' free [] := by
  have hstart : Pages start (start + npages) { h with pageList := none } []
    [⟨start, npages⟩] := by
    refine ⟨rfl, Separated.nil, ?_, List.pairwise_singleton _ _, ?_⟩
    · intro e he
      rw [List.mem_singleton.mp he]
      exact hn
    · intro x
      simp [Extent.Has, Extent.stop]
  rcases rtPageFree_spec hstart hfit with ⟨h', free, hfree, hp⟩
  refine ⟨h', free, ?_, hp⟩
  unfold rtPageInit
  rw [if_neg (Nat.ne_of_gt hn)]
  exact hfree

end Pages

/-!
## Runs
-/

inductive PageOp where
  | alloc (npages : Nat)
  | free (addr npages : Nat)
deriving DecidableEq, Repr

structure PageSystem where
  heap : PageHeap
  live : List Extent

def pageStep (s : PageSystem) : PageOp -> Option PageSystem
  | PageOp.alloc npages =>
    match rtPageAlloc s.heap npages with
    | none => none
    | some (none, h) => some ⟨h, s.live⟩
    | some (some b, h) => some ⟨h, ⟨b, npages⟩ :: s.live⟩
  | PageOp.free addr npages =>
    if ⟨addr, npages⟩ ∈ s.live then
      (rtPageFree s.heap addr npages).map fun h =>
        ⟨h, s.live.erase ⟨addr, npages⟩⟩
    else none

section Runs

variable {lo hi : Nat} {s s' : PageSystem} {op : PageOp} {free : List Extent}

theorem Pages.free_live {e : Extent} (hp : Pages lo hi s.heap free s.live)
    (he : e ∈ s.live) : Pages lo hi s.heap free (e :: s.live.erase e) :=
  hp.perm (List.perm_cons_erase he)

theorem pageStep_pages (hp : Pages lo hi s.heap free s.live) (hhi : hi ≤ pageCount)
    (hs : pageStep s op = some s') :
    exists free', Pages lo hi s'.heap free' s'.live := by
  cases op with
  | alloc n =>
    cases n with
    | zero =>
      cases hs
      exact ⟨free, hp⟩
    | succ n =>
      simp only [pageStep] at hs
      rcases rtPageAlloc_spec hp hhi n.succ_pos with
        ⟨_, h', halloc, hp'⟩ | ⟨_, a, h', free', halloc, hp'⟩
      · rw [halloc] at hs
        cases hs
        exact ⟨free, hp'⟩
      · rw [halloc] at hs
        cases hs
        exact ⟨free', hp'⟩
  | free addr n =>
    simp only [pageStep] at hs
    split at hs
    · rename_i hlive
      rcases rtPageFree_spec (hp.free_live hlive) hhi with ⟨h', free', hfree, hp'⟩
      rw [hfree] at hs
      cases hs
      exact ⟨free', hp'⟩
    · cases hs

/-- In every run of the page allocator the free list is in order and coalesced, free and
live runs partition the pages, a request succeeds exactly when a free run is long enough,
and every live run can be freed. -/
theorem page_runs_partition {h0 h : PageHeap} {start npages : Nat}
    {ops : List PageOp} (hfit : start + npages ≤ pageCount)
    (hinit : rtPageInit h0 start npages = some h)
    (hrun : Run (Graph pageStep) ⟨h, []⟩ ops s) :
    exists free, FreeRuns s.heap free ∧ Separated free ∧
      (free ++ s.live).Pairwise Apart ∧
      (forall x, Covers (free ++ s.live) x <-> start ≤ x ∧ x < start + npages) ∧
      (forall n, exists r h', rtPageAlloc s.heap n = some (r, h') ∧
        (r ≠ none <-> 0 < n ∧ exists e, e ∈ free ∧ n ≤ e.size)) ∧
      forall e, e ∈ s.live -> rtPageFree s.heap e.start e.size ≠ none := by
  have hpages : exists free, Pages start (start + npages) s.heap free s.live := by
    apply hrun.invariant fun s => exists free, Pages start (start + npages) s.heap free s.live
    · have hn : 0 < npages := by
        by_contra hzero
        simp [rtPageInit, Nat.eq_zero_of_not_pos hzero] at hinit
      rcases rtPageInit_spec hn hfit with ⟨h', free, hinit', hp⟩
      rw [hinit] at hinit'
      cases hinit'
      exact ⟨free, hp⟩
    · rintro s op s' ⟨free, hp⟩ hs
      exact pageStep_pages hp hfit hs
  rcases hpages with ⟨free, hp⟩
  refine ⟨free, hp.runs, hp.separated, hp.apart, hp.covers, ?_, ?_⟩
  · intro n
    cases n with
    | zero => exact ⟨none, s.heap, rtPageAlloc_zero, by simp⟩
    | succ n =>
      rcases rtPageAlloc_spec hp hfit n.succ_pos with
        ⟨hall, h', halloc, _⟩ | ⟨hsome, a, h', _, halloc, _⟩
      · refine ⟨none, h', halloc, ?_⟩
        simpa using hall
      · refine ⟨some a, h', halloc, ?_⟩
        simpa using hsome
  · intro e he
    rcases rtPageFree_spec (hp.free_live he) hfit with ⟨h', _, hfree, _⟩
    rw [hfree]
    nofun

def PageHeap.empty : PageHeap := ⟨none, fun _ => none, fun _ => 0, []⟩

/-- Four pages, of which one is taken, then two, and the one is given back. -/
theorem page_runs_partition_four :
    exists h s, rtPageInit PageHeap.empty 16 4 = some h ∧
      exec pageStep ⟨h, []⟩
        [PageOp.alloc 1, PageOp.alloc 2, PageOp.free 16 1] = some s ∧
      s.live = [⟨17, 2⟩] ∧
      exists free, FreeRuns s.heap free ∧ Separated free ∧
        (free ++ s.live).Pairwise Apart ∧
        (forall x, Covers (free ++ s.live) x <-> 16 ≤ x ∧ x < 16 + 4) ∧
        (forall n, exists r h', rtPageAlloc s.heap n = some (r, h') ∧
          (r ≠ none <-> 0 < n ∧ exists e, e ∈ free ∧ n ≤ e.size)) ∧
        forall e, e ∈ s.live -> rtPageFree s.heap e.start e.size ≠ none := by
  have hpart := fun h s (hinit : rtPageInit PageHeap.empty 16 4 = some h)
    (hexec : exec pageStep ⟨h, []⟩
      [PageOp.alloc 1, PageOp.alloc 2, PageOp.free 16 1] = some s) =>
    page_runs_partition (by decide) hinit (run_of_exec hexec)
  exact ⟨_, _, rfl, rfl, rfl, hpart _ _ rfl rfl⟩

/-- A request for no pages fails although a free run has that many. -/
theorem page_alloc_zero_fails :
    exists h, rtPageInit PageHeap.empty 16 4 = some h ∧ FreeRuns h [⟨16, 4⟩] ∧
      ¬((rtPageAlloc h 0).map Prod.fst ≠ some none <->
        exists e, e ∈ [(⟨16, 4⟩ : Extent)] ∧ 0 ≤ e.size) := by
  refine ⟨_, rfl, ⟨rfl, rfl, rfl⟩, ?_⟩
  simp [rtPageAlloc]

end Runs

end Slab
end RtThread.Mem
