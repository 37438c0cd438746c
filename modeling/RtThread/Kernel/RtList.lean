import Mathlib.Logic.Function.Basic
import RtThread.Library.LinkRing

/-!
# Kernel lists

The intrusive lists of `rtservice.h`. A store of links maps every list node to its two neighbours.
The operations are the pointer assignments of the source, in order. A store represents a family of
lists when every head owns the ring of its list and every other member is a ring of its own; under
that relation the pointer operations compute the expected list operations.
-/

namespace RtThread.Kernel

open LinkRing

universe u v

/-- A list node: the head of a list, or the node embedded in a member. -/
inductive Node (Head : Type u) (Member : Type v) where
  | head (h : Head)
  | member (t : Member)
deriving DecidableEq

/-- The `next` and `prev` pointers of all list nodes. -/
structure Links (N : Type u) where
  next : N -> N
  prev : N -> N

section Store

variable {N : Type u} [DecidableEq N]

def Links.setNext (s : Links N) (a b : N) : Links N :=
  { s with next := Function.update s.next a b }

def Links.setPrev (s : Links N) (a b : N) : Links N :=
  { s with prev := Function.update s.prev a b }

def rtListInit (s : Links N) (l : N) : Links N :=
  (s.setNext l l).setPrev l l

def rtListInsertAfter (s : Links N) (l n : N) : Links N :=
  let s := s.setPrev (s.next l) n
  let s := s.setNext n (s.next l)
  let s := s.setNext l n
  s.setPrev n l

def rtListInsertBefore (s : Links N) (l n : N) : Links N :=
  let s := s.setNext (s.prev l) n
  let s := s.setPrev n (s.prev l)
  let s := s.setPrev l n
  s.setNext n l

def rtListRemove (s : Links N) (n : N) : Links N :=
  let s := s.setPrev (s.next n) (s.prev n)
  let s := s.setNext (s.prev n) (s.next n)
  (s.setNext n n).setPrev n n

def rtListIsempty (s : Links N) (l : N) : Bool :=
  s.next l == l

end Store

/-!
## Families of lists
-/

section Family

variable {Head : Type u} {Member : Type v}

/-- The store represents these lists, and no member occurs in two places. -/
structure Family (s : Links (Node Head Member))
    (lists : Head -> List Member) : Prop where
  ring : forall h, Ring s.next s.prev (Node.head h)
    ((lists h).map Node.member)
  alone : forall t, (forall h, t ∉ lists h) ->
    Ring s.next s.prev (Node.member t) []
  disjoint : forall h h' t, t ∈ lists h -> t ∈ lists h' -> h = h'

variable {s : Links (Node Head Member)} {lists : Head -> List Member}

theorem Family.nodup (hf : Family s lists) (h : Head) : (lists h).Nodup := by
  have hnd := (List.nodup_cons.mp (hf.ring h).nodup).right
  exact hnd.of_map

theorem Family.isempty_iff [DecidableEq Head] [DecidableEq Member]
    (hf : Family s lists) (h : Head) :
    rtListIsempty s (Node.head h) = true <-> lists h = [] := by
  rw [rtListIsempty, beq_iff_eq, (hf.ring h).next_head_eq_iff]
  exact List.map_eq_nil_iff

variable {h : Head} {t : Member}

theorem Family.next_head_cons (hf : Family s lists) {rest : List Member}
    (hl : lists h = t :: rest) :
    s.next (Node.head h) = Node.member t := by
  have hnext := (hf.ring h).next_head
  simpa [hl] using hnext

theorem Family.next_head_nil (hf : Family s lists) (hl : lists h = []) :
    s.next (Node.head h) = Node.head h := by
  have hnext := (hf.ring h).next_head
  simpa [hl] using hnext

theorem Family.member_alone_iff (hf : Family s lists) (t : Member) :
    s.next (Node.member t) = Node.member t <-> forall h, t ∉ lists h := by
  constructor
  · intro hself h hin
    rcases List.mem_iff_append.mp hin with ⟨xs, ys, hsplit⟩
    have hring := hf.ring h
    rw [hsplit, List.map_append, List.map_cons] at hring
    have hnext := hring.neighbours.left
    rw [hself] at hnext
    have hmem := List.head_mem
      (l := ys.map Node.member ++ [(Node.head h : Node Head Member)]) (by simp)
    rw [← hnext] at hmem
    have hnd := (List.nodup_cons.mp hring.nodup).right
    have hnd' := (List.nodup_cons.mp (List.nodup_append.mp hnd).right.left).left
    simp only [List.mem_append, List.mem_singleton] at hmem
    rcases hmem with hys | hhead
    · exact hnd' hys
    · cases hhead
  · intro hfree
    exact (ring_nil_iff.mp (hf.alone t hfree)).left

/-!
## Pointer operations compute list operations

Each operation changes one list by one member and assigns only nodes of that
list, so one rule rebuilds the family around the changed ring.
-/

variable [DecidableEq Head] [DecidableEq Member]

theorem Family.update {s' : Links (Node Head Member)} {l' : List Member} (hf : Family s lists)
    (hring : Ring s'.next s'.prev (Node.head h) (l'.map Node.member))
    (hmem : forall x, x ≠ t -> (x ∈ l' <-> x ∈ lists h))
    (hother : forall h', h' ≠ h -> t ∉ lists h')
    (hout : t ∉ l' -> Ring s'.next s'.prev (Node.member t) [])
    (hnext : forall x, x ∉ Node.head h :: (lists h).map Node.member ->
      x ≠ Node.member t -> s'.next x = s.next x)
    (hprev : forall x, x ∉ Node.head h :: (lists h).map Node.member ->
      x ≠ Node.member t -> s'.prev x = s.prev x) :
    Family s' (Function.update lists h l') := by
  constructor
  · intro h'
    by_cases hh : h' = h
    · subst hh
      simpa using hring
    · rw [Function.update_of_ne hh]
      -- a ring of another head has no node in common with the changed one
      have haway : forall x, x ∈ Node.head h' :: (lists h').map Node.member ->
          x ∉ Node.head h :: (lists h).map Node.member ∧ x ≠ Node.member t := by
        intro x hx
        simp only [List.mem_cons, List.mem_map] at hx ⊢
        rcases hx with rfl | ⟨t', ht', rfl⟩
        · simp [hh]
        · constructor
          · rintro (heq | ⟨t1, ht1, heq⟩)
            · cases heq
            · cases heq
              exact hh (hf.disjoint h' h t' ht' ht1)
          · intro heq
            cases heq
            exact hother h' hh ht'
      apply (hf.ring h').congr
      · intro x hx
        exact hnext x (haway x hx).left (haway x hx).right
      · intro x hx
        exact hprev x (haway x hx).left (haway x hx).right
  · intro t' hfree
    by_cases ht : t' = t
    · subst ht
      apply hout
      simpa using hfree h
    · have hold : forall h', t' ∉ lists h' := by
        intro h'
        by_cases hh : h' = h
        · subst hh
          rw [← hmem t' ht]
          simpa using hfree h'
        · simpa [Function.update_of_ne hh] using hfree h'
      have haway : Node.member t' ∉
          (Node.head h : Node Head Member) :: (lists h).map Node.member := by
        simpa using hold h
      apply (hf.alone t' hold).congr
      · intro x hx
        rw [List.mem_singleton.mp hx]
        exact hnext _ haway (by simpa using ht)
      · intro x hx
        rw [List.mem_singleton.mp hx]
        exact hprev _ haway (by simpa using ht)
  · intro h1 h2 x hx1 hx2
    -- membership in the new family, traced back to the old one
    have hback : forall h', x ∈ Function.update lists h l' h' ->
        h' = h ∨ (x ∈ lists h' ∧ (x = t -> False)) := by
      intro h' hx
      by_cases hh : h' = h
      · exact Or.inl hh
      · rw [Function.update_of_ne hh] at hx
        apply Or.inr
        constructor
        · exact hx
        · intro heq
          subst heq
          exact hother h' hh hx
    rcases hback h1 hx1 with rfl | ⟨hin1, hne1⟩
    · rcases hback h2 hx2 with rfl | ⟨hin2, hne2⟩
      · rfl
      · rw [Function.update_self] at hx1
        exact hf.disjoint _ _ x ((hmem x hne2).mp hx1) hin2
    · rcases hback h2 hx2 with rfl | ⟨hin2, _⟩
      · rw [Function.update_self] at hx2
        exact hf.disjoint _ _ x hin1 ((hmem x hne1).mp hx2)
      · exact hf.disjoint _ _ x hin1 hin2

omit [DecidableEq Head] in
theorem erase_eq_self_of_free {t : Member} (hfree : forall h, t ∉ lists h) :
    (fun h => (lists h).erase t) = lists := by
  funext h
  exact List.erase_of_not_mem (hfree h)

theorem erase_eq_update (hf : Family s lists) {xs ys : List Member} (hl : lists h = xs ++ t :: ys) :
    (fun h => (lists h).erase t) = Function.update lists h (xs ++ ys) := by
  have hmem : t ∈ lists h := by
    rw [hl]
    simp
  funext h'
  by_cases hh : h' = h
  · subst hh
    have hnotin : t ∉ xs := by
      have hnd := hf.nodup h'
      rw [hl] at hnd
      intro hin
      exact (List.nodup_append.mp hnd).right.right t hin t (by simp) rfl
    rw [Function.update_self, hl, List.erase_append_right _ hnotin, List.erase_cons_head]
  · rw [Function.update_of_ne hh]
    apply List.erase_of_not_mem
    intro hin
    exact hh (hf.disjoint h' h t hin hmem)

theorem rtListRemove_next {N : Type u} [DecidableEq N] (s : Links N) (n x : N) :
    (rtListRemove s n).next x =
      if x = n then n else if x = s.prev n then s.next n else s.next x := by
  by_cases hn : s.next n = n <;>
    simp [rtListRemove, Links.setNext, Links.setPrev, Function.update_apply, hn]

theorem rtListRemove_prev {N : Type u} [DecidableEq N] (s : Links N) (n x : N) :
    (rtListRemove s n).prev x =
      if x = n then n else if x = s.next n then s.prev n else s.prev x := by
  simp [rtListRemove, Links.setNext, Links.setPrev, Function.update_apply]

theorem rtListInsertBefore_next {N : Type u} [DecidableEq N] (s : Links N) (l n x : N) :
    (rtListInsertBefore s l n).next x =
      if x = n then l else if x = s.prev l then n else s.next x := by
  simp [rtListInsertBefore, Links.setNext, Links.setPrev, Function.update_apply]

theorem rtListInsertBefore_prev {N : Type u} [DecidableEq N] (s : Links N) (l n x : N) :
    (rtListInsertBefore s l n).prev x =
      if x = l then n else if x = n then s.prev l else s.prev x := by
  simp [rtListInsertBefore, Links.setNext, Links.setPrev, Function.update_apply]

theorem rtListInsertAfter_next {N : Type u} [DecidableEq N] (s : Links N) (l n x : N) :
    (rtListInsertAfter s l n).next x =
      if x = l then n else if x = n then s.next l else s.next x := by
  simp [rtListInsertAfter, Links.setNext, Links.setPrev, Function.update_apply]

theorem rtListInsertAfter_prev {N : Type u} [DecidableEq N] (s : Links N) (l n x : N) :
    (rtListInsertAfter s l n).prev x =
      if x = n then l else if x = s.next l then n else s.prev x := by
  simp [rtListInsertAfter, Links.setNext, Links.setPrev, Function.update_apply]

theorem Family.remove (hf : Family s lists) (t : Member) :
    Family (rtListRemove s (Node.member t)) (fun h => (lists h).erase t) := by
  by_cases hfree : forall h, t ∉ lists h
  · rw [erase_eq_self_of_free hfree]
    rcases ring_nil_iff.mp (hf.alone t hfree) with ⟨hnext, hprev⟩
    have hsame : rtListRemove s (Node.member t) = s := by
      have hn : (rtListRemove s (Node.member t)).next = s.next := by
        funext x
        rw [rtListRemove_next, hnext, hprev]
        by_cases hx : x = Node.member t
        · rw [if_pos hx, hx, hnext]
        · rw [if_neg hx, if_neg hx]
      have hp : (rtListRemove s (Node.member t)).prev = s.prev := by
        funext x
        rw [rtListRemove_prev, hnext, hprev]
        by_cases hx : x = Node.member t
        · rw [if_pos hx, hx, hprev]
        · rw [if_neg hx, if_neg hx]
      cases hs : rtListRemove s (Node.member t) with
      | mk next prev =>
        simp_all
    rw [hsame]
    exact hf
  · push Not at hfree
    rcases hfree with ⟨h, hin⟩
    rcases List.mem_iff_append.mp hin with ⟨xs, ys, hl⟩
    rw [erase_eq_update hf hl]
    have hring := hf.ring h
    rw [hl, List.map_append, List.map_cons] at hring
    rcases hring.neighbours with ⟨hnext, hprev⟩
    have hfirst := List.head_mem (l := ys.map Node.member ++ [Node.head h]) (by simp)
    have hlast := List.getLast_mem
      (l := (Node.head h : Node Head Member) :: xs.map Node.member) (by simp)
    rw [← hnext] at hfirst
    rw [← hprev] at hlast
    have hnd := hring.nodup
    have hgone : Node.member t ∉
        (Node.head h : Node Head Member) :: (xs ++ ys).map Node.member := by
      have hperm : ((Node.head h : Node Head Member) ::
          (xs.map Node.member ++ Node.member t :: ys.map Node.member)).Perm
          (Node.member t :: Node.head h :: (xs ++ ys).map Node.member) := by
        rw [List.map_append]
        exact (List.Perm.cons _ List.perm_middle).trans (List.Perm.swap _ _ _)
      exact (List.nodup_cons.mp (hperm.nodup_iff.mp hnd)).left
    have hnextIn : s.next (Node.member t) ∈
        (Node.head h : Node Head Member) :: (xs ++ ys).map Node.member := by
      simp only [List.mem_append, List.map_append, List.mem_cons] at hfirst ⊢
      tauto
    have hprevIn : s.prev (Node.member t) ∈
        (Node.head h : Node Head Member) :: (xs ++ ys).map Node.member := by
      simp only [List.mem_append, List.map_append, List.mem_cons] at hlast ⊢
      tauto
    have hsub : forall x : Node Head Member, x ∈ Node.head h :: (xs ++ ys).map Node.member ->
        x ∈ Node.head h :: (lists h).map Node.member := by
      intro x hx
      rw [hl]
      simp only [List.map_append, List.map_cons, List.mem_cons, List.mem_append] at hx ⊢
      tauto
    have hne : forall x : Node Head Member, x ∈ Node.head h :: (xs ++ ys).map Node.member ->
        x ≠ Node.member t := by
      intro x hx heq
      exact hgone (heq ▸ hx)
    apply hf.update (t := t)
    · rw [List.map_append] at hne hnextIn hprevIn ⊢
      apply hring.unlink
      · rw [rtListRemove_next, ← hprev, if_neg (hne _ hprevIn), if_pos rfl, hnext]
      · rw [rtListRemove_prev, ← hnext, if_neg (hne _ hnextIn), if_pos rfl, hprev]
      · intro x hx hxa
        rw [rtListRemove_next, if_neg (hne x hx), hprev, if_neg hxa]
      · intro x hx hxb
        rw [rtListRemove_prev, if_neg (hne x hx), hnext, if_neg hxb]
    · intro x hx
      rw [hl]
      simp [hx]
    · intro h' hh hin'
      exact hh (hf.disjoint h' h t hin' hin)
    · intro _
      apply ring_nil_iff.mpr
      rw [rtListRemove_next, rtListRemove_prev, if_pos rfl]
      simp
    · intro x hx hxt
      rw [rtListRemove_next, if_neg hxt, if_neg]
      intro heq
      exact hx (hsub x (heq ▸ hprevIn))
    · intro x hx hxt
      rw [rtListRemove_prev, if_neg hxt, if_neg]
      intro heq
      exact hx (hsub x (heq ▸ hnextIn))

theorem Family.insertBefore (hf : Family s lists) (hfree : forall h, t ∉ lists h) :
    Family (rtListInsertBefore s (Node.head h) (Node.member t))
      (Function.update lists h (lists h ++ [t])) := by
  have hring := hf.ring h
  have hfresh : Node.member t ∉ (Node.head h : Node Head Member) ::
    (lists h).map Node.member := by
    simpa using hfree h
  have hlast := List.getLast_mem
    (l := (Node.head h : Node Head Member) :: (lists h).map Node.member)
    (by simp)
  have hprevHead := hring.prev_head
  rw [← hprevHead] at hlast
  apply hf.update (t := t)
  · rw [List.map_append]
    have hring' : Ring s.next s.prev (Node.head h) ((lists h).map Node.member ++ []) := by
      simpa using hring
    apply hring'.splice
    · simpa using hfree h
    · rw [rtListInsertBefore_next, ← hprevHead, if_neg, if_pos rfl]
      intro heq
      exact hfresh (heq ▸ hlast)
    · rw [rtListInsertBefore_next, if_pos rfl]
      rfl
    · rw [rtListInsertBefore_prev, if_neg (by simp), if_pos rfl, hprevHead]
    · rw [rtListInsertBefore_prev, if_pos (by rfl)]
    · intro x hx hxa
      rw [List.append_nil] at hx
      rw [rtListInsertBefore_next, if_neg, hprevHead, if_neg hxa]
      intro heq
      exact hfresh (heq ▸ hx)
    · intro x hx hxb
      rw [List.append_nil] at hx
      rw [rtListInsertBefore_prev, if_neg (by simpa using hxb), if_neg]
      intro heq
      exact hfresh (heq ▸ hx)
  · intro x hx
    simp [hx]
  · intro h' _
    exact hfree h'
  · intro hout
    exact absurd (by simp) hout
  · intro x hx hxt
    rw [rtListInsertBefore_next, if_neg hxt, if_neg]
    intro heq
    exact hx (heq ▸ hlast)
  · intro x hx hxt
    rw [rtListInsertBefore_prev, if_neg, if_neg hxt]
    intro heq
    exact hx (by simp [heq])

/-- The last node of a first part of a list: its head when that part is empty. -/
def lastNode (h : Head) (xs : List Member) : Node Head Member :=
  (Node.head h :: xs.map Node.member).getLast (by simp)

omit [DecidableEq Head] [DecidableEq Member] in
theorem lastNode_mem (h : Head) (xs : List Member) :
    lastNode h xs ∈ Node.head h :: xs.map Node.member :=
  List.getLast_mem (by simp)

omit [DecidableEq Head] [DecidableEq Member] in
theorem lastNode_concat (h : Head) (xs : List Member) (x : Member) :
    lastNode h (xs ++ [x]) = Node.member x := by
  simp [lastNode]

omit [DecidableEq Head] [DecidableEq Member] in
theorem Family.next_lastNode (hf : Family s lists) {h : Head}
    {xs ys : List Member} (hl : lists h = xs ++ ys) :
    s.next (lastNode h xs) = (ys.map Node.member ++ [Node.head h]).head (by simp) := by
  have hring := hf.ring h
  rw [hl, List.map_append] at hring
  exact hring.next_last

theorem Family.insertAfterLast (hf : Family s lists) {xs ys : List Member} (hl : lists h = xs ++ ys)
    (hfree : forall h, t ∉ lists h) :
    Family (rtListInsertAfter s (lastNode h xs) (Node.member t))
      (Function.update lists h (xs ++ t :: ys)) := by
  have hring := hf.ring h
  have hfresh : Node.member t ∉ (Node.head h : Node Head Member) ::
    (lists h).map Node.member := by
    simpa using hfree h
  have hnextLast := hf.next_lastNode hl
  have hfirst : s.next (lastNode h xs) ∈
      (Node.head h : Node Head Member) :: (lists h).map Node.member := by
    have hmem := List.head_mem (l := ys.map Node.member ++ [Node.head h]) (by simp)
    rw [← hnextLast] at hmem
    rw [hl, List.map_append]
    simp only [List.mem_append, List.mem_cons] at hmem ⊢
    tauto
  have hlast : lastNode h xs ∈ (Node.head h : Node Head Member) :: (lists h).map Node.member := by
    have hmem := lastNode_mem h xs
    rw [hl, List.map_append]
    simp only [List.mem_append, List.mem_cons] at hmem ⊢
    tauto
  have hne : forall x, x ∈ (Node.head h : Node Head Member) ::
      (lists h).map Node.member -> x ≠ Node.member t := by
    intro x hx heq
    exact hfresh (heq ▸ hx)
  apply hf.update (t := t)
  · rw [List.map_append, List.map_cons]
    have hsplit : (lists h).map (Node.member : Member -> Node Head Member) =
        xs.map Node.member ++ ys.map Node.member := by
      rw [hl, List.map_append]
    rw [hsplit] at hring hfresh hne hfirst
    apply hring.splice
    · exact hfresh
    · rw [rtListInsertAfter_next, if_pos (by rfl)]
    · rw [rtListInsertAfter_next, if_neg (Ne.symm (hne _ (hsplit ▸ hlast))), if_pos rfl,
        hnextLast]
    · rw [rtListInsertAfter_prev, if_pos rfl]
      rfl
    · rw [rtListInsertAfter_prev, ← hnextLast, if_neg (hne _ hfirst), if_pos rfl]
    · intro x hx hxa
      have hxl : x ≠ lastNode h xs := hxa
      rw [rtListInsertAfter_next, if_neg hxl, if_neg (hne x hx)]
    · intro x hx hxb
      rw [rtListInsertAfter_prev, if_neg (hne x hx), hnextLast, if_neg hxb]
  · intro x hx
    rw [hl]
    simp [hx]
  · intro h' _
    exact hfree h'
  · intro hout
    exact absurd (by simp) hout
  · intro x hx hxt
    rw [rtListInsertAfter_next, if_neg, if_neg hxt]
    intro heq
    exact hx (heq ▸ hlast)
  · intro x hx hxt
    rw [rtListInsertAfter_prev, if_neg hxt, if_neg]
    intro heq
    exact hx (heq ▸ hfirst)

theorem Family.insertAfter (hf : Family s lists) (hfree : forall h, t ∉ lists h) :
    Family (rtListInsertAfter s (Node.head h) (Node.member t))
      (Function.update lists h (t :: lists h)) :=
  hf.insertAfterLast (List.nil_append (lists h)).symm hfree

end Family

end RtThread.Kernel
