import Mathlib.Data.List.Chain
import Mathlib.Data.List.Nodup

/-!
# Circular doubly linked lists

A ring is a head node followed by member nodes whose two link functions agree with that order,
forwards and backwards. The link functions are arbitrary, so the same facts serve a node store and
pointer words read from a byte memory. The splice and unlink rules describe the new link functions
by their values at the nodes of the ring.
-/

namespace RtThread.LinkRing

universe u

variable {Node : Type u}

def Linked (next prev : Node -> Node) : List Node -> Prop :=
  List.IsChain fun a b => next a = b ∧ prev b = a

/-- The ring of `head` has exactly the members `l`, in this order. -/
structure Ring (next prev : Node -> Node) (head : Node) (l : List Node) :
    Prop where
  linked : Linked next prev (head :: l ++ [head])
  nodup : (head :: l).Nodup

/-!
## Changing links away from a chain
-/

variable {l : List Node}

theorem linked_congr {next prev next' prev' : Node -> Node} (hl : Linked next prev l)
    (hnext : forall x, x ∈ l.dropLast -> next' x = next x)
    (hprev : forall x, x ∈ l.tail -> prev' x = prev x) :
    Linked next' prev' l := by
  induction l with
  | nil => exact List.IsChain.nil
  | cons a l ih =>
    cases l with
    | nil => exact List.IsChain.singleton a
    | cons b l =>
      rcases List.isChain_cons_cons.mp hl with ⟨hab, hrest⟩
      refine List.isChain_cons_cons.mpr ⟨?_, ?_⟩
      · rw [hnext a (by simp), hprev b (by simp)]
        exact hab
      · refine ih hrest ?_ ?_
        · intro x hx
          exact hnext x (by simp [hx])
        · intro x hx
          exact hprev x (by simp [List.mem_of_mem_tail hx])

theorem Ring.congr {next prev next' prev' : Node -> Node} {head : Node}
    (hring : Ring next prev head l)
    (hnext : forall x, x ∈ head :: l -> next' x = next x)
    (hprev : forall x, x ∈ head :: l -> prev' x = prev x) :
    Ring next' prev' head l := by
  refine ⟨linked_congr hring.linked ?_ ?_, hring.nodup⟩
  · intro x hx
    rw [List.dropLast_concat] at hx
    exact hnext x hx
  · intro x hx
    apply hprev
    simpa [or_comm] using hx

/-!
## Reading a ring
-/

theorem ring_nil_iff {next prev : Node -> Node} {head : Node} :
    Ring next prev head [] <-> next head = head ∧ prev head = head := by
  constructor
  · intro h
    have hl := h.linked
    simpa [Linked] using hl
  · intro h
    exact ⟨by simpa [Linked] using h, by simp⟩

theorem Ring.neighbours {next prev : Node -> Node} {head n : Node}
    {xs ys : List Node} (hring : Ring next prev head (xs ++ n :: ys)) :
    next n = (ys ++ [head]).head (by simp) ∧ prev n = (head :: xs).getLast (by simp) := by
  have hl : Linked next prev ((head :: xs) ++ n :: (ys ++ [head])) := by
    simpa using hring.linked
  have hsplit := List.isChain_append.mp hl
  constructor
  · have hchain := hsplit.right.left
    exact (List.isChain_cons.mp hchain).left _ (List.head?_eq_some_head (by simp)) |>.left
  · have hpair := hsplit.right.right ((head :: xs).getLast (by simp))
      (by simp [List.getLast?_eq_some_getLast]) n (by simp)
    exact hpair.right

theorem Ring.next_head {next prev : Node -> Node} {head : Node} (hring : Ring next prev head l) :
    next head = (l ++ [head]).head (by simp) := by
  have hl : Linked next prev (head :: (l ++ [head])) := by
    simpa using hring.linked
  exact (List.isChain_cons.mp hl).left _ (List.head?_eq_some_head (by simp)) |>.left

theorem Ring.prev_head {next prev : Node -> Node} {head : Node} (hring : Ring next prev head l) :
    prev head = (head :: l).getLast (by simp) := by
  have hl : Linked next prev ((head :: l) ++ [head]) := by
    simpa using hring.linked
  have hpair := (List.isChain_append.mp hl).right.right ((head :: l).getLast (by simp))
    (by simp [List.getLast?_eq_some_getLast]) head (by simp)
  exact hpair.right

theorem Ring.next_last {next prev : Node -> Node} {head : Node}
    {xs ys : List Node} (hring : Ring next prev head (xs ++ ys)) :
    next ((head :: xs).getLast (by simp)) = (ys ++ [head]).head (by simp) := by
  have hl : Linked next prev ((head :: xs) ++ (ys ++ [head])) := by
    simpa using hring.linked
  have hpair := (List.isChain_append.mp hl).right.right ((head :: xs).getLast (by simp))
    (by simp [List.getLast?_eq_some_getLast])
    ((ys ++ [head]).head (by simp)) (List.head?_eq_some_head (by simp))
  exact hpair.left

theorem Ring.next_head_eq_iff {next prev : Node -> Node} {head : Node}
    (hring : Ring next prev head l) :
    next head = head <-> l = [] := by
  rw [hring.next_head]
  cases l with
  | nil => simp
  | cons a l =>
    have hne : head ≠ a := by
      have hnd := hring.nodup
      simp only [List.nodup_cons, List.mem_cons, not_or] at hnd
      exact hnd.left.left
    simp [Ne.symm hne]

/-!
## Splicing a node in and unlinking one

Both operations assign only the forward link of the last node before the cut
and the backward link of the first node after it, so the two halves of the ring
keep their links.
-/

section Halves

variable {next prev next' prev' : Node -> Node} {head : Node}
  {xs ys : List Node}

theorem Linked.leftHalf (hl : Linked next prev (head :: xs)) (hnd : (head :: (xs ++ ys)).Nodup)
    (hnext : forall x, x ∈ head :: (xs ++ ys) ->
      x ≠ (head :: xs).getLast (by simp) -> next' x = next x)
    (hprev : forall x, x ∈ head :: (xs ++ ys) ->
      x ≠ (ys ++ [head]).head (by simp) -> prev' x = prev x) :
    Linked next' prev' (head :: xs) := by
  have hsub : forall x, x ∈ head :: xs -> x ∈ head :: (xs ++ ys) := by
    intro x hx
    simp only [List.mem_cons, List.mem_append] at hx ⊢
    tauto
  rw [← List.cons_append] at hnd
  refine linked_congr hl ?_ ?_
  · intro x hx
    refine hnext x (hsub x (List.dropLast_subset _ hx)) ?_
    intro heq
    subst heq
    have hndL : (head :: xs).Nodup := hnd.of_append_left
    rw [← List.dropLast_append_getLast (l := head :: xs) (by simp)] at hndL
    exact (List.nodup_append.mp hndL).right.right _ hx _ (by simp) rfl
  · intro x hx
    refine hprev x (hsub x (List.mem_of_mem_tail hx)) ?_
    intro heq
    have hxs : x ∈ xs := by simpa using hx
    cases ys with
    | nil =>
      subst heq
      simp only [List.append_nil, List.nodup_cons] at hnd
      exact hnd.left hxs
    | cons y ys =>
      subst heq
      exact (List.nodup_append.mp hnd).right.right x (by simp [hxs]) x (by simp) rfl

theorem Linked.rightHalf (hl : Linked next prev (ys ++ [head])) (hnd : (head :: (xs ++ ys)).Nodup)
    (hnext : forall x, x ∈ head :: (xs ++ ys) ->
      x ≠ (head :: xs).getLast (by simp) -> next' x = next x)
    (hprev : forall x, x ∈ head :: (xs ++ ys) ->
      x ≠ (ys ++ [head]).head (by simp) -> prev' x = prev x) :
    Linked next' prev' (ys ++ [head]) := by
  refine linked_congr hl ?_ ?_
  · intro x hx
    rw [List.dropLast_concat] at hx
    refine hnext x (by simp [hx]) ?_
    intro heq
    exact (List.nodup_append.mp hnd).right.right x (heq ▸ List.getLast_mem (by simp)) x hx rfl
  · intro x hx
    refine hprev x ?_ ?_
    · have hmem := List.mem_of_mem_tail hx
      simp only [List.mem_append, List.mem_cons] at hmem ⊢
      tauto
    · intro heq
      have hndR : (ys ++ [head]).Nodup := by
        have hsub : (head :: ys).Nodup := hnd.sublist (by simp)
        exact (List.perm_append_singleton head ys).nodup_iff.mpr hsub
      have hcons := List.cons_head_tail (l := ys ++ [head]) (by simp)
      rw [← hcons] at hndR
      exact (List.nodup_cons.mp hndR).left (heq ▸ hx)

end Halves

theorem Ring.splice {next prev next' prev' : Node -> Node} {head n : Node}
    {xs ys : List Node} (hring : Ring next prev head (xs ++ ys))
    (hfresh : n ∉ head :: (xs ++ ys))
    (hnextA : next' ((head :: xs).getLast (by simp)) = n)
    (hnextN : next' n = (ys ++ [head]).head (by simp))
    (hprevN : prev' n = (head :: xs).getLast (by simp))
    (hprevB : prev' ((ys ++ [head]).head (by simp)) = n)
    (hnext : forall x, x ∈ head :: (xs ++ ys) ->
      x ≠ (head :: xs).getLast (by simp) -> next' x = next x)
    (hprev : forall x, x ∈ head :: (xs ++ ys) ->
      x ≠ (ys ++ [head]).head (by simp) -> prev' x = prev x) :
    Ring next' prev' head (xs ++ n :: ys) := by
  have hl : Linked next prev ((head :: xs) ++ (ys ++ [head])) := by
    simpa using hring.linked
  rcases List.isChain_append.mp hl with ⟨hleft, hright, _⟩
  have hgoal : Linked next' prev' ((head :: xs) ++ n :: (ys ++ [head])) := by
    refine List.isChain_append.mpr ⟨Linked.leftHalf hleft hring.nodup hnext hprev, ?_, ?_⟩
    · refine List.isChain_cons.mpr ⟨?_, Linked.rightHalf hright hring.nodup hnext hprev⟩
      intro y hy
      rw [List.head?_eq_some_head (by simp)] at hy
      cases hy
      exact ⟨hnextN, hprevB⟩
    · intro x hx y hy
      cases hx
      cases hy
      exact ⟨hnextA, hprevN⟩
  refine ⟨by simpa using hgoal, ?_⟩
  have hperm : (head :: (xs ++ n :: ys)).Perm (n :: head :: (xs ++ ys)) :=
    (List.Perm.cons head List.perm_middle).trans (List.Perm.swap _ _ _)
  exact hperm.nodup_iff.mpr (List.nodup_cons.mpr ⟨hfresh, hring.nodup⟩)

theorem Ring.unlink {next prev next' prev' : Node -> Node} {head n : Node}
    {xs ys : List Node} (hring : Ring next prev head (xs ++ n :: ys))
    (hnextA : next' ((head :: xs).getLast (by simp)) = (ys ++ [head]).head (by simp))
    (hprevB : prev' ((ys ++ [head]).head (by simp)) = (head :: xs).getLast (by simp))
    (hnext : forall x, x ∈ head :: (xs ++ ys) ->
      x ≠ (head :: xs).getLast (by simp) -> next' x = next x)
    (hprev : forall x, x ∈ head :: (xs ++ ys) ->
      x ≠ (ys ++ [head]).head (by simp) -> prev' x = prev x) :
    Ring next' prev' head (xs ++ ys) := by
  have hl : Linked next prev ((head :: xs) ++ n :: (ys ++ [head])) := by
    simpa using hring.linked
  rcases List.isChain_append.mp hl with ⟨hleft, hmid, _⟩
  have hright := (List.isChain_cons.mp hmid).right
  have hnd : (head :: (xs ++ ys)).Nodup := hring.nodup.sublist (by simp)
  refine ⟨?_, hnd⟩
  have hgoal : Linked next' prev' ((head :: xs) ++ (ys ++ [head])) := by
    refine List.isChain_append.mpr ⟨Linked.leftHalf hleft hnd hnext hprev,
        Linked.rightHalf hright hnd hnext hprev, ?_⟩
    intro x hx y hy
    rw [List.head?_eq_some_head (by simp)] at hy
    cases hx
    cases hy
    exact ⟨hnextA, hprevB⟩
  simpa using hgoal

end RtThread.LinkRing
