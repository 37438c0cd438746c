import Mathlib.Data.List.Basic
import Mathlib.Data.List.Nodup
import Mathlib.Logic.Function.Basic

/-!
# Singly linked chains

A chain of cells with one pointer each, ended by a null pointer.
-/

namespace RtThread.Chain

open Function (update update_of_ne update_self)

universe u

variable {α : Type u}

/-- Following `next` from `p` visits the cells of this list and ends. -/
def Linked (next : α -> Option α) : Option α -> List α -> Prop
  | p, [] => p = none
  | p, x :: l => p = some x ∧ Linked next (next x) l

variable {next : α -> Option α} {p : Option α} {l : List α} {x : α}

theorem Linked.head (hl : Linked next p l) : p = l.head? := by
  cases l with
  | nil => exact hl
  | cons y rest => exact hl.left

theorem Linked.none_iff (hl : Linked next p l) : p = none <-> l = [] := by
  rw [hl.head, List.head?_eq_none_iff]

theorem Linked.cons_of_some (hl : Linked next (some x) l) :
    exists rest, l = x :: rest ∧ Linked next (next x) rest := by
  cases l with
  | nil => cases hl
  | cons y rest =>
    rcases hl with ⟨heq, hrest⟩
    cases heq
    exact ⟨rest, rfl, hrest⟩

theorem Linked.congr {next' : α -> Option α} (hl : Linked next p l)
    (hsame : forall x, x ∈ l -> next' x = next x) : Linked next' p l := by
  induction l generalizing p with
  | nil => exact hl
  | cons y rest ih =>
    refine ⟨hl.left, ?_⟩
    rw [hsame y List.mem_cons_self]
    exact ih hl.right (fun x hx => hsame x (List.mem_cons_of_mem y hx))

theorem Linked.next_eq {y : α} {l' : List α} (hl : Linked next p (l ++ y :: l')) :
    next y = l'.head? := by
  induction l generalizing p with
  | nil => exact Linked.head hl.right
  | cons z rest ih => exact ih hl.right

section Update

variable [DecidableEq α]

theorem Linked.frame (hl : Linked next p l) (hx : x ∉ l) (q : Option α) :
    Linked (update next x q) p l := by
  apply hl.congr
  intro y hy
  apply update_of_ne
  rintro rfl
  exact hx hy

theorem Linked.push (hl : Linked next p l) (hx : x ∉ l) :
    Linked (update next x p) (some x) (x :: l) := by
  refine ⟨rfl, ?_⟩
  rw [update_self]
  exact hl.frame hx p

theorem Linked.append {y : α} (hl : Linked next p (l ++ [y]))
    (hnodup : (l ++ [y]).Nodup) (hx : x ∉ l ++ [y]) (hend : next x = none) :
    Linked (update next y (some x)) p (l ++ [y] ++ [x]) := by
  induction l generalizing p with
  | nil =>
    rcases hl with ⟨hp, _⟩
    refine ⟨hp, ?_⟩
    have hne : x ≠ y := by
      intro heq
      exact hx (by simp [heq])
    rw [update_self]
    refine ⟨rfl, ?_⟩
    rw [update_of_ne hne]
    exact hend
  | cons z rest ih =>
    rcases hl with ⟨hp, hrest⟩
    rw [List.cons_append, List.nodup_cons] at hnodup
    rw [List.cons_append, List.mem_cons, not_or] at hx
    refine ⟨hp, ?_⟩
    have hne : z ≠ y := by
      intro heq
      exact hnodup.left (by simp [heq])
    rw [update_of_ne hne]
    exact ih hrest hnodup.right hx.right

theorem Linked.insert_behind {y : α} {l' : List α} (hl : Linked next p (l ++ y :: l'))
    (hnodup : (l ++ y :: l').Nodup) (hx : x ∉ l ++ y :: l') :
    Linked (update (update next x l'.head?) y (some x)) p (l ++ y :: x :: l') := by
  induction l generalizing p with
  | nil =>
    rcases hl with ⟨hp, hrest⟩
    rw [List.nil_append, List.mem_cons, not_or] at hx
    rw [List.nil_append, List.nodup_cons] at hnodup
    refine ⟨hp, ?_⟩
    rw [update_self]
    refine ⟨rfl, ?_⟩
    rw [update_of_ne hx.left, update_self, ← hrest.head]
    exact (hrest.frame hx.right _).frame hnodup.left _
  | cons z rest ih =>
    rcases hl with ⟨hp, hrest⟩
    rw [List.cons_append, List.nodup_cons] at hnodup
    rw [List.cons_append, List.mem_cons, not_or] at hx
    refine ⟨hp, ?_⟩
    have hzy : z ≠ y := by
      rintro rfl
      exact hnodup.left (by simp)
    rw [update_of_ne hzy, update_of_ne (Ne.symm hx.left)]
    exact ih hrest hnodup.right hx.right

theorem Linked.cut {y : α} {mid l' : List α} (hl : Linked next p (l ++ y :: (mid ++ l')))
    (hnodup : (l ++ y :: (mid ++ l')).Nodup) :
    Linked (update next y l'.head?) p (l ++ y :: l') := by
  induction l generalizing p with
  | nil =>
    rcases hl with ⟨hp, hrest⟩
    refine ⟨hp, ?_⟩
    rw [update_self]
    rw [List.nil_append, List.nodup_cons, List.mem_append, not_or] at hnodup
    have htail : forall {q : Option α} {mid : List α}, Linked next q (mid ++ l') ->
        Linked next l'.head? l' := by
      intro q mid hl
      induction mid generalizing q with
      | nil => exact (Linked.head hl) ▸ hl
      | cons z mid ih => exact ih hl.right
    exact (htail hrest).frame hnodup.left.right _
  | cons z rest ih =>
    rcases hl with ⟨hp, hrest⟩
    rw [List.cons_append, List.nodup_cons] at hnodup
    refine ⟨hp, ?_⟩
    have hzy : z ≠ y := by
      rintro rfl
      exact hnodup.left (by simp)
    rw [update_of_ne hzy]
    exact ih hrest hnodup.right

end Update

end RtThread.Chain
