import RtThread.Library.StableInsert

/-!
# Rows of a skip list

A row is cut where a walk along it stops: behind the last member that the newcomer passes. Rows
are parts of the rows below. A walk that goes on in the row below from the same member cuts that
row compatibly, whether or not the rows are sorted; in a sorted row the cut is the place of the
newcomer.
-/

namespace RtThread.SkipRows

open StableInsert

universe u v

variable {T : Type u}

/-- A place where a walk stops that passes the members with `p`. -/
structure Cut (p : T -> Bool) (l xs ys : List T) : Prop where
  split : l = xs ++ ys
  passed : forall x, x ∈ xs.getLast? -> p x = true
  stopped : forall y, y ∈ ys.head? -> p y = false

section Cut

variable {p : T -> Bool} {l l' xs ys as bs : List T} {n : T}

theorem cut_takeWhile (hpassed : forall x, x ∈ xs.getLast? -> p x = true) :
    Cut p (xs ++ ys) (xs ++ ys.takeWhile p) (ys.dropWhile p) := by
  constructor
  · rw [List.append_assoc, List.takeWhile_append_dropWhile]
  · intro x hx
    rw [List.getLast?_append] at hx
    cases hlast : (ys.takeWhile p).getLast? with
    | none =>
      rw [hlast] at hx
      exact hpassed x hx
    | some z =>
      rw [hlast] at hx
      cases hx
      exact List.all_eq_true.mp List.all_takeWhile x (List.mem_of_getLast? hlast)
  · intro y hy
    have hhead := List.head?_dropWhile_not p ys
    rw [Option.mem_def.mp hy] at hhead
    simpa using hhead

theorem sublist_dropWhile (hsub : xs.Sublist l)
    (hstopped : forall y, y ∈ xs.head? -> p y = false) :
    xs.Sublist (l.dropWhile p) := by
  induction hsub with
  | slnil => exact List.Sublist.refl _
  | @cons xs l a hrest ih =>
    rw [List.dropWhile_cons]
    split
    · exact ih hstopped
    · exact hrest.cons a
  | @cons_cons xs l a hrest _ =>
    have ha := hstopped a rfl
    rw [List.dropWhile_cons, if_neg (by simp [ha])]
    exact hrest.cons_cons a

theorem sublist_around (hsub : (xs ++ n :: ys).Sublist (as ++ n :: bs))
    (hnd : (as ++ n :: bs).Nodup) : xs.Sublist as ∧ ys.Sublist bs := by
  induction as generalizing xs with
  | nil =>
    have hn := (List.nodup_cons.mp hnd).left
    cases xs with
    | nil => exact ⟨List.Sublist.refl _, List.cons_sublist_cons.mp hsub⟩
    | cons a xs =>
      have hin : n ∈ bs := by
        cases hsub with
        | cons _ hrest => exact hrest.subset (by simp)
        | cons_cons _ hrest => exact hrest.subset (by simp)
      exact absurd hin hn
  | cons a as ih =>
    have hcons := List.nodup_cons.mp hnd
    cases xs with
    | nil =>
      refine ⟨List.nil_sublist _, ?_⟩
      cases hsub with
      | cons _ hrest => exact (ih hrest hcons.right).right
      | cons_cons _ _ => exact absurd (by simp) hcons.left
    | cons x xs =>
      cases hsub with
      | cons _ hrest =>
        have hboth := ih hrest hcons.right
        exact ⟨hboth.left.cons a, hboth.right⟩
      | cons_cons _ hrest =>
        have hboth := ih hrest hcons.right
        exact ⟨hboth.left.cons_cons _, hboth.right⟩

theorem Cut.descend (hcut : Cut p l xs ys) (hsub : l.Sublist l') (hnd : l'.Nodup) :
    exists as bs, l' = as ++ bs ∧ as.getLast? = xs.getLast? ∧ xs.Sublist as ∧
      ys.Sublist bs := by
  rcases List.eq_nil_or_concat xs with hxs | ⟨xs', n, hxs⟩
  · subst hxs
    refine ⟨[], l', rfl, rfl, List.Sublist.refl _, ?_⟩
    simpa [hcut.split] using hsub
  · subst hxs
    have hl : l = xs' ++ n :: ys := by
      simpa using hcut.split
    rw [hl] at hsub
    have hin : n ∈ l' := hsub.subset (by simp)
    rcases List.mem_iff_append.mp hin with ⟨as, bs, hsplit⟩
    rw [hsplit] at hsub hnd
    have hboth := sublist_around hsub hnd
    refine ⟨as ++ [n], bs, by simp [hsplit], by simp, ?_, hboth.right⟩
    simpa using hboth.left

theorem Cut.below (hcut : Cut p l xs ys) (hlast : as.getLast? = xs.getLast?)
    (hxs : xs.Sublist as) (hys : ys.Sublist bs) :
    Cut p (as ++ bs) (as ++ bs.takeWhile p) (bs.dropWhile p) ∧
      xs.Sublist (as ++ bs.takeWhile p) ∧ ys.Sublist (bs.dropWhile p) := by
  refine ⟨?_, ?_, ?_⟩
  · apply cut_takeWhile
    rw [hlast]
    exact hcut.passed
  · exact hxs.trans (List.sublist_append_left _ _)
  · exact sublist_dropWhile hys hcut.stopped

end Cut

section Sorted

variable {K : Type v} [LinearOrder K] {key : T -> K} {p : T -> Bool}
  {l xs ys : List T} {t : T}

theorem Cut.insertBehind_eq (hcut : Cut p l xs ys) (hl : l.Pairwise fun x y => key x ≤ key y)
    (hp : forall x, x ∈ l -> (p x = true <-> key x ≤ key t)) :
    insertBehind key t l = xs ++ t :: ys := by
  rcases hcut with ⟨hsplit, hpassed, hstopped⟩
  subst hsplit
  induction xs with
  | nil =>
    cases ys with
    | nil => rfl
    | cons y ys =>
      have hy : ¬ key y ≤ key t := by
        rw [← hp y (by simp), hstopped y rfl]
        exact Bool.false_ne_true
      exact if_pos (not_le.mp hy)
  | cons x xs ih =>
    have hlater : forall z, z ∈ xs.getLast? -> p z = true := by
      intro z hz
      apply hpassed
      rw [List.getLast?_cons, Option.mem_def.mp hz]
      rfl
    rw [List.cons_append] at hl hp ⊢
    have hcons := List.pairwise_cons.mp hl
    have hx : key x ≤ key t := by
      cases hlast : xs.getLast? with
      | none =>
        have hnil : xs = [] := List.getLast?_eq_none_iff.mp hlast
        subst hnil
        exact (hp x (by simp)).mp (hpassed x rfl)
      | some z =>
        have hz : z ∈ xs := List.mem_of_getLast? hlast
        calc
          key x ≤ key z := hcons.left z (by simp [hz])
          _ ≤ key t := (hp z (by simp [hz])).mp (hlater z hlast)
    have hrest := ih hlater hcons.right (fun z hz => hp z (List.mem_cons_of_mem x hz))
    rw [insertBehind, if_neg (not_lt.mpr hx), hrest, List.cons_append]

end Sorted

end RtThread.SkipRows
