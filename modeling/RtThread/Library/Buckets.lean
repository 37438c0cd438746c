import RtThread.Library.Chain

/-!
# Buckets of linked cells

Several chains over the same cells, one for each bucket.  A cell has one pointer, so
it is in at most one of them.
-/

namespace RtThread.Buckets

open Chain
open Function (update update_of_ne update_self)

universe u v

variable {α : Type u} {ι : Type v}

/-- The chain of each bucket holds exactly the cells that are placed in it. -/
def Bucketed (next : α -> Option α) (head : ι -> Option α) (place : α -> Option ι) : Prop :=
  forall b, exists l, l.Nodup ∧ Linked next (head b) l ∧
    forall x, x ∈ l <-> place x = some b

variable {next next' : α -> Option α} {head : ι -> Option α} {place : α -> Option ι}
  {b : ι} {x y : α}

theorem Bucketed.congr (hb : Bucketed next head place)
    (hsame : forall x, place x ≠ none -> next' x = next x) : Bucketed next' head place := by
  intro b
  rcases hb b with ⟨l, hnodup, hl, hmem⟩
  refine ⟨l, hnodup, hl.congr ?_, hmem⟩
  intro x hx
  apply hsame
  rw [(hmem x).mp hx]
  nofun

theorem Bucketed.place_head (hb : Bucketed next head place) (hhead : head b = some x) :
    place x = some b := by
  rcases hb b with ⟨l, _, hl, hmem⟩
  rw [hhead] at hl
  rcases hl.cons_of_some with ⟨rest, rfl, _⟩
  exact (hmem x).mp List.mem_cons_self

theorem Bucketed.split (hb : Bucketed next head place) (hx : place x = some b) :
    exists l l', (l ++ x :: l').Nodup ∧ Linked next (head b) (l ++ x :: l') ∧
      forall y, y ∈ l ++ x :: l' <-> place y = some b := by
  rcases hb b with ⟨l, hnodup, hl, hmem⟩
  rcases List.append_of_mem ((hmem x).mpr hx) with ⟨l1, l2, rfl⟩
  exact ⟨l1, l2, hnodup, hl, hmem⟩

section Update

variable [DecidableEq α]

theorem Bucketed.frame (hb : Bucketed next head place) (hx : place x = none)
    (q : Option α) : Bucketed (update next x q) head place := by
  apply hb.congr
  intro y hy
  apply update_of_ne
  rintro rfl
  exact hy hx

theorem Bucketed.other (hb : Bucketed next head place) (hx : place x = some b) {i : ι}
    (hi : i ≠ b) :
    exists l, l.Nodup ∧ Linked next (head i) l ∧ x ∉ l ∧
      (forall y, y ∈ l -> place y ≠ some b) ∧
      forall y, y ∈ l <-> update place x none y = some i := by
  rcases hb i with ⟨l, hnodup, hl, hmem⟩
  have hxl : x ∉ l := by
    rw [hmem x, hx]
    intro heq
    cases heq
    exact hi rfl
  refine ⟨l, hnodup, hl, hxl, ?_, ?_⟩
  · intro y hy heq
    rw [hmem y, heq] at hy
    cases hy
    exact hi rfl
  · intro y
    by_cases hy : y = x
    · subst hy
      simp [hxl]
    · rw [update_of_ne hy]
      exact hmem y

variable [DecidableEq ι]

theorem Bucketed.push (hb : Bucketed next head place) (hx : place x = none) (b : ι) :
    Bucketed (update next x (head b)) (update head b (some x)) (update place x (some b)) := by
  intro i
  rcases hb i with ⟨l, hnodup, hl, hmem⟩
  have hxl : x ∉ l := by
    rw [hmem x, hx]
    nofun
  by_cases hi : i = b
  · subst hi
    refine ⟨x :: l, List.nodup_cons.mpr ⟨hxl, hnodup⟩, ?_, ?_⟩
    · rw [update_self]
      exact hl.push hxl
    · intro y
      by_cases hy : y = x
      · subst hy
        simp
      · rw [update_of_ne hy, List.mem_cons, hmem y]
        simp [hy]
  · refine ⟨l, hnodup, ?_, ?_⟩
    · rw [update_of_ne hi]
      exact hl.frame hxl _
    · intro y
      by_cases hy : y = x
      · subst hy
        rw [update_self]
        simp only [hxl, false_iff]
        intro heq
        cases heq
        exact hi rfl
      · rw [update_of_ne hy]
        exact hmem y

theorem Bucketed.pop (hb : Bucketed next head place) (hhead : head b = some x) :
    Bucketed next (update head b (next x)) (update place x none) := by
  have hx := hb.place_head hhead
  intro i
  by_cases hi : i = b
  · subst hi
    rcases hb i with ⟨l, hnodup, hl, hmem⟩
    rw [hhead] at hl
    rcases hl.cons_of_some with ⟨rest, rfl, hrest⟩
    rw [List.nodup_cons] at hnodup
    refine ⟨rest, hnodup.right, ?_, ?_⟩
    · rw [update_self]
      exact hrest
    · intro y
      by_cases hy : y = x
      · subst hy
        simp [hnodup.left]
      · rw [update_of_ne hy, ← hmem y]
        simp [hy]
  · rcases hb.other hx hi with ⟨l, hnodup, hl, _, _, hmem⟩
    refine ⟨l, hnodup, ?_, hmem⟩
    rw [update_of_ne hi]
    exact hl

theorem Bucketed.unlink (hb : Bucketed next head place) {l l' : List α}
    (hl : Linked next (head b) (l ++ y :: x :: l')) (hnodup : (l ++ y :: x :: l').Nodup)
    (hmem : forall z, z ∈ l ++ y :: x :: l' <-> place z = some b) :
    Bucketed (update next y (next x)) head (update place x none) := by
  have hx : place x = some b := (hmem x).mp (by simp)
  have hy : place y = some b := (hmem y).mp (by simp)
  intro i
  by_cases hi : i = b
  · subst hi
    have hnext : next x = l'.head? := by
      have hassoc : l ++ y :: x :: l' = (l ++ [y]) ++ x :: l' := by simp
      rw [hassoc] at hl
      exact hl.next_eq
    refine ⟨l ++ y :: l', ?_, ?_, ?_⟩
    · have hsub : (l ++ y :: l').Sublist (l ++ y :: x :: l') :=
        ((List.sublist_cons_self x l').cons_cons y).append_left l
      exact hnodup.sublist hsub
    · rw [hnext]
      exact @Linked.cut _ _ _ _ _ y [x] l' hl hnodup
    · intro z
      by_cases hz : z = x
      · subst hz
        rw [update_self]
        simp only [reduceCtorEq, iff_false]
        have hperm : (l ++ y :: z :: l').Perm (z :: (l ++ y :: l')) := by
          have hassoc : l ++ y :: z :: l' = (l ++ [y]) ++ z :: l' := by simp
          have hassoc' : l ++ y :: l' = (l ++ [y]) ++ l' := by simp
          rw [hassoc, hassoc']
          exact List.perm_middle
        exact (List.nodup_cons.mp (hperm.nodup_iff.mp hnodup)).left
      · rw [update_of_ne hz, ← hmem z]
        simp [hz]
  · rcases hb.other hx hi with ⟨m, hm, hlm, _, hout, hmem'⟩
    refine ⟨m, hm, hlm.frame ?_ _, hmem'⟩
    intro hin
    exact hout y hin hy

end Update

end RtThread.Buckets
