import Mathlib.Data.List.Pairwise
import Mathlib.Data.List.Perm.Basic
import RtThread.Library.Extents

/-!
# Partitions into extents

A list of extents that divides a set of units, in any order.  An allocator that moves
extents between its lists keeps the division; so does one that cuts an extent in two or
joins two that touch.  The rules are stated for a list, whatever stands next to it.
-/

namespace RtThread.Extents

/-- Extents that are not empty and have no unit in common. -/
structure Scattered (l : List Extent) : Prop where
  positive : forall e, e ∈ l -> 0 < e.size
  apart : l.Pairwise Apart

/-- The extents of `l` divide the units of `P`. -/
structure Partitions (l : List Extent) (P : Nat -> Prop) : Prop where
  scattered : Scattered l
  covers : forall x, P x ↔ Covers l x

/-- What `l` divides with some other extents, `l'` divides with them too. -/
def Regroups (l l' : List Extent) : Prop :=
  forall (rest : List Extent) (P : Nat -> Prop),
    Partitions (l ++ rest) P -> Partitions (l' ++ rest) P

section Scattered

variable {l l' : List Extent} {e f : Extent}

theorem scattered_cons :
    Scattered (e :: l) ↔ 0 < e.size ∧ (forall f, f ∈ l -> Apart e f) ∧ Scattered l := by
  constructor
  · rintro ⟨hpos, hapart⟩
    have hapart := List.pairwise_cons.mp hapart
    exact ⟨hpos e List.mem_cons_self, hapart.1,
      fun f hf => hpos f (List.mem_cons_of_mem e hf), hapart.2⟩
  · rintro ⟨hpos, hapart, hs⟩
    refine ⟨fun f hf => ?_, List.pairwise_cons.mpr ⟨hapart, hs.apart⟩⟩
    rcases List.mem_cons.mp hf with rfl | hf
    · exact hpos
    · exact hs.positive f hf

theorem Scattered.perm (hs : Scattered l) (hperm : l.Perm l') : Scattered l' :=
  ⟨fun e he => hs.positive e (hperm.mem_iff.mpr he), hs.apart.perm hperm fun h => Apart.symm h⟩

theorem Scattered.sublist (hs : Scattered l) (hsub : List.Sublist l' l) : Scattered l' :=
  ⟨fun e he => hs.positive e (hsub.subset he), hs.apart.sublist hsub⟩

theorem Scattered.eq_of_start (hs : Scattered l) (he : e ∈ l) (hf : f ∈ l)
    (hstart : e.start = f.start) : e = f := by
  by_contra hne
  have hsymm : Std.Symm Apart := ⟨fun _ _ h => Apart.symm h⟩
  have hapart : Apart e f := hs.apart.forall he hf hne
  have hepos := hs.positive e he
  have hfpos := hs.positive f hf
  unfold Apart Extent.stop at hapart
  omega

end Scattered

section Partitions

variable {l l' r : List Extent} {P : Nat -> Prop} {e f : Extent} {a m n : Nat}

theorem Partitions.perm (hp : Partitions l P) (hperm : l.Perm l') : Partitions l' P := by
  refine ⟨hp.scattered.perm hperm, fun x => (hp.covers x).trans ?_⟩
  unfold Covers
  simp [hperm.mem_iff]

theorem Partitions.congr {Q : Nat -> Prop} (hp : Partitions l P)
    (hiff : forall x, Q x ↔ P x) : Partitions l Q :=
  ⟨hp.scattered, fun x => (hiff x).trans (hp.covers x)⟩

theorem Partitions.add (hp : Partitions l P) (hpos : 0 < e.size)
    (hnew : forall x, e.Has x -> ¬ P x) : Partitions (e :: l) fun x => e.Has x ∨ P x := by
  refine ⟨scattered_cons.mpr ⟨hpos, fun f hf => ?_, hp.scattered⟩, fun x => ?_⟩
  · have hf' := hp.scattered.positive f hf
    by_contra hnot
    -- the larger of the two starts would be in both
    have hx : e.Has (max e.start f.start) ∧ f.Has (max e.start f.start) := by
      unfold Apart Extent.stop at hnot
      unfold Extent.Has Extent.stop
      omega
    exact hnew _ hx.1 ((hp.covers _).mpr ⟨f, hf, hx.2⟩)
  · rw [covers_cons, hp.covers x]

end Partitions

section Regroups

variable {l l' l'' r : List Extent} {e f : Extent} {a m n : Nat}

theorem Regroups.refl (l : List Extent) : Regroups l l := fun _ _ hp => hp

theorem Regroups.trans (h : Regroups l l') (h' : Regroups l' l'') : Regroups l l'' :=
  fun rest P hp => h' rest P (h rest P hp)

theorem Regroups.of_perm (hperm : l.Perm l') : Regroups l l' :=
  fun rest _ hp => hp.perm (hperm.append_right rest)

theorem Regroups.append_right (h : Regroups l l') (r : List Extent) :
    Regroups (l ++ r) (l' ++ r) := by
  intro rest P hp
  rw [List.append_assoc] at hp ⊢
  exact h (r ++ rest) P hp

theorem Regroups.append_left (h : Regroups l l') (r : List Extent) : Regroups (r ++ l) (r ++ l') :=
  ((Regroups.of_perm List.perm_append_comm).trans (h.append_right r)).trans
    (Regroups.of_perm List.perm_append_comm)

theorem Regroups.cons (h : Regroups l l') (e : Extent) : Regroups (e :: l) (e :: l') :=
  h.append_left [e]

theorem Regroups.partitions {P : Nat -> Prop} (h : Regroups l l') (hp : Partitions l P) :
    Partitions l' P := by
  simpa using h [] P (by simpa using hp)

theorem regroups_split (hm : 0 < m) (hn : 0 < n) :
    Regroups [⟨a, m + n⟩] [⟨a, m⟩, ⟨a + m, n⟩] := by
  rintro rest P ⟨hs, hcovers⟩
  have hs := scattered_cons.mp hs
  refine ⟨scattered_cons.mpr ⟨hm, fun f hf => ?_,
    scattered_cons.mpr ⟨hn, fun f hf => ?_, hs.2.2⟩⟩, fun x => ?_⟩
  · rcases List.mem_cons.mp hf with rfl | hf
    · exact Or.inl (Nat.le_refl _)
    · have hapart := hs.2.1 f hf
      unfold Apart Extent.stop at *
      simp only at *
      omega
  · have hapart := hs.2.1 f hf
    unfold Apart Extent.stop at *
    simp only at *
    omega
  · have hx := hcovers x
    simp only [List.cons_append, List.nil_append, covers_cons] at hx ⊢
    rw [hx, ← or_assoc]
    refine or_congr_left ?_
    unfold Extent.Has Extent.stop
    simp only
    omega

theorem regroups_join (htouch : e.stop = f.start) :
    Regroups [e, f] [⟨e.start, e.size + f.size⟩] := by
  rintro rest P ⟨hs, hcovers⟩
  have he := scattered_cons.mp hs
  have hf := scattered_cons.mp he.2.2
  refine ⟨scattered_cons.mpr ⟨Nat.add_pos_left he.1 _, fun g hg => ?_, hf.2.2⟩, fun x => ?_⟩
  · have heg := he.2.1 g (List.mem_cons_of_mem f hg)
    have hfg := hf.2.1 g hg
    have hgpos := hf.2.2.positive g hg
    unfold Apart Extent.stop at *
    simp only at *
    omega
  · have hx := hcovers x
    simp only [List.cons_append, List.nil_append, covers_cons] at hx ⊢
    rw [hx, ← or_assoc]
    refine or_congr_left ?_
    unfold Extent.Has Extent.stop at *
    simp only
    omega

theorem regroups_take (hn : 0 < n) (htake : take n l = some (a, l')) :
    Regroups l (⟨a, n⟩ :: l') := by
  induction l generalizing l' with
  | nil => cases htake
  | cons e l ih =>
    unfold take at htake
    split at htake
    · rename_i hlt
      cases htake
      have hsize : n + (e.size - n) = e.size := by omega
      have hsplit := regroups_split (a := e.start) hn (Nat.sub_pos_of_lt hlt)
      rw [hsize] at hsplit
      exact hsplit.append_right l
    · split at htake
      · rename_i heq
        cases htake
        rw [← heq]
        exact Regroups.refl _
      · obtain ⟨⟨b, l1⟩, htake', heq⟩ := Option.map_eq_some_iff.mp htake
        cases heq
        exact ((ih htake').cons e).trans (Regroups.of_perm (List.Perm.swap _ _ _))

end Regroups

end RtThread.Extents
