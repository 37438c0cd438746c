import Mathlib.Data.List.Nodup
import Mathlib.Data.List.Perm.Basic

/-!
# Tables of slots

A table whose slots are handed out by their numbers.  The numbers that are out are kept in a
list; the slots behind them are in use, and all others are free.
-/

namespace RtThread.Slots

universe u

variable {α : Type u} {Used Free : α -> Prop} {table : List α} {live : List Nat} {n : Nat}
  {a : α}

structure Accounted (Used Free : α -> Prop) (table : List α) (live : List Nat) : Prop where
  nodup : live.Nodup
  used : forall n, n ∈ live -> exists a, table[n]? = some a ∧ Used a
  free : forall n a, n ∉ live -> table[n]? = some a -> Free a

theorem Accounted.change (h : Accounted Used Free table live) (hn : n ∈ live) (ha : Used a) :
    Accounted Used Free (table.set n a) live := by
  refine ⟨h.nodup, ?_, ?_⟩
  · intro m hm
    obtain ⟨b, hb, hused⟩ := h.used m hm
    rcases eq_or_ne n m with rfl | hne
    · exact ⟨a, List.getElem?_set_self (List.getElem?_eq_some_iff.mp hb).1, ha⟩
    · exact ⟨b, by rw [List.getElem?_set_ne hne, hb], hused⟩
  · intro m b hm hb
    have hne : n ≠ m := fun hnm => hm (hnm ▸ hn)
    rw [List.getElem?_set_ne hne] at hb
    exact h.free m b hm hb

theorem Accounted.keep (h : Accounted Used Free table live) (hn : n ∉ live) (ha : Free a) :
    Accounted Used Free (table.set n a) live := by
  refine ⟨h.nodup, ?_, ?_⟩
  · intro m hm
    have hne : n ≠ m := fun hnm => hn (hnm ▸ hm)
    rw [List.getElem?_set_ne hne]
    exact h.used m hm
  · intro m b hm hb
    rw [List.getElem?_set] at hb
    split at hb
    · split at hb
      · cases hb
        exact ha
      · cases hb
    · exact h.free m b hm hb

theorem Accounted.take (h : Accounted Used Free table live) (hn : n ∉ live)
    (hlt : n < table.length) (ha : Used a) :
    Accounted Used Free (table.set n a) (n :: live) := by
  refine ⟨List.nodup_cons.mpr ⟨hn, h.nodup⟩, ?_, ?_⟩
  · intro m hm
    rcases List.mem_cons.mp hm with rfl | hm
    · exact ⟨a, List.getElem?_set_self hlt, ha⟩
    · have hne : n ≠ m := fun hnm => hn (hnm ▸ hm)
      rw [List.getElem?_set_ne hne]
      exact h.used m hm
  · intro m b hm hb
    rw [List.mem_cons, not_or] at hm
    rw [List.getElem?_set_ne (Ne.symm hm.1)] at hb
    exact h.free m b hm.2 hb

theorem Accounted.give (h : Accounted Used Free table live) (ha : Free a) :
    Accounted Used Free (table.set n a) (live.erase n) := by
  refine ⟨h.nodup.erase n, ?_, ?_⟩
  · intro m hm
    rw [h.nodup.mem_erase_iff] at hm
    rw [List.getElem?_set_ne (Ne.symm hm.1)]
    exact h.used m hm.2
  · intro m b hm hb
    rw [List.getElem?_set] at hb
    split at hb
    · split at hb
      · cases hb
        exact ha
      · cases hb
    · next hne =>
        refine h.free m b (fun hmem => hm ?_) hb
        rw [h.nodup.mem_erase_iff]
        exact ⟨Ne.symm hne, hmem⟩

theorem countP_eq_length_filter_range (p : α -> Bool) (table : List α) : table.countP p =
      ((List.range table.length).filter fun n => table[n]?.any p).length := by
  have hmap : table.map some = (List.range table.length).map (table[·]?) := by
    apply List.ext_getElem (by simp)
    intro n hn _
    rw [List.length_map] at hn
    rw [List.getElem_map, List.getElem_map, List.getElem_range, List.getElem?_eq_getElem hn]
  calc
    table.countP p = (table.map some).countP fun o => o.any p := by
      rw [List.countP_map]
      rfl
    _ = (List.range table.length).countP fun n => table[n]?.any p := by
      rw [hmap, List.countP_map]
      rfl
    _ = ((List.range table.length).filter fun n => table[n]?.any p).length :=
      List.countP_eq_length_filter

theorem Accounted.count {p : α -> Bool} (h : Accounted Used Free table live)
    (hused : forall a, Used a -> p a = true) (hfree : forall a, Free a -> p a = false) :
    table.countP p = live.length := by
  rw [countP_eq_length_filter_range]
  apply List.Perm.length_eq
  rw [List.perm_ext_iff_of_nodup (List.nodup_range.filter _) h.nodup]
  intro n
  rw [List.mem_filter, List.mem_range]
  constructor
  · rintro ⟨_, hany⟩
    by_contra hn
    obtain ⟨a, ha, hp⟩ := (Option.any_eq_true _ _).mp hany
    rw [hfree a (h.free n a hn ha)] at hp
    cases hp
  · intro hn
    obtain ⟨a, ha, huse⟩ := h.used n hn
    refine ⟨(List.getElem?_eq_some_iff.mp ha).1, ?_⟩
    rw [ha]
    exact hused a huse

end RtThread.Slots
