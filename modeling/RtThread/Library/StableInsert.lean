import Mathlib.Order.Lattice
import Mathlib.Data.List.Pairwise
import Mathlib.Order.Defs.LinearOrder

/-!
# Stable insertion

A list ordered by a key, where members of the same key stand in the order in
which they came.  A newcomer goes before the first member with a greater key.
-/

namespace RtThread.StableInsert

universe u v

variable {T : Type u} {K : Type v} [LinearOrder K]

/-- The smaller key comes first, and of equal keys the one that came first. -/
def Before (key : T -> K) (since : T -> Nat) (x y : T) : Prop :=
  key x < key y ∨ key x = key y ∧ since x < since y

def insertBehind (key : T -> K) (t : T) : List T -> List T
  | [] => [t]
  | x :: rest =>
    if key t < key x then t :: x :: rest
    else x :: insertBehind key t rest

section Before

variable {key key' : T -> K} {since since' : T -> Nat} {x y z : T} {l : List T}

theorem Before.irrefl : ¬ Before key since x x := by
  rintro (hlt | ⟨_, hlt⟩)
  · exact absurd hlt (lt_irrefl _)
  · exact absurd hlt (Nat.lt_irrefl _)

theorem Before.key_le (hxy : Before key since x y) : key x ≤ key y := by
  rcases hxy with hlt | ⟨heq, _⟩
  · exact le_of_lt hlt
  · exact le_of_eq heq

theorem nodup_of_before (hl : l.Pairwise (Before key since)) : l.Nodup := by
  apply hl.imp
  intro x y hxy heq
  subst heq
  exact Before.irrefl hxy

theorem before_congr (hl : l.Pairwise (Before key since))
    (hkey : forall x, x ∈ l -> key' x = key x)
    (hsince : forall x, x ∈ l -> since' x = since x) :
    l.Pairwise (Before key' since') := by
  apply hl.imp_of_mem
  intro x y hx hy hxy
  unfold Before
  rw [hkey x hx, hkey y hy, hsince x hx, hsince y hy]
  exact hxy

end Before

section Insert

variable {key : T -> K} {since : T -> Nat} {t x : T} {l : List T}

theorem mem_insertBehind : x ∈ insertBehind key t l <-> x = t ∨ x ∈ l := by
  induction l with
  | nil => simp [insertBehind]
  | cons y rest ih =>
    unfold insertBehind
    split
    · exact List.mem_cons
    · rw [List.mem_cons, List.mem_cons, ih]
      exact or_left_comm

theorem before_insertBehind (hl : l.Pairwise (Before key since))
    (hlast : forall x, x ∈ l -> since x < since t) :
    (insertBehind key t l).Pairwise (Before key since) := by
  induction l with
  | nil => simp [insertBehind]
  | cons y rest ih =>
    have hcons := List.pairwise_cons.mp hl
    unfold insertBehind
    split
    · rename_i hlt
      refine List.pairwise_cons.mpr ⟨?_, hl⟩
      intro x hx
      rcases List.mem_cons.mp hx with heq | hrest
      · exact Or.inl (heq ▸ hlt)
      · exact Or.inl (lt_of_lt_of_le hlt (hcons.left x hrest).key_le)
    · rename_i hge
      refine List.pairwise_cons.mpr ⟨?_, ih hcons.right ?_⟩
      · intro x hx
        rcases mem_insertBehind.mp hx with heq | hrest
        · subst heq
          rcases lt_or_eq_of_le (not_lt.mp hge) with hlt | heq
          · exact Or.inl hlt
          · exact Or.inr ⟨heq, hlast y List.mem_cons_self⟩
        · exact hcons.left x hrest
      · intro x hx
        exact hlast x (List.mem_cons_of_mem y hx)

end Insert

end RtThread.StableInsert
