import Mathlib.Data.List.Basic

/-!
# Descending along names

From a node of a tree a list of names leads down, one child for each name.  Which child that
is, a rule says; two rules lead to the same nodes as long as one picks only what the other
one does.
-/

namespace RtThread.Descent

universe u v

/-- A rule picks a child of a node for a name, with its place among the children. -/
abbrev Rule (Node : Type u) (Name : Type v) := Node -> Name -> Nat -> Node -> Prop

variable {Node : Type u} {Name : Type v} {Picks Good : Rule Node Name}

inductive Reaches (Picks : Rule Node Name) : Node -> List Name -> List Nat -> Node -> Prop where
  | here (d : Node) : Reaches Picks d [] [] d
  | step {d e e' : Node} {c : Name} {cs : List Name} {i : Nat} {is : List Nat}
      (h : Picks d c i e) (h' : Reaches Picks e cs is e') :
      Reaches Picks d (c :: cs) (i :: is) e'

/-- What the first rule picks on the way, the second one picks too. -/
def Along (Picks Good : Rule Node Name) : Node -> List Name -> Prop
  | _, [] => True
  | d, c :: cs => forall i e, Picks d c i e -> Good d c i e ∧ Along Picks Good e cs

variable {d e : Node} {c : Name} {cs : List Name} {i : Nat} {is : List Nat}

theorem reaches_nil_iff : Reaches Picks d [] is e <-> is = [] ∧ e = d := by
  constructor
  · rintro ⟨⟩
    exact ⟨rfl, rfl⟩
  · rintro ⟨rfl, rfl⟩
    exact Reaches.here e

theorem reaches_cons_iff : Reaches Picks d (c :: cs) is e <->
    exists i e' is', Picks d c i e' ∧ is = i :: is' ∧ Reaches Picks e' cs is' e := by
  constructor
  · intro h
    cases h with
    | step hpick hrest => exact ⟨_, _, _, hpick, rfl, hrest⟩
  · rintro ⟨i, e', is', hpick, rfl, hrest⟩
    exact Reaches.step hpick hrest

theorem Reaches.along (h : Reaches Picks d cs is e) (halong : Along Picks Good d cs) :
    Reaches Good d cs is e := by
  induction h with
  | here d => exact Reaches.here d
  | step hpick _ ih =>
    rcases halong _ _ hpick with ⟨hgood, hrest⟩
    exact Reaches.step hgood (ih hrest)

/-- The other way, when the second rule picks one child at most and the first one picks some
where the second one does. -/
theorem Reaches.of_along {Ok : Node -> Prop}
    (hok : forall d c i e, Ok d -> Good d c i e -> Ok e)
    (hunique : forall d c i e i' e', Ok d -> Good d c i e -> Good d c i' e' -> i = i' ∧ e = e')
    (hsome : forall d c i e, Good d c i e -> exists i' e', Picks d c i' e')
    (hd : Ok d) (h : Reaches Good d cs is e) (halong : Along Picks Good d cs) :
    Reaches Picks d cs is e := by
  induction h with
  | here d => exact Reaches.here d
  | @step d e e' c cs i is hgood _ ih =>
    rcases hsome d c i e hgood with ⟨i1, e1, hpick⟩
    rcases halong i1 e1 hpick with ⟨hgood1, hrest⟩
    rcases hunique d c i e i1 e1 hd hgood hgood1 with ⟨rfl, rfl⟩
    exact Reaches.step hpick (ih (hok d c i e hd hgood) hrest)

theorem Reaches.along_of_both
    (honce : forall d c i e i' e', Picks d c i e -> Picks d c i' e' -> i = i' ∧ e = e')
    (hchild : forall d c i e e', Picks d c i e -> Good d c i e' -> e = e')
    (h : Reaches Picks d cs is e) (h' : Reaches Good d cs is e) : Along Picks Good d cs := by
  induction h with
  | here d => exact trivial
  | @step d e e' c cs i is hpick _ ih =>
    rcases reaches_cons_iff.mp h' with ⟨i1, e1, is1, hgood, heq, hrest⟩
    cases heq
    obtain rfl := hchild d c i e e1 hpick hgood
    intro i2 e2 hpick2
    rcases honce d c i e i2 e2 hpick hpick2 with ⟨rfl, rfl⟩
    exact ⟨hgood, ih hrest⟩

end RtThread.Descent
