import Mathlib.Data.List.Basic

/-!
# Lists of free extents

A free list holds extents of units in the order of their addresses, and no two
of them touch.  Taking units cuts them from the front of the first extent that is
large enough; giving units back joins them with the neighbours they touch.
-/

namespace RtThread.Extents

/-- The units from `start` on, `size` of them. -/
structure Extent where
  start : Nat
  size : Nat
deriving DecidableEq, Repr

def Extent.stop (e : Extent) : Nat := e.start + e.size

def Extent.Has (e : Extent) (x : Nat) : Prop := e.start ≤ x ∧ x < e.stop

def Covers (l : List Extent) (x : Nat) : Prop := exists e, e ∈ l ∧ e.Has x

def Apart (e f : Extent) : Prop := e.stop ≤ f.start ∨ f.stop ≤ e.start

structure Separated (l : List Extent) : Prop where
  positive : forall e, e ∈ l -> 0 < e.size
  gaps : l.Pairwise fun e f => e.stop < f.start

def take (n : Nat) : List Extent -> Option (Nat × List Extent)
  | [] => none
  | e :: l =>
    if n < e.size then some (e.start, ⟨e.start + n, e.size - n⟩ :: l)
    else if e.size = n then some (e.start, l)
    else (take n l).map fun r => (r.1, e :: r.2)

def give (r : Extent) : List Extent -> List Extent
  | [] => [r]
  | e :: l =>
    if e.stop = r.start then
      match l with
      | [] => [⟨e.start, e.size + r.size⟩]
      | f :: l' =>
        if r.stop = f.start then ⟨e.start, e.size + r.size + f.size⟩ :: l'
        else ⟨e.start, e.size + r.size⟩ :: f :: l'
    else if e.start = r.stop then ⟨r.start, e.size + r.size⟩ :: l
    else if r.stop < e.start then r :: e :: l
    else e :: give r l

section Covers

variable {l : List Extent} {e f r : Extent} {x : Nat}

@[simp]
theorem covers_nil : Covers [] x <-> False := by
  simp [Covers]

@[simp]
theorem covers_cons : Covers (e :: l) x <-> e.Has x ∨ Covers l x := by
  simp [Covers]

@[simp]
theorem covers_append {l' : List Extent} : Covers (l ++ l') x <-> Covers l x ∨ Covers l' x := by
  simp [Covers, or_and_right, exists_or]

theorem Apart.symm (h : Apart e f) : Apart f e := Or.symm h

theorem Apart.not_has (h : Apart e f) (hx : e.Has x) : ¬f.Has x := by
  unfold Apart at h
  unfold Extent.Has at *
  omega

theorem apart_of_covers (hepos : 0 < e.size) (hpos : 0 < f.size)
    (he : forall d, d ∈ l -> Apart d f)
    (hsub : forall x, e.Has x -> Covers l x) : Apart e f := by
  by_contra hnot
  unfold Apart at hnot
  rw [not_or, Nat.not_le, Nat.not_le] at hnot
  -- the unit where the later of the two starts lies in both
  have hboth : exists x, e.Has x ∧ f.Has x := by
    exists max e.start f.start
    unfold Extent.Has
    unfold Extent.stop at *
    omega
  rcases hboth with ⟨x, hxe, hxf⟩
  rcases hsub x hxe with ⟨d, hd, hxd⟩
  exact (he d hd).not_has hxd hxf

end Covers

/-!
## Order
-/

section Separated

variable {l : List Extent} {e f r : Extent} {x n : Nat}

theorem Separated.nil : Separated [] :=
  ⟨by simp, List.Pairwise.nil⟩

theorem Separated.tail (hs : Separated (e :: l)) : Separated l :=
  ⟨fun f hf => hs.positive f (List.mem_cons_of_mem e hf), (List.pairwise_cons.mp hs.gaps).right⟩

theorem Separated.behind (hs : Separated (e :: l)) (hf : f ∈ l) : e.stop < f.start :=
  (List.pairwise_cons.mp hs.gaps).left f hf

theorem Separated.cons (hs : Separated l) (hpos : 0 < e.size)
    (hgap : forall f, f ∈ l -> e.stop < f.start) : Separated (e :: l) := by
  refine ⟨?_, List.pairwise_cons.mpr ⟨hgap, hs.gaps⟩⟩
  intro f hf
  rcases List.mem_cons.mp hf with heq | hf
  · rw [heq]
    exact hpos
  · exact hs.positive f hf

theorem Separated.behind_of_next (hs : Separated (f :: l)) (hgap : x < f.start) :
    forall d, d ∈ f :: l -> x < d.start := by
  intro d hd
  rcases List.mem_cons.mp hd with heq | hd
  · rw [heq]
    exact hgap
  · have hbehind := hs.behind hd
    unfold Extent.stop at hbehind
    omega

theorem Separated.replace (hs : Separated (e :: l)) (hpos : 0 < r.size)
    (hstop : r.stop = e.stop) : Separated (r :: l) := by
  apply hs.tail.cons hpos
  intro f hf
  rw [hstop]
  exact hs.behind hf

theorem Separated.length_le {lo hi : Nat} (hs : Separated l) (hle : lo ≤ hi)
    (hin : forall e, e ∈ l -> lo ≤ e.start ∧ e.stop ≤ hi) :
    lo + l.length ≤ hi := by
  induction l generalizing lo with
  | nil => exact hle
  | cons e l ih =>
    have hpos := hs.positive e List.mem_cons_self
    have he := hin e List.mem_cons_self
    have hrest := @ih e.stop hs.tail he.right (by
      intro f hf
      exact ⟨Nat.le_of_lt (hs.behind hf), (hin f (List.mem_cons_of_mem e hf)).right⟩)
    unfold Extent.stop at hrest
    rw [List.length_cons]
    omega

theorem Separated.pairwise_apart (hs : Separated l) : l.Pairwise Apart := by
  apply hs.gaps.imp
  intro e f hlt
  exact Or.inl (Nat.le_of_lt hlt)

end Separated

/-!
## Taking
-/

section Take

variable {l l' : List Extent} {n a x : Nat}

theorem take_eq_none : take n l = none <-> forall e, e ∈ l -> e.size < n := by
  induction l with
  | nil => simp [take]
  | cons e l ih =>
    unfold take
    split
    · rename_i hlt
      simp only [reduceCtorEq, List.mem_cons, forall_eq_or_imp, false_iff]
      omega
    · split
      · rename_i heq
        simp only [reduceCtorEq, List.mem_cons, forall_eq_or_imp, false_iff]
        omega
      · simp only [Option.map_eq_none_iff, ih, List.mem_cons, forall_eq_or_imp]
        constructor
        · intro hall
          exact ⟨by omega, hall⟩
        · exact And.right

/-- What is taken was free, what was in front of it stays in front. -/
structure Taken (n : Nat) (l : List Extent) (a : Nat) (l' : List Extent) :
    Prop where
  separated : Separated l'
  covers : forall x, Covers l x <-> Extent.Has ⟨a, n⟩ x ∨ Covers l' x
  apart : forall e, e ∈ l' -> Apart ⟨a, n⟩ e
  lower : forall b, (forall e, e ∈ l -> b < e.start) ->
    b < a ∧ forall e, e ∈ l' -> b < e.start

theorem take_taken (hs : Separated l) (hn : 0 < n)
    (htake : take n l = some (a, l')) : Taken n l a l' := by
  induction l generalizing l' with
  | nil => cases htake
  | cons e l ih =>
    have hpos := hs.positive e List.mem_cons_self
    unfold take at htake
    split at htake
    · rename_i hlt
      cases htake
      have hstop : Extent.stop ⟨e.start + n, e.size - n⟩ = e.stop := by
        simp only [Extent.stop]
        omega
      refine ⟨hs.replace (Nat.sub_pos_of_lt hlt) hstop, ?_, ?_, ?_⟩
      · intro x
        simp only [covers_cons, Extent.Has, Extent.stop]
        grind -linarith
      · intro f hf
        rcases List.mem_cons.mp hf with heq | hf
        · rw [heq]
          exact Or.inl (Nat.le_refl _)
        · have hbehind := hs.behind hf
          left
          simp only [Extent.stop] at hbehind ⊢
          omega
      · intro b hb
        refine ⟨hb e List.mem_cons_self, ?_⟩
        intro f hf
        rcases List.mem_cons.mp hf with heq | hf
        · have hbe := hb e List.mem_cons_self
          rw [heq]
          show b < e.start + n
          omega
        · exact hb f (List.mem_cons_of_mem e hf)
    · split at htake
      · rename_i heq
        cases htake
        subst heq
        refine ⟨hs.tail, fun x => covers_cons, ?_, ?_⟩
        · intro f hf
          exact Or.inl (Nat.le_of_lt (hs.behind hf))
        · intro b hb
          exact ⟨hb e List.mem_cons_self, fun f hf => hb f (List.mem_cons_of_mem e hf)⟩
      · rw [Option.map_eq_some_iff] at htake
        rcases htake with ⟨⟨a', l1⟩, htake, heq⟩
        cases heq
        have hih := ih hs.tail htake
        have hlow := hih.lower e.stop (fun f hf => hs.behind hf)
        refine ⟨hih.separated.cons hpos hlow.right, ?_, ?_, ?_⟩
        · intro x
          rw [covers_cons, covers_cons, hih.covers x]
          tauto
        · intro f hf
          rcases List.mem_cons.mp hf with heq | hf
          · rw [heq]
            exact Or.inr (Nat.le_of_lt hlow.left)
          · exact hih.apart f hf
        · intro b hb
          have hrest := hih.lower b (fun f hf => hb f (List.mem_cons_of_mem e hf))
          refine ⟨hrest.left, ?_⟩
          intro f hf
          rcases List.mem_cons.mp hf with heq | hf
          · rw [heq]
            exact hb e List.mem_cons_self
          · exact hrest.right f hf

end Take

/-!
## Giving back
-/

section Give

variable {l : List Extent} {e r : Extent}

theorem give_touching (hnot : ¬e.stop = r.start) (htouch : e.start = r.stop) :
    give r (e :: l) = ⟨r.start, e.size + r.size⟩ :: l := by
  unfold give
  rw [if_neg hnot, if_pos htouch]

theorem give_before (hnot : ¬e.stop = r.start) (hnot' : ¬e.start = r.stop)
    (hlt : r.stop < e.start) : give r (e :: l) = r :: e :: l := by
  unfold give
  rw [if_neg hnot, if_neg hnot', if_pos hlt]

theorem give_behind (hnot : ¬e.stop = r.start) (hnot' : ¬e.start = r.stop)
    (hge : ¬r.stop < e.start) : give r (e :: l) = e :: give r l := by
  conv_lhs => unfold give
  rw [if_neg hnot, if_neg hnot', if_neg hge]

/-- The units given back are free, in front of what they were in front of. -/
structure Given (r : Extent) (l l' : List Extent) : Prop where
  separated : Separated l'
  covers : forall x, Covers l' x <-> r.Has x ∨ Covers l x
  lower : forall b, b < r.start -> (forall e, e ∈ l -> b < e.start) ->
    forall e, e ∈ l' -> b < e.start

theorem give_given (hs : Separated l) (hr : 0 < r.size)
    (hapart : forall e, e ∈ l -> Apart r e) : Given r l (give r l) := by
  induction l with
  | nil =>
    refine ⟨Separated.nil.cons hr (by simp), fun x => covers_cons, ?_⟩
    intro b hb _ e he
    rw [List.mem_singleton.mp he]
    exact hb
  | cons e l ih =>
    have hpos := hs.positive e List.mem_cons_self
    have hapart' : forall f, f ∈ l -> Apart r f :=
      fun f hf => hapart f (List.mem_cons_of_mem e hf)
    have he := hapart e List.mem_cons_self
    unfold Apart at he
    simp only [Extent.stop] at he
    unfold give
    split
    · rename_i htouch
      simp only [Extent.stop] at htouch
      cases l with
      | nil =>
        refine ⟨Separated.nil.cons (Nat.add_pos_left hpos _) (by simp), ?_, ?_⟩
        · intro x
          simp only [covers_cons, covers_nil, Extent.Has, Extent.stop]
          grind -linarith
        · intro b _ hb d hd
          rw [List.mem_singleton.mp hd]
          exact hb e List.mem_cons_self
      | cons f l =>
        have hef := hs.behind (List.mem_cons_self (a := f) (l := l))
        have hfr := hapart' f List.mem_cons_self
        have hfpos := hs.tail.positive f List.mem_cons_self
        unfold Apart at hfr
        simp only [Extent.stop] at hef hfr
        simp only
        split
        · rename_i hjoin
          simp only [Extent.stop] at hjoin
          refine ⟨hs.tail.replace (by simp; omega) (by simp only [Extent.stop]; omega), ?_, ?_⟩
          · intro x
            simp only [covers_cons, Extent.Has, Extent.stop]
            grind -linarith
          · intro b _ hb d hd
            rcases List.mem_cons.mp hd with heq | hd
            · rw [heq]
              exact hb e List.mem_cons_self
            · exact hb d (by simp [hd])
        · rename_i hgap
          simp only [Extent.stop] at hgap
          have hbehind : forall d, d ∈ f :: l -> e.start + (e.size + r.size) < d.start :=
            hs.tail.behind_of_next (by omega)
          refine ⟨hs.tail.cons (Nat.add_pos_left hpos _) hbehind, ?_, ?_⟩
          · intro x
            simp only [covers_cons, Extent.Has, Extent.stop]
            grind -linarith
          · intro b _ hb d hd
            rcases List.mem_cons.mp hd with heq | hd
            · rw [heq]
              exact hb e List.mem_cons_self
            · exact hb d (List.mem_cons_of_mem e hd)
    · rename_i hnot
      simp only [Extent.stop] at hnot
      split
      · rename_i htouch
        simp only [Extent.stop] at htouch
        refine ⟨hs.replace (Nat.add_pos_left hpos _) (by simp only [Extent.stop]; omega), ?_,
          ?_⟩
        · intro x
          simp only [covers_cons, Extent.Has, Extent.stop]
          grind -linarith
        · intro b hbr hb d hd
          rcases List.mem_cons.mp hd with heq | hd
          · rw [heq]
            exact hbr
          · exact hb d (List.mem_cons_of_mem e hd)
      · rename_i hnot'
        simp only [Extent.stop] at hnot'
        split
        · rename_i hlt
          refine ⟨hs.cons hr (hs.behind_of_next hlt), fun x => covers_cons, ?_⟩
          intro b hbr hb d hd
          rcases List.mem_cons.mp hd with heq | hd
          · rw [heq]
            exact hbr
          · exact hb d hd
        · rename_i hge
          have hbefore : e.stop < r.start := by
            simp only [Extent.stop] at hge ⊢
            omega
          have hih := ih hs.tail hapart'
          refine ⟨hih.separated.cons hpos
            (hih.lower e.stop hbefore (fun f hf => hs.behind hf)), ?_, ?_⟩
          · intro x
            rw [covers_cons, covers_cons, hih.covers x]
            tauto
          · intro b hbr hb d hd
            rcases List.mem_cons.mp hd with heq | hd
            · rw [heq]
              exact hb e List.mem_cons_self
            · exact hih.lower b hbr (fun f hf => hb f (List.mem_cons_of_mem e hf)) d hd

end Give

end RtThread.Extents
