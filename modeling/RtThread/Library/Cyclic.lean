import Mathlib.Algebra.Order.Group.Int
import Mathlib.Data.List.Basic

/-!
# Times on a circle

A time of day comes back after a period.  How far it is ahead of the present is a number from
one to the period: the present moment itself lies a whole period ahead.  The search for the
time that comes next keeps two candidates, the first one after the present and the first one
of the next round.
-/

namespace RtThread.Cyclic

/-- How long it takes from `now` until the time `x` comes. -/
def ahead (period now x : Int) : Int := period - (now - x) % period

section Ahead

variable {period now x y d : Int}

theorem ahead_self : ahead period now now = period := by
  unfold ahead
  rw [Int.sub_self, Int.zero_emod, Int.sub_zero]

theorem ahead_le (hperiod : 0 < period) : ahead period now x ≤ period := by
  have hnonneg := Int.emod_nonneg (now - x) (Int.ne_of_gt hperiod)
  unfold ahead
  omega

theorem ahead_emod : ahead period (now % period) x = ahead period now x := by
  unfold ahead
  rw [Int.emod_sub_emod]

theorem ahead_add (hperiod : 0 < period) (hd : 0 ≤ d) (hlt : d < ahead period now x) :
    ahead period (now + d) x = ahead period now x - d := by
  have hnonneg := Int.emod_nonneg (now - x) (Int.ne_of_gt hperiod)
  have hstep : (now + d - x) % period = (now - x) % period + d := by
    have hsplit : now + d - x = now - x + d := by omega
    rw [hsplit, ← Int.emod_add_emod]
    apply Int.emod_eq_of_lt
    · omega
    · unfold ahead at hlt
      omega
  unfold ahead
  omega

theorem ahead_of_lt (hnow : 0 ≤ now) (hx : x < period) (hlt : now < x) :
    ahead period now x = x - now := by
  have hmod : (now - x) % period = now - x + period := by
    rw [← Int.add_emod_right]
    exact Int.emod_eq_of_lt (by omega) (by omega)
  unfold ahead
  omega

theorem ahead_of_le (hx : 0 ≤ x) (hnow : now < period) (hle : x ≤ now) :
    ahead period now x = x - now + period := by
  have hmod : (now - x) % period = now - x := Int.emod_eq_of_lt (by omega) (by omega)
  unfold ahead
  omega

end Ahead

/-!
## A search by strict improvement
-/

universe u

/-- The least key seen below a bound, and where it was seen. -/
structure Best (A : Type u) where
  key : Int
  arg : Option A

namespace Best

variable {A : Type u}

def start (bound : Int) : Best A := ⟨bound, none⟩

def offer (b : Best A) (key : Int) (a : A) : Best A :=
  if key < b.key then ⟨key, some a⟩ else b

/-- What a search has found among the offers that were made. -/
structure Of (bound : Int) (offers : List (Int × A)) (b : Best A) : Prop where
  le_bound : b.key ≤ bound
  le_offer : forall x, x ∈ offers -> b.key ≤ x.1
  found : forall a, b.arg = some a -> (b.key, a) ∈ offers
  missed : b.arg = none -> b.key = bound

theorem Of.start (bound : Int) : Of bound [] (start bound : Best A) where
  le_bound := Int.le_refl bound
  le_offer := nofun
  found := nofun
  missed _ := rfl

theorem Of.offer {bound : Int} {offers : List (Int × A)} {b : Best A} (h : Of bound offers b)
    (key : Int) (a : A) : Of bound (offers ++ [(key, a)]) (b.offer key a) := by
  unfold Best.offer
  split
  · rename_i hlt
    refine ⟨Int.le_trans (Int.le_of_lt hlt) h.le_bound, ?_, ?_, nofun⟩
    · intro x hx
      rcases List.mem_append.1 hx with hx | hx
      · exact Int.le_trans (Int.le_of_lt hlt) (h.le_offer x hx)
      · rw [List.mem_singleton.1 hx]
    · intro a' ha'
      cases ha'
      exact List.mem_append_right _ (List.mem_singleton.2 rfl)
  · rename_i hge
    refine ⟨h.le_bound, ?_, ?_, h.missed⟩
    · intro x hx
      rcases List.mem_append.1 hx with hx | hx
      · exact h.le_offer x hx
      · rw [List.mem_singleton.1 hx]
        exact Int.not_lt.1 hge
    · intro a' ha'
      exact List.mem_append_left _ (h.found a' ha')

end Best

/-!
## The time that comes next
-/

/-- Two searches: for the times after the present, and for those of the next round. -/
structure Search (A : Type u) where
  next : Best A
  prev : Best A

namespace Search

variable {A : Type u}

def start (period : Int) : Search A := ⟨Best.start period, Best.start 0⟩

def visit (now : Int) (s : Search A) (x : Int × A) : Search A :=
  if 0 < x.1 - now then { s with next := s.next.offer (x.1 - now) x.2 }
  else { s with prev := s.prev.offer (x.1 - now) x.2 }

def result (period : Int) (s : Search A) : Option A :=
  if s.next.key < period then s.next.arg
  else if s.prev.key < 0 then s.prev.arg
  else none

structure Of (period now : Int) (times : List (Int × A)) (s : Search A) : Prop where
  next : exists offers, Best.Of period offers s.next ∧
    forall x : Int × A, x ∈ offers <-> (x.1 + now, x.2) ∈ times ∧ 0 < x.1
  prev : exists offers, Best.Of 0 offers s.prev ∧
    forall x : Int × A, x ∈ offers <-> (x.1 + now, x.2) ∈ times ∧ x.1 ≤ 0

variable {period now : Int}

theorem Of.start (period now : Int) : Of period now [] (start period : Search A) where
  next := ⟨[], Best.Of.start period, fun _ => ⟨nofun, fun h => nomatch h.1⟩⟩
  prev := ⟨[], Best.Of.start 0, fun _ => ⟨nofun, fun h => nomatch h.1⟩⟩

private theorem mem_offers {times offers : List (Int × A)} {p : Int -> Prop} {x : Int × A}
    (hoffers : forall y : Int × A, y ∈ offers <-> (y.1 + now, y.2) ∈ times ∧ p y.1)
    (hx : p (x.1 - now)) (y : Int × A) :
    y ∈ offers ++ [(x.1 - now, x.2)] <-> (y.1 + now, y.2) ∈ times ++ [x] ∧ p y.1 := by
  rw [List.mem_append, List.mem_append, List.mem_singleton, List.mem_singleton, hoffers]
  constructor
  · rintro (⟨hmem, hy⟩ | rfl)
    · exact ⟨Or.inl hmem, hy⟩
    · exact ⟨Or.inr (by simp), hx⟩
  · rintro ⟨hmem | rfl, hy⟩
    · exact Or.inl ⟨hmem, hy⟩
    · exact Or.inr (by simp)

private theorem mem_offers_skip {times offers : List (Int × A)} {p : Int -> Prop} {x : Int × A}
    (hoffers : forall y : Int × A, y ∈ offers <-> (y.1 + now, y.2) ∈ times ∧ p y.1)
    (hx : ¬ p (x.1 - now)) (y : Int × A) :
    y ∈ offers <-> (y.1 + now, y.2) ∈ times ++ [x] ∧ p y.1 := by
  rw [List.mem_append, List.mem_singleton, hoffers]
  constructor
  · rintro ⟨hmem, hy⟩
    exact ⟨Or.inl hmem, hy⟩
  · rintro ⟨hmem | rfl, hy⟩
    · exact ⟨hmem, hy⟩
    · rw [Int.add_sub_cancel] at hx
      exact absurd hy hx

theorem Of.visit {times : List (Int × A)} {s : Search A} (h : Of period now times s)
    (x : Int × A) : Of period now (times ++ [x]) (s.visit now x) := by
  obtain ⟨next, hnext, hnextMem⟩ := h.next
  obtain ⟨prev, hprev, hprevMem⟩ := h.prev
  unfold Search.visit
  split
  · rename_i hpos
    have hskip : ¬ x.1 - now ≤ 0 := Int.not_le.2 hpos
    exact ⟨⟨_, hnext.offer _ _, mem_offers hnextMem hpos⟩,
      ⟨_, hprev, @mem_offers_skip A now times prev (· ≤ 0) x hprevMem hskip⟩⟩
  · rename_i hskip
    have hneg : x.1 - now ≤ 0 := Int.not_lt.1 hskip
    exact ⟨⟨_, hnext, mem_offers_skip hnextMem hskip⟩,
      ⟨_, hprev.offer _ _, @mem_offers A now times prev (· ≤ 0) x hprevMem hneg⟩⟩

theorem Of.foldl {times : List (Int × A)} {s : Search A} (h : Of period now times s)
    (more : List (Int × A)) : Of period now (times ++ more) (more.foldl (Search.visit now) s) := by
  induction more generalizing times s with
  | nil => rwa [List.append_nil]
  | cons x more ih =>
    have hstep := ih (h.visit x)
    rwa [List.append_assoc] at hstep

section Result

variable {times : List (Int × A)} {s : Search A}

theorem Of.result_eq_some (h : Of period now times s) (hnow : 0 ≤ now) (hnow' : now < period)
    (htimes : forall x, x ∈ times -> 0 ≤ x.1 ∧ x.1 < period) {a : A}
    (ha : s.result period = some a) :
    exists x, (x, a) ∈ times ∧ x ≠ now ∧
      forall y, y ∈ times -> ahead period now x ≤ ahead period now y.1 := by
  obtain ⟨next, hnext, hnextMem⟩ := h.next
  obtain ⟨prev, hprev, hprevMem⟩ := h.prev
  unfold Search.result at ha
  split at ha
  · -- the first time after the present
    obtain ⟨hmem, hpos⟩ := (hnextMem _).1 (hnext.found a ha)
    obtain ⟨hlow, hhigh⟩ := htimes _ hmem
    have hkey : ahead period now (s.next.key + now) = s.next.key := by
      rw [ahead_of_lt hnow hhigh (by simpa using hpos)]
      exact Int.add_sub_cancel ..
    refine ⟨_, hmem, by simp only; omega, ?_⟩
    intro y hy
    obtain ⟨hylow, hyhigh⟩ := htimes y hy
    rw [hkey]
    by_cases hlt : now < y.1
    · rw [ahead_of_lt hnow hyhigh hlt]
      exact hnext.le_offer (y.1 - now, y.2)
        ((hnextMem _).2 ⟨by simpa using hy, by simpa using hlt⟩)
    · rw [ahead_of_le hylow hnow' (Int.not_lt.1 hlt)]
      omega
  · rename_i hnone
    split at ha
    · -- nothing comes before the end of the round
      obtain ⟨hmem, -⟩ := (hprevMem _).1 (hprev.found a ha)
      obtain ⟨hlow, hhigh⟩ := htimes _ hmem
      have hkey : ahead period now (s.prev.key + now) = s.prev.key + period := by
        rw [ahead_of_le hlow hnow' (by omega)]
        omega
      refine ⟨_, hmem, by simp only; omega, ?_⟩
      intro y hy
      obtain ⟨hylow, hyhigh⟩ := htimes y hy
      rw [hkey]
      by_cases hlt : now < y.1
      · have hle := hnext.le_offer (y.1 - now, y.2)
          ((hnextMem _).2 ⟨by simpa using hy, by simpa using hlt⟩)
        omega
      · have hle := hprev.le_offer (y.1 - now, y.2)
          ((hprevMem _).2 ⟨by simpa using hy, by simp only; omega⟩)
        rw [ahead_of_le hylow hnow' (Int.not_lt.1 hlt)]
        omega
    · cases ha

theorem Of.result_eq_none (h : Of period now times s) (hnow : 0 ≤ now)
    (htimes : forall x, x ∈ times -> x.1 < period) (hnone : s.result period = none)
    {x : Int × A} (hx : x ∈ times) : x.1 = now := by
  obtain ⟨next, hnext, hnextMem⟩ := h.next
  obtain ⟨prev, hprev, hprevMem⟩ := h.prev
  have hlt := htimes x hx
  unfold Search.result at hnone
  split at hnone
  · rename_i hkey
    exact absurd (hnext.missed hnone) (Int.ne_of_lt hkey)
  split at hnone
  · rename_i hkey
    exact absurd (hprev.missed hnone) (Int.ne_of_lt hkey)
  by_cases hpos : 0 < x.1 - now
  · have hle := hnext.le_offer (x.1 - now, x.2) ((hnextMem _).2 ⟨by simpa using hx, hpos⟩)
    omega
  · have hle := hprev.le_offer (x.1 - now, x.2)
      ((hprevMem _).2 ⟨by simpa using hx, Int.not_lt.1 hpos⟩)
    omega

end Result

end Search
end RtThread.Cyclic
