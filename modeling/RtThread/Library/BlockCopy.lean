import Mathlib.Data.Int.Cast.Defs
import Mathlib.Logic.Function.Basic
import Mathlib.Tactic.Abel

/-!
# Copying cell by cell

A memory is a function of the addresses, and addresses can be counted up from one to the
next; they may wrap around.  A loop that copies cells upwards moves a block as long as no
cell is written before it is read, and so does one that goes downwards.
-/

namespace RtThread.BlockCopy

open Function (update update_of_ne update_self)

universe u v

variable {A : Type u} {V : Type v} [AddCommGroupWithOne A] [DecidableEq A]

/-- Copy `n` cells upwards. -/
def forward (m : A -> V) (dst src : A) : Nat -> A -> V
  | 0 => m
  | n + 1 => forward (Function.update m dst (m src)) (dst + 1) (src + 1) n

/-- Copy the `n` cells below two addresses downwards. -/
def backward (m : A -> V) (dst src : A) : Nat -> A -> V
  | 0 => m
  | n + 1 => backward (Function.update m (dst - 1) (m (src - 1))) (dst - 1) (src - 1) n

/-- Set `n` cells. -/
def fill (m : A -> V) (dst : A) (value : V) : Nat -> A -> V
  | 0 => m
  | n + 1 => fill (Function.update m dst value) (dst + 1) value n

/-- A block has the old cells of another one, and all other cells are as they were. -/
structure Moved (m m' : A -> V) (dst src : A) (n : Nat) : Prop where
  inside : forall i, i < n -> m' (dst + i) = m (src + i)
  outside : forall a, (forall i, i < n -> a ≠ dst + (i : A)) -> m' a = m a

variable {m m' m'' : A -> V} {dst src : A} {value : V} {n k : Nat}

theorem Moved.unique (h : Moved m m' dst src n) (h' : Moved m m'' dst src n) : m' = m'' := by
  funext a
  by_cases ha : exists i, i < n ∧ a = dst + (i : A)
  · rcases ha with ⟨i, hi, rfl⟩
    rw [h.inside i hi, h'.inside i hi]
  · have hout : forall i, i < n -> a ≠ dst + (i : A) := fun i hi heq => ha ⟨i, hi, heq⟩
    rw [h.outside a hout, h'.outside a hout]

/-!
## Loops in two parts
-/

theorem forward_add (m : A -> V) (dst src : A) (n k : Nat) :
    forward m dst src (n + k) = forward (forward m dst src n) (dst + n) (src + n) k := by
  induction n generalizing m dst src with
  | zero => simp [forward]
  | succ n ih =>
    rw [Nat.succ_add, forward, forward, ih]
    congr 1
    · push_cast
      abel
    · push_cast
      abel

theorem fill_add (m : A -> V) (dst : A) (value : V) (n k : Nat) :
    fill m dst value (n + k) = fill (fill m dst value n) (dst + n) value k := by
  induction n generalizing m dst with
  | zero => simp [fill]
  | succ n ih =>
    rw [Nat.succ_add, fill, fill, ih]
    congr 1
    push_cast
    abel

theorem forward_succ (m : A -> V) (dst src : A) (n : Nat) : forward m dst src (n + 1) =
      update (forward m dst src n) (dst + n) (forward m dst src n (src + n)) := by
  rw [forward_add]
  rfl

/-!
## Blocks that are moved
-/

def Distinct (dst : A) (n : Nat) : Prop :=
  forall i j, i < n -> j < n -> dst + (i : A) = dst + (j : A) -> i = j

omit [DecidableEq A] in
theorem Distinct.mono (h : Distinct dst n) (hle : k ≤ n) : Distinct dst k :=
  fun i j hi hj heq => h i j (Nat.lt_of_lt_of_le hi hle) (Nat.lt_of_lt_of_le hj hle) heq

theorem forward_moved (hdistinct : Distinct dst n)
    (hsafe : forall i j, j < i -> i < n -> dst + (j : A) ≠ src + (i : A)) :
    Moved m (forward m dst src n) dst src n := by
  induction n with
  | zero => exact ⟨fun i hi => absurd hi (Nat.not_lt_zero i), fun a _ => rfl⟩
  | succ n ih =>
    have hrest := ih (hdistinct.mono (Nat.le_succ n))
      (fun i j hj hi => hsafe i j hj (Nat.lt_succ_of_lt hi))
    have hread : forward m dst src n (src + n) = m (src + n) :=
      hrest.outside _ fun j hj => (hsafe n j hj (Nat.lt_succ_self n)).symm
    rw [forward_succ, hread]
    refine ⟨fun i hi => ?_, fun a ha => ?_⟩
    · rcases Nat.lt_succ_iff_lt_or_eq.mp hi with hlt | rfl
      · have hne : dst + (i : A) ≠ dst + (n : A) := fun heq =>
          absurd (hdistinct i n hi (Nat.lt_succ_self n) heq) (Nat.ne_of_lt hlt)
        rw [update_of_ne hne]
        exact hrest.inside i hlt
      · exact update_self _ _ _
    · rw [update_of_ne (ha n (Nat.lt_succ_self n))]
      exact hrest.outside a fun i hi => ha i (Nat.lt_succ_of_lt hi)

theorem backward_moved (hdistinct : Distinct dst n)
    (hsafe : forall i j, i < j -> j < n -> dst + (j : A) ≠ src + (i : A)) :
    Moved m (backward m (dst + n) (src + n) n) dst src n := by
  induction n generalizing m with
  | zero => exact ⟨fun i hi => absurd hi (Nat.not_lt_zero i), fun a _ => rfl⟩
  | succ n ih =>
    have hrest := ih (m := update m (dst + n) (m (src + n))) (hdistinct.mono (Nat.le_succ n))
      (fun i j hi hj => hsafe i j hi (Nat.lt_succ_of_lt hj))
    have hdst : dst + ((n + 1 : Nat) : A) - 1 = dst + n := by
      push_cast
      abel
    have hsrc : src + ((n + 1 : Nat) : A) - 1 = src + n := by
      push_cast
      abel
    rw [backward, hdst, hsrc]
    refine ⟨fun i hi => ?_, fun a ha => ?_⟩
    · rcases Nat.lt_succ_iff_lt_or_eq.mp hi with hlt | rfl
      · rw [hrest.inside i hlt]
        exact update_of_ne (hsafe i n hlt (Nat.lt_succ_self n)).symm _ _
      · rw [hrest.outside]
        · exact update_self _ _ _
        · intro j hj heq
          exact absurd (hdistinct i j hi (Nat.lt_succ_of_lt hj) heq) (Nat.ne_of_gt hj)
    · rw [hrest.outside a fun i hi => ha i (Nat.lt_succ_of_lt hi)]
      exact update_of_ne (ha n (Nat.lt_succ_self n)) _ _

end RtThread.BlockCopy
