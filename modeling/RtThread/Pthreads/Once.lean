import Mathlib.Algebra.Group.Nat.Defs
import Mathlib.Logic.Function.Basic
import RtThread.Library.Transition

/-!
# One-time initialisation

Calls of `pthread_once` with one control word by any threads.  The scheduler lock is one counter
of 16 bits for all threads, and another thread runs only while it is 0.
-/

namespace RtThread.Pthreads.Once

open Transition
open Function (update update_of_ne update_self)

abbrev Tid := Nat

/-- A call that has returned: whether `init_routine` had completed, and `rt_scheduler_lock_nest`
at its entry and at its return. -/
structure Return where
  completed : Bool
  entered : Int16
  left : Int16
deriving DecidableEq

/-- `inside` are the threads in `init_routine`, with the depth at the entry of their call. -/
structure State where
  onceControl : Nat
  lockNest : Int16
  current : Tid
  inside : Tid -> Option Int16
  calls : Nat
  started : Nat
  completed : Nat
  returned : List Return

def start (lockNest : Int16) (current : Tid) : State :=
  { onceControl := 0, lockNest := lockNest, current := current, inside := fun _ => none
    calls := 0, started := 0, completed := 0, returned := [] }

def rtEnterCritical (s : State) : State := { s with lockNest := s.lockNest + 1 }

/-- A counter that is not positive behind the subtraction is set to 0. -/
def exitNest (n : Int16) : Int16 := if n - 1 ≤ 0 then 0 else n - 1

def rtExitCritical (s : State) : State := { s with lockNest := exitNest s.lockNest }

/-- A call returns that was entered at `depth`. -/
def State.return (s : State) (depth : Int16) : State :=
  { s with returned := ⟨decide (0 < s.completed), depth, s.lockNest⟩ :: s.returned }

/-- `pthread_once` up to `init_routine`, or to its end. -/
def pthreadOnce (s : State) : State :=
  let depth := s.lockNest
  let s := rtEnterCritical { s with calls := s.calls + 1 }
  if s.onceControl = 0 then
    rtExitCritical { s with
      onceControl := 1
      started := s.started + 1
      inside := Function.update s.inside s.current (some depth) }
  else (rtExitCritical s).return depth

/-- The rest of `pthread_once` behind `init_routine`: the lock is left a second time. -/
def afterRoutine (s : State) (depth : Int16) : State :=
  let s := { s with
    inside := Function.update s.inside s.current none
    completed := s.completed + 1 }
  (rtExitCritical s).return depth

inductive Op where
  | lock
  | unlock
  | once
  | finish
  | switch (t : Tid)

/-- `init_routine` leaves the scheduler lock as it finds it, entered and left once from the
depth of the call. -/
def step (s : State) : Op -> Option State
  | Op.lock => some (rtEnterCritical s)
  | Op.unlock => some (rtExitCritical s)
  | Op.once => some (pthreadOnce s)
  | Op.finish =>
    match s.inside s.current with
    | none => none
    | some depth => if s.lockNest = exitNest (depth + 1) then some (afterRoutine s depth) else none
  | Op.switch t => if s.lockNest = 0 then some { s with current := t } else none

def Return.Fine (r : Return) : Prop := r.completed = true ∧ r.left = r.entered

/-- The routine is called once if there is a call, and calls return when it has completed,
with the scheduler lock as they found it. -/
def Obeys (s : State) : Prop :=
  s.started = min s.calls 1 ∧ forall r, r ∈ s.returned -> r.Fine

/-- The first call is made with the scheduler unlocked, and no call while the routine runs or
with a counter that has wrapped around. -/
def Undisturbed (s : State) : Op -> Prop
  | Op.once =>
    (s.onceControl = 0 -> s.lockNest = 0) ∧
      (s.onceControl ≠ 0 -> 0 < s.completed ∧ 0 ≤ s.lockNest)
  | _ => True

/-!
## Runs
-/

variable {s s' : State} {op : Op} {ops : List Op} {n : Int16} {t : Tid}

theorem exitNest_toInt (n : Int16) : (exitNest n).toInt =
    if (n.toInt - 1).bmod (2 ^ 16) ≤ 0 then 0 else (n.toInt - 1).bmod (2 ^ 16) := by
  have hsub : (n - 1).toInt = (n.toInt - 1).bmod (2 ^ 16) := Int16.toInt_sub n 1
  unfold exitNest
  rw [← hsub]
  by_cases hle : n - 1 ≤ 0
  · have hnest : (n - 1).toInt ≤ 0 := Int16.le_iff_toInt_le.mp hle
    rw [if_pos hle, if_pos hnest]
    rfl
  · have hnest : ¬ (n - 1).toInt ≤ 0 := fun h => hle (Int16.le_iff_toInt_le.mpr h)
    rw [if_neg hle, if_neg hnest]

theorem exitNest_enter_toInt (n : Int16) : (exitNest (n + 1)).toInt = max n.toInt 0 := by
  have hadd : (n + 1).toInt = (n.toInt + 1).bmod (2 ^ 16) := Int16.toInt_add n 1
  have hlow := n.le_toInt
  have hhigh := n.toInt_lt
  rw [exitNest_toInt, hadd]
  simp only [Int.bmod_def]
  omega

/-- Entered and left once, the scheduler is as locked as before, unless the counter has wrapped
around. -/
theorem exitNest_enter_eq_iff (n : Int16) : exitNest (n + 1) = n <-> 0 ≤ n := by
  rw [← Int16.toInt_inj, exitNest_enter_toInt, Int16.le_iff_toInt_le]
  show max n.toInt 0 = n.toInt <-> 0 ≤ n.toInt
  omega

/-- Entered once and left twice, it is as before only if it was unlocked. -/
theorem exitNest_twice_eq_iff (n : Int16) : exitNest (exitNest (n + 1)) = n <-> n = 0 := by
  have hhigh := n.toInt_lt
  rw [← Int16.toInt_inj, ← Int16.toInt_inj, exitNest_toInt, exitNest_enter_toInt]
  show _ <-> n.toInt = 0
  simp only [Int.bmod_def]
  omega

/-- Before the first call, or after it. -/
structure Counts (s : State) : Prop where
  idle : s.onceControl = 0 -> s.calls = 0 ∧ s.started = 0 ∧ forall t, s.inside t = none
  begun : s.onceControl ≠ 0 -> 0 < s.calls ∧ s.started = 1

theorem Counts.step (hs : Counts s) (h : step s op = some s') : Counts s' := by
  cases op with
  | lock => cases h; exact ⟨hs.idle, hs.begun⟩
  | unlock => cases h; exact ⟨hs.idle, hs.begun⟩
  | once =>
    cases h
    unfold pthreadOnce
    dsimp only
    split
    · next hzero =>
        have hstarted : s.started = 0 := (hs.idle hzero).2.1
        refine ⟨nofun, fun _ => ⟨Nat.succ_pos _, congrArg Nat.succ hstarted⟩⟩
    · next hset =>
        exact ⟨fun hzero => absurd hzero hset, fun _ => ⟨Nat.succ_pos _, (hs.begun hset).2⟩⟩
  | finish =>
    unfold Once.step at h
    dsimp only at h
    split at h
    · cases h
    · next depth hin =>
        split at h
        · cases h
          refine ⟨fun hzero => ?_, hs.begun⟩
          rw [(hs.idle hzero).2.2] at hin
          cases hin
        · cases h
  | switch t =>
    unfold Once.step at h
    dsimp only at h
    split at h
    · cases h
      exact ⟨hs.idle, hs.begun⟩
    · cases h

theorem Counts.started_eq (hs : Counts s) : s.started = min s.calls 1 := by
  by_cases hzero : s.onceControl = 0
  · rw [(hs.idle hzero).1, (hs.idle hzero).2.1]
    rfl
  · have hbegun := hs.begun hzero
    omega

/-- A return was not fine, or the call inside was not made with the scheduler unlocked. -/
def Spoiled (s : State) : Prop :=
  (exists r, r ∈ s.returned ∧ ¬ r.Fine) ∨ exists t depth, s.inside t = some depth ∧
    depth ≠ 0

/-- All returns were fine, and the call inside was made with the scheduler unlocked. -/
structure Sound (s : State) : Prop where
  returned : forall r, r ∈ s.returned -> r.Fine
  inside : forall t depth, s.inside t = some depth -> depth = 0

theorem Sound.step (hs : Sound s) (hok : Undisturbed s op) (h : step s op = some s') :
    Sound s' := by
  cases op with
  | lock => cases h; exact ⟨hs.returned, hs.inside⟩
  | unlock => cases h; exact ⟨hs.returned, hs.inside⟩
  | once =>
    cases h
    unfold pthreadOnce
    dsimp only
    split
    · next hzero =>
        refine ⟨hs.returned, fun t depth hin => ?_⟩
        change update s.inside s.current (some s.lockNest) t = some depth at hin
        by_cases ht : t = s.current
        · rw [ht, update_self] at hin
          exact (Option.some.inj hin).symm.trans (hok.1 hzero)
        · rw [update_of_ne ht] at hin
          exact hs.inside t depth hin
    · next hset =>
        refine ⟨fun r hr => ?_, hs.inside⟩
        rcases List.mem_cons.mp hr with rfl | hr
        · have hlater := hok.2 hset
          exact ⟨decide_eq_true hlater.1, (exitNest_enter_eq_iff _).mpr hlater.2⟩
        · exact hs.returned r hr
  | finish =>
    unfold Once.step at h
    dsimp only at h
    split at h
    · cases h
    · next depth hin =>
        split at h
        · next hnest =>
            cases h
            refine ⟨fun r hr => ?_, fun t depth' hin' => ?_⟩
            · rcases List.mem_cons.mp hr with rfl | hr
              · refine ⟨decide_eq_true (Nat.succ_pos s.completed), ?_⟩
                show exitNest s.lockNest = depth
                rw [hnest]
                exact (exitNest_twice_eq_iff depth).mpr (hs.inside _ _ hin)
              · exact hs.returned r hr
            · change update s.inside s.current none t = some depth' at hin'
              by_cases ht : t = s.current
              · rw [ht, update_self] at hin'
                cases hin'
              · rw [update_of_ne ht] at hin'
                exact hs.inside t depth' hin'
        · cases h
  | switch t =>
    unfold Once.step at h
    dsimp only at h
    split at h
    · cases h
      exact ⟨hs.returned, hs.inside⟩
    · cases h

theorem Spoiled.step (hp : Spoiled s) (hs : Counts s) (h : step s op = some s') : Spoiled s' := by
  cases op with
  | lock => cases h; exact hp
  | unlock => cases h; exact hp
  | once =>
    cases h
    unfold pthreadOnce
    dsimp only
    split
    · next hzero =>
        rcases hp with hbad | ⟨t, depth, hin, -⟩
        · exact Or.inl hbad
        · rw [(hs.idle hzero).2.2] at hin
          cases hin
    · rcases hp with ⟨r, hr, hbad⟩ | hin
      · exact Or.inl ⟨r, List.mem_cons_of_mem _ hr, hbad⟩
      · exact Or.inr hin
  | finish =>
    unfold Once.step at h
    dsimp only at h
    split at h
    · cases h
    · next depth hin =>
        split at h
        · next hnest =>
            cases h
            rcases hp with ⟨r, hr, hbad⟩ | ⟨t, depth', hin', hlocked⟩
            · exact Or.inl ⟨r, List.mem_cons_of_mem _ hr, hbad⟩
            · by_cases ht : t = s.current
              · refine Or.inl ⟨_, List.mem_cons_self, fun hfine => ?_⟩
                have hsame : some depth = some depth' := hin.symm.trans (ht ▸ hin')
                have hleft : exitNest s.lockNest = depth := hfine.2
                rw [hnest] at hleft
                exact hlocked (Option.some.inj hsame ▸ (exitNest_twice_eq_iff depth).mp hleft)
              · exact Or.inr ⟨t, depth', (update_of_ne ht _ _).trans hin', hlocked⟩
        · cases h
  | switch t =>
    unfold Once.step at h
    dsimp only at h
    split at h
    · cases h
      exact hp
    · cases h

theorem spoiled_of_disturbed (hok : ¬ Undisturbed s op) (h : step s op = some s') :
    Spoiled s' := by
  cases op with
  | once =>
    cases h
    unfold pthreadOnce
    dsimp only
    split
    · next hzero =>
        have hlocked : s.lockNest ≠ 0 := fun h => hok ⟨fun _ => h, absurd hzero⟩
        exact Or.inr ⟨s.current, s.lockNest, update_self _ _ _, hlocked⟩
    · next hset =>
        refine Or.inl ⟨_, List.mem_cons_self, fun hfine => hok ⟨fun h => absurd h hset, ?_⟩⟩
        exact fun _ => ⟨of_decide_eq_true hfine.1, (exitNest_enter_eq_iff _).mp hfine.2⟩
  | lock => exact absurd trivial hok
  | unlock => exact absurd trivial hok
  | finish => exact absurd trivial hok
  | switch t => exact absurd trivial hok

theorem counts_of_run (hrun : Run (Graph step) (start n t) ops s) : Counts s := by
  apply hrun.invariant Counts ⟨fun _ => ⟨rfl, rfl, fun _ => rfl⟩, fun h => absurd rfl h⟩
  exact fun s op s' hs h => hs.step h

theorem guarded_or_spoiled (hrun : Run (Graph step) (start n t) ops s) :
    Run (Guarded Undisturbed (Graph step)) (start n t) ops s ∨ Spoiled s := by
  induction hrun with
  | nil => exact Or.inl Run.nil
  | @snoc labels s s' op hprev hstep ih =>
    rcases ih with hguarded | hspoiled
    · by_cases hok : Undisturbed s op
      · exact Or.inl (Run.snoc hguarded ⟨hok, hstep⟩)
      · exact Or.inr (spoiled_of_disturbed hok hstep)
    · exact Or.inr (hspoiled.step (counts_of_run hprev) hstep)

/-- In a run all calls obey as long as the first is made with the scheduler unlocked and
none while the routine runs or with a counter that has wrapped around; when all have returned
they have obeyed only if this was so. -/
theorem once_iff (hrun : Run (Graph step) (start n t) ops s) :
    (Run (Guarded Undisturbed (Graph step)) (start n t) ops s -> Obeys s) ∧
      ((forall u, s.inside u = none) -> Obeys s ->
        Run (Guarded Undisturbed (Graph step)) (start n t) ops s) := by
  constructor
  · intro hguarded
    have hsound : Sound s := by
      apply hguarded.invariant Sound
      · exact ⟨fun _ hr => absurd hr List.not_mem_nil,
          fun _ _ hin => absurd hin (Option.some_ne_none _).symm⟩
      · exact fun s op s' hs h => hs.step h.1 h.2
    exact ⟨(counts_of_run hrun).started_eq, hsound.returned⟩
  · intro hout hobeys
    rcases guarded_or_spoiled hrun with hguarded | ⟨r, hr, hbad⟩ | ⟨u, depth, hin, -⟩
    · exact hguarded
    · exact absurd (hobeys.2 r hr) hbad
    · rw [hout] at hin
      cases hin

/-- The first call blocks in the routine, and a second thread calls after it has finished. -/
theorem once_iff_two_threads :
    exists s, exec step (start 0 1) [Op.once, Op.switch 2, Op.switch 1, Op.finish, Op.switch 2,
        Op.once] = some s ∧
      ((Run (Guarded Undisturbed (Graph step)) (start 0 1) [Op.once, Op.switch 2, Op.switch 1,
        Op.finish, Op.switch 2, Op.once] s -> Obeys s) ∧
      ((forall u, s.inside u = none) -> Obeys s ->
        Run (Guarded Undisturbed (Graph step)) (start 0 1) [Op.once, Op.switch 2, Op.switch 1,
          Op.finish, Op.switch 2, Op.once] s)) :=
  ⟨_, rfl, once_iff (run_of_exec rfl)⟩

theorem exec_locks (k : Nat) (s : State) (ops : List Op) :
    exec step s (List.replicate k Op.lock ++ ops) =
      exec step { s with lockNest := s.lockNest + Int16.ofNat k } ops := by
  induction k generalizing s with
  | zero =>
    show exec step s ops = exec step { s with lockNest := s.lockNest + 0 } ops
    rw [Int16.add_zero]
  | succ k ih =>
    have hsum : s.lockNest + 1 + Int16.ofNat k = s.lockNest + Int16.ofNat (k + 1) := by
      rw [Int16.add_assoc, Int16.add_comm 1, Int16.ofNat_add]
      rfl
    rw [← hsum]
    exact ih (rtEnterCritical s)

theorem once_after_locks (k : Nat) : exists s, exec step (start 0 1) ([Op.once, Op.finish] ++
      (List.replicate k Op.lock ++ [Op.once])) = some s ∧
    s.returned = [⟨true, 0 + Int16.ofNat k, exitNest (0 + Int16.ofNat k + 1)⟩,
      ⟨true, 0, 0⟩] :=
  ⟨_, exec_locks k _ _, rfl⟩

/-- A second call returns while the routine runs; a first call with the scheduler locked once
returns with it unlocked, as does a later one with it locked `2 ^ 15` times. -/
theorem once_disobeys :
    (exists s, exec step (start 0 1) [Op.once, Op.switch 2, Op.once] = some s ∧
      s.completed = 0 ∧ s.returned = [⟨false, 0, 0⟩] ∧ ¬ Obeys s) ∧
    (exists s, exec step (start 0 1) [Op.lock, Op.once, Op.finish] = some s ∧
      s.returned = [⟨true, 1, 0⟩] ∧ ¬ Obeys s) ∧
    (exists s, exec step (start 0 1) ([Op.once, Op.finish] ++
        (List.replicate (2 ^ 15) Op.lock ++ [Op.once])) = some s ∧
      s.returned = [⟨true, -2 ^ 15, 0⟩, ⟨true, 0, 0⟩] ∧ ¬ Obeys s) := by
  refine ⟨⟨_, rfl, rfl, rfl, fun hobeys => ?_⟩, ⟨_, rfl, rfl, fun hobeys => ?_⟩, ?_⟩
  · exact Bool.false_ne_true (hobeys.2 ⟨false, 0, 0⟩ List.mem_cons_self).1
  · exact absurd (hobeys.2 ⟨true, 1, 0⟩ List.mem_cons_self).2 (by decide)
  · rcases once_after_locks (2 ^ 15) with ⟨s, hexec, hreturned⟩
    refine ⟨s, hexec, hreturned, fun hobeys => ?_⟩
    have hfine := hobeys.2 ⟨true, -2 ^ 15, 0⟩ (hreturned ▸ List.mem_cons_self)
    exact absurd hfine.2 (by decide)

end RtThread.Pthreads.Once
