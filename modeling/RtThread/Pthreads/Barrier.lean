import RtThread.Pthreads.Cond

/-!
# Barriers

`pthread_barrier_wait` on one barrier, by any number of threads.  A step is a critical
section of the barrier's mutex or a take of the condition's semaphore.
-/

namespace RtThread.Pthreads.Barrier

open Kernel
open Function (update update_of_ne update_self)
open Ipc
open Ipc.Semaphore
open Transition

/-- `pthread_barrier_t` with the threads inside the wait of its condition: before the take,
and on their way to lock the mutex again. -/
structure State where
  count : Nat
  cond : PthreadCond
  between : List Tid
  woken : List Tid
deriving DecidableEq, Repr

def State.inside (s : State) : List Tid :=
  s.between ++ s.cond.sem.suspendThread ++ s.woken

def pthreadBarrierInit (count : Nat) : State :=
  { count := count, cond := pthreadCondInit, between := [], woken := [] }

/-- `pthread_barrier_wait` up to its end or to the unlock of its condition wait, with the
result of a call that has ended. -/
def barrierWait (s : State) (t : Tid) : Option (State × Option Errno) :=
  if s.count = 0 then some (s, some Errno.einval)
  else
    let s := { s with count := s.count - 1 }
    if s.count = 0 then
      (pthreadCondBroadcast s.cond t).map fun released =>
        ({ s with cond := released.1, woken := s.woken ++ released.2 }, some Errno.ok)
    else some ({ s with between := s.between ++ [t] }, none)

def waitTake (s : State) (t : Tid) : State :=
  let took := semTake s.cond.sem t (-1)
  { s with
    cond := { s.cond with sem := took.1 }
    between := s.between.erase t
    woken := if took.2 = Take.taken then s.woken ++ [t] else s.woken }

inductive Op where
  | wait (t : Tid)
  | take (t : Tid)
  | leave (t : Tid)
deriving DecidableEq, Repr

/-- One step, with the result of a call that ends; the result of the condition wait is not
looked at. -/
def stepOutcome (s : State) : Op -> Option (State × Option Errno)
  | Op.wait t => if t ∉ s.inside then barrierWait s t else none
  | Op.take t => if t ∈ s.between then some (waitTake s t, none) else none
  | Op.leave t =>
    if t ∈ s.woken then some ({ s with woken := s.woken.erase t }, some Errno.ok) else none

def step (s : State) (op : Op) : Option State := (stepOutcome s op).map Prod.fst

/-!
## Rounds
-/

/-- The return of a call: which call of the barrier it was, counted from 0, its result,
and how many calls had been made. -/
structure Return where
  call : Nat
  result : Errno
  made : Nat
deriving DecidableEq, Repr

/-- The calls made, the current call of every thread, and the returns. -/
structure Calls where
  made : Nat
  callOf : Tid -> Nat
  returns : List Return

def Calls.start : Calls := { made := 0, callOf := fun _ => 0, returns := [] }

def Calls.note (h : Calls) (t : Tid) : Option Errno -> Calls
  | some result =>
    { h with returns := ⟨h.callOf t, result, h.made⟩ :: h.returns }
  | none => h

def Calls.enter (h : Calls) (t : Tid) : Calls :=
  { h with made := h.made + 1, callOf := Function.update h.callOf t h.made }

def record (s : State) (op : Op) (_ : State) (h : Calls) : Calls :=
  match stepOutcome s op, op with
  | some (_, result), Op.wait t => (h.enter t).note t result
  | some (_, result), Op.leave t => h.note t result
  | _, _ => h

/-- Calls `m * n` to `m * n + n - 1` are round `m`: none returns before all have been made,
all return 0, and between rounds the barrier is as it was initialised. -/
structure RoundsOk (n : Nat) (s : State) (h : Calls) : Prop where
  early : forall r, r ∈ h.returns -> (r.call / n + 1) * n ≤ r.made
  zero : forall r, r ∈ h.returns -> r.result = Errno.ok
  ready : h.made % n = 0 -> s.inside = [] -> s.count = n

variable {n : Nat} {s s' : State} {h : Calls} {t : Tid}

/-- The count goes down to 0 and stays there; before that no token is left and nobody is
woken; the first calls return 0 and only after `n` calls, all later ones fail. -/
structure OneRound (n : Nat) (s : State) (h : Calls) : Prop where
  attr : s.cond.attr ≠ -1
  sem : SemOk s.cond.sem
  count : s.count = n - h.made
  closed : h.made < n -> s.cond.sem.value = 0 ∧ s.woken = []
  callOf : forall t, t ∈ s.inside -> h.callOf t < n
  returns : forall r, r ∈ h.returns -> n ≤ r.made ∧
    (r.result = Errno.ok <-> r.call < n) ∧ (r.result = Errno.einval <-> n ≤ r.call)

theorem OneRound.start (n : Nat) : OneRound n (pthreadBarrierInit n) Calls.start := by
  refine ⟨by simp [pthreadBarrierInit, pthreadCondInit], SemOk.init, rfl, fun _ => ⟨rfl, rfl⟩,
    ?_, ?_⟩
  · intro t ht
    cases ht
  · intro r hr
    cases hr

def State.open (s : State) : State :=
  { s with
    count := 0
    cond := { s.cond with
      sem := { s.cond.sem with value := max s.cond.sem.value 1, suspendThread := [] } }
    woken := s.woken ++ s.cond.sem.suspendThread }

theorem OneRound.wait_eq (hi : OneRound n s h) (t : Tid) : barrierWait s t = some
      (if s.count = 0 then (s, some Errno.einval)
      else if s.count = 1 then (s.open, some Errno.ok)
      else ({ s with count := s.count - 1, between := s.between ++ [t] }, none)) := by
  have hready := PthreadCond.ready_of_attr hi.attr
  unfold barrierWait
  by_cases hzero : s.count = 0
  · simp only [hzero, if_true]
  · simp only [if_neg hzero]
    by_cases hone : s.count = 1
    · simp only [hone, Nat.sub_self, if_true]
      rw [pthreadCondBroadcast_eq t (by rw [hready]; exact hi.sem), hready]
      rfl
    · have hmore : s.count - 1 ≠ 0 := by omega
      simp only [if_neg hmore, if_neg hone]

theorem State.mem_open_inside {u : Tid} (hu : u ∈ s.open.inside) : u ∈ s.inside := by
  simp only [State.inside, State.open, List.append_nil, List.mem_append] at hu ⊢
  tauto

theorem OneRound.wait {result : Option Errno} (hi : OneRound n s h) (ht : t ∉ s.inside)
    (hs : barrierWait s t = some (s', result)) :
    OneRound n s' ((h.enter t).note t result) := by
  have hcount := hi.count
  have hother : forall u, u ∈ s.inside -> (h.enter t).callOf u < n := by
    intro u hu
    have hne : u ≠ t := fun heq => ht (heq ▸ hu)
    show update h.callOf t h.made u < n
    rw [update_of_ne hne]
    exact hi.callOf u hu
  have hreturns : forall r, r ∈ h.returns -> n ≤ r.made ∧
      (r.result = Errno.ok <-> r.call < n) ∧ (r.result = Errno.einval <-> n ≤ r.call) :=
    hi.returns
  rw [hi.wait_eq t] at hs
  split at hs
  · next hzero =>
      cases hs
      refine ⟨hi.attr, hi.sem, ?_, ?_, hother, ?_⟩
      · show s.count = n - (h.made + 1)
        omega
      · intro hlt
        change h.made + 1 < n at hlt
        omega
      · intro r hr
        rcases List.mem_cons.mp hr with rfl | hr
        · simp only [Calls.enter, update_self, reduceCtorEq, false_iff, true_iff]
          omega
        · exact hreturns r hr
  · next hpos =>
      split at hs
      · next hone =>
          cases hs
          refine ⟨hi.attr, hi.sem.broadcast, ?_, ?_, ?_, ?_⟩
          · show 0 = n - (h.made + 1)
            omega
          · intro hlt
            change h.made + 1 < n at hlt
            omega
          · intro u hu
            exact hother u (State.mem_open_inside hu)
          · intro r hr
            rcases List.mem_cons.mp hr with rfl | hr
            · simp only [Calls.enter, update_self, reduceCtorEq, false_iff, true_iff]
              omega
            · exact hreturns r hr
      · next hmore =>
          cases hs
          refine ⟨hi.attr, hi.sem, ?_, ?_, ?_, hreturns⟩
          · show s.count - 1 = n - (h.made + 1)
            omega
          · intro _
            exact hi.closed (by omega)
          · intro u hu
            by_cases heq : u = t
            · subst heq
              show update h.callOf u h.made u < n
              rw [update_self]
              omega
            · refine hother u ?_
              simp only [State.inside, List.mem_append, List.mem_singleton, heq, or_false] at hu ⊢
              exact hu

theorem OneRound.take (hi : OneRound n s h) (ht : t ∈ s.between) :
    OneRound n (waitTake s t) h := by
  refine ⟨hi.attr, hi.sem.take t (-1), hi.count, ?_, ?_, hi.returns⟩
  · intro hlt
    obtain ⟨hzero, hwoken⟩ := hi.closed hlt
    simp [waitTake, semTake, hzero, hwoken]
  · intro u hu
    refine hi.callOf u ?_
    have hself : t ∈ s.inside := List.mem_append_left _ (List.mem_append_left _ ht)
    by_cases heq : u = t
    · rw [heq]
      exact hself
    · unfold waitTake semTake at hu
      simp only [State.inside, List.mem_append] at hu ⊢
      rcases hu with (hu | hu) | hu
      · exact Or.inl (Or.inl (List.mem_of_mem_erase hu))
      · left
        right
        split at hu
        · exact hu
        · simp only [if_neg (show ¬(-1 : Int) = 0 by decide), List.mem_append,
            List.mem_singleton, heq, or_false] at hu
          exact hu
      · right
        split at hu
        · simp only [if_true, List.mem_append, List.mem_singleton, heq, or_false] at hu
          exact hu
        · simp only [reduceCtorEq, if_false] at hu
          exact hu

theorem OneRound.leave (hi : OneRound n s h) (ht : t ∈ s.woken) :
    OneRound n { s with woken := s.woken.erase t } (h.note t (some Errno.ok)) := by
  have hopen : n ≤ h.made := by
    by_contra hlt
    rw [(hi.closed (by omega)).2] at ht
    cases ht
  refine ⟨hi.attr, hi.sem, hi.count, ?_, ?_, ?_⟩
  · intro hlt
    exact absurd hopen (Nat.not_le.mpr hlt)
  · intro u hu
    refine hi.callOf u ?_
    simp only [State.inside, List.mem_append] at hu ⊢
    rcases hu with hu | hu
    · exact Or.inl hu
    · exact Or.inr (List.mem_of_mem_erase hu)
  · intro r hr
    rcases List.mem_cons.mp hr with rfl | hr
    · have hcall := hi.callOf t (List.mem_append_right _ ht)
      simp only [reduceCtorEq, false_iff, true_iff]
      omega
    · exact hi.returns r hr

theorem OneRound.step {op : Op} (hi : OneRound n s h) (hs : step s op = some s') :
    OneRound n s' (record s op s' h) := by
  obtain ⟨⟨s1, result⟩, houtcome, heq⟩ := Option.map_eq_some_iff.mp hs
  subst heq
  unfold record
  rw [houtcome]
  unfold stepOutcome at houtcome
  cases op with
  | wait t =>
    simp only [Option.ite_none_right_eq_some] at houtcome
    exact hi.wait houtcome.1 houtcome.2
  | take t =>
    simp only [Option.ite_none_right_eq_some, Option.some.injEq] at houtcome
    obtain ⟨ht, heq⟩ := houtcome
    cases heq
    exact hi.take ht
  | leave t =>
    simp only [Option.ite_none_right_eq_some, Option.some.injEq] at houtcome
    obtain ⟨ht, heq⟩ := houtcome
    cases heq
    exact hi.leave ht

theorem oneRound_of_run {ops : List Op}
    (hrun : Run (Graph (watched step record)) (pthreadBarrierInit n, Calls.start) ops (s, h)) :
    OneRound n s h := by
  apply hrun.watched_invariant (OneRound n) (OneRound.start n)
  intro s h op s' hi hs
  exact hi.step hs

theorem stepOutcome_wait (ht : t ∉ s.inside) : stepOutcome s (Op.wait t) = barrierWait s t :=
  if_pos ht

theorem wait_next (hi : OneRound n s h) (ht : t ∉ s.inside) :
    exists x, watched step record (s, h) (Op.wait t) = some x ∧ x.2.made = h.made + 1 ∧
      forall u, u ∈ x.1.inside -> u = t ∨ u ∈ s.inside := by
  have hwait := hi.wait_eq t
  generalize hresult : (if s.count = 0 then (s, some Errno.einval)
    else if s.count = 1 then (s.open, some Errno.ok)
    else ({ s with count := s.count - 1, between := s.between ++ [t] }, none)) = result
    at hwait
  have houtcome : stepOutcome s (Op.wait t) = some result := by
    rw [stepOutcome_wait ht, hwait]
  refine ⟨(result.1, record s (Op.wait t) result.1 h), ?_, ?_, ?_⟩
  · unfold watched step
    rw [houtcome]
    rfl
  · unfold record
    rw [houtcome]
    obtain ⟨s1, _ | result⟩ := result <;> rfl
  · intro u hu
    subst hresult
    split at hu
    · exact Or.inr hu
    · split at hu
      · exact Or.inr (State.mem_open_inside hu)
      · simp only [State.inside, List.mem_append, List.mem_singleton] at hu ⊢
        tauto

theorem calls_of_threads (n k : Nat) :
    exists ops x, Run (Graph (watched step record)) (pthreadBarrierInit n, Calls.start) ops x ∧
      x.2.made = k ∧ forall u, u ∈ x.1.inside -> u < k := by
  induction k with
  | zero =>
    refine ⟨[], _, Run.nil, rfl, fun u hu => ?_⟩
    cases hu
  | succ k ih =>
    obtain ⟨ops, ⟨s, h⟩, hrun, hmade, hinside⟩ := ih
    have ht : k ∉ s.inside := fun hk => Nat.lt_irrefl k (hinside k hk)
    obtain ⟨x, hx, hmade', hinside'⟩ := wait_next (oneRound_of_run hrun) ht
    refine ⟨_, x, Run.snoc hrun hx, ?_, ?_⟩
    · rw [hmade', hmade]
    · intro u hu
      rcases hinside' u hu with rfl | hu
      · exact Nat.lt_succ_self u
      · exact (hinside u hu).trans (Nat.lt_succ_self k)

/-- A barrier serves one round. In every run its count is what is missing of the first `n`
calls; no call returns before `n` have been made, the first `n` return 0 only, every later
one `EINVAL`. Therefore the rounds fail for every `n`. -/
theorem barrier_serves_one_round (n : Nat) :
    (forall ops s h,
      Run (Graph (watched step record)) (pthreadBarrierInit n, Calls.start) ops (s, h) ->
      s.count = n - h.made ∧ forall r, r ∈ h.returns -> n ≤ r.made ∧
        (r.result = Errno.ok <-> r.call < n) ∧ (r.result = Errno.einval <-> n ≤ r.call)) ∧
    ¬forall ops s h,
      Run (Graph (watched step record)) (pthreadBarrierInit n, Calls.start) ops (s, h) ->
      RoundsOk n s h := by
  constructor
  · intro ops s h hrun
    exact ⟨(oneRound_of_run hrun).count, (oneRound_of_run hrun).returns⟩
  · intro hrounds
    obtain ⟨ops, ⟨s, h⟩, hrun, hmade, hinside⟩ := calls_of_threads n n
    have hi := oneRound_of_run hrun
    have hzero : s.count = 0 := by
      rw [hi.count, hmade]
      omega
    -- the next call finds the count 0
    have ht : n ∉ s.inside := fun hk => Nat.lt_irrefl n (hinside n hk)
    have houtcome : stepOutcome s (Op.wait n) = some (s, some Errno.einval) := by
      rw [stepOutcome_wait ht, hi.wait_eq n, if_pos hzero]
    have hnext : watched step record (s, h) (Op.wait n) =
        some (s, (h.enter n).note n (some Errno.einval)) := by
      unfold watched step record
      simp only [houtcome, Option.map_some]
    have hfailed := (hrounds _ _ _ (Run.snoc hrun hnext)).zero
      ⟨(h.enter n).callOf n, Errno.einval, h.made + 1⟩ List.mem_cons_self
    cases hfailed

/-- The first round of two threads, and the first call of the next round. -/
def secondRound : List Op :=
  [Op.wait 0, Op.take 0, Op.wait 1, Op.leave 0, Op.wait 0]

def threeArrivals : List Op :=
  [Op.wait 0, Op.wait 1, Op.wait 2, Op.take 0, Op.take 1, Op.leave 0]

theorem barrier_fails_rounds :
    (exists s h, Run (Graph (watched step record)) (pthreadBarrierInit 2, Calls.start)
      secondRound (s, h) ∧ ⟨2, Errno.einval, 3⟩ ∈ h.returns ∧ ¬RoundsOk 2 s h) ∧
    (exists s h, Run (Graph (watched step record)) (pthreadBarrierInit 3, Calls.start)
      threeArrivals (s, h) ∧ h.made = 3 ∧ s.woken = [] ∧
      s.cond.sem.suspendThread = [1] ∧ s.cond.sem.value = 0) := by
  constructor
  · obtain ⟨x, hx⟩ : exists x, exec (watched step record) (pthreadBarrierInit 2, Calls.start)
        secondRound = some x := ⟨_, rfl⟩
    refine ⟨x.1, x.2, run_of_exec hx, ?_⟩
    cases hx
    refine ⟨List.mem_cons_self, fun h => ?_⟩
    cases h.zero ⟨2, Errno.einval, 3⟩ List.mem_cons_self
  · obtain ⟨x, hx⟩ : exists x, exec (watched step record) (pthreadBarrierInit 3, Calls.start)
        threeArrivals = some x := ⟨_, rfl⟩
    refine ⟨x.1, x.2, run_of_exec hx, ?_⟩
    cases hx
    exact ⟨rfl, rfl, rfl, rfl⟩

end RtThread.Pthreads.Barrier
