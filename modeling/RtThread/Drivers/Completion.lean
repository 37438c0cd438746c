import RtThread.Ipc.Waiting

/-!
# Completions

`rt_completion_wait` by one thread, `rt_completion_done` by any threads and interrupts. A step is
a stretch of code with interrupts disabled: the first part of a wait, the reading of the thread's
error, the clearing of the flag on the way out. A done tests the flag with interrupts enabled, so
its test and its setting of the flag are two steps.
-/

namespace RtThread.Drivers.Completion

open Kernel
open Ipc
open Transition

/-- Where the waiter is: outside, behind its call of `rt_schedule`, or on its way out
with a result. -/
inductive WaiterPc where
  | idle
  | waiting
  | leaving (result : RtErr)
deriving DecidableEq, Repr

/-- `struct rt_completion` with its waiter and the signallers that are between the test
and the setting of the flag. -/
structure State where
  thread : Threads
  waiter : Tid
  flag : Bool
  suspendedList : List Tid
  pc : WaiterPc
  signalling : List Nat

/-- What a step tells: a wait returned, a done found the completion not completed. -/
inductive Outcome where
  | returned (result : RtErr)
  | found
  | silent
deriving DecidableEq, Repr

/-!
## Operations
-/

/-- `rt_completion_wait` up to its end or to its call of `rt_schedule`. -/
def rtCompletionWait (s : State) (timeout : Int) : Option (State × Outcome) :=
  if s.flag then some ({ s with flag := false }, Outcome.returned RtErr.eok)
  else if s.suspendedList ≠ [] then none
  else if timeout = 0 then some (s, Outcome.returned RtErr.etimeout)
  else
    (suspendFor (setError s.thread s.waiter RtErr.eok) s.waiter timeout).map fun v =>
      ({ s with
          thread := v
          suspendedList := s.suspendedList ++ [s.waiter]
          pc := WaiterPc.waiting }, Outcome.silent)

/-- `result = thread->error` -/
def readResult (s : State) : State :=
  { s with pc := WaiterPc.leaving (s.thread s.waiter).error }

def leave (s : State) : State := { s with flag := false, pc := WaiterPc.idle }

def doneTest (s : State) (i : Nat) : State × Outcome :=
  if s.flag then (s, Outcome.silent)
  else ({ s with signalling := s.signalling ++ [i] }, Outcome.found)

def doneSet (s : State) (i : Nat) : State :=
  let woken := listResume s.thread s.suspendedList
  { s with
    thread := woken.1
    flag := true
    suspendedList := woken.2
    signalling := s.signalling.erase i }

def timeout (s : State) : State :=
  { s with
    thread := threadTimeout s.thread s.waiter
    suspendedList := s.suspendedList.erase s.waiter }

inductive Op where
  | wait (timeout : Int)
  | wake
  | leave
  | test (i : Nat)
  | set (i : Nat)
  | timeout
deriving DecidableEq, Repr

def State.isReady (s : State) : Bool := (s.thread s.waiter).stat = ThreadStat.ready

def stepOutcome (s : State) : Op -> Option (State × Outcome)
  | Op.wait timeout =>
    if s.isReady ∧ s.pc = WaiterPc.idle then rtCompletionWait s timeout else none
  | Op.wake =>
    if s.isReady ∧ s.pc = WaiterPc.waiting then some (readResult s, Outcome.silent)
    else none
  | Op.leave =>
    match s.pc with
    | WaiterPc.leaving r =>
      if s.isReady then some (leave s, Outcome.returned r) else none
    | _ => none
  | Op.test i => some (doneTest s i)
  | Op.set i => if i ∈ s.signalling then some (doneSet s i, Outcome.silent) else none
  | Op.timeout =>
    if (s.thread s.waiter).timerLinked ∧ (s.thread s.waiter).stat = ThreadStat.suspend
    then some (timeout s, Outcome.silent)
    else none

def step (s : State) (op : Op) : Option State := (stepOutcome s op).map Prod.fst

/-- The completion as `rt_completion_init` leaves it. -/
structure Booted (s : State) : Prop where
  ready : (s.thread s.waiter).stat = ThreadStat.ready
  flag : s.flag = false
  list : s.suspendedList = []
  pc : s.pc = WaiterPc.idle
  signalling : s.signalling = []

/-!
## The account
-/

/-- The dones that found the completion not completed, and the waits that returned
`RT_EOK`. -/
structure Account where
  found : Nat
  completed : Nat
deriving DecidableEq, Repr

def Account.note (a : Account) : Outcome -> Account
  | Outcome.found => { a with found := a.found + 1 }
  | Outcome.returned RtErr.eok => { a with completed := a.completed + 1 }
  | _ => a

def record (s : State) (op : Op) (_ : State) (a : Account) : Account :=
  match stepOutcome s op with
  | some (_, o) => a.note o
  | none => a

/-- The waiter has timed out and has not yet cleared the flag. -/
def State.late (s : State) : Bool :=
  match s.pc with
  | WaiterPc.idle => false
  | WaiterPc.waiting => s.isReady && decide ((s.thread s.waiter).error ≠ RtErr.eok)
  | WaiterPc.leaving r => decide (r ≠ RtErr.eok)

/-- No done sets the flag between the waiter's timeout and its return, or after another
done has set it. -/
def InTime (s : State) : Op -> Prop
  | Op.set _ => s.late = false ∧ s.flag = false
  | _ => True

instance (s : State) : forall op, Decidable (InTime s op)
  | Op.set _ => inferInstanceAs (Decidable (_ ∧ _))
  | Op.wait _ => isTrue trivial
  | Op.wake => isTrue trivial
  | Op.leave => isTrue trivial
  | Op.test _ => isTrue trivial
  | Op.timeout => isTrue trivial

/-- A suspended waiter is in the list; one resumed by a done finds the flag set, one that
timed out finds it clear. -/
def WaiterOk (s : State) : Prop :=
  match s.pc with
  | WaiterPc.idle =>
    (s.thread s.waiter).stat = ThreadStat.ready ∧ s.suspendedList = []
  | WaiterPc.waiting =>
    ((s.thread s.waiter).stat = ThreadStat.suspend ∧ s.suspendedList = [s.waiter] ∧
      (s.thread s.waiter).error = RtErr.eok ∧ s.flag = false) ∨
    ((s.thread s.waiter).stat = ThreadStat.ready ∧ s.suspendedList = [] ∧
      ((s.thread s.waiter).error = RtErr.eok <-> s.flag = true))
  | WaiterPc.leaving r =>
    (s.thread s.waiter).stat = ThreadStat.ready ∧ s.suspendedList = [] ∧
      (r = RtErr.eok <-> s.flag = true)

/-- Every done that found the completion not completed has been answered by a wait, or
its flag is set, or it is about to set it. -/
structure Answered (s : State) (a : Account) : Prop where
  waiter : WaiterOk s
  count : a.found = a.completed + s.signalling.length + s.flag.toNat

/-!
## Steps
-/

variable {s s' : State} {a : Account} {o : Outcome}

theorem Answered.idle (ha : Answered s a) (hpc : s.pc = WaiterPc.idle) :
    (s.thread s.waiter).stat = ThreadStat.ready ∧ s.suspendedList = [] := by
  have hw := ha.waiter
  unfold WaiterOk at hw
  rw [hpc] at hw
  exact hw

theorem Answered.wait {time : Int} (ha : Answered s a) (hpc : s.pc = WaiterPc.idle)
    (hs : rtCompletionWait s time = some (s', o)) : Answered s' (a.note o) := by
  obtain ⟨hready, hlist⟩ := ha.idle hpc
  have hcount := ha.count
  unfold rtCompletionWait at hs
  split at hs
  · next hflag =>
      cases hs
      rw [hflag] at hcount
      refine ⟨?_, ?_⟩
      · unfold WaiterOk
        simp only [hpc]
        exact ⟨hready, hlist⟩
      · simp only [Account.note, Bool.toNat_true, Bool.toNat_false] at hcount ⊢
        omega
  · next hflag =>
      split at hs
      · cases hs
      · split at hs
        · cases hs
          exact ha
        · rw [Option.map_eq_some_iff] at hs
          obtain ⟨v, hv, hs⟩ := hs
          cases hs
          refine ⟨?_, hcount⟩
          have hready' : (setError s.thread s.waiter RtErr.eok s.waiter).stat =
              ThreadStat.ready := by
            simpa [setError] using hready
          obtain ⟨linked, rfl⟩ := suspendFor_eq hready' hv
          unfold WaiterOk
          simp only [Function.update_self, hlist, List.nil_append]
          exact Or.inl ⟨trivial, trivial, by simp [setError], by simpa using hflag⟩

theorem Answered.wake (ha : Answered s a) (hready : s.isReady = true)
    (hpc : s.pc = WaiterPc.waiting) : Answered (readResult s) a := by
  have hw := ha.waiter
  refine ⟨?_, ha.count⟩
  unfold WaiterOk at hw ⊢
  rw [hpc] at hw
  rcases hw with ⟨hsuspend, _⟩ | hwoken
  · simp [State.isReady, hsuspend] at hready
  · exact hwoken

theorem Answered.leave {r : RtErr} (ha : Answered s a) (hpc : s.pc = WaiterPc.leaving r) :
    Answered (leave s) (a.note (Outcome.returned r)) := by
  have hw := ha.waiter
  have hcount := ha.count
  unfold WaiterOk at hw
  rw [hpc] at hw
  obtain ⟨hready, hlist, hflag⟩ := hw
  refine ⟨⟨hready, hlist⟩, ?_⟩
  by_cases hr : r = RtErr.eok
  · rw [hflag.mp hr] at hcount
    subst hr
    simp only [Account.note, Completion.leave, Bool.toNat_true, Bool.toNat_false] at hcount ⊢
    omega
  · have hclear : s.flag = false := by
      cases hs : s.flag with
      | false => rfl
      | true => exact absurd (hflag.mpr hs) hr
    have hnote : a.note (Outcome.returned r) = a := by
      cases r <;> first | exact absurd rfl hr | rfl
    rw [hnote]
    rw [hclear] at hcount
    exact hcount

theorem Answered.test {i : Nat} (ha : Answered s a) :
    Answered (doneTest s i).1 (a.note (doneTest s i).2) := by
  unfold doneTest
  split
  · exact ha
  · refine ⟨ha.waiter, ?_⟩
    have hcount := ha.count
    simp only [Account.note, List.length_append, List.length_singleton]
    omega

theorem Answered.timeout (ha : Answered s a)
    (hstat : (s.thread s.waiter).stat = ThreadStat.suspend) : Answered (timeout s) a := by
  have hw := ha.waiter
  refine ⟨?_, ha.count⟩
  unfold WaiterOk at hw ⊢
  unfold Completion.timeout threadTimeout
  cases hpc : s.pc with
  | idle =>
    rw [hpc, hstat] at hw
    cases hw.1
  | waiting =>
    rw [hpc, hstat] at hw
    rcases hw with ⟨_, hlist, _, hflag⟩ | ⟨hready, _⟩
    · right
      simp [hlist, hflag]
    · cases hready
  | leaving r =>
    rw [hpc, hstat] at hw
    cases hw.1

theorem Answered.set {i : Nat} (ha : Answered s a) (hi : i ∈ s.signalling)
    (hlate : s.late = false) (hflag : s.flag = false) : Answered (doneSet s i) a := by
  have hw := ha.waiter
  have hcount := ha.count
  refine ⟨?_, ?_⟩
  · unfold WaiterOk at hw ⊢
    unfold State.late at hlate
    unfold doneSet
    cases hpc : s.pc with
    | idle =>
      rw [hpc] at hw
      simp only [hw.2, listResume]
      exact ⟨hw.1, trivial⟩
    | waiting =>
      rw [hpc] at hw hlate
      rcases hw with ⟨hsuspend, hlist, herror, _⟩ | ⟨hready, _, herror⟩
      · right
        simp only [hlist, listResume_cons hsuspend, Function.update_self]
        simp [herror]
      · simp only [State.isReady, hready, decide_true, Bool.true_and,
          decide_eq_false_iff_not, ne_eq, not_not] at hlate
        rw [herror.mp hlate] at hflag
        cases hflag
    | leaving r =>
      rw [hpc] at hw hlate
      have hr : r = RtErr.eok := by simpa using hlate
      rw [hw.2.2.mp hr] at hflag
      cases hflag
  · have hpos : 0 < s.signalling.length := List.length_pos_of_mem hi
    rw [hflag] at hcount
    simp only [doneSet, List.length_erase_of_mem hi, Bool.toNat_true,
      Bool.toNat_false] at hcount ⊢
    omega

theorem Answered.step {op : Op} (ha : Answered s a) (hok : InTime s op)
    (hs : stepOutcome s op = some (s', o)) : Answered s' (a.note o) := by
  unfold stepOutcome at hs
  cases op with
  | wait time =>
    simp only at hs
    split at hs
    · next hcall => exact ha.wait hcall.2 hs
    · cases hs
  | wake =>
    simp only at hs
    split at hs
    · next hcall =>
        cases hs
        exact ha.wake hcall.1 hcall.2
    · cases hs
  | leave =>
    simp only at hs
    split at hs
    · next r hpc =>
        split at hs
        · cases hs
          exact ha.leave hpc
        · cases hs
    · cases hs
  | test i =>
    have heq : doneTest s i = (s', o) := Option.some.inj hs
    have htest := ha.test (i := i)
    rw [heq] at htest
    exact htest
  | set i =>
    simp only at hs
    split at hs
    · next hi =>
        cases hs
        exact ha.set hi hok.1 hok.2
    · cases hs
  | timeout =>
    simp only at hs
    split at hs
    · next hcall =>
        cases hs
        exact ha.timeout hcall.2
    · cases hs

theorem Booted.answered (hboot : Booted s) : Answered s ⟨0, 0⟩ := by
  refine ⟨?_, ?_⟩
  · unfold WaiterOk
    rw [hboot.pc]
    exact ⟨hboot.ready, hboot.list⟩
  · rw [hboot.flag, hboot.signalling]
    rfl

/-- In every run in which no done sets the flag late or twice: the dones that found the
completion open are as many as the waits that returned `RT_EOK`, the dones about to set the
flag and the flag. A flag that is set is there for the running wait, which will return
`RT_EOK`, or for the next one. -/
theorem completion_never_lost {s0 s : State} {a : Account} {ops : List Op}
    (hboot : Booted s0)
    (hrun : Run (Guarded (fun (x : State × Account) op => InTime x.1 op)
      (Graph (watched step record))) (s0, ⟨0, 0⟩) ops (s, a)) :
    a.found = a.completed + s.signalling.length + s.flag.toNat ∧
      (s.flag = true ->
        match s.pc with
        | WaiterPc.idle => forall time, exists s',
            stepOutcome s (Op.wait time) = some (s', Outcome.returned RtErr.eok)
        | WaiterPc.waiting => s.isReady = true ∧ (s.thread s.waiter).error = RtErr.eok
        | WaiterPc.leaving r => r = RtErr.eok) := by
  have hinv : Answered s a := by
    apply hrun.guarded_watched_invariant Answered hboot.answered
    intro s a op s' hx hintime hstep
    unfold step at hstep
    rw [Option.map_eq_some_iff] at hstep
    obtain ⟨⟨s1, o⟩, houtcome, heq⟩ := hstep
    have hanswered := hx.step hintime houtcome
    rw [← heq]
    unfold record
    rw [houtcome]
    exact hanswered
  refine ⟨hinv.count, ?_⟩
  intro hflag
  have hw := hinv.waiter
  unfold WaiterOk at hw
  cases hpc : s.pc with
  | idle =>
    rw [hpc] at hw
    intro time
    refine ⟨{ s with flag := false }, ?_⟩
    unfold stepOutcome rtCompletionWait
    simp [State.isReady, hw.1, hpc, hflag]
  | waiting =>
    rw [hpc, hflag] at hw
    rcases hw with ⟨_, _, _, hclear⟩ | ⟨hready, _, herror⟩
    · cases hclear
    · exact ⟨by simp [State.isReady, hready], herror.mpr rfl⟩
  | leaving r =>
    rw [hpc] at hw
    exact hw.2.2.mpr hflag

def bootState : State :=
  { thread := fun _ =>
      { stat := ThreadStat.ready
        currentPriority := 10
        initPriority := 10
        error := RtErr.eok
        timerLinked := false }
    waiter := 1
    flag := false
    suspendedList := []
    pc := WaiterPc.idle
    signalling := [] }

theorem bootState_booted : Booted bootState := ⟨rfl, rfl, rfl, rfl, rfl⟩

/-- A done resumes a suspended waiter. -/
theorem completion_never_lost_resumed :
    exists s a, Run (Guarded (fun (x : State × Account) op => InTime x.1 op)
        (Graph (watched step record))) (bootState, ⟨0, 0⟩)
        [Op.wait 10, Op.test 7, Op.set 7, Op.wake, Op.leave] (s, a) ∧
      a.found = 1 ∧ a.completed = 1 ∧
      a.found = a.completed + s.signalling.length + s.flag.toNat := by
  have hexec : (exec (fun (x : State × Account) op =>
      if InTime x.1 op then watched step record x op else none) (bootState, ⟨0, 0⟩)
      [Op.wait 10, Op.test 7, Op.set 7, Op.wake, Op.leave]).map Prod.snd =
      some ⟨1, 1⟩ := by
    decide +kernel
  rw [Option.map_eq_some_iff] at hexec
  obtain ⟨⟨s, a⟩, hexec, haccount⟩ := hexec
  have hrun := @guarded_run_of_exec _ _ _ _
    (fun (x : State × Account) op => InTime x.1 op) _ _ _ hexec
  have ha : a = ⟨1, 1⟩ := haccount
  refine ⟨s, a, hrun, ?_, ?_, (completion_never_lost bootState_booted hrun).1⟩
  · rw [ha]
  · rw [ha]

/-- A done between the waiter's timeout and its return: its flag is cleared, the wait
returns the timeout, and nothing is left for the next wait. -/
theorem late_done_is_lost :
    exists s a, Run (Graph (watched step record)) (bootState, ⟨0, 0⟩)
        [Op.wait 10, Op.timeout, Op.test 7, Op.set 7, Op.wake, Op.leave] (s, a) ∧
      a.found = 1 ∧ a.completed = 0 ∧ s.flag = false ∧ s.signalling = [] ∧
      s.pc = WaiterPc.idle := by
  have hexec : (exec (watched step record) (bootState, ⟨0, 0⟩)
      [Op.wait 10, Op.timeout, Op.test 7, Op.set 7, Op.wake, Op.leave]).map
      (fun x => (x.2.found, x.2.completed, x.1.flag, x.1.signalling, x.1.pc)) =
      some (1, 0, false, [], WaiterPc.idle) := by
    decide +kernel
  rw [Option.map_eq_some_iff] at hexec
  obtain ⟨⟨s, a⟩, hexec, heq⟩ := hexec
  simp only [Prod.mk.injEq] at heq
  exact ⟨s, a, run_of_exec hexec, heq⟩

end RtThread.Drivers.Completion
