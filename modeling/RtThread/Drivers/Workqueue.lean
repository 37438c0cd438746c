import RtThread.Ipc.Waiting

/-!
# Work queues

The thread of a work queue, with `rt_workqueue_dowork` and `rt_workqueue_cancel_work` by any
threads. What stands between `rt_enter_critical` and `rt_exit_critical` is one step. The worker's
test, its suspension and its taking of a work are three steps, and so are the two halves of a call
that resumes it. A work function runs without suspending the worker; it may call the two functions
itself.
-/

namespace RtThread.Drivers.Workqueue

open Kernel
open Ipc
open Transition

/-- The address of a `struct rt_work`. -/
abbrev Work := Nat

/-- Where the worker is.  After taking a node from the empty list it runs what the queue
itself has at the offset of a work function. -/
inductive WorkerPc where
  | test
  | suspending
  | asleep
  | taking
  | running (work : Work)
  | wild
deriving DecidableEq, Repr

/-- `struct rt_workqueue`, with the threads and the callers that are about to resume the
worker. -/
structure State where
  thread : Threads
  workThread : Tid
  workList : List Work
  pc : WorkerPc
  resuming : List Tid

inductive Op where
  | dowork (caller : Option Tid) (work : Work)
  | resume (caller : Tid)
  | cancelWork (work : Work)
  | worker
deriving DecidableEq, Repr

/-- A call is made by another thread, one at a time, or by the running work function. -/
def mayCall (s : State) : Option Tid -> Bool
  | some t => decide (t ≠ s.workThread) && decide (t ∉ s.resuming)
  | none =>
    match s.pc with
    | WorkerPc.running _ => true
    | _ => false

/-- `rt_workqueue_dowork` up to `rt_exit_critical`. -/
def rtWorkqueueDowork (s : State) (caller : Option Tid) (work : Work) : State :=
  { s with
    workList := s.workList.erase work ++ [work]
    resuming :=
      if (s.thread s.workThread).stat ≠ ThreadStat.ready then
        s.resuming ++ caller.toList
      else s.resuming }

/-- The call of `rt_thread_resume` in `rt_workqueue_dowork`. -/
def resumeWorker (s : State) (t : Tid) : State :=
  { s with
    thread := threadResume s.thread s.workThread
    resuming := s.resuming.erase t }

def rtWorkqueueCancelWork (s : State) (work : Work) : State :=
  { s with workList := s.workList.erase work }

/-- One step of `_workqueue_thread_entry`. -/
def workqueueThreadEntry (s : State) : Option State :=
  match s.pc with
  | WorkerPc.test =>
    if s.workList = [] then some { s with pc := WorkerPc.suspending }
    else some { s with pc := WorkerPc.taking }
  | WorkerPc.suspending =>
    some { s with
      thread := threadSuspend s.thread s.workThread
      pc := WorkerPc.asleep }
  | WorkerPc.asleep => some { s with pc := WorkerPc.taking }
  | WorkerPc.taking =>
    match s.workList with
    | [] => some { s with pc := WorkerPc.wild }
    | work :: rest => some { s with workList := rest, pc := WorkerPc.running work }
  | WorkerPc.running _ => some { s with pc := WorkerPc.test }
  | WorkerPc.wild => none

def step (s : State) : Op -> Option State
  | Op.dowork caller work =>
    if mayCall s caller then some (rtWorkqueueDowork s caller work) else none
  | Op.resume t => if t ∈ s.resuming then some (resumeWorker s t) else none
  | Op.cancelWork work => some (rtWorkqueueCancelWork s work)
  | Op.worker =>
    if (s.thread s.workThread).stat = ThreadStat.ready then workqueueThreadEntry s
    else none

structure Booted (s : State) : Prop where
  workList : s.workList = []
  pc : s.pc = WorkerPc.test
  resuming : s.resuming = []
  stat : (s.thread s.workThread).stat = ThreadStat.ready

def bootState : State :=
  { thread := fun _ =>
      { stat := ThreadStat.ready
        currentPriority := 10
        initPriority := 10
        error := RtErr.eok
        timerLinked := false }
    workThread := 0
    workList := []
    pc := WorkerPc.test
    resuming := [] }

theorem bootState_booted : Booted bootState := ⟨rfl, rfl, rfl, rfl⟩

/-!
## What a step does
-/

variable {s s' : State} {op : Op}

theorem step_cases (hs : step s op = some s') :
    (exists caller work, op = Op.dowork caller work ∧ mayCall s caller = true ∧
      s' = rtWorkqueueDowork s caller work) ∨
    (exists t, op = Op.resume t ∧ t ∈ s.resuming ∧ s' = resumeWorker s t) ∨
    (exists work, op = Op.cancelWork work ∧ s' = rtWorkqueueCancelWork s work) ∨
    (op = Op.worker ∧ (s.thread s.workThread).stat = ThreadStat.ready ∧
      workqueueThreadEntry s = some s') := by
  cases op with
  | dowork caller work =>
    simp only [step] at hs
    split at hs
    · rename_i hcall
      cases hs
      exact Or.inl ⟨caller, work, rfl, hcall, rfl⟩
    · cases hs
  | resume t =>
    simp only [step] at hs
    split at hs
    · rename_i hin
      cases hs
      exact Or.inr (Or.inl ⟨t, rfl, hin, rfl⟩)
    · cases hs
  | cancelWork work =>
    cases hs
    exact Or.inr (Or.inr (Or.inl ⟨work, rfl, rfl⟩))
  | worker =>
    simp only [step] at hs
    split at hs
    · rename_i hready
      exact Or.inr (Or.inr (Or.inr ⟨rfl, hready, hs⟩))
    · cases hs

theorem suspend_stat (hready : (s.thread s.workThread).stat = ThreadStat.ready) :
    (threadSuspend s.thread s.workThread s.workThread).stat = ThreadStat.suspend := by
  unfold threadSuspend
  rw [if_neg (by simp [hready]), Function.update_self]

theorem resume_stat {v : Threads} {t : Tid} (hstat : (v t).stat = ThreadStat.suspend ∨
    (v t).stat = ThreadStat.ready) : (threadResume v t t).stat = ThreadStat.ready := by
  unfold threadResume
  rcases hstat with hstat | hstat
  · rw [if_neg (by simp [hstat]), Function.update_self]
  · rw [if_pos (by simp [hstat]), hstat]

/-!
## The worker does not sleep on work
-/

/-- The condition on a step: no work is queued between the worker's test and its
suspension. -/
def NotInWindow (s : State) : Op -> Prop
  | Op.dowork _ _ => s.pc ≠ WorkerPc.suspending
  | _ => True

instance (s : State) : (op : Op) -> Decidable (NotInWindow s op)
  | Op.dowork _ _ => inferInstanceAs (Decidable (_ ≠ _))
  | Op.resume _ => inferInstanceAs (Decidable True)
  | Op.cancelWork _ => inferInstanceAs (Decidable True)
  | Op.worker => inferInstanceAs (Decidable True)

structure Awake (s : State) : Prop where
  window : s.pc = WorkerPc.suspending -> s.workList = []
  stat : (s.thread s.workThread).stat = ThreadStat.ready ∨
    (s.thread s.workThread).stat = ThreadStat.suspend ∧ s.pc = WorkerPc.asleep
  work : s.workList ≠ [] -> (s.thread s.workThread).stat = ThreadStat.suspend ->
    s.resuming ≠ []

theorem Awake.worker (ha : Awake s) (hready : (s.thread s.workThread).stat = ThreadStat.ready)
    (hs : workqueueThreadEntry s = some s') : Awake s' := by
  have hnot : ¬ (s.thread s.workThread).stat = ThreadStat.suspend := by
    rw [hready]
    nofun
  unfold workqueueThreadEntry at hs
  split at hs
  · split at hs
    · rename_i hempty
      cases hs
      exact ⟨fun _ => hempty, Or.inl hready, fun _ h => absurd h hnot⟩
    · cases hs
      exact ⟨nofun, Or.inl hready, fun _ h => absurd h hnot⟩
  · rename_i hpc
    cases hs
    exact ⟨nofun, Or.inr ⟨suspend_stat hready, rfl⟩, fun hne _ =>
      absurd (ha.window hpc) hne⟩
  · cases hs
    exact ⟨nofun, Or.inl hready, fun _ h => absurd h hnot⟩
  · split at hs
    · cases hs
      exact ⟨nofun, Or.inl hready, fun _ h => absurd h hnot⟩
    · cases hs
      exact ⟨nofun, Or.inl hready, fun _ h => absurd h hnot⟩
  · cases hs
    exact ⟨nofun, Or.inl hready, fun _ h => absurd h hnot⟩
  · cases hs

theorem Awake.step (ha : Awake s) (hok : NotInWindow s op) (hs : step s op = some s') :
    Awake s' := by
  rcases step_cases hs with ⟨caller, work, rfl, hcall, rfl⟩ | ⟨t, rfl, hin, rfl⟩ |
    ⟨work, rfl, rfl⟩ | ⟨rfl, hready, hentry⟩
  · refine ⟨fun hpc => absurd hpc hok, ha.stat, ?_⟩
    intro _ hsuspend
    have hstat : (s.thread s.workThread).stat = ThreadStat.suspend := hsuspend
    have hpc : s.pc = WorkerPc.asleep := by
      rcases ha.stat with hready | hasleep
      · rw [hready] at hstat
        cases hstat
      · exact hasleep.right
    cases caller with
    | none => simp [mayCall, hpc] at hcall
    | some t =>
      show (if (s.thread s.workThread).stat ≠ ThreadStat.ready then
        s.resuming ++ [t] else s.resuming) ≠ []
      rw [if_pos (by simp [hstat])]
      simp
  · have hstat : ((resumeWorker s t).thread (resumeWorker s t).workThread).stat =
        ThreadStat.ready := by
      apply resume_stat
      rcases ha.stat with hready | hasleep
      · exact Or.inr hready
      · exact Or.inl hasleep.left
    refine ⟨ha.window, Or.inl hstat, ?_⟩
    intro _ hsuspend
    rw [hstat] at hsuspend
    cases hsuspend
  · refine ⟨?_, ha.stat, ?_⟩
    · intro hpc
      show s.workList.erase work = []
      rw [ha.window hpc]
      rfl
    · intro hne
      apply ha.work
      intro hempty
      apply hne
      show s.workList.erase work = []
      rw [hempty]
      rfl
  · exact ha.worker hready hentry

/-- In every run in which no work is queued in the window: work in the list finds the worker
ready, or a caller about to resume it. -/
theorem worker_never_sleeps_on_work {s0 s : State} {ops : List Op} (hboot : Booted s0)
    (hrun : Run (Guarded NotInWindow (Graph step)) s0 ops s) (hwork : s.workList ≠ []) :
    (s.thread s.workThread).stat ≠ ThreadStat.suspend ∨ s.resuming ≠ [] := by
  have hinv : Awake s := by
    apply hrun.invariant Awake
    · refine ⟨?_, Or.inl hboot.stat, fun h => absurd hboot.workList h⟩
      intro hpc
      rw [hboot.pc] at hpc
      cases hpc
    · intro s op s' ha hs
      exact ha.step hs.left hs.right
  by_cases hstat : (s.thread s.workThread).stat = ThreadStat.suspend
  · exact Or.inr (hinv.work hwork hstat)
  · exact Or.inl hstat

/-- A work is queued while the worker sleeps. -/
theorem worker_never_sleeps_on_work_resumed :
    exists s, Run (Guarded NotInWindow (Graph step)) bootState
        [Op.worker, Op.worker, Op.dowork (some 1) 100] s ∧
      s.workList = [100] ∧
      ((s.thread s.workThread).stat ≠ ThreadStat.suspend ∨ s.resuming ≠ []) := by
  have hexec : (exec (fun s op => if NotInWindow s op then step s op else none) bootState
      [Op.worker, Op.worker, Op.dowork (some 1) 100]).map State.workList = some [100] := by
    decide +kernel
  rw [Option.map_eq_some_iff] at hexec
  rcases hexec with ⟨s, hexec, hlist⟩
  have hrun := guarded_run_of_exec hexec
  exact ⟨s, hrun, hlist,
    worker_never_sleeps_on_work bootState_booted hrun (by rw [hlist]; nofun)⟩

/-- A thread queues a work after the worker found the list empty and before it suspends
itself. -/
theorem worker_sleeps_on_work :
    exists s, Run (Graph step) bootState
        [Op.worker, Op.dowork (some 1) 100, Op.worker] s ∧
      s.workList = [100] ∧ (s.thread s.workThread).stat = ThreadStat.suspend ∧
      s.resuming = [] := by
  have hexec : (exec step bootState
      [Op.worker, Op.dowork (some 1) 100, Op.worker]).map
      (fun s => (s.workList, (s.thread s.workThread).stat, s.resuming)) =
      some ([100], ThreadStat.suspend, []) := by
    decide +kernel
  rw [Option.map_eq_some_iff] at hexec
  rcases hexec with ⟨s, hexec, heq⟩
  simp only [Prod.mk.injEq] at heq
  exact ⟨s, run_of_exec hexec, heq⟩

end RtThread.Drivers.Workqueue
