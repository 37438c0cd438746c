import RtThread.Ipc.Waiting

/-!
# Semaphores

`rt_sem_take`, `rt_sem_release` and the reset of `rt_sem_control` on one semaphore, by any threads
and interrupts. A take that waits is one step up to its `rt_schedule` and another when its thread
runs again; in between it is suspended, or was resumed by a release, a reset or its timer.
-/

namespace RtThread.Ipc.Semaphore

open Kernel

structure RtSemaphore where
  value : Nat
  flag : IpcFlag
  suspendThread : List Tid
deriving DecidableEq, Repr

/-- Where a thread is: outside of the calls, or in `rt_sem_take` after the call
of `rt_schedule`. -/
inductive Pc where
  | idle
  | taking
deriving DecidableEq, Repr

structure State where
  thread : Threads
  sem : RtSemaphore
  pc : Tid -> Pc

/-- How a step ends: with the call at its `rt_schedule`, or with its result.  A
release either adds to the value or resumes a thread. -/
inductive Outcome where
  | waits
  | fails (e : RtErr)
  | taken
  | returned
  | added
  | resumed (t : Tid)
  | reset
  | expired
deriving DecidableEq, Repr

/-!
## Operations

The caller is a thread, or an interrupt (`none`), which cannot wait.  The value
has 16 bits.
-/

def rtSemInit (value : Nat) (flag : IpcFlag) : RtSemaphore :=
  { value := value % 2 ^ 16, flag := flag, suspendThread := [] }

/-- `rt_sem_take`; `rt_sem_trytake` is the call with no waiting time. -/
def rtSemTake (s : State) (caller : Option Tid) (time : Int) :
    Option (State × Outcome) :=
  let sem := s.sem
  if 0 < sem.value then
    some ({ s with sem := { sem with value := sem.value - 1 } }, Outcome.taken)
  else if time = 0 then
    some (s, Outcome.fails RtErr.etimeout)
  else
    match caller with
    | none => none
    | some t =>
      (suspendFor (setError s.thread t RtErr.eok) t time).map fun v =>
        let waiting := suspendInto v sem.flag t sem.suspendThread
        ({ s with
            thread := v
            sem := { sem with suspendThread := waiting }
            pc := Function.update s.pc t Pc.taking }, Outcome.waits)

def takeReturn (s : State) (t : Tid) : State × Outcome :=
  let e := (s.thread t).error
  ({ s with pc := Function.update s.pc t Pc.idle },
    if e ≠ RtErr.eok then Outcome.fails e else Outcome.returned)

def rtSemRelease (s : State) : State × Outcome :=
  let sem := s.sem
  match sem.suspendThread with
  | w :: _ =>
    let woken := listResume s.thread sem.suspendThread
    ({ s with
        thread := woken.1
        sem := { sem with suspendThread := woken.2 } }, Outcome.resumed w)
  | [] =>
    ({ s with sem := { sem with value := (sem.value + 1) % 2 ^ 16 } },
      Outcome.added)

/-- `rt_sem_control` with `RT_IPC_CMD_RESET` -/
def rtSemReset (s : State) (value : Nat) : Option (State × Outcome) :=
  (listResumeAll s.thread s.sem.suspendThread).map fun v =>
    ({ s with
        thread := v
        sem := { s.sem with value := value % 2 ^ 16, suspendThread := [] } },
      Outcome.reset)

def timeout (s : State) (t : Tid) : State :=
  { s with
    thread := threadTimeout s.thread t
    sem := { s.sem with suspendThread := s.sem.suspendThread.erase t } }

/-!
## Runs
-/

inductive Op where
  | take (caller : Option Tid) (time : Int)
  | takeReturn (t : Tid)
  | release
  | timeout (t : Tid)
  | reset (value : Nat)
deriving DecidableEq, Repr

def mayCall (s : State) : Option Tid -> Bool
  | none => true
  | some t =>
    decide ((s.thread t).stat = ThreadStat.ready) && decide (s.pc t = Pc.idle)

def stepOutcome (s : State) : Op -> Option (State × Outcome)
  | Op.take caller time =>
    if mayCall s caller then rtSemTake s caller time else none
  | Op.takeReturn t =>
    if (s.thread t).stat = ThreadStat.ready ∧ s.pc t = Pc.taking then
      some (takeReturn s t)
    else none
  | Op.release => some (rtSemRelease s)
  | Op.timeout t =>
    if (s.thread t).timerLinked ∧ (s.thread t).stat = ThreadStat.suspend then
      some (timeout s t, Outcome.expired)
    else none
  | Op.reset value => rtSemReset s value

def step (s : State) (op : Op) : Option State := (stepOutcome s op).map Prod.fst

def outcomeOf (s : State) (op : Op) : Option Outcome :=
  (stepOutcome s op).map Prod.snd

/-- The semaphore as `rt_sem_init` leaves it, in a system of started threads. -/
structure Booted (value : Nat) (s : State) : Prop where
  sem : exists flag, s.sem = rtSemInit value flag
  thread : forall t, (s.thread t).stat = ThreadStat.ready ∧
    (s.thread t).timerLinked = false
  pc : forall t, s.pc t = Pc.idle

def bootState (value : Nat) (flag : IpcFlag) : State :=
  { thread := fun _ =>
      { stat := ThreadStat.ready
        currentPriority := 10
        initPriority := 10
        error := RtErr.eok
        timerLinked := false }
    sem := rtSemInit value flag
    pc := fun _ => Pc.idle }

theorem bootState_booted (value : Nat) (flag : IpcFlag) : Booted value (bootState value flag) := by
  constructor
  · exact ⟨flag, rfl⟩
  · intro t
    exact ⟨rfl, rfl⟩
  · intro t
    rfl

end RtThread.Ipc.Semaphore
