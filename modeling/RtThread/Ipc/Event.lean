import RtThread.Ipc.Waiting

/-!
# Events

`rt_event_send`, `rt_event_recv` and the reset of `rt_event_control` on one event
object.  A receive that waits is one step up to its call of `rt_schedule` and a
second one when its thread runs again.  The walk of a send over the suspended
threads runs with interrupts disabled, so a send is one step.
-/

namespace RtThread.Ipc.Event

open Kernel

def flagAnd : BitVec 8 := 0x01#8

def flagOr : BitVec 8 := 0x02#8

def flagClear : BitVec 8 := 0x04#8

structure RtEvent where
  set : BitVec 32
  flag : IpcFlag
  suspendThread : List Tid
deriving DecidableEq, Repr

inductive Pc where
  | idle
  | receiving
deriving DecidableEq, Repr

/-- The event object and the threads, with the fields of their control blocks
that only events use. -/
structure State where
  thread : Threads
  eventSet : Tid -> BitVec 32
  eventInfo : Tid -> BitVec 8
  event : RtEvent
  pc : Tid -> Pc

inductive Outcome where
  | waits
  | fails (e : RtErr)
  | sent
  | received (recved : BitVec 32)
  | reset
  | expired
deriving DecidableEq, Repr

/-!
## Sending
-/

/-- The end of a round of the loop of `rt_event_send`, for a thread whose
condition is satisfied. -/
def wake (s : State) (t : Tid) : State :=
  let event := s.event
  { s with
    thread := threadResume s.thread t
    event := { event with
      set :=
        if s.eventInfo t &&& flagClear ≠ 0 then event.set &&& ~~~ s.eventSet t
        else event.set
      suspendThread :=
        if (s.thread t).stat = ThreadStat.suspend then
          event.suspendThread.erase t
        else event.suspendThread } }

def visit (s : State) (t : Tid) : State :=
  let set := s.event.set
  if s.eventInfo t &&& flagAnd ≠ 0 then
    if s.eventSet t &&& set = s.eventSet t then wake s t else s
  else if s.eventInfo t &&& flagOr ≠ 0 then
    if s.eventSet t &&& set ≠ 0 then
      -- the thread keeps the bits it received
      wake { s with
        eventSet := Function.update s.eventSet t (s.eventSet t &&& set) } t
    else s
  else s

/-- The loop of `rt_event_send`; the next node is read before a thread is
resumed. -/
def sendLoop : State -> List Tid -> State
  | s, [] => s
  | s, t :: rest => sendLoop (visit s t) rest

def rtEventSend (s : State) (set : BitVec 32) : State × Outcome :=
  if set = 0 then (s, Outcome.fails RtErr.error)
  else
    let s := { s with event := { s.event with set := s.event.set ||| set } }
    (sendLoop s s.event.suspendThread, Outcome.sent)

/-!
## Receiving
-/

/-- `rt_event_recv`, up to its end or its call of `rt_schedule`.  It asserts that
the option asks for one of the two conditions. -/
def rtEventRecv (s : State) (t : Tid) (set : BitVec 32) (option : BitVec 8)
    (timeout : Int) : Option (State × Outcome) :=
  if set = 0 then some (s, Outcome.fails RtErr.error)
  else
    let event := s.event
    let v := setError s.thread t RtErr.eok
    if option &&& flagAnd = 0 ∧ option &&& flagOr = 0 then none
    else if (option &&& flagAnd ≠ 0 ∧ event.set &&& set = set) ∨
        (option &&& flagAnd = 0 ∧ event.set &&& set ≠ 0) then
      let left :=
        if option &&& flagClear ≠ 0 then event.set &&& ~~~ set else event.set
      some ({ s with thread := v, event := { event with set := left } },
        Outcome.received (event.set &&& set))
    else if timeout = 0 then
      some ({ s with thread := setError v t RtErr.etimeout },
        Outcome.fails RtErr.etimeout)
    else
      (suspendFor v t timeout).map fun v =>
        let waiting := suspendInto v event.flag t event.suspendThread
        ({ thread := v
           eventSet := Function.update s.eventSet t set
           eventInfo := Function.update s.eventInfo t option
           event := { event with suspendThread := waiting }
           pc := Function.update s.pc t Pc.receiving }, Outcome.waits)

/-- The rest of `rt_event_recv`, when a thread that waited runs again. -/
def recvReturn (s : State) (t : Tid) : State × Outcome :=
  let e := (s.thread t).error
  ({ s with pc := Function.update s.pc t Pc.idle },
    if e ≠ RtErr.eok then Outcome.fails e else Outcome.received (s.eventSet t))

/-- `rt_event_control` with `RT_IPC_CMD_RESET` -/
def rtEventReset (s : State) : Option (State × Outcome) :=
  (listResumeAll s.thread s.event.suspendThread).map fun v =>
    ({ s with
        thread := v
        event := { s.event with set := 0, suspendThread := [] } }, Outcome.reset)

def timeout (s : State) (t : Tid) : State :=
  { s with
    thread := threadTimeout s.thread t
    event := { s.event with suspendThread := s.event.suspendThread.erase t } }

/-!
## Runs
-/

inductive Op where
  | send (set : BitVec 32)
  | recv (t : Tid) (set : BitVec 32) (option : BitVec 8) (timeout : Int)
  | recvReturn (t : Tid)
  | timeout (t : Tid)
  | reset
deriving DecidableEq, Repr

/-- One step, with how it ends.  Any ready thread may be the one that runs. -/
def stepOutcome (s : State) : Op -> Option (State × Outcome)
  | Op.send set => some (rtEventSend s set)
  | Op.recv t set option timeout =>
    if (s.thread t).stat = ThreadStat.ready ∧ s.pc t = Pc.idle then
      rtEventRecv s t set option timeout
    else none
  | Op.recvReturn t =>
    if (s.thread t).stat = ThreadStat.ready ∧ s.pc t = Pc.receiving then
      some (recvReturn s t)
    else none
  | Op.timeout t =>
    if (s.thread t).timerLinked ∧ (s.thread t).stat = ThreadStat.suspend then
      some (timeout s t, Outcome.expired)
    else none
  | Op.reset => rtEventReset s

def step (s : State) (op : Op) : Option State := (stepOutcome s op).map Prod.fst

def outcomeOf (s : State) (op : Op) : Option Outcome :=
  (stepOutcome s op).map Prod.snd

/-- The event as `rt_event_init` leaves it, in a system of started threads, whose event
fields hold what their memory held. -/
structure Booted (s : State) : Prop where
  set : s.event.set = 0
  list : s.event.suspendThread = []
  thread : forall t, (s.thread t).stat = ThreadStat.ready ∧
    (s.thread t).timerLinked = false
  pc : forall t, s.pc t = Pc.idle

def bootState (flag : IpcFlag) : State :=
  { thread := fun _ =>
      { stat := ThreadStat.ready
        currentPriority := 10
        initPriority := 10
        error := RtErr.eok
        timerLinked := false }
    eventSet := fun _ => 0
    eventInfo := fun _ => 0
    event := { set := 0, flag := flag, suspendThread := [] }
    pc := fun _ => Pc.idle }

theorem bootState_booted (flag : IpcFlag) : Booted (bootState flag) := by
  constructor
  · rfl
  · rfl
  · intro t
    exact ⟨rfl, rfl⟩
  · intro t
    rfl

end RtThread.Ipc.Event
