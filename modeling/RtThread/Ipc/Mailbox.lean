import RtThread.Ipc.Waiting
import RtThread.Library.RingBuffer

/-!
# Mailboxes

`rt_mb_send_wait`, `rt_mb_recv` and the reset of `rt_mb_control` on one mailbox,
by any number of threads and by interrupts.  A step is a stretch of code with
interrupts disabled: a call up to its end or to its call of `rt_schedule`, and
after that one round of its waiting loop at a time.
-/

namespace RtThread.Ipc.Mailbox

open Kernel
open RingBuffer

structure RtMailbox where
  msgPool : Nat -> BitVec 32
  size : Nat
  entry : Nat
  inOffset : Nat
  outOffset : Nat
  flag : IpcFlag
  suspendThread : List Tid
  suspendSenderThread : List Tid

inductive Pc where
  | idle
  | sending (value : BitVec 32) (timeout : Int)
  | receiving (timeout : Int)
deriving DecidableEq, Repr

structure State where
  thread : Threads
  mb : RtMailbox
  pc : Tid -> Pc

/-- How a step ends: with the call at its `rt_schedule`, or with its result. A send or
receive that returns `RT_EOK` has put a value or taken one. -/
inductive Outcome where
  | waits
  | fails (e : RtErr)
  | sent (value : BitVec 32)
  | received (value : BitVec 32)
  | reset
  | expired
deriving DecidableEq, Repr

/-!
## Operations

The caller is a thread, or an interrupt (`none`), which cannot wait.  The pool
and the counters have 16 bits.
-/

def sendMail (s : State) (value : BitVec 32) : State :=
  let mb := s.mb
  let inOffset := (mb.inOffset + 1) % 2 ^ 16
  let woken := listResume s.thread mb.suspendThread
  { s with
    thread := woken.1
    mb := { mb with
      msgPool := Function.update mb.msgPool mb.inOffset value
      inOffset := if mb.size ≤ inOffset then 0 else inOffset
      entry := (mb.entry + 1) % 2 ^ 16
      suspendThread := woken.2 } }

def recvMail (s : State) : State :=
  let mb := s.mb
  let outOffset := (mb.outOffset + 1) % 2 ^ 16
  let woken := listResume s.thread mb.suspendSenderThread
  { s with
    thread := woken.1
    mb := { mb with
      outOffset := if mb.size ≤ outOffset then 0 else outOffset
      entry := (mb.entry + (2 ^ 16 - 1)) % 2 ^ 16
      suspendSenderThread := woken.2 } }

/-- The loop of `rt_mb_send_wait`, from its condition to the end of the call or
to the call of `rt_schedule`. -/
def sendLoop (s : State) (caller : Option Tid) (value : BitVec 32)
    (timeout : Int) : Option (State × Outcome) :=
  let mb := s.mb
  if mb.entry = mb.size then
    match caller with
    | none => none
    | some t =>
      let v := setError s.thread t RtErr.eok
      if timeout = 0 then
        some ({ s with thread := v }, Outcome.fails RtErr.efull)
      else
        (suspendFor v t timeout).map fun v =>
          let waiting := suspendInto v mb.flag t mb.suspendSenderThread
          ({ s with
              thread := v
              mb := { mb with suspendSenderThread := waiting }
              pc := Function.update s.pc t (Pc.sending value timeout) },
            Outcome.waits)
  else some (sendMail s value, Outcome.sent value)

def recvLoop (s : State) (caller : Option Tid) (timeout : Int) :
    Option (State × Outcome) :=
  let mb := s.mb
  if mb.entry = 0 then
    match caller with
    | none => none
    | some t =>
      let v := setError s.thread t RtErr.eok
      if timeout = 0 then
        some ({ s with thread := setError v t RtErr.etimeout },
          Outcome.fails RtErr.etimeout)
      else
        (suspendFor v t timeout).map fun v =>
          let waiting := suspendInto v mb.flag t mb.suspendThread
          ({ s with
              thread := v
              mb := { mb with suspendThread := waiting }
              pc := Function.update s.pc t (Pc.receiving timeout) },
            Outcome.waits)
  else some (recvMail s, Outcome.received (mb.msgPool mb.outOffset))

/-- `rt_mb_send_wait`; `rt_mb_send` is the call with no timeout. -/
def rtMbSendWait (s : State) (caller : Option Tid) (value : BitVec 32)
    (timeout : Int) : Option (State × Outcome) :=
  if s.mb.entry = s.mb.size ∧ timeout = 0 then
    some (s, Outcome.fails RtErr.efull)
  else sendLoop s caller value timeout

def rtMbRecv (s : State) (caller : Option Tid) (timeout : Int) :
    Option (State × Outcome) :=
  if s.mb.entry = 0 ∧ timeout = 0 then some (s, Outcome.fails RtErr.etimeout)
  else recvLoop s caller timeout

/-- The rest of a waiting call, when its thread runs again after `delta` ticks:
an error ends the call, else the loop goes on. -/
def again (s : State) (t : Tid) (delta : Nat) :
    Option (State × Outcome) :=
  let s' := { s with pc := Function.update s.pc t Pc.idle }
  let e := (s.thread t).error
  match s.pc t with
  | Pc.idle => none
  | Pc.sending value timeout =>
    if e ≠ RtErr.eok then some (s', Outcome.fails e)
    else sendLoop s' (some t) value (timeoutLeft timeout delta)
  | Pc.receiving timeout =>
    if e ≠ RtErr.eok then some (s', Outcome.fails e)
    else recvLoop s' (some t) (timeoutLeft timeout delta)

/-- `rt_mb_control` with `RT_IPC_CMD_RESET` -/
def reset (s : State) : Option (State × Outcome) :=
  match listResumeAll s.thread s.mb.suspendThread with
  | none => none
  | some v =>
    (listResumeAll v s.mb.suspendSenderThread).map fun v =>
      ({ s with
          thread := v
          mb := { s.mb with
            entry := 0
            inOffset := 0
            outOffset := 0
            suspendThread := []
            suspendSenderThread := [] } }, Outcome.reset)

def timeout (s : State) (t : Tid) : State :=
  { s with
    thread := threadTimeout s.thread t
    mb := { s.mb with
      suspendThread := s.mb.suspendThread.erase t
      suspendSenderThread := s.mb.suspendSenderThread.erase t } }

/-!
## Runs
-/

inductive Op where
  | send (caller : Option Tid) (value : BitVec 32) (timeout : Int)
  | recv (caller : Option Tid) (timeout : Int)
  | again (t : Tid) (delta : Nat)
  | timeout (t : Tid)
  | reset
deriving DecidableEq, Repr

def mayCall (s : State) : Option Tid -> Bool
  | none => true
  | some t =>
    decide ((s.thread t).stat = ThreadStat.ready) && decide (s.pc t = Pc.idle)

def stepOutcome (s : State) : Op -> Option (State × Outcome)
  | Op.send caller value timeout =>
    if mayCall s caller then rtMbSendWait s caller value timeout else none
  | Op.recv caller timeout =>
    if mayCall s caller then rtMbRecv s caller timeout else none
  | Op.again t delta =>
    if (s.thread t).stat = ThreadStat.ready then again s t delta else none
  | Op.timeout t =>
    if (s.thread t).timerLinked ∧ (s.thread t).stat = ThreadStat.suspend then
      some (timeout s t, Outcome.expired)
    else none
  | Op.reset => reset s

def step (s : State) (op : Op) : Option State := (stepOutcome s op).map Prod.fst

def outcomeOf (s : State) (op : Op) : Option Outcome :=
  (stepOutcome s op).map Prod.snd

/-- The mailbox as `rt_mb_init` leaves it, in a system of started threads, with a 16-bit
size and a pool that holds what its memory held. -/
structure Booted (s : State) : Prop where
  size : 0 < s.mb.size ∧ s.mb.size < 2 ^ 16
  entry : s.mb.entry = 0
  inOffset : s.mb.inOffset = 0
  outOffset : s.mb.outOffset = 0
  lists : s.mb.suspendThread = [] ∧ s.mb.suspendSenderThread = []
  thread : forall t, (s.thread t).stat = ThreadStat.ready ∧
    (s.thread t).timerLinked = false
  pc : forall t, s.pc t = Pc.idle

def bootState (size : Nat) (flag : IpcFlag) : State :=
  { thread := fun _ =>
      { stat := ThreadStat.ready
        currentPriority := 10
        initPriority := 10
        error := RtErr.eok
        timerLinked := false }
    mb :=
      { msgPool := fun _ => 0
        size := size
        entry := 0
        inOffset := 0
        outOffset := 0
        flag := flag
        suspendThread := []
        suspendSenderThread := [] }
    pc := fun _ => Pc.idle }

theorem bootState_booted {size : Nat} (hsize : 0 < size ∧ size < 2 ^ 16)
    (flag : IpcFlag) : Booted (bootState size flag) := by
  constructor
  · exact hsize
  · rfl
  · rfl
  · rfl
  · exact ⟨rfl, rfl⟩
  · intro t
    exact ⟨rfl, rfl⟩
  · intro t
    rfl

end RtThread.Ipc.Mailbox
