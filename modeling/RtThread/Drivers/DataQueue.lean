import RtThread.Ipc.Waiting

/-!
# Data queues

`rt_data_queue_push`, `rt_data_queue_pop` and `rt_data_queue_peak` on one queue. A step is a
stretch of code with interrupts disabled: a call up to its end or to its `rt_schedule`, then one
round of its waiting loop at a time. The indices run freely in 16 bits; their difference is taken
in `int`. Left out are the notifications, and that a pop which reaches the low-water mark with no
push suspended returns with interrupts still disabled.
-/

namespace RtThread.Drivers.DataQueue

open Kernel
open Ipc

structure RtDataItem where
  dataPtr : Nat
  dataSize : Nat
deriving DecidableEq, Repr

structure RtDataQueue where
  queue : Nat -> RtDataItem
  size : Nat
  lwm : Nat
  waitingLwm : Bool
  getIndex : Nat
  putIndex : Nat
  suspendedPushList : List Tid
  suspendedPopList : List Tid

inductive Pc where
  | idle
  | pushing (item : RtDataItem) (timeout : Int)
  | popping (timeout : Int)
deriving DecidableEq, Repr

structure State where
  thread : Threads
  dq : RtDataQueue
  pc : Tid -> Pc

/-- How a step ends: with the call at its `rt_schedule`, or with its result. A pop tells its
test of the low-water mark, if it came to it. -/
inductive Outcome where
  | waits
  | fails (e : RtErr)
  | pushed (item : RtDataItem)
  | popped (item : RtDataItem) (low : Option Bool)
  | peeked (item : RtDataItem)
  | expired
deriving DecidableEq, Repr

/-!
## Operations
-/

def RtDataQueue.mask (dq : RtDataQueue) : Nat := (dq.size + (2 ^ 16 - 1)) % 2 ^ 16

def RtDataQueue.isFull (dq : RtDataQueue) : Bool :=
  (dq.putIndex : Int) - dq.getIndex = dq.size

def RtDataQueue.isLow (dq : RtDataQueue) : Bool :=
  (dq.putIndex : Int) - dq.getIndex ≤ dq.lwm

def RtDataQueue.front (dq : RtDataQueue) : RtDataItem := dq.queue (dq.getIndex &&& dq.mask)

/-- `rt_data_queue_push` behind its loop. -/
def pushItem (s : State) (item : RtDataItem) : State :=
  let dq := s.dq
  let woken := listResume s.thread dq.suspendedPopList
  { s with
    thread := woken.1
    dq := { dq with
      queue := Function.update dq.queue (dq.putIndex &&& dq.mask) item
      putIndex := (dq.putIndex + 1) % 2 ^ 16
      suspendedPopList := woken.2 } }

def RtDataQueue.taken (dq : RtDataQueue) : RtDataQueue :=
  { dq with getIndex := (dq.getIndex + 1) % 2 ^ 16 }

/-- `rt_data_queue_pop` behind its loop. -/
def popItem (s : State) : State :=
  let dq := s.dq.taken
  if dq.waitingLwm ∧ dq.isLow then
    let woken := listResume s.thread dq.suspendedPushList
    { s with
      thread := woken.1
      dq := { dq with waitingLwm := false, suspendedPushList := woken.2 } }
  else { s with dq := dq }

/-- The loop of `rt_data_queue_push`, from its condition to the end of the call or to
the call of `rt_schedule`. -/
def pushLoop (s : State) (caller : Option Tid) (item : RtDataItem) (timeout : Int) :
    Option (State × Outcome) :=
  if s.dq.isFull then
    let dq := { s.dq with waitingLwm := true }
    if timeout = 0 then some ({ s with dq := dq }, Outcome.fails RtErr.etimeout)
    else
      match caller with
      | none => none
      | some t =>
        (suspendFor (setError s.thread t RtErr.eok) t timeout).map fun v =>
          ({ thread := v
             dq := { dq with suspendedPushList := dq.suspendedPushList ++ [t] }
             pc := Function.update s.pc t (Pc.pushing item timeout) },
            Outcome.waits)
  else some (pushItem s item, Outcome.pushed item)

def popLoop (s : State) (caller : Option Tid) (timeout : Int) :
    Option (State × Outcome) :=
  let dq := s.dq
  if dq.getIndex = dq.putIndex then
    if timeout = 0 then some (s, Outcome.fails RtErr.etimeout)
    else
      match caller with
      | none => none
      | some t =>
        (suspendFor (setError s.thread t RtErr.eok) t timeout).map fun v =>
          ({ thread := v
             dq := { dq with suspendedPopList := dq.suspendedPopList ++ [t] }
             pc := Function.update s.pc t (Pc.popping timeout) },
            Outcome.waits)
  else
    let low := if dq.waitingLwm then some dq.taken.isLow else none
    some (popItem s, Outcome.popped dq.front low)

def again (s : State) (t : Tid) : Option (State × Outcome) :=
  let s' := { s with pc := Function.update s.pc t Pc.idle }
  let e := (s.thread t).error
  match s.pc t with
  | Pc.idle => none
  | Pc.pushing item timeout =>
    if e ≠ RtErr.eok then some (s', Outcome.fails e)
    else pushLoop s' (some t) item timeout
  | Pc.popping timeout =>
    if e ≠ RtErr.eok then some (s', Outcome.fails e)
    else popLoop s' (some t) timeout

def rtDataQueuePeak (s : State) : State × Outcome :=
  if s.dq.getIndex = s.dq.putIndex then (s, Outcome.fails RtErr.eempty)
  else (s, Outcome.peeked s.dq.front)

def timeout (s : State) (t : Tid) : State :=
  { s with
    thread := threadTimeout s.thread t
    dq := { s.dq with
      suspendedPushList := s.dq.suspendedPushList.erase t
      suspendedPopList := s.dq.suspendedPopList.erase t } }

/-!
## Runs
-/

inductive Op where
  | push (caller : Option Tid) (item : RtDataItem) (timeout : Int)
  | pop (caller : Option Tid) (timeout : Int)
  | peak
  | again (t : Tid)
  | timeout (t : Tid)
deriving DecidableEq, Repr

def mayCall (s : State) : Option Tid -> Bool
  | none => true
  | some t =>
    decide ((s.thread t).stat = ThreadStat.ready) && decide (s.pc t = Pc.idle)

def stepOutcome (s : State) : Op -> Option (State × Outcome)
  | Op.push caller item timeout =>
    if mayCall s caller then pushLoop s caller item timeout else none
  | Op.pop caller timeout => if mayCall s caller then popLoop s caller timeout else none
  | Op.peak => some (rtDataQueuePeak s)
  | Op.again t => if (s.thread t).stat = ThreadStat.ready then again s t else none
  | Op.timeout t =>
    if (s.thread t).timerLinked ∧ (s.thread t).stat = ThreadStat.suspend then
      some (timeout s t, Outcome.expired)
    else none

def step (s : State) (op : Op) : Option State := (stepOutcome s op).map Prod.fst

def outcomeOf (s : State) (op : Op) : Option Outcome :=
  (stepOutcome s op).map Prod.snd

/-- The queue as `rt_data_queue_init` leaves it, in a system of started threads.  Its
size is a power of two in a 16-bit field. -/
structure Booted (s : State) : Prop where
  size : exists k, k < 16 ∧ s.dq.size = 2 ^ k
  waitingLwm : s.dq.waitingLwm = false
  getIndex : s.dq.getIndex = 0
  putIndex : s.dq.putIndex = 0
  lists : s.dq.suspendedPushList = [] ∧ s.dq.suspendedPopList = []
  thread : forall t, (s.thread t).stat = ThreadStat.ready ∧
    (s.thread t).timerLinked = false
  pc : forall t, s.pc t = Pc.idle

def bootState (size lwm : Nat) : State :=
  { thread := fun _ =>
      { stat := ThreadStat.ready
        currentPriority := 10
        initPriority := 10
        error := RtErr.eok
        timerLinked := false }
    dq :=
      { queue := fun _ => ⟨0, 0⟩
        size := size
        lwm := lwm
        waitingLwm := false
        getIndex := 0
        putIndex := 0
        suspendedPushList := []
        suspendedPopList := [] }
    pc := fun _ => Pc.idle }

theorem bootState_booted {size : Nat} (hsize : exists k, k < 16 ∧ size = 2 ^ k)
    (lwm : Nat) : Booted (bootState size lwm) := by
  constructor
  · exact hsize
  · rfl
  · rfl
  · rfl
  · exact ⟨rfl, rfl⟩
  · intro t
    exact ⟨rfl, rfl⟩
  · intro t
    rfl

theorem step_outcome {s s' : State} {op : Op} (hs : step s op = some s') :
    exists o, stepOutcome s op = some (s', o) ∧ outcomeOf s op = some o := by
  unfold step at hs
  rw [Option.map_eq_some_iff] at hs
  rcases hs with ⟨⟨s1, o⟩, hs, heq⟩
  cases heq
  refine ⟨o, hs, ?_⟩
  unfold outcomeOf
  rw [hs]
  rfl

/-!
## What the indices say
-/

def RtDataQueue.stored (dq : RtDataQueue) : Nat :=
  (dq.putIndex + 2 ^ 16 - dq.getIndex) % 2 ^ 16

def Pc.isPushing : Pc -> Bool
  | Pc.pushing _ _ => true
  | _ => false

def Pc.isPopping : Pc -> Bool
  | Pc.popping _ => true
  | _ => false

def testsPush (s : State) : Op -> Bool
  | Op.push _ _ _ => true
  | Op.again t => (s.pc t).isPushing && decide ((s.thread t).error = RtErr.eok)
  | _ => false

def testsPop (s : State) : Op -> Bool
  | Op.pop _ _ => true
  | Op.again t => (s.pc t).isPopping && decide ((s.thread t).error = RtErr.eok)
  | _ => false

/-- The put index has wrapped around, the get index has not, and the queue is full: the
test of a push does not see it. -/
def RtDataQueue.fullUnseen (dq : RtDataQueue) : Prop :=
  dq.putIndex < dq.getIndex ∧ dq.stored = dq.size

/-- The put index has wrapped, the new get index has not, and more items than the low-water
mark are left: the test of a pop does not see it. -/
def RtDataQueue.highUnseen (dq : RtDataQueue) : Prop :=
  dq.waitingLwm = true ∧ dq.putIndex < dq.taken.getIndex ∧ dq.lwm + 1 < dq.stored

instance (dq : RtDataQueue) : Decidable dq.fullUnseen :=
  inferInstanceAs (Decidable (_ ∧ _))

instance (dq : RtDataQueue) : Decidable dq.highUnseen :=
  inferInstanceAs (Decidable (_ ∧ _))

end RtThread.Drivers.DataQueue
