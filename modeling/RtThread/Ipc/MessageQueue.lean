import RtThread.Ipc.Waiting
import RtThread.Kernel.Align

/-!
# Message queues

`rt_mq_send`, `rt_mq_urgent`, `rt_mq_recv` and the reset of `rt_mq_control` on one message queue.
A send takes a slot in one critical section, fills it byte by byte with interrupts enabled, and
links it in a second one; a receive unlinks, copies and frees likewise. Other calls may run
between any two steps.
-/

namespace RtThread.Ipc.MessageQueue

open Kernel

abbrev Slot := Nat

abbrev Byte := BitVec 8

/-- `struct rt_messagequeue`, with the links and the bodies of its slots. -/
structure RtMessageQueue where
  msgSize : Nat
  maxMsgs : Nat
  entry : Nat
  msgQueueHead : Option Slot
  msgQueueTail : Option Slot
  msgQueueFree : Option Slot
  next : Slot -> Option Slot
  body : Slot -> Nat -> Byte
  flag : IpcFlag
  suspendThread : List Tid

/-- Who is in a call: a thread, or one of the interrupts in progress. -/
inductive Caller where
  | thread (t : Tid)
  | interrupt (n : Nat)
deriving DecidableEq, Repr

/-- A send that holds a slot has set its link when its progress is one, and copied `i` bytes
when it is `i + 1`; a receive has copied what it got so far. -/
inductive Pc where
  | idle
  | sending (urgent : Bool) (msg : Slot) (buffer : List Byte) (progress : Nat)
  | waiting (size : Nat) (timeout : Int)
  | receiving (msg : Slot) (size : Nat) (got : List Byte)
deriving DecidableEq, Repr

structure State where
  thread : Threads
  mq : RtMessageQueue
  pc : Caller -> Pc

/-- How a step ends: inside of a call, or with its result. -/
inductive Outcome where
  | works
  | waits
  | fails (e : RtErr)
  | linked (urgent : Bool) (buffer : List Byte)
  | unlinked
  | received (got : List Byte)
  | reset
  | expired
deriving DecidableEq, Repr

/-!
## Initialisation
-/

/-- The loop of `rt_mq_init` that threads the slots into the free list. -/
def initFree (next : Slot -> Option Slot) :
    Nat -> (Slot -> Option Slot) × Option Slot
  | 0 => (next, none)
  | temp + 1 =>
    let rest := initFree next temp
    (Function.update rest.1 temp rest.2, some temp)

/-- `rt_mq_init`.  The size and the number of messages are 16-bit fields, and
`sizeof(struct rt_mq_message)` is that of a pointer. -/
def rtMqInit (mq : RtMessageQueue) (alignSize msgSize poolSize : Nat)
    (flag : IpcFlag) : RtMessageQueue :=
  let msgSize := rtAlign msgSize alignSize % 2 ^ 16
  let maxMsgs := poolSize / (msgSize + 4) % 2 ^ 16
  let free := initFree mq.next maxMsgs
  { mq with
    msgSize := msgSize
    maxMsgs := maxMsgs
    entry := 0
    msgQueueHead := none
    msgQueueTail := none
    msgQueueFree := free.2
    next := free.1
    flag := flag
    suspendThread := [] }

/-!
## Operations
-/

def State.setPc (s : State) (c : Caller) (pc : Pc) : State :=
  { s with pc := Function.update s.pc c pc }

/-- `rt_mq_send` and `rt_mq_urgent` up to the end of their first critical
section. -/
def sendGrab (s : State) (c : Caller) (urgent : Bool) (buffer : List Byte) :
    Option (State × Outcome) :=
  if buffer = [] then none
  else if s.mq.msgSize < buffer.length then some (s, Outcome.fails RtErr.error)
  else
    match s.mq.msgQueueFree with
    | none => some (s, Outcome.fails RtErr.efull)
    | some msg =>
      let mq := { s.mq with msgQueueFree := s.mq.next msg }
      some ({ s with mq := mq }.setPc c (Pc.sending urgent msg buffer 0),
        Outcome.works)

/-- The links of `rt_mq_send`. -/
def linkLast (mq : RtMessageQueue) (msg : Slot) : RtMessageQueue :=
  { mq with
    next :=
      match mq.msgQueueTail with
      | none => mq.next
      | some tail => Function.update mq.next tail (some msg)
    msgQueueTail := some msg
    msgQueueHead :=
      match mq.msgQueueHead with
      | none => some msg
      | some head => some head }

/-- The links of `rt_mq_urgent`. -/
def linkFirst (mq : RtMessageQueue) (msg : Slot) : RtMessageQueue :=
  { mq with
    next := Function.update mq.next msg mq.msgQueueHead
    msgQueueHead := some msg
    msgQueueTail :=
      match mq.msgQueueTail with
      | none => some msg
      | some tail => some tail }

def sendLink (s : State) (c : Caller) (urgent : Bool) (msg : Slot)
    (buffer : List Byte) : State × Outcome :=
  let mq := if urgent then linkFirst s.mq msg else linkLast s.mq msg
  let woken := listResume s.thread mq.suspendThread
  let mq := { mq with
    entry := (mq.entry + 1) % 2 ^ 16
    suspendThread := woken.2 }
  ({ s with thread := woken.1, mq := mq }.setPc c Pc.idle,
    Outcome.linked urgent buffer)

/-- One step of a send that holds a slot: `msg->next = RT_NULL` (not if urgent), then a byte
at a time, then the second critical section. -/
def sendStep (s : State) (c : Caller) (urgent : Bool) (msg : Slot)
    (buffer : List Byte) : Nat -> State × Outcome
  | 0 =>
    let mq :=
      if urgent then s.mq
      else { s.mq with next := Function.update s.mq.next msg none }
    ({ s with mq := mq }.setPc c (Pc.sending urgent msg buffer 1),
      Outcome.works)
  | i + 1 =>
    match buffer[i]? with
    | some x =>
      let body := Function.update s.mq.body msg
        (Function.update (s.mq.body msg) i x)
      ({ s with mq := { s.mq with body := body } }.setPc c
        (Pc.sending urgent msg buffer (i + 2)), Outcome.works)
    | none => sendLink s c urgent msg buffer

/-- `rt_mq_recv` behind its loop, up to the end of the critical section.  A null
head is not followed. -/
def recvUnlink (s : State) (c : Caller) (size : Nat) :
    Option (State × Outcome) :=
  match s.mq.msgQueueHead with
  | none => none
  | some msg =>
    let mq := { s.mq with
      msgQueueHead := s.mq.next msg
      msgQueueTail :=
        if s.mq.msgQueueTail = some msg then none else s.mq.msgQueueTail
      entry := (s.mq.entry + (2 ^ 16 - 1)) % 2 ^ 16 }
    some ({ s with mq := mq }.setPc c (Pc.receiving msg size []),
      Outcome.unlinked)

def recvLoop (s : State) (c : Caller) (size : Nat) (timeout : Int) :
    Option (State × Outcome) :=
  if s.mq.entry = 0 then
    match c with
    | Caller.interrupt _ => none
    | Caller.thread t =>
      let v := setError s.thread t RtErr.eok
      if timeout = 0 then
        some ({ s with thread := setError v t RtErr.etimeout }.setPc c Pc.idle,
          Outcome.fails RtErr.etimeout)
      else
        (suspendFor v t timeout).map fun v =>
          let waiting := suspendInto v s.mq.flag t s.mq.suspendThread
          let mq := { s.mq with suspendThread := waiting }
          ({ s with thread := v, mq := mq }.setPc c (Pc.waiting size timeout),
            Outcome.waits)
  else recvUnlink s c size

def rtMqRecv (s : State) (c : Caller) (size : Nat) (timeout : Int) :
    Option (State × Outcome) :=
  if size = 0 then none
  else if s.mq.entry = 0 ∧ timeout = 0 then
    some (s, Outcome.fails RtErr.etimeout)
  else recvLoop s c size timeout

def recvAgain (s : State) (t : Tid) (size : Nat) (timeout : Int) (delta : Nat) :
    Option (State × Outcome) :=
  let e := (s.thread t).error
  if e ≠ RtErr.eok then
    some (s.setPc (Caller.thread t) Pc.idle, Outcome.fails e)
  else recvLoop s (Caller.thread t) size (timeoutLeft timeout delta)

/-- One step of a receive that holds a slot: one byte at a time, then the last
critical section. -/
def recvStep (s : State) (c : Caller) (msg : Slot) (size : Nat)
    (got : List Byte) : State × Outcome :=
  if got.length < min size s.mq.msgSize then
    (s.setPc c (Pc.receiving msg size (got ++ [s.mq.body msg got.length])),
      Outcome.works)
  else
    let mq := { s.mq with
      next := Function.update s.mq.next msg s.mq.msgQueueFree
      msgQueueFree := some msg }
    ({ s with mq := mq }.setPc c Pc.idle, Outcome.received got)

/-- The loop of `rt_mq_control` that releases all messages of the queue; more
rounds than there are slots would be a cycle. -/
def releaseAll : Nat -> RtMessageQueue -> Option RtMessageQueue
  | 0, mq => if mq.msgQueueHead = none then some mq else none
  | n + 1, mq =>
    match mq.msgQueueHead with
    | none => some mq
    | some msg => releaseAll n { mq with
        msgQueueHead := mq.next msg
        msgQueueTail :=
          if mq.msgQueueTail = some msg then none else mq.msgQueueTail
        next := Function.update mq.next msg mq.msgQueueFree
        msgQueueFree := some msg }

def reset (s : State) : Option (State × Outcome) :=
  match listResumeAll s.thread s.mq.suspendThread with
  | none => none
  | some v =>
    (releaseAll s.mq.maxMsgs { s.mq with suspendThread := [] }).map fun mq =>
      ({ s with thread := v, mq := { mq with entry := 0 } }, Outcome.reset)

def timeout (s : State) (t : Tid) : State :=
  { s with
    thread := threadTimeout s.thread t
    mq := { s.mq with suspendThread := s.mq.suspendThread.erase t } }

/-!
## Runs
-/

inductive Op where
  | send (c : Caller) (urgent : Bool) (buffer : List Byte)
  | recv (c : Caller) (size : Nat) (timeout : Int)
  | go (c : Caller)
  | again (t : Tid) (delta : Nat)
  | timeout (t : Tid)
  | reset
deriving DecidableEq, Repr

/-- A thread runs when it is ready; an interrupt always may. -/
def runs (s : State) : Caller -> Bool
  | Caller.thread t => decide ((s.thread t).stat = ThreadStat.ready)
  | Caller.interrupt _ => true

def stepOutcome (s : State) : Op -> Option (State × Outcome)
  | Op.send c urgent buffer =>
    if runs s c ∧ s.pc c = Pc.idle then sendGrab s c urgent buffer else none
  | Op.recv c size timeout =>
    if runs s c ∧ s.pc c = Pc.idle then rtMqRecv s c size timeout else none
  | Op.go c =>
    if runs s c then
      match s.pc c with
      | Pc.sending urgent msg buffer progress =>
        some (sendStep s c urgent msg buffer progress)
      | Pc.receiving msg size got => some (recvStep s c msg size got)
      | _ => none
    else none
  | Op.again t delta =>
    if runs s (Caller.thread t) then
      match s.pc (Caller.thread t) with
      | Pc.waiting size timeout => recvAgain s t size timeout delta
      | _ => none
    else none
  | Op.timeout t =>
    if (s.thread t).timerLinked ∧ (s.thread t).stat = ThreadStat.suspend then
      some (timeout s t, Outcome.expired)
    else none
  | Op.reset => reset s

def step (s : State) (op : Op) : Option State := (stepOutcome s op).map Prod.fst

def outcomeOf (s : State) (op : Op) : Option Outcome :=
  (stepOutcome s op).map Prod.snd

/-- A message queue built by `rt_mq_init` on whatever its memory held, with room
for one message at least, before the first call. -/
structure Booted (s : State) : Prop where
  mq : exists memory alignSize msgSize poolSize flag,
    s.mq = rtMqInit memory alignSize msgSize poolSize flag
  room : 1 ≤ s.mq.maxMsgs
  pc : forall c, s.pc c = Pc.idle

end RtThread.Ipc.MessageQueue
