import RtThread.Kernel.Ffs
import RtThread.Kernel.RtList

/-!
# Threads and the scheduler

The state of `scheduler.c` and `thread.c`. Every operation is a partial function, undefined
exactly where the source has a failing assertion, follows a null thread pointer, or indexes
`rt_thread_priority_table` or `rt_thread_ready_table` out of bounds.
-/

namespace RtThread.Kernel

abbrev Tid := Nat

/-- `RT_THREAD_PRIORITY_MAX`, which the source allows up to 256. -/
structure Config where
  priorityMax : Nat
  priorityMax_le : priorityMax ≤ 256

/-- The thread states in use (`RT_THREAD_RUNNING` is never assigned). -/
inductive ThreadStat where
  | init
  | ready
  | suspend
  | close
deriving DecidableEq, Repr

/-- The error numbers of `rtdef.h`, without their sign. -/
inductive RtErr where
  | eok
  | error
  | etimeout
  | efull
  | eempty
  | enomem
  | enosys
  | ebusy
  | eio
deriving DecidableEq, Repr

/-- The heads that a `tlist` node can be linked to by the scheduler. -/
inductive ListHead where
  | ready (priority : Nat)
  | defunct
deriving DecidableEq, Repr

/-- The built-in timer of a thread: its activation flag, whether it is linked in
a timer list, and its period. -/
structure ThreadTimer where
  activated : Bool
  linked : Bool
  initTick : Nat
deriving DecidableEq, Repr

/-- The part of `struct rt_thread` that scheduling and blocking read or write. -/
structure Thread where
  stat : ThreadStat
  currentPriority : Nat
  initPriority : Nat
  number : Nat
  highMask : BitVec 8
  numberMask : BitVec 32
  error : RtErr
  timer : ThreadTimer
  /-- `rt_object_is_systemobject` -/
  systemObject : Bool
  /-- `cleanup != RT_NULL` -/
  cleanup : Bool
deriving DecidableEq, Repr

/-- The globals of `scheduler.c`, with all thread control blocks. -/
structure State where
  links : Links (Node ListHead Tid)
  thread : Tid -> Thread
  readyPriorityGroup : BitVec 32
  readyTable : Nat -> BitVec 8
  currentThread : Option Tid
  currentPriority : Nat
  lockNest : Int

def State.setThread (k : State) (t : Tid) (th : Thread) : State :=
  { k with thread := Function.update k.thread t th }

/-!
## Timers of threads
-/

def rtTickMax : Nat := 0xffffffff

def rtTimerStop (timer : ThreadTimer) : ThreadTimer :=
  if timer.activated then { timer with activated := false, linked := false }
  else timer

/-- `rt_timer_start`: the list insertion, guarded by the assertion on the period. -/
def rtTimerStart (timer : ThreadTimer) : Option ThreadTimer :=
  if timer.initTick < rtTickMax / 2 then
    some { timer with activated := true, linked := true }
  else none

def rtTimerDetach (timer : ThreadTimer) : ThreadTimer :=
  { timer with linked := false }

/-- `rt_timer_control` with `RT_TIMER_CTRL_SET_TIME` -/
def rtTimerSetTime (timer : ThreadTimer) (tick : Nat) : ThreadTimer :=
  { timer with initTick := tick }

/-!
## The ready lists and their bitmap
-/

/-- The masks of the current priority, as computed by startup and by a priority
change. -/
def priorityAttribute (cfg : Config) (th : Thread) : Thread :=
  if 32 < cfg.priorityMax then
    { th with
      number := th.currentPriority >>> 3
      numberMask := 1#32 <<< (th.currentPriority >>> 3)
      highMask := 1#8 <<< (th.currentPriority % 8) }
  else
    { th with numberMask := 1#32 <<< th.currentPriority }

def setPriorityMask (cfg : Config) (k : State) (th : Thread) : State :=
  if 32 < cfg.priorityMax then
    { k with
      readyTable := Function.update k.readyTable th.number
        (k.readyTable th.number ||| th.highMask)
      readyPriorityGroup := k.readyPriorityGroup ||| th.numberMask }
  else
    { k with readyPriorityGroup := k.readyPriorityGroup ||| th.numberMask }

def clearPriorityMask (cfg : Config) (k : State) (th : Thread) : State :=
  if 32 < cfg.priorityMax then
    let byte := k.readyTable th.number &&& ~~~th.highMask
    let k := { k with readyTable := Function.update k.readyTable th.number byte }
    if byte = 0 then
      { k with readyPriorityGroup := k.readyPriorityGroup &&& ~~~th.numberMask }
    else k
  else
    { k with readyPriorityGroup := k.readyPriorityGroup &&& ~~~th.numberMask }

def rtScheduleInsertThread (cfg : Config) (k : State) (t : Tid) :
    Option State :=
  let th := k.thread t
  if th.currentPriority < cfg.priorityMax then
    let k := k.setThread t { th with stat := ThreadStat.ready }
    let k := { k with
      links := rtListInsertBefore k.links
        (Node.head (ListHead.ready th.currentPriority)) (Node.member t) }
    some (setPriorityMask cfg k th)
  else none

/-- `rt_schedule_remove_thread`; the table has 32 bytes. -/
def rtScheduleRemoveThread (cfg : Config) (k : State) (t : Tid) :
    Option State :=
  let th := k.thread t
  if th.currentPriority < cfg.priorityMax then
    let k := { k with links := rtListRemove k.links (Node.member t) }
    if rtListIsempty k.links
        (Node.head (ListHead.ready th.currentPriority)) then
      if 32 < cfg.priorityMax ∧ 32 ≤ th.number then none
      else some (clearPriorityMask cfg k th)
    else some k
  else none

def wordPred (n : Nat) : Nat := (n + (2 ^ 32 - 1)) % 2 ^ 32

/-- `highest_ready_priority`, as `rt_schedule` computes it from the bitmap. -/
def highestReadyPriority (cfg : Config) (k : State) : Option Nat :=
  if 32 < cfg.priorityMax then
    let number := wordPred (rtFfs k.readyPriorityGroup)
    if number < 32 then
      some (wordPred ((number <<< 3) +
        rtFfs ((k.readyTable number).setWidth 32)))
    else none
  else some (wordPred (rtFfs k.readyPriorityGroup))

/-- The entry behind the head of a ready list; an empty list has none. -/
def readyEntry (cfg : Config) (k : State) (p : Nat) : Option Tid :=
  if p < cfg.priorityMax then
    match k.links.next (Node.head (ListHead.ready p)) with
    | Node.member t => some t
    | Node.head _ => none
  else none

def rtSchedule (cfg : Config) (k : State) : Option State :=
  if k.lockNest = 0 then
    match highestReadyPriority cfg k with
    | none => none
    | some p =>
      match readyEntry cfg k p with
      | none => none
      | some toThread =>
        if some toThread ≠ k.currentThread then
          some { k with
            currentPriority := p % 256, currentThread := some toThread }
        else some k
  else some k

def rtSystemSchedulerStart (cfg : Config) (k : State) : Option State :=
  match highestReadyPriority cfg k with
  | none => none
  | some p =>
    match readyEntry cfg k p with
    | none => none
    | some toThread => some { k with currentThread := some toThread }

/-- `rt_enter_critical`; the nesting counter is 16 bits wide. -/
def rtEnterCritical (k : State) : State :=
  { k with lockNest := (k.lockNest + 1).bmod (2 ^ 16) }

def rtExitCritical (cfg : Config) (k : State) : Option State :=
  let nest := (k.lockNest - 1).bmod (2 ^ 16)
  if nest ≤ 0 then rtSchedule cfg { k with lockNest := 0 }
  else some { k with lockNest := nest }

/-!
## Thread operations
-/

def rtThreadResume (cfg : Config) (k : State) (t : Tid) :
    Option (State × RtErr) :=
  if (k.thread t).stat ≠ ThreadStat.suspend then some (k, RtErr.error)
  else
    let k := { k with links := rtListRemove k.links (Node.member t) }
    let th := k.thread t
    let k := k.setThread t { th with timer := rtTimerStop th.timer }
    (rtScheduleInsertThread cfg k t).map fun k => (k, RtErr.eok)

def rtThreadSuspend (cfg : Config) (k : State) (t : Tid) :
    Option (State × RtErr) :=
  let th := k.thread t
  if th.stat ≠ ThreadStat.ready then some (k, RtErr.error)
  else
    let k := k.setThread t { th with stat := ThreadStat.suspend }
    (rtScheduleRemoveThread cfg k t).map fun k =>
      let th := k.thread t
      (k.setThread t { th with timer := rtTimerStop th.timer }, RtErr.eok)

def rtThreadStartup (cfg : Config) (k : State) (t : Tid) : Option State :=
  let th := k.thread t
  if th.stat = ThreadStat.init then
    let th := priorityAttribute cfg { th with currentPriority := th.initPriority }
    let k := k.setThread t { th with stat := ThreadStat.suspend }
    match rtThreadResume cfg k t with
    | none => none
    | some (k, _) => if k.currentThread.isSome then rtSchedule cfg k else some k
  else none

/-- `rt_thread_control` with `RT_THREAD_CTRL_CHANGE_PRIORITY` -/
def rtThreadChangePriority (cfg : Config) (k : State) (t : Tid) (p : Nat) :
    Option State :=
  if (k.thread t).stat = ThreadStat.ready then
    match rtScheduleRemoveThread cfg k t with
    | none => none
    | some k =>
      let th := priorityAttribute cfg { k.thread t with currentPriority := p }
      rtScheduleInsertThread cfg (k.setThread t th) t
  else
    let th := priorityAttribute cfg { k.thread t with currentPriority := p }
    some (k.setThread t th)

def rtThreadYield (cfg : Config) (k : State) : Option State :=
  match k.currentThread with
  | none => none
  | some t =>
    let th := k.thread t
    if th.stat = ThreadStat.ready ∧
        k.links.next (Node.member t) ≠ k.links.prev (Node.member t) then
      if th.currentPriority < cfg.priorityMax then
        let links := rtListRemove k.links (Node.member t)
        let links := rtListInsertBefore links
          (Node.head (ListHead.ready th.currentPriority)) (Node.member t)
        rtSchedule cfg { k with links := links }
      else none
    else some k

/-- `rt_thread_sleep` up to its call of `rt_schedule`. -/
def rtThreadSleep (cfg : Config) (k : State) (tick : Nat) : Option State :=
  match k.currentThread with
  | none => none
  | some t =>
    match rtThreadSuspend cfg k t with
    | none => none
    | some (k, _) =>
      let th := k.thread t
      match rtTimerStart (rtTimerSetTime th.timer tick) with
      | none => none
      | some timer => rtSchedule cfg (k.setThread t { th with timer := timer })

/-- The rest of `rt_thread_sleep`, when the thread runs again. -/
def rtThreadSleepReturn (k : State) : Option State :=
  match k.currentThread with
  | none => none
  | some t =>
    let th := k.thread t
    if th.error = RtErr.etimeout then
      some (k.setThread t { th with error := RtErr.eok })
    else some k

def rtThreadTimeout (cfg : Config) (k : State) (t : Tid) : Option State :=
  let th := k.thread t
  if th.stat = ThreadStat.suspend then
    let k := k.setThread t { th with error := RtErr.etimeout }
    let k := { k with links := rtListRemove k.links (Node.member t) }
    match rtScheduleInsertThread cfg k t with
    | none => none
    | some k => rtSchedule cfg k
  else none

/-- One round of the loop of `rt_timer_check` for the timer of a thread: it is unlinked, its
callback runs, its one-shot flag is cleared. -/
def rtTimerCheckThread (cfg : Config) (k : State) (t : Tid) : Option State :=
  let th := k.thread t
  if th.timer.linked then
    let k := k.setThread t { th with timer := { th.timer with linked := false } }
    match rtThreadTimeout cfg k t with
    | none => none
    | some k =>
      let th := k.thread t
      some (k.setThread t { th with timer := { th.timer with activated := false } })
  else none

def rtThreadExit (cfg : Config) (k : State) : Option State :=
  match k.currentThread with
  | none => none
  | some t =>
    match rtScheduleRemoveThread cfg k t with
    | none => none
    | some k =>
      let th := k.thread t
      let k := k.setThread t
        { th with stat := ThreadStat.close, timer := rtTimerDetach th.timer }
      let links :=
        if th.systemObject ∧ ¬ th.cleanup then k.links
        else rtListInsertAfter k.links (Node.head ListHead.defunct)
          (Node.member t)
      rtSchedule cfg { k with links := links }

/-!
## Runs of the scheduler
-/

/-- The operations a scheduler run is made of.  The thread that executes
`yield`, `sleep`, `sleepReturn` and `exit` is the current one. -/
inductive Op where
  | startup (t : Tid)
  | suspend (t : Tid)
  | resume (t : Tid)
  | yield
  | sleep (tick : Nat)
  | sleepReturn
  | timeout (t : Tid)
  | changePriority (t : Tid) (p : Nat)
  | exit
  | schedulerStart
  | schedule
  | enterCritical
  | exitCritical
deriving DecidableEq, Repr

/-- Operations on a thread are applied to started threads; a thread that has
ended executes nothing more. -/
def started (k : State) (t : Tid) : Bool :=
  decide ((k.thread t).stat ≠ ThreadStat.init)

def running (k : State) : Bool :=
  match k.currentThread with
  | none => false
  | some t => decide ((k.thread t).stat ≠ ThreadStat.close)

def step (cfg : Config) (k : State) : Op -> Option State
  | Op.startup t => rtThreadStartup cfg k t
  | Op.suspend t =>
    if started k t then (rtThreadSuspend cfg k t).map Prod.fst else none
  | Op.resume t =>
    if started k t then (rtThreadResume cfg k t).map Prod.fst else none
  | Op.yield => if running k then rtThreadYield cfg k else none
  | Op.sleep tick => if running k then rtThreadSleep cfg k tick else none
  | Op.sleepReturn => if running k then rtThreadSleepReturn k else none
  | Op.timeout t => rtTimerCheckThread cfg k t
  | Op.changePriority t p =>
    if started k t ∧ p < 256 then rtThreadChangePriority cfg k t p else none
  | Op.exit => if running k then rtThreadExit cfg k else none
  | Op.schedulerStart => rtSystemSchedulerStart cfg k
  | Op.schedule => rtSchedule cfg k
  | Op.enterCritical => some (rtEnterCritical k)
  | Op.exitCritical => rtExitCritical cfg k

/-- The state after `rt_system_scheduler_init`, with every thread initialised by
`_rt_thread_init` and none started. The masks hold what the memory held. -/
structure Booted (cfg : Config) (k : State) : Prop where
  links : forall n, k.links.next n = n ∧ k.links.prev n = n
  stat : forall t, (k.thread t).stat = ThreadStat.init
  priority : forall t, (k.thread t).initPriority < cfg.priorityMax
  timer : forall t, (k.thread t).timer.linked = false
  group : k.readyPriorityGroup = 0
  table : forall g, k.readyTable g = 0
  current : k.currentThread = none
  lock : k.lockNest = 0

end RtThread.Kernel
