import RtThread.Kernel.Thread

/-!
# Timers

The timers of `timer.c`. A timer list is a skip list: every row is an intrusive list, a timer is
linked in the bottom row and in some rows above. The functions touch the lists in four ways only,
so they are stated over any implementation of these four; the skip list of the source and the
plain sorted list are two of them. A call is one step, apart from `rt_timer_check`, whose timeout
functions may call the others.
-/

namespace RtThread.Kernel.Timer

open Function (update update_of_ne update_self)

abbrev TimerId := Nat

/-- `rt_tick_t` -/
abbrev Tick := BitVec 32

inductive TimerList where
  | hard
  | soft
deriving DecidableEq, Repr

/-- `struct rt_timer` without its rows, its flag split into bits. -/
structure RtTimer where
  timeoutTick : Tick
  initTick : Tick
  activated : Bool
  periodic : Bool
  soft : Bool
deriving DecidableEq, Repr

def RtTimer.list (r : RtTimer) : TimerList :=
  if r.soft then TimerList.soft else TimerList.hard

theorem RtTimer.list_soft_iff {r : RtTimer} : r.list = TimerList.soft <-> r.soft = true := by
  unfold RtTimer.list
  cases r.soft <;> simp

theorem RtTimer.list_hard_iff {r : RtTimer} : r.list = TimerList.hard <-> r.soft = false := by
  unfold RtTimer.list
  cases r.soft <;> simp

/-- What the timer functions do to the timer lists. The timeouts of all timers, the height
counter and a bound on the members are passed to the insertion. -/
structure ListOps (L : Type) where
  init : L -> TimerId -> L
  remove : L -> TimerId -> L
  insert : L -> (TimerId -> Tick) -> TimerList -> TimerId -> BitVec 32 -> Nat ->
    Option L
  first : L -> TimerList -> Option TimerId

/-- The part of `timer_thread` that `rt_timer_start` reads. -/
structure TimerThread where
  stat : ThreadStat
  threadTimer : TimerId
deriving DecidableEq, Repr

/-- The globals of `timer.c` and `clock.c`, and as history how many timers were started and
when each was started last. -/
structure State (L : Type) where
  lists : L
  timer : TimerId -> RtTimer
  tick : Tick
  randomNr : BitVec 32
  timerThread : TimerThread
  starts : Nat
  order : TimerId -> Nat

/-!
## The functions of `timer.c`
-/

section Functions

variable {L : Type}

def State.setTimer (s : State L) (t : TimerId) (r : RtTimer) : State L :=
  { s with timer := Function.update s.timer t r }

def State.setActivated (s : State L) (t : TimerId) (b : Bool) : State L :=
  s.setTimer t { s.timer t with activated := b }

def State.timeout (s : State L) (t : TimerId) : Tick :=
  (s.timer t).timeoutTick

def State.Due (s : State L) (current : Tick) (t : TimerId) : Prop :=
  (current - s.timeout t).toNat < rtTickMax / 2

instance (s : State L) (current : Tick) (t : TimerId) :
    Decidable (s.Due current t) :=
  inferInstanceAs (Decidable (_ < _))

@[simp] theorem State.setTimer_timer (s : State L) (t : TimerId) (r : RtTimer) :
    (s.setTimer t r).timer = update s.timer t r := rfl

variable (ops : ListOps L)

def rtTimerRemove (s : State L) (t : TimerId) : State L :=
  { s with lists := ops.remove s.lists t }

def rtTimerInit (s : State L) (t : TimerId) (time : Tick) (periodic soft : Bool) :
    State L :=
  { s.setTimer t
      { timeoutTick := 0, initTick := time, activated := false, periodic, soft }
    with lists := ops.init s.lists t }

def rtTimerListNextTimeout (s : State L) (list : TimerList) : Tick :=
  match ops.first s.lists list with
  | none => BitVec.ofNat 32 rtTickMax
  | some t => s.timeout t

/-- `rt_timer_detach`: the flag stays as it is. -/
def rtTimerDetach (s : State L) (t : TimerId) : State L :=
  rtTimerRemove ops s t

def rtTimerStop (s : State L) (t : TimerId) : State L × RtErr :=
  if (s.timer t).activated then
    ((rtTimerRemove ops s t).setActivated t false, RtErr.eok)
  else (s, RtErr.error)

def resumeTimerThread (s : State L) : State L :=
  if s.timerThread.stat = ThreadStat.suspend then
    let s := (rtTimerStop ops s s.timerThread.threadTimer).1
    { s with timerThread := { s.timerThread with stat := ThreadStat.ready } }
  else s

/-- The end of `rt_timer_start`: the start of a soft timer resumes the timer
thread. -/
def wakeTimerThread (s : State L) (t : TimerId) : State L :=
  if (s.timer t).soft ∧ s.timerThread.stat ≠ ThreadStat.ready then
    resumeTimerThread ops s
  else s

/-- `rt_timer_start` up to the insertion: the timer is unlinked and its timeout
is set. -/
def rtTimerArm (s : State L) (t : TimerId) : State L :=
  let s := (rtTimerRemove ops s t).setActivated t false
  let s := s.setTimer t
    { s.timer t with timeoutTick := s.tick + (s.timer t).initTick }
  { s with randomNr := s.randomNr + 1 }

theorem rtTimerArm_timer (s : State L) (t : TimerId) : (rtTimerArm ops s t).timer = update s.timer t
      { s.timer t with
        timeoutTick := s.tick + (s.timer t).initTick
        activated := false } := by
  simp [rtTimerArm, State.setActivated, rtTimerRemove, State.setTimer]

def State.started (s : State L) (t : TimerId) (lists : L) : State L :=
  { s.setActivated t true with
    lists
    starts := s.starts + 1
    order := Function.update s.order t s.starts }

theorem State.started_timer (s : State L) (t : TimerId) (lists : L) : (s.started t lists).timer =
      update s.timer t { s.timer t with activated := true } := rfl

theorem State.setActivated_timeout (s : State L) (t x : TimerId) (b : Bool) :
    (s.setActivated t b).timeout x = s.timeout x := by
  unfold State.setActivated State.timeout
  rw [State.setTimer_timer]
  by_cases hx : x = t
  · subst hx
    rw [update_self]
  · rw [update_of_ne hx]

theorem State.started_timeout (s : State L) (t : TimerId) (lists : L) (x : TimerId) :
    (s.started t lists).timeout x = s.timeout x :=
  s.setActivated_timeout t x true

/-- `rt_timer_start`.  A list has no more members than timers were started. -/
def rtTimerStart (s : State L) (t : TimerId) : Option (State L) :=
  if (s.timer t).initTick.toNat < rtTickMax / 2 then
    let s := rtTimerArm ops s t
    match ops.insert s.lists s.timeout (s.timer t).list t s.randomNr
        (s.starts + 1) with
    | none => none
    | some lists => some (wakeTimerThread ops (s.started t lists) t)
  else none

theorem rtTimerStart_eq {s : State L} {t : TimerId}
    (hinit : (s.timer t).initTick.toNat < rtTickMax / 2) :
    rtTimerStart ops s t = (ops.insert (rtTimerArm ops s t).lists (rtTimerArm ops s t).timeout
        (s.timer t).list t (s.randomNr + 1) (s.starts + 1)).map
        fun lists => wakeTimerThread ops ((rtTimerArm ops s t).started t lists) t := by
  have hkind : ((rtTimerArm ops s t).timer t).list = (s.timer t).list := by
    rw [rtTimerArm_timer, update_self]
    rfl
  unfold rtTimerStart
  rw [if_pos hinit]
  simp only [hkind]
  show (match ops.insert _ _ _ t (s.randomNr + 1) (s.starts + 1) with
    | none => none
    | some lists => some _) = _
  cases ops.insert (rtTimerArm ops s t).lists (rtTimerArm ops s t).timeout
    (s.timer t).list t (s.randomNr + 1) (s.starts + 1) with
  | none => rfl
  | some lists => rfl

inductive TimerCtrl where
  | getTime
  | setTime (time : Tick)
  | setOneshot
  | setPeriodic
deriving DecidableEq, Repr

/-- `rt_timer_control`, with what it writes to its argument. -/
def rtTimerControl (s : State L) (t : TimerId) : TimerCtrl -> State L × Option Tick
  | TimerCtrl.getTime => (s, some (s.timer t).initTick)
  | TimerCtrl.setTime time =>
    (s.setTimer t { s.timer t with initTick := time }, none)
  | TimerCtrl.setOneshot =>
    (s.setTimer t { s.timer t with periodic := false }, none)
  | TimerCtrl.setPeriodic =>
    (s.setTimer t { s.timer t with periodic := true }, none)

/-- What both checks do when a timeout function has returned. -/
def timeoutReturn (s : State L) (t : TimerId) : Option (State L) :=
  if (s.timer t).periodic ∧ (s.timer t).activated then
    rtTimerStart ops (s.setActivated t false) t
  else some (s.setActivated t false)

end Functions

/-!
## Calls, from threads and from timeout functions
-/

inductive Cmd where
  | init (t : TimerId) (time : Tick) (periodic soft : Bool)
  | start (t : TimerId)
  | stop (t : TimerId)
  | detach (t : TimerId)
  | control (t : TimerId) (c : TimerCtrl)
deriving DecidableEq, Repr

def call {L : Type} (ops : ListOps L) (s : State L) : Cmd -> Option (State L)
  | Cmd.init t time periodic soft => some (rtTimerInit ops s t time periodic soft)
  | Cmd.start t => rtTimerStart ops s t
  | Cmd.stop t => some (rtTimerStop ops s t).1
  | Cmd.detach t => some (rtTimerDetach ops s t)
  | Cmd.control t c => some (rtTimerControl s t c).1

/-- `rt_timer_check` is not running, at the head of its loop with its local `current_tick`,
or in a timeout function. -/
inductive Phase where
  | idle
  | checking (current : Tick)
  | callback (t : TimerId)
deriving DecidableEq, Repr

structure System (L : Type) where
  state : State L
  phase : Phase

/-- Calls are made by threads while no check is running, and by the running timeout
function. `rt_tick_increase` and `rt_timer_check` enter the loop; `round` is one test at its
head, `ret` is the return of the timeout function. -/
inductive Op where
  | call (c : Cmd)
  | tick
  | check
  | round
  | ret
deriving DecidableEq, Repr

def step {L : Type} (ops : ListOps L) (s : System L) : Op -> Option (System L)
  | Op.call c =>
    match s.phase with
    | Phase.checking _ => none
    | _ => (call ops s.state c).map fun x => { s with state := x }
  | Op.tick =>
    if s.phase = Phase.idle then
      some
        { state := { s.state with tick := s.state.tick + 1 }
          phase := Phase.checking (s.state.tick + 1) }
    else none
  | Op.check =>
    if s.phase = Phase.idle then
      some { s with phase := Phase.checking s.state.tick }
    else none
  | Op.round =>
    match s.phase with
    | Phase.checking current =>
      match ops.first s.state.lists TimerList.hard with
      | none => some { s with phase := Phase.idle }
      | some t =>
        if s.state.Due current t then
          some
            { state := rtTimerRemove ops s.state t
              phase := Phase.callback t }
        else some { s with phase := Phase.idle }
    | _ => none
  | Op.ret =>
    match s.phase with
    | Phase.callback t =>
      (timeoutReturn ops s.state t).map fun x =>
        { state := x, phase := Phase.checking x.tick }
    | _ => none

section Steps

variable {L : Type} {ops : ListOps L} {s : System L}

theorem step_call {c : Cmd} (hphase : forall current, s.phase ≠ Phase.checking current) :
    step ops s (Op.call c) = (call ops s.state c).map fun x => { s with state := x } := by
  unfold step
  cases hs : s.phase with
  | checking current => exact absurd hs (hphase current)
  | idle => simp
  | callback t => simp

theorem step_call_checking {c : Cmd} {current : Tick} (hphase : s.phase = Phase.checking current) :
    step ops s (Op.call c) = none := by
  simp [step, hphase]

theorem step_round {current : Tick} (hphase : s.phase = Phase.checking current) :
    step ops s Op.round = some (match ops.first s.state.lists TimerList.hard with
        | none => { s with phase := Phase.idle }
        | some t =>
          if s.state.Due current t then
            { state := rtTimerRemove ops s.state t, phase := Phase.callback t }
          else { s with phase := Phase.idle }) := by
  simp only [step, hphase]
  cases ops.first s.state.lists TimerList.hard with
  | none => rfl
  | some t =>
    by_cases hdue : s.state.Due current t
    · simp only [if_pos hdue]
    · simp only [if_neg hdue]

theorem step_ret {t : TimerId} (hphase : s.phase = Phase.callback t) :
    step ops s Op.ret = (timeoutReturn ops s.state t).map fun x =>
      { state := x, phase := Phase.checking x.tick } := by
  simp [step, hphase]

variable {s' : System L}

theorem step_call_some {c : Cmd} (hs : step ops s (Op.call c) = some s') :
    exists x, call ops s.state c = some x ∧ s' = { s with state := x } := by
  by_cases hchecking : exists current, s.phase = Phase.checking current
  · rcases hchecking with ⟨current, hphase⟩
    rw [step_call_checking hphase] at hs
    cases hs
  · push Not at hchecking
    rw [step_call hchecking, Option.map_eq_some_iff] at hs
    rcases hs with ⟨x, hx, heq⟩
    exact ⟨x, hx, heq.symm⟩

theorem step_tick_some (hs : step ops s Op.tick = some s') : s.phase = Phase.idle ∧ s' =
        { state := { s.state with tick := s.state.tick + 1 }
          phase := Phase.checking (s.state.tick + 1) } := by
  simp only [step] at hs
  split at hs
  · rename_i hidle
    exact ⟨hidle, (Option.some.inj hs).symm⟩
  · cases hs

theorem step_check_some (hs : step ops s Op.check = some s') :
    s.phase = Phase.idle ∧ s' = { s with phase := Phase.checking s.state.tick } := by
  simp only [step] at hs
  split at hs
  · rename_i hidle
    exact ⟨hidle, (Option.some.inj hs).symm⟩
  · cases hs

theorem step_round_checking (hs : step ops s Op.round = some s') :
    exists current, s.phase = Phase.checking current := by
  cases hphase : s.phase with
  | idle => simp [step, hphase] at hs
  | checking current => exact ⟨current, rfl⟩
  | callback t => simp [step, hphase] at hs

theorem step_ret_some (hs : step ops s Op.ret = some s') :
    exists t x, s.phase = Phase.callback t ∧
      timeoutReturn ops s.state t = some x ∧
      s' = { state := x, phase := Phase.checking x.tick } := by
  cases hphase : s.phase with
  | idle => simp [step, hphase] at hs
  | checking current => simp [step, hphase] at hs
  | callback t =>
    rw [step_ret hphase, Option.map_eq_some_iff] at hs
    rcases hs with ⟨x, hx, heq⟩
    exact ⟨t, x, rfl, hx, heq.symm⟩

end Steps

/-!
## The skip list
-/

/-- `RT_TIMER_SKIP_LIST_LEVEL` and `RT_TIMER_SKIP_LIST_MASK` -/
structure SkipConfig where
  level : Nat
  mask : BitVec 32
  level_pos : 0 < level

abbrev RowNode := Node TimerList TimerId

/-- The nodes of row `i`: `rt_timer_list[i]` and `row[i]` of every timer. -/
abbrev Rows := Nat -> Links RowNode

def SkipConfig.bottom (c : SkipConfig) : Nat := c.level - 1

/-- Apply a pointer operation to every row, as the loops over `row[i]` do. -/
def SkipConfig.eachRow (c : SkipConfig) (rows : Rows)
    (f : Links RowNode -> Links RowNode) : Rows :=
  fun i => if i < c.level then f (rows i) else rows i

/-- The comparison of the insertion: the new timer goes behind `t`. -/
def GoesBehind (timeout : TimerId -> Tick) (new t : TimerId) : Prop :=
  timeout t - timeout new = 0 ∨
    ¬ (timeout t - timeout new).toNat < rtTickMax / 2

instance (timeout : TimerId -> Tick) (new t : TimerId) :
    Decidable (GoesBehind timeout new t) :=
  inferInstanceAs (Decidable (_ ∨ _))

/-- The walk along one row.  The entry of a list head is no timer. -/
def walkRow (row : Links RowNode) (timeout : TimerId -> Tick) (list : TimerList)
    (new : TimerId) : Nat -> RowNode -> Option RowNode
  | 0, _ => none
  | fuel + 1, n =>
    if n = row.prev (Node.head list) then some n
    else
      match row.next n with
      | Node.head _ => none
      | Node.member t =>
        if GoesBehind timeout new t then
          walkRow row timeout list new fuel (Node.member t)
        else some n

/-- `row_head[i]` after the walk, which goes on in the row below from the node
where it stopped. -/
def rowHead (rows : Rows) (timeout : TimerId -> Tick) (list : TimerList)
    (new : TimerId) (fuel : Nat) : Nat -> Option RowNode
  | 0 => walkRow (rows 0) timeout list new fuel (Node.head list)
  | i + 1 =>
    match rowHead rows timeout list new fuel i with
    | none => none
    | some n => walkRow (rows (i + 1)) timeout list new fuel n

def insertRow (rows : Rows) (i : Nat) (n : RowNode) (t : TimerId) : Rows :=
  Function.update rows i (rtListInsertAfter (rows i) n (Node.member t))

/-- The insertion into the rows above the bottom row, upwards from row `i - 1`. -/
def insertAbove (mask : BitVec 32) (heads : Nat -> Option RowNode) (t : TimerId) :
    Nat -> BitVec 32 -> Rows -> Option Rows
  | 0, _, rows => some rows
  | i + 1, tstNr, rows =>
    if tstNr &&& mask = 0 then
      match heads i with
      | none => none
      | some n =>
        insertAbove mask heads t i (tstNr >>> ((mask.toNat + 1) / 2))
          (insertRow rows i n t)
    else some rows

def skipList (c : SkipConfig) : ListOps Rows where
  init rows t := c.eachRow rows fun l => rtListInit l (Node.member t)
  remove rows t := c.eachRow rows fun l => rtListRemove l (Node.member t)
  insert rows timeout list t randomNr fuel :=
    let heads := rowHead rows timeout list t fuel
    match heads c.bottom with
    | none => none
    | some n =>
      insertAbove c.mask heads t c.bottom randomNr (insertRow rows c.bottom n t)
  first rows list :=
    match (rows c.bottom).next (Node.head list) with
    | Node.head _ => none
    | Node.member t => some t

/-- A timer is linked when its node in the bottom row is not alone. -/
def SkipConfig.Linked (c : SkipConfig) (s : State Rows) (t : TimerId) : Prop :=
  rtListIsempty (s.lists c.bottom) (Node.member t) = false

instance (c : SkipConfig) (s : State Rows) (t : TimerId) :
    Decidable (c.Linked s t) :=
  inferInstanceAs (Decidable (_ = _))

/-!
## The plain sorted list
-/

/-- Insertion before the first timer with a later timeout. -/
def plainInsert (timeout : TimerId -> Tick) (t : TimerId) :
    List TimerId -> List TimerId
  | [] => [t]
  | x :: rest =>
    if GoesBehind timeout t x then x :: plainInsert timeout t rest
    else t :: x :: rest

def plainList : ListOps (TimerList -> List TimerId) where
  init lists _ := lists
  remove lists t := fun h => (lists h).erase t
  insert lists timeout list t _ _ :=
    some (Function.update lists list (plainInsert timeout t (lists list)))
  first lists list := (lists list).head?

theorem plainList_first (lists : TimerList -> List TimerId) (l : TimerList) :
    plainList.first lists l = (lists l).head? := rfl

end RtThread.Kernel.Timer
