import RtThread.Library.Cyclic

/-!
# RTC alarms

`components/drivers/rtc/alarm.c`, with `gmtime_r` and `mktime` of `minilibc/time.c`.  All
alarms share one alarm register of the RTC: `_container.current` is the alarm for which it
was set.
-/

namespace RtThread.Drivers.Rtc

open Cyclic

/-!
## The calendar
-/

/-- The fields of `struct tm` that alarms read. -/
structure Tm where
  sec : Int
  min : Int
  hour : Int
  mday : Int
  mon : Int
  year : Int
  wday : Int
deriving DecidableEq

def spm : List Nat := [0, 31, 59, 90, 120, 151, 181, 212, 243, 273, 304, 334, 365]

def isleap (year : Nat) : Bool :=
  year % 4 = 0 ∧ (year % 100 ≠ 0 ∨ year % 400 = 0)

/-- The loop of `gmtime_r` over the years, from `year` with `work` days left. -/
def yearOf : Nat -> Nat -> Nat -> Nat × Nat
  | 0, year, work => (year, work)
  | fuel + 1, year, work =>
    let k := if isleap year then 366 else 365
    if k ≤ work then yearOf fuel (year + 1) (work - k) else (year, work)

/-- The loop of `gmtime_r` over the months. -/
def monthOf (work : Nat) : Nat -> Nat
  | 0 => 0
  | i + 1 => if work < spm.getD (i + 1) 0 then monthOf work i else i + 1

def gmtimeR (t : Nat) : Tm :=
  let work := t % 86400
  let days := t / 86400
  -- every round takes a day at least
  let (year, left) := yearOf days 1970 days
  let leapDay := isleap year ∧ left = 59
  let left := if isleap year ∧ 58 < left then left - 1 else left
  let mon := monthOf left 11
  { sec := (work % 60 : Nat)
    min := (work / 60 % 60 : Nat)
    hour := (work / 60 / 60 : Nat)
    mday := (if leapDay then 2 else 1) + (left : Int) - (spm.getD mon 0 : Nat)
    mon := mon
    year := (year : Int) - 1900
    wday := ((4 + days) % 7 : Nat) }

def localtimeR (t : Nat) : Tm := gmtimeR t

/-- `mktime` of a date whose fields are in their ranges. -/
def mktime (t : Tm) : Int :=
  if t.year < 70 then -1
  else
    let years := t.year - 70
    let day := years * 365 + (years + 1) / 4
    let day :=
      if 131 ≤ years then
        let centuries := (years - 131) / 100
        let rest := if centuries % 4 = 3 then 2 else centuries % 4
        day - (centuries / 4 * 3 + 1) - rest
      else day
    let yday := (spm.getD t.mon.toNat 0 : Int) + t.mday - 1 +
      if isleap (t.year + 1900).toNat ∧ 1 < t.mon then 1 else 0
    (((day + yday) * 24 + t.hour) * 60 + t.min) * 60 + t.sec

def alarmMkdaysec (time : Tm) : Int := time.sec + time.min * 60 + time.hour * 3600

def daysOfYearMonth (year mon : Int) : Int :=
  let y := year + 1900
  if mon = 1 then 28 + if y % 4 = 0 ∧ y % 100 ≠ 0 ∨ y % 400 = 0 then 1 else 0
  else if mon ≤ 6 ∧ mon % 2 = 0 ∨ 6 < mon ∧ mon % 2 = 1 then 31
  else 30

def isValidDate (date : Tm) : Bool :=
  (0 ≤ date.year ∧ date.year ≤ 137) ∧ (0 ≤ date.mon ∧ date.mon ≤ 11) ∧
    1 ≤ date.mday ∧ date.mday ≤ daysOfYearMonth date.year date.mon

/-!
## Alarms
-/

/-- The flags `0xFF00` of an alarm. -/
inductive Mode where
  | oneshot
  | daily
  | weekly
  | monthly
  | yearly
  | unknown
deriving DecidableEq

/-- `struct rt_alarm`: `inited` and `started` are the flags `RT_ALARM_STATE_INITED` and
`RT_ALARM_STATE_START`. -/
structure Alarm where
  mode : Mode
  inited : Bool
  started : Bool
  callback : Bool
  wktime : Tm

structure Wkalarm where
  enable : Bool
  sec : Int
  min : Int
  hour : Int

/-- `_container` with its alarms, newest first, the clock, what was last written to the
alarm register and for which alarm, and the callbacks made. -/
structure Container where
  alarms : List (Nat × Alarm)
  current : Option Nat
  programmed : Option (Nat × Wkalarm)
  called : List Nat
  now : Nat

def Alarm.daysec (a : Alarm) : Int := alarmMkdaysec a.wktime

/-- What `alarm_set` writes to the RTC. -/
def Alarm.wkalarm (a : Alarm) : Wkalarm :=
  ⟨a.started, a.wktime.sec, a.wktime.min, a.wktime.hour⟩

namespace Container

def find (s : Container) (p : Nat) : Option Alarm := s.alarms.lookup p

def setAlarm (s : Container) (p : Nat) (a : Alarm) : Container :=
  { s with alarms := s.alarms.map fun x => if x.1 = p then (p, a) else x }

def clock (s : Container) : Tm := localtimeR s.now

end Container

/-- The time of day, with the value of the present for what is out of range. -/
def setupTime (now wktime : Tm) : Tm :=
  { wktime with
    sec := if wktime.sec > 59 ∨ wktime.sec < 0 then now.sec else wktime.sec
    min := if wktime.min > 59 ∨ wktime.min < 0 then now.min else wktime.min
    hour := if wktime.hour > 23 ∨ wktime.hour < 0 then now.hour else wktime.hour }

/-- The switch of `alarm_setup` over the mode; it fails for a date that does not exist and for
a mode that does not. -/
def setupDate (mode : Mode) (now setup : Tm) : Tm × Bool :=
  match mode with
  | Mode.daily => (setup, true)
  | Mode.oneshot =>
    let setup : Tm :=
      { setup with
        year := if setup.year = -1 then now.year else setup.year
        mon := if setup.mon = -1 then now.mon else setup.mon
        mday := if setup.mday = -1 then now.mday else setup.mday }
    (setup, isValidDate setup)
  | Mode.weekly =>
    ({ setup with wday := if setup.wday < 0 ∨ setup.wday > 6 then now.wday else setup.wday },
      true)
  | Mode.monthly =>
    ({ setup with mday := if setup.mday < 1 ∨ setup.mday > 31 then now.mday else setup.mday },
      true)
  | Mode.yearly =>
    let setup : Tm :=
      { setup with mon := if setup.mon < 0 ∨ setup.mon > 11 then now.mon else setup.mon }
    let last : Int := if setup.mon = 1 then 29
      else if setup.mon ≤ 6 ∧ setup.mon % 2 = 0 ∨ 6 < setup.mon ∧ setup.mon % 2 = 1 then 31
      else 30
    ({ setup with mday := if setup.mday < 1 ∨ setup.mday > last then now.mday else setup.mday },
      true)
  | Mode.unknown => (setup, false)

/-- The last second of the day is moved two seconds ahead of midnight. -/
def insure (setup : Tm) : Tm :=
  if setup.hour = 23 ∧ setup.min = 59 ∧ setup.sec = 59 then { setup with sec := 58 } else setup

/-- `alarm_setup`, with whether it succeeds. -/
def alarmSetup (now : Tm) (a : Alarm) (wktime : Tm) : Alarm × Bool :=
  let (setup, ok) := setupDate a.mode now (setupTime now wktime)
  if ok then ({ a with wktime := insure setup, inited := true }, true)
  else ({ a with wktime := setup }, false)

/-- At most `RT_ALARM_DELAY` behind, in unsigned arithmetic. -/
def overdue (now alarm : Int) : Bool := (now - alarm) % 2 ^ 32 ≤ 2

/-- Whether `alarm_wakeup` wakes the user of an alarm up. -/
def wakesUp (now : Tm) (a : Alarm) : Bool :=
  let secAlarm := a.daysec
  let secNow := alarmMkdaysec now
  a.started && match a.mode with
  | Mode.oneshot =>
    let secAlarm := mktime a.wktime % 2 ^ 32
    let secNow := mktime now % 2 ^ 32
    overdue secNow secAlarm && secAlarm ≤ secNow
  | Mode.daily => overdue secNow secAlarm && secAlarm ≤ secNow
  | Mode.weekly =>
    let secAlarm := secAlarm + a.wktime.wday * 24 * 3600
    let secNow := secNow + now.wday * 24 * 3600
    overdue secNow secAlarm && secAlarm ≤ secNow
  | Mode.monthly => a.wktime.mday = now.mday && overdue secNow secAlarm
  | Mode.yearly =>
    a.wktime.mday = now.mday && a.wktime.mon = now.mon && overdue secNow secAlarm
  | Mode.unknown => false

/-- A one-shot alarm stops itself when it wakes its user up. -/
def stopsItself (now : Tm) (a : Alarm) : Bool := a.mode = Mode.oneshot && wakesUp now a

def alarmWakeup (now : Tm) (a : Alarm) : Alarm :=
  if stopsItself now a then { a with started := false } else a

/-- The three comparisons of `rt_alarm_start`. -/
def comesFirst (secNow secOld secNew : Int) : Bool :=
  (secNew < secOld ∧ secNew > secNow) ∨ (secNew > secNow ∧ secOld < secNow) ∨
    (secNew < secOld ∧ secOld < secNow)

/-- One round of the search loop of `alarm_update`. -/
def pick (secNow : Int) (current : Option Nat) (found : Search Nat) (x : Nat × Alarm) :
    Search Nat :=
  if x.2.started ∧ current ≠ some x.1 then found.visit secNow (x.2.daysec, x.1) else found

/-!
## The functions of the service

`rtc` is what the driver answers to `RT_DEVICE_CTRL_RTC_GET_ALARM` after an alarm was set; both
controls succeed.  Callbacks do not call the service.
-/

section Service

variable (rtc : Wkalarm -> Wkalarm)

namespace Container

def alarmSet (s : Container) (p : Nat) : Container :=
  match s.find p with
  | none => s
  | some a =>
    let set := { s with programmed := some (p, a.wkalarm) }
    if a.started then
      let w := rtc a.wkalarm
      set.setAlarm p
        { a with wktime := { a.wktime with sec := w.sec, min := w.min, hour := w.hour } }
    else set

/-- The first loop of `alarm_update`. -/
def wakeups (s : Container) : Container :=
  { s with
    alarms := s.alarms.map fun x => (x.1, alarmWakeup s.clock x.2)
    programmed := s.alarms.foldl (fun w x =>
      if stopsItself s.clock x.2 then some (x.1, (alarmWakeup s.clock x.2).wkalarm) else w)
        s.programmed
    called := s.called ++
      (s.alarms.filter fun x => x.2.callback && wakesUp s.clock x.2).map Prod.fst }

/-- The second loop of `alarm_update`: the first alarm after now, or else of the next day. -/
def search (s : Container) : Option Nat :=
  (s.alarms.foldl (pick (alarmMkdaysec s.clock) s.current) (Search.start (24 * 3600))).result
    (24 * 3600)

def alarmUpdate (s : Container) : Container :=
  if s.alarms.isEmpty then s
  else
    match s.wakeups.search with
    | some p => { s.wakeups.alarmSet rtc p with current := some p }
    | none => s.wakeups

def rtAlarmCreate (s : Container) (p : Nat) (mode : Mode) (callback : Bool) (wktime : Tm) :
    Container :=
  { s with alarms := (p, ⟨mode, false, false, callback, wktime⟩) :: s.alarms }

/-- The alarm as `rt_alarm_start` has set it up. -/
def ready (s : Container) (a : Alarm) : Alarm × Bool :=
  if a.inited then (a, true) else alarmSetup s.clock a a.wktime

/-- Whether `rt_alarm_start` sets the alarm that it has marked as started. -/
def takesOver (s : Container) (a : Alarm) : Bool :=
  match s.current with
  | none => true
  | some c =>
    match s.find c with
    | none => true
    | some old => comesFirst (alarmMkdaysec s.clock) old.daysec a.daysec

/-- The result says whether the code returns `RT_EOK`, also below. -/
def rtAlarmStart (s : Container) (p : Nat) (a : Alarm) : Container × Bool :=
  let (a, ok) := s.ready a
  if ok = false ∨ a.started then (s.setAlarm p a, false)
  else
    let s := s.setAlarm p { a with started := true }
    if s.takesOver a then ({ s.alarmSet rtc p with current := some p }, true) else (s, true)

/-- A current alarm that was stopped is taken from the RTC, and the next one is set. -/
def giveUp (s : Container) (p : Nat) : Container × Bool :=
  if s.current = some p then
    (alarmUpdate rtc { s.alarmSet rtc p with current := none }, true)
  else (s, false)

def rtAlarmStop (s : Container) (p : Nat) (a : Alarm) : Container × Bool :=
  if a.started then (s.setAlarm p { a with started := false }).giveUp rtc p else (s, false)

def rtAlarmDelete (s : Container) (p : Nat) (a : Alarm) : Container × Bool :=
  let (s, ok) := (s.setAlarm p { a with started := false }).giveUp rtc p
  ({ s with alarms := s.alarms.filter fun x => x.1 ≠ p }, ok)

/-- `rt_alarm_control` with `RT_ALARM_CTRL_MODIFY` -/
def rtAlarmModify (s : Container) (p : Nat) (a : Alarm) (mode : Mode) (wktime : Tm) :
    Container × Bool :=
  let s := (s.rtAlarmStop rtc p a).1
  let (b, ok) := alarmSetup s.clock
    { mode := mode, inited := false, started := false, callback := a.callback, wktime := wktime }
    wktime
  (s.setAlarm p b, ok)

end Container

/-- `advance` is the clock alone, `update` the clock and a run of the service thread. -/
inductive Act where
  | create (p : Nat) (mode : Mode) (callback : Bool) (wktime : Tm)
  | start (p : Nat)
  | stop (p : Nat)
  | delete (p : Nat)
  | modify (p : Nat) (mode : Mode) (wktime : Tm)
  | advance (seconds : Nat)
  | update (seconds : Nat)

def step (s : Container) : Act -> Option Container
  | Act.create p mode callback wktime =>
    match s.find p with
    | none => some (s.rtAlarmCreate p mode callback wktime)
    | some _ => none
  | Act.start p => (s.find p).map fun a => (s.rtAlarmStart rtc p a).1
  | Act.stop p => (s.find p).map fun a => (s.rtAlarmStop rtc p a).1
  | Act.delete p => (s.find p).map fun a => (s.rtAlarmDelete rtc p a).1
  | Act.modify p mode wktime => (s.find p).map fun a => (s.rtAlarmModify rtc p a mode wktime).1
  | Act.advance seconds => some { s with now := s.now + seconds }
  | Act.update seconds => some (Container.alarmUpdate rtc { s with now := s.now + seconds })

end Service

/-- `rt_alarm_system_init` at a time of the clock. -/
def init (now : Nat) : Container := ⟨[], none, none, [], now⟩

end RtThread.Drivers.Rtc
