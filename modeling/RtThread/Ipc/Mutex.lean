import RtThread.Ipc.Waiting

/-!
# Mutexes

`rt_mutex_take` and `rt_mutex_release` over any number of mutexes and threads.
A take that blocks is one step up to its call of `rt_schedule` and a second one
when the thread runs again; in between the thread is suspended, or it has been
resumed by a hand-over or by its timer.
-/

namespace RtThread.Ipc.Mutex

open Kernel
open Function (update update_eq_self update_idem update_of_ne update_self)

abbrev Mid := Nat

structure RtMutex where
  value : Nat
  originalPriority : Nat
  hold : Nat
  owner : Option Tid
  flag : IpcFlag
  suspendThread : List Tid
deriving DecidableEq, Repr

inductive Pc where
  | idle
  | taking (m : Mid)
deriving DecidableEq, Repr

structure State where
  thread : Threads
  mutex : Mid -> RtMutex
  pc : Tid -> Pc

def State.setMutex (s : State) (m : Mid) (mutex : RtMutex) : State :=
  { s with mutex := Function.update s.mutex m mutex }

/-!
## Operations

A result `none` inside the pair says that the call has not returned yet.
-/

def holdInc (n : Nat) : Nat := (n + 1) % 2 ^ 8

def holdDec (n : Nat) : Nat := (n + (2 ^ 8 - 1)) % 2 ^ 8

/-- The branch of `rt_mutex_take` that waits, up to `rt_schedule`. A null owner is not
followed, and a period that `rt_timer_start` asserts against not started. -/
def takeBlock (s : State) (t : Tid) (m : Mid) (time : Int) :
    Option (State × Option RtErr) :=
  let mutex := s.mutex m
  match mutex.owner with
  | none => none
  | some owner =>
    let priority := (s.thread t).currentPriority
    let v :=
      if priority < (s.thread owner).currentPriority then
        threadChangePriority s.thread owner priority
      else s.thread
    let v := threadSuspend v t
    let mutex := { mutex with
      suspendThread := suspendInto v mutex.flag t mutex.suspendThread }
    let s := { s.setMutex m mutex with
      thread := v, pc := Function.update s.pc t (Pc.taking m) }
    if 0 < time then
      if time.toNat < rtTickMax / 2 then
        some ({ s with thread := startTimer v t }, none)
      else none
    else some (s, none)

def rtMutexTake (s : State) (t : Tid) (m : Mid) (time : Int) :
    Option (State × Option RtErr) :=
  let s := { s with thread := setError s.thread t RtErr.eok }
  let mutex := s.mutex m
  if mutex.owner = some t then
    some (s.setMutex m { mutex with hold := holdInc mutex.hold },
      some RtErr.eok)
  else if 0 < mutex.value then
    some (s.setMutex m { mutex with
      value := mutex.value - 1
      owner := some t
      originalPriority := (s.thread t).currentPriority
      hold := holdInc mutex.hold }, some RtErr.eok)
  else if time = 0 then
    some ({ s with thread := setError s.thread t RtErr.etimeout },
      some RtErr.etimeout)
  else takeBlock s t m time

def takeReturn (s : State) (t : Tid) : State × Option RtErr :=
  ({ s with pc := Function.update s.pc t Pc.idle }, some (s.thread t).error)

/-- The part of `rt_mutex_release` that gives the mutex away. -/
def releaseLast (s : State) (m : Mid) (mutex : RtMutex) : State :=
  match mutex.suspendThread with
  | w :: rest =>
    let resumed := (s.thread w).stat = ThreadStat.suspend
    { s.setMutex m { mutex with
        owner := some w
        originalPriority := (s.thread w).currentPriority
        hold := holdInc mutex.hold
        suspendThread := if resumed then rest else w :: rest } with
      thread := threadResume s.thread w }
  | [] =>
    s.setMutex m { mutex with
      value := (mutex.value + 1) % 2 ^ 16
      owner := none
      originalPriority := 0xff }

def rtMutexRelease (s : State) (t : Tid) (m : Mid) : State × RtErr :=
  let mutex := s.mutex m
  if some t ≠ mutex.owner then
    ({ s with thread := setError s.thread t RtErr.error }, RtErr.error)
  else
    let mutex := { mutex with hold := holdDec mutex.hold }
    if mutex.hold = 0 then
      let v :=
        if mutex.originalPriority ≠ (s.thread t).currentPriority then
          threadChangePriority s.thread t mutex.originalPriority
        else s.thread
      (releaseLast { s with thread := v } m mutex, RtErr.eok)
    else (s.setMutex m mutex, RtErr.eok)

/-- The timer of a waiting thread runs out: `rt_thread_timeout` unlinks the
thread from the list it waits in. -/
def timeout (s : State) (t : Tid) : State :=
  { s with
    thread := threadTimeout s.thread t
    mutex := fun m => { s.mutex m with
      suspendThread := (s.mutex m).suspendThread.erase t } }

/-!
## Runs
-/

inductive Op where
  | take (t : Tid) (m : Mid) (time : Int)
  | takeReturn (t : Tid)
  | release (t : Tid) (m : Mid)
  | timeout (t : Tid)
deriving DecidableEq, Repr

def runs (s : State) (t : Tid) (pc : Pc -> Bool) : Bool :=
  decide ((s.thread t).stat = ThreadStat.ready) && pc (s.pc t)

def Pc.isIdle : Pc -> Bool
  | Pc.idle => true
  | Pc.taking _ => false

def step (s : State) : Op -> Option State
  | Op.take t m time =>
    if runs s t Pc.isIdle then (rtMutexTake s t m time).map Prod.fst else none
  | Op.takeReturn t =>
    if runs s t (fun pc => ! pc.isIdle) then some (takeReturn s t).1 else none
  | Op.release t m =>
    if runs s t Pc.isIdle then some (rtMutexRelease s t m).1 else none
  | Op.timeout t =>
    if (s.thread t).timerLinked ∧ (s.thread t).stat = ThreadStat.suspend then
      some (timeout s t)
    else none

/-- Every mutex as `rt_mutex_init` leaves it, and every thread started. -/
structure Booted (s : State) : Prop where
  thread : forall t, (s.thread t).stat = ThreadStat.ready ∧
    (s.thread t).currentPriority = (s.thread t).initPriority ∧
    (s.thread t).timerLinked = false
  mutex : forall m, exists flag, s.mutex m =
    { value := 1, originalPriority := 0xff, hold := 0, owner := none,
      flag := flag, suspendThread := [] }
  pc : forall t, s.pc t = Pc.idle

def bootState (priority : Tid -> Nat) (flag : IpcFlag) : State :=
  { thread := fun t =>
      { stat := ThreadStat.ready
        currentPriority := priority t
        initPriority := priority t
        error := RtErr.eok
        timerLinked := false }
    mutex := fun _ =>
      { value := 1
        originalPriority := 0xff
        hold := 0
        owner := none
        flag := flag
        suspendThread := [] }
    pc := fun _ => Pc.idle }

theorem bootState_booted (priority : Tid -> Nat) (flag : IpcFlag) :
    Booted (bootState priority flag) := by
  constructor
  · intro t
    exact ⟨rfl, rfl, rfl⟩
  · intro m
    exact ⟨flag, rfl⟩
  · intro t
    rfl

/-!
## What a step does
-/

/-- The invariant of the suspend lists, the owners and the values, which the
counter of nested takes has no part in. -/
structure Consistent (s : State) : Prop where
  blocked : forall m t, t ∈ (s.mutex m).suspendThread <->
    (s.thread t).stat = ThreadStat.suspend ∧ s.pc t = Pc.taking m
  nodup : forall m, (s.mutex m).suspendThread.Nodup
  owned : forall m, (s.mutex m).owner = none ->
    (s.mutex m).value = 1 ∧ (s.mutex m).hold = 0 ∧
      (s.mutex m).suspendThread = []
  taken : forall m t, (s.mutex m).owner = some t ->
    (s.mutex m).value = 0 ∧ t ∉ (s.mutex m).suspendThread
  timer : forall t, (s.thread t).timerLinked = true ->
    (s.thread t).stat = ThreadStat.suspend
  result : forall m t, s.pc t = Pc.taking m ->
    ((s.thread t).error = RtErr.eok <->
      (s.thread t).stat = ThreadStat.suspend ∨ (s.mutex m).owner = some t)

/-- The branches of the operations, with all that each of them changes. -/
inductive Effect (s : State) : Op -> State -> Prop where
  | nested {t : Tid} {m : Mid} {time : Int}
      (hidle : s.pc t = Pc.idle)
      (howner : (s.mutex m).owner = some t) :
      Effect s (Op.take t m time)
        { s with
          thread := setError s.thread t RtErr.eok
          mutex := Function.update s.mutex m { s.mutex m with
            hold := holdInc (s.mutex m).hold } }
  | acquire {t : Tid} {m : Mid} {time : Int}
      (hidle : s.pc t = Pc.idle)
      (hready : (s.thread t).stat = ThreadStat.ready)
      (howner : (s.mutex m).owner = none) :
      Effect s (Op.take t m time)
        { s with
          thread := setError s.thread t RtErr.eok
          mutex := Function.update s.mutex m { s.mutex m with
            value := 0
            originalPriority := (s.thread t).currentPriority
            hold := 1
            owner := some t } }
  | refuse {t : Tid} {m : Mid}
      (hidle : s.pc t = Pc.idle)
      (howner : (s.mutex m).owner ≠ some t) :
      Effect s (Op.take t m 0)
        { s with thread := setError s.thread t RtErr.etimeout }
  | block {t o : Tid} {m : Mid} {time : Int} {v : Threads} {linked : Bool}
      (hidle : s.pc t = Pc.idle)
      (hready : (s.thread t).stat = ThreadStat.ready)
      (howner : (s.mutex m).owner = some o)
      (hne : o ≠ t) (htime : time ≠ 0)
      (hlinked : linked = true <-> 0 < time) :
      Effect s (Op.take t m time)
        { s with
          thread := Function.update (threadChangePriority s.thread o
              (min (s.thread t).currentPriority
                (s.thread o).currentPriority)) t
            { s.thread t with
              stat := ThreadStat.suspend
              error := RtErr.eok
              timerLinked := linked }
          mutex := Function.update s.mutex m { s.mutex m with
            suspendThread := suspendInto v (s.mutex m).flag t
              (s.mutex m).suspendThread }
          pc := Function.update s.pc t (Pc.taking m) }
  | takeReturn {t : Tid}
      (hready : (s.thread t).stat = ThreadStat.ready) :
      Effect s (Op.takeReturn t) { s with pc := Function.update s.pc t Pc.idle }
  | deny {t : Tid} {m : Mid}
      (hidle : s.pc t = Pc.idle)
      (howner : (s.mutex m).owner ≠ some t) :
      Effect s (Op.release t m)
        { s with thread := setError s.thread t RtErr.error }
  | unnest {t : Tid} {m : Mid}
      (hidle : s.pc t = Pc.idle)
      (howner : (s.mutex m).owner = some t)
      (hhold : holdDec (s.mutex m).hold ≠ 0) :
      Effect s (Op.release t m)
        { s with
          mutex := Function.update s.mutex m { s.mutex m with
            hold := holdDec (s.mutex m).hold } }
  | free {t : Tid} {m : Mid}
      (hidle : s.pc t = Pc.idle)
      (hready : (s.thread t).stat = ThreadStat.ready)
      (howner : (s.mutex m).owner = some t)
      (hhold : holdDec (s.mutex m).hold = 0)
      (hlist : (s.mutex m).suspendThread = []) :
      Effect s (Op.release t m)
        { s with
          thread := threadChangePriority s.thread t
            (s.mutex m).originalPriority
          mutex := Function.update s.mutex m { s.mutex m with
            value := 1
            originalPriority := 0xff
            hold := 0
            owner := none } }
  | handOver {t w : Tid} {m : Mid} {rest : List Tid}
      (hidle : s.pc t = Pc.idle)
      (hready : (s.thread t).stat = ThreadStat.ready)
      (howner : (s.mutex m).owner = some t)
      (hhold : holdDec (s.mutex m).hold = 0)
      (hlist : (s.mutex m).suspendThread = w :: rest)
      (hne : w ≠ t) :
      Effect s (Op.release t m)
        { s with
          thread := Function.update (threadChangePriority s.thread t
            (s.mutex m).originalPriority) w
            { s.thread w with stat := ThreadStat.ready, timerLinked := false }
          mutex := Function.update s.mutex m { s.mutex m with
            originalPriority := (s.thread w).currentPriority
            hold := 1
            owner := some w
            suspendThread := rest } }
  | timeout {t : Tid}
      (hstat : (s.thread t).stat = ThreadStat.suspend) :
      Effect s (Op.timeout t) (timeout s t)

variable {s s' : State} {op : Op} {t : Tid} {m : Mid}

theorem runs_idle (hrun : runs s t Pc.isIdle = true) :
    (s.thread t).stat = ThreadStat.ready ∧ s.pc t = Pc.idle := by
  unfold runs at hrun
  rw [Bool.and_eq_true, decide_eq_true_eq] at hrun
  refine ⟨hrun.left, ?_⟩
  cases hpc : s.pc t with
  | idle => rfl
  | taking m =>
    rw [hpc] at hrun
    cases hrun.right

variable {v : Threads} {time : Int}

theorem changePriority_self {p : Nat}
    (hp : p = (v t).currentPriority) : threadChangePriority v t p = v := by
  subst hp
  exact update_eq_self t v

theorem suspend_after_boost {o : Tid} {p : Nat}
    (hready : (v t).stat = ThreadStat.ready) (hne : o ≠ t) :
    threadSuspend (threadChangePriority (setError v t RtErr.eok) o p) t =
      update (threadChangePriority v o p) t { v t with
          stat := ThreadStat.suspend
          error := RtErr.eok
          timerLinked := false } := by
  have hself : threadChangePriority (setError v t RtErr.eok) o p t =
      { v t with error := RtErr.eok } := by
    unfold threadChangePriority setError
    rw [update_of_ne (Ne.symm hne), update_self]
  unfold threadSuspend
  rw [hself, if_neg (by simp [hready])]
  funext x
  by_cases hx : x = t
  · subst hx
    rw [update_self, update_self]
  · rw [update_of_ne hx, update_of_ne hx]
    unfold threadChangePriority setError
    rw [update_of_ne hne]
    by_cases hxo : x = o
    · subst hxo
      rw [update_self, update_self]
    · rw [update_of_ne hxo, update_of_ne hxo, update_of_ne hx]

theorem takeBlock_effect {e : Option RtErr} (hready : (s.thread t).stat = ThreadStat.ready)
    (hidle : s.pc t = Pc.idle) (hne : (s.mutex m).owner ≠ some t)
    (htime : time ≠ 0)
    (hs : takeBlock { s with thread := setError s.thread t RtErr.eok } t m time = some (s', e)) :
    Effect s (Op.take t m time) s' := by
  unfold takeBlock at hs
  simp only at hs
  cases howner : (s.mutex m).owner with
  | none =>
    rw [howner] at hs
    cases hs
  | some o =>
    have hot : o ≠ t := by
      intro heq
      exact hne (by rw [howner, heq])
    rw [howner] at hs
    simp only at hs
    have hboost : (if (setError s.thread t RtErr.eok t).currentPriority <
          (setError s.thread t RtErr.eok o).currentPriority then
        threadChangePriority (setError s.thread t RtErr.eok) o
          (setError s.thread t RtErr.eok t).currentPriority
        else setError s.thread t RtErr.eok) =
        threadChangePriority (setError s.thread t RtErr.eok) o (min (s.thread t).currentPriority
            (s.thread o).currentPriority) := by
      have ht : (setError s.thread t RtErr.eok t).currentPriority =
          (s.thread t).currentPriority := by
        simp [setError]
      have ho : (setError s.thread t RtErr.eok o).currentPriority =
          (s.thread o).currentPriority := by
        simp [setError, hot]
      rw [ht, ho]
      split
      · rw [min_eq_left (by omega)]
      · rw [min_eq_right (by omega), changePriority_self ho.symm]
    rw [hboost, suspend_after_boost hready hot] at hs
    split at hs
    · rename_i hpos
      split at hs
      · cases hs
        have hstart : startTimer (update (threadChangePriority
            s.thread o (min (s.thread t).currentPriority (s.thread o).currentPriority)) t
            { s.thread t with
              stat := ThreadStat.suspend
              error := RtErr.eok
              timerLinked := false }) t = _ := update_idem ..
        rw [hstart, update_self, ← howner]
        exact Effect.block hidle hready howner hot htime (iff_of_true rfl hpos)
      · cases hs
    · rename_i hpos
      cases hs
      rw [← howner]
      exact Effect.block hidle hready howner hot htime (iff_of_false Bool.false_ne_true hpos)

theorem take_effect (hc : Consistent s) {e : Option RtErr}
    (hready : (s.thread t).stat = ThreadStat.ready)
    (hidle : s.pc t = Pc.idle)
    (hs : rtMutexTake s t m time = some (s', e)) :
    Effect s (Op.take t m time) s' := by
  unfold rtMutexTake at hs
  simp only at hs
  split at hs
  · rename_i howner
    cases hs
    exact Effect.nested hidle howner
  · rename_i howner
    split at hs
    · rename_i hvalue
      have hnone : (s.mutex m).owner = none := by
        cases hown : (s.mutex m).owner with
        | none => rfl
        | some o =>
          rw [(hc.taken m o hown).left] at hvalue
          cases hvalue
      rcases hc.owned m hnone with ⟨hone, hzero, hnil⟩
      cases hs
      rw [hone, hzero]
      simp only [setError, update_self]
      exact Effect.acquire hidle hready hnone
    · split at hs
      · rename_i htime
        subst htime
        cases hs
        rw [setError_setError]
        exact Effect.refuse hidle howner
      · rename_i htime
        exact takeBlock_effect hready hidle howner htime hs

theorem release_effect (hc : Consistent s) (hready : (s.thread t).stat = ThreadStat.ready)
    (hidle : s.pc t = Pc.idle) :
    Effect s (Op.release t m) (rtMutexRelease s t m).1 := by
  unfold rtMutexRelease
  simp only
  split
  · rename_i howner
    exact Effect.deny hidle (Ne.symm howner)
  · rename_i howner
    have hown : (s.mutex m).owner = some t := by
      rw [ne_eq, not_not] at howner
      exact howner.symm
    split
    · rename_i hhold
      have hprio : (if (s.mutex m).originalPriority ≠ (s.thread t).currentPriority then
          threadChangePriority s.thread t (s.mutex m).originalPriority
          else s.thread) =
          threadChangePriority s.thread t (s.mutex m).originalPriority := by
        split
        · rfl
        · rename_i hsame
          rw [ne_eq, not_not] at hsame
          exact (changePriority_self hsame).symm
      rw [hprio]
      unfold releaseLast
      rcases hc.taken m t hown with ⟨hvalue, hnot⟩
      cases hlist : (s.mutex m).suspendThread with
      | nil =>
        simp only [hvalue, hhold]
        rw [← hlist]
        exact Effect.free hidle hready hown hhold hlist
      | cons w rest =>
        have hin : w ∈ (s.mutex m).suspendThread := by
          rw [hlist]
          exact List.mem_cons_self
        have hne : w ≠ t := by
          intro heq
          exact hnot (heq ▸ hin)
        have hself : threadChangePriority s.thread t (s.mutex m).originalPriority w = s.thread w :=
          update_of_ne hne ..
        have hstat := ((hc.blocked m w).mp hin).left
        simp only [hhold, hself, hstat, if_true]
        unfold threadResume
        rw [hself, if_neg (by simp [hstat])]
        exact Effect.handOver hidle hready hown hhold hlist hne
    · rename_i hhold
      exact Effect.unnest hidle hown hhold

theorem step_effect (hc : Consistent s) (hs : step s op = some s') : Effect s op s' := by
  cases op with
  | take t m time =>
    unfold step at hs
    simp only at hs
    split at hs
    · rename_i hrun
      rw [Option.map_eq_some_iff] at hs
      rcases hs with ⟨⟨s1, e⟩, htake, heq⟩
      cases heq
      exact take_effect hc (runs_idle hrun).left (runs_idle hrun).right htake
    · cases hs
  | takeReturn t =>
    unfold step at hs
    simp only at hs
    split at hs
    · rename_i hrun
      unfold runs at hrun
      rw [Bool.and_eq_true, decide_eq_true_eq] at hrun
      cases hs
      exact Effect.takeReturn hrun.left
    · cases hs
  | release t m =>
    unfold step at hs
    simp only at hs
    split at hs
    · rename_i hrun
      cases hs
      exact release_effect hc (runs_idle hrun).left (runs_idle hrun).right
    · cases hs
  | timeout t =>
    unfold step at hs
    simp only at hs
    split at hs
    · rename_i htimer
      cases hs
      exact Effect.timeout htimer.right
    · cases hs

/-!
## The invariant
-/

theorem Consistent.not_waiting (hc : Consistent s) (hidle : s.pc t = Pc.idle) :
    t ∉ (s.mutex m).suspendThread := by
  intro hin
  have htaking := ((hc.blocked m t).mp hin).right
  rw [hidle] at htaking
  cases htaking

theorem ne_of_taking {u : Tid} (hidle : s.pc t = Pc.idle)
    (htaking : s.pc u = Pc.taking m) : u ≠ t := by
  rintro rfl
  rw [hidle] at htaking
  cases htaking

theorem Consistent.setThread (hc : Consistent s) (hstat : forall u, (v u).stat = (s.thread u).stat)
    (hlinked : forall u, (v u).timerLinked = (s.thread u).timerLinked)
    (herror : forall k u, s.pc u = Pc.taking k -> (v u).error = (s.thread u).error) :
    Consistent { s with thread := v } := by
  constructor
  · intro k u
    rw [hstat]
    exact hc.blocked k u
  · exact hc.nodup
  · exact hc.owned
  · exact hc.taken
  · intro u htimer
    rw [hlinked] at htimer
    rw [hstat]
    exact hc.timer u htimer
  · intro k u htaking
    rw [herror k u htaking, hstat]
    exact hc.result k u htaking

theorem Consistent.setError (hc : Consistent s) (hidle : s.pc t = Pc.idle)
    (e : RtErr) : Consistent { s with thread := setError s.thread t e } := by
  apply hc.setThread
  · intro u
    exact setError_stat
  · intro u
    exact setError_timerLinked
  · intro k u htaking
    exact congrArg WaitThread.error (setError_of_ne (ne_of_taking hidle htaking))

theorem Consistent.changePriority (hc : Consistent s) (o : Tid) (p : Nat) :
    Consistent { s with thread := threadChangePriority s.thread o p } := by
  have hview : forall u, threadChangePriority s.thread o p u = { s.thread u with
        currentPriority := (threadChangePriority s.thread o p u).currentPriority
      } := by
    intro u
    unfold threadChangePriority
    by_cases hu : u = o
    · rw [hu, update_self]
    · rw [update_of_ne hu]
  apply hc.setThread
  · intro u
    rw [hview]
  · intro u
    rw [hview]
  · intro k u _
    rw [hview]

theorem Consistent.setMutex (hc : Consistent s) {x : RtMutex}
    (hlist : x.suspendThread = (s.mutex m).suspendThread)
    (hnone : x.owner = none -> x.value = 1 ∧ x.hold = 0 ∧ x.suspendThread = [])
    (hsome : forall u, x.owner = some u -> x.value = 0 ∧ u ∉ x.suspendThread)
    (howner : forall u, s.pc u = Pc.taking m -> (x.owner = some u <-> (s.mutex m).owner = some u)) :
    Consistent (s.setMutex m x) := by
  have hsame : forall k, k ≠ m -> (s.setMutex m x).mutex k = s.mutex k :=
    fun k hk => update_of_ne hk _ _
  have hself : (s.setMutex m x).mutex m = x := update_self _ _ _
  have hlists : forall k, ((s.setMutex m x).mutex k).suspendThread = (s.mutex k).suspendThread := by
    intro k
    by_cases hk : k = m
    · rw [hk, hself, hlist]
    · rw [hsame k hk]
  constructor
  · intro k u
    rw [hlists]
    exact hc.blocked k u
  · intro k
    rw [hlists]
    exact hc.nodup k
  · intro k
    by_cases hk : k = m
    · rw [hk, hself]
      exact hnone
    · rw [hsame k hk]
      exact hc.owned k
  · intro k u
    by_cases hk : k = m
    · rw [hk, hself]
      exact hsome u
    · rw [hsame k hk]
      exact hc.taken k u
  · exact hc.timer
  · intro k u htaking
    by_cases hk : k = m
    · subst hk
      rw [hself, howner u htaking]
      exact hc.result k u htaking
    · rw [hsame k hk]
      exact hc.result k u htaking

theorem Consistent.enter (hc : Consistent s) {o : Tid} {th : WaitThread}
    {l : List Tid} (hidle : s.pc t = Pc.idle)
    (howner : (s.mutex m).owner = some o) (hne : o ≠ t)
    (hstat : th.stat = ThreadStat.suspend) (herror : th.error = RtErr.eok)
    (hmem : forall u, u ∈ l <-> u = t ∨ u ∈ (s.mutex m).suspendThread)
    (hnodup : l.Nodup) :
    Consistent { s with
      thread := update s.thread t th
      mutex := update s.mutex m { s.mutex m with suspendThread := l }
      pc := update s.pc t (Pc.taking m) } := by
  constructor
  · intro k u
    by_cases hu : u = t
    · subst hu
      simp only [update_self, hstat, Pc.taking.injEq, true_and]
      by_cases hk : k = m
      · subst hk
        simp [hmem]
      · rw [update_of_ne hk]
        exact iff_of_false (hc.not_waiting hidle) (Ne.symm hk)
    · simp only [update_of_ne hu]
      by_cases hk : k = m
      · subst hk
        simp only [update_self, hmem, hu, false_or]
        exact hc.blocked k u
      · rw [update_of_ne hk]
        exact hc.blocked k u
  · intro k
    by_cases hk : k = m
    · subst hk
      simp only [update_self]
      exact hnodup
    · simp only [update_of_ne hk]
      exact hc.nodup k
  · intro k
    by_cases hk : k = m
    · subst hk
      simp only [update_self, howner]
      intro hnone
      cases hnone
    · simp only [update_of_ne hk]
      exact hc.owned k
  · intro k u
    by_cases hk : k = m
    · subst hk
      simp only [update_self, hmem]
      intro hsome
      rcases hc.taken k u hsome with ⟨hvalue, hnot⟩
      refine ⟨hvalue, ?_⟩
      rintro (rfl | hin)
      · exact hne (Option.some_inj.mp (howner.symm.trans hsome))
      · exact hnot hin
    · simp only [update_of_ne hk]
      exact hc.taken k u
  · intro u
    by_cases hu : u = t
    · subst hu
      simp only [update_self]
      intro _
      exact hstat
    · simp only [update_of_ne hu]
      exact hc.timer u
  · intro k u
    have howners : ((update s.mutex m
        { s.mutex m with suspendThread := l }) k).owner = (s.mutex k).owner := by
      by_cases hk : k = m
      · rw [hk, update_self]
      · rw [update_of_ne hk]
    by_cases hu : u = t
    · subst hu
      simp only [update_self]
      intro _
      exact iff_of_true herror (Or.inl hstat)
    · simp only [update_of_ne hu, howners]
      exact hc.result k u

theorem Consistent.handOver (hc : Consistent s) {w : Tid} {rest : List Tid}
    {x : RtMutex} (hlist : (s.mutex m).suspendThread = w :: rest)
    (howner : x.owner = some w) (hvalue : x.value = 0)
    (hrest : x.suspendThread = rest)
    (hlost : forall u, s.pc u = Pc.taking m -> (s.mutex m).owner ≠ some u) :
    Consistent { s with
      thread := update s.thread w { s.thread w with stat := ThreadStat.ready, timerLinked := false }
      mutex := update s.mutex m x } := by
  have hnodup := hc.nodup m
  rw [hlist, List.nodup_cons] at hnodup
  have hin : w ∈ (s.mutex m).suspendThread := by
    rw [hlist]
    exact List.mem_cons_self
  rcases (hc.blocked m w).mp hin with ⟨hsuspend, htaking⟩
  constructor
  · intro k u
    by_cases hk : k = m
    · subst hk
      simp only [update_self, hrest]
      by_cases hu : u = w
      · subst hu
        simp [hnodup.left]
      · simp only [update_of_ne hu]
        rw [← hc.blocked k u, hlist, List.mem_cons]
        simp [hu]
    · simp only [update_of_ne hk]
      by_cases hu : u = w
      · subst hu
        rw [hc.blocked, htaking]
        simp [Ne.symm hk]
      · simp only [update_of_ne hu]
        exact hc.blocked k u
  · intro k
    by_cases hk : k = m
    · subst hk
      simp only [update_self, hrest]
      exact hnodup.right
    · simp only [update_of_ne hk]
      exact hc.nodup k
  · intro k
    by_cases hk : k = m
    · subst hk
      simp only [update_self, howner]
      intro hnone
      cases hnone
    · simp only [update_of_ne hk]
      exact hc.owned k
  · intro k u
    by_cases hk : k = m
    · subst hk
      simp only [update_self, howner, hrest]
      intro hsome
      cases hsome
      exact ⟨hvalue, hnodup.left⟩
    · simp only [update_of_ne hk]
      exact hc.taken k u
  · intro u
    by_cases hu : u = w
    · subst hu
      simp only [update_self]
      intro hfalse
      cases hfalse
    · simp only [update_of_ne hu]
      exact hc.timer u
  · intro k u hcall
    have hresult := hc.result k u hcall
    by_cases hu : u = w
    · subst hu
      rw [htaking] at hcall
      cases hcall
      simp only [update_self, howner]
      exact iff_of_true (hresult.mpr (Or.inl hsuspend)) (Or.inr trivial)
    · simp only [update_of_ne hu]
      by_cases hk : k = m
      · subst hk
        simp only [update_self, howner, Option.some_inj]
        rw [hresult]
        simp [hlost u hcall, Ne.symm hu]
      · simp only [update_of_ne hk]
        exact hresult

theorem Consistent.effect_take {t : Tid} {m : Mid} (hc : Consistent s)
    (he : Effect s (Op.take t m time) s') : Consistent s' := by
  cases he with
  | nested hidle howner =>
    refine (hc.setError hidle RtErr.eok).setMutex rfl ?_ ?_ ?_
    · intro hnone
      cases howner.symm.trans hnone
    · intro u hsome
      exact hc.taken m u hsome
    · intro u _
      rfl
  | acquire hidle hready howner =>
    refine (hc.setError hidle RtErr.eok).setMutex rfl ?_ ?_ ?_
    · intro hnone
      cases hnone
    · intro u hsome
      cases hsome
      exact ⟨rfl, hc.not_waiting hidle⟩
    · intro u htaking
      rw [howner]
      simp [Ne.symm (ne_of_taking hidle htaking)]
  | refuse hidle howner => exact hc.setError hidle RtErr.etimeout
  | block hidle hready howner hne htime hlinked =>
    refine (hc.changePriority _ _).enter hidle howner hne rfl rfl ?_ ?_
    · intro u
      exact mem_suspendInto
    · exact nodup_suspendInto (hc.nodup m) (hc.not_waiting hidle)

theorem Consistent.effect_release {t : Tid} {m : Mid} (hc : Consistent s)
    (he : Effect s (Op.release t m) s') : Consistent s' := by
  cases he with
  | deny hidle howner => exact hc.setError hidle RtErr.error
  | unnest hidle howner hhold =>
    refine hc.setMutex rfl ?_ ?_ ?_
    · intro hnone
      cases howner.symm.trans hnone
    · intro u hsome
      exact hc.taken m u hsome
    · intro u _
      rfl
  | free hidle hready howner hhold hlist =>
    refine (hc.changePriority _ _).setMutex rfl ?_ ?_ ?_
    · intro _
      exact ⟨rfl, rfl, hlist⟩
    · intro u hsome
      cases hsome
    · intro u htaking
      rw [howner]
      simp [Ne.symm (ne_of_taking hidle htaking)]
  | @handOver t w m rest hidle hready howner hhold hlist hne =>
    have hself : threadChangePriority s.thread t (s.mutex m).originalPriority w = s.thread w :=
      update_of_ne hne ..
    rw [← hself]
    refine (hc.changePriority _ _).handOver hlist rfl (hc.taken m t howner).left rfl ?_
    intro u htaking hown
    rw [howner] at hown
    cases hown
    exact ne_of_taking hidle htaking rfl

theorem Consistent.effect_timeout {t : Tid} (hc : Consistent s)
    (he : Effect s (Op.timeout t) s') : Consistent s' := by
  cases he with
  | timeout hstat =>
    have hmem : forall k u, u ∈ (s.mutex k).suspendThread.erase t <->
        u ≠ t ∧ u ∈ (s.mutex k).suspendThread :=
      fun k u => (hc.nodup k).mem_erase_iff
    unfold timeout threadTimeout
    constructor
    · intro k u
      rw [hmem]
      by_cases hu : u = t
      · subst hu
        simp
      · simp only [update_of_ne hu]
        rw [hc.blocked]
        simp [hu]
    · intro k
      exact (hc.nodup k).erase t
    · intro k hnone
      rcases hc.owned k hnone with ⟨hvalue, hhold, hnil⟩
      refine ⟨hvalue, hhold, ?_⟩
      show (s.mutex k).suspendThread.erase t = []
      rw [hnil]
      rfl
    · intro k u hsome
      rcases hc.taken k u hsome with ⟨hvalue, hnot⟩
      exact ⟨hvalue, fun hin => hnot ((hmem k u).mp hin).right⟩
    · intro u
      by_cases hu : u = t
      · subst hu
        simp
      · simp only [update_of_ne hu]
        exact hc.timer u
    · intro k u htaking
      by_cases hu : u = t
      · -- it waited, so it is not the owner of the mutex it waits for
        subst hu
        have hin := (hc.blocked k u).mpr ⟨hstat, htaking⟩
        have hown : (s.mutex k).owner ≠ some u :=
          fun hsome => (hc.taken k u hsome).right hin
        simp [hown]
      · simp only [update_of_ne hu]
        exact hc.result k u htaking

theorem Consistent.effect_takeReturn {t : Tid} (hc : Consistent s)
    (he : Effect s (Op.takeReturn t) s') : Consistent s' := by
  cases he with
  | takeReturn hready =>
    constructor
    · intro k u
      rw [hc.blocked]
      by_cases hu : u = t
      · subst hu
        simp [hready]
      · simp only [update_of_ne hu]
    · exact hc.nodup
    · exact hc.owned
    · exact hc.taken
    · exact hc.timer
    · intro k u
      by_cases hu : u = t
      · subst hu
        simp
      · simp only [update_of_ne hu]
        exact hc.result k u

theorem Consistent.effect (hc : Consistent s) (he : Effect s op s') : Consistent s' := by
  cases op with
  | take t m time => exact hc.effect_take he
  | release t m => exact hc.effect_release he
  | timeout t => exact hc.effect_timeout he
  | takeReturn t => exact hc.effect_takeReturn he

theorem Consistent.step (hc : Consistent s) (hs : step s op = some s') : Consistent s' :=
  hc.effect (step_effect hc hs)

theorem Booted.consistent (hboot : Booted s) : Consistent s := by
  rcases hboot with ⟨hthread, hmutex, hpc⟩
  constructor
  · intro m t
    rcases hmutex m with ⟨flag, hm⟩
    rw [hm, (hthread t).left]
    simp
  · intro m
    rcases hmutex m with ⟨flag, hm⟩
    rw [hm]
    exact List.nodup_nil
  · intro m _
    rcases hmutex m with ⟨flag, hm⟩
    rw [hm]
    exact ⟨rfl, rfl, rfl⟩
  · intro m t howner
    rcases hmutex m with ⟨flag, hm⟩
    rw [hm] at howner
    cases howner
  · intro t hlinked
    rw [(hthread t).right.right] at hlinked
    cases hlinked
  · intro m t htaking
    rw [hpc t] at htaking
    cases htaking

end RtThread.Ipc.Mutex
