import RtThread.Kernel.TimerPlain

/-!
# Order and time of the hard timers

Runs of the timer functions on hard timers. Whatever the rows, the mask and the height counter
are, a run leaves the bottom row of the plain sorted list and calls the same timeout functions at
the same ticks. When the timeout functions leave the timers alone and all periods are positive,
each check calls exactly the active timers of its tick, in the order of their starts.
-/

namespace RtThread.Kernel.Timer

open LinkRing
open Function (update update_idem update_of_ne update_self)
open StableInsert
open Transition

/-- The state before any timer was started, over empty lists. -/
def startSystem {L : Type} (lists : L) (timers : TimerId -> RtTimer) (tick : Tick)
    (randomNr : BitVec 32) (thread : TimerThread) : System L where
  state :=
    { lists, timer := timers, tick, randomNr, timerThread := thread, starts := 0,
      order := fun _ => 0 }
  phase := Phase.idle

/-- The rows after `rt_system_timer_init`, `rt_system_timer_thread_init` and the
initialisation of the timers. -/
def emptyRows : Rows := fun _ => { next := id, prev := id }

def emptyPlain : Plain := fun _ => []

/-- The calls of timeout functions so far, with their ticks. -/
def recordCall {L : Type} (s : System L) (op : Op) (s' : System L)
    (calls : List (Tick × TimerId)) : List (Tick × TimerId) :=
  match op, s'.phase with
  | Op.round, Phase.callback t => calls ++ [(s.state.tick, t)]
  | _, _ => calls

/-- The bottom row of the hard timers links exactly these timers, in this order. -/
def BottomRow (c : SkipConfig) (s : State Rows) (l : List TimerId) : Prop :=
  Ring (s.lists c.bottom).next (s.lists c.bottom).prev
    (Node.head TimerList.hard) (l.map Node.member)

section Start

variable {c : SkipConfig} {low : Nat} {timers : TimerId -> RtTimer} {tick : Tick}
  {r r' : BitVec 32} {thread : TimerThread}

theorem wired_empty : Wired c emptyRows (fun _ _ => []) := by
  constructor
  · intro i _
    constructor
    · intro h
      exact ring_nil_iff.mpr ⟨rfl, rfl⟩
    · intro t _
      exact ring_nil_iff.mpr ⟨rfl, rfl⟩
    · intro h h' t ht
      cases ht
  · intro i h _
    exact List.Sublist.refl _

theorem start_refines (hperiods : forall t, low ≤ (timers t).initTick.toNat) :
    SystemRefines c low (startSystem emptyRows timers tick r thread)
      (startSystem emptyPlain timers tick r' thread) := by
  constructor
  · rfl
  · intro current hcurrent
    cases hcurrent
  · refine ⟨fun _ _ => [], ?_⟩
    constructor
    · constructor
      · exact wired_empty
      · exact fun _ => Nat.le_refl 0
      · intro h x hx
        cases hx
    · rfl
    · rfl
    · rfl
    · rfl
    · rfl
    · rfl
    · exact sorted_nil
  · exact hperiods

theorem recordCall_eq {x x' : System Rows} {y y' : System Plain} {op : Op}
    {calls : List (Tick × TimerId)} (hr : SystemRefines c low x y)
    (hr' : SystemRefines c low x' y') :
    recordCall x op x' calls = recordCall y op y' calls := by
  rcases hr.rows with ⟨lists, hrows⟩
  unfold recordCall
  rw [hr'.phase, hrows.tick]

end Start

/-!
## The skip list is only an optimisation
-/

section Refinement

variable (c c' : SkipConfig) (r r' : BitVec 32) (timers : TimerId -> RtTimer)
  (tick : Tick) (thread : TimerThread)

theorem run_refines {labels : List Op} (hlabels : forall op, op ∈ labels -> op.Allowed 0) :
    Option.Rel (fun (x : System Rows × List (Tick × TimerId))
          (y : System Plain × List (Tick × TimerId)) =>
        SystemRefines c 0 x.1 y.1 ∧ x.2 = y.2)
      (exec (watched (step (skipList c)) recordCall)
        (startSystem emptyRows timers tick r thread, []) labels)
      (exec (watched (step plainList) recordCall)
        (startSystem emptyPlain timers tick 0 thread, []) labels) := by
  refine exec_rel ?_ hlabels ⟨start_refines fun t => Nat.zero_le _, rfl⟩
  intro x y op hop hr
  refine watched_rel (step_refines (Nat.zero_le 1)) ?_ x y op hop hr
  intro s p op s' p' calls hr _ _ hr'
  exact recordCall_eq hr hr'

theorem SystemRefines.bottomRow {low : Nat} {x : System Rows} {y : System Plain}
    (hr : SystemRefines c low x y) :
    BottomRow c x.state (y.state.lists TimerList.hard) := by
  rcases hr.rows with ⟨lists, hrows⟩
  rw [hrows.hard]
  exact hrows.sound.wired.bottomFamily.ring TimerList.hard

/-- The same operations under two settings of the skip list and on the plain sorted list:
none of the three runs is possible, or all end with the same bottom row, after the same
calls at the same ticks. -/
theorem skip_list_is_plain_list {labels : List Op}
    (hlabels : forall op, op ∈ labels -> op.Allowed 0) :
    (exec (watched (step (skipList c)) recordCall)
        (startSystem emptyRows timers tick r thread, []) labels = none ∧
      exec (watched (step (skipList c')) recordCall)
        (startSystem emptyRows timers tick r' thread, []) labels = none ∧
      exec (watched (step plainList) recordCall)
        (startSystem emptyPlain timers tick 0 thread, []) labels = none) ∨
    exists x x' y calls,
      exec (watched (step (skipList c)) recordCall)
        (startSystem emptyRows timers tick r thread, []) labels = some (x, calls) ∧
      exec (watched (step (skipList c')) recordCall)
        (startSystem emptyRows timers tick r' thread, []) labels = some (x', calls) ∧
      exec (watched (step plainList) recordCall)
        (startSystem emptyPlain timers tick 0 thread, []) labels = some (y, calls) ∧
      BottomRow c x.state (y.state.lists TimerList.hard) ∧
      BottomRow c' x'.state (y.state.lists TimerList.hard) := by
  have hone := run_refines c r timers tick thread hlabels
  have htwo := run_refines c' r' timers tick thread hlabels
  generalize exec (watched (step (skipList c)) recordCall)
    (startSystem emptyRows timers tick r thread, []) labels = o at hone ⊢
  generalize exec (watched (step (skipList c')) recordCall)
    (startSystem emptyRows timers tick r' thread, []) labels = o' at htwo ⊢
  generalize exec (watched (step plainList) recordCall)
    (startSystem emptyPlain timers tick 0 thread, []) labels = q at hone htwo ⊢
  cases hone with
  | none =>
    cases htwo
    exact Or.inl ⟨rfl, rfl, rfl⟩
  | @some x y hx =>
    cases htwo with
    | @some x' _ hx' =>
      rcases x with ⟨x, calls⟩
      rcases x' with ⟨x', calls'⟩
      rcases y with ⟨y, callsY⟩
      rcases hx with ⟨hr, hcalls⟩
      rcases hx' with ⟨hr', hcalls'⟩
      change calls = callsY at hcalls
      change calls' = callsY at hcalls'
      subst hcalls
      subst hcalls'
      exact Or.inr ⟨x, x', y, calls', rfl, rfl, rfl, hr.bottomRow,
        hr'.bottomRow⟩

end Refinement

def threeTimers (t : TimerId) : RtTimer where
  timeoutTick := 0
  initTick := if t = 0 ∨ t = 2 then 2 else 1
  activated := false
  periodic := t == 1
  soft := false

def threeRows : SkipConfig := { level := 3, mask := 1, level_pos := by decide }

def oneRow : SkipConfig := { level := 1, mask := 3, level_pos := by decide }

def readyTimerThread : TimerThread := { stat := ThreadStat.ready, threadTimer := 9 }

/-- Three starts and two ticks, the second one past the end of the tick range. -/
def startsAndTicks : List Op :=
  [Op.call (Cmd.start 0), Op.call (Cmd.start 1), Op.call (Cmd.start 2), Op.tick,
    Op.round, Op.ret, Op.round, Op.tick, Op.round, Op.ret, Op.round, Op.ret,
    Op.round, Op.ret, Op.round]

theorem skip_list_is_plain_list_wrap : exists x x' y calls,
    exec (watched (step (skipList threeRows)) recordCall)
      (startSystem emptyRows threeTimers 0xfffffffe 0 readyTimerThread, [])
      startsAndTicks = some (x, calls) ∧
    exec (watched (step (skipList oneRow)) recordCall)
      (startSystem emptyRows threeTimers 0xfffffffe 7 readyTimerThread, [])
      startsAndTicks = some (x', calls) ∧
    exec (watched (step plainList) recordCall)
      (startSystem emptyPlain threeTimers 0xfffffffe 0 readyTimerThread, [])
      startsAndTicks = some (y, calls) ∧
    BottomRow threeRows x.state (y.state.lists TimerList.hard) ∧
    BottomRow oneRow x'.state (y.state.lists TimerList.hard) ∧
    calls = [(0xffffffff, 1), (0, 0), (0, 2), (0, 1)] := by
  have hcalls : (exec (watched (step plainList) recordCall)
      (startSystem emptyPlain threeTimers 0xfffffffe 0 readyTimerThread, [])
      startsAndTicks).map Prod.snd =
      some [(0xffffffff, 1), (0, 0), (0, 2), (0, 1)] := by
    decide +kernel
  have hlabels : forall op, op ∈ startsAndTicks -> op.Allowed 0 := by
    simp [startsAndTicks, Op.Allowed]
  rcases skip_list_is_plain_list threeRows oneRow 0 7 threeTimers 0xfffffffe
    readyTimerThread hlabels with ⟨_, _, hnone⟩ | ⟨x, x', y, calls, hx, hx', hy, hrest⟩
  · rw [hnone] at hcalls
    cases hcalls
  · rw [hy] at hcalls
    exact ⟨x, x', y, calls, hx, hx', hy, hrest.left, hrest.right,
      Option.some.inj hcalls⟩

/-!
## The timers of a tick

The timeout functions leave the timers alone from here on.
-/

def QuietCallbacks {L : Type} (s : System L) : Op -> Prop
  | Op.call (Cmd.start _) => s.phase = Phase.idle
  | Op.call (Cmd.stop _) => s.phase = Phase.idle
  | Op.call _ => False
  | _ => True

/-- The hard timers of the plain list are the active ones. -/
structure Active (y : System Plain) : Prop where
  periods : forall t, (y.state.timer t).initTick.toNat < rtTickMax / 2
  hard : forall t, t ∈ y.state.lists TimerList.hard ->
    (y.state.timer t).soft = false
  nodup : (y.state.lists TimerList.hard).Nodup
  linked : forall t, (y.state.timer t).soft = false ->
    y.phase ≠ Phase.callback t ->
    ((y.state.timer t).activated = true <->
      t ∈ y.state.lists TimerList.hard)
  called : forall t, y.phase = Phase.callback t ->
    t ∉ y.state.lists TimerList.hard ∧ (y.state.timer t).soft = false

section Quiet

variable {s s' : State Plain} {phase : Phase} {t x : TimerId} {l : List TimerId}

variable {timeout : TimerId -> Tick} {phase' : Phase} {current : Tick}

theorem mem_plainInsert : x ∈ plainInsert timeout t l <-> x = t ∨ x ∈ l := by
  induction l with
  | nil => simp [plainInsert]
  | cons y rest ih =>
    unfold plainInsert
    split
    · rw [List.mem_cons, List.mem_cons, ih]
      exact or_left_comm
    · exact List.mem_cons

theorem nodup_plainInsert (hl : l.Nodup) (ht : t ∉ l) : (plainInsert timeout t l).Nodup := by
  induction l with
  | nil => simp [plainInsert]
  | cons y rest ih =>
    have hcons := List.nodup_cons.mp hl
    unfold plainInsert
    split
    · apply List.nodup_cons.mpr
      constructor
      · rw [mem_plainInsert]
        rintro (heq | hin)
        · exact ht (by simp [heq])
        · exact hcons.left hin
      · exact ih hcons.right fun hin => ht (List.mem_cons_of_mem y hin)
    · exact List.nodup_cons.mpr ⟨ht, hl⟩

theorem filter_plainInsert {p : TimerId -> Bool}
    (ht : p t = false) : (plainInsert timeout t l).filter p = l.filter p := by
  induction l with
  | nil => simp [plainInsert, ht]
  | cons y rest ih =>
    unfold plainInsert
    split
    · rw [List.filter_cons, List.filter_cons, ih]
    · rw [List.filter_cons_of_neg (by simp [ht])]

theorem Active.stop (ha : Active { state := s, phase := phase }) (t : TimerId)
    (hphase : phase ≠ Phase.callback t) :
    Active { state := (rtTimerStop plainList s t).1, phase := phase } := by
  unfold rtTimerStop
  by_cases hact : (s.timer t).activated
  · rw [if_pos hact]
    have hsettings : SameSettings s ((rtTimerRemove plainList s t).setActivated t false) :=
      sameSettings_update rfl rfl rfl rfl rfl
    constructor
    · intro x
      rw [hsettings.initTick x]
      exact ha.periods x
    · intro x hx
      rw [hsettings.soft x]
      exact ha.hard x (List.mem_of_mem_erase hx)
    · exact ha.nodup.erase t
    · intro x hsoft hx
      rw [hsettings.soft x] at hsoft
      show ((update s.timer t { s.timer t with activated := false }) x).activated
        = true <-> x ∈ (s.lists TimerList.hard).erase t
      rw [ha.nodup.mem_erase_iff]
      by_cases hxt : x = t
      · subst hxt
        simp
      · rw [update_of_ne hxt]
        exact (ha.linked x hsoft hx).trans (by simp [hxt])
    · intro x hx
      rw [hsettings.soft x]
      have hcalled := ha.called x hx
      exact ⟨fun hin => hcalled.left (List.mem_of_mem_erase hin), hcalled.right⟩
  · rw [if_neg hact]
    exact ha

/-- The plain lists after the insertion of `t`. -/
def plainStarted (s : State Plain) (t : TimerId) : State Plain :=
  (rtTimerArm plainList s t).started t
    (Function.update (rtTimerArm plainList s t).lists (s.timer t).list
      (plainInsert (rtTimerArm plainList s t).timeout t
        ((rtTimerArm plainList s t).lists (s.timer t).list)))

theorem rtTimerStart_plain (hinit : (s.timer t).initTick.toNat < rtTickMax / 2) :
    rtTimerStart plainList s t = some (wakeTimerThread plainList (plainStarted s t) t) := by
  rw [rtTimerStart_eq plainList hinit]
  rfl

theorem plainStarted_hard : (plainStarted s t).lists TimerList.hard =
      if (s.timer t).soft then (s.lists TimerList.hard).erase t
      else plainInsert (rtTimerArm plainList s t).timeout t ((s.lists TimerList.hard).erase t) := by
  show update _ (s.timer t).list _ TimerList.hard = _
  unfold RtTimer.list
  split
  · rw [update_of_ne TimerList.noConfusion]
    rfl
  · rw [update_self]
    rfl

theorem plainStarted_timer : (plainStarted s t).timer = update s.timer t { s.timer t with
        timeoutTick := s.tick + (s.timer t).initTick
        activated := true } := by
  show update (rtTimerArm plainList s t).timer t _ = _
  rw [rtTimerArm_timer, update_idem, update_self]

theorem sameSettings_plainStarted : SameSettings s (plainStarted s t) :=
  sameSettings_update rfl plainStarted_timer rfl rfl rfl

theorem Active.started (ha : Active { state := s, phase := phase })
    (hphase : forall x, x ≠ t -> phase ≠ Phase.callback x)
    (hphase' : forall x, phase' ≠ Phase.callback x) :
    Active { state := plainStarted s t, phase := phase' } := by
  have hfree : t ∉ (s.lists TimerList.hard).erase t := by
    rw [ha.nodup.mem_erase_iff]
    simp
  have hmem : forall x, x ∈ (plainStarted s t).lists TimerList.hard <->
      x = t ∧ (s.timer t).soft = false ∨ x ≠ t ∧ x ∈ s.lists TimerList.hard := by
    intro x
    rw [plainStarted_hard]
    split
    · rename_i hsoft
      rw [ha.nodup.mem_erase_iff]
      simp [hsoft]
    · rename_i hsoft
      rw [mem_plainInsert, ha.nodup.mem_erase_iff]
      simp [hsoft]
  constructor
  · intro x
    rw [sameSettings_plainStarted.initTick x]
    exact ha.periods x
  · intro x hx
    rw [sameSettings_plainStarted.soft x]
    rcases (hmem x).mp hx with ⟨hxt, hsoft⟩ | ⟨_, hin⟩
    · rw [hxt]
      exact hsoft
    · exact ha.hard x hin
  · show ((plainStarted s t).lists TimerList.hard).Nodup
    rw [plainStarted_hard]
    split
    · exact ha.nodup.erase t
    · exact nodup_plainInsert (ha.nodup.erase t) hfree
  · intro x hsoft _
    rw [sameSettings_plainStarted.soft x] at hsoft
    rw [hmem x]
    show ((plainStarted s t).timer x).activated = true <-> _
    rw [plainStarted_timer]
    by_cases hxt : x = t
    · subst hxt
      simp [hsoft]
    · rw [update_of_ne hxt]
      exact (ha.linked x hsoft (hphase x hxt)).trans (by simp [hxt])
  · intro x hx
    exact absurd hx (hphase' x)

theorem Active.congr (ha : Active { state := s, phase := phase }) (htimer : s'.timer = s.timer)
    (hlists : s'.lists = s.lists)
    (hphase : forall x, phase ≠ Phase.callback x)
    (hphase' : forall x, phase' ≠ Phase.callback x) :
    Active { state := s', phase := phase' } := by
  constructor
  · intro x
    rw [htimer]
    exact ha.periods x
  · intro x
    rw [htimer, hlists]
    exact ha.hard x
  · show (s'.lists TimerList.hard).Nodup
    rw [hlists]
    exact ha.nodup
  · intro x
    rw [htimer, hlists]
    exact fun hsoft _ => ha.linked x hsoft (hphase x)
  · intro x hx
    exact absurd hx (hphase' x)

theorem Active.wake (ha : Active { state := s, phase := phase })
    (hphase : forall x, phase ≠ Phase.callback x) :
    Active { state := wakeTimerThread plainList s t, phase := phase } := by
  unfold wakeTimerThread resumeTimerThread
  split
  · split
    · exact (ha.stop s.timerThread.threadTimer (hphase _)).congr rfl rfl hphase hphase
    · exact ha
  · exact ha

theorem Active.timeoutReturn (ha : Active { state := s, phase := Phase.callback t })
    (hs : timeoutReturn plainList s t = some s') (hphase' : forall x, phase' ≠ Phase.callback x) :
    Active { state := s', phase := phase' } := by
  have hoff : Active { state := s.setActivated t false, phase := phase' } := by
    have hsettings : SameSettings s (s.setActivated t false) :=
      sameSettings_setActivated false
    constructor
    · intro x
      rw [hsettings.initTick x]
      exact ha.periods x
    · intro x hx
      rw [hsettings.soft x]
      exact ha.hard x hx
    · exact ha.nodup
    · intro x hsoft _
      rw [hsettings.soft x] at hsoft
      show (update s.timer t { s.timer t with activated := false } x).activated
        = true <-> x ∈ s.lists TimerList.hard
      by_cases hxt : x = t
      · subst hxt
        simp [(ha.called x rfl).left]
      · rw [update_of_ne hxt]
        exact ha.linked x hsoft (by simp [Ne.symm hxt])
    · intro x hx
      exact absurd hx (hphase' x)
  unfold Timer.timeoutReturn at hs
  split at hs
  · have hinit : ((s.setActivated t false).timer t).initTick.toNat < rtTickMax / 2 := by
      rw [(sameSettings_setActivated false).initTick t]
      exact ha.periods t
    rw [rtTimerStart_plain hinit] at hs
    cases hs
    exact (hoff.started (fun x _ => hphase' x) hphase').wake hphase'
  · cases hs
    exact hoff

theorem Active.fire (ha : Active { state := s, phase := phase })
    (hphase : forall x, phase ≠ Phase.callback x)
    (ht : t ∈ s.lists TimerList.hard) :
    Active { state := rtTimerRemove plainList s t, phase := Phase.callback t } := by
  constructor
  · exact ha.periods
  · intro x hx
    exact ha.hard x (List.mem_of_mem_erase hx)
  · exact ha.nodup.erase t
  · intro x hsoft hx
    show (s.timer x).activated = true <-> x ∈ (s.lists TimerList.hard).erase t
    have hxt : x ≠ t := fun heq => hx (by rw [heq])
    rw [ha.nodup.mem_erase_iff]
    exact (ha.linked x hsoft (hphase x)).trans (by simp [hxt])
  · intro x hx
    cases hx
    constructor
    · show t ∉ (s.lists TimerList.hard).erase t
      rw [ha.nodup.mem_erase_iff]
      simp
    · exact ha.hard t ht

theorem step_active {y y' : System Plain} {op : Op} (hquiet : QuietCallbacks y op)
    (ha : Active y) (hs : step plainList y op = some y') : Active y' := by
  rcases y with ⟨s, phase⟩
  cases op with
  | call cmd =>
    have hidle : phase = Phase.idle := by
      cases cmd with
      | start t => exact hquiet
      | stop t => exact hquiet
      | init t time periodic soft => exact hquiet.elim
      | detach t => exact hquiet.elim
      | control t ctrl => exact hquiet.elim
    subst hidle
    rw [step_call (by simp), Option.map_eq_some_iff] at hs
    rcases hs with ⟨s', hs', heq⟩
    subst heq
    cases cmd with
    | start t =>
      have hstart : rtTimerStart plainList s t = some s' := hs'
      rw [rtTimerStart_plain (ha.periods t)] at hstart
      cases hstart
      exact (ha.started (by simp) (by simp)).wake (by simp)
    | stop t =>
      cases hs'
      exact ha.stop t (by simp)
    | init t time periodic soft => exact hquiet.elim
    | detach t => exact hquiet.elim
    | control t ctrl => exact hquiet.elim
  | tick =>
    simp only [step] at hs
    split at hs
    · rename_i hidle
      subst hidle
      cases hs
      exact ha.congr rfl rfl (by simp) (by simp)
    · cases hs
  | check =>
    simp only [step] at hs
    split at hs
    · rename_i hidle
      subst hidle
      cases hs
      exact ha.congr rfl rfl (by simp) (by simp)
    · cases hs
  | round =>
    cases phase with
    | idle => cases hs
    | callback t => cases hs
    | checking current =>
      rw [step_round rfl, plainList_first] at hs
      cases hs
      cases hhead : (s.lists TimerList.hard).head? with
      | none => exact ha.congr rfl rfl (by simp) (by simp)
      | some t =>
        by_cases hdue : s.Due current t
        · simp only [if_pos hdue]
          exact ha.fire (by simp) (List.mem_of_head? hhead)
        · simp only [if_neg hdue]
          exact ha.congr rfl rfl (by simp) (by simp)
  | ret =>
    cases phase with
    | idle => cases hs
    | checking current => cases hs
    | callback t =>
      rw [step_ret rfl, Option.map_eq_some_iff] at hs
      rcases hs with ⟨s', hs', heq⟩
      subst heq
      exact ha.timeoutReturn hs' (by simp)

/-!
## One check
-/

/-- The timers whose timeout is the current tick, in the order of the list. -/
def State.dueNow (s : State Plain) : List TimerId :=
  (s.lists TimerList.hard).filter fun x => s.timeout x == s.tick

/-- The rest of a check that calls `n` timeout functions which do nothing. -/
def rounds : Nat -> List Op
  | 0 => [Op.round]
  | n + 1 => Op.round :: Op.ret :: rounds n

/-- The timers that `rt_timer_check` finds due, in the order of the list. -/
def State.expired (s : State Plain) : List TimerId :=
  (s.lists TimerList.hard).filter fun x => decide (s.Due s.tick x)

theorem mem_expired : x ∈ s.expired <-> x ∈ s.lists TimerList.hard ∧ s.Due s.tick x := by
  unfold State.expired
  rw [List.mem_filter, decide_eq_true_iff]

theorem due_timeout_congr (htimeout : s'.timeout x = s.timeout x) :
    s'.Due current x <-> s.Due current x := by
  unfold State.Due
  rw [htimeout]

theorem expired_congr (hlists : s'.lists TimerList.hard = s.lists TimerList.hard)
    (htimeout : forall x, x ∈ s.lists TimerList.hard -> s'.timeout x = s.timeout x)
    (htick : s'.tick = s.tick) : s'.expired = s.expired := by
  unfold State.expired
  rw [hlists, htick]
  apply List.filter_congr
  intro x hx
  exact decide_eq_decide.mpr (due_timeout_congr (htimeout x hx))

theorem wakeTimerThread_hard (hsoft : (s.timer t).soft = false) :
    wakeTimerThread plainList s t = s := by
  apply if_neg
  simp [hsoft]

theorem plainStarted_not_due (hpos : 0 < (s.timer t).initTick.toNat)
    (hinit : (s.timer t).initTick.toNat < rtTickMax / 2) :
    ¬ (plainStarted s t).Due s.tick t := by
  unfold State.Due State.timeout
  rw [plainStarted_timer, update_self]
  unfold rtTickMax at *
  show ¬ (s.tick - (s.tick + (s.timer t).initTick)).toNat < _
  generalize (s.timer t).initTick = a at *
  generalize s.tick = b
  bv_omega

theorem Active.timeoutReturn_periodic (ha : Active { state := s, phase := Phase.callback t })
    (hagain : (s.timer t).periodic ∧ (s.timer t).activated) :
    Timer.timeoutReturn plainList s t = some (plainStarted (s.setActivated t false) t) := by
  have hsame := @sameSettings_setActivated _ s t false
  have hinit : ((s.setActivated t false).timer t).initTick.toNat < rtTickMax / 2 := by
    rw [hsame.initTick t]
    exact ha.periods t
  have hsoft : ((plainStarted (s.setActivated t false) t).timer t).soft = false := by
    rw [sameSettings_plainStarted.soft t, hsame.soft t]
    exact (ha.called t rfl).right
  unfold Timer.timeoutReturn
  rw [if_pos hagain, rtTimerStart_plain hinit, wakeTimerThread_hard hsoft]

theorem Active.restarted_hard (ha : Active { state := s, phase := Phase.callback t }) :
    (plainStarted (s.setActivated t false) t).lists TimerList.hard =
      plainInsert (rtTimerArm plainList (s.setActivated t false) t).timeout t
        (s.lists TimerList.hard) := by
  have hcalled := ha.called t rfl
  have hsoft : ((s.setActivated t false).timer t).soft = false := by
    rw [(sameSettings_setActivated false).soft t]
    exact hcalled.right
  rw [plainStarted_hard, hsoft]
  show plainInsert _ t ((s.lists TimerList.hard).erase t) = _
  rw [List.erase_of_not_mem hcalled.left]

theorem restarted_timeout_of_ne (hx : x ≠ t) :
    (plainStarted (s.setActivated t false) t).timeout x = s.timeout x := by
  unfold State.timeout
  rw [plainStarted_timer, update_of_ne hx]
  exact s.setActivated_timeout t x false

theorem Active.timeoutReturn_expired (ha : Active { state := s, phase := Phase.callback t })
    (hpos : (s.timer t).periodic = true -> 0 < (s.timer t).initTick.toNat)
    (hs : Timer.timeoutReturn plainList s t = some s') : s'.expired = s.expired := by
  by_cases hagain : (s.timer t).periodic ∧ (s.timer t).activated
  · rw [ha.timeoutReturn_periodic hagain] at hs
    cases hs
    have hsame := @sameSettings_setActivated _ s t false
    have hlate : ¬ (plainStarted (s.setActivated t false) t).Due s.tick t := by
      apply plainStarted_not_due
      · rw [hsame.initTick t]
        exact hpos hagain.left
      · rw [hsame.initTick t]
        exact ha.periods t
    unfold State.expired
    rw [ha.restarted_hard]
    show (plainInsert _ t _).filter
      (fun x => decide ((plainStarted (s.setActivated t false) t).Due s.tick x)) = _
    rw [filter_plainInsert (by simp [hlate])]
    apply List.filter_congr
    intro x hx
    have hxt : x ≠ t := fun heq => (ha.called t rfl).left (heq ▸ hx)
    exact decide_eq_decide.mpr (due_timeout_congr (restarted_timeout_of_ne hxt))
  · unfold Timer.timeoutReturn at hs
    rw [if_neg hagain] at hs
    cases hs
    exact expired_congr rfl (fun x _ => s.setActivated_timeout t x false) rfl

theorem Active.timeoutReturn_isSome (ha : Active { state := s, phase := Phase.callback t }) :
    exists s', Timer.timeoutReturn plainList s t = some s' := by
  unfold Timer.timeoutReturn
  split
  · have hinit : ((s.setActivated t false).timer t).initTick.toNat < rtTickMax / 2 := by
      rw [(sameSettings_setActivated false).initTick t]
      exact ha.periods t
    exact ⟨_, rtTimerStart_plain hinit⟩
  · exact ⟨_, rfl⟩

theorem ahead_eq_one_iff : s.ahead (s.tick - 1) x = 1 <-> s.timeout x = s.tick := by
  unfold State.ahead
  generalize s.timeout x = a
  generalize s.tick = b
  constructor
  · intro heq
    bv_omega
  · intro heq
    bv_omega

theorem Sorted.dueNow_eq (hs : Sorted (s.tick - 1) 1 s (s.lists TimerList.hard)) :
    s.dueNow = s.expired := by
  unfold State.dueNow State.expired
  apply List.filter_congr
  intro x hx
  have hone : (s.tick - (s.tick - 1)).toNat = 1 := by
    generalize s.tick = b
    bv_omega
  have hlow := hs.low_le x hx
  have hdue := due_iff (by rw [hone]; decide) (hs.near x hx)
  rw [hone] at hdue
  rw [Bool.eq_iff_iff, beq_iff_eq, decide_eq_true_iff, hdue, ← ahead_eq_one_iff]
  omega

theorem round_none (hcurrent : current = s.tick) (hnone : s.expired = []) :
    step plainList { state := s, phase := Phase.checking current } Op.round =
      some { state := s, phase := Phase.idle } := by
  subst hcurrent
  rw [step_round rfl, plainList_first]
  cases hhead : (s.lists TimerList.hard).head? with
  | none => rfl
  | some t =>
    have hlate : ¬ s.Due s.tick t := by
      intro hdue
      have hin := mem_expired.mpr ⟨List.mem_of_head? hhead, hdue⟩
      rw [hnone] at hin
      cases hin
    simp only [if_neg hlate]

theorem round_first {low : Nat} {rest : List TimerId} (hcurrent : current = s.tick)
    (hsorted : Sorted (s.tick - 1) low s (s.lists TimerList.hard))
    (hsome : s.expired = t :: rest) :
    step plainList { state := s, phase := Phase.checking current } Op.round =
        some { state := rtTimerRemove plainList s t, phase := Phase.callback t } ∧
      (rtTimerRemove plainList s t).expired = rest := by
  subst hcurrent
  have hone : (s.tick - (s.tick - 1)).toNat = 1 := by
    generalize s.tick = b
    bv_omega
  have hdue (x : TimerId) (hx : x ∈ s.lists TimerList.hard) :
      s.Due s.tick x <-> s.ahead (s.tick - 1) x ≤ 1 := by
    have hiff := due_iff (by rw [hone]; decide) (hsorted.near x hx)
    rw [hone] at hiff
    exact hiff
  have ht : t ∈ s.lists TimerList.hard ∧ s.Due s.tick t := by
    rw [← mem_expired, hsome]
    exact List.mem_cons_self
  cases hl : s.lists TimerList.hard with
  | nil =>
    rw [hl] at ht
    cases ht.left
  | cons z l =>
    -- the first timer is due no later than `t`, so it is `t`
    have hzin : z ∈ s.lists TimerList.hard := by
      rw [hl]
      exact List.mem_cons_self
    have hz : s.Due s.tick z := by
      rw [hdue z hzin]
      refine Nat.le_trans ?_ ((hdue t ht.left).mp ht.right)
      have horder := hsorted.order
      have hin := ht.left
      rw [hl] at horder hin
      rcases List.mem_cons.mp hin with heq | hrest
      · rw [heq]
      · exact ((List.pairwise_cons.mp horder).left t hrest).key_le
    unfold State.expired at hsome
    rw [hl, List.filter_cons_of_pos (by simp [hz])] at hsome
    cases hsome
    constructor
    · rw [step_round rfl, plainList_first, hl]
      simp only [List.head?_cons, if_pos hz]
    · unfold State.expired
      show ((s.lists TimerList.hard).erase t).filter _ = _
      rw [hl, List.erase_cons_head]
      rfl

end Quiet

section Check

variable {c : SkipConfig} {x : System Rows} {y : System Plain}

theorem SystemRefines.plainSorted {low : Nat} (hr : SystemRefines c low x y) :
    Sorted (y.state.tick - 1) (y.phase.nearest low) y.state (y.state.lists TimerList.hard) := by
  rcases hr.rows with ⟨lists, hrows⟩
  rw [hr.phase, hrows.tick, hrows.hard]
  refine hrows.sorted.congr ?_ ?_ ?_
  · intro t _
    unfold State.timeout
    rw [hrows.timer]
  · intro t _
    rw [hrows.order]
  · rw [hrows.starts]

variable {current : Tick} {op : Op}

theorem SystemRefines.checking_tick {low : Nat} (hr : SystemRefines c low x y)
    (hphase : y.phase = Phase.checking current) :
    current = y.state.tick := by
  rcases hr.rows with ⟨lists, hrows⟩
  rw [hrows.tick]
  exact hr.current current (hr.phase.symm.trans hphase)

theorem SystemRefines.forth {low : Nat} (hr : SystemRefines c low x y) (hlow : low ≤ 1)
    {y' : System Plain} (hop : op.Allowed low)
    (hs : step plainList y op = some y') :
    exists x', step (skipList c) x op = some x' ∧ SystemRefines c low x' y' := by
  have hstep := step_refines hlow x y op hop hr
  rw [hs] at hstep
  exact rel_some hstep

theorem SystemRefines.lastRound {low : Nat} (hr : SystemRefines c low x y)
    (hlow : low ≤ 1) (hphase : y.phase = Phase.checking current)
    (hnone : y.state.expired = []) (calls : List (Tick × TimerId)) :
    exists x', exec (watched (step (skipList c)) recordCall) (x, calls) (rounds 0) =
        some (x', calls) ∧ x'.phase = Phase.idle := by
  have hround := round_none (hr.checking_tick hphase) hnone
  rw [← hphase] at hround
  rcases hr.forth hlow (show Op.round.Allowed low from trivial) hround with
    ⟨x', hx', hr'⟩
  have hidle : x'.phase = Phase.idle := hr'.phase.symm
  refine ⟨x', ?_, hidle⟩
  simp [rounds, exec, watched, hx', recordCall, hidle]

theorem SystemRefines.firstRound {low : Nat} (hr : SystemRefines c low x y)
    (hlow : low ≤ 1) (ha : Active y) (hphase : y.phase = Phase.checking current) {t : TimerId}
    {rest : List TimerId}
    (hsome : y.state.expired = t :: rest) :
    exists x1 x' y', step (skipList c) x Op.round = some x1 ∧ x1.phase = Phase.callback t ∧
      step (skipList c) x1 Op.ret = some x' ∧
      Active { state := rtTimerRemove plainList y.state t, phase := Phase.callback t } ∧
      timeoutReturn plainList (rtTimerRemove plainList y.state t) t = some y'.state ∧
      y'.phase = Phase.checking y'.state.tick ∧
      SystemRefines c low x' y' ∧ Active y' := by
  rcases hr.rows with ⟨lists, hrows⟩
  have hround := (round_first (hr.checking_tick hphase) hr.plainSorted hsome).left
  rw [← hphase] at hround
  rcases hr.forth hlow (show Op.round.Allowed low from trivial) hround with
    ⟨x1, hx1, hr1⟩
  have ha1 := step_active (show QuietCallbacks y Op.round from trivial) ha hround
  -- its function returns
  rcases ha1.timeoutReturn_isSome with ⟨s2, hs2⟩
  have hret : step plainList
      { state := rtTimerRemove plainList y.state t, phase := Phase.callback t }
      Op.ret = some { state := s2, phase := Phase.checking s2.tick } := by
    rw [step_ret rfl, hs2]
    rfl
  rcases hr1.forth hlow (show Op.ret.Allowed low from trivial) hret with
    ⟨x2, hx2, hr2⟩
  have ha2 := step_active (show QuietCallbacks _ Op.ret from trivial) ha1 hret
  exact ⟨x1, x2, _, hx1, hr1.phase.symm, hx2, ha1, hs2, rfl, hr2, ha2⟩

theorem exec_called {x1 x' : System Rows} {calls : List (Tick × TimerId)}
    {t : TimerId} {labels : List Op} (hx1 : step (skipList c) x Op.round = some x1)
    (hphase : x1.phase = Phase.callback t)
    (hx' : step (skipList c) x1 Op.ret = some x') :
    exec (watched (step (skipList c)) recordCall) (x, calls) (Op.round :: Op.ret :: labels) =
      exec (watched (step (skipList c)) recordCall) (x', calls ++ [(x.state.tick, t)]) labels := by
  simp [exec, watched, hx1, hx', recordCall, hphase]

theorem check_calls_expired {low n : Nat} (hlow : low ≤ 1)
    (calls : List (Tick × TimerId)) (hr : SystemRefines c low x y) (ha : Active y)
    (hphase : y.phase = Phase.checking current)
    (hn : y.state.expired.length = n)
    (hpos : forall t, t ∈ y.state.expired -> (y.state.timer t).periodic = true ->
      0 < (y.state.timer t).initTick.toNat) :
    exists x', exec (watched (step (skipList c)) recordCall) (x, calls) (rounds n) =
        some (x', calls ++ y.state.expired.map fun t => (y.state.tick, t)) ∧
      x'.phase = Phase.idle := by
  induction n generalizing x y calls current with
  | zero =>
    have hnone : y.state.expired = [] := List.eq_nil_of_length_eq_zero hn
    rw [hnone, List.map_nil, List.append_nil]
    exact hr.lastRound hlow hphase hnone calls
  | succ n ih =>
    rcases List.exists_cons_of_length_eq_add_one hn with ⟨t, rest, hsome⟩
    rcases hr.firstRound hlow ha hphase hsome with
      ⟨x1, x2, y2, hx1, hphase1, hx2, ha1, hs2, hphase2, hr2, ha2⟩
    have hrest := (round_first (hr.checking_tick hphase) hr.plainSorted hsome).right
    have hsettings := sameSettings_timeoutReturn hs2
    have hexpired2 : y2.state.expired = rest := by
      rw [← hrest]
      apply ha1.timeoutReturn_expired _ hs2
      exact hpos t (by rw [hsome]; exact List.mem_cons_self)
    have hpos2 : forall t, t ∈ y2.state.expired -> (y2.state.timer t).periodic = true ->
        0 < (y2.state.timer t).initTick.toNat := by
      intro z hz
      rw [hexpired2] at hz
      rw [hsettings.periodic z, hsettings.initTick z]
      exact hpos z (by rw [hsome]; exact List.mem_cons_of_mem t hz)
    have hlen : y2.state.expired.length = n := by
      rw [hsome] at hn
      rw [hexpired2]
      exact Nat.succ.inj hn
    have htick : x.state.tick = y.state.tick := by
      rcases hr.rows with ⟨lists, hrows⟩
      exact hrows.tick.symm
    have htick2 : y2.state.tick = y.state.tick := hsettings.tick
    rcases ih (calls ++ [(y.state.tick, t)]) hr2 ha2 hphase2 hlen hpos2 with
      ⟨x', hx', hidle⟩
    refine ⟨x', ?_, hidle⟩
    show exec _ _ (Op.round :: Op.ret :: rounds n) = _
    rw [exec_called hx1 hphase1 hx2, htick]
    refine hx'.trans ?_
    rw [hexpired2, htick2, hsome]
    simp

theorem check_calls_due {n : Nat} (calls : List (Tick × TimerId))
    (hr : SystemRefines c 1 x y) (ha : Active y) (hphase : y.phase = Phase.checking current)
    (hn : y.state.dueNow.length = n) :
    exists x', exec (watched (step (skipList c)) recordCall) (x, calls) (rounds n) =
        some (x', calls ++ y.state.dueNow.map fun t => (y.state.tick, t)) ∧
      x'.phase = Phase.idle := by
  have hsorted := hr.plainSorted
  rw [hphase] at hsorted
  rw [hsorted.dueNow_eq] at hn ⊢
  apply check_calls_expired (Nat.le_refl 1) calls hr ha hphase hn
  intro t _ _
  rcases hr.rows with ⟨lists, hrows⟩
  rw [hrows.timer]
  exact hr.periods t

/-!
## Whole runs
-/

def State.remaining {L : Type} (s : State L) (t : TimerId) : Nat :=
  (s.timeout t - s.tick).toNat

theorem Sorted.remaining {L : Type} {s : State L} {l : List TimerId} {low : Nat}
    (hs : Sorted (s.tick - 1) low s l) (hlow : 1 ≤ low) :
    l.Pairwise fun t t' => s.remaining t ≤ s.remaining t' := by
  have hahead : forall t, t ∈ l -> s.remaining t + 1 = s.ahead (s.tick - 1) t := by
    intro t ht
    have hpos := Nat.le_trans hlow (hs.low_le t ht)
    unfold State.remaining State.ahead at *
    generalize s.timeout t = a at hpos ⊢
    generalize s.tick = b at hpos ⊢
    bv_omega
  apply hs.order.imp_of_mem
  intro t t' ht ht' hbefore
  have hle := hbefore.key_le
  rw [← hahead t ht, ← hahead t' ht'] at hle
  exact Nat.le_of_succ_le_succ hle

/-- What holds along the runs of the skip list: there is a plain list beside it. -/
def Timely (c : SkipConfig) (x : System Rows) : Prop :=
  exists y : System Plain, SystemRefines c 1 x y ∧ Active y

theorem quiet_allowed (hquiet : QuietCallbacks x op) : op.Allowed 1 := by
  cases op with
  | call cmd =>
    cases cmd with
    | start t => trivial
    | stop t => trivial
    | init t time periodic soft => exact hquiet.elim
    | detach t => exact hquiet.elim
    | control t ctrl => exact hquiet.elim
  | tick => trivial
  | check => trivial
  | round => trivial
  | ret => trivial

theorem step_timely {x' : System Rows} (hx : Timely c x)
    (hs : Guarded QuietCallbacks (Graph (step (skipList c))) x op x') :
    Timely c x' := by
  rcases hx with ⟨y, hr, ha⟩
  rcases hs with ⟨hquiet, hs⟩
  have hstep := step_refines (Nat.le_refl 1) x y op (quiet_allowed hquiet) hr
  rw [show step (skipList c) x op = some x' from hs] at hstep
  cases hy : step plainList y op with
  | none =>
    rw [hy] at hstep
    cases hstep
  | some y' =>
    rw [hy] at hstep
    cases hstep with
    | some hr' =>
      refine ⟨y', hr', step_active ?_ ha hy⟩
      cases op with
      | call cmd =>
        cases cmd with
        | start t => exact hr.phase.trans hquiet
        | stop t => exact hr.phase.trans hquiet
        | init t time periodic soft => exact hquiet.elim
        | detach t => exact hquiet.elim
        | control t ctrl => exact hquiet.elim
      | tick => trivial
      | check => trivial
      | round => trivial
      | ret => trivial

/-- Runs of hard timers with positive periods, whose functions leave the timers alone. Every
row is sorted by the ticks left and part of the row below; the next tick calls exactly the
active timers with that timeout, each once, in the order of their starts. -/
theorem hard_timers_fire_in_order (c : SkipConfig) (timers : TimerId -> RtTimer)
    (htimers : forall t, (timers t).activated = false ∧
      0 < (timers t).initTick.toNat ∧ (timers t).initTick.toNat < rtTickMax / 2)
    (tick : Tick) (r : BitVec 32) (thread : TimerThread) {labels : List Op}
    {x : System Rows}
    (hrun : Run (Guarded QuietCallbacks (Graph (step (skipList c))))
      (startSystem emptyRows timers tick r thread) labels x) :
    (exists lists, Wired c x.state.lists lists ∧ forall i, i < c.level ->
      (lists i TimerList.hard).Pairwise fun t t' =>
        x.state.remaining t ≤ x.state.remaining t') ∧
    (x.phase = Phase.idle -> exists (n : Nat) (x' : System Rows) (fired : List TimerId),
      exec (watched (step (skipList c)) recordCall) (x, []) (Op.tick :: rounds n) =
        some (x', fired.map fun t => (x.state.tick + 1, t)) ∧
      x'.phase = Phase.idle ∧
      (forall t, t ∈ fired <-> (x.state.timer t).soft = false ∧
        (x.state.timer t).activated = true ∧ x.state.timeout t = x.state.tick + 1) ∧
      fired.Pairwise fun t t' => x.state.order t < x.state.order t') := by
  have hstart : Timely c (startSystem emptyRows timers tick r thread) := by
    refine ⟨startSystem emptyPlain timers tick 0 thread,
      start_refines fun t => (htimers t).right.left, ?_⟩
    constructor
    · exact fun t => (htimers t).right.right
    · intro t ht
      cases ht
    · exact List.nodup_nil
    · intro t _ _
      have hoff : (timers t).activated = false := (htimers t).left
      show (timers t).activated = true <-> t ∈ []
      simp [hoff]
    · intro t ht
      cases ht
  rcases hrun.invariant (Timely c) hstart (fun _ _ _ => step_timely) with ⟨y, hr, ha⟩
  rcases hr.rows with ⟨lists, hrows⟩
  constructor
  · refine ⟨lists, hrows.sound.wired, ?_⟩
    intro i hi
    exact (hrows.sorted.remaining (x.phase.le_nearest 1)).sublist
      (hrows.sound.wired.sublist_bottom hi _)
  · intro hidle
    have hidleY : y.phase = Phase.idle := hr.phase.trans hidle
    let y1 : System Plain :=
      { state := { y.state with tick := y.state.tick + 1 }
        phase := Phase.checking (y.state.tick + 1) }
    have hy1 : step plainList y Op.tick = some y1 := if_pos hidleY
    have ha1 : Active y1 :=
      step_active (show QuietCallbacks y Op.tick from trivial) ha hy1
    have hr1 := hr.tick hidle
    rcases check_calls_due [] hr1 ha1 rfl rfl with ⟨x', hx', hidle'⟩
    refine ⟨y1.state.dueNow.length, x', y1.state.dueNow, ?_, hidle', ?_, ?_⟩
    · have hx1 : step (skipList c) x Op.tick = some
          { state := { x.state with tick := x.state.tick + 1 }
            phase := Phase.checking (x.state.tick + 1) } := if_pos hidle
      have hone : watched (step (skipList c)) recordCall (x, []) Op.tick = some
          ({ state := { x.state with tick := x.state.tick + 1 }
             phase := Phase.checking (x.state.tick + 1) }, []) := by
        simp [watched, hx1, recordCall]
      rw [exec, hone]
      refine hx'.trans ?_
      rw [← hrows.tick]
      rfl
    · intro t
      have hmem : t ∈ y1.state.dueNow <-> t ∈ y.state.lists TimerList.hard ∧
          x.state.timeout t = x.state.tick + 1 := by
        have hsame : y1.state.timeout t = x.state.timeout t := by
          show (y.state.timer t).timeoutTick = (x.state.timer t).timeoutTick
          rw [hrows.timer]
        have htick : y1.state.tick = x.state.tick + 1 := by
          show y.state.tick + 1 = x.state.tick + 1
          rw [hrows.tick]
        unfold State.dueNow
        rw [List.mem_filter, hsame, htick, beq_iff_eq]
      rw [hmem, ← hrows.timer]
      constructor
      · rintro ⟨hin, htimeout⟩
        have hhard := ha.hard t hin
        have hlinked := ha.linked t hhard (by simp [hidleY])
        exact ⟨hhard, hlinked.mpr hin, htimeout⟩
      · rintro ⟨hhard, hactive, htimeout⟩
        have hlinked := ha.linked t hhard (by simp [hidleY])
        exact ⟨hlinked.mp hactive, htimeout⟩
    · rw [← hrows.order]
      have hsorted := hr.plainSorted
      apply (hsorted.order.filter _).imp_of_mem
      intro t t' ht ht' hbefore
      -- timers of the same tick stand in the order of their starts
      have heq : y.state.timeout t = y.state.timeout t' := by
        have hone := eq_of_beq (List.mem_filter.mp ht).right
        have htwo := eq_of_beq (List.mem_filter.mp ht').right
        exact hone.trans htwo.symm
      rcases hbefore with hlt | ⟨_, hlt⟩
      · unfold State.ahead at hlt
        rw [heq] at hlt
        exact absurd hlt (Nat.lt_irrefl _)
      · exact hlt

end Check

instance {L : Type} (s : System L) : (op : Op) -> Decidable (QuietCallbacks s op)
  | Op.call (Cmd.start _) => inferInstanceAs (Decidable (s.phase = Phase.idle))
  | Op.call (Cmd.stop _) => inferInstanceAs (Decidable (s.phase = Phase.idle))
  | Op.call (Cmd.init _ _ _ _) => isFalse id
  | Op.call (Cmd.detach _) => isFalse id
  | Op.call (Cmd.control _ _) => isFalse id
  | Op.tick => isTrue trivial
  | Op.check => isTrue trivial
  | Op.round => isTrue trivial
  | Op.ret => isTrue trivial

theorem threeTimers_positive (t : TimerId) : (threeTimers t).activated = false ∧
    0 < (threeTimers t).initTick.toNat ∧ (threeTimers t).initTick.toNat < rtTickMax / 2 := by
  unfold threeTimers rtTickMax
  by_cases ht : t = 0 ∨ t = 2
  · simp [ht]
  · simp [ht]

/-- At the last tick before the range wraps timer 1 was called; the timers of tick 0
are next. -/
theorem hard_timers_fire_in_order_wrap :
    exists (x x' : System Rows) (n : Nat) (fired : List TimerId),
      Run (Guarded QuietCallbacks (Graph (step (skipList threeRows))))
        (startSystem emptyRows threeTimers 0xfffffffe 0 readyTimerThread)
        (startsAndTicks.take 7) x ∧
      exec (watched (step (skipList threeRows)) recordCall) (x, [])
        (Op.tick :: rounds n) = some (x', fired.map fun t => (0, t)) ∧
      0 ∈ fired ∧ 1 ∈ fired ∧ 2 ∈ fired ∧ 3 ∉ fired := by
  have hexec : ((exec
      (fun s op => if QuietCallbacks s op then step (skipList threeRows) s op else none)
      (startSystem emptyRows threeTimers 0xfffffffe 0 readyTimerThread)
      (startsAndTicks.take 7)).map fun x =>
        (x.phase, x.state.tick,
          [0, 1, 2, 3].map fun t => (x.state.timer t, x.state.timeout t))) =
      some (Phase.idle, 0xffffffff,
        [(⟨0, 2, true, false, false⟩, 0), (⟨0, 1, true, true, false⟩, 0),
          (⟨0, 2, true, false, false⟩, 0), (⟨0, 1, false, false, false⟩, 0)]) := by
    decide +kernel
  rw [Option.map_eq_some_iff] at hexec
  rcases hexec with ⟨x, hx, hstate⟩
  have hrun := guarded_run_of_exec hx
  rcases (hard_timers_fire_in_order threeRows threeTimers threeTimers_positive
    0xfffffffe 0 readyTimerThread hrun).right (congrArg Prod.fst hstate) with
    ⟨n, x', fired, hfired, _, hmem, _⟩
  have htick : x.state.tick = 0xffffffff := congrArg (fun z => z.2.1) hstate
  have htimers := congrArg (fun z => z.2.2) hstate
  simp only [List.map_cons, List.map_nil, List.cons.injEq, Prod.mk.injEq] at htimers
  rcases htimers with ⟨h0, h1, h2, h3, _⟩
  rw [htick] at hfired hmem
  refine ⟨x, x', n, fired, hrun, hfired, ?_, ?_, ?_, ?_⟩
  · rw [hmem, h0.left, h0.right]
    decide
  · rw [hmem, h1.left, h1.right]
    decide
  · rw [hmem, h2.left, h2.right]
    decide
  · rw [hmem, h3.left]
    simp

end RtThread.Kernel.Timer
