import RtThread.Kernel.TimerOrder

/-!
# The end of a check

`rt_timer_check` reads the head of the list that it drains and that `rt_timer_start` puts the
periodic timers back into. A timer started again with a positive time is not due at the current
tick; one with the time zero, which the assertion admits, is due again and the loop does not end.
-/

namespace RtThread.Kernel.Timer

open Transition
open Function (update update_of_ne update_self)

/-!
## The lists that are checked
-/

/-- Threads set up, start, stop and control timers with times that `rt_timer_start` admits;
timeout functions leave them alone. A linked timer is not initialised. -/
def BuildsList (c : SkipConfig) (x : System Rows) : Op -> Prop
  | Op.call (Cmd.init t time _ _) =>
    x.phase = Phase.idle ∧ time.toNat < rtTickMax / 2 ∧ ¬ c.Linked x.state t
  | Op.call (Cmd.start _) => x.phase = Phase.idle
  | Op.call (Cmd.stop _) => x.phase = Phase.idle
  | Op.call (Cmd.detach _) => False
  | Op.call (Cmd.control _ (TimerCtrl.setTime time)) =>
    x.phase = Phase.idle ∧ time.toNat < rtTickMax / 2
  | Op.call (Cmd.control _ _) => x.phase = Phase.idle
  | _ => True

def SkipConfig.Expired (c : SkipConfig) (s : State Rows) (t : TimerId) : Prop :=
  (s.timer t).soft = false ∧ c.Linked s t ∧ s.Due s.tick t

/-- The running check returns, and has then called every timer that is due now, each
once. -/
def SkipConfig.CheckEnds (c : SkipConfig) (x : System Rows) : Prop :=
  exists (n : Nat) (x' : System Rows) (fired : List TimerId),
    exec (watched (step (skipList c)) recordCall) (x, []) (rounds n) =
      some (x', fired.map fun t => (x.state.tick, t)) ∧
    x'.phase = Phase.idle ∧ fired.Nodup ∧
    forall t, t ∈ fired <-> c.Expired x.state t

section Invariant

variable {c : SkipConfig} {s : State Plain} {x x' : System Rows} {y : System Plain}
  {t : TimerId}

theorem Active.setTimer (ha : Active { state := s, phase := Phase.idle })
    {r : RtTimer} (hinit : r.initTick.toNat < rtTickMax / 2)
    (hsoft : t ∈ s.lists TimerList.hard -> r.soft = false)
    (hactive : r.soft = false -> (r.activated = true <-> t ∈ s.lists TimerList.hard)) :
    Active { state := s.setTimer t r, phase := Phase.idle } := by
  have hcases (z : TimerId) : z ≠ t ∧ (s.setTimer t r).timer z = s.timer z ∨
        z = t ∧ (s.setTimer t r).timer z = r := by
    rw [State.setTimer_timer]
    by_cases hz : z = t
    · subst hz
      exact Or.inr ⟨rfl, update_self _ _ _⟩
    · exact Or.inl ⟨hz, update_of_ne hz _ _⟩
  constructor
  · intro z
    rcases hcases z with ⟨_, hsame⟩ | ⟨_, hnew⟩
    · rw [hsame]
      exact ha.periods z
    · rw [hnew]
      exact hinit
  · intro z hz
    rcases hcases z with ⟨_, hsame⟩ | ⟨hzt, hnew⟩
    · rw [hsame]
      exact ha.hard z hz
    · rw [hnew]
      exact hsoft (hzt ▸ hz)
  · exact ha.nodup
  · intro z
    rcases hcases z with ⟨_, hsame⟩ | ⟨hzt, hnew⟩
    · rw [hsame]
      exact ha.linked z
    · rw [hnew, hzt]
      exact fun hkind _ => hactive hkind
  · intro z hz
    cases hz

theorem Active.control (ha : Active { state := s, phase := Phase.idle }) {ctrl : TimerCtrl}
    (htime : forall time, ctrl = TimerCtrl.setTime time -> time.toNat < rtTickMax / 2) :
    Active { state := (rtTimerControl s t ctrl).1, phase := Phase.idle } := by
  have hactive (hsoft : (s.timer t).soft = false) := ha.linked t hsoft (by simp)
  cases ctrl with
  | getTime => exact ha
  | setTime time => exact ha.setTimer (htime time rfl) (ha.hard t) hactive
  | setOneshot => exact ha.setTimer (ha.periods t) (ha.hard t) hactive
  | setPeriodic => exact ha.setTimer (ha.periods t) (ha.hard t) hactive

theorem SystemRefines.free {low : Nat} (hr : SystemRefines c low x y)
    (hfree : ¬ c.Linked x.state t) : t ∉ y.state.lists TimerList.hard := by
  rcases hr.rows with ⟨lists, hrows⟩
  rw [hrows.hard]
  exact fun hin => hfree (hrows.sound.wired.linked_iff.mpr ⟨TimerList.hard, hin⟩)

theorem SystemRefines.init (hr : SystemRefines c 0 x y) (hfree : ¬ c.Linked x.state t)
    (hidle : x.phase = Phase.idle) (time : Tick) (periodic soft : Bool) :
    SystemRefines c 0 { x with state := rtTimerInit (skipList c) x.state t time periodic soft }
      { y with state := rtTimerInit plainList y.state t time periodic soft } := by
  rcases hr.rows with ⟨lists, hrows⟩
  have hout (h : TimerList) : t ∉ lists c.bottom h :=
    fun hin => hfree (hrows.sound.wired.linked_iff.mpr ⟨h, hin⟩)
  have hsame (z : TimerId) (h : TimerList) (hz : z ∈ lists c.bottom h) :
      (rtTimerInit (skipList c) x.state t time periodic soft).timer z = x.state.timer z := by
    have hzt : z ≠ t := fun heq => hout h (heq ▸ hz)
    exact update_of_ne hzt _ _
  constructor
  · exact hr.phase
  · intro current hcurrent
    exact Phase.noConfusion (hidle.symm.trans hcurrent)
  · refine ⟨lists, ?_⟩
    constructor
    · constructor
      · exact hrows.sound.wired.init hout
      · exact hrows.sound.few
      · intro h z hz
        rw [hsame z h hz]
        exact hrows.sound.placed h z hz
    · show update y.state.timer t _ = update x.state.timer t _
      rw [hrows.timer]
    · exact hrows.tick
    · exact hrows.timerThread
    · exact hrows.starts
    · exact hrows.order
    · exact hrows.hard
    · apply hrows.sorted.congr
      · intro z hz
        unfold State.timeout
        rw [hsame z TimerList.hard hz]
      · exact fun z hz => rfl
      · exact Nat.le_refl _
  · exact fun z => Nat.zero_le _

def Built (c : SkipConfig) (x : System Rows) : Prop :=
  exists y : System Plain, SystemRefines c 0 x y ∧ Active y

theorem start_built (timers : TimerId -> RtTimer)
    (htimers : forall t, (timers t).activated = false ∧ (timers t).initTick.toNat < rtTickMax / 2)
    (tick : Tick) (r : BitVec 32) (thread : TimerThread) :
    Built c (startSystem emptyRows timers tick r thread) := by
  refine ⟨startSystem emptyPlain timers tick 0 thread, start_refines fun t => Nat.zero_le _, ?_⟩
  constructor
  · exact fun t => (htimers t).right
  · intro t ht
    cases ht
  · exact List.nodup_nil
  · intro t _ _
    have hoff : (timers t).activated = false := (htimers t).left
    show (timers t).activated = true <-> t ∈ []
    simp [hoff]
  · intro t ht
    cases ht

theorem step_built_of_quiet {op : Op} (hr : SystemRefines c 0 x y)
    (hs : step (skipList c) x op = some x') (hallowed : op.Allowed 0)
    (hactive : forall y', step plainList y op = some y' -> Active y') : Built c x' := by
  have hstep := step_refines (Nat.zero_le 1) x y op hallowed hr
  rw [hs] at hstep
  cases hy : step plainList y op with
  | none =>
    rw [hy] at hstep
    cases hstep
  | some y' =>
    rw [hy] at hstep
    cases hstep with
    | some hr' => exact ⟨y', hr', hactive y' hy⟩

theorem step_built {op : Op} (hx : Built c x)
    (hs : Guarded (BuildsList c) (Graph (step (skipList c))) x op x') : Built c x' := by
  rcases hx with ⟨y, hr, ha⟩
  rcases hs with ⟨hbuilds, hs⟩
  have hstep : step (skipList c) x op = some x' := hs
  cases op with
  | tick => exact step_built_of_quiet hr hstep trivial fun y' => step_active trivial ha
  | check => exact step_built_of_quiet hr hstep trivial fun y' => step_active trivial ha
  | round => exact step_built_of_quiet hr hstep trivial fun y' => step_active trivial ha
  | ret => exact step_built_of_quiet hr hstep trivial fun y' => step_active trivial ha
  | call cmd =>
    cases cmd with
    | start t =>
      refine step_built_of_quiet hr hstep trivial fun y' => step_active ?_ ha
      exact hr.phase.trans hbuilds
    | stop t =>
      refine step_built_of_quiet hr hstep trivial fun y' => step_active ?_ ha
      exact hr.phase.trans hbuilds
    | detach t => exact hbuilds.elim
    | init t time periodic soft =>
      rcases hbuilds with ⟨hidle, htime, hfree⟩
      rcases step_call_some hstep with ⟨s', hs', heq⟩
      cases hs'
      subst heq
      refine ⟨_, hr.init hfree hidle time periodic soft, ?_⟩
      have hout := hr.free hfree
      rcases y with ⟨p, phase⟩
      have hphase : phase = Phase.idle := hr.phase.trans hidle
      subst hphase
      exact (ha.setTimer htime (fun hin => absurd hin hout)
        (fun _ => by simp [hout])).congr rfl rfl (by simp) (by simp)
    | control t ctrl =>
      have hidle : x.phase = Phase.idle := by
        cases ctrl with
        | setTime time => exact hbuilds.left
        | getTime => exact hbuilds
        | setOneshot => exact hbuilds
        | setPeriodic => exact hbuilds
      have htime : forall time, ctrl = TimerCtrl.setTime time -> time.toNat < rtTickMax / 2 := by
        intro time hctrl
        subst hctrl
        exact hbuilds.right
      have hallowed : (Op.call (Cmd.control t ctrl)).Allowed 0 := by
        cases ctrl with
        | setTime time => exact Nat.zero_le _
        | getTime => trivial
        | setOneshot => trivial
        | setPeriodic => trivial
      refine step_built_of_quiet hr hstep hallowed ?_
      intro y' hy
      rcases step_call_some hy with ⟨p', hp', heq⟩
      cases hp'
      subst heq
      rcases y with ⟨p, phase⟩
      have hphase : phase = Phase.idle := hr.phase.trans hidle
      subst hphase
      exact ha.control htime

theorem Built.of_run {timers : TimerId -> RtTimer}
    (htimers : forall t, (timers t).activated = false ∧ (timers t).initTick.toNat < rtTickMax / 2)
    {tick : Tick} {r : BitVec 32} {thread : TimerThread} {labels : List Op}
    (hrun : Run (Guarded (BuildsList c) (Graph (step (skipList c))))
      (startSystem emptyRows timers tick r thread) labels x) : Built c x :=
  hrun.invariant (Built c) (start_built timers htimers tick r thread) fun _ _ _ => step_built

theorem expired_iff (hr : SystemRefines c 0 x y) (ha : Active y) :
    t ∈ y.state.expired <-> c.Expired x.state t := by
  rcases hr.rows with ⟨lists, hrows⟩
  have hdue : y.state.Due y.state.tick t <-> x.state.Due x.state.tick t := by
    unfold State.Due State.timeout
    rw [hrows.timer, hrows.tick]
  rw [mem_expired, hdue, hrows.hard]
  unfold SkipConfig.Expired
  rw [hrows.sound.wired.linked_iff]
  constructor
  · rintro ⟨hin, hnow⟩
    refine ⟨?_, ⟨TimerList.hard, hin⟩, hnow⟩
    rw [← hrows.timer]
    exact ha.hard t (by rw [hrows.hard]; exact hin)
  · rintro ⟨hsoft, ⟨h, hin⟩, hnow⟩
    have hkind := hrows.sound.placed h t hin
    rw [RtTimer.list_hard_iff.mpr hsoft] at hkind
    exact ⟨hkind ▸ hin, hnow⟩

end Invariant

/-!
## The loop
-/

section Loop

variable {c : SkipConfig} {s s' : State Plain} {x : System Rows} {y : System Plain}
  {t z : TimerId}

theorem Active.expired_kept (ha : Active { state := s, phase := Phase.callback t })
    (hs : Timer.timeoutReturn plainList s t = some s') (hz : z ∈ s.expired) :
    z ∈ s'.expired := by
  rw [mem_expired] at hz ⊢
  have hzt : z ≠ t := fun heq => (ha.called t rfl).left (heq ▸ hz.left)
  rw [(sameSettings_timeoutReturn hs).tick]
  by_cases hagain : (s.timer t).periodic ∧ (s.timer t).activated
  · rw [ha.timeoutReturn_periodic hagain] at hs
    cases hs
    rw [ha.restarted_hard, mem_plainInsert, due_timeout_congr (restarted_timeout_of_ne hzt)]
    exact ⟨Or.inr hz.left, hz.right⟩
  · unfold Timer.timeoutReturn at hs
    rw [if_neg hagain] at hs
    cases hs
    rw [due_timeout_congr (s.setActivated_timeout t z false)]
    exact hz

theorem Active.expired_again (ha : Active { state := s, phase := Phase.callback t })
    (hagain : (s.timer t).periodic ∧ (s.timer t).activated)
    (hzero : (s.timer t).initTick = 0)
    (hs : Timer.timeoutReturn plainList s t = some s') : t ∈ s'.expired := by
  rw [mem_expired, (sameSettings_timeoutReturn hs).tick]
  rw [ha.timeoutReturn_periodic hagain] at hs
  cases hs
  constructor
  · rw [ha.restarted_hard]
    exact mem_plainInsert.mpr (Or.inl rfl)
  · have htimeout : (plainStarted (s.setActivated t false) t).timeout t = s.tick := by
      unfold State.timeout
      rw [plainStarted_timer, update_self, (sameSettings_setActivated false).initTick t, hzero]
      exact BitVec.add_zero _
    unfold State.Due
    rw [htimeout, BitVec.sub_self]
    decide

theorem check_stuck {n : Nat} {x' : System Rows} {calls calls' : List (Tick × TimerId)}
    (hr : SystemRefines c 0 x y) (ha : Active y) {current : Tick}
    (hphase : y.phase = Phase.checking current) (ht : t ∈ y.state.expired)
    (hperiodic : (y.state.timer t).periodic = true)
    (hzero : (y.state.timer t).initTick = 0)
    (hexec : exec (watched (step (skipList c)) recordCall) (x, calls) (rounds n) =
      some (x', calls')) :
    x'.phase ≠ Phase.idle := by
  induction n generalizing x y calls current with
  | zero =>
    obtain ⟨first, rest, hsome⟩ := List.exists_cons_of_ne_nil (List.ne_nil_of_mem ht)
    rcases hr.firstRound (Nat.zero_le 1) ha hphase hsome with
      ⟨x1, x2, y2, hx1, hphase1, _⟩
    have hlast : x1 = x' := by
      simp only [rounds, exec, watched, hx1, Option.map_some, Option.some.injEq,
        Prod.mk.injEq] at hexec
      exact hexec.left
    rw [← hlast, hphase1]
    exact Phase.noConfusion
  | succ n ih =>
    obtain ⟨first, rest, hsome⟩ := List.exists_cons_of_ne_nil (List.ne_nil_of_mem ht)
    rcases hr.firstRound (Nat.zero_le 1) ha hphase hsome with
      ⟨x1, x2, y2, hx1, hphase1, hx2, ha1, hs2, hphase2, hr2, ha2⟩
    have hsettings := sameSettings_timeoutReturn hs2
    -- the timer is still due: as the one that was called, or behind it
    have ht2 : t ∈ y2.state.expired := by
      by_cases hfirst : t = first
      · subst hfirst
        have hactive : (y.state.timer t).activated = true := by
          have hin := (mem_expired.mp ht).left
          exact (ha.linked t (ha.hard t hin) (by simp [hphase])).mpr hin
        exact ha1.expired_again ⟨hperiodic, hactive⟩ hzero hs2
      · apply ha1.expired_kept hs2
        rw [(round_first (hr.checking_tick hphase) hr.plainSorted hsome).right]
        rw [hsome] at ht
        exact (List.mem_cons.mp ht).resolve_left hfirst
    have hexec2 : exec (watched (step (skipList c)) recordCall) (x, calls)
        (Op.round :: Op.ret :: rounds n) = some (x', calls') := hexec
    rw [exec_called hx1 hphase1 hx2] at hexec2
    refine ih hr2 ha2 hphase2 ht2 ?_ ?_ hexec2
    · rw [hsettings.periodic t]
      exact hperiodic
    · rw [hsettings.initTick t]
      exact hzero

end Loop

/-- In every run in which threads set up, start, stop and control timers, and timeout
functions leave them alone: a check ends, having called every timer due once, exactly when
no periodic timer among these has the time zero. -/
theorem check_ends_iff (c : SkipConfig) (timers : TimerId -> RtTimer)
    (htimers : forall t, (timers t).activated = false ∧
      (timers t).initTick.toNat < rtTickMax / 2)
    (tick : Tick) (r : BitVec 32) (thread : TimerThread) {labels : List Op}
    {x : System Rows}
    (hrun : Run (Guarded (BuildsList c) (Graph (step (skipList c))))
      (startSystem emptyRows timers tick r thread) labels x)
    {current : Tick} (hphase : x.phase = Phase.checking current) :
    c.CheckEnds x <->
      forall t, c.Expired x.state t -> (x.state.timer t).periodic = true ->
        (x.state.timer t).initTick ≠ 0 := by
  rcases Built.of_run htimers hrun with ⟨y, hr, ha⟩
  rcases hr.rows with ⟨lists, hrows⟩
  have hphaseY : y.phase = Phase.checking current := hr.phase.trans hphase
  constructor
  · rintro ⟨n, x', fired, hexec, hidle, _⟩ t hexpired hperiodic hzero
    rw [← hrows.timer] at hperiodic hzero
    exact check_stuck hr ha hphaseY ((expired_iff hr ha).mpr hexpired) hperiodic hzero
      hexec hidle
  · intro hpositive
    have hpos : forall t, t ∈ y.state.expired -> (y.state.timer t).periodic = true ->
        0 < (y.state.timer t).initTick.toNat := by
      intro t ht hperiodic
      rw [hrows.timer] at hperiodic ⊢
      have hne := hpositive t ((expired_iff hr ha).mp ht) hperiodic
      generalize (x.state.timer t).initTick = a at hne
      bv_omega
    rcases check_calls_expired (Nat.zero_le 1) [] hr ha hphaseY rfl hpos with
      ⟨x', hx', hidle⟩
    refine ⟨y.state.expired.length, x', y.state.expired, ?_, hidle,
      List.Nodup.filter _ ha.nodup, fun t => expired_iff hr ha⟩
    rw [hx', hrows.tick]
    rfl

instance (c : SkipConfig) (x : System Rows) : (op : Op) -> Decidable (BuildsList c x op)
  | Op.call (Cmd.init _ _ _ _) => inferInstanceAs (Decidable (_ ∧ _ ∧ _))
  | Op.call (Cmd.start _) => inferInstanceAs (Decidable (x.phase = Phase.idle))
  | Op.call (Cmd.stop _) => inferInstanceAs (Decidable (x.phase = Phase.idle))
  | Op.call (Cmd.detach _) => isFalse id
  | Op.call (Cmd.control _ (TimerCtrl.setTime _)) => inferInstanceAs (Decidable (_ ∧ _))
  | Op.call (Cmd.control _ TimerCtrl.getTime) =>
    inferInstanceAs (Decidable (x.phase = Phase.idle))
  | Op.call (Cmd.control _ TimerCtrl.setOneshot) =>
    inferInstanceAs (Decidable (x.phase = Phase.idle))
  | Op.call (Cmd.control _ TimerCtrl.setPeriodic) =>
    inferInstanceAs (Decidable (x.phase = Phase.idle))
  | Op.tick => isTrue trivial
  | Op.check => isTrue trivial
  | Op.round => isTrue trivial
  | Op.ret => isTrue trivial

instance (c : SkipConfig) (s : State Rows) (t : TimerId) : Decidable (c.Expired s t) :=
  inferInstanceAs (Decidable (_ ∧ _ ∧ _))

def zeroedTimer (_ : TimerId) : RtTimer where
  timeoutTick := 0
  initTick := 0
  activated := false
  periodic := false
  soft := false

theorem zeroedTimer_off (t : TimerId) : (zeroedTimer t).activated = false ∧
    (zeroedTimer t).initTick.toNat < rtTickMax / 2 := by
  unfold zeroedTimer rtTickMax
  simp

def oneTickPeriod : List Op :=
  [Op.call (Cmd.init 0 1 true false), Op.call (Cmd.start 0),
    Op.call (Cmd.init 1 0 false false), Op.call (Cmd.start 1), Op.tick]

def execBuilds (c : SkipConfig) (labels : List Op) : Option (System Rows) :=
  exec (fun s op => if BuildsList c s op then step (skipList c) s op else none)
    (startSystem emptyRows zeroedTimer 7 0 readyTimerThread) labels

theorem check_ends_iff_one_tick : exists x : System Rows,
    Run (Guarded (BuildsList threeRows) (Graph (step (skipList threeRows))))
      (startSystem emptyRows zeroedTimer 7 0 readyTimerThread) oneTickPeriod x ∧
    threeRows.Expired x.state 0 ∧ threeRows.Expired x.state 1 ∧
    threeRows.CheckEnds x := by
  have hexec : ((execBuilds threeRows oneTickPeriod).map fun x =>
        (x.phase, (x.state.timer 0).initTick, (x.state.timer 1).periodic,
          decide (threeRows.Expired x.state 0), decide (threeRows.Expired x.state 1))) =
      some (Phase.checking 8, 1, false, true, true) := by
    decide +kernel
  have hothers (k : Nat) : ((execBuilds threeRows oneTickPeriod).map fun x =>
      (x.state.timer (k + 2)).periodic) = some false := rfl
  rw [Option.map_eq_some_iff] at hexec
  rcases hexec with ⟨x, hx, hstate⟩
  simp only [Prod.mk.injEq, decide_eq_true_eq] at hstate
  rcases hstate with ⟨hphase, hinit, hperiodic, hzero, hone⟩
  have hrun := guarded_run_of_exec hx
  refine ⟨x, hrun, hzero, hone, ?_⟩
  rw [check_ends_iff threeRows zeroedTimer zeroedTimer_off 7 0 readyTimerThread hrun
    hphase]
  intro t _ hagain
  match t with
  | 0 =>
    rw [hinit]
    decide
  | 1 =>
    rw [hperiodic] at hagain
    cases hagain
  | k + 2 =>
    have hoff := hothers k
    rw [hx] at hoff
    exact absurd hagain (by simpa using hoff)

def zeroPeriod : List Op :=
  [Op.call (Cmd.init 0 0 true false), Op.call (Cmd.start 0), Op.tick]

/-- The first check after the start calls the timer for ever. -/
theorem check_does_not_end : exists x : System Rows,
    Run (Guarded (BuildsList threeRows) (Graph (step (skipList threeRows))))
      (startSystem emptyRows zeroedTimer 7 0 readyTimerThread) zeroPeriod x ∧
    x.phase = Phase.checking 8 ∧ threeRows.Expired x.state 0 ∧
    (forall (n : Nat) (x' : System Rows) (calls : List (Tick × TimerId)),
      exec (watched (step (skipList threeRows)) recordCall) (x, []) (rounds n) =
        some (x', calls) -> x'.phase ≠ Phase.idle) ∧
    ¬ threeRows.CheckEnds x := by
  have hexec : ((execBuilds threeRows zeroPeriod).map fun x =>
        (x.phase, x.state.timer 0, decide (threeRows.Expired x.state 0))) =
      some (Phase.checking 8, ⟨7, 0, true, true, false⟩, true) := by
    decide +kernel
  rw [Option.map_eq_some_iff] at hexec
  rcases hexec with ⟨x, hx, hstate⟩
  simp only [Prod.mk.injEq, decide_eq_true_eq] at hstate
  rcases hstate with ⟨hphase, htimer, hexpired⟩
  have hrun := guarded_run_of_exec hx
  rcases Built.of_run zeroedTimer_off hrun with ⟨y, hr, ha⟩
  rcases hr.rows with ⟨lists, hrows⟩
  have hstuck (n : Nat) (x' : System Rows) (calls : List (Tick × TimerId))
      (hend : exec (watched (step (skipList threeRows)) recordCall) (x, []) (rounds n) =
        some (x', calls)) : x'.phase ≠ Phase.idle := by
    refine check_stuck hr ha (hr.phase.trans hphase) ((expired_iff hr ha).mpr hexpired)
      ?_ ?_ hend
    · rw [hrows.timer, htimer]
    · rw [hrows.timer, htimer]
  refine ⟨x, hrun, hphase, hexpired, hstuck, ?_⟩
  rintro ⟨n, x', fired, hend, hidle, _⟩
  exact hstuck n x' _ hend hidle

end RtThread.Kernel.Timer
