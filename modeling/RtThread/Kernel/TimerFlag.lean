import RtThread.Kernel.TimerOrder

/-!
# The activation flag

Runs of all timer functions, with rows of any shape. `RT_TIMER_FLAG_ACTIVATED` tells whether a
timer is linked, except for the timer whose function is running. The flag gets wrong when a timer
is detached with the flag set, when a one-shot timer is left started by its own function, or when
a linked timer is initialised; the results are about runs without these.
-/

namespace RtThread.Kernel.Timer

open Transition
open Function (update update_of_ne update_self)

/-!
## The last thing a timeout function did to its own timer
-/

inductive Own where
  | nothing
  | started
  | stopped
  | detached
deriving DecidableEq, Repr

def recordOwn {L : Type} (s : System L) (op : Op) (_s' : System L) (own : Own) : Own :=
  match op, s.phase with
  | Op.round, _ => Own.nothing
  | Op.call (Cmd.start t), Phase.callback t' => if t = t' then Own.started else own
  | Op.call (Cmd.stop t), Phase.callback t' => if t = t' then Own.stopped else own
  | Op.call (Cmd.detach t), Phase.callback t' => if t = t' then Own.detached else own
  | _, _ => own

def KeepsFlag (c : SkipConfig) (x : System Rows × Own) : Op -> Prop
  | Op.call (Cmd.init t _ _ _) => ¬ c.Linked x.1.state t
  | Op.call (Cmd.detach t) =>
    (x.1.state.timer t).activated = false ∨ x.1.phase = Phase.callback t
  | Op.ret => forall t, x.1.phase = Phase.callback t ->
      (c.Linked x.1.state t ->
        (x.1.state.timer t).periodic ∧ (x.1.state.timer t).activated) ∧
      (x.2 = Own.detached ->
        ¬ ((x.1.state.timer t).periodic ∧ (x.1.state.timer t).activated))
  | _ => True

/-!
## Flags and rows
-/

/-- The flags agree with the rows, but a timer of `loose` may be flagged without
being linked. -/
structure Flagged (c : SkipConfig) (s : State Rows) (lists : RowLists)
    (loose : TimerId -> Prop) : Prop where
  sound : Sound c s lists
  active : forall x h, x ∈ lists c.bottom h -> (s.timer x).activated = true
  linked : forall x, ¬ loose x -> (s.timer x).activated = true ->
    exists h, x ∈ lists c.bottom h

section Flagged

variable {c : SkipConfig} {s s' : State Rows} {lists : RowLists}
  {loose loose' : TimerId -> Prop} {t : TimerId}

theorem Flagged.mono (hf : Flagged c s lists loose)
    (hloose : forall x, loose x -> loose' x) : Flagged c s lists loose' :=
  ⟨hf.sound, hf.active, fun x hx => hf.linked x fun hin => hx (hloose x hin)⟩

theorem Flagged.congr (hf : Flagged c s lists loose) (hsound : Sound c s' lists)
    (hflag : forall x, (s'.timer x).activated = (s.timer x).activated) :
    Flagged c s' lists loose := by
  constructor
  · exact hsound
  · intro x h hx
    rw [hflag x]
    exact hf.active x h hx
  · intro x hx hact
    rw [hflag x] at hact
    exact hf.linked x hx hact

theorem Flagged.remove (hf : Flagged c s lists loose)
    (hloose : (s.timer t).activated = true -> loose' t)
    (hsub : forall x, loose x -> loose' x) :
    Flagged c (rtTimerRemove (skipList c) s t) (fun i h => (lists i h).erase t)
      loose' := by
  constructor
  · exact hf.sound.remove t
  · intro x h hx
    exact hf.active x h (List.mem_of_mem_erase hx)
  · intro x hx hact
    have hxt : x ≠ t := by
      intro heq
      subst heq
      exact hx (hloose hact)
    rcases hf.linked x (fun hin => hx (hsub x hin)) hact with ⟨h, hin⟩
    exact ⟨h, (hf.sound.mem_erase c.bottom_lt).mpr ⟨hxt, hin⟩⟩

theorem Flagged.clear (hf : Flagged c s lists loose) (hfree : forall h, t ∉ lists c.bottom h)
    (hloose : forall x, x ≠ t -> loose x -> loose' x) :
    Flagged c (s.setActivated t false) lists loose' := by
  constructor
  · exact hf.sound.setActivated false
  · intro x h hx
    have hxt : x ≠ t := fun heq => hfree h (heq ▸ hx)
    show (update s.timer t _ x).activated = true
    rw [update_of_ne hxt]
    exact hf.active x h hx
  · intro x hx hact
    have hxt : x ≠ t := by
      intro heq
      subst heq
      simp [State.setActivated] at hact
    have hsame : (s.setActivated t false).timer x = s.timer x :=
      update_of_ne hxt _ _
    rw [hsame] at hact
    exact hf.linked x (fun hin => hx (hloose x hxt hin)) hact

theorem Flagged.stop (hf : Flagged c s lists loose) (t : TimerId) :
    Flagged c (rtTimerStop (skipList c) s t).1
      (if (s.timer t).activated then fun i h => (lists i h).erase t else lists)
      loose := by
  unfold rtTimerStop
  split
  · have hremoved : Flagged c (rtTimerRemove (skipList c) s t)
        (fun i h => (lists i h).erase t) (fun x => loose x ∨ x = t) :=
      hf.remove (fun _ => Or.inr rfl) (fun _ hx => Or.inl hx)
    apply hremoved.clear
    · intro h hin
      exact ((hf.sound.mem_erase c.bottom_lt).mp hin).left rfl
    · rintro x hxt (hx | heq)
      · exact hx
      · exact absurd heq hxt
  · exact hf

theorem Flagged.wake (hf : Flagged c s lists loose) (t : TimerId) :
    exists lists', Flagged c (wakeTimerThread (skipList c) s t) lists' loose := by
  unfold wakeTimerThread resumeTimerThread
  split
  · split
    · have hstop := hf.stop s.timerThread.threadTimer
      exact ⟨_, hstop.congr (hstop.sound.congr rfl rfl fun _ => rfl) fun _ => rfl⟩
    · exact ⟨lists, hf⟩
  · exact ⟨lists, hf⟩

theorem Flagged.started (hsound : Sound c s lists)
    (hactive : forall x h, x ≠ t -> x ∈ lists c.bottom h -> (s.timer x).activated = true)
    (hlinked : forall x, x ≠ t -> ¬ loose x -> (s.timer x).activated = true ->
      exists h, x ∈ lists c.bottom h)
    {rows' : Rows} {lists' : RowLists}
    (hsound' : Sound c ((rtTimerArm (skipList c) s t).started t rows') lists')
    (hins : Inserted c (rtTimerArm (skipList c) s t).timeout (s.timer t).list t
      (fun i h => (lists i h).erase t) lists') :
    Flagged c ((rtTimerArm (skipList c) s t).started t rows') lists' loose := by
  have htimer : forall x, x ≠ t ->
      ((rtTimerArm (skipList c) s t).started t rows').timer x = s.timer x := by
    intro x hxt
    rw [State.started_timer, update_of_ne hxt, rtTimerArm_timer, update_of_ne hxt]
  have hself : (((rtTimerArm (skipList c) s t).started t rows').timer t).activated =
      true := by
    rw [State.started_timer, update_self]
  constructor
  · exact hsound'
  · intro x h hx
    by_cases hxt : x = t
    · rw [hxt]
      exact hself
    · rw [htimer x hxt]
      rcases hins.mem_bottom.mp hx with hold | ⟨heq, _⟩
      · exact hactive x h hxt (List.mem_of_mem_erase hold)
      · exact absurd heq hxt
  · intro x hx hact
    by_cases hxt : x = t
    · exact ⟨_, hins.mem_bottom.mpr (Or.inr ⟨hxt, rfl⟩)⟩
    · rw [htimer x hxt] at hact
      rcases hlinked x hxt hx hact with ⟨h, hin⟩
      exact ⟨h,
        hins.mem_bottom.mpr (Or.inl ((hsound.mem_erase c.bottom_lt).mpr ⟨hxt, hin⟩))⟩

theorem Flagged.start (hsound : Sound c s lists)
    (hactive : forall x h, x ≠ t -> x ∈ lists c.bottom h -> (s.timer x).activated = true)
    (hlinked : forall x, x ≠ t -> ¬ loose x -> (s.timer x).activated = true ->
      exists h, x ∈ lists c.bottom h)
    (hs : rtTimerStart (skipList c) s t = some s') :
    exists lists', Flagged c s' lists' loose := by
  by_cases hinit : (s.timer t).initTick.toNat < rtTickMax / 2
  · rcases hsound.start t with ⟨rows', lists', heq, hsound', hins⟩
    rw [rtTimerStart_eq _ hinit, heq] at hs
    cases hs
    exact (Flagged.started hsound hactive hlinked hsound' hins).wake t
  · unfold rtTimerStart at hs
    rw [if_neg hinit] at hs
    cases hs

theorem Flagged.timeoutReturn (hf : Flagged c s lists fun x => loose x ∨ x = t)
    (hfree : (exists h, t ∈ lists c.bottom h) -> (s.timer t).periodic ∧ (s.timer t).activated)
    (hs : timeoutReturn (skipList c) s t = some s') :
    exists lists', Flagged c s' lists' loose := by
  have hsame : forall x, x ≠ t -> (s.setActivated t false).timer x = s.timer x := by
    intro x hxt
    exact update_of_ne hxt _ _
  unfold Timer.timeoutReturn at hs
  split at hs
  · apply Flagged.start (hf.sound.setActivated false) _ _ hs
    · intro x h hxt hx
      rw [hsame x hxt]
      exact hf.active x h hx
    · intro x hxt hx hact
      rw [hsame x hxt] at hact
      apply hf.linked x _ hact
      rintro (hin | heq)
      · exact hx hin
      · exact hxt heq
  · rename_i hnot
    cases hs
    refine ⟨lists, hf.clear ?_ ?_⟩
    · intro h hin
      exact hnot (hfree ⟨h, hin⟩)
    · rintro x hxt (hx | heq)
      · exact hx
      · exact absurd heq hxt

theorem Flagged.init (hf : Flagged c s lists loose)
    (hfree : forall h, t ∉ lists c.bottom h) (time : Tick) (periodic soft : Bool) :
    Flagged c (rtTimerInit (skipList c) s t time periodic soft) lists loose := by
  have hsame : forall x, x ≠ t ->
      (rtTimerInit (skipList c) s t time periodic soft).timer x = s.timer x := by
    intro x hxt
    exact update_of_ne hxt _ _
  constructor
  · constructor
    · exact hf.sound.wired.init hfree
    · exact hf.sound.few
    · intro h x hx
      rw [hsame x fun heq => hfree h (heq ▸ hx)]
      exact hf.sound.placed h x hx
  · intro x h hx
    rw [hsame x fun heq => hfree h (heq ▸ hx)]
    exact hf.active x h hx
  · intro x hx hact
    have hxt : x ≠ t := by
      intro heq
      subst heq
      simp [rtTimerInit] at hact
    rw [hsame x hxt] at hact
    exact hf.linked x hx hact

theorem Flagged.control (hf : Flagged c s lists loose) (t : TimerId)
    (ctrl : TimerCtrl) : Flagged c (rtTimerControl s t ctrl).1 lists loose := by
  have hset : forall r : RtTimer, r.list = (s.timer t).list ->
      r.activated = (s.timer t).activated ->
      Flagged c (s.setTimer t r) lists loose := by
    intro r hkind hflag
    apply hf.congr (hf.sound.setTimer hkind)
    intro x
    rw [State.setTimer_timer]
    by_cases hxt : x = t
    · subst hxt
      rw [update_self, hflag]
    · rw [update_of_ne hxt]
  cases ctrl with
  | getTime => exact hf
  | setTime time => exact hset _ rfl rfl
  | setOneshot => exact hset _ rfl rfl
  | setPeriodic => exact hset _ rfl rfl

end Flagged

/-!
## Whole runs
-/

theorem stop_activated {L : Type} {ops : ListOps L} {s : State L} {t u : TimerId}
    (hoff : (s.timer t).activated = false) :
    ((rtTimerStop ops s u).1.timer t).activated = false := by
  unfold rtTimerStop
  split
  · show RtTimer.activated (update s.timer u _ t) = false
    by_cases htu : t = u
    · subst htu
      rw [update_self]
    · rw [update_of_ne htu]
      exact hoff
  · exact hoff

theorem start_activated {L : Type} {ops : ListOps L} {s s' : State L} {t u : TimerId}
    (hne : t ≠ u) (hoff : (s.timer t).activated = false)
    (hs : rtTimerStart ops s u = some s') : (s'.timer t).activated = false := by
  by_cases hinit : (s.timer u).initTick.toNat < rtTickMax / 2
  · rw [rtTimerStart_eq _ hinit, Option.map_eq_some_iff] at hs
    rcases hs with ⟨lists, _, hs'⟩
    rw [← hs']
    have hkept : (((rtTimerArm ops s u).started u lists).timer t).activated = false := by
      rw [State.started_timer, update_of_ne hne, rtTimerArm_timer, update_of_ne hne]
      exact hoff
    unfold wakeTimerThread resumeTimerThread
    split
    · split
      · exact stop_activated hkept
      · exact hkept
    · exact hkept
  · unfold rtTimerStart at hs
    rw [if_neg hinit] at hs
    cases hs

theorem call_activated {L : Type} {ops : ListOps L} {s s' : State L} {t : TimerId}
    {cmd : Cmd} (hcmd : cmd ≠ Cmd.start t) (hoff : (s.timer t).activated = false)
    (hs : call ops s cmd = some s') : (s'.timer t).activated = false := by
  cases cmd with
  | init u time periodic soft =>
    cases hs
    show RtTimer.activated (update s.timer u _ t) = false
    by_cases htu : t = u
    · subst htu
      rw [update_self]
    · rw [update_of_ne htu]
      exact hoff
  | start u =>
    apply start_activated _ hoff hs
    intro heq
    exact hcmd (by rw [heq])
  | stop u =>
    cases hs
    exact stop_activated hoff
  | detach u =>
    cases hs
    exact hoff
  | control u ctrl =>
    cases hs
    by_cases htu : t = u
    · subst htu
      cases ctrl <;> simpa [rtTimerControl] using hoff
    · cases ctrl <;> simpa [rtTimerControl, htu] using hoff

theorem stop_self_activated {L : Type} {ops : ListOps L} {s : State L} {t : TimerId} :
    ((rtTimerStop ops s t).1.timer t).activated = false := by
  unfold rtTimerStop
  split
  · show RtTimer.activated (update s.timer t _ t) = false
    rw [update_self]
  · rename_i hoff
    simpa using hoff

/-- The invariant.  A timer that its own function stopped last is not flagged. -/
structure Truthful (c : SkipConfig) (x : System Rows × Own) : Prop where
  flagged : exists lists,
    Flagged c x.1.state lists fun t => x.1.phase = Phase.callback t
  stopped : forall t, x.1.phase = Phase.callback t -> x.2 = Own.stopped ->
    (x.1.state.timer t).activated = false

section Runs

variable {c : SkipConfig} {s : State Rows} {phase : Phase} {own : Own}
  {x' : System Rows × Own}

theorem Truthful.call {cmd : Cmd} {s' : State Rows}
    (hx : Truthful c ({ state := s, phase := phase }, own))
    (hok : KeepsFlag c ({ state := s, phase := phase }, own) (Op.call cmd))
    (hs : call (skipList c) s cmd = some s') :
    exists lists, Flagged c s' lists fun t => phase = Phase.callback t := by
  rcases hx.flagged with ⟨lists, hf⟩
  cases cmd with
  | init t time periodic soft =>
    cases hs
    refine ⟨lists, hf.init ?_ time periodic soft⟩
    intro h hin
    exact hok (hf.sound.wired.linked_iff.mpr ⟨h, hin⟩)
  | start t =>
    exact Flagged.start hf.sound (fun x h _ => hf.active x h) (fun x _ => hf.linked x) hs
  | stop t =>
    cases hs
    exact ⟨_, hf.stop t⟩
  | detach t =>
    cases hs
    refine ⟨_, hf.remove ?_ fun _ hx => hx⟩
    intro hact
    rcases hok with hoff | hown
    · have hoff' : (s.timer t).activated = false := hoff
      rw [hoff'] at hact
      cases hact
    · exact hown
  | control t ctrl =>
    cases hs
    exact ⟨lists, hf.control t ctrl⟩

theorem Truthful.callStopped {cmd : Cmd} {s' : State Rows}
    (hx : Truthful c ({ state := s, phase := phase }, own))
    (hs : Timer.call (skipList c) s cmd = some s') :
    forall t, phase = Phase.callback t -> recordOwn { state := s, phase := phase } (Op.call cmd)
        { state := s', phase := phase } own = Own.stopped ->
      (s'.timer t).activated = false := by
  intro t hphase hown
  subst hphase
  -- what was stopped stays stopped under every call but a start of this timer
  have hkept : cmd ≠ Cmd.start t -> own = Own.stopped -> (s'.timer t).activated = false := by
    intro hcmd hstopped
    exact call_activated hcmd (hx.stopped t rfl hstopped) hs
  cases cmd with
  | init u time periodic soft => exact hkept (by simp) hown
  | control u ctrl => exact hkept (by simp) hown
  | start u =>
    simp only [recordOwn] at hown
    split at hown
    · cases hown
    · rename_i hne
      exact hkept (by simpa using hne) hown
  | stop u =>
    simp only [recordOwn] at hown
    split at hown
    · rename_i heq
      subst heq
      cases hs
      exact stop_self_activated
    · exact hkept (by simp) hown
  | detach u =>
    simp only [recordOwn] at hown
    split at hown
    · cases hown
    · exact hkept (by simp) hown

theorem step_truthful {x : System Rows × Own} {op : Op} (hx : Truthful c x)
    (hs : Guarded (KeepsFlag c) (Graph (watched (step (skipList c)) recordOwn))
      x op x') : Truthful c x' := by
  rcases x with ⟨⟨s, phase⟩, own⟩
  rcases hs with ⟨hok, hs⟩
  rcases watched_eq_some hs with ⟨hstep, hown⟩
  rcases x' with ⟨y, own'⟩
  change own' = recordOwn _ op y own at hown
  subst hown
  change step (skipList c) { state := s, phase := phase } op = some y at hstep
  cases op with
  | call cmd =>
    by_cases hchecking : exists current, phase = Phase.checking current
    · rcases hchecking with ⟨current, hphase⟩
      rw [step_call_checking hphase] at hstep
      cases hstep
    · push Not at hchecking
      rw [step_call hchecking, Option.map_eq_some_iff] at hstep
      rcases hstep with ⟨s', hs', heq⟩
      subst heq
      exact ⟨hx.call hok hs', hx.callStopped hs'⟩
  | tick =>
    rcases hx.flagged with ⟨lists, hf⟩
    simp only [step] at hstep
    split at hstep
    · rename_i hidle
      cases hstep
      constructor
      · have hnext : Flagged c { s with tick := s.tick + 1 } lists
            fun t => phase = Phase.callback t :=
          hf.congr (hf.sound.congr rfl rfl fun _ => rfl) fun _ => rfl
        refine ⟨lists, hnext.mono ?_⟩
        intro t ht
        rw [hidle] at ht
        cases ht
      · intro t ht
        cases ht
    · cases hstep
  | check =>
    rcases hx.flagged with ⟨lists, hf⟩
    simp only [step] at hstep
    split at hstep
    · rename_i hidle
      cases hstep
      constructor
      · refine ⟨lists, hf.mono ?_⟩
        intro t ht
        rw [hidle] at ht
        cases ht
      · intro t ht
        cases ht
    · cases hstep
  | round =>
    rcases hx.flagged with ⟨lists, hf⟩
    cases phase with
    | idle => cases hstep
    | callback t => cases hstep
    | checking current =>
      rw [step_round rfl, hf.sound.wired.first] at hstep
      cases hstep
      have hidle : Truthful c ({ state := s, phase := Phase.idle }, Own.nothing) := by
        constructor
        · refine ⟨lists, hf.mono ?_⟩
          intro t ht
          cases ht
        · intro t ht
          cases ht
      cases (lists c.bottom TimerList.hard).head? with
      | none => exact hidle
      | some t =>
        by_cases hdue : s.Due current t
        · simp only [if_pos hdue]
          constructor
          · refine ⟨_, hf.remove (fun _ => rfl) ?_⟩
            intro u hu
            cases hu
          · intro u _ hown
            cases hown
        · simp only [if_neg hdue]
          exact hidle
  | ret =>
    rcases hx.flagged with ⟨lists, hf⟩
    cases phase with
    | idle => cases hstep
    | checking current => cases hstep
    | callback t =>
      rw [step_ret rfl, Option.map_eq_some_iff] at hstep
      rcases hstep with ⟨s', hs', heq⟩
      subst heq
      constructor
      · have hloose : Flagged c s lists fun u =>
            Phase.checking s'.tick = Phase.callback u ∨ u = t := by
          apply hf.mono
          intro u hu
          cases hu
          exact Or.inr rfl
        apply hloose.timeoutReturn _ hs'
        intro hin
        exact (hok t rfl).left (hf.sound.wired.linked_iff.mpr hin)
      · intro u hu
        cases hu

theorem ended_not_rearmed {t : TimerId} {s' : State Rows}
    (hended : ¬ ((s.timer t).periodic ∧ (s.timer t).activated))
    (hfree : ¬ c.Linked s t) (hs : timeoutReturn (skipList c) s t = some s') :
    ¬ c.Linked s' t := by
  unfold timeoutReturn at hs
  rw [if_neg hended] at hs
  cases hs
  exact hfree

theorem Flagged.stop_linked {lists : RowLists} {loose : TimerId -> Prop} {t : TimerId}
    (hf : Flagged c s lists loose) (hlinked : c.Linked s t) :
    (rtTimerStop (skipList c) s t).2 = RtErr.eok ∧
      ¬ c.Linked (rtTimerStop (skipList c) s t).1 t := by
  rcases hf.sound.wired.linked_iff.mp hlinked with ⟨h, hin⟩
  have hremoved := (hf.sound.remove t).setActivated (t := t) false
  unfold rtTimerStop
  rw [if_pos (hf.active t h hin)]
  refine ⟨rfl, ?_⟩
  rw [hremoved.wired.linked_iff]
  rintro ⟨h', hin'⟩
  exact ((hf.sound.mem_erase c.bottom_lt).mp hin').left rfl

end Runs

/-- Runs whose steps do not make a flag wrong: every flag tells whether its timer is linked,
apart from the running one; every linked timer can be stopped; and a timer that its own
function stopped or detached last is not started again. -/
theorem timer_flag_truthful (c : SkipConfig) (timers : TimerId -> RtTimer)
    (htimers : forall t, (timers t).activated = false) (tick : Tick) (r : BitVec 32)
    (thread : TimerThread) {labels : List Op} {x : System Rows × Own}
    (hrun : Run
      (Guarded (KeepsFlag c) (Graph (watched (step (skipList c)) recordOwn)))
      (startSystem emptyRows timers tick r thread, Own.nothing) labels x) :
    (forall t, x.1.phase ≠ Phase.callback t ->
      ((x.1.state.timer t).activated = true <-> c.Linked x.1.state t)) ∧
    (forall t, c.Linked x.1.state t ->
      (rtTimerStop (skipList c) x.1.state t).2 = RtErr.eok ∧
        ¬ c.Linked (rtTimerStop (skipList c) x.1.state t).1 t) ∧
    (forall t x', x.1.phase = Phase.callback t ->
      x.2 = Own.stopped ∨ x.2 = Own.detached ->
      Guarded (KeepsFlag c) (Graph (watched (step (skipList c)) recordOwn))
        x Op.ret x' ->
      ¬ c.Linked x'.1.state t) := by
  have hstart : Truthful c
      (startSystem emptyRows timers tick r thread, Own.nothing) := by
    constructor
    · refine ⟨fun _ _ => [], ?_, ?_, ?_⟩
      · constructor
        · exact wired_empty
        · exact fun _ => Nat.le_refl 0
        · intro h t ht
          cases ht
      · intro t h ht
        cases ht
      · intro t _ hact
        have hoff : (timers t).activated = true := hact
        rw [htimers t] at hoff
        cases hoff
    · intro t ht
      cases ht
  have hx := hrun.invariant (Truthful c) hstart fun _ _ _ => step_truthful
  rcases hx.flagged with ⟨lists, hf⟩
  refine ⟨?_, ?_, ?_⟩
  · intro t ht
    rw [hf.sound.wired.linked_iff]
    constructor
    · exact hf.linked t ht
    · rintro ⟨h, hin⟩
      exact hf.active t h hin
  · intro t hlinked
    exact hf.stop_linked hlinked
  · intro t x' hphase hended hret
    rcases hret with ⟨hok, hret⟩
    rcases hok t hphase with ⟨hkeep, hdetached⟩
    have hnot : ¬ ((x.1.state.timer t).periodic ∧ (x.1.state.timer t).activated) := by
      rcases hended with hstopped | hdet
      · rw [hx.stopped t hphase hstopped]
        simp
      · exact hdetached hdet
    have hstep := (watched_eq_some hret).left
    rw [step_ret hphase, Option.map_eq_some_iff] at hstep
    rcases hstep with ⟨s', hs', heq⟩
    rw [← heq]
    exact ended_not_rearmed hnot (fun hlinked => hnot (hkeep hlinked)) hs'

instance (c : SkipConfig) (x : System Rows × Own) : (op : Op) ->
    Decidable (KeepsFlag c x op)
  | Op.call (Cmd.init t _ _ _) => inferInstanceAs (Decidable (¬ c.Linked x.1.state t))
  | Op.call (Cmd.detach _) => inferInstanceAs (Decidable (_ ∨ _))
  | Op.call (Cmd.start _) => isTrue trivial
  | Op.call (Cmd.stop _) => isTrue trivial
  | Op.call (Cmd.control _ _) => isTrue trivial
  | Op.tick => isTrue trivial
  | Op.check => isTrue trivial
  | Op.round => isTrue trivial
  | Op.ret =>
    match hphase : x.1.phase with
    | Phase.idle => isTrue fun t ht => by rw [hphase] at ht; cases ht
    | Phase.checking _ => isTrue fun t ht => by rw [hphase] at ht; cases ht
    | Phase.callback t =>
      decidable_of_iff
        ((c.Linked x.1.state t ->
            (x.1.state.timer t).periodic ∧ (x.1.state.timer t).activated) ∧
          (x.2 = Own.detached ->
            ¬ ((x.1.state.timer t).periodic ∧ (x.1.state.timer t).activated)))
        ⟨fun h u hu => by rw [hphase] at hu; cases hu; exact h,
          fun h => h t hphase⟩

/-- The periodic timer 1 stops itself, timer 3 is stopped by its own function after
it was started again. -/
theorem timer_flag_truthful_stopped : exists x : System Rows × Own,
    Run (Guarded (KeepsFlag oneRow) (Graph (watched (step (skipList oneRow)) recordOwn)))
      (startSystem emptyRows threeTimers 0 0 readyTimerThread, Own.nothing)
      [Op.call (Cmd.start 1), Op.call (Cmd.start 3), Op.call (Cmd.start 0), Op.tick,
        Op.round, Op.call (Cmd.stop 1), Op.ret, Op.round, Op.call (Cmd.start 3),
        Op.call (Cmd.stop 3), Op.ret, Op.round] x ∧
      x.1.phase = Phase.idle ∧
      oneRow.Linked x.1.state 0 ∧ (x.1.state.timer 0).activated = true ∧
      ¬ oneRow.Linked x.1.state 1 ∧ ¬ oneRow.Linked x.1.state 3 := by
  have hexec : ((exec
      (fun s op => if KeepsFlag oneRow s op then
        watched (step (skipList oneRow)) recordOwn s op else none)
      (startSystem emptyRows threeTimers 0 0 readyTimerThread, Own.nothing)
      [Op.call (Cmd.start 1), Op.call (Cmd.start 3), Op.call (Cmd.start 0), Op.tick,
        Op.round, Op.call (Cmd.stop 1), Op.ret, Op.round, Op.call (Cmd.start 3),
        Op.call (Cmd.stop 3), Op.ret, Op.round]).map fun x =>
      (x.1.phase, [0, 1, 3].map fun t => (x.1.state.timer t).activated)) =
      some (Phase.idle, [true, false, false]) := by
    decide +kernel
  rw [Option.map_eq_some_iff] at hexec
  rcases hexec with ⟨x, hx, hstate⟩
  have hrun := guarded_run_of_exec hx
  have hidle : x.1.phase = Phase.idle := congrArg Prod.fst hstate
  have hflags := congrArg Prod.snd hstate
  simp only [List.map_cons, List.map_nil, List.cons.injEq] at hflags
  rcases hflags with ⟨h0, h1, h3, _⟩
  have hflag := (timer_flag_truthful oneRow threeTimers (fun _ => rfl) 0 0
    readyTimerThread hrun).left
  refine ⟨x, hrun, hidle, (hflag 0 (by simp [hidle])).mp h0, h0, ?_, ?_⟩
  · rw [← hflag 1 (by simp [hidle]), h1]
    simp
  · rw [← hflag 3 (by simp [hidle]), h3]
    simp

/-- A timer detached while it runs stays flagged, a periodic timer detached by its own
function is started again, and a one-shot timer started by its own function is linked
without the flag, so that it cannot be stopped. -/
theorem timer_flag_lies :
    ((exec (step (skipList oneRow))
        (startSystem emptyRows threeTimers 0 0 readyTimerThread)
        [Op.call (Cmd.start 1), Op.call (Cmd.detach 1)]).map fun x =>
      (x.phase, (x.state.timer 1).activated, decide (oneRow.Linked x.state 1))) =
      some (Phase.idle, true, false) ∧
    ((exec (step (skipList oneRow))
        (startSystem emptyRows threeTimers 0 0 readyTimerThread)
        [Op.call (Cmd.start 1), Op.tick, Op.round, Op.call (Cmd.detach 1), Op.ret,
          Op.round]).map fun x =>
      (x.phase, decide (oneRow.Linked x.state 1))) = some (Phase.idle, true) ∧
    ((exec (step (skipList oneRow))
        (startSystem emptyRows threeTimers 0 0 readyTimerThread)
        [Op.call (Cmd.start 3), Op.tick, Op.round, Op.call (Cmd.start 3), Op.ret,
          Op.round]).map fun x =>
      (x.phase, (x.state.timer 3).activated, decide (oneRow.Linked x.state 3),
        (rtTimerStop (skipList oneRow) x.state 3).2)) =
      some (Phase.idle, false, true, RtErr.error) := by
  refine ⟨?_, ?_, ?_⟩
  · decide +kernel
  · decide +kernel
  · decide +kernel

end RtThread.Kernel.Timer
