import RtThread.Kernel.TimerFlag

/-!
# The check of the soft timers

One call of `rt_soft_timer_check`. The loop keeps the successor of the timer that it takes out,
calls the timeout function with the scheduler unlocked, and goes on from that successor. While the
function runs, soft timers may be started and stopped and ticks may pass. When the successor is
stopped meanwhile, its node points at itself and the loop calls a timer that is not linked.
-/

namespace RtThread.Kernel.Timer

open LinkRing
open Function (update_of_ne update_self)
open StableInsert
open Transition

/-!
## The steps of a check
-/

/-- `rt_soft_timer_check` is not running, at the head of its loop with its locals `n` and
`current_tick`, or in a timeout function. -/
inductive SoftPhase where
  | idle
  | loop (n : RowNode) (current : Tick)
  | callback (t : TimerId) (n : RowNode)
deriving DecidableEq

structure SoftSystem where
  state : State Rows
  phase : SoftPhase

/-- The beginning of `rt_soft_timer_check`. -/
def softEnter (c : SkipConfig) (s : State Rows) : SoftPhase :=
  SoftPhase.loop ((s.lists c.bottom).next (Node.head TimerList.soft)) s.tick

/-- One round of the loop, up to the call of the timeout function.  The entry of
another list head is no timer. -/
def softRound (c : SkipConfig) (s : State Rows) (n : RowNode) (current : Tick) :
    Option SoftSystem :=
  match n with
  | Node.head TimerList.soft => some { state := s, phase := SoftPhase.idle }
  | Node.head TimerList.hard => none
  | Node.member t =>
    if s.Due current t then
      some
        { state := rtTimerRemove (skipList c) s t
          phase := SoftPhase.callback t ((s.lists c.bottom).next n) }
    else some { state := s, phase := SoftPhase.idle }

def softReturn (c : SkipConfig) (s : State Rows) (t : TimerId) (n : RowNode) :
    Option SoftSystem :=
  (timeoutReturn (skipList c) s t).map fun x =>
    { state := x, phase := SoftPhase.loop n x.tick }

/-- While a timeout function runs, soft timers are started and stopped and ticks
are counted. -/
inductive SoftOp where
  | start (t : TimerId)
  | stop (t : TimerId)
  | tick
  | round
  | ret
deriving DecidableEq, Repr

def softStep (c : SkipConfig) (x : SoftSystem) (op : SoftOp) : Option SoftSystem :=
  match op, x.phase with
  | SoftOp.start t, SoftPhase.callback _ _ =>
    if (x.state.timer t).soft then
      (rtTimerStart (skipList c) x.state t).map fun s => { x with state := s }
    else none
  | SoftOp.stop t, SoftPhase.callback _ _ =>
    if (x.state.timer t).soft then
      some { x with state := (rtTimerStop (skipList c) x.state t).1 }
    else none
  | SoftOp.tick, SoftPhase.callback _ _ =>
    some { x with state := { x.state with tick := x.state.tick + 1 } }
  | SoftOp.round, SoftPhase.loop n current => softRound c x.state n current
  | SoftOp.ret, SoftPhase.callback t n => softReturn c x.state t n
  | _, _ => none

def recordSoft (x : SoftSystem) (op : SoftOp) (x' : SoftSystem)
    (calls : List (TimerId × Tick)) : List (TimerId × Tick) :=
  match op, x'.phase with
  | SoftOp.round, SoftPhase.callback t _ => calls ++ [(t, x.state.timeout t)]
  | _, _ => calls

/-!
## The soft list in order
-/

/-- The soft list is sorted, with timeouts and current tick within half of the tick range
from `base` on, and the timer thread is running. -/
structure SoftSorted (c : SkipConfig) (base : Tick) (s : State Rows)
    (lists : RowLists) : Prop where
  sound : Sound c s lists
  sorted : Sorted base 1 s (lists c.bottom TimerList.soft)
  ready : s.timerThread.stat = ThreadStat.ready
  past : 1 ≤ (s.tick - base).toNat
  now : (s.tick - base).toNat < rtTickMax / 2

def Fits (base : Tick) (s : State Rows) (t : TimerId) : Prop :=
  (s.tick - base).toNat + (s.timer t).initTick.toNat ≤ rtTickMax / 2

section SoftSorted

variable {c : SkipConfig} {base : Tick} {s s' : State Rows} {lists : RowLists}
  {t x : TimerId}

theorem SoftSorted.due_iff (hs : SoftSorted c base s lists)
    (hx : x ∈ lists c.bottom TimerList.soft) :
    s.Due s.tick x <-> s.ahead base x ≤ (s.tick - base).toNat :=
  Timer.due_iff hs.now (hs.sorted.near x hx)

theorem SoftSorted.remove (hs : SoftSorted c base s lists) (t : TimerId) :
    SoftSorted c base (rtTimerRemove (skipList c) s t) (fun i h => (lists i h).erase t) := by
  constructor
  · exact hs.sound.remove t
  · exact (hs.sorted.sublist List.erase_sublist).congr (fun _ _ => rfl)
      (fun _ _ => rfl) (Nat.le_refl _)
  · exact hs.ready
  · exact hs.past
  · exact hs.now

theorem SoftSorted.setActivated (hs : SoftSorted c base s lists) (t : TimerId)
    (b : Bool) : SoftSorted c base (s.setActivated t b) lists := by
  constructor
  · exact hs.sound.setActivated b
  · exact hs.sorted.congr (fun x _ => s.setActivated_timeout t x b) (fun _ _ => rfl)
      (Nat.le_refl _)
  · exact hs.ready
  · exact hs.past
  · exact hs.now

theorem Fits.ahead_arm (hfits : Fits base s t) : (rtTimerArm (skipList c) s t).ahead base t =
      (s.tick - base).toNat + (s.timer t).initTick.toNat := by
  unfold Fits rtTickMax at hfits
  unfold State.ahead
  rw [arm_timeout]
  generalize (s.timer t).initTick = a at hfits ⊢
  generalize s.tick = b at hfits ⊢
  bv_omega

theorem SoftSorted.start (hs : SoftSorted c base s lists) (hfits : Fits base s t)
    (hstart : rtTimerStart (skipList c) s t = some s') :
    exists rows' lists', s' = (rtTimerArm (skipList c) s t).started t rows' ∧
      Inserted c (rtTimerArm (skipList c) s t).timeout (s.timer t).list t
        (fun i h => (lists i h).erase t) lists' ∧
      SoftSorted c base s' lists' := by
  by_cases hinit : (s.timer t).initTick.toNat < rtTickMax / 2
  · rcases hs.sound.start t with ⟨rows', lists', heq, hsound, hins⟩
    rw [rtTimerStart_eq _ hinit, heq] at hstart
    have hwake : wakeTimerThread (skipList c) ((rtTimerArm (skipList c) s t).started t rows') t =
        (rtTimerArm (skipList c) s t).started t rows' := by
      apply if_neg
      intro hboth
      exact hboth.right hs.ready
    have hs' : s' = (rtTimerArm (skipList c) s t).started t rows' := by
      rw [Option.map_some, hwake] at hstart
      exact (Option.some.inj hstart).symm
    subst hs'
    have hahead := hfits.ahead_arm (c := c)
    have hpos : 1 ≤ (rtTimerArm (skipList c) s t).ahead base t := by
      rw [hahead]
      exact Nat.le_add_right_of_le hs.past
    refine ⟨rows', lists', rfl, hins, hsound, ?_, hs.ready, hs.past, hs.now⟩
    refine hs.sound.sorted_started (hs.sorted.erase t) (fun _ => ⟨hpos, hpos, ?_⟩) hins
    rw [hahead]
    exact hfits
  · unfold rtTimerStart at hstart
    rw [if_neg hinit] at hstart
    cases hstart

theorem SoftSorted.stop (hs : SoftSorted c base s lists) (t : TimerId) :
    SoftSorted c base (rtTimerStop (skipList c) s t).1
      (if (s.timer t).activated then fun i h => (lists i h).erase t else lists) := by
  unfold rtTimerStop
  split
  · exact (hs.remove t).setActivated t false
  · exact hs

theorem started_timer_of_ne {rows' : Rows} (hx : x ≠ t) :
    ((rtTimerArm (skipList c) s t).started t rows').timer x = s.timer x := by
  rw [State.started_timer, update_of_ne hx, rtTimerArm_timer, update_of_ne hx]

theorem started_timeout_self {rows' : Rows} :
    ((rtTimerArm (skipList c) s t).started t rows').timeout t = s.tick + (s.timer t).initTick := by
  rw [State.started_timeout, arm_timeout]

end SoftSorted

/-!
## Checks whose successor stays linked
-/

/-- When a timeout function returns, the saved successor is still linked, or not due; its
own timer is not left linked, unless periodic; and timeouts and ticks stay within the range.
-/
def KeepsCursor (c : SkipConfig) (base : Tick)
    (x : SoftSystem × List (TimerId × Tick)) : SoftOp -> Prop
  | SoftOp.start t => Fits base x.1.state t
  | SoftOp.tick => (x.1.state.tick - base).toNat + 1 < rtTickMax / 2
  | SoftOp.ret => forall t n, x.1.phase = SoftPhase.callback t n ->
      (forall m, n = Node.member m ->
        c.Linked x.1.state m ∨ ¬ x.1.state.Due x.1.state.tick m) ∧
      (c.Linked x.1.state t ->
        (x.1.state.timer t).periodic ∧ (x.1.state.timer t).activated) ∧
      ((x.1.state.timer t).periodic ∧ (x.1.state.timer t).activated ->
        Fits base x.1.state t)
  | _ => True

def SoftPhase.Running : SoftPhase -> TimerId -> Prop
  | SoftPhase.callback t _, x => x = t
  | _, _ => False

/-- The saved node of the loop: the head of the list, or a soft timer. -/
def SoftCursor (s : State Rows) (l : List TimerId) : SoftPhase -> Prop
  | SoftPhase.idle => True
  | SoftPhase.loop n current => current = s.tick ∧
      (n = Node.head TimerList.soft ∨
        exists m, n = Node.member m ∧ (m ∈ l ∨ ¬ s.Due s.tick m))
  | SoftPhase.callback t n => (s.timer t).soft = true ∧
      (n = Node.head TimerList.soft ∨
        exists m, n = Node.member m ∧ m ≠ t ∧ (s.timer m).soft = true)

def CallsBefore (base : Tick) (s : State Rows) (calls : List (TimerId × Tick)) :
    SoftPhase -> Prop
  | SoftPhase.idle => True
  | SoftPhase.loop n _ => forall m, n = Node.member m -> forall e, e ∈ calls ->
      (e.2 - base).toNat ≤ s.ahead base m
  | SoftPhase.callback _ n => forall m, n = Node.member m -> forall e, e ∈ calls ->
      (e.2 - base).toNat ≤ s.ahead base m

structure Checking (c : SkipConfig) (base : Tick)
    (x : SoftSystem × List (TimerId × Tick)) : Prop where
  lists : exists lists, SoftSorted c base x.1.state lists ∧
    Flagged c x.1.state lists x.1.phase.Running ∧
    SoftCursor x.1.state (lists c.bottom TimerList.soft) x.1.phase
  calls : x.2.Pairwise fun e e' => (e.2 - base).toNat ≤ (e'.2 - base).toNat
  called : forall e, e ∈ x.2 -> (e.2 - base).toNat ≤ (x.1.state.tick - base).toNat
  before : CallsBefore base x.1.state x.2 x.1.phase

section Checking

variable {c : SkipConfig} {base : Tick} {s s' : State Rows} {lists : RowLists}
  {t m : TimerId} {n : RowNode} {current : Tick} {calls : List (TimerId × Tick)}

theorem soft_kind (hs : Sound c s lists) (hm : m ∈ lists c.bottom TimerList.soft) :
    (s.timer m).soft = true :=
  RtTimer.list_soft_iff.mp (hs.placed TimerList.soft m hm).symm

theorem mem_soft_of_linked (hs : Sound c s lists) (hlinked : c.Linked s m)
    (hsoft : (s.timer m).soft = true) : m ∈ lists c.bottom TimerList.soft := by
  rcases hs.wired.linked_iff.mp hlinked with ⟨h, hin⟩
  have hkind := hs.placed h m hin
  rw [RtTimer.list_soft_iff.mpr hsoft] at hkind
  exact hkind ▸ hin

theorem Sound.next_member (hs : Sound c s lists) {l : List TimerId}
    {xs ys : List TimerId} (hl : lists c.bottom TimerList.soft = l)
    (hsplit : l = xs ++ m :: ys) :
    (s.lists c.bottom).next (Node.member m) =
      (ys.map Node.member ++ [Node.head TimerList.soft]).head (by simp) := by
  have hcut : lists c.bottom TimerList.soft = (xs ++ [m]) ++ ys := by
    rw [hl, hsplit, List.append_assoc]
    rfl
  have hnext := hs.wired.bottomFamily.next_lastNode hcut
  rwa [lastNode_concat] at hnext

theorem Sound.next_head (hs : Sound c s lists) :
    (s.lists c.bottom).next (Node.head TimerList.soft) =
      ((lists c.bottom TimerList.soft).map Node.member ++
        [Node.head TimerList.soft]).head (by simp) :=
  hs.wired.bottomFamily.next_lastNode (List.nil_append _).symm

theorem Checking.fire (hx : Checking c base
      ({ state := s, phase := SoftPhase.loop (Node.member m) current }, calls))
    (hdue : s.Due current m) :
    c.Linked s m ∧ (s.timer m).soft = true ∧ Checking c base
        ({ state := rtTimerRemove (skipList c) s m
           phase := SoftPhase.callback m ((s.lists c.bottom).next (Node.member m)) },
          calls ++ [(m, s.timeout m)]) := by
  rcases hx.lists with ⟨lists, hsorted, hflagged, hcurrent, hcursor⟩
  change current = s.tick at hcurrent
  subst hcurrent
  have hin : m ∈ lists c.bottom TimerList.soft := by
    rcases hcursor with hhead | ⟨m', heq, hm'⟩
    · cases hhead
    · cases heq
      exact hm'.resolve_right fun hnot => hnot hdue
  have hsoft := soft_kind hsorted.sound hin
  have hahead := (hsorted.due_iff hin).mp hdue
  rcases List.mem_iff_append.mp hin with ⟨xs, ys, hsplit⟩
  have hnext := hsorted.sound.next_member rfl hsplit
  have horder := hsorted.sorted.order
  rw [hsplit] at horder
  -- what follows in the list is a timer that stays there
  have hrest : forall y rest, ys = y :: rest -> y ≠ m ∧ y ∈ lists c.bottom TimerList.soft ∧
        s.ahead base m ≤ s.ahead base y := by
    intro y rest hys
    have hbefore := (List.pairwise_cons.mp (List.pairwise_append.mp horder).right.left).left
      y (by simp [hys])
    refine ⟨?_, by simp [hsplit, hys], hbefore.key_le⟩
    intro heq
    subst heq
    exact Before.irrefl hbefore
  have hlinked : c.Linked s m :=
    hsorted.sound.wired.linked_iff.mpr ⟨TimerList.soft, hin⟩
  refine ⟨hlinked, hsoft, ?_⟩
  constructor
  · refine ⟨_, hsorted.remove m, hflagged.remove (fun _ => rfl) ?_, ?_⟩
    · intro y hy
      exact hy.elim
    · refine ⟨hsoft, ?_⟩
      rw [hnext]
      cases ys with
      | nil => exact Or.inl rfl
      | cons y rest =>
        rcases hrest y rest rfl with ⟨hne, hmem, _⟩
        have hysoft : (s.timer y).soft = true := soft_kind hsorted.sound hmem
        exact Or.inr ⟨y, rfl, hne, hysoft⟩
  · apply List.pairwise_append.mpr
    refine ⟨hx.calls, List.pairwise_singleton _ _, ?_⟩
    intro e he e' he'
    rw [List.mem_singleton.mp he']
    exact hx.before m rfl e he
  · intro e he
    rcases List.mem_append.mp he with hold | hnew
    · exact hx.called e hold
    · rw [List.mem_singleton.mp hnew]
      exact hahead
  · intro y hy e he
    rw [hnext] at hy
    cases ys with
    | nil => cases hy
    | cons z rest =>
      cases hy
      have hle := (hrest y rest rfl).right.right
      rcases List.mem_append.mp he with hold | hnew
      · exact Nat.le_trans (hx.before m rfl e hold) hle
      · rw [List.mem_singleton.mp hnew]
        exact hle

theorem Checking.during (hx : Checking c base
      ({ state := s, phase := SoftPhase.callback t n }, calls))
    {lists' : RowLists} (hsorted : SoftSorted c base s' lists')
    (hflagged : Flagged c s' lists' fun x => x = t)
    (hsoft : forall x, (s'.timer x).soft = (s.timer x).soft)
    (htick : (s.tick - base).toNat ≤ (s'.tick - base).toNat)
    (hahead : forall x, s'.ahead base x = s.ahead base x ∨
      (s.tick - base).toNat ≤ s'.ahead base x) :
    Checking c base ({ state := s', phase := SoftPhase.callback t n }, calls) := by
  rcases hx.lists with ⟨lists, _, _, htsoft, hcursor⟩
  constructor
  · refine ⟨lists', hsorted, hflagged, ?_, ?_⟩
    · rw [hsoft t]
      exact htsoft
    · rcases hcursor with hhead | ⟨m, heq, hne, hm⟩
      · exact Or.inl hhead
      · refine Or.inr ⟨m, heq, hne, ?_⟩
        rw [hsoft m]
        exact hm
  · exact hx.calls
  · intro e he
    exact Nat.le_trans (hx.called e he) htick
  · intro m hm e he
    rcases hahead m with hsame | hlater
    · rw [hsame]
      exact hx.before m hm e he
    · exact Nat.le_trans (hx.called e he) hlater

theorem Checking.start (hx : Checking c base
      ({ state := s, phase := SoftPhase.callback t n }, calls)) (hfits : Fits base s m)
    (hs : rtTimerStart (skipList c) s m = some s') :
    Checking c base ({ state := s', phase := SoftPhase.callback t n }, calls) := by
  rcases hx.lists with ⟨lists, hsorted, hflagged, _⟩
  rcases hsorted.start hfits hs with ⟨rows', lists', heq, hins, hsorted'⟩
  have hsettings := sameSettings_start hs
  subst heq
  apply hx.during hsorted'
  · exact Flagged.started hsorted.sound (fun x h _ => hflagged.active x h)
      (fun x _ => hflagged.linked x) hsorted'.sound hins
  · exact hsettings.soft
  · rw [hsettings.tick]
  · intro x
    by_cases hxm : x = m
    · subst hxm
      apply Or.inr
      have hahead : ((rtTimerArm (skipList c) s x).started x rows').ahead base x =
          (s.tick - base).toNat + (s.timer x).initTick.toNat := by
        rw [← hfits.ahead_arm (c := c)]
        unfold State.ahead
        rw [State.started_timeout]
      rw [hahead]
      exact Nat.le_add_right _ _
    · apply Or.inl
      unfold State.ahead State.timeout
      rw [started_timer_of_ne hxm]

theorem Checking.stop (hx : Checking c base
      ({ state := s, phase := SoftPhase.callback t n }, calls)) (m : TimerId) :
    Checking c base ({ state := (rtTimerStop (skipList c) s m).1
                       phase := SoftPhase.callback t n }, calls) := by
  rcases hx.lists with ⟨lists, hsorted, hflagged, _⟩
  have hsettings : SameSettings s (rtTimerStop (skipList c) s m).1 := sameSettings_stop
  have htimeout : forall x, (rtTimerStop (skipList c) s m).1.timeout x = s.timeout x := by
    intro x
    unfold rtTimerStop
    split
    · exact State.setActivated_timeout _ m x false
    · rfl
  apply hx.during (hsorted.stop m) (hflagged.stop m) hsettings.soft
  · rw [hsettings.tick]
  · intro x
    apply Or.inl
    unfold State.ahead
    rw [htimeout x]

theorem Checking.tick (hx : Checking c base
      ({ state := s, phase := SoftPhase.callback t n }, calls))
    (hroom : (s.tick - base).toNat + 1 < rtTickMax / 2) :
    Checking c base ({ state := { s with tick := s.tick + 1 }
                       phase := SoftPhase.callback t n }, calls) := by
  rcases hx.lists with ⟨lists, hsorted, hflagged, _⟩
  have hnext : (s.tick + 1 - base).toNat = (s.tick - base).toNat + 1 := by
    unfold rtTickMax at hroom
    generalize s.tick = b at hroom ⊢
    bv_omega
  have hsorted' : SoftSorted c base { s with tick := s.tick + 1 } lists := by
    constructor
    · exact hsorted.sound.congr rfl rfl fun _ => rfl
    · exact hsorted.sorted.congr (fun _ _ => rfl) (fun _ _ => rfl) (Nat.le_refl _)
    · exact hsorted.ready
    · show 1 ≤ (s.tick + 1 - base).toNat
      rw [hnext]
      exact Nat.le_add_left 1 _
    · show (s.tick + 1 - base).toNat < _
      rw [hnext]
      exact hroom
  apply hx.during hsorted'
  · exact hflagged.congr hsorted'.sound fun _ => rfl
  · exact fun _ => rfl
  · show _ ≤ (s.tick + 1 - base).toNat
    rw [hnext]
    exact Nat.le_succ _
  · exact fun _ => Or.inl rfl

theorem Checking.ret (hx : Checking c base ({ state := s, phase := SoftPhase.callback t n }, calls))
    (hlinked : forall m, n = Node.member m -> c.Linked s m ∨ ¬ s.Due s.tick m)
    (hown : c.Linked s t -> (s.timer t).periodic ∧ (s.timer t).activated)
    (hfits : (s.timer t).periodic ∧ (s.timer t).activated -> Fits base s t)
    (hs : timeoutReturn (skipList c) s t = some s') :
    Checking c base ({ state := s', phase := SoftPhase.loop n s'.tick }, calls) := by
  rcases hx.lists with ⟨lists, hsorted, hflagged, hsoft, hcursor⟩
  change Flagged c s lists (fun x => x = t) at hflagged
  have hoff : SoftSorted c base (s.setActivated t false) lists :=
    hsorted.setActivated t false
  have hsame : forall x, x ≠ t -> (s.setActivated t false).timer x = s.timer x :=
    fun x hxt => update_of_ne hxt _ _
  have hnone : exists lists', SoftSorted c base s' lists' ∧
    Flagged c s' lists' (fun _ => False) ∧
      forall x, x ≠ t -> s'.timer x = s.timer x := by
    unfold timeoutReturn at hs
    split at hs
    · rename_i hagain
      have hfits' : Fits base (s.setActivated t false) t := by
        have hfits := hfits hagain
        unfold Fits at hfits ⊢
        rw [(sameSettings_setActivated false).initTick t]
        exact hfits
      rcases hoff.start hfits' hs with ⟨rows', lists', heq, hins, hsorted'⟩
      subst heq
      refine ⟨lists', hsorted', Flagged.started hoff.sound ?_ ?_ hsorted'.sound hins, ?_⟩
      · intro x h hxt hx
        rw [hsame x hxt]
        exact hflagged.active x h hx
      · intro x hxt _ hact
        rw [hsame x hxt] at hact
        exact hflagged.linked x hxt hact
      · intro x hxt
        rw [started_timer_of_ne hxt, hsame x hxt]
    · rename_i hnot
      cases hs
      refine ⟨lists, hoff, hflagged.clear ?_ fun x hxt hx => hxt hx, hsame⟩
      intro h hin
      exact hnot (hown (hsorted.sound.wired.linked_iff.mpr ⟨h, hin⟩))
  rcases hnone with ⟨lists', hsorted', hflagged', hkept⟩
  have htick := (sameSettings_timeoutReturn hs).tick
  have hne : forall m, n = Node.member m -> m ≠ t := by
    intro m hm
    rcases hcursor with hhead | ⟨m', heq, hne, _⟩
    · rw [hm] at hhead
      cases hhead
    · rw [hm] at heq
      cases heq
      exact hne
  constructor
  · refine ⟨lists', hsorted', hflagged', rfl, ?_⟩
    rcases hcursor with hhead | ⟨m, heq, hmt, hmsoft⟩
    · exact Or.inl hhead
    · refine Or.inr ⟨m, heq, ?_⟩
      rcases hlinked m heq with hlink | hlate
      · -- the successor is linked and flagged, and still so
        apply Or.inl
        rcases hsorted.sound.wired.linked_iff.mp hlink with ⟨h, hin⟩
        have hact : (s'.timer m).activated = true := by
          rw [hkept m hmt]
          exact hflagged.active m h hin
        apply mem_soft_of_linked hsorted'.sound
        · exact hsorted'.sound.wired.linked_iff.mpr (hflagged'.linked m id hact)
        · rw [hkept m hmt]
          exact hmsoft
      · apply Or.inr
        show ¬ s'.Due s'.tick m
        unfold State.Due State.timeout at hlate ⊢
        rw [hkept m hmt, htick]
        exact hlate
  · exact hx.calls
  · intro e he
    show _ ≤ (s'.tick - base).toNat
    rw [htick]
    exact hx.called e he
  · intro m hm e he
    show _ ≤ s'.ahead base m
    unfold State.ahead State.timeout
    rw [hkept m (hne m hm)]
    exact hx.before m hm e he

theorem Checking.leave (hx : Checking c base
      ({ state := s, phase := SoftPhase.loop n current }, calls)) :
    Checking c base ({ state := s, phase := SoftPhase.idle }, calls) := by
  rcases hx.lists with ⟨lists, hsorted, hflagged, _⟩
  exact ⟨⟨lists, hsorted, hflagged, trivial⟩, hx.calls, hx.called, trivial⟩

theorem softRound_cases {y : SoftSystem} (hs : softRound c s n current = some y) :
    y = { state := s, phase := SoftPhase.idle } ∨
    exists m, n = Node.member m ∧ s.Due current m ∧
      y = { state := rtTimerRemove (skipList c) s m
            phase := SoftPhase.callback m ((s.lists c.bottom).next n) } := by
  cases n with
  | head h =>
    cases h with
    | hard => cases hs
    | soft =>
      cases hs
      exact Or.inl rfl
  | member m =>
    unfold softRound at hs
    by_cases hdue : s.Due current m
    · simp only [if_pos hdue] at hs
      cases hs
      exact Or.inr ⟨m, rfl, hdue, rfl⟩
    · simp only [if_neg hdue] at hs
      cases hs
      exact Or.inl rfl

theorem step_checking {x x' : SoftSystem × List (TimerId × Tick)} {op : SoftOp}
    (hx : Checking c base x)
    (hs : Guarded (KeepsCursor c base) (Graph (watched (softStep c) recordSoft))
      x op x') : Checking c base x' := by
  rcases x with ⟨⟨s, phase⟩, calls⟩
  rcases hs with ⟨hok, hs⟩
  rcases watched_eq_some hs with ⟨hstep, hcalls⟩
  rcases x' with ⟨y, calls'⟩
  change calls' = recordSoft _ op y calls at hcalls
  subst hcalls
  change softStep c { state := s, phase := phase } op = some y at hstep
  cases phase with
  | idle => cases op <;> cases hstep
  | loop n current =>
    cases op with
    | start t => cases hstep
    | stop t => cases hstep
    | tick => cases hstep
    | ret => cases hstep
    | round =>
      rcases softRound_cases hstep with hidle | ⟨m, hn, hdue, hcall⟩
      · subst hidle
        exact hx.leave
      · subst hn
        subst hcall
        exact (hx.fire hdue).right.right
  | callback t n =>
    cases op with
    | start m =>
      simp only [softStep] at hstep
      split at hstep
      · rw [Option.map_eq_some_iff] at hstep
        rcases hstep with ⟨s', hs', heq⟩
        subst heq
        exact hx.start hok hs'
      · cases hstep
    | stop m =>
      simp only [softStep] at hstep
      split at hstep
      · cases hstep
        exact hx.stop m
      · cases hstep
    | tick =>
      cases hstep
      exact hx.tick hok
    | round => cases hstep
    | ret =>
      have hret : softReturn c s t n = some y := hstep
      unfold softReturn at hret
      rw [Option.map_eq_some_iff] at hret
      rcases hret with ⟨s', hs', heq⟩
      subst heq
      rcases hok t n rfl with ⟨hlinked, hown, hfits⟩
      exact hx.ret hlinked hown hfits hs'

end Checking

/-!
## Checks whose functions leave the other timers alone
-/

/-- The timeout functions start and stop their own timers only, with positive
periods, and return within the tick. -/
def OwnOnly (base : Tick) (x : SoftSystem × List (TimerId × Tick)) : SoftOp -> Prop
  | SoftOp.start t => (exists n, x.1.phase = SoftPhase.callback t n) ∧
      0 < (x.1.state.timer t).initTick.toNat ∧ Fits base x.1.state t
  | SoftOp.stop t => exists n, x.1.phase = SoftPhase.callback t n
  | SoftOp.tick => False
  | SoftOp.round => True
  | SoftOp.ret => forall t n, x.1.phase = SoftPhase.callback t n ->
      (x.1.state.timer t).periodic ∧ (x.1.state.timer t).activated ->
      0 < (x.1.state.timer t).initTick.toNat ∧ Fits base x.1.state t

def State.dueList (s : State Rows) (l : List TimerId) : List TimerId :=
  l.filter fun x => decide (s.Due s.tick x)

/-- The saved node is the next expired timer, or not expired when there is none. -/
def NextDue (s : State Rows) (n : RowNode) : List TimerId -> Prop
  | [] => n = Node.head TimerList.soft ∨
      exists m, n = Node.member m ∧ ¬ s.Due s.tick m
  | m :: _ => n = Node.member m

def VisitPhase (s : State Rows) (l : List TimerId) : SoftPhase -> Prop
  | SoftPhase.idle => s.dueList l = []
  | SoftPhase.loop n current => current = s.tick ∧ NextDue s n (s.dueList l)
  | SoftPhase.callback t n => (s.timer t).soft = true ∧ n ≠ Node.member t ∧
      NextDue s n (s.dueList l) ∧ (t ∈ l -> ¬ s.Due s.tick t)

/-- The timers called so far and the expired ones that are left. -/
def Visiting (c : SkipConfig) (base : Tick) (due : List TimerId)
    (x : SoftSystem × List (TimerId × Tick)) : Prop :=
  exists lists, SoftSorted c base x.1.state lists ∧
    x.2.map Prod.fst ++ x.1.state.dueList (lists c.bottom TimerList.soft) = due ∧
    VisitPhase x.1.state (lists c.bottom TimerList.soft) x.1.phase

section Visiting

variable {c : SkipConfig} {base : Tick} {s s' : State Rows} {lists lists' : RowLists}
  {t m : TimerId} {n : RowNode} {l l' rest : List TimerId}

theorem due_congr (htick : s'.tick = s.tick) (htimeout : s'.timeout m = s.timeout m) :
    s'.Due s'.tick m <-> s.Due s.tick m := by
  unfold State.Due
  rw [htick, htimeout]

theorem dueList_congr (htick : s'.tick = s.tick)
    (htimeout : forall x, x ≠ t -> s'.timeout x = s.timeout x)
    (hothers : (l'.filter fun x => decide (x ≠ t)) = l.filter fun x => decide (x ≠ t))
    (ht : t ∈ l -> ¬ s.Due s.tick t) (ht' : t ∈ l' -> ¬ s'.Due s'.tick t) :
    s'.dueList l' = s.dueList l := by
  have hskip : forall (q : State Rows) (k : List TimerId), (t ∈ k -> ¬ q.Due q.tick t) ->
      q.dueList k = q.dueList (k.filter fun x => decide (x ≠ t)) := by
    intro q k hk
    unfold State.dueList
    rw [List.filter_filter]
    apply List.filter_congr
    intro x hx
    by_cases hxt : x = t
    · subst hxt
      simp [hk hx]
    · simp [hxt]
  rw [hskip s' l' ht', hskip s l ht, hothers]
  unfold State.dueList
  apply List.filter_congr
  intro x hx
  have hxt : x ≠ t := by
    simpa using (List.mem_filter.mp hx).right
  exact decide_eq_decide.mpr (due_congr htick (htimeout x hxt))

theorem NextDue.congr (hn : NextDue s n l) (htick : s'.tick = s.tick)
    (htimeout : forall x, x ≠ t -> s'.timeout x = s.timeout x)
    (hne : n ≠ Node.member t) : NextDue s' n l := by
  cases l with
  | cons m rest => exact hn
  | nil =>
    rcases hn with hhead | ⟨m, hm, hlate⟩
    · exact Or.inl hhead
    · refine Or.inr ⟨m, hm, ?_⟩
      have hmt : m ≠ t := by
        intro heq
        exact hne (heq ▸ hm)
      rw [due_congr htick (htimeout m hmt)]
      exact hlate

theorem SoftSorted.first_due (hs : SoftSorted c base s lists)
    (hl : lists c.bottom TimerList.soft = l) (hdue : s.dueList l = m :: rest) :
    exists ys, l = m :: ys ∧ rest = s.dueList ys := by
  have hm : m ∈ s.dueList l := by
    rw [hdue]
    exact List.mem_cons_self
  rcases List.mem_filter.mp hm with ⟨hin, hnow⟩
  cases l with
  | nil => cases hin
  | cons z ys =>
    have hbase := (hs.due_iff (hl ▸ hin)).mp (of_decide_eq_true hnow)
    have hle : s.ahead base z ≤ s.ahead base m := by
      have horder := hs.sorted.order
      rw [hl] at horder
      rcases List.mem_cons.mp hin with heq | hrest
      · rw [heq]
      · exact ((List.pairwise_cons.mp horder).left m hrest).key_le
    have hz : s.Due s.tick z := by
      rw [hs.due_iff (hl ▸ List.mem_cons_self)]
      exact Nat.le_trans hle hbase
    unfold State.dueList at hdue
    rw [List.filter_cons_of_pos (by simpa using hz)] at hdue
    cases hdue
    exact ⟨ys, rfl, rfl⟩

theorem SoftSorted.nextDue (hs : SoftSorted c base s lists) {xs : List TimerId}
    (hl : lists c.bottom TimerList.soft = xs ++ l) :
    NextDue s ((l.map Node.member ++ [Node.head TimerList.soft]).head (by simp)) (s.dueList l) := by
  cases l with
  | nil => exact Or.inl rfl
  | cons y ys =>
    by_cases hy : s.Due s.tick y
    · unfold State.dueList
      rw [List.filter_cons_of_pos (by simpa using hy)]
      rfl
    · -- nothing behind a timer that is not expired is expired
      have hnone : s.dueList (y :: ys) = [] := by
        unfold State.dueList
        rw [List.filter_eq_nil_iff]
        intro x hx hdue
        have hxl : x ∈ lists c.bottom TimerList.soft := by
          rw [hl]
          exact List.mem_append_right xs hx
        have hyl : y ∈ lists c.bottom TimerList.soft := by
          rw [hl]
          simp
        have hle : s.ahead base y ≤ s.ahead base x := by
          have horder := hs.sorted.order
          rw [hl] at horder
          have htail := (List.pairwise_append.mp horder).right.left
          rcases List.mem_cons.mp hx with heq | hrest
          · rw [heq]
          · exact ((List.pairwise_cons.mp htail).left x hrest).key_le
        apply hy
        rw [hs.due_iff hyl]
        exact Nat.le_trans hle ((hs.due_iff hxl).mp (of_decide_eq_true hdue))
      rw [hnone]
      exact Or.inr ⟨y, rfl, hy⟩

theorem VisitPhase.own (hs : VisitPhase s l (SoftPhase.callback t n))
    (htick : s'.tick = s.tick) (hsoft : (s'.timer t).soft = (s.timer t).soft)
    (htimeout : forall x, x ≠ t -> s'.timeout x = s.timeout x)
    (hothers : (l'.filter fun x => decide (x ≠ t)) = l.filter fun x => decide (x ≠ t))
    (ht' : t ∈ l' -> ¬ s'.Due s'.tick t) :
    s'.dueList l' = s.dueList l ∧ VisitPhase s' l' (SoftPhase.callback t n) := by
  rcases hs with ⟨hkind, hne, hnext, ht⟩
  have hsame := dueList_congr htick htimeout hothers ht ht'
  refine ⟨hsame, hsoft.trans hkind, hne, ?_, ht'⟩
  rw [hsame]
  exact hnext.congr htick htimeout hne

theorem filter_erase_ne (hnd : l.Nodup) :
    ((l.erase t).filter fun x => decide (x ≠ t)) = l.filter fun x => decide (x ≠ t) := by
  rw [hnd.erase_eq_filter, List.filter_filter]
  apply List.filter_congr
  intro x _
  by_cases hxt : x = t
  · simp [hxt]
  · simp [hxt]

theorem VisitPhase.started (hv : VisitPhase s (lists c.bottom TimerList.soft)
      (SoftPhase.callback t n))
    (hsorted : SoftSorted c base s lists)
    (hpos : 0 < (s.timer t).initTick.toNat) (hfits : Fits base s t) {rows' : Rows}
    (hsorted' : SoftSorted c base ((rtTimerArm (skipList c) s t).started t rows') lists')
    (hins : Inserted c (rtTimerArm (skipList c) s t).timeout (s.timer t).list t
      (fun i h => (lists i h).erase t) lists') :
    ((rtTimerArm (skipList c) s t).started t rows').dueList (lists' c.bottom TimerList.soft) =
      s.dueList (lists c.bottom TimerList.soft) ∧
    VisitPhase ((rtTimerArm (skipList c) s t).started t rows')
      (lists' c.bottom TimerList.soft) (SoftPhase.callback t n) := by
  have hkind : (s.timer t).list = TimerList.soft := if_pos hv.left
  rw [hkind] at hins
  apply hv.own
  · rfl
  · rw [State.started_timer, update_self, rtTimerArm_timer, update_self]
  · intro x hxt
    rw [State.started_timeout, arm_timeout_of_ne hxt]
  · rcases hins.bottom with ⟨xs, ys, hcut, heq⟩
    rw [heq, ← filter_erase_ne (hsorted.sound.wired.bottomFamily.nodup _), hcut.split]
    simp
  · intro hin
    rw [hsorted'.due_iff hin]
    have hahead : ((rtTimerArm (skipList c) s t).started t rows').ahead base t =
        (s.tick - base).toNat + (s.timer t).initTick.toNat := by
      rw [← hfits.ahead_arm (c := c)]
      unfold State.ahead
      rw [State.started_timeout]
    rw [hahead]
    show ¬ _ ≤ (s.tick - base).toNat
    exact Nat.not_le.mpr (Nat.lt_add_of_pos_right hpos)

variable {due : List TimerId} {calls : List (TimerId × Tick)} {current : Tick}

theorem Visiting.round {y : SoftSystem}
    (hx : Visiting c base due ({ state := s, phase := SoftPhase.loop n current }, calls))
    (hs : softRound c s n current = some y) :
    Visiting c base due
      (y, recordSoft { state := s, phase := SoftPhase.loop n current } SoftOp.round y calls) := by
  rcases hx with ⟨lists, hsorted, hdue, hcurrent, hnext⟩
  change SoftSorted c base s lists at hsorted
  change calls.map Prod.fst ++ s.dueList (lists c.bottom TimerList.soft) = due at hdue
  change NextDue s n (s.dueList (lists c.bottom TimerList.soft)) at hnext
  change current = s.tick at hcurrent
  subst hcurrent
  cases hlist : s.dueList (lists c.bottom TimerList.soft) with
  | nil =>
    rw [hlist] at hnext
    rcases softRound_cases hs with hidle | ⟨m, hm, hnow, _⟩
    · subst hidle
      exact ⟨lists, hsorted, hdue, hlist⟩
    · rcases hnext with hhead | ⟨m', hm', hlate⟩
      · rw [hm] at hhead
        cases hhead
      · rw [hm] at hm'
        cases hm'
        exact absurd hnow hlate
  | cons m rest =>
    rw [hlist] at hnext
    change n = Node.member m at hnext
    subst hnext
    rcases hsorted.first_due rfl hlist with ⟨ys, hl, hrest⟩
    have hin : m ∈ s.dueList (lists c.bottom TimerList.soft) := by
      rw [hlist]
      exact List.mem_cons_self
    have hnow : s.Due s.tick m := of_decide_eq_true (List.mem_filter.mp hin).right
    have hy : y = { state := rtTimerRemove (skipList c) s m
                    phase := SoftPhase.callback m ((s.lists c.bottom).next (Node.member m)) } := by
      unfold softRound at hs
      simp only [if_pos hnow] at hs
      exact (Option.some.inj hs).symm
    subst hy
    have hremoved := hsorted.remove m
    have herase : (lists c.bottom TimerList.soft).erase m = ys := by
      rw [hl, List.erase_cons_head]
    have hnd := hsorted.sound.wired.bottomFamily.nodup TimerList.soft
    rw [hl] at hnd
    have hgone : m ∉ ys := (List.nodup_cons.mp hnd).left
    have hsoft : (s.timer m).soft = true :=
      soft_kind hsorted.sound (List.mem_filter.mp hin).left
    refine ⟨_, hremoved, ?_, hsoft, ?_, ?_, ?_⟩
    · show (calls ++ [(m, s.timeout m)]).map Prod.fst ++
        s.dueList ((lists c.bottom TimerList.soft).erase m) = due
      rw [herase, ← hdue, hlist, hrest]
      simp
    · rw [hsorted.sound.next_member hl (List.nil_append _).symm]
      cases ys with
      | nil =>
        intro heq
        cases heq
      | cons y ys =>
        intro heq
        cases heq
        exact hgone List.mem_cons_self
    · show NextDue s ((s.lists c.bottom).next (Node.member m))
        (s.dueList ((lists c.bottom TimerList.soft).erase m))
      rw [herase, hsorted.sound.next_member hl (List.nil_append _).symm]
      exact hsorted.nextDue (hl.trans List.singleton_append.symm)
    · intro hin'
      exact absurd (herase ▸ hin') hgone

theorem Visiting.start {s' : State Rows}
    (hx : Visiting c base due ({ state := s, phase := SoftPhase.callback t n }, calls))
    (hpos : 0 < (s.timer t).initTick.toNat) (hfits : Fits base s t)
    (hs : rtTimerStart (skipList c) s t = some s') :
    Visiting c base due ({ state := s', phase := SoftPhase.callback t n }, calls) := by
  rcases hx with ⟨lists, hsorted, hdue, hphase⟩
  rcases hsorted.start hfits hs with ⟨rows', lists', heq, hins, hsorted'⟩
  subst heq
  rcases VisitPhase.started hphase hsorted hpos hfits hsorted' hins with
    ⟨hsame, hphase'⟩
  refine ⟨lists', hsorted', ?_, hphase'⟩
  exact (congrArg _ hsame).trans hdue

theorem Visiting.setActivated
    (hx : Visiting c base due ({ state := s, phase := SoftPhase.callback t n }, calls)) :
    Visiting c base due
      ({ state := s.setActivated t false, phase := SoftPhase.callback t n }, calls) := by
  rcases hx with ⟨lists, hsorted, hdue, hphase⟩
  change VisitPhase s (lists c.bottom TimerList.soft) (SoftPhase.callback t n) at hphase
  have hlate : t ∈ lists c.bottom TimerList.soft ->
      ¬ (s.setActivated t false).Due (s.setActivated t false).tick t := by
    intro hin hdue
    apply hphase.right.right.right hin
    unfold State.Due at hdue ⊢
    rw [State.setActivated_timeout] at hdue
    exact hdue
  have hsettings : SameSettings s (s.setActivated t false) :=
    sameSettings_setActivated false
  have hown := hphase.own hsettings.tick (hsettings.soft t)
    (fun x _ => s.setActivated_timeout t x false) rfl hlate
  exact ⟨lists, hsorted.setActivated t false, (congrArg _ hown.left).trans hdue, hown.right⟩

theorem Visiting.stop
    (hx : Visiting c base due ({ state := s, phase := SoftPhase.callback t n }, calls)) :
    Visiting c base due ({ state := (rtTimerStop (skipList c) s t).1
                           phase := SoftPhase.callback t n }, calls) := by
  unfold rtTimerStop
  split
  · apply Visiting.setActivated
    rcases hx with ⟨lists, hsorted, hdue, hphase⟩
    change VisitPhase s (lists c.bottom TimerList.soft) (SoftPhase.callback t n) at hphase
    have hnd := hsorted.sound.wired.bottomFamily.nodup TimerList.soft
    have hlate : t ∈ (lists c.bottom TimerList.soft).erase t ->
        ¬ (rtTimerRemove (skipList c) s t).Due (rtTimerRemove (skipList c) s t).tick t :=
      fun hin => hphase.right.right.right (List.mem_of_mem_erase hin)
    have htick : (rtTimerRemove (skipList c) s t).tick = s.tick := rfl
    have hown := hphase.own htick rfl (fun _ _ => rfl) (filter_erase_ne hnd) hlate
    exact ⟨_, hsorted.remove t, (congrArg _ hown.left).trans hdue, hown.right⟩
  · exact hx

theorem Visiting.ret {s' : State Rows}
    (hx : Visiting c base due ({ state := s, phase := SoftPhase.callback t n }, calls))
    (hagain : (s.timer t).periodic ∧ (s.timer t).activated ->
      0 < (s.timer t).initTick.toNat ∧ Fits base s t)
    (hs : timeoutReturn (skipList c) s t = some s') :
    Visiting c base due ({ state := s', phase := SoftPhase.loop n s'.tick }, calls) := by
  have hback : Visiting c base due ({ state := s', phase := SoftPhase.callback t n }, calls) := by
    unfold timeoutReturn at hs
    split at hs
    · rename_i hperiodic
      have hsettings : SameSettings s (s.setActivated t false) :=
        sameSettings_setActivated false
      rcases hagain hperiodic with ⟨hpos, hfits⟩
      apply hx.setActivated.start _ _ hs
      · rw [hsettings.initTick t]
        exact hpos
      · unfold Fits at hfits ⊢
        rw [hsettings.initTick t]
        exact hfits
    · cases hs
      exact hx.setActivated
  rcases hback with ⟨lists, hsorted, hdue, _, _, hnext, _⟩
  exact ⟨lists, hsorted, hdue, rfl, hnext⟩

theorem step_visiting {x x' : SoftSystem × List (TimerId × Tick)} {op : SoftOp}
    (hx : Visiting c base due x)
    (hs : Guarded (OwnOnly base) (Graph (watched (softStep c) recordSoft)) x op x') :
    Visiting c base due x' := by
  rcases x with ⟨⟨s, phase⟩, calls⟩
  rcases hs with ⟨hok, hs⟩
  rcases watched_eq_some hs with ⟨hstep, hcalls⟩
  rcases x' with ⟨y, calls'⟩
  change calls' = recordSoft _ op y calls at hcalls
  subst hcalls
  change softStep c { state := s, phase := phase } op = some y at hstep
  cases phase with
  | idle => cases op <;> cases hstep
  | loop n current =>
    cases op with
    | start t => cases hstep
    | stop t => cases hstep
    | tick => cases hstep
    | ret => cases hstep
    | round => exact hx.round hstep
  | callback t n =>
    cases op with
    | start m =>
      rcases hok with ⟨⟨n', hphase⟩, hpos, hfits⟩
      cases hphase
      simp only [softStep] at hstep
      split at hstep
      · rw [Option.map_eq_some_iff] at hstep
        rcases hstep with ⟨s', hs', heq⟩
        subst heq
        exact hx.start hpos hfits hs'
      · cases hstep
    | stop m =>
      rcases hok with ⟨n', hphase⟩
      cases hphase
      simp only [softStep] at hstep
      split at hstep
      · cases hstep
        exact hx.stop
      · cases hstep
    | tick => exact hok.elim
    | round => cases hstep
    | ret =>
      have hret : softReturn c s t n = some y := hstep
      unfold softReturn at hret
      rw [Option.map_eq_some_iff] at hret
      rcases hret with ⟨s', hs', heq⟩
      subst heq
      exact hx.ret (hok t n rfl) hs'

end Visiting

/-!
## A whole check
-/

section Check

variable (c : SkipConfig) (base : Tick) {s : State Rows} {lists : RowLists}

theorem enter_checking (hs : SoftSorted c base s lists) (hf : Flagged c s lists fun _ => False) :
    Checking c base ({ state := s, phase := softEnter c s }, []) := by
  constructor
  · refine ⟨lists, hs, hf, rfl, ?_⟩
    rw [hs.sound.next_head]
    cases hl : lists c.bottom TimerList.soft with
    | nil => exact Or.inl rfl
    | cons m rest => exact Or.inr ⟨m, rfl, Or.inl List.mem_cons_self⟩
  · exact List.Pairwise.nil
  · intro e he
    cases he
  · intro m _ e he
    cases he

theorem enter_visiting (hs : SoftSorted c base s lists) :
    Visiting c base (s.dueList (lists c.bottom TimerList.soft))
      ({ state := s, phase := softEnter c s }, []) := by
  refine ⟨lists, hs, rfl, rfl, ?_⟩
  show NextDue s ((s.lists c.bottom).next (Node.head TimerList.soft)) _
  rw [hs.sound.next_head]
  exact hs.nextDue (List.nil_append _).symm

/-- One call of `rt_soft_timer_check` on any soft list in order. When the saved successor is
linked or not due at every return of a timeout function, and no one-shot timer is left
linked by its own function, the check calls only linked and expired timers, in the order of
their timeouts, and leaves rows in order that hold exactly the active timers. When the
functions leave the other timers alone, it calls exactly the timers that were linked and
expired, each once. -/
theorem soft_check_calls_linked (hs : SoftSorted c base s lists)
    (hf : Flagged c s lists fun _ => False) :
    (forall (labels : List SoftOp) (x : SoftSystem × List (TimerId × Tick)),
      Run (Guarded (KeepsCursor c base) (Graph (watched (softStep c) recordSoft)))
        ({ state := s, phase := softEnter c s }, []) labels x ->
      (forall x' t n, softStep c x.1 SoftOp.round = some x' ->
        x'.phase = SoftPhase.callback t n ->
        c.Linked x.1.state t ∧ (x.1.state.timer t).soft = true ∧
          x.1.state.Due x.1.state.tick t) ∧
      (x.2.Pairwise fun e e' => (e.2 - base).toNat ≤ (e'.2 - base).toNat) ∧
      (x.1.phase = SoftPhase.idle -> exists lists',
        Wired c x.1.state.lists lists' ∧
        (forall i, i < c.level -> (lists' i TimerList.soft).Pairwise fun t t' =>
          x.1.state.ahead base t ≤ x.1.state.ahead base t') ∧
        (forall t h, t ∈ lists' c.bottom h <->
          (x.1.state.timer t).activated = true ∧ h = (x.1.state.timer t).list))) ∧
    (forall (labels : List SoftOp) (x : SoftSystem × List (TimerId × Tick)),
      Run (Guarded (OwnOnly base) (Graph (watched (softStep c) recordSoft)))
        ({ state := s, phase := softEnter c s }, []) labels x ->
      (x.2.map Prod.fst).Nodup ∧
      (forall t, t ∈ x.2.map Prod.fst ->
        c.Linked s t ∧ (s.timer t).soft = true ∧ s.Due s.tick t) ∧
      (x.1.phase = SoftPhase.idle -> forall t, c.Linked s t ->
        (s.timer t).soft = true -> s.Due s.tick t -> t ∈ x.2.map Prod.fst)) := by
  constructor
  · intro labels x hrun
    have hx := hrun.invariant (Checking c base) (enter_checking c base hs hf)
      fun _ _ _ => step_checking
    refine ⟨?_, hx.calls, ?_⟩
    · intro x' t n hround hcall
      rcases x with ⟨⟨s1, phase⟩, calls⟩
      cases phase with
      | idle => cases hround
      | callback t' n' => cases hround
      | loop n' current =>
        rcases hx.lists with ⟨_, _, _, hcurrent, _⟩
        change current = s1.tick at hcurrent
        subst hcurrent
        rcases softRound_cases hround with hidle | ⟨m, hm, hdue, hfire⟩
        · subst hidle
          cases hcall
        · subst hm
          subst hfire
          cases hcall
          have hfired := hx.fire hdue
          exact ⟨hfired.left, hfired.right.left, hdue⟩
    · intro hidle
      rcases hx.lists with ⟨lists', hsorted, hflagged, _⟩
      rw [hidle] at hflagged
      refine ⟨lists', hsorted.sound.wired, ?_, ?_⟩
      · intro i hi
        exact (hsorted.sorted.order.imp Before.key_le).sublist
          (hsorted.sound.wired.sublist_bottom hi _)
      · intro t h
        constructor
        · intro hin
          exact ⟨hflagged.active t h hin, hsorted.sound.placed h t hin⟩
        · rintro ⟨hact, hkind⟩
          rcases hflagged.linked t id hact with ⟨h', hin⟩
          rw [hkind, ← hsorted.sound.placed h' t hin]
          exact hin
  · intro labels x hrun
    rcases hrun.invariant (Visiting c base _) (enter_visiting c base hs)
      (fun _ _ _ => step_visiting) with ⟨lists', _, hdue, hphase⟩
    have hnd : (s.dueList (lists c.bottom TimerList.soft)).Nodup :=
      (hs.sound.wired.bottomFamily.nodup _).filter _
    have hmem : forall t, t ∈ s.dueList (lists c.bottom TimerList.soft) <->
        c.Linked s t ∧ (s.timer t).soft = true ∧ s.Due s.tick t := by
      intro t
      unfold State.dueList
      rw [List.mem_filter, decide_eq_true_iff]
      constructor
      · rintro ⟨hin, hnow⟩
        exact ⟨hs.sound.wired.linked_iff.mpr ⟨_, hin⟩, soft_kind hs.sound hin, hnow⟩
      · rintro ⟨hlinked, hsoft, hnow⟩
        exact ⟨mem_soft_of_linked hs.sound hlinked hsoft, hnow⟩
    rw [← hdue] at hnd hmem
    refine ⟨(List.nodup_append.mp hnd).left, ?_, ?_⟩
    · intro t ht
      exact (hmem t).mp (List.mem_append_left _ ht)
    · intro hidle t hlinked hsoft hnow
      rw [hidle] at hphase
      have hnone : x.1.state.dueList (lists' c.bottom TimerList.soft) = [] := hphase
      rw [hnone, List.append_nil] at hmem
      exact (hmem t).mpr ⟨hlinked, hsoft, hnow⟩

end Check

instance (base : Tick) (s : State Rows) (t : TimerId) : Decidable (Fits base s t) :=
  inferInstanceAs (Decidable (_ ≤ _))

instance (n : RowNode) (P : TimerId -> Prop) [DecidablePred P] :
    Decidable (forall m, n = Node.member m -> P m) :=
  match n with
  | Node.head _ => isTrue fun _ hm => nomatch hm
  | Node.member m =>
    decidable_of_iff (P m)
      ⟨fun h _ hm => Node.member.inj hm ▸ h, fun h => h m rfl⟩

instance (phase : SoftPhase) (P : TimerId -> RowNode -> Prop)
    [forall t n, Decidable (P t n)] :
    Decidable (forall t n, phase = SoftPhase.callback t n -> P t n) :=
  match phase with
  | SoftPhase.idle => isTrue fun _ _ h => nomatch h
  | SoftPhase.loop _ _ => isTrue fun _ _ h => nomatch h
  | SoftPhase.callback t n =>
    decidable_of_iff (P t n)
      ⟨fun h _ _ heq => (SoftPhase.callback.inj heq).1 ▸
          (SoftPhase.callback.inj heq).2 ▸ h,
        fun h => h t n rfl⟩

instance (c : SkipConfig) (base : Tick) (x : SoftSystem × List (TimerId × Tick)) :
    (op : SoftOp) -> Decidable (KeepsCursor c base x op)
  | SoftOp.start t => inferInstanceAs (Decidable (Fits base x.1.state t))
  | SoftOp.stop _ => isTrue trivial
  | SoftOp.tick => inferInstanceAs (Decidable (_ < _))
  | SoftOp.round => isTrue trivial
  | SoftOp.ret => inferInstanceAs
      (Decidable (forall t n, x.1.phase = SoftPhase.callback t n -> _))

def softTimers (_ : TimerId) : RtTimer where
  timeoutTick := 0
  initTick := 0
  activated := false
  periodic := false
  soft := true

def noSoftTimers : State Rows :=
  (startSystem emptyRows softTimers 10 0 readyTimerThread).state

def twoSoftTimers : Option (State Rows) :=
  (rtTimerStart (skipList threeRows) noSoftTimers 0).bind
    fun s => rtTimerStart (skipList threeRows) s 1

theorem twoSoftTimers_sorted {s : State Rows} (hs : twoSoftTimers = some s) :
    exists lists, SoftSorted threeRows 9 s lists ∧ Flagged threeRows s lists fun _ => False := by
  have hempty : SoftSorted threeRows 9 noSoftTimers fun _ _ => [] := by
    constructor
    · constructor
      · exact wired_empty
      · exact fun _ => Nat.le_refl 0
      · intro h x hx
        cases hx
    · exact sorted_nil
    · rfl
    · decide
    · decide
  have hnone : Flagged threeRows noSoftTimers (fun _ _ => []) fun _ => False := by
    constructor
    · exact hempty.sound
    · intro x h hx
      cases hx
    · intro x _ hact
      cases hact
  unfold twoSoftTimers at hs
  rw [Option.bind_eq_some_iff] at hs
  rcases hs with ⟨s1, hs1, hs2⟩
  have hfits1 : Fits 9 noSoftTimers 0 := by decide
  rcases hempty.start hfits1 hs1 with ⟨rows1, lists1, heq1, hins1, hsorted1⟩
  have hsettings := sameSettings_start hs1
  have hfits2 : Fits 9 s1 1 := by
    unfold Fits
    rw [hsettings.tick, hsettings.initTick]
    decide
  rcases hsorted1.start hfits2 hs2 with ⟨rows2, lists2, heq2, hins2, hsorted2⟩
  subst heq1
  subst heq2
  have hflagged1 := Flagged.started hempty.sound (fun x h _ => hnone.active x h)
    (fun x _ => hnone.linked x) hsorted1.sound hins1
  have hflagged2 := Flagged.started hsorted1.sound (fun x h _ => hflagged1.active x h)
    (fun x _ => hflagged1.linked x) hsorted2.sound hins2
  exact ⟨lists2, hsorted2, hflagged2⟩

/-- Timers 0 and 1 are expired; the function of timer 0 starts and stops timer 2. -/
theorem soft_check_calls_linked_two :
    exists (s : State Rows) (lists : RowLists)
      (x : SoftSystem × List (TimerId × Tick)),
      SoftSorted threeRows 9 s lists ∧ Flagged threeRows s lists (fun _ => False) ∧
      Run (Guarded (KeepsCursor threeRows 9)
          (Graph (watched (softStep threeRows) recordSoft)))
        ({ state := s, phase := softEnter threeRows s }, [])
        [SoftOp.round, SoftOp.start 2, SoftOp.stop 2, SoftOp.ret, SoftOp.round,
          SoftOp.ret, SoftOp.round] x ∧
      x.1.phase = SoftPhase.idle ∧ x.2 = [(0, 10), (1, 10)] ∧
      x.2.Pairwise fun e e' => (e.2 - 9).toNat ≤ (e'.2 - 9).toNat := by
  have hexec : (twoSoftTimers.bind fun s =>
      (exec (fun x op => if KeepsCursor threeRows 9 x op then
          watched (softStep threeRows) recordSoft x op else none)
        ({ state := s, phase := softEnter threeRows s }, [])
        [SoftOp.round, SoftOp.start 2, SoftOp.stop 2, SoftOp.ret, SoftOp.round,
          SoftOp.ret, SoftOp.round]).map fun x => (x.1.phase, x.2)) =
      some (SoftPhase.idle, [(0, 10), (1, 10)]) := by
    decide +kernel
  rw [Option.bind_eq_some_iff] at hexec
  rcases hexec with ⟨s, hs, hexec⟩
  rw [Option.map_eq_some_iff] at hexec
  rcases hexec with ⟨x, hx, hend⟩
  rcases twoSoftTimers_sorted hs with ⟨lists, hsorted, hflagged⟩
  have hrun := guarded_run_of_exec hx
  have hcheck := (soft_check_calls_linked threeRows 9 hsorted hflagged).left _ x hrun
  exact ⟨s, lists, x, hsorted, hflagged, hrun, congrArg Prod.fst hend,
    congrArg Prod.snd hend, hcheck.right.left⟩

/-- The function of timer 0 stops timer 1, the saved successor: the check calls timer 1,
which is not linked, and goes on from it to call it again. -/
theorem soft_check_calls_stopped_timer :
    (twoSoftTimers.bind fun s =>
      (exec (watched (softStep threeRows) recordSoft)
        ({ state := s, phase := softEnter threeRows s }, [])
        [SoftOp.round, SoftOp.stop 1, SoftOp.ret]).map fun x =>
      (decide (threeRows.Linked x.1.state 1),
        (softStep threeRows x.1 SoftOp.round).map fun x' => x'.phase)) =
      some (false, some (SoftPhase.callback 1 (Node.member 1))) := by
  decide +kernel

end RtThread.Kernel.Timer
