import RtThread.Kernel.SoftTimer

/-!
# The timer thread

`rt_thread_timer_entry` step by step, beside threads and timeout functions that start and stop
timers, the ticks, and the checks of the hard timers that wake it. The thread reads the next
timeout, suspends itself or delays, and checks the soft timers when it runs again.
`rt_timer_start` wakes it only when it finds it suspended: it sleeps too long when a timer is
started, or a tick passes, between the read and the suspension, and for ever when a timeout is
`RT_TICK_MAX`.
-/

namespace RtThread.Kernel.Timer

open StableInsert
open Transition

/-!
## The steps of the thread
-/

/-- Where `rt_thread_timer_entry` stands, with its local `next_timeout`. -/
inductive ThreadPc where
  | top
  | suspendSelf
  | compare (next : Tick)
  | delay (n : Tick)
  | asleep
  | check (phase : SoftPhase)
deriving DecidableEq

structure ThreadSystem where
  sys : System Rows
  pc : ThreadPc

def State.setStat (s : State Rows) (stat : ThreadStat) : State Rows :=
  { s with timerThread := { s.timerThread with stat := stat } }

def State.threadTimer (s : State Rows) : TimerId :=
  s.timerThread.threadTimer

/-- `rt_thread_suspend` of the timer thread, without its ready list. -/
def suspendTimerThread (c : SkipConfig) (s : State Rows) : State Rows :=
  if s.timerThread.stat = ThreadStat.ready then
    (rtTimerStop (skipList c) (s.setStat ThreadStat.suspend) s.threadTimer).1
  else s

/-- `rt_thread_sleep`, up to the call of the scheduler. -/
def rtThreadSleep (c : SkipConfig) (s : State Rows) (n : Tick) : Option (State Rows) :=
  rtTimerStart (skipList c)
    (rtTimerControl (suspendTimerThread c s) s.threadTimer (TimerCtrl.setTime n)).1
    s.threadTimer

/-- `rt_thread_timeout` of the timer thread, with its assertion. -/
def rtThreadTimeout (s : State Rows) : Option (State Rows) :=
  if s.timerThread.stat = ThreadStat.suspend then some (s.setStat ThreadStat.ready)
  else none

/-- One step of `rt_thread_timer_entry`. -/
def entryStep (c : SkipConfig) (s : State Rows) :
    ThreadPc -> Option (State Rows × ThreadPc)
  | ThreadPc.top =>
    let next := rtTimerListNextTimeout (skipList c) s TimerList.soft
    if next = BitVec.ofNat 32 rtTickMax then some (s, ThreadPc.suspendSelf)
    else some (s, ThreadPc.compare next)
  | ThreadPc.suspendSelf => some (suspendTimerThread c s, ThreadPc.asleep)
  | ThreadPc.compare next =>
    if (next - s.tick).toNat < rtTickMax / 2 then
      some (s, ThreadPc.delay (next - s.tick))
    else some (s, ThreadPc.check (softEnter c s))
  | ThreadPc.delay n => (rtThreadSleep c s n).map fun s' => (s', ThreadPc.asleep)
  | ThreadPc.asleep => some (s, ThreadPc.check (softEnter c s))
  | ThreadPc.check SoftPhase.idle => some (s, ThreadPc.top)
  | ThreadPc.check (SoftPhase.loop n current) =>
    (softRound c s n current).map fun x => (x.state, ThreadPc.check x.phase)
  | ThreadPc.check (SoftPhase.callback t n) =>
    (softReturn c s t n).map fun x => (x.state, ThreadPc.check x.phase)

/-- The steps of all others. The timeout function of the thread timer is
`rt_thread_timeout`, which starts and stops no timer. -/
def otherStep (c : SkipConfig) (x : System Rows) (op : Op) : Option (System Rows) :=
  let own := x.state.threadTimer
  match op with
  | Op.call (Cmd.start t) =>
    if t = own ∨ x.phase = Phase.callback own then none
    else step (skipList c) x (Op.call (Cmd.start t))
  | Op.call (Cmd.stop t) =>
    if t = own ∨ x.phase = Phase.callback own then none
    else step (skipList c) x (Op.call (Cmd.stop t))
  | Op.call _ => none
  | Op.ret =>
    if x.phase = Phase.callback own then
      (rtThreadTimeout x.state).bind fun s =>
        step (skipList c) { x with state := s } Op.ret
    else step (skipList c) x Op.ret
  | op => step (skipList c) x op

inductive ThreadOp where
  | other (op : Op)
  | entry
deriving DecidableEq, Repr

/-- The thread runs when it is ready and no check of the hard timers is running. -/
def threadStep (c : SkipConfig) (x : ThreadSystem) : ThreadOp -> Option ThreadSystem
  | ThreadOp.other op => (otherStep c x.sys op).map fun sys => { x with sys := sys }
  | ThreadOp.entry =>
    if x.sys.phase = Phase.idle ∧ x.sys.state.timerThread.stat = ThreadStat.ready then
      (entryStep c x.sys.state x.pc).map fun r =>
        { sys := { x.sys with state := r.1 }, pc := r.2 }
    else none

/-!
## The steps in time
-/

/-- The ticks that passed since the timeout of the first soft timer. -/
def State.late (c : SkipConfig) (s : State Rows) : Nat :=
  match (skipList c).first s.lists TimerList.soft with
  | none => 0
  | some t => if s.Due s.tick t then (s.tick - s.timeout t).toNat else 0

/-- The thread is not about to suspend itself, or to delay for longer than the period
of the timer. -/
structure Noticed (s : State Rows) (pc : ThreadPc) (t : TimerId) : Prop where
  suspend : pc ≠ ThreadPc.suspendSelf
  compare : forall next, pc = ThreadPc.compare next ->
    (next - s.tick).toNat < rtTickMax / 2 ->
    (next - s.tick).toNat ≤ (s.timer t).initTick.toNat
  delay : forall n, pc = ThreadPc.delay n -> n.toNat ≤ (s.timer t).initTick.toNat

/-- The thread takes notice of the soft timer, its timeout is not `RT_TICK_MAX`, and lies
within half of the tick range from the first one on. -/
structure StartsInTime (c : SkipConfig) (s : State Rows) (pc : ThreadPc)
    (t : TimerId) : Prop extends Noticed s pc t where
  timeout : s.tick + (s.timer t).initTick ≠ BitVec.ofNat 32 rtTickMax
  range : (rtTimerRemove (skipList c) s t).late c + 1 + (s.timer t).initTick.toNat ≤
    rtTickMax / 2

/-- No tick between the comparison and the delay, no delay of no ticks, and no timeout that
is half of the tick range late. -/
def InTime (c : SkipConfig) (x : ThreadSystem) : ThreadOp -> Prop
  | ThreadOp.other (Op.call (Cmd.start t)) =>
    (x.sys.state.timer t).soft = true -> StartsInTime c x.sys.state x.pc t
  | ThreadOp.other Op.tick =>
    (forall n, x.pc ≠ ThreadPc.delay n) ∧
    (forall next, x.pc = ThreadPc.compare next ->
      (next - x.sys.state.tick).toNat ≠ rtTickMax / 2) ∧
    x.sys.state.late c + 2 < rtTickMax / 2
  | ThreadOp.other _ => True
  | ThreadOp.entry =>
    (forall next, x.pc = ThreadPc.compare next -> next ≠ x.sys.state.tick) ∧
    (forall t n, x.pc = ThreadPc.check (SoftPhase.callback t n) ->
      (x.sys.state.timer t).periodic ∧ (x.sys.state.timer t).activated ->
      StartsInTime c x.sys.state x.pc t)

/-!
## The soft timers within half of the tick range
-/

section Range

variable {c : SkipConfig} {s s' : State Rows} {l l' : List TimerId} {base : Tick}

/-- The soft timers are in order, from some tick before the current one on. -/
def InRange (s : State Rows) (l : List TimerId) : Prop :=
  exists base, Sorted base 1 s l ∧ 1 ≤ (s.tick - base).toNat ∧
    (s.tick - base).toNat < rtTickMax / 2

/-- The ticks that passed since the first timeout of a list. -/
def State.lateOf (s : State Rows) (l : List TimerId) : Nat :=
  match l.head? with
  | none => 0
  | some t => if s.Due s.tick t then (s.tick - s.timeout t).toNat else 0

theorem late_congr (hlists : s'.lists = s.lists) (htick : s'.tick = s.tick)
    (htimeout : forall x, s'.timeout x = s.timeout x) : s'.late c = s.late c := by
  unfold State.late
  rw [hlists, htick]
  cases (skipList c).first s.lists TimerList.soft with
  | none => rfl
  | some t =>
    have hdue : s'.Due s.tick t <-> s.Due s.tick t := by
      unfold State.Due
      rw [htimeout]
    simp only [hdue, htimeout]

theorem late_eq {lists : RowLists} (hs : Sound c s lists) :
    s.late c = s.lateOf (lists c.bottom TimerList.soft) := by
  unfold State.late State.lateOf
  rw [hs.wired.first]

theorem InRange.latest (hl : InRange s l) :
    exists base, Sorted base 1 s l ∧ (s.tick - base).toNat = s.lateOf l + 1 ∧
      s.lateOf l + 1 < rtTickMax / 2 := by
  rcases hl with ⟨base, hsorted, hpast, hnow⟩
  cases l with
  | nil =>
    have hnone : s.lateOf [] = 0 := rfl
    rw [hnone]
    refine ⟨s.tick - 1, sorted_nil, ?_, by decide⟩
    generalize s.tick = b
    bv_omega
  | cons t rest =>
    have hfirst : forall x, x ∈ t :: rest -> s.ahead base t ≤ s.ahead base x := by
      intro x hx
      rcases List.mem_cons.mp hx with heq | hin
      · rw [heq]
      · exact ((List.pairwise_cons.mp hsorted.order).left x hin).key_le
    have hlow := hsorted.low_le t List.mem_cons_self
    have hdue := due_iff hnow (hsorted.near t List.mem_cons_self)
    have hlate : s.lateOf (t :: rest) =
        if s.Due s.tick t then (s.tick - s.timeout t).toNat else 0 := rfl
    rw [hlate]
    by_cases hnow' : s.Due s.tick t
    · rw [if_pos hnow']
      have hle := hdue.mp hnow'
      have hbase : (s.timeout t - 1 - base).toNat + 1 = s.ahead base t ∧
          (s.tick - (s.timeout t - 1)).toNat = (s.tick - s.timeout t).toNat + 1 ∧
          (s.tick - s.timeout t).toNat + 1 < rtTickMax / 2 := by
        unfold State.ahead rtTickMax at *
        generalize s.timeout t = a at *
        generalize s.tick = b at *
        bv_omega
      refine ⟨s.timeout t - 1, hsorted.rebase ?_, hbase.right⟩
      intro x hx
      rw [hbase.left]
      exact hfirst x hx
    · rw [if_neg hnow']
      have hlt := Nat.lt_of_not_le (mt hdue.mpr hnow')
      have hbase : (s.tick - 1 - base).toNat + 1 = (s.tick - base).toNat ∧
          (s.tick - (s.tick - 1)).toNat = 0 + 1 := by
        generalize s.tick = b at *
        bv_omega
      refine ⟨s.tick - 1, hsorted.rebase ?_, hbase.right, by decide⟩
      intro x hx
      rw [hbase.left]
      exact Nat.le_trans (Nat.le_of_lt hlt) (hfirst x hx)

theorem InRange.sublist (hl : InRange s l) (hsub : l'.Sublist l) : InRange s l' := by
  rcases hl with ⟨base, hsorted, hpast, hnow⟩
  exact ⟨base, hsorted.sublist hsub, hpast, hnow⟩

theorem InRange.congr (hl : InRange s l) (htick : s'.tick = s.tick)
    (htimeout : forall x, x ∈ l -> s'.timeout x = s.timeout x)
    (horder : forall x, x ∈ l -> s'.order x = s.order x)
    (hstarts : s.starts ≤ s'.starts) : InRange s' l := by
  rcases hl with ⟨base, hsorted, hpast, hnow⟩
  rw [← htick] at hpast hnow
  exact ⟨base, hsorted.congr htimeout horder hstarts, hpast, hnow⟩

theorem InRange.tick (hl : InRange s l) (hlate : s.lateOf l + 2 < rtTickMax / 2) :
    InRange { s with tick := s.tick + 1 } l := by
  rcases hl.latest with ⟨base, hsorted, hbase, _⟩
  have hnext : (s.tick + 1 - base).toNat = s.lateOf l + 2 := by
    unfold rtTickMax at hlate
    generalize s.lateOf l = n at *
    generalize s.tick = b at *
    bv_omega
  refine ⟨base, hsorted.congr (fun _ _ => rfl) (fun _ _ => rfl) (Nat.le_refl _), ?_, ?_⟩
  · rw [hnext]
    exact Nat.le_add_left 1 _
  · rw [hnext]
    exact hlate

end Range

/-!
## The lists of the timers
-/

/-- The lists are in order, the hard timers from the last tick on, and the thread timer is a
one-shot hard timer that can be stopped. -/
structure Orderly (c : SkipConfig) (low : Nat) (s : State Rows) (lists : RowLists) :
    Prop where
  sound : Sound c s lists
  hard : Sorted (s.tick - 1) low s (lists c.bottom TimerList.hard)
  soft : InRange s (lists c.bottom TimerList.soft)
  timeouts : forall x, x ∈ lists c.bottom TimerList.soft ->
    s.timeout x ≠ BitVec.ofNat 32 rtTickMax
  flag : s.threadTimer ∈ lists c.bottom TimerList.hard ->
    (s.timer s.threadTimer).activated = true
  oneShot : (s.timer s.threadTimer).periodic = false
  kind : (s.timer s.threadTimer).soft = false

section Orderly

variable {c : SkipConfig} {low : Nat} {s s' : State Rows} {lists : RowLists}
  {t x : TimerId}

theorem Orderly.congr (ho : Orderly c low s lists) (hlists : s'.lists = s.lists)
    (hstarts : s'.starts = s.starts) (htick : s'.tick = s.tick)
    (horder : s'.order = s.order) (hown : s'.threadTimer = s.threadTimer)
    (htimeout : forall x, s'.timeout x = s.timeout x)
    (hsoft : forall x, (s'.timer x).soft = (s.timer x).soft)
    (hperiodic : (s'.timer s.threadTimer).periodic = (s.timer s.threadTimer).periodic)
    (hflag : s.threadTimer ∈ lists c.bottom TimerList.hard ->
      (s'.timer s.threadTimer).activated = (s.timer s.threadTimer).activated) :
    Orderly c low s' lists := by
  have hkind : forall x, (s'.timer x).list = (s.timer x).list := by
    intro x
    unfold RtTimer.list
    rw [hsoft x]
  constructor
  · exact ho.sound.congr hlists hstarts hkind
  · rw [htick]
    exact ho.hard.congr (fun x _ => htimeout x) (fun x _ => congrFun horder x)
      (Nat.le_of_eq hstarts.symm)
  · exact ho.soft.congr htick (fun x _ => htimeout x) (fun x _ => congrFun horder x)
      (Nat.le_of_eq hstarts.symm)
  · intro x hx
    rw [htimeout x]
    exact ho.timeouts x hx
  · intro hin
    rw [hown] at hin ⊢
    rw [hflag hin]
    exact ho.flag hin
  · rw [hown, hperiodic]
    exact ho.oneShot
  · rw [hown, hsoft]
    exact ho.kind

theorem Orderly.raise {low' : Nat} (ho : Orderly c low s lists)
    (hlow : forall x, x ∈ lists c.bottom TimerList.hard ->
      low' ≤ s.ahead (s.tick - 1) x) : Orderly c low' s lists :=
  { ho with hard := ho.hard.raise hlow }

theorem Orderly.setStat (ho : Orderly c low s lists) (stat : ThreadStat) :
    Orderly c low (s.setStat stat) lists :=
  ho.congr rfl rfl rfl rfl rfl (fun _ => rfl) (fun _ => rfl) rfl (fun _ => rfl)

theorem Orderly.setActivated (ho : Orderly c low s lists) {b : Bool}
    (ht : t = s.threadTimer -> t ∉ lists c.bottom TimerList.hard) :
    Orderly c low (s.setActivated t b) lists := by
  have hsettings : SameSettings s (s.setActivated t b) := sameSettings_setActivated b
  refine ho.congr rfl rfl rfl rfl rfl ?_ ?_ ?_ ?_
  · exact fun x => s.setActivated_timeout t x b
  · exact hsettings.soft
  · exact hsettings.periodic _
  · intro hin
    have hne : s.threadTimer ≠ t := fun heq => ht heq.symm (heq ▸ hin)
    unfold State.setActivated
    rw [State.setTimer_timer, Function.update_of_ne hne]

theorem Orderly.remove (ho : Orderly c low s lists) (t : TimerId) :
    Orderly c low (rtTimerRemove (skipList c) s t) fun i h => (lists i h).erase t := by
  constructor
  · exact ho.sound.remove t
  · exact (ho.hard.erase t).congr (fun _ _ => rfl) (fun _ _ => rfl) (Nat.le_refl _)
  · exact (ho.soft.sublist List.erase_sublist).congr rfl (fun _ _ => rfl)
      (fun _ _ => rfl) (Nat.le_refl _)
  · intro x hx
    exact ho.timeouts x (List.mem_of_mem_erase hx)
  · intro hin
    exact ho.flag (List.mem_of_mem_erase hin)
  · exact ho.oneShot
  · exact ho.kind

theorem Orderly.stop (ho : Orderly c low s lists) (t : TimerId) :
    exists lists', Orderly c low (rtTimerStop (skipList c) s t).1 lists' ∧
      (forall h x, x ∈ lists' c.bottom h -> x ∈ lists c.bottom h) ∧
      (forall h x, x ≠ t -> x ∈ lists c.bottom h -> x ∈ lists' c.bottom h) ∧
      (t = s.threadTimer -> t ∉ lists' c.bottom TimerList.hard) := by
  have hmem : forall {h : TimerList} {x : TimerId},
      x ∈ (lists c.bottom h).erase t <-> x ≠ t ∧ x ∈ lists c.bottom h :=
    ho.sound.mem_erase c.bottom_lt
  unfold rtTimerStop
  by_cases hact : (s.timer t).activated = true
  · rw [if_pos hact]
    refine ⟨_, (ho.remove t).setActivated ?_, ?_, ?_, ?_⟩
    · intro _ hin
      exact (hmem.mp hin).left rfl
    · intro h x hx
      exact (hmem.mp hx).right
    · intro h x hxt hx
      exact hmem.mpr ⟨hxt, hx⟩
    · intro _ hin
      exact (hmem.mp hin).left rfl
  · rw [if_neg hact]
    refine ⟨lists, ho, fun _ _ hx => hx, fun _ _ _ hx => hx, ?_⟩
    intro heq hin
    subst heq
    exact hact (ho.flag hin)

theorem stop_timeout {L : Type} {ops : ListOps L} {s : State L} :
    (rtTimerStop ops s t).1.timeout x = s.timeout x := by
  unfold rtTimerStop
  split
  · exact State.setActivated_timeout (rtTimerRemove ops s t) t x false
  · rfl

theorem stop_tick {L : Type} {ops : ListOps L} {s : State L} :
    (rtTimerStop ops s t).1.tick = s.tick := by
  unfold rtTimerStop
  split <;> rfl

theorem stop_timerThread {L : Type} {ops : ListOps L} {s : State L} :
    (rtTimerStop ops s t).1.timerThread = s.timerThread := by
  unfold rtTimerStop
  split <;> rfl

theorem start_cases (hs : Sound c s lists) (hstart : rtTimerStart (skipList c) s t = some s') :
    (s.timer t).initTick.toNat < rtTickMax / 2 ∧ exists rows' lists',
      s' = wakeTimerThread (skipList c) ((rtTimerArm (skipList c) s t).started t rows') t ∧
      Sound c ((rtTimerArm (skipList c) s t).started t rows') lists' ∧
      Inserted c (rtTimerArm (skipList c) s t).timeout (s.timer t).list t
        (fun i h => (lists i h).erase t) lists' := by
  by_cases hinit : (s.timer t).initTick.toNat < rtTickMax / 2
  · rcases hs.start t with ⟨rows', lists', heq, hsound, hins⟩
    rw [rtTimerStart_eq _ hinit, heq] at hstart
    exact ⟨hinit, rows', lists', (Option.some.inj hstart).symm, hsound, hins⟩
  · unfold rtTimerStart at hstart
    rw [if_neg hinit] at hstart
    cases hstart

theorem Orderly.started (ho : Orderly c low s lists) (hlow : low ≤ 1) {pc : ThreadPc}
    (hinit : (s.timer t).initTick.toNat < rtTickMax / 2)
    (htime : (s.timer t).soft = true -> StartsInTime c s pc t) {rows' : Rows}
    {lists' : RowLists}
    (hsound : Sound c ((rtTimerArm (skipList c) s t).started t rows') lists')
    (hins : Inserted c (rtTimerArm (skipList c) s t).timeout (s.timer t).list t
      (fun i h => (lists i h).erase t) lists') :
    Orderly c low ((rtTimerArm (skipList c) s t).started t rows') lists' := by
  have hsettings : SameSettings s ((rtTimerArm (skipList c) s t).started t rows') :=
    sameSettings_started
  constructor
  · exact hsound
  · show Sorted (s.tick - 1) low _ _
    apply ho.sound.sorted_started (ho.hard.erase t) _ hins
    intro _
    rw [ahead_arm hinit]
    refine ⟨Nat.le_trans hlow (Nat.le_add_left 1 _), Nat.le_add_left 1 _, hinit⟩
  · -- the soft timers but this one, counted from the first of them
    rcases (ho.soft.sublist (List.erase_sublist (a := t))).latest with
      ⟨base, hsorted, hbase, hnow⟩
    refine ⟨base, ho.sound.sorted_started hsorted ?_ hins, ?_, ?_⟩
    · intro hkind
      have hrange := (htime (RtTimer.list_soft_iff.mp hkind.symm)).range
      rw [late_eq (ho.sound.remove t)] at hrange
      have hlate : (rtTimerRemove (skipList c) s t).lateOf
          ((lists c.bottom TimerList.soft).erase t) =
          s.lateOf ((lists c.bottom TimerList.soft).erase t) := rfl
      rw [hlate, ← hbase] at hrange
      have hahead : (rtTimerArm (skipList c) s t).ahead base t =
          (s.tick - base).toNat + (s.timer t).initTick.toNat :=
        Fits.ahead_arm hrange
      rw [hahead]
      refine ⟨?_, ?_, hrange⟩
      all_goals
        rw [hbase]
        exact Nat.le_trans (Nat.le_add_left 1 _) (Nat.le_add_right _ _)
    · show 1 ≤ (s.tick - base).toNat
      rw [hbase]
      exact Nat.le_add_left 1 _
    · show (s.tick - base).toNat < _
      rw [hbase]
      exact hnow
  · intro x hx
    rcases hins.mem_bottom.mp hx with hold | ⟨heq, hkind⟩
    · have hx' := (ho.sound.mem_erase c.bottom_lt).mp hold
      rw [State.started_timeout, arm_timeout_of_ne hx'.left]
      exact ho.timeouts x hx'.right
    · subst heq
      rw [started_timeout_self]
      exact (htime (RtTimer.list_soft_iff.mp hkind.symm)).timeout
  · intro hin
    show (((rtTimerArm (skipList c) s t).started t rows').timer s.threadTimer).activated = true
    by_cases hown : s.threadTimer = t
    · rw [hown, State.started_timer, Function.update_self]
    · rw [started_timer_of_ne hown]
      rcases hins.mem_bottom.mp hin with hold | ⟨heq, _⟩
      · exact ho.flag (List.mem_of_mem_erase hold)
      · exact absurd heq hown
  · exact (hsettings.periodic _).trans ho.oneShot
  · exact (hsettings.soft _).trans ho.kind

theorem Orderly.tick (ho : Orderly c (low + 1) s lists) (hlate : s.late c + 2 < rtTickMax / 2) :
    Orderly c low { s with tick := s.tick + 1 } lists := by
  rw [late_eq ho.sound] at hlate
  constructor
  · exact ho.sound.congr rfl rfl fun _ => rfl
  · have hbase : s.tick + 1 - 1 = s.tick - 1 + 1 := by
      generalize s.tick = b
      bv_omega
    show Sorted (s.tick + 1 - 1) low _ _
    rw [hbase]
    exact ho.hard.advance.congr (fun _ _ => rfl) (fun _ _ => rfl) (Nat.le_refl _)
  · exact ho.soft.tick hlate
  · exact ho.timeouts
  · exact ho.flag
  · exact ho.oneShot
  · exact ho.kind

end Orderly

/-!
## What the thread has read
-/

/-- No soft timer expires within `k` ticks from the tick before the current one on. -/
def Covers (k : Nat) (s : State Rows) (l : List TimerId) : Prop :=
  forall x, x ∈ l -> k ≤ s.ahead (s.tick - 1) x ∧ s.ahead (s.tick - 1) x ≤ rtTickMax / 2

/-- The saved node of the check is the head of the soft list or a soft timer, linked
or not. -/
def SoftNode (s : State Rows) (n : RowNode) : Prop :=
  n = Node.head TimerList.soft ∨ exists m, n = Node.member m ∧ (s.timer m).soft = true

def Window (s : State Rows) (l : List TimerId) : ThreadPc -> Prop
  | ThreadPc.suspendSelf => l = []
  | ThreadPc.compare next =>
    2 ≤ (next - (s.tick - 1)).toNat -> (next - (s.tick - 1)).toNat ≤ rtTickMax / 2 ->
    Covers (next - (s.tick - 1)).toNat s l
  | ThreadPc.delay n =>
    0 < n.toNat ∧ n.toNat < rtTickMax / 2 ∧ Covers (n.toNat + 1) s l
  | ThreadPc.check (SoftPhase.loop n _) => SoftNode s n
  | ThreadPc.check (SoftPhase.callback t n) => (s.timer t).soft = true ∧ SoftNode s n
  | _ => True

/-- The thread runs, its timer has expired and is to wake it, it is suspended without a
timeout, or it is delayed. A delay ends before any soft timer expires, and outside a check
it has not ended yet. -/
inductive ThreadOk (s : State Rows) (phase : Phase) (hard soft : List TimerId)
    (pc : ThreadPc) : Prop where
  | awake (hstat : s.timerThread.stat = ThreadStat.ready)
      (hfree : s.threadTimer ∉ hard) (hphase : phase ≠ Phase.callback s.threadTimer)
      (hwindow : Window s soft pc)
  | waking (hstat : s.timerThread.stat = ThreadStat.suspend)
      (hpc : pc = ThreadPc.asleep) (hphase : phase = Phase.callback s.threadTimer)
      (hfree : s.threadTimer ∉ hard)
  | suspended (hstat : s.timerThread.stat = ThreadStat.suspend)
      (hpc : pc = ThreadPc.asleep) (hphase : phase ≠ Phase.callback s.threadTimer)
      (hfree : s.threadTimer ∉ hard) (hempty : soft = [])
  | delayed (hstat : s.timerThread.stat = ThreadStat.suspend)
      (hpc : pc = ThreadPc.asleep) (hphase : phase ≠ Phase.callback s.threadTimer)
      (hlinked : s.threadTimer ∈ hard)
      (hahead : phase.nearest 1 ≤ s.ahead (s.tick - 1) s.threadTimer)
      (hcovers : Covers (s.ahead (s.tick - 1) s.threadTimer) s soft)

/-- The check of the hard timers works with the current tick and calls hard timers. -/
def PhaseOk (s : State Rows) : Phase -> Prop
  | Phase.idle => True
  | Phase.checking current => current = s.tick
  | Phase.callback t => (s.timer t).soft = false

def Watching (c : SkipConfig) (x : ThreadSystem) : Prop :=
  exists lists, Orderly c (x.sys.phase.nearest 0) x.sys.state lists ∧
    ThreadOk x.sys.state x.sys.phase (lists c.bottom TimerList.hard)
      (lists c.bottom TimerList.soft) x.pc ∧
    PhaseOk x.sys.state x.sys.phase

section Window

variable {s s' : State Rows} {l l' hard hard' : List TimerId}
  {k : Nat} {n : RowNode} {pc : ThreadPc} {phase phase' : Phase} {t : TimerId}

theorem ahead_congr {x : TimerId} (htick : s'.tick = s.tick)
    (htimeout : s'.timeout x = s.timeout x) :
    s'.ahead (s'.tick - 1) x = s.ahead (s.tick - 1) x := by
  unfold State.ahead
  rw [htick, htimeout]

theorem ahead_tick {x : TimerId} (hpos : 1 ≤ s.ahead (s.tick - 1) x) :
    ({ s with tick := s.tick + 1 } : State Rows).ahead (s.tick + 1 - 1) x + 1 =
      s.ahead (s.tick - 1) x := by
  show (s.timeout x - (s.tick + 1 - 1)).toNat + 1 = _
  unfold State.ahead at *
  generalize s.timeout x = a at *
  generalize s.tick = b at *
  bv_omega

theorem Covers.sub (hc : Covers k s l) (htick : s'.tick = s.tick)
    (hmem : forall x, x ∈ l' -> x ∈ l ∧ s'.timeout x = s.timeout x) : Covers k s' l' := by
  intro x hx
  rcases hmem x hx with ⟨hin, htimeout⟩
  rw [ahead_congr htick htimeout]
  exact hc x hin

theorem Covers.tick (hc : Covers (k + 1) s l) : Covers k { s with tick := s.tick + 1 } l := by
  intro x hx
  have hx' := hc x hx
  have hnext := ahead_tick (Nat.le_trans (Nat.le_add_left 1 k) hx'.left)
  show k ≤ ({ s with tick := s.tick + 1 } : State Rows).ahead (s.tick + 1 - 1) x ∧
    ({ s with tick := s.tick + 1 } : State Rows).ahead (s.tick + 1 - 1) x ≤ _
  omega

theorem SoftNode.congr (hn : SoftNode s n)
    (hsoft : forall x, (s'.timer x).soft = (s.timer x).soft) : SoftNode s' n := by
  rcases hn with hhead | ⟨m, heq, hm⟩
  · exact Or.inl hhead
  · exact Or.inr ⟨m, heq, (hsoft m).trans hm⟩

theorem Window.change (hw : Window s l pc) (htick : s'.tick = s.tick)
    (hsoft : forall x, (s'.timer x).soft = (s.timer x).soft)
    (hmem : forall x, x ∈ l' -> x ∈ l ∧ s'.timeout x = s.timeout x ∨
      Noticed s pc x ∧ (s.timer x).initTick.toNat < rtTickMax / 2 ∧
        s'.timeout x = s.tick + (s.timer x).initTick) : Window s' l' pc := by
  -- the timeout of a started timer
  have hnew : forall x, (s.timer x).initTick.toNat < rtTickMax / 2 ->
      s'.timeout x = s.tick + (s.timer x).initTick ->
      s'.ahead (s'.tick - 1) x = (s.timer x).initTick.toNat + 1 := by
    intro x hinit htimeout
    unfold State.ahead rtTickMax at *
    rw [htick, htimeout]
    generalize (s.timer x).initTick = a at *
    generalize s.tick = b at *
    bv_omega
  have hcovers : forall k, Covers (k + 1) s l ->
      (forall x, Noticed s pc x -> k ≤ (s.timer x).initTick.toNat) ->
      Covers (k + 1) s' l' := by
    intro k hc hstart x hx
    rcases hmem x hx with ⟨hin, htimeout⟩ | ⟨htime, hinit, htimeout⟩
    · rw [ahead_congr htick htimeout]
      exact hc x hin
    · rw [hnew x hinit htimeout]
      exact ⟨Nat.succ_le_succ (hstart x htime), hinit⟩
  cases pc with
  | top => trivial
  | asleep => trivial
  | suspendSelf =>
    have hl : l = [] := hw
    apply List.eq_nil_iff_forall_not_mem.mpr
    intro x hx
    rcases hmem x hx with ⟨hin, _⟩ | ⟨htime, _⟩
    · rw [hl] at hin
      cases hin
    · exact htime.suspend rfl
  | compare next =>
    intro hlow hhigh
    rw [htick] at hlow hhigh ⊢
    have hold := hw hlow hhigh
    have hsub : (next - (s.tick - 1)).toNat = (next - s.tick).toNat + 1 := by
      generalize s.tick = b at *
      bv_omega
    rw [hsub] at hold hhigh ⊢
    apply hcovers _ hold
    intro x htime
    exact htime.compare next rfl hhigh
  | delay n =>
    rcases hw with ⟨hpos, hbound, hold⟩
    refine ⟨hpos, hbound, hcovers _ hold ?_⟩
    intro x htime
    exact htime.delay n rfl
  | check p =>
    cases p with
    | idle => trivial
    | loop n current => exact SoftNode.congr hw hsoft
    | callback t n =>
      exact ⟨(hsoft t).trans hw.left, hw.right.congr hsoft⟩

theorem Window.tick (hw : Window s l pc) (hpc : forall n, pc ≠ ThreadPc.delay n)
    (hnext : forall next, pc = ThreadPc.compare next -> (next - s.tick).toNat ≠ rtTickMax / 2) :
    Window { s with tick := s.tick + 1 } l pc := by
  cases pc with
  | top => trivial
  | asleep => trivial
  | suspendSelf => exact hw
  | compare next =>
    intro hlow hhigh
    change 2 ≤ (next - (s.tick + 1 - 1)).toNat at hlow
    change (next - (s.tick + 1 - 1)).toNat ≤ rtTickMax / 2 at hhigh
    have hlate := hnext next rfl
    have hsub : (next - (s.tick - 1)).toNat = (next - (s.tick + 1 - 1)).toNat + 1 ∧
        (next - (s.tick + 1 - 1)).toNat < rtTickMax / 2 := by
      unfold rtTickMax at *
      generalize s.tick = b at *
      bv_omega
    have hold : Covers (next - (s.tick - 1)).toNat s l := by
      apply hw
      · rw [hsub.left]
        exact Nat.le_succ_of_le hlow
      · rw [hsub.left]
        exact hsub.right
    rw [hsub.left] at hold
    exact hold.tick
  | delay n => exact absurd rfl (hpc n)
  | check p =>
    cases p with
    | idle => trivial
    | loop n current => exact SoftNode.congr hw fun _ => rfl
    | callback t n => exact ⟨hw.left, hw.right.congr fun _ => rfl⟩

theorem ThreadOk.change (ho : ThreadOk s phase hard l pc)
    (hthread : s'.timerThread = s.timerThread) (htick : s'.tick = s.tick)
    (hsoft : forall x, (s'.timer x).soft = (s.timer x).soft)
    (hown : s'.timeout s.threadTimer = s.timeout s.threadTimer)
    (hhard : s.threadTimer ∈ hard' <-> s.threadTimer ∈ hard)
    (hphase : phase' = Phase.callback s.threadTimer <-> phase = Phase.callback s.threadTimer)
    (hnear : s.threadTimer ∈ hard -> phase.nearest 1 ≤ s.ahead (s.tick - 1) s.threadTimer ->
      phase'.nearest 1 ≤ s.ahead (s.tick - 1) s.threadTimer)
    (hmem : forall x, x ∈ l' -> x ∈ l ∧ s'.timeout x = s.timeout x) :
    ThreadOk s' phase' hard' l' pc := by
  have htimer : s'.threadTimer = s.threadTimer :=
    congrArg TimerThread.threadTimer hthread
  have hstat' : s'.timerThread.stat = s.timerThread.stat :=
    congrArg TimerThread.stat hthread
  cases ho with
  | awake hstat hfree hcall hwindow =>
    apply ThreadOk.awake (hstat'.trans hstat)
    · rw [htimer, hhard]
      exact hfree
    · rw [htimer, Ne, hphase]
      exact hcall
    · exact hwindow.change htick hsoft fun x hx => Or.inl (hmem x hx)
  | waking hstat hpc hcall hfree =>
    apply ThreadOk.waking (hstat'.trans hstat) hpc
    · rw [htimer, hphase]
      exact hcall
    · rw [htimer, hhard]
      exact hfree
  | suspended hstat hpc hcall hfree hempty =>
    apply ThreadOk.suspended (hstat'.trans hstat) hpc
    · rw [htimer, Ne, hphase]
      exact hcall
    · rw [htimer, hhard]
      exact hfree
    · apply List.eq_nil_iff_forall_not_mem.mpr
      intro x hx
      have hin := (hmem x hx).left
      rw [hempty] at hin
      cases hin
  | delayed hstat hpc hcall hlinked hahead hcovers =>
    have hsame : s'.ahead (s'.tick - 1) s'.threadTimer = s.ahead (s.tick - 1) s.threadTimer := by
      rw [htimer]
      exact ahead_congr htick hown
    apply ThreadOk.delayed (hstat'.trans hstat) hpc
    · rw [htimer, Ne, hphase]
      exact hcall
    · rw [htimer, hhard]
      exact hlinked
    · rw [hsame]
      exact hnear hlinked hahead
    · rw [hsame]
      exact hcovers.sub htick hmem

theorem ThreadOk.tick (ho : ThreadOk s Phase.idle hard l pc)
    (hpc : forall n, pc ≠ ThreadPc.delay n)
    (hnext : forall next, pc = ThreadPc.compare next -> (next - s.tick).toNat ≠ rtTickMax / 2) :
    ThreadOk { s with tick := s.tick + 1 } (Phase.checking (s.tick + 1)) hard l pc := by
  cases ho with
  | awake hstat hfree hcall hwindow =>
    exact ThreadOk.awake hstat hfree (by simp) (hwindow.tick hpc hnext)
  | waking hstat hpc hcall hfree => cases hcall
  | suspended hstat hpc hcall hfree hempty =>
    exact ThreadOk.suspended hstat hpc (by simp) hfree hempty
  | delayed hstat hpc hcall hlinked hahead hcovers =>
    have hle : 2 ≤ s.ahead (s.tick - 1) s.threadTimer := hahead
    have hnear := ahead_tick (Nat.le_of_succ_le hle)
    refine ThreadOk.delayed hstat hpc (by simp) hlinked ?_ ?_
    · show 1 ≤ ({ s with tick := s.tick + 1 } : State Rows).ahead (s.tick + 1 - 1) s.threadTimer
      omega
    · rw [← hnear] at hcovers
      exact hcovers.tick

end Window

/-!
## The steps of the others
-/

section Others

variable {c : SkipConfig} {s s' : State Rows} {phase : Phase} {pc : ThreadPc}
  {t : TimerId} {lists lists' : RowLists} {low : Nat}

theorem PhaseOk.congr (hp : PhaseOk s phase) (htick : s'.tick = s.tick)
    (hsoft : forall x, (s'.timer x).soft = (s.timer x).soft) : PhaseOk s' phase := by
  cases phase with
  | idle => trivial
  | checking current => exact hp.trans htick.symm
  | callback t => exact (hsoft t).trans hp

theorem Watching.stop
    (hw : Watching c { sys := { state := s, phase := phase }, pc := pc })
    (hne : t ≠ s.threadTimer) :
    Watching c
      { sys := { state := (rtTimerStop (skipList c) s t).1, phase := phase }
        pc := pc } := by
  rcases hw with ⟨lists, ho, hok, hphase⟩
  rcases ho.stop t with ⟨lists', ho', hsub, hkeep, _⟩
  refine ⟨lists', ho', ?_, hphase.congr stop_tick sameSettings_stop.soft⟩
  apply hok.change stop_timerThread stop_tick sameSettings_stop.soft stop_timeout
  · exact ⟨hsub _ _, hkeep _ _ hne.symm⟩
  · exact Iff.rfl
  · exact fun _ hnear => hnear
  · exact fun x hx => ⟨hsub _ x hx, stop_timeout⟩

theorem wake_eq_self (hwake : (s.timer t).soft = false ∨ s.timerThread.stat = ThreadStat.ready) :
    wakeTimerThread (skipList c) s t = s := by
  apply if_neg
  rintro ⟨hsoft, hstat⟩
  rcases hwake with hhard | hready
  · rw [hhard] at hsoft
    cases hsoft
  · exact hstat hready

theorem wake_suspended (hsoft : (s.timer t).soft = true)
    (hstat : s.timerThread.stat = ThreadStat.suspend) :
    wakeTimerThread (skipList c) s t =
      ((rtTimerStop (skipList c) s s.threadTimer).1).setStat ThreadStat.ready := by
  have hboth : (s.timer t).soft = true ∧ s.timerThread.stat ≠ ThreadStat.ready :=
    ⟨hsoft, by rw [hstat]; simp⟩
  unfold wakeTimerThread resumeTimerThread
  rw [if_pos hboth, if_pos hstat]
  rfl

theorem started_mem (hs : Sound c s lists)
    (hins : Inserted c (rtTimerArm (skipList c) s t).timeout (s.timer t).list t
      (fun i h => (lists i h).erase t) lists') {x : TimerId} {h : TimerList} :
    x ∈ lists' c.bottom h <-> x ≠ t ∧ x ∈ lists c.bottom h ∨ x = t ∧
      h = (s.timer t).list := by
  rw [hins.mem_bottom, hs.mem_erase c.bottom_lt]

theorem ThreadOk.startHard {phase' : Phase} (hs : Sound c s lists)
    (hok : ThreadOk s phase (lists c.bottom TimerList.hard) (lists c.bottom TimerList.soft) pc)
    (hne : t ≠ s.threadTimer) (hhard : (s.timer t).soft = false)
    (hphase : phase' = Phase.callback s.threadTimer <-> phase = Phase.callback s.threadTimer)
    (hnear : phase'.nearest 1 ≤ phase.nearest 1) {rows' : Rows}
    (hins : Inserted c (rtTimerArm (skipList c) s t).timeout (s.timer t).list t
      (fun i h => (lists i h).erase t) lists') :
    ThreadOk ((rtTimerArm (skipList c) s t).started t rows') phase'
      (lists' c.bottom TimerList.hard) (lists' c.bottom TimerList.soft) pc := by
  have hmem : forall {x : TimerId} {h : TimerList}, x ∈ lists' c.bottom h <-> _ :=
    started_mem hs hins
  have htimeout : forall x, x ≠ t ->
      ((rtTimerArm (skipList c) s t).started t rows').timeout x = s.timeout x := by
    intro x hx
    rw [State.started_timeout, arm_timeout_of_ne hx]
  refine hok.change rfl rfl sameSettings_started.soft (htimeout _ hne.symm) ?_ hphase ?_ ?_
  · rw [hmem]
    constructor
    · rintro (⟨_, hin⟩ | ⟨heq, _⟩)
      · exact hin
      · exact absurd heq.symm hne
    · exact fun hin => Or.inl ⟨hne.symm, hin⟩
  · exact fun _ hle => Nat.le_trans hnear hle
  · intro x hx
    rcases hmem.mp hx with ⟨hxt, hin⟩ | ⟨_, hkind⟩
    · exact ⟨hin, htimeout x hxt⟩
    · rw [RtTimer.list_hard_iff.mpr hhard] at hkind
      cases hkind

theorem Orderly.resumed (ho : Orderly c low s lists)
    (hphase : phase ≠ Phase.callback s.threadTimer) :
    exists lists', Orderly c low (((rtTimerStop (skipList c) s s.threadTimer).1).setStat
        ThreadStat.ready) lists' ∧
      ThreadOk (((rtTimerStop (skipList c) s s.threadTimer).1).setStat
        ThreadStat.ready) phase (lists' c.bottom TimerList.hard)
        (lists' c.bottom TimerList.soft) ThreadPc.asleep := by
  rcases ho.stop s.threadTimer with ⟨lists', ho', _, _, hfree⟩
  have hsame : (((rtTimerStop (skipList c) s s.threadTimer).1).setStat
      ThreadStat.ready).threadTimer = s.threadTimer := by
    show (rtTimerStop (skipList c) s s.threadTimer).1.timerThread.threadTimer = _
    rw [stop_timerThread]
    rfl
  refine ⟨lists', ho'.setStat _, ThreadOk.awake rfl ?_ ?_ trivial⟩
  · rw [hsame]
    exact hfree rfl
  · rw [hsame]
    exact hphase

theorem ThreadOk.startSoft (ho : Orderly c low s lists) (hlow : low ≤ 1)
    (hok : ThreadOk s phase (lists c.bottom TimerList.hard) (lists c.bottom TimerList.soft) pc)
    (hne : t ≠ s.threadTimer) (hphase : phase ≠ Phase.callback s.threadTimer)
    (hsoft : (s.timer t).soft = true) (htime : StartsInTime c s pc t)
    (hinit : (s.timer t).initTick.toNat < rtTickMax / 2) {rows' : Rows}
    (hsound : Sound c ((rtTimerArm (skipList c) s t).started t rows') lists')
    (hins : Inserted c (rtTimerArm (skipList c) s t).timeout (s.timer t).list t
      (fun i h => (lists i h).erase t) lists') :
    exists lists'', Orderly c low (wakeTimerThread (skipList c)
        ((rtTimerArm (skipList c) s t).started t rows') t) lists'' ∧
      ThreadOk (wakeTimerThread (skipList c)
        ((rtTimerArm (skipList c) s t).started t rows') t) phase
        (lists'' c.bottom TimerList.hard) (lists'' c.bottom TimerList.soft) pc := by
  have ho' := ho.started hlow hinit (fun _ => htime) hsound hins
  have hmem : forall {x : TimerId} {h : TimerList}, x ∈ lists' c.bottom h <-> _ :=
    started_mem ho.sound hins
  have hsoft' : (((rtTimerArm (skipList c) s t).started t rows').timer t).soft = true :=
    (sameSettings_started.soft t).trans hsoft
  have hphase' : phase ≠
      Phase.callback ((rtTimerArm (skipList c) s t).started t rows').threadTimer := hphase
  cases hok with
  | awake hstat hfree hcall hwindow =>
    have hstat' : ((rtTimerArm (skipList c) s t).started t rows').timerThread.stat =
        ThreadStat.ready := hstat
    rw [wake_eq_self (Or.inr hstat')]
    refine ⟨lists', ho', ThreadOk.awake hstat ?_ hphase ?_⟩
    · show s.threadTimer ∉ _
      rw [hmem]
      rintro (⟨_, hin⟩ | ⟨heq, _⟩)
      · exact hfree hin
      · exact hne heq.symm
    · refine hwindow.change rfl sameSettings_started.soft ?_
      intro x hx
      rcases hmem.mp hx with ⟨hxt, hin⟩ | ⟨heq, _⟩
      · refine Or.inl ⟨hin, ?_⟩
        rw [State.started_timeout, arm_timeout_of_ne hxt]
      · subst heq
        exact Or.inr ⟨htime.toNoticed, hinit, started_timeout_self⟩
  | waking hstat hpc hcall hfree => exact absurd hcall hphase
  | suspended hstat hpc hcall hfree hempty =>
    rw [wake_suspended hsoft' hstat, hpc]
    exact ho'.resumed hphase'
  | delayed hstat hpc hcall hlinked hahead hcovers =>
    rw [wake_suspended hsoft' hstat, hpc]
    exact ho'.resumed hphase'

theorem Watching.start (hw : Watching c { sys := { state := s, phase := phase }, pc := pc })
    (hne : t ≠ s.threadTimer) (hphase : phase ≠ Phase.callback s.threadTimer)
    (htime : (s.timer t).soft = true -> StartsInTime c s pc t)
    (hs : rtTimerStart (skipList c) s t = some s') :
    Watching c { sys := { state := s', phase := phase }, pc := pc } := by
  rcases hw with ⟨lists, ho, hok, hp⟩
  have hlow : phase.nearest 0 ≤ 1 := phase.nearest_le 0
  have hp' := hp.congr (sameSettings_start hs).tick (sameSettings_start hs).soft
  rcases start_cases ho.sound hs with ⟨hinit, rows', lists', heq, hsound, hins⟩
  subst heq
  cases hkind : (s.timer t).soft with
  | true =>
    rcases hok.startSoft ho hlow hne hphase hkind (htime hkind) hinit hsound hins with
      ⟨lists'', ho'', hok''⟩
    exact ⟨lists'', ho'', hok'', hp'⟩
  | false =>
    have hwake : wakeTimerThread (skipList c) ((rtTimerArm (skipList c) s t).started t rows') t =
        (rtTimerArm (skipList c) s t).started t rows' :=
      wake_eq_self (Or.inl ((sameSettings_started.soft t).trans hkind))
    rw [hwake] at hp' ⊢
    exact ⟨lists', ho.started hlow hinit htime hsound hins,
      hok.startHard ho.sound hne hkind Iff.rfl (Nat.le_refl _) hins, hp'⟩

theorem Watching.tick
    (hw : Watching c { sys := { state := s, phase := Phase.idle }, pc := pc })
    (hpc : forall n, pc ≠ ThreadPc.delay n)
    (hnext : forall next, pc = ThreadPc.compare next ->
      (next - s.tick).toNat ≠ rtTickMax / 2)
    (hlate : s.late c + 2 < rtTickMax / 2) :
    Watching c
      { sys :=
          { state := { s with tick := s.tick + 1 }
            phase := Phase.checking (s.tick + 1) }
        pc := pc } := by
  rcases hw with ⟨lists, ho, hok, _⟩
  exact ⟨lists, Orderly.tick ho hlate, hok.tick hpc hnext, rfl⟩

theorem Watching.enter (hw : Watching c { sys := { state := s, phase := Phase.idle }, pc := pc }) :
    Watching c { sys := { state := s, phase := Phase.checking s.tick }, pc := pc } := by
  rcases hw with ⟨lists, ho, hok, _⟩
  refine ⟨lists, ho.raise fun _ _ => Nat.zero_le _, ?_, rfl⟩
  apply hok.change rfl rfl (fun _ => rfl) rfl Iff.rfl
  · simp
  · exact fun _ hle => Nat.le_of_succ_le hle
  · exact fun x hx => ⟨hx, rfl⟩

variable {current : Tick}

theorem Watching.leave {lists : RowLists} (ho : Orderly c 0 s lists)
    (hok : ThreadOk s (Phase.checking current) (lists c.bottom TimerList.hard)
      (lists c.bottom TimerList.soft) pc)
    (hfirst : forall t, t ∈ (lists c.bottom TimerList.hard).head? -> ¬ s.Due s.tick t) :
    Watching c { sys := { state := s, phase := Phase.idle }, pc := pc } := by
  have hnone := ho.hard.none_due hfirst
  refine ⟨lists, ?_, ?_, trivial⟩
  · apply ho.raise
    intro x hx
    exact Nat.le_of_succ_le (hnone.low_le x hx)
  · apply hok.change rfl rfl (fun _ => rfl) rfl Iff.rfl
    · simp
    · exact fun hin _ => hnone.low_le _ hin
    · exact fun x hx => ⟨hx, rfl⟩

theorem Watching.fire {lists : RowLists} (ho : Orderly c 0 s lists)
    (hok : ThreadOk s (Phase.checking current) (lists c.bottom TimerList.hard)
      (lists c.bottom TimerList.soft) pc)
    (ht : t ∈ lists c.bottom TimerList.hard) :
    Watching c
      { sys :=
          { state := rtTimerRemove (skipList c) s t
            phase := Phase.callback t }
        pc := pc } := by
  have hmem : forall {x : TimerId} {h : TimerList},
      x ∈ (lists c.bottom h).erase t <-> x ≠ t ∧ x ∈ lists c.bottom h :=
    ho.sound.mem_erase c.bottom_lt
  have hkind : (s.timer t).soft = false :=
    RtTimer.list_hard_iff.mp (ho.sound.placed _ t ht).symm
  refine ⟨_, ho.remove t, ?_, hkind⟩
  by_cases hown : t = s.threadTimer
  · subst hown
    cases hok with
    | awake hstat hfree hcall hwindow => exact absurd ht hfree
    | waking hstat hpc hcall hfree => exact absurd ht hfree
    | suspended hstat hpc hcall hfree hempty => exact absurd ht hfree
    | delayed hstat hpc hcall hlinked hahead hcovers =>
      refine ThreadOk.waking hstat hpc rfl ?_
      intro hin
      exact (hmem.mp hin).left rfl
  · refine hok.change rfl rfl (fun _ => rfl) rfl ?_ ?_ ?_ ?_
    · rw [hmem]
      exact ⟨fun hin => hin.right, fun hin => ⟨Ne.symm hown, hin⟩⟩
    · simp [hown]
    · exact fun _ hle => hle
    · exact fun x hx => ⟨List.mem_of_mem_erase hx, rfl⟩

theorem Watching.round {x : System Rows}
    (hw : Watching c { sys := { state := s, phase := Phase.checking current }, pc := pc })
    (hs : step (skipList c) { state := s, phase := Phase.checking current } Op.round = some x) :
    Watching c { sys := x, pc := pc } := by
  rcases hw with ⟨lists, ho, hok, hcurrent⟩
  change current = s.tick at hcurrent
  subst hcurrent
  rw [step_round rfl, ho.sound.wired.first] at hs
  cases hs
  cases hhead : (lists c.bottom TimerList.hard).head? with
  | none =>
    apply Watching.leave ho hok
    intro t ht
    rw [hhead] at ht
    cases ht
  | some t =>
    by_cases hdue : s.Due s.tick t
    · simp only [if_pos hdue]
      exact Watching.fire ho hok (List.mem_of_head? hhead)
    · simp only [if_neg hdue]
      apply Watching.leave ho hok
      intro t' ht'
      rw [hhead] at ht'
      cases ht'
      exact hdue

theorem Watching.timeout (hw : Watching c
      { sys := { state := s, phase := Phase.callback s.threadTimer }, pc := pc })
    (hs : rtThreadTimeout s = some s') {s'' : State Rows}
    (hret : timeoutReturn (skipList c) s' s.threadTimer = some s'') :
    Watching c { sys := { state := s'', phase := Phase.checking s''.tick }, pc := pc } := by
  rcases hw with ⟨lists, ho, hok, _⟩
  unfold rtThreadTimeout at hs
  split at hs
  · rename_i hstat
    cases hs
    have hready := ho.setStat ThreadStat.ready
    have hfree : s.threadTimer ∉ lists c.bottom TimerList.hard ∧ pc = ThreadPc.asleep := by
      cases hok with
      | awake hstat' hfree hcall hwindow => exact absurd rfl hcall
      | waking hstat hpc hcall hfree => exact ⟨hfree, hpc⟩
      | suspended hstat hpc hcall hfree hempty => exact absurd rfl hcall
      | delayed hstat hpc hcall hlinked hahead hcovers => exact absurd rfl hcall
    have hstop : ¬ (((s.setStat ThreadStat.ready).timer s.threadTimer).periodic ∧
        ((s.setStat ThreadStat.ready).timer s.threadTimer).activated) := by
      rintro ⟨hperiodic, _⟩
      have hagain : (s.timer s.threadTimer).periodic = true := hperiodic
      have honce : (s.timer s.threadTimer).periodic = false := ho.oneShot
      rw [honce] at hagain
      cases hagain
    unfold timeoutReturn at hret
    rw [if_neg hstop] at hret
    cases hret
    refine ⟨lists, hready.setActivated fun _ => hfree.left, ?_, rfl⟩
    refine ThreadOk.awake rfl hfree.left (by simp) ?_
    rw [hfree.right]
    trivial
  · cases hs

theorem Watching.ret
    (hw : Watching c { sys := { state := s, phase := Phase.callback t }, pc := pc })
    (hne : t ≠ s.threadTimer) (hret : timeoutReturn (skipList c) s t = some s') :
    Watching c { sys := { state := s', phase := Phase.checking s'.tick }, pc := pc } := by
  rcases hw with ⟨lists, ho, hok, hkind⟩
  change (s.timer t).soft = false at hkind
  have hoff : Orderly c 0 (s.setActivated t false) lists :=
    ho.setActivated fun heq => absurd heq hne
  have hsettings : SameSettings s (s.setActivated t false) :=
    sameSettings_setActivated false
  have hok' : ThreadOk (s.setActivated t false) (Phase.checking s'.tick)
      (lists c.bottom TimerList.hard) (lists c.bottom TimerList.soft) pc := by
    refine hok.change rfl rfl hsettings.soft (s.setActivated_timeout t _ false) Iff.rfl
      ?_ (fun _ hle => hle) fun x hx => ⟨hx, s.setActivated_timeout t x false⟩
    simp [hne]
  have hkind' : ((s.setActivated t false).timer t).soft = false :=
    (hsettings.soft t).trans hkind
  unfold timeoutReturn at hret
  split at hret
  · have hw' : Watching c
        { sys := { state := s.setActivated t false, phase := Phase.checking s'.tick }
          pc := pc } := by
      refine ⟨lists, hoff, hok', ?_⟩
      have htick := (sameSettings_start hret).tick
      exact htick
    apply hw'.start hne (by simp) _ hret
    intro hsoft
    rw [hkind'] at hsoft
    cases hsoft
  · cases hret
    exact ⟨lists, hoff, hok', rfl⟩

end Others

/-!
## The steps of the thread
-/

section Entry

variable {c : SkipConfig} {s s' : State Rows} {pc pc' : ThreadPc} {t : TimerId}
  {lists : RowLists} {l : List TimerId}

theorem InRange.covers {rest : List TimerId} (hl : InRange s (t :: rest))
    (hlow : 2 ≤ s.ahead (s.tick - 1) t) (hhigh : s.ahead (s.tick - 1) t ≤ rtTickMax / 2) :
    Covers (s.ahead (s.tick - 1) t) s (t :: rest) := by
  rcases hl with ⟨base, hsorted, hpast, hnow⟩
  intro x hx
  have hfirst : s.ahead base t ≤ s.ahead base x := by
    rcases List.mem_cons.mp hx with heq | hin
    · rw [heq]
    · exact ((List.pairwise_cons.mp hsorted.order).left x hin).key_le
  have hnear := hsorted.near x hx
  unfold State.ahead rtTickMax at *
  generalize s.timeout t = a at *
  generalize s.timeout x = a' at *
  generalize s.tick = b at *
  bv_omega

theorem softNode_of_list {n : RowNode} (hs : Sound c s lists) {ys : List TimerId}
    (hys : forall y, y ∈ ys -> y ∈ lists c.bottom TimerList.soft)
    (hn : n = (ys.map Node.member ++ [Node.head TimerList.soft]).head (by simp)) :
    SoftNode s n := by
  subst hn
  cases ys with
  | nil => exact Or.inl rfl
  | cons y rest => exact Or.inr ⟨y, rfl, soft_kind hs (hys y List.mem_cons_self)⟩

theorem softNode_next (hs : Sound c s lists) (ht : (s.timer t).soft = true) :
    SoftNode s ((s.lists c.bottom).next (Node.member t)) := by
  by_cases hin : t ∈ lists c.bottom TimerList.soft
  · rcases List.mem_iff_append.mp hin with ⟨xs, ys, hsplit⟩
    apply softNode_of_list hs _ (hs.next_member rfl hsplit)
    intro y hy
    rw [hsplit]
    exact List.mem_append_right xs (List.mem_cons_of_mem t hy)
  · have halone : forall h, t ∉ lists c.bottom h := by
      intro h hmem
      have hkind := hs.placed h t hmem
      rw [RtTimer.list_soft_iff.mpr ht] at hkind
      exact hin (hkind ▸ hmem)
    rw [(hs.wired.bottomFamily.member_alone_iff t).mpr halone]
    exact Or.inr ⟨t, rfl, ht⟩

theorem window_enter (hs : Sound c s lists) : Window s l (ThreadPc.check (softEnter c s)) :=
  softNode_of_list hs (fun _ hy => hy) hs.next_head

theorem Watching.proceed {phase : Phase} (ho : Orderly c (phase.nearest 0) s lists)
    (hstat : s.timerThread.stat = ThreadStat.ready)
    (hfree : s.threadTimer ∉ lists c.bottom TimerList.hard)
    (hcall : phase ≠ Phase.callback s.threadTimer) (hp : PhaseOk s phase)
    (hwindow : Window s (lists c.bottom TimerList.soft) pc) :
    Watching c { sys := { state := s, phase := phase }, pc := pc } :=
  ⟨lists, ho, ThreadOk.awake hstat hfree hcall hwindow, hp⟩

theorem window_top (ho : Orderly c 1 s lists) (hs : entryStep c s ThreadPc.top = some (s', pc')) :
    s' = s ∧ Window s (lists c.bottom TimerList.soft) pc' := by
  have hnext : rtTimerListNextTimeout (skipList c) s TimerList.soft =
      match (lists c.bottom TimerList.soft).head? with
      | none => BitVec.ofNat 32 rtTickMax
      | some t => s.timeout t := by
    have hfirst := ho.sound.wired.first TimerList.soft
    unfold rtTimerListNextTimeout
    generalize (skipList c).first s.lists TimerList.soft = first at hfirst ⊢
    subst hfirst
    cases (lists c.bottom TimerList.soft).head? with
    | none => rfl
    | some t => rfl
  simp only [entryStep, hnext] at hs
  have hsoft := ho.soft
  have htimeouts := ho.timeouts
  cases hl : lists c.bottom TimerList.soft with
  | nil =>
    rw [hl] at hs
    cases hs
    exact ⟨rfl, rfl⟩
  | cons t rest =>
    rw [hl] at hs hsoft htimeouts
    simp only [List.head?_cons, htimeouts t List.mem_cons_self, if_false] at hs
    cases hs
    exact ⟨rfl, hsoft.covers⟩

theorem window_compare {next : Tick} (hs : Sound c s lists)
    (hw : Window s (lists c.bottom TimerList.soft) (ThreadPc.compare next))
    (hne : next ≠ s.tick)
    (hstep : entryStep c s (ThreadPc.compare next) = some (s', pc')) :
    s' = s ∧ Window s (lists c.bottom TimerList.soft) pc' := by
  simp only [entryStep] at hstep
  split at hstep
  · rename_i hnear
    cases hstep
    have hsub : (next - (s.tick - 1)).toNat = (next - s.tick).toNat + 1 ∧
        0 < (next - s.tick).toNat := by
      unfold rtTickMax at hnear
      generalize s.tick = b at *
      bv_omega
    have hcovers : Covers (next - (s.tick - 1)).toNat s (lists c.bottom TimerList.soft) := by
      apply hw
      · rw [hsub.left]
        exact Nat.succ_le_succ hsub.right
      · rw [hsub.left]
        exact hnear
    rw [hsub.left] at hcovers
    exact ⟨rfl, hsub.right, hnear, hcovers⟩
  · cases hstep
    exact ⟨rfl, window_enter hs⟩

theorem Orderly.suspended (ho : Orderly c 1 s lists)
    (hstat : s.timerThread.stat = ThreadStat.ready) :
    exists lists', Orderly c 1 (suspendTimerThread c s) lists' ∧
      (suspendTimerThread c s).timerThread.stat = ThreadStat.suspend ∧
      (suspendTimerThread c s).threadTimer = s.threadTimer ∧
      (suspendTimerThread c s).tick = s.tick ∧
      (forall x, (suspendTimerThread c s).timeout x = s.timeout x) ∧
      s.threadTimer ∉ lists' c.bottom TimerList.hard ∧
      (forall x, x ∈ lists' c.bottom TimerList.soft -> x ∈ lists c.bottom TimerList.soft) := by
  rcases (ho.setStat ThreadStat.suspend).stop s.threadTimer with
    ⟨lists', ho', hsub, _, hfree⟩
  have hthread : (rtTimerStop (skipList c) (s.setStat ThreadStat.suspend)
      s.threadTimer).1.timerThread = (s.setStat ThreadStat.suspend).timerThread :=
    stop_timerThread
  unfold suspendTimerThread
  rw [if_pos hstat]
  refine ⟨lists', ho', ?_, ?_, stop_tick, fun x => stop_timeout, hfree rfl, hsub TimerList.soft⟩
  · rw [hthread]
    rfl
  · have hown := congrArg TimerThread.threadTimer hthread
    exact hown

theorem Watching.suspendSelf (ho : Orderly c 1 s lists)
    (hstat : s.timerThread.stat = ThreadStat.ready)
    (hempty : lists c.bottom TimerList.soft = []) :
    Watching c
      { sys := { state := suspendTimerThread c s, phase := Phase.idle }
        pc := ThreadPc.asleep } := by
  rcases ho.suspended hstat with ⟨lists', ho', hstat', hown, _, _, hfree, hsub⟩
  refine ⟨lists', ho', ThreadOk.suspended hstat' rfl (by simp) ?_ ?_, trivial⟩
  · show (suspendTimerThread c s).threadTimer ∉ _
    rw [hown]
    exact hfree
  · apply List.eq_nil_iff_forall_not_mem.mpr
    intro x hx
    have hin := hsub x hx
    rw [hempty] at hin
    cases hin

theorem setTime_timer {n : Tick} (x : TimerId) :
    (rtTimerControl s t (TimerCtrl.setTime n)).1.timer x =
      { s.timer x with initTick := if x = t then n else (s.timer x).initTick } := by
  unfold rtTimerControl
  rw [State.setTimer_timer]
  by_cases hx : x = t
  · subst hx
    rw [Function.update_self, if_pos rfl]
  · rw [Function.update_of_ne hx, if_neg hx]

theorem Watching.delay {n : Tick} (ho : Orderly c 1 s lists)
    (hstat : s.timerThread.stat = ThreadStat.suspend)
    (hn : (s.timer s.threadTimer).initTick = n) (hpos : 0 < n.toNat)
    (hcovers : Covers (n.toNat + 1) s (lists c.bottom TimerList.soft))
    (hs : rtTimerStart (skipList c) s s.threadTimer = some s') :
    Watching c { sys := { state := s', phase := Phase.idle }, pc := ThreadPc.asleep } := by
  rcases start_cases ho.sound hs with ⟨hinit, rows', lists', heq, hsound, hins⟩
  have hsoft : forall pc, (s.timer s.threadTimer).soft = true ->
      StartsInTime c s pc s.threadTimer := by
    intro pc hsoft
    rw [ho.kind] at hsoft
    cases hsoft
  have hkind : (((rtTimerArm (skipList c) s s.threadTimer).started s.threadTimer
      rows').timer s.threadTimer).soft = false :=
    (sameSettings_started.soft _).trans ho.kind
  rw [wake_eq_self (Or.inl hkind)] at heq
  subst heq
  have hmem : forall {x : TimerId} {h : TimerList}, x ∈ lists' c.bottom h <-> _ :=
    started_mem ho.sound hins
  have hahead : (State.ahead ((rtTimerArm (skipList c) s s.threadTimer).started
      s.threadTimer rows') (s.tick - 1) s.threadTimer) = n.toNat + 1 := by
    unfold State.ahead
    rw [State.started_timeout, ← hn]
    exact ahead_arm hinit
  refine ⟨lists', ho.started (Nat.le_refl 1) hinit (hsoft ThreadPc.top) hsound hins, ?_,
    trivial⟩
  refine ThreadOk.delayed hstat rfl (by simp) ?_ ?_ ?_
  · exact hmem.mpr (Or.inr ⟨rfl, (RtTimer.list_hard_iff.mpr ho.kind).symm⟩)
  · show 2 ≤ State.ahead _ (s.tick - 1) s.threadTimer
    rw [hahead]
    exact Nat.succ_le_succ hpos
  · show Covers (State.ahead _ (s.tick - 1) s.threadTimer) _ _
    rw [hahead]
    refine hcovers.sub rfl ?_
    intro x hx
    rcases hmem.mp hx with ⟨hxt, hin⟩ | ⟨_, hlist⟩
    · refine ⟨hin, ?_⟩
      rw [State.started_timeout, arm_timeout_of_ne hxt]
    · rw [RtTimer.list_hard_iff.mpr ho.kind] at hlist
      cases hlist

theorem Watching.sleep {n : Tick} (ho : Orderly c 1 s lists)
    (hstat : s.timerThread.stat = ThreadStat.ready)
    (hwindow : Window s (lists c.bottom TimerList.soft) (ThreadPc.delay n))
    (hs : rtThreadSleep c s n = some s') :
    Watching c { sys := { state := s', phase := Phase.idle }, pc := ThreadPc.asleep } := by
  rcases hwindow with ⟨hpos, _, hcovers⟩
  rcases ho.suspended hstat with ⟨lists', ho', hstat', hown, htick, htimeout, _, hsub⟩
  unfold rtThreadSleep at hs
  rw [← hown] at hs
  generalize suspendTimerThread c s = s1 at *
  -- only the period of the thread timer changes before it is started
  have hset : forall x, (rtTimerControl s1 s1.threadTimer (TimerCtrl.setTime n)).1.timer x =
      { s1.timer x with
        initTick := if x = s1.threadTimer then n else (s1.timer x).initTick } :=
    setTime_timer
  have hsame : forall x, (rtTimerControl s1 s1.threadTimer
      (TimerCtrl.setTime n)).1.timeout x = s1.timeout x := by
    intro x
    unfold State.timeout
    rw [hset]
  have hinit : ((rtTimerControl s1 s1.threadTimer (TimerCtrl.setTime n)).1.timer
      s1.threadTimer).initTick = n := by
    rw [hset]
    exact if_pos rfl
  have hready : Orderly c 1 (rtTimerControl s1 s1.threadTimer (TimerCtrl.setTime n)).1 lists' := by
    refine ho'.congr rfl rfl rfl rfl rfl hsame ?_ ?_ ?_
    · intro x
      rw [hset]
    · rw [hset]
    · intro _
      rw [hset]
  have hcovers' : Covers (n.toNat + 1) (rtTimerControl s1 s1.threadTimer
      (TimerCtrl.setTime n)).1 (lists' c.bottom TimerList.soft) := by
    refine hcovers.sub htick ?_
    intro x hx
    exact ⟨hsub x hx, (hsame x).trans (htimeout x)⟩
  exact Watching.delay hready hstat' hinit hpos hcovers' hs

theorem Watching.softRound {n : RowNode} {current : Tick} {y : SoftSystem}
    (ho : Orderly c 1 s lists) (hstat : s.timerThread.stat = ThreadStat.ready)
    (hfree : s.threadTimer ∉ lists c.bottom TimerList.hard) (hn : SoftNode s n)
    (hs : softRound c s n current = some y) :
    Watching c
      { sys := { state := y.state, phase := Phase.idle }
        pc := ThreadPc.check y.phase } := by
  rcases softRound_cases hs with hidle | ⟨m, hm, _, hfire⟩
  · subst hidle
    exact Watching.proceed ho hstat hfree (by simp) trivial trivial
  · subst hm
    subst hfire
    have hsoft : (s.timer m).soft = true := by
      rcases hn with hhead | ⟨m', heq, hm'⟩
      · cases hhead
      · cases heq
        exact hm'
    refine Watching.proceed (ho.remove m) hstat ?_ (by simp) trivial ?_
    · exact fun hin => hfree (List.mem_of_mem_erase hin)
    · exact ⟨hsoft, softNode_next ho.sound hsoft⟩

theorem StartsInTime.again {p p' : SoftPhase} (ht : StartsInTime c s (ThreadPc.check p) t) :
    StartsInTime c (s.setActivated t false) (ThreadPc.check p') t := by
  have hinit : ((s.setActivated t false).timer t).initTick = (s.timer t).initTick :=
    (sameSettings_setActivated false).initTick t
  have hlate : (rtTimerRemove (skipList c) (s.setActivated t false) t).late c =
      (rtTimerRemove (skipList c) s t).late c :=
    late_congr rfl rfl fun x => s.setActivated_timeout t x false
  constructor
  · exact ⟨by simp, by simp, by simp⟩
  · rw [hinit]
    exact ht.timeout
  · rw [hinit, hlate]
    exact ht.range

theorem Watching.softReturn {n : RowNode} {y : SoftSystem} (ho : Orderly c 1 s lists)
    (hstat : s.timerThread.stat = ThreadStat.ready)
    (hfree : s.threadTimer ∉ lists c.bottom TimerList.hard)
    (ht : (s.timer t).soft = true) (hn : SoftNode s n)
    (htime : (s.timer t).periodic ∧ (s.timer t).activated ->
      StartsInTime c s (ThreadPc.check (SoftPhase.callback t n)) t)
    (hs : softReturn c s t n = some y) :
    Watching c
      { sys := { state := y.state, phase := Phase.idle }
        pc := ThreadPc.check y.phase } := by
  have hne : t ≠ s.threadTimer := by
    intro heq
    rw [heq, ho.kind] at ht
    cases ht
  have hsettings : SameSettings s (s.setActivated t false) :=
    sameSettings_setActivated false
  have hoff : Orderly c 1 (s.setActivated t false) lists :=
    ho.setActivated fun heq => absurd heq hne
  unfold Timer.softReturn at hs
  rw [Option.map_eq_some_iff] at hs
  rcases hs with ⟨s', hs', heq⟩
  subst heq
  unfold timeoutReturn at hs'
  split at hs'
  · rename_i hagain
    have hw : Watching c
        { sys := { state := s.setActivated t false, phase := Phase.idle }
          pc := ThreadPc.check (SoftPhase.loop n s'.tick) } :=
      Watching.proceed hoff hstat hfree (by simp) trivial (hn.congr hsettings.soft)
    exact hw.start hne (by simp) (fun _ => (htime hagain).again) hs'
  · cases hs'
    refine Watching.proceed hoff hstat hfree (by simp) trivial ?_
    exact hn.congr hsettings.soft

theorem Watching.entry {r : State Rows × ThreadPc}
    (hw : Watching c { sys := { state := s, phase := Phase.idle }, pc := pc })
    (hstat : s.timerThread.stat = ThreadStat.ready)
    (hok : InTime c { sys := { state := s, phase := Phase.idle }, pc := pc } ThreadOp.entry)
    (hs : entryStep c s pc = some r) :
    Watching c { sys := { state := r.1, phase := Phase.idle }, pc := r.2 } := by
  rcases r with ⟨s', pc'⟩
  rcases hok with ⟨hnow, hagain⟩
  rcases hw with ⟨lists, ho, hthread, _⟩
  have hboth : s.threadTimer ∉ lists c.bottom TimerList.hard ∧
      Window s (lists c.bottom TimerList.soft) pc := by
    have hnot : s.timerThread.stat ≠ ThreadStat.suspend := by
      rw [hstat]
      simp
    cases hthread with
    | awake _ hfree _ hwindow => exact ⟨hfree, hwindow⟩
    | waking hstat' => exact absurd hstat' hnot
    | suspended hstat' => exact absurd hstat' hnot
    | delayed hstat' => exact absurd hstat' hnot
  rcases hboth with ⟨hfree, hwindow⟩
  have hgo : forall {pc' : ThreadPc}, Window s (lists c.bottom TimerList.soft) pc' ->
      Watching c { sys := { state := s, phase := Phase.idle }, pc := pc' } :=
    Watching.proceed ho hstat hfree (by simp) trivial
  cases pc with
  | top =>
    rcases window_top ho hs with ⟨heq, hwindow'⟩
    subst heq
    exact hgo hwindow'
  | suspendSelf =>
    cases hs
    exact Watching.suspendSelf ho hstat hwindow
  | compare next =>
    rcases window_compare ho.sound hwindow (hnow next rfl) hs with ⟨heq, hwindow'⟩
    subst heq
    exact hgo hwindow'
  | delay n =>
    simp only [entryStep, Option.map_eq_some_iff] at hs
    rcases hs with ⟨s1, hs1, heq⟩
    cases heq
    exact Watching.sleep ho hstat hwindow hs1
  | asleep =>
    cases hs
    exact hgo (window_enter ho.sound)
  | check p =>
    cases p with
    | idle =>
      cases hs
      exact hgo trivial
    | loop n current =>
      simp only [entryStep, Option.map_eq_some_iff] at hs
      rcases hs with ⟨y, hy, heq⟩
      cases heq
      exact Watching.softRound ho hstat hfree hwindow hy
    | callback t n =>
      simp only [entryStep, Option.map_eq_some_iff] at hs
      rcases hs with ⟨y, hy, heq⟩
      cases heq
      exact Watching.softReturn ho hstat hfree hwindow.left hwindow.right (hagain t n rfl) hy

end Entry

/-!
## Whole runs
-/

section Runs

variable {c : SkipConfig}

theorem Watching.other {x : System Rows} {pc : ThreadPc} {op : Op} {y : System Rows}
    (hw : Watching c { sys := x, pc := pc })
    (hok : InTime c { sys := x, pc := pc } (ThreadOp.other op))
    (hs : otherStep c x op = some y) : Watching c { sys := y, pc := pc } := by
  rcases x with ⟨s, phase⟩
  cases op with
  | call cmd =>
    cases cmd with
    | init t time periodic soft => cases hs
    | detach t => cases hs
    | control t ctrl => cases hs
    | start t =>
      simp only [otherStep] at hs
      split at hs
      · cases hs
      · rename_i hother
        push Not at hother
        rcases step_call_some hs with ⟨s', hs', heq⟩
        subst heq
        exact hw.start hother.left hother.right hok hs'
    | stop t =>
      simp only [otherStep] at hs
      split at hs
      · cases hs
      · rename_i hother
        push Not at hother
        rcases step_call_some hs with ⟨s', hs', heq⟩
        subst heq
        cases hs'
        exact hw.stop hother.left
  | tick =>
    change step (skipList c) _ Op.tick = some y at hs
    rcases step_tick_some hs with ⟨hidle, heq⟩
    change phase = Phase.idle at hidle
    subst hidle
    subst heq
    exact hw.tick hok.left hok.right.left hok.right.right
  | check =>
    change step (skipList c) _ Op.check = some y at hs
    rcases step_check_some hs with ⟨hidle, heq⟩
    change phase = Phase.idle at hidle
    subst hidle
    subst heq
    exact hw.enter
  | round =>
    change step (skipList c) _ Op.round = some y at hs
    rcases step_round_checking hs with ⟨current, hchecking⟩
    change phase = Phase.checking current at hchecking
    subst hchecking
    exact hw.round hs
  | ret =>
    simp only [otherStep] at hs
    split at hs
    · rename_i hown
      change phase = Phase.callback s.threadTimer at hown
      subst hown
      rw [Option.bind_eq_some_iff] at hs
      rcases hs with ⟨s1, hs1, hret⟩
      rcases step_ret_some hret with ⟨t, s', hphase, hs', heq⟩
      cases hphase
      subst heq
      exact hw.timeout hs1 hs'
    · rename_i hother
      rcases step_ret_some hs with ⟨t, s', hphase, hs', heq⟩
      change phase = Phase.callback t at hphase
      subst hphase
      subst heq
      refine hw.ret ?_ hs'
      intro hown
      exact hother (congrArg Phase.callback hown)

theorem step_watching {x x' : ThreadSystem} {op : ThreadOp} (hw : Watching c x)
    (hs : Guarded (InTime c) (Graph (threadStep c)) x op x') : Watching c x' := by
  rcases x with ⟨⟨s, phase⟩, pc⟩
  rcases hs with ⟨hok, hs⟩
  cases op with
  | other op =>
    change (otherStep c { state := s, phase := phase } op).map _ = some x' at hs
    rw [Option.map_eq_some_iff] at hs
    rcases hs with ⟨y, hy, heq⟩
    subst heq
    exact hw.other hok hy
  | entry =>
    change (if phase = Phase.idle ∧ s.timerThread.stat = ThreadStat.ready then
      (entryStep c s pc).map _ else none) = some x' at hs
    split at hs
    · rename_i hboth
      rcases hboth with ⟨hidle, hstat⟩
      subst hidle
      rw [Option.map_eq_some_iff] at hs
      rcases hs with ⟨r, hr, heq⟩
      subst heq
      exact hw.entry hstat hok hr
    · cases hs

theorem remaining_of_ahead {s : State Rows} {t : TimerId} (hpos : 1 ≤ s.ahead (s.tick - 1) t) :
    s.remaining t + 1 = s.ahead (s.tick - 1) t := by
  unfold State.remaining State.ahead at *
  generalize s.timeout t = a at *
  generalize s.tick = b at *
  bv_omega

/-- The timer thread after its start, with timers that are not linked. -/
def startThread (timers : TimerId -> RtTimer) (tick : Tick) (r : BitVec 32)
    (own : TimerId) : ThreadSystem where
  sys :=
    startSystem emptyRows timers tick r { stat := ThreadStat.ready, threadTimer := own }
  pc := ThreadPc.top

theorem start_watching {timers : TimerId -> RtTimer} {tick : Tick} {r : BitVec 32}
    {own : TimerId} (honce : (timers own).periodic = false)
    (hhard : (timers own).soft = false) :
    Watching c (startThread timers tick r own) := by
  refine ⟨fun _ _ => [], ?_, ThreadOk.awake rfl (by simp) (by simp [startThread, startSystem])
    trivial, trivial⟩
  constructor
  · constructor
    · exact wired_empty
    · exact fun _ => Nat.le_refl 0
    · intro h x hx
      cases hx
  · exact sorted_nil
  · refine ⟨tick - 1, sorted_nil, ?_⟩
    show 1 ≤ (tick - (tick - 1)).toNat ∧ (tick - (tick - 1)).toNat < rtTickMax / 2
    unfold rtTickMax
    bv_omega
  · intro x hx
    cases hx
  · intro hin
    cases hin
  · exact honce
  · exact hhard

/-- Runs whose steps are in time. While the thread sleeps and its timer is not linked, no
soft timer is. While it is delayed, no linked soft timer expires before the thread timer,
which outside a check is still to come. -/
theorem timer_thread_wakes_in_time (c : SkipConfig) (timers : TimerId -> RtTimer)
    (own : TimerId) (honce : (timers own).periodic = false)
    (hhard : (timers own).soft = false) (tick : Tick) (r : BitVec 32)
    {labels : List ThreadOp} {x : ThreadSystem}
    (hrun : Run (Guarded (InTime c) (Graph (threadStep c)))
      (startThread timers tick r own) labels x)
    (hsleep : x.sys.state.timerThread.stat ≠ ThreadStat.ready)
    (hcall : x.sys.phase ≠ Phase.callback x.sys.state.threadTimer) :
    (¬ c.Linked x.sys.state x.sys.state.threadTimer ->
      forall t, (x.sys.state.timer t).soft = true -> ¬ c.Linked x.sys.state t) ∧
    (c.Linked x.sys.state x.sys.state.threadTimer ->
      (x.sys.phase = Phase.idle ->
        0 < x.sys.state.remaining x.sys.state.threadTimer) ∧
      forall t, (x.sys.state.timer t).soft = true -> c.Linked x.sys.state t ->
        x.sys.state.remaining x.sys.state.threadTimer ≤ x.sys.state.remaining t ∧
        x.sys.state.remaining t < rtTickMax / 2) := by
  rcases hrun.invariant (Watching c) (start_watching honce hhard)
    (fun _ _ _ => step_watching) with ⟨lists, ho, hok, _⟩
  have hlinked : forall t, (x.sys.state.timer t).soft = true ->
      c.Linked x.sys.state t -> t ∈ lists c.bottom TimerList.soft :=
    fun t hsoft hin => mem_soft_of_linked ho.sound hin hsoft
  have hown : c.Linked x.sys.state x.sys.state.threadTimer <->
      x.sys.state.threadTimer ∈ lists c.bottom TimerList.hard := by
    rw [ho.sound.wired.linked_iff]
    constructor
    · rintro ⟨h, hin⟩
      have hkind := ho.sound.placed h _ hin
      rw [RtTimer.list_hard_iff.mpr ho.kind] at hkind
      exact hkind ▸ hin
    · exact fun hin => ⟨_, hin⟩
  cases hok with
  | awake hstat => exact absurd hstat hsleep
  | waking _ _ hphase => exact absurd hphase hcall
  | suspended hstat hpc hphase hfree hempty =>
    constructor
    · intro _ t hsoft hin
      have hmem := hlinked t hsoft hin
      rw [hempty] at hmem
      cases hmem
    · intro hin
      exact absurd (hown.mp hin) hfree
  | delayed hstat hpc hphase hin hahead hcovers =>
    have hone : 1 ≤ x.sys.state.ahead (x.sys.state.tick - 1)
        x.sys.state.threadTimer :=
      Nat.le_trans (Phase.le_nearest 1 _) hahead
    have hleft := remaining_of_ahead hone
    constructor
    · intro hnot
      exact absurd (hown.mpr hin) hnot
    · intro _
      constructor
      · intro hidle
        rw [hidle] at hahead
        have htwo : 2 ≤ x.sys.state.ahead (x.sys.state.tick - 1)
            x.sys.state.threadTimer := hahead
        omega
      · intro t hsoft hmem
        have hcover := hcovers t (hlinked t hsoft hmem)
        have hleft' := remaining_of_ahead (Nat.le_trans hone hcover.left)
        omega

end Runs

instance (s : State Rows) (t : TimerId) : (pc : ThreadPc) -> Decidable (Noticed s pc t)
  | ThreadPc.suspendSelf => isFalse fun h => h.suspend rfl
  | ThreadPc.compare next =>
    decidable_of_iff
      ((next - s.tick).toNat < rtTickMax / 2 ->
        (next - s.tick).toNat ≤ (s.timer t).initTick.toNat)
      ⟨fun h => ⟨nofun, fun _ heq => ThreadPc.compare.inj heq ▸ h, nofun⟩,
        fun h => h.compare next rfl⟩
  | ThreadPc.delay n =>
    decidable_of_iff (n.toNat ≤ (s.timer t).initTick.toNat)
      ⟨fun h => ⟨nofun, nofun, fun _ heq => ThreadPc.delay.inj heq ▸ h⟩,
        fun h => h.delay n rfl⟩
  | ThreadPc.top => isTrue ⟨nofun, nofun, nofun⟩
  | ThreadPc.asleep => isTrue ⟨nofun, nofun, nofun⟩
  | ThreadPc.check _ => isTrue ⟨nofun, nofun, nofun⟩

instance (c : SkipConfig) (s : State Rows) (pc : ThreadPc) (t : TimerId) :
    Decidable (StartsInTime c s pc t) :=
  decidable_of_iff
    (Noticed s pc t ∧ s.tick + (s.timer t).initTick ≠ BitVec.ofNat 32 rtTickMax ∧
      (rtTimerRemove (skipList c) s t).late c + 1 + (s.timer t).initTick.toNat ≤
        rtTickMax / 2)
    ⟨fun h => ⟨h.left, h.right.left, h.right.right⟩,
      fun h => ⟨h.toNoticed, h.timeout, h.range⟩⟩

instance (s : State Rows) : (pc : ThreadPc) ->
    Decidable ((forall n, pc ≠ ThreadPc.delay n) ∧
      (forall next, pc = ThreadPc.compare next ->
        (next - s.tick).toNat ≠ rtTickMax / 2))
  | ThreadPc.suspendSelf => isTrue ⟨nofun, nofun⟩
  | ThreadPc.compare next =>
    decidable_of_iff ((next - s.tick).toNat ≠ rtTickMax / 2)
      ⟨fun h => ⟨nofun, fun _ heq => ThreadPc.compare.inj heq ▸ h⟩,
        fun h => h.right next rfl⟩
  | ThreadPc.delay n => isFalse fun h => h.left n rfl
  | ThreadPc.top => isTrue ⟨nofun, nofun⟩
  | ThreadPc.asleep => isTrue ⟨nofun, nofun⟩
  | ThreadPc.check _ => isTrue ⟨nofun, nofun⟩

instance (c : SkipConfig) (s : State Rows) : (pc : ThreadPc) ->
    Decidable ((forall next, pc = ThreadPc.compare next -> next ≠ s.tick) ∧
      (forall t n, pc = ThreadPc.check (SoftPhase.callback t n) ->
        (s.timer t).periodic ∧ (s.timer t).activated -> StartsInTime c s pc t))
  | ThreadPc.suspendSelf => isTrue ⟨nofun, nofun⟩
  | ThreadPc.compare next =>
    decidable_of_iff (next ≠ s.tick)
      ⟨fun h => ⟨fun _ heq => ThreadPc.compare.inj heq ▸ h, nofun⟩,
        fun h => h.left next rfl⟩
  | ThreadPc.delay _ => isTrue ⟨nofun, nofun⟩
  | ThreadPc.top => isTrue ⟨nofun, nofun⟩
  | ThreadPc.asleep => isTrue ⟨nofun, nofun⟩
  | ThreadPc.check SoftPhase.idle => isTrue ⟨nofun, nofun⟩
  | ThreadPc.check (SoftPhase.loop _ _) => isTrue ⟨nofun, nofun⟩
  | ThreadPc.check (SoftPhase.callback t n) =>
    decidable_of_iff
      ((s.timer t).periodic ∧ (s.timer t).activated ->
        StartsInTime c s (ThreadPc.check (SoftPhase.callback t n)) t)
      ⟨fun h => ⟨nofun, fun _ _ heq => by cases heq; exact h⟩,
        fun h => h.right t n rfl⟩

instance (c : SkipConfig) (x : ThreadSystem) : (op : ThreadOp) ->
    Decidable (InTime c x op)
  | ThreadOp.entry => inferInstanceAs (Decidable
      ((forall next, x.pc = ThreadPc.compare next -> next ≠ x.sys.state.tick) ∧ _))
  | ThreadOp.other (Op.call (Cmd.start t)) =>
    inferInstanceAs (Decidable ((x.sys.state.timer t).soft = true -> _))
  | ThreadOp.other Op.tick =>
    decidable_of_iff
      (((forall n, x.pc ≠ ThreadPc.delay n) ∧
          (forall next, x.pc = ThreadPc.compare next ->
            (next - x.sys.state.tick).toNat ≠ rtTickMax / 2)) ∧
        x.sys.state.late c + 2 < rtTickMax / 2)
      and_assoc
  | ThreadOp.other (Op.call (Cmd.init _ _ _ _)) => isTrue trivial
  | ThreadOp.other (Op.call (Cmd.stop _)) => isTrue trivial
  | ThreadOp.other (Op.call (Cmd.detach _)) => isTrue trivial
  | ThreadOp.other (Op.call (Cmd.control _ _)) => isTrue trivial
  | ThreadOp.other Op.check => isTrue trivial
  | ThreadOp.other Op.round => isTrue trivial
  | ThreadOp.other Op.ret => isTrue trivial

def twoPeriods (t : TimerId) : RtTimer where
  timeoutTick := 0
  initTick := if t = 0 then 15 else 3
  activated := false
  periodic := false
  soft := t != 9

/-- A delay over the end of the tick range. -/
theorem timer_thread_wakes_in_time_wrap : exists x : ThreadSystem,
    Run (Guarded (InTime oneRow) (Graph (threadStep oneRow)))
      (startThread twoPeriods 0xfffffffe 0 9)
      [ThreadOp.other (Op.call (Cmd.start 0)), ThreadOp.other (Op.call (Cmd.start 1)),
        ThreadOp.entry, ThreadOp.entry, ThreadOp.entry, ThreadOp.other Op.tick,
        ThreadOp.other Op.round] x ∧
      x.sys.phase = Phase.idle ∧ oneRow.Linked x.sys.state 9 ∧
      x.sys.state.remaining 9 = 2 ∧ oneRow.Linked x.sys.state 1 ∧
      x.sys.state.remaining 9 ≤ x.sys.state.remaining 1 := by
  have hexec : ((exec (fun x op => if InTime oneRow x op then threadStep oneRow x op
        else none) (startThread twoPeriods 0xfffffffe 0 9)
      [ThreadOp.other (Op.call (Cmd.start 0)), ThreadOp.other (Op.call (Cmd.start 1)),
        ThreadOp.entry, ThreadOp.entry, ThreadOp.entry, ThreadOp.other Op.tick,
        ThreadOp.other Op.round]).map fun x =>
      (x.sys.phase, x.sys.state.timerThread, decide (oneRow.Linked x.sys.state 9),
        x.sys.state.remaining 9, decide (oneRow.Linked x.sys.state 1),
        (x.sys.state.timer 1).soft)) =
      some (Phase.idle, { stat := ThreadStat.suspend, threadTimer := 9 }, true, 2, true,
        true) := by
    decide +kernel
  rw [Option.map_eq_some_iff] at hexec
  rcases hexec with ⟨x, hx, hstate⟩
  simp only [Prod.mk.injEq, decide_eq_true_eq] at hstate
  rcases hstate with ⟨hidle, hthread, hown, hleft, hlinked, hsoft⟩
  have hrun := guarded_run_of_exec hx
  have hsleep : x.sys.state.timerThread.stat ≠ ThreadStat.ready := by
    rw [hthread]
    simp
  have hcall : x.sys.phase ≠ Phase.callback x.sys.state.threadTimer := by
    rw [hidle]
    simp
  have htimer : x.sys.state.threadTimer = 9 := congrArg TimerThread.threadTimer hthread
  have hwake := (timer_thread_wakes_in_time oneRow twoPeriods 9 rfl rfl 0xfffffffe 0
    hrun hsleep hcall).right
  rw [htimer] at hwake
  exact ⟨x, hrun, hidle, hown, hleft, hlinked, ((hwake hown).right 1 hsoft hlinked).left⟩

/-- The thread sleeps without a timeout although timer 0 is linked: its timeout is
`RT_TICK_MAX`, or it is started between the read and the suspension. -/
theorem timer_thread_sleeps_through :
    ((exec (threadStep oneRow) (startThread twoPeriods 0xfffffff0 0 9)
        [ThreadOp.other (Op.call (Cmd.start 0)), ThreadOp.entry, ThreadOp.entry]).map
      fun x => (x.sys.phase, x.sys.state.timerThread.stat,
        decide (oneRow.Linked x.sys.state 9), decide (oneRow.Linked x.sys.state 0),
        x.sys.state.timeout 0)) =
      some (Phase.idle, ThreadStat.suspend, false, true, 0xffffffff) ∧
    ((exec (threadStep oneRow) (startThread twoPeriods 0 0 9)
        [ThreadOp.entry, ThreadOp.other (Op.call (Cmd.start 0)), ThreadOp.entry]).map
      fun x => (x.sys.phase, x.sys.state.timerThread.stat,
        decide (oneRow.Linked x.sys.state 9), decide (oneRow.Linked x.sys.state 0),
        x.sys.state.timeout 0)) =
      some (Phase.idle, ThreadStat.suspend, false, true, 15) := by
  constructor
  · decide +kernel
  · decide +kernel

end RtThread.Kernel.Timer
