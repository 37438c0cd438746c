import RtThread.Kernel.TimerRows
import RtThread.Library.Transition

/-!
# The skip list as a plain sorted list

As long as every tick is followed by `rt_timer_check`, the timeouts of the hard timers lie within
half of the tick range, from the tick before the current one on. Counted from there the comparison
of the insertion is the order of the timeouts, the rows are sorted, and the bottom row is what
insertion into a plain sorted list makes of it.
-/

namespace RtThread.Kernel.Timer

open SkipRows
open Function (update update_of_ne update_self)
open StableInsert
open Transition

abbrev Plain := TimerList -> List TimerId

/-!
## The order of the timeouts
-/

section Order

variable {L : Type} {s : State L} {l l' : List TimerId} {base : Tick} {low : Nat}
  {t : TimerId}

/-- The ticks from `base` to the timeout of a timer. -/
def State.ahead (s : State L) (base : Tick) (t : TimerId) : Nat :=
  (s.timeout t - base).toNat

/-- A list in the order of timeouts, and of starts where these agree. The timeouts lie
within half of the tick range from `base` on. -/
structure Sorted (base : Tick) (low : Nat) (s : State L) (l : List TimerId) :
    Prop where
  low_le : forall x, x ∈ l -> low ≤ s.ahead base x
  near : forall x, x ∈ l -> s.ahead base x ≤ rtTickMax / 2
  order : l.Pairwise (Before (s.ahead base) s.order)
  past : forall x, x ∈ l -> s.order x < s.starts

theorem sorted_nil : Sorted base low s [] := by
  constructor
  · simp
  · simp
  · exact List.Pairwise.nil
  · simp

theorem Sorted.sublist (hs : Sorted base low s l) (hsub : l'.Sublist l) : Sorted base low s l' := by
  constructor
  · exact fun x hx => hs.low_le x (hsub.subset hx)
  · exact fun x hx => hs.near x (hsub.subset hx)
  · exact hs.order.sublist hsub
  · exact fun x hx => hs.past x (hsub.subset hx)

theorem Sorted.erase (hs : Sorted base low s l) (t : TimerId) : Sorted base low s (l.erase t) :=
  hs.sublist List.erase_sublist

theorem Sorted.raise {low' : Nat} (hs : Sorted base low s l)
    (hlow : forall x, x ∈ l -> low' ≤ s.ahead base x) : Sorted base low' s l :=
  ⟨hlow, hs.near, hs.order, hs.past⟩

theorem Sorted.congr {L' : Type} {s' : State L'} (hs : Sorted base low s l)
    (htimeout : forall x, x ∈ l -> s'.timeout x = s.timeout x)
    (horder : forall x, x ∈ l -> s'.order x = s.order x)
    (hstarts : s.starts ≤ s'.starts) : Sorted base low s' l := by
  have hahead : forall x, x ∈ l -> s'.ahead base x = s.ahead base x := by
    intro x hx
    unfold State.ahead
    rw [htimeout x hx]
  constructor
  · intro x hx
    rw [hahead x hx]
    exact hs.low_le x hx
  · intro x hx
    rw [hahead x hx]
    exact hs.near x hx
  · exact before_congr hs.order hahead horder
  · intro x hx
    rw [horder x hx]
    exact Nat.lt_of_lt_of_le (hs.past x hx) hstarts

theorem Sorted.insert (hs : Sorted base low s l) (hlow : low ≤ s.ahead base t)
    (hnear : s.ahead base t ≤ rtTickMax / 2)
    (hlast : forall x, x ∈ l -> s.order x < s.order t)
    (hpast : s.order t < s.starts) :
    Sorted base low s (insertBehind (s.ahead base) t l) := by
  constructor
  · intro x hx
    rcases mem_insertBehind.mp hx with heq | hin
    · exact heq ▸ hlow
    · exact hs.low_le x hin
  · intro x hx
    rcases mem_insertBehind.mp hx with heq | hin
    · exact heq ▸ hnear
    · exact hs.near x hin
  · exact before_insertBehind hs.order hlast
  · intro x hx
    rcases mem_insertBehind.mp hx with heq | hin
    · exact heq ▸ hpast
    · exact hs.past x hin

theorem Sorted.rebase {base' : Tick} {low' : Nat} (hs : Sorted base low s l)
    (hlater : forall x, x ∈ l -> (base' - base).toNat + low' ≤ s.ahead base x) :
    Sorted base' low' s l := by
  have hahead : forall x, x ∈ l -> s.ahead base' x + (base' - base).toNat = s.ahead base x := by
    intro x hx
    have hle := hlater x hx
    unfold State.ahead at hle ⊢
    generalize s.timeout x = a at hle ⊢
    bv_omega
  constructor
  · intro x hx
    have hle := hlater x hx
    rw [← hahead x hx, Nat.add_comm] at hle
    exact Nat.le_of_add_le_add_right hle
  · intro x hx
    have hnear := hs.near x hx
    rw [← hahead x hx] at hnear
    exact Nat.le_trans (Nat.le_add_right _ _) hnear
  · apply hs.order.imp_of_mem
    intro x y hx hy hxy
    rcases hxy with hlt | ⟨heq, hlt⟩
    · rw [← hahead x hx, ← hahead y hy] at hlt
      exact Or.inl (Nat.lt_of_add_lt_add_right hlt)
    · rw [← hahead x hx, ← hahead y hy] at heq
      exact Or.inr ⟨Nat.add_right_cancel heq, hlt⟩
  · exact hs.past

theorem Sorted.advance (hs : Sorted base (low + 1) s l) : Sorted (base + 1) low s l := by
  have hone : (base + 1 - base).toNat = 1 := by
    bv_omega
  apply hs.rebase
  intro x hx
  rw [hone, Nat.add_comm]
  exact hs.low_le x hx

theorem goesBehind_iff {x : TimerId} (hx : s.ahead base x ≤ rtTickMax / 2)
    (ht : s.ahead base t ≤ rtTickMax / 2) (hpos : 1 ≤ s.ahead base t) :
    GoesBehind s.timeout t x <-> s.ahead base x ≤ s.ahead base t := by
  unfold GoesBehind State.ahead rtTickMax at *
  generalize s.timeout x = a at *
  generalize s.timeout t = b at *
  constructor
  · rintro (heq | hge) <;> bv_omega
  · intro hle
    rcases Nat.lt_or_eq_of_le hle with hlt | heq
    · apply Or.inr
      bv_omega
    · apply Or.inl
      bv_omega

theorem due_iff {x : TimerId} {current : Tick} (hcurrent : (current - base).toNat < rtTickMax / 2)
    (hx : s.ahead base x ≤ rtTickMax / 2) :
    s.Due current x <-> s.ahead base x ≤ (current - base).toNat := by
  unfold State.Due State.ahead rtTickMax at *
  generalize s.timeout x = a at *
  constructor
  · intro hdue
    bv_omega
  · intro hle
    bv_omega

theorem plainInsert_eq {timeout : TimerId -> Tick} {key : TimerId -> Nat}
    (hkey : forall x, x ∈ l -> (GoesBehind timeout t x <-> key x ≤ key t)) :
    plainInsert timeout t l = insertBehind key t l := by
  induction l with
  | nil => rfl
  | cons x rest ih =>
    have hrest := ih fun y hy => hkey y (List.mem_cons_of_mem x hy)
    unfold plainInsert insertBehind
    rw [hrest]
    by_cases hle : key x ≤ key t
    · rw [if_pos ((hkey x List.mem_cons_self).mpr hle), if_neg (Nat.not_lt.mpr hle)]
    · rw [if_neg (mt (hkey x List.mem_cons_self).mp hle), if_pos (Nat.lt_of_not_le hle)]

end Order

/-!
## The settings of the timers
-/

section Settings

variable {L : Type} {ops : ListOps L} {s s' s'' : State L} {t : TimerId}

/-- The period and the kind of every timer stay as they are, and so does the tick. -/
structure SameSettings (s s' : State L) : Prop where
  tick : s'.tick = s.tick
  initTick : forall x, (s'.timer x).initTick = (s.timer x).initTick
  periodic : forall x, (s'.timer x).periodic = (s.timer x).periodic
  soft : forall x, (s'.timer x).soft = (s.timer x).soft

theorem SameSettings.trans (hs : SameSettings s s') (hs' : SameSettings s' s'') :
    SameSettings s s'' := by
  constructor
  · exact hs'.tick.trans hs.tick
  · exact fun x => (hs'.initTick x).trans (hs.initTick x)
  · exact fun x => (hs'.periodic x).trans (hs.periodic x)
  · exact fun x => (hs'.soft x).trans (hs.soft x)

theorem sameSettings_of_timer (htick : s'.tick = s.tick)
    (htimer : s'.timer = s.timer) : SameSettings s s' := by
  constructor
  · exact htick
  all_goals
    intro x
    rw [htimer]

theorem sameSettings_update {r : RtTimer} (htick : s'.tick = s.tick)
    (htimer : s'.timer = update s.timer t r)
    (hinit : r.initTick = (s.timer t).initTick)
    (hperiodic : r.periodic = (s.timer t).periodic)
    (hsoft : r.soft = (s.timer t).soft) : SameSettings s s' := by
  have hcases : forall x, s'.timer x = s.timer x ∨ x = t ∧ s'.timer x = r := by
    intro x
    rw [htimer]
    by_cases hx : x = t
    · subst hx
      exact Or.inr ⟨rfl, update_self _ _ _⟩
    · exact Or.inl (update_of_ne hx _ _)
  constructor
  · exact htick
  all_goals
    intro x
    rcases hcases x with hsame | ⟨hxt, hr⟩
    · rw [hsame]
    · rw [hr, hxt]
      assumption

theorem sameSettings_setActivated (b : Bool) : SameSettings s (s.setActivated t b) :=
  sameSettings_update rfl rfl rfl rfl rfl

theorem sameSettings_stop : SameSettings s (rtTimerStop ops s t).1 := by
  unfold rtTimerStop
  split
  · exact sameSettings_update rfl rfl rfl rfl rfl
  · exact sameSettings_of_timer rfl rfl

theorem sameSettings_wake : SameSettings s (wakeTimerThread ops s t) := by
  unfold wakeTimerThread resumeTimerThread
  split
  · split
    · exact sameSettings_stop.trans (sameSettings_of_timer rfl rfl)
    · exact sameSettings_of_timer rfl rfl
  · exact sameSettings_of_timer rfl rfl

theorem sameSettings_arm : SameSettings s (rtTimerArm ops s t) :=
  sameSettings_update rfl (rtTimerArm_timer ops s t) rfl rfl rfl

theorem sameSettings_started {lists : L} :
    SameSettings s ((rtTimerArm ops s t).started t lists) := by
  have hstarted : SameSettings (rtTimerArm ops s t) ((rtTimerArm ops s t).started t lists) :=
    sameSettings_update rfl rfl rfl rfl rfl
  exact sameSettings_arm.trans hstarted

theorem sameSettings_start (hs : rtTimerStart ops s t = some s') : SameSettings s s' := by
  by_cases hinit : (s.timer t).initTick.toNat < rtTickMax / 2
  · rw [rtTimerStart_eq ops hinit, Option.map_eq_some_iff] at hs
    rcases hs with ⟨lists, _, hs'⟩
    rw [← hs']
    exact sameSettings_started.trans sameSettings_wake
  · unfold rtTimerStart at hs
    rw [if_neg hinit] at hs
    cases hs

theorem sameSettings_timeoutReturn (hs : timeoutReturn ops s t = some s') : SameSettings s s' := by
  unfold timeoutReturn at hs
  split at hs
  · exact (sameSettings_setActivated false).trans (sameSettings_start hs)
  · cases hs
    exact sameSettings_setActivated false

end Settings

/-!
## A start and the order of a list
-/

section Insertion

variable {c : SkipConfig} {s : State Rows} {lists lists' : RowLists} {rows' : Rows}
  {t : TimerId} {h : TimerList} {base : Tick} {low : Nat}

theorem arm_timeout {L : Type} {ops : ListOps L} {s : State L} :
    (rtTimerArm ops s t).timeout t = s.tick + (s.timer t).initTick := by
  rw [State.timeout, rtTimerArm_timer, update_self]

theorem arm_timeout_of_ne {L : Type} {ops : ListOps L} {s : State L} {x : TimerId}
    (hx : x ≠ t) : (rtTimerArm ops s t).timeout x = s.timeout x := by
  rw [State.timeout, rtTimerArm_timer, update_of_ne hx, State.timeout]

theorem ahead_arm {L : Type} {ops : ListOps L} {s : State L}
    (hinit : (s.timer t).initTick.toNat < rtTickMax / 2) :
    (rtTimerArm ops s t).ahead (s.tick - 1) t = (s.timer t).initTick.toNat + 1 := by
  unfold State.ahead
  rw [arm_timeout]
  unfold rtTickMax at hinit
  generalize (s.timer t).initTick = a at hinit ⊢
  generalize s.tick = b
  bv_omega

theorem Sound.sorted_arm (hs : Sound c s lists)
    (hsorted : Sorted base low s ((lists c.bottom h).erase t)) :
    Sorted base low (rtTimerArm (skipList c) s t) ((lists c.bottom h).erase t) := by
  refine hsorted.congr ?_ (fun _ _ => rfl) (Nat.le_refl _)
  intro x hx
  exact arm_timeout_of_ne ((hs.mem_erase c.bottom_lt).mp hx).left

theorem Sound.inserted_eq (hs : Sound c s lists)
    (hsorted : Sorted base low s ((lists c.bottom h).erase t))
    (hpos : 1 ≤ (rtTimerArm (skipList c) s t).ahead base t)
    (hnear : (rtTimerArm (skipList c) s t).ahead base t ≤ rtTickMax / 2)
    (hins : Inserted c (rtTimerArm (skipList c) s t).timeout h t
      (fun i h => (lists i h).erase t) lists') :
    lists' c.bottom h = insertBehind ((rtTimerArm (skipList c) s t).ahead base) t
      ((lists c.bottom h).erase t) := by
  have harm := hs.sorted_arm hsorted
  rcases hins.bottom with ⟨xs, ys, hcut, heq⟩
  rw [heq]
  symm
  apply hcut.insertBehind_eq
  · exact harm.order.imp Before.key_le
  · intro x hx
    rw [decide_eq_true_iff]
    exact goesBehind_iff (harm.near x hx) hnear hpos

theorem Sound.sorted_kept (hs : Sound c s lists)
    (hsorted : Sorted base low s ((lists c.bottom h).erase t)) :
    Sorted base low ((rtTimerArm (skipList c) s t).started t rows')
      ((lists c.bottom h).erase t) := by
  refine (hs.sorted_arm hsorted).congr (fun x _ => State.started_timeout _ t rows' x) ?_
    (Nat.le_succ _)
  intro x hx
  exact update_of_ne ((hs.mem_erase c.bottom_lt).mp hx).left _ _

theorem Sound.sorted_started (hs : Sound c s lists)
    (hsorted : Sorted base low s ((lists c.bottom h).erase t))
    (hfits : h = (s.timer t).list -> low ≤ (rtTimerArm (skipList c) s t).ahead base t ∧
      1 ≤ (rtTimerArm (skipList c) s t).ahead base t ∧
      (rtTimerArm (skipList c) s t).ahead base t ≤ rtTickMax / 2)
    (hins : Inserted c (rtTimerArm (skipList c) s t).timeout (s.timer t).list t
      (fun i h => (lists i h).erase t) lists') :
    Sorted base low ((rtTimerArm (skipList c) s t).started t rows') (lists' c.bottom h) := by
  have hkept : Sorted base low ((rtTimerArm (skipList c) s t).started t rows')
      ((lists c.bottom h).erase t) := hs.sorted_kept hsorted
  have hahead : ((rtTimerArm (skipList c) s t).started t rows').ahead base =
      (rtTimerArm (skipList c) s t).ahead base := by
    funext x
    unfold State.ahead
    rw [State.started_timeout]
  by_cases hkind : h = (s.timer t).list
  · rcases hfits hkind with ⟨hlow, hpos, hnear⟩
    rw [← hkind] at hins
    rw [hs.inserted_eq hsorted hpos hnear hins, ← hahead]
    apply hkept.insert
    · rw [hahead]
      exact hlow
    · rw [hahead]
      exact hnear
    · intro x hx
      have hne := ((hs.mem_erase c.bottom_lt).mp hx).left
      show update s.order t s.starts x < update s.order t s.starts t
      rw [update_self, update_of_ne hne]
      exact hsorted.past x hx
    · show update s.order t s.starts t < s.starts + 1
      rw [update_self]
      exact Nat.lt_succ_self _
  · rw [hins.other _ _ hkind]
    exact hkept

end Insertion

/-!
## One call refines one call
-/

/-- The skip lists and the plain lists hold the same hard timers, and agree on all
else but the height counter. -/
structure Refines (c : SkipConfig) (low : Nat) (s : State Rows) (p : State Plain)
    (lists : RowLists) : Prop where
  sound : Sound c s lists
  timer : p.timer = s.timer
  tick : p.tick = s.tick
  timerThread : p.timerThread = s.timerThread
  starts : p.starts = s.starts
  order : p.order = s.order
  hard : p.lists TimerList.hard = lists c.bottom TimerList.hard
  sorted : Sorted (s.tick - 1) low s (lists c.bottom TimerList.hard)

section Refines

variable {c : SkipConfig} {low : Nat} {s : State Rows} {p : State Plain}
  {lists : RowLists} {t : TimerId}

theorem Refines.remove (hr : Refines c low s p lists) (t : TimerId) :
    Refines c low (rtTimerRemove (skipList c) s t) (rtTimerRemove plainList p t)
      (fun i h => (lists i h).erase t) := by
  constructor
  · exact hr.sound.remove t
  · exact hr.timer
  · exact hr.tick
  · exact hr.timerThread
  · exact hr.starts
  · exact hr.order
  · show (p.lists TimerList.hard).erase t = _
    rw [hr.hard]
  · exact (hr.sorted.sublist List.erase_sublist).congr (fun _ _ => rfl)
      (fun _ _ => rfl) (Nat.le_refl _)

theorem Refines.setTimer (hr : Refines c low s p lists) {r : RtTimer}
    (hkind : r.list = (s.timer t).list)
    (htimeout : t ∈ lists c.bottom TimerList.hard -> r.timeoutTick = (s.timer t).timeoutTick) :
    Refines c low (s.setTimer t r) (p.setTimer t r) lists := by
  constructor
  · exact hr.sound.setTimer hkind
  · show update p.timer t r = update s.timer t r
    rw [hr.timer]
  · exact hr.tick
  · exact hr.timerThread
  · exact hr.starts
  · exact hr.order
  · exact hr.hard
  · refine hr.sorted.congr ?_ (fun _ _ => rfl) (Nat.le_refl _)
    intro x hx
    show (update s.timer t r x).timeoutTick = (s.timer x).timeoutTick
    by_cases heq : x = t
    · subst heq
      rw [update_self, htimeout hx]
    · rw [update_of_ne heq]

theorem Refines.setActivated (hr : Refines c low s p lists) (t : TimerId) (b : Bool) :
    Refines c low (s.setActivated t b) (p.setActivated t b) lists := by
  unfold State.setActivated
  rw [hr.timer]
  exact hr.setTimer rfl (fun _ => rfl)

theorem Refines.stop (hr : Refines c low s p lists) (t : TimerId) :
    exists lists', Refines c low (rtTimerStop (skipList c) s t).1
      (rtTimerStop plainList p t).1 lists' := by
  unfold rtTimerStop
  rw [hr.timer]
  by_cases hact : (s.timer t).activated
  · rw [if_pos hact, if_pos hact]
    exact ⟨_, (hr.remove t).setActivated t false⟩
  · rw [if_neg hact, if_neg hact]
    exact ⟨lists, hr⟩

theorem Refines.resume (hr : Refines c low s p lists) :
    exists lists', Refines c low (resumeTimerThread (skipList c) s)
      (resumeTimerThread plainList p) lists' := by
  unfold resumeTimerThread
  rw [hr.timerThread]
  by_cases hstat : s.timerThread.stat = ThreadStat.suspend
  · rw [if_pos hstat, if_pos hstat]
    rcases hr.stop s.timerThread.threadTimer with ⟨lists', hstop⟩
    refine ⟨lists', ?_⟩
    constructor
    · exact hstop.sound.congr rfl rfl (fun _ => rfl)
    · exact hstop.timer
    · exact hstop.tick
    · show { (rtTimerStop plainList p s.timerThread.threadTimer).1.timerThread with
        stat := ThreadStat.ready } = _
      rw [hstop.timerThread]
    · exact hstop.starts
    · exact hstop.order
    · exact hstop.hard
    · exact hstop.sorted.congr (fun _ _ => rfl) (fun _ _ => rfl) (Nat.le_refl _)
  · rw [if_neg hstat, if_neg hstat]
    exact ⟨lists, hr⟩

theorem Refines.wake (hr : Refines c low s p lists) (t : TimerId) :
    exists lists', Refines c low (wakeTimerThread (skipList c) s t)
      (wakeTimerThread plainList p t) lists' := by
  unfold wakeTimerThread
  rw [hr.timer, hr.timerThread]
  split
  · exact hr.resume
  · exact ⟨lists, hr⟩

theorem Refines.arm (hr : Refines c low s p lists) (t : TimerId) :
    Refines c low (rtTimerArm (skipList c) s t) (rtTimerArm plainList p t)
      (fun i h => (lists i h).erase t) := by
  constructor
  · exact hr.sound.arm t
  · rw [rtTimerArm_timer, rtTimerArm_timer, hr.timer, hr.tick]
  · exact hr.tick
  · exact hr.timerThread
  · exact hr.starts
  · exact hr.order
  · exact (hr.remove t).hard
  · exact hr.sound.sorted_arm (hr.sorted.erase t)

theorem Refines.started (hr : Refines c low s p lists)
    (hlow : low ≤ (s.timer t).initTick.toNat + 1)
    (hinit : (s.timer t).initTick.toNat < rtTickMax / 2) {rows' : Rows}
    {lists' : RowLists}
    (hsound : Sound c ((rtTimerArm (skipList c) s t).started t rows') lists')
    (hins : Inserted c (rtTimerArm (skipList c) s t).timeout (s.timer t).list t
      (fun i h => (lists i h).erase t) lists') :
    Refines c low ((rtTimerArm (skipList c) s t).started t rows')
      ((rtTimerArm plainList p t).started t
        (update (rtTimerArm plainList p t).lists (s.timer t).list
          (plainInsert (rtTimerArm plainList p t).timeout t
            ((rtTimerArm plainList p t).lists (s.timer t).list))))
      lists' := by
  have harm := hr.arm t
  have hahead : (rtTimerArm (skipList c) s t).ahead (s.tick - 1) t =
      (s.timer t).initTick.toNat + 1 := ahead_arm hinit
  have hpos : 1 ≤ (rtTimerArm (skipList c) s t).ahead (s.tick - 1) t := by
    rw [hahead]
    exact Nat.le_add_left 1 _
  have hnear : (rtTimerArm (skipList c) s t).ahead (s.tick - 1) t ≤ rtTickMax / 2 := by
    rw [hahead]
    exact hinit
  have htimeout : (rtTimerArm plainList p t).timeout = (rtTimerArm (skipList c) s t).timeout := by
    funext x
    unfold State.timeout
    rw [harm.timer]
  constructor
  · exact hsound
  · rw [State.started_timer, State.started_timer, harm.timer]
  · exact hr.tick
  · exact hr.timerThread
  · show p.starts + 1 = s.starts + 1
    rw [hr.starts]
  · show update p.order t p.starts = update s.order t s.starts
    rw [hr.order, hr.starts]
  · show update _ (s.timer t).list _ TimerList.hard = _
    by_cases hkind : TimerList.hard = (s.timer t).list
    · rw [← hkind] at hins ⊢
      rw [update_self, htimeout, harm.hard,
        hr.sound.inserted_eq (hr.sorted.erase t) hpos hnear hins]
      apply plainInsert_eq
      intro x hx
      exact goesBehind_iff ((hr.sound.sorted_arm (hr.sorted.erase t)).near x hx) hnear hpos
    · rw [update_of_ne hkind, hins.other _ _ hkind]
      exact harm.hard
  · have hlow' : low ≤ (rtTimerArm (skipList c) s t).ahead (s.tick - 1) t := by
      rw [hahead]
      exact hlow
    exact hr.sound.sorted_started (hr.sorted.erase t) (fun _ => ⟨hlow', hpos, hnear⟩) hins

/-- The results of two calls that refine one another, or both undefined. -/
abbrev RefinesResult (c : SkipConfig) (low : Nat) :
    Option (State Rows) -> Option (State Plain) -> Prop :=
  Option.Rel fun s p => exists lists, Refines c low s p lists

theorem Refines.start (hr : Refines c low s p lists) (t : TimerId)
    (hlow : low ≤ (s.timer t).initTick.toNat + 1) :
    RefinesResult c low (rtTimerStart (skipList c) s t) (rtTimerStart plainList p t) := by
  by_cases hinit : (s.timer t).initTick.toNat < rtTickMax / 2
  · rcases hr.sound.start t with ⟨rows', lists', heq, hsound, hins⟩
    have hstarted := hr.started hlow hinit hsound hins
    rw [rtTimerStart_eq _ hinit, heq, rtTimerStart_eq _ (by rw [hr.timer]; exact hinit), hr.timer]
    exact Option.Rel.some (hstarted.wake t)
  · unfold rtTimerStart
    rw [hr.timer, if_neg hinit, if_neg hinit]
    exact Option.Rel.none

theorem Refines.timeoutReturn (hr : Refines c low s p lists) (t : TimerId)
    (hlow : low ≤ (s.timer t).initTick.toNat + 1) :
    RefinesResult c low (timeoutReturn (skipList c) s t) (timeoutReturn plainList p t) := by
  unfold Timer.timeoutReturn
  rw [hr.timer]
  split
  · apply (hr.setActivated t false).start
    simpa [State.setActivated] using hlow
  · exact Option.Rel.some ⟨lists, hr.setActivated t false⟩

end Refines

/-!
## One step refines one step
-/

/-- The operations on timers that are not set up anew, with periods from `low` on. -/
def Op.Allowed (low : Nat) : Op -> Prop
  | Op.call (Cmd.init _ _ _ _) => False
  | Op.call (Cmd.control _ (TimerCtrl.setTime time)) => low ≤ time.toNat
  | _ => True

/-- How near the next timeout can be: outside a check the timers of the current
tick have been called. -/
def Phase.nearest (low : Nat) : Phase -> Nat
  | Phase.idle => low + 1
  | _ => low

theorem Phase.nearest_le (low : Nat) (phase : Phase) : phase.nearest low ≤ low + 1 := by
  cases phase with
  | idle => exact Nat.le_refl _
  | checking _ => exact Nat.le_succ _
  | callback _ => exact Nat.le_succ _

theorem Phase.le_nearest (low : Nat) (phase : Phase) : low ≤ phase.nearest low := by
  cases phase with
  | idle => exact Nat.le_succ _
  | checking _ => exact Nat.le_refl _
  | callback _ => exact Nat.le_refl _

structure SystemRefines (c : SkipConfig) (low : Nat) (s : System Rows)
    (p : System Plain) : Prop where
  phase : p.phase = s.phase
  current : forall current, s.phase = Phase.checking current ->
    current = s.state.tick
  rows : exists lists, Refines c (s.phase.nearest low) s.state p.state lists
  periods : forall t, low ≤ (s.state.timer t).initTick.toNat

section SystemRefines

variable {c : SkipConfig} {low near : Nat} {s : State Rows} {p : State Plain}
  {lists : RowLists}

theorem Refines.call (hr : Refines c near s p lists) (hnear : near ≤ low + 1)
    (hperiods : forall t, low ≤ (s.timer t).initTick.toNat) {cmd : Cmd}
    (hcmd : (Op.call cmd).Allowed low) :
    RefinesResult c near (call (skipList c) s cmd) (call plainList p cmd) := by
  cases cmd with
  | init t time periodic soft => exact hcmd.elim
  | start t =>
    exact hr.start t (Nat.le_trans hnear (Nat.succ_le_succ (hperiods t)))
  | stop t => exact Option.Rel.some (hr.stop t)
  | detach t => exact Option.Rel.some ⟨_, hr.remove t⟩
  | control t ctrl =>
    refine Option.Rel.some ⟨lists, ?_⟩
    cases ctrl with
    | getTime => exact hr
    | setTime time =>
      unfold rtTimerControl
      rw [hr.timer]
      exact hr.setTimer rfl (fun _ => rfl)
    | setOneshot =>
      unfold rtTimerControl
      rw [hr.timer]
      exact hr.setTimer rfl (fun _ => rfl)
    | setPeriodic =>
      unfold rtTimerControl
      rw [hr.timer]
      exact hr.setTimer rfl (fun _ => rfl)

theorem call_periods {L : Type} {ops : ListOps L} {s s' : State L} {cmd : Cmd}
    (hcmd : (Op.call cmd).Allowed low)
    (hperiods : forall t, low ≤ (s.timer t).initTick.toNat)
    (hs : call ops s cmd = some s') :
    forall t, low ≤ (s'.timer t).initTick.toNat := by
  intro x
  cases cmd with
  | init t time periodic soft => exact hcmd.elim
  | start t =>
    rw [(sameSettings_start hs).initTick x]
    exact hperiods x
  | stop t =>
    cases hs
    rw [sameSettings_stop.initTick x]
    exact hperiods x
  | detach t =>
    cases hs
    exact hperiods x
  | control t ctrl =>
    cases hs
    by_cases hx : x = t
    · subst hx
      cases ctrl with
      | getTime => exact hperiods x
      | setTime time =>
        have htime : low ≤ time.toNat := hcmd
        simpa [rtTimerControl] using htime
      | setOneshot => simpa [rtTimerControl] using hperiods x
      | setPeriodic => simpa [rtTimerControl] using hperiods x
    · cases ctrl with
      | getTime => exact hperiods x
      | setTime time => simpa [rtTimerControl, hx] using hperiods x
      | setOneshot => simpa [rtTimerControl, hx] using hperiods x
      | setPeriodic => simpa [rtTimerControl, hx] using hperiods x

theorem Sorted.none_due {L : Type} {s : State L} {l : List TimerId}
    (hs : Sorted (s.tick - 1) low s l)
    (hfirst : forall t, t ∈ l.head? -> ¬ s.Due s.tick t) :
    Sorted (s.tick - 1) 2 s l := by
  have hone : (s.tick - (s.tick - 1)).toNat = 1 := by
    generalize s.tick = b
    bv_omega
  apply hs.raise
  intro x hx
  cases l with
  | nil => cases hx
  | cons t rest =>
    have hlate := hfirst t rfl
    rw [due_iff (by rw [hone]; decide) (hs.near t List.mem_cons_self), hone] at hlate
    have hle : s.ahead (s.tick - 1) t ≤ s.ahead (s.tick - 1) x := by
      rcases List.mem_cons.mp hx with heq | hrest
      · rw [heq]
      · exact ((List.pairwise_cons.mp hs.order).left x hrest).key_le
    exact Nat.le_trans (Nat.lt_of_not_le hlate) hle

variable {x : System Rows} {y : System Plain}

theorem SystemRefines.call (hr : SystemRefines c low x y) {cmd : Cmd}
    (hcmd : (Op.call cmd).Allowed low) :
    Option.Rel (SystemRefines c low) (step (skipList c) x (Op.call cmd))
      (step plainList y (Op.call cmd)) := by
  rcases hr.rows with ⟨lists, hrows⟩
  have hcall := hrows.call (x.phase.nearest_le low) hr.periods hcmd
  have hresult (hphase : forall current, x.phase ≠ Phase.checking current) :
      Option.Rel (SystemRefines c low)
        ((Timer.call (skipList c) x.state cmd).map fun s => { x with state := s })
        ((Timer.call plainList y.state cmd).map fun p => { y with state := p }) := by
    generalize hs : Timer.call (skipList c) x.state cmd = o at hcall ⊢
    generalize Timer.call plainList y.state cmd = o' at hcall ⊢
    cases hcall with
    | none => exact Option.Rel.none
    | some hsp =>
      refine Option.Rel.some ⟨hr.phase, ?_, hsp, call_periods hcmd hr.periods hs⟩
      intro current hcurrent
      exact absurd hcurrent (hphase current)
  by_cases hchecking : exists current, x.phase = Phase.checking current
  · rcases hchecking with ⟨current, hphase⟩
    rw [step_call_checking hphase, step_call_checking (hr.phase.trans hphase)]
    exact Option.Rel.none
  · push Not at hchecking
    rw [step_call hchecking, step_call (by rw [hr.phase]; exact hchecking)]
    exact hresult hchecking

theorem SystemRefines.enter (hr : SystemRefines c low x y) (hidle : x.phase = Phase.idle) :
    SystemRefines c low { x with phase := Phase.checking x.state.tick }
      { y with phase := Phase.checking y.state.tick } := by
  rcases hr.rows with ⟨lists, hrows⟩
  rw [hidle] at hrows
  constructor
  · show Phase.checking y.state.tick = Phase.checking x.state.tick
    rw [hrows.tick]
  · intro current hcurrent
    cases hcurrent
    rfl
  · refine ⟨lists, ?_⟩
    refine { hrows with sorted := ?_ }
    apply hrows.sorted.raise
    intro t ht
    exact Nat.le_of_succ_le (hrows.sorted.low_le t ht)
  · exact hr.periods

theorem SystemRefines.tick (hr : SystemRefines c low x y)
    (hidle : x.phase = Phase.idle) :
    SystemRefines c low
      { state := { x.state with tick := x.state.tick + 1 }
        phase := Phase.checking (x.state.tick + 1) }
      { state := { y.state with tick := y.state.tick + 1 }
        phase := Phase.checking (y.state.tick + 1) } := by
  rcases hr.rows with ⟨lists, hrows⟩
  rw [hidle] at hrows
  constructor
  · show Phase.checking (y.state.tick + 1) = Phase.checking (x.state.tick + 1)
    rw [hrows.tick]
  · intro current hcurrent
    cases hcurrent
    rfl
  · refine ⟨lists, ?_⟩
    constructor
    · exact hrows.sound.congr rfl rfl (fun _ => rfl)
    · exact hrows.timer
    · show y.state.tick + 1 = x.state.tick + 1
      rw [hrows.tick]
    · exact hrows.timerThread
    · exact hrows.starts
    · exact hrows.order
    · exact hrows.hard
    · have hbase : x.state.tick + 1 - 1 = x.state.tick - 1 + 1 := by
        generalize x.state.tick = b
        bv_omega
      have hnext : Sorted (x.state.tick - 1 + 1) low x.state
          (lists c.bottom TimerList.hard) := hrows.sorted.advance
      rw [← hbase] at hnext
      exact hnext.congr (fun _ _ => rfl) (fun _ _ => rfl) (Nat.le_refl _)
  · exact hr.periods

theorem SystemRefines.leave (hr : SystemRefines c low x y) (hlow : low ≤ 1)
    {current : Tick} (hphase : x.phase = Phase.checking current)
    (hfirst : forall t, t ∈ (y.state.lists TimerList.hard).head? -> ¬ x.state.Due current t) :
    SystemRefines c low { x with phase := Phase.idle } { y with phase := Phase.idle } := by
  rcases hr.rows with ⟨lists, hrows⟩
  rw [hr.current current hphase, hrows.hard] at hfirst
  constructor
  · rfl
  · intro current' hcurrent
    cases hcurrent
  · refine ⟨lists, ?_⟩
    refine { hrows with sorted := ?_ }
    have hnone := hrows.sorted.none_due hfirst
    apply hnone.raise
    intro t ht
    exact Nat.le_trans (Nat.succ_le_succ hlow) (hnone.low_le t ht)
  · exact hr.periods

theorem SystemRefines.round (hr : SystemRefines c low x y) (hlow : low ≤ 1) :
    Option.Rel (SystemRefines c low) (step (skipList c) x Op.round)
      (step plainList y Op.round) := by
  rcases hr.rows with ⟨lists, hrows⟩
  have hfirst : (skipList c).first x.state.lists TimerList.hard =
      (y.state.lists TimerList.hard).head? := by
    rw [hrows.sound.wired.first, hrows.hard]
  cases hphase : x.phase with
  | idle =>
    unfold step
    rw [hr.phase, hphase]
    exact Option.Rel.none
  | callback t =>
    unfold step
    rw [hr.phase, hphase]
    exact Option.Rel.none
  | checking current =>
    rw [step_round hphase, step_round (hr.phase.trans hphase), hfirst, plainList_first]
    apply Option.Rel.some
    cases hhead : (y.state.lists TimerList.hard).head? with
    | none =>
      apply hr.leave hlow hphase
      intro t ht
      rw [hhead] at ht
      cases ht
    | some t =>
      have hsame : y.state.Due current t <-> x.state.Due current t := by
        unfold State.Due State.timeout
        rw [hrows.timer]
      by_cases hdue : x.state.Due current t
      · simp only [if_pos hdue, if_pos (hsame.mpr hdue)]
        constructor
        · rfl
        · intro current' hcurrent
          cases hcurrent
        · rw [hphase] at hrows
          exact ⟨_, hrows.remove t⟩
        · exact hr.periods
      · simp only [if_neg hdue, if_neg (mt hsame.mp hdue)]
        apply hr.leave hlow hphase
        intro t' ht
        rw [hhead] at ht
        cases ht
        exact hdue

theorem SystemRefines.ret (hr : SystemRefines c low x y) :
    Option.Rel (SystemRefines c low) (step (skipList c) x Op.ret) (step plainList y Op.ret) := by
  rcases hr.rows with ⟨lists, hrows⟩
  cases hphase : x.phase with
  | idle =>
    unfold step
    rw [hr.phase, hphase]
    exact Option.Rel.none
  | checking current =>
    unfold step
    rw [hr.phase, hphase]
    exact Option.Rel.none
  | callback t =>
    rw [hphase] at hrows
    rw [step_ret hphase, step_ret (hr.phase.trans hphase)]
    have hret := hrows.timeoutReturn t (Nat.le_succ_of_le (hr.periods t))
    generalize hs : timeoutReturn (skipList c) x.state t = o at hret ⊢
    generalize timeoutReturn plainList y.state t = o' at hret ⊢
    cases hret with
    | none => exact Option.Rel.none
    | some hsp =>
      apply Option.Rel.some
      constructor
      · rcases hsp with ⟨lists', hsp⟩
        show Phase.checking _ = Phase.checking _
        rw [hsp.tick]
      · intro current hcurrent
        cases hcurrent
        rfl
      · exact hsp
      · intro z
        rw [(sameSettings_timeoutReturn hs).initTick z]
        exact hr.periods z

theorem step_refines (hlow : low ≤ 1) (x : System Rows) (y : System Plain) (op : Op)
    (hop : op.Allowed low) (hr : SystemRefines c low x y) :
    Option.Rel (SystemRefines c low) (step (skipList c) x op) (step plainList y op) := by
  cases op with
  | call cmd => exact hr.call hop
  | tick =>
    show Option.Rel _ (if x.phase = Phase.idle then _ else _)
      (if y.phase = Phase.idle then _ else _)
    rw [hr.phase]
    by_cases hidle : x.phase = Phase.idle
    · rw [if_pos hidle, if_pos hidle]
      exact Option.Rel.some (hr.tick hidle)
    · rw [if_neg hidle, if_neg hidle]
      exact Option.Rel.none
  | check =>
    show Option.Rel _ (if x.phase = Phase.idle then _ else _)
      (if y.phase = Phase.idle then _ else _)
    rw [hr.phase]
    by_cases hidle : x.phase = Phase.idle
    · rw [if_pos hidle, if_pos hidle]
      exact Option.Rel.some (hr.enter hidle)
    · rw [if_neg hidle, if_neg hidle]
      exact Option.Rel.none
  | round => exact hr.round hlow
  | ret => exact hr.ret

end SystemRefines

end RtThread.Kernel.Timer
