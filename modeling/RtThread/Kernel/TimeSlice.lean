import RtThread.Kernel.SchedulerSafety

/-!
# Time slices

`rt_tick_increase` counts down the slice of the running thread and lets it yield at the end
of it.  What `rt_timer_check` does there for the timer of a thread is a call of its own in
the runs below.  Threads of one priority take turns: a ready thread waits no longer than the
slices of those in front of it.
-/

namespace RtThread.Kernel

open Transition
open Function (update update_of_ne update_self)

/-- The scheduler, `rt_tick`, and `remaining_tick` of every thread. -/
structure Clock where
  kernel : State
  tick : Nat
  remainingTick : Tid -> Nat

/-- `rt_tick_increase` up to its call of `rt_timer_check`. -/
def rtTickIncrease (cfg : Config) (initTick : Tid -> Nat) (s : Clock) : Option Clock :=
  let tick := (s.tick + 1) % 2 ^ 32
  match s.kernel.currentThread with
  | none => none
  | some t =>
    let remaining := wordPred (s.remainingTick t)
    if remaining = 0 then
      (rtThreadYield cfg s.kernel).map fun k =>
        ⟨k, tick, update s.remainingTick t (initTick t)⟩
    else
      some ⟨s.kernel, tick, update s.remainingTick t remaining⟩

inductive ClockOp where
  | tick
  | call (op : Op)
deriving DecidableEq, Repr

def clockStep (cfg : Config) (initTick : Tid -> Nat) (s : Clock) : ClockOp -> Option Clock
  | ClockOp.tick => rtTickIncrease cfg initTick s
  | ClockOp.call op => (step cfg s.kernel op).map fun k => { s with kernel := k }

/-- Every thread as `_rt_thread_init` leaves it. -/
structure ClockBooted (cfg : Config) (initTick : Tid -> Nat) (s : Clock) : Prop where
  kernel : Booted cfg s.kernel
  slice : forall t, initTick t < 2 ^ 32 ∧ s.remainingTick t = initTick t

/-- The ticks until a thread yields.  A counter that is zero wraps around. -/
def ticksLeft (remaining : Nat) : Nat := if remaining = 0 then 2 ^ 32 else remaining

/-- The steps while a thread waits for its turn: ticks, calls of the running thread that
yield, and calls that make threads ready that are no more urgent. -/
def Shares (p : Nat) (s : Clock) : ClockOp -> Prop
  | ClockOp.tick => True
  | ClockOp.call Op.yield => True
  | ClockOp.call (Op.resume x) => p ≤ (s.kernel.thread x).currentPriority
  | ClockOp.call (Op.timeout x) => p ≤ (s.kernel.thread x).currentPriority
  | _ => False

instance (p : Nat) (s : Clock) (op : ClockOp) : Decidable (Shares p s op) := by
  unfold Shares
  split
  · exact isTrue trivial
  · exact isTrue trivial
  · exact inferInstanceAs (Decidable (_ ≤ _))
  · exact inferInstanceAs (Decidable (_ ≤ _))
  · exact isFalse id

def isTick : ClockOp -> Bool
  | ClockOp.tick => true
  | ClockOp.call _ => false

section Slices

variable {cfg : Config} {initTick : Tid -> Nat} {k k' : State} {s s' : Clock}
  {lists lists' : ListHead -> List Tid} {t x : Tid} {p : Nat} {pre post : List Tid}

theorem ticksLeft_wordPred {r : Nat} (hr : r < 2 ^ 32) :
    wordPred r < 2 ^ 32 ∧ (wordPred r = 0 <-> ticksLeft r = 1) ∧
      (wordPred r ≠ 0 -> ticksLeft (wordPred r) + 1 = ticksLeft r) := by
  unfold wordPred ticksLeft
  refine ⟨Nat.mod_lt _ (by decide), ?_, ?_⟩
  · split
    · omega
    · omega
  · intro hne
    rw [if_neg hne]
    split
    · omega
    · omega

theorem ticksLeft_pos {r : Nat} : 0 < ticksLeft r := by
  unfold ticksLeft
  split
  · decide
  · omega

/-!
## The end of a slice
-/

/-- The first thread of the most urgent list runs, and the scheduler is not locked. -/
structure Selected (cfg : Config) (k : State) (lists : ListHead -> List Tid) (p : Nat)
    (l : List Tid) : Prop where
  consistent : Consistent cfg k lists
  list : lists (ListHead.ready p) = l
  least : forall q, q < p -> lists (ListHead.ready q) = []
  unlocked : k.lockNest = 0
  current : k.currentThread = l.head?

theorem schedule_lockNest (hs : rtSchedule cfg k = some k') : k'.lockNest = k.lockNest := by
  unfold rtSchedule at hs
  split at hs
  · split at hs
    · cases hs
    · split at hs
      · cases hs
      · split at hs
        · cases hs
          rfl
        · cases hs
          rfl
  · cases hs
    rfl

theorem Consistent.selected {l : List Tid} (hc : Consistent cfg k lists)
    (hs : rtSchedule cfg k = some k') (hlock : k.lockNest = 0)
    (hlist : lists (ListHead.ready p) = l) (hne : l ≠ [])
    (hleast : forall q, q < p -> lists (ListHead.ready q) = []) :
    Selected cfg k' lists p l := by
  refine ⟨hc.schedule hs, hlist, hleast, (schedule_lockNest hs).trans hlock, ?_⟩
  cases l with
  | nil => exact absurd rfl hne
  | cons y rest =>
    rcases hc.listsOk.schedule_selects hlock hlist hleast with ⟨k2, hs2, hcur⟩
    cases hs.symm.trans hs2
    exact hcur

theorem Selected.yield {y : Tid} {rest : List Tid}
    (hsel : Selected cfg k lists p (x :: y :: rest)) :
    exists k' lists', rtThreadYield cfg k = some k' ∧
      Selected cfg k' lists' p (y :: rest ++ [x]) := by
  have hc := hsel.consistent
  have hfam := hc.listsOk.family
  have hx : x ∈ lists (ListHead.ready p) := by simp [hsel.list]
  have hstat := (hc.threadOk x).linked p hx
  have hprio := hc.listsOk.place p x hx
  have hp : p < cfg.priorityMax := by
    by_contra hge
    have hnil := hc.listsOk.bounded p (Nat.not_lt.mp hge)
    rw [hsel.list] at hnil
    cases hnil
  have hring := hfam.ring (ListHead.ready p)
  rw [hsel.list] at hring
  have hnext := @LinkRing.Ring.neighbours _ _ _ _ _ [] _ hring
  have hcur : k.currentThread = some x := hsel.current
  have hrot := hc.rotate hstat
  have herase := @erase_eq_update _ _ _ _ _ _ _ _ hfam [] _ hsel.list
  rw [hprio, herase, hsel.list] at hrot
  have hlist' : update (update lists (ListHead.ready p) ([] ++ y :: rest))
      (ListHead.ready p) ((x :: y :: rest).erase x ++ [x]) (ListHead.ready p) =
        y :: rest ++ [x] := by
    rw [update_self, List.erase_cons_head]
  have hleast' : forall q, q < p -> update (update lists (ListHead.ready p) ([] ++ y :: rest))
      (ListHead.ready p) ((x :: y :: rest).erase x ++ [x]) (ListHead.ready q) = [] := by
    intro q hq
    have hne : ListHead.ready q ≠ ListHead.ready p := by
      intro heq
      cases heq
      omega
    rw [update_of_ne hne, update_of_ne hne]
    exact hsel.least q hq
  rcases hrot.listsOk.schedule_selects hsel.unlocked hlist' hleast' with ⟨k', hs, _⟩
  refine ⟨k', _, ?_, hrot.selected hs hsel.unlocked hlist' (by simp) hleast'⟩
  have hmore : k.links.next (Node.member x) ≠ k.links.prev (Node.member x) := by
    rw [hnext.left, hnext.right]
    simp
  unfold rtThreadYield
  rw [hcur] at hs ⊢
  simp only [hprio]
  rw [if_pos ⟨hstat, hmore⟩, if_pos hp]
  exact hs

theorem Selected.yields {rest : List Tid} (hsel : Selected cfg k lists p (x :: rest)) :
    exists k', rtThreadYield cfg k = some k' := by
  cases rest with
  | nil =>
    have hring := hsel.consistent.listsOk.family.ring (ListHead.ready p)
    rw [hsel.list] at hring
    have hnext := @LinkRing.Ring.neighbours _ _ _ _ _ [] [] hring
    have hcur : k.currentThread = some x := hsel.current
    unfold rtThreadYield
    rw [hcur]
    simp only
    rw [if_neg]
    · exact ⟨k, rfl⟩
    · rintro ⟨_, hne⟩
      exact hne (hnext.left.trans hnext.right.symm)
  | cons y rest =>
    rcases hsel.yield with ⟨k', _, hyield, _⟩
    exact ⟨k', hyield⟩

theorem Selected.tick {rest : List Tid} (hsel : Selected cfg s.kernel lists p (x :: rest)) :
    exists s', clockStep cfg initTick s ClockOp.tick = some s' := by
  have hcur : s.kernel.currentThread = some x := hsel.current
  simp only [clockStep, rtTickIncrease, hcur]
  split
  · rcases hsel.yields with ⟨k', hyield⟩
    rw [hyield]
    exact ⟨_, rfl⟩
  · exact ⟨_, rfl⟩

/-!
## Threads that become ready meanwhile
-/

theorem Appends.list {q : Nat} {l : List Tid} (happ : Appends lists lists' q x) (hq : p ≤ q)
    (hlist : lists (ListHead.ready p) = l)
    (hleast : forall q, q < p -> lists (ListHead.ready q) = []) :
    exists more, lists' (ListHead.ready p) = l ++ more ∧
      forall q, q < p -> lists' (ListHead.ready q) = [] := by
  rcases happ with heq | heq
  · subst heq
    exact ⟨[], by rw [hlist, List.append_nil], hleast⟩
  · subst heq
    have hkeep : forall r, r ≠ q -> update lists (ListHead.ready q)
        (lists (ListHead.ready q) ++ [x]) (ListHead.ready r) = lists (ListHead.ready r) := by
      intro r hr
      exact update_of_ne (fun heq => hr (ListHead.ready.inj heq)) ..
    have hleast' : forall r, r < p -> update lists (ListHead.ready q)
        (lists (ListHead.ready q) ++ [x]) (ListHead.ready r) = [] := by
      intro r hr
      rw [hkeep r (by omega)]
      exact hleast r hr
    by_cases hp : p = q
    · subst hp
      exact ⟨[x], by rw [update_self, hlist], hleast'⟩
    · exact ⟨[], by rw [hkeep p hp, hlist, List.append_nil], hleast'⟩

theorem insert_lockNest (hins : rtScheduleInsertThread cfg k t = some k') :
    k'.lockNest = k.lockNest := by
  unfold rtScheduleInsertThread at hins
  simp only at hins
  split at hins
  · cases hins
    unfold setPriorityMask
    split
    · rfl
    · rfl
  · cases hins

theorem resume_processor {e : RtErr} (hs : rtThreadResume cfg k t = some (k', e)) :
    k'.currentThread = k.currentThread ∧ k'.lockNest = k.lockNest := by
  unfold rtThreadResume at hs
  split at hs
  · cases hs
    exact ⟨rfl, rfl⟩
  · rcases Option.map_eq_some_iff.mp hs with ⟨k1, hins, heq⟩
    cases heq
    have hcur := insert_currentThread hins
    have hlock := insert_lockNest hins
    exact ⟨hcur, hlock⟩

theorem rtSchedule_again (hs : rtSchedule cfg k = some k') (th : Thread) :
    rtSchedule cfg (k'.setThread t th) = some (k'.setThread t th) := by
  unfold rtSchedule at hs
  split at hs
  · rename_i hlock
    cases hp : highestReadyPriority cfg k with
    | none =>
      rw [hp] at hs
      cases hs
    | some q =>
      rw [hp] at hs
      simp only at hs
      cases hentry : readyEntry cfg k q with
      | none =>
        rw [hentry] at hs
        cases hs
      | some y =>
        rw [hentry] at hs
        simp only at hs
        have hfix : forall k1 : State, k1.lockNest = 0 ->
            highestReadyPriority cfg k1 = some q -> readyEntry cfg k1 q = some y ->
              k1.currentThread = some y -> rtSchedule cfg k1 = some k1 := by
          intro k1 hlock1 hp1 hentry1 hcur1
          unfold rtSchedule
          rw [if_pos hlock1, hp1]
          simp only [hentry1]
          rw [if_neg (by rw [hcur1]; simp)]
        split at hs
        · cases hs
          exact hfix _ hlock hp hentry rfl
        · rename_i hcur
          cases hs
          exact hfix _ hlock hp hentry (not_not.mp hcur).symm
  · rename_i hlock
    cases hs
    unfold rtSchedule
    exact if_neg hlock

theorem timeout_scheduled (hs : rtTimerCheckThread cfg k t = some k') :
    rtSchedule cfg k' = some k' ∧ k'.lockNest = k.lockNest := by
  unfold rtTimerCheckThread rtThreadTimeout at hs
  simp only at hs
  split at hs
  · split at hs
    · cases hs
    · rename_i k1 htimeout
      cases hs
      split at htimeout
      · split at htimeout
        · cases htimeout
        · rename_i k2 hins
          have hlock := insert_lockNest hins
          exact ⟨rtSchedule_again htimeout _, (schedule_lockNest htimeout).trans hlock⟩
      · cases htimeout
  · cases hs

/-!
## Waiting for a turn
-/

/-- The ticks until the last thread of the list has yielded. -/
def turnTicks (s : Clock) (l : List Tid) : Nat :=
  (l.map fun x => ticksLeft (s.remainingTick x)).sum

theorem turnTicks_update {r : Nat} {k : State} {tick : Nat} {l : List Tid} (hx : x ∉ l) :
    turnTicks ⟨k, tick, update s.remainingTick x r⟩ l = turnTicks s l := by
  unfold turnTicks
  congr 1
  apply List.map_congr_left
  intro y hy
  have hne : y ≠ x := by
    intro heq
    exact hx (heq ▸ hy)
  show ticksLeft (update s.remainingTick x r y) = _
  rw [update_of_ne hne]

theorem Selected.rotated {k : State} {rest : List Tid}
    (hsel : Selected cfg k lists p (x :: rest ++ t :: post)) :
    exists k' lists', rtThreadYield cfg k = some k' ∧
      Selected cfg k' lists' p (rest ++ t :: (post ++ [x])) := by
  cases rest with
  | nil => exact hsel.yield
  | cons y rest =>
    rcases hsel.yield with ⟨k', lists', hs, hsel'⟩
    exact ⟨k', lists', hs, by simpa using hsel'⟩

/-- A step of the others brings the thread nearer to the head of its list: a tick by one
tick, and no other step removes it from there. -/
theorem Selected.share {op : ClockOp} (hsel : Selected cfg s.kernel lists p (pre ++ t :: post))
    (hslice : forall x, s.remainingTick x < 2 ^ 32)
    (hwait : s.kernel.currentThread ≠ some t) (hok : Shares p s op)
    (hstep : clockStep cfg initTick s op = some s') :
    exists lists' pre' post', Selected cfg s'.kernel lists' p (pre' ++ t :: post') ∧
      turnTicks s' pre' + (if isTick op then 1 else 0) ≤ turnTicks s pre := by
  cases pre with
  | nil => exact absurd hsel.current hwait
  | cons x rest =>
    have hcur : s.kernel.currentThread = some x := hsel.current
    have hnd := hsel.consistent.listsOk.family.nodup (ListHead.ready p)
    rw [hsel.list, List.cons_append, List.nodup_cons, List.mem_append, not_or] at hnd
    rcases hsel.rotated with ⟨k1, lists1, hyield, hsel1⟩
    have hleft : turnTicks s (x :: rest) = ticksLeft (s.remainingTick x) + turnTicks s rest := rfl
    -- a thread becomes ready behind those of the list
    have hbehind : forall {k' lists'} {y : Tid}, Consistent cfg k' lists' ->
        Appends lists lists' (s.kernel.thread y).currentPriority y ->
        p ≤ (s.kernel.thread y).currentPriority -> k'.lockNest = s.kernel.lockNest ->
        (k'.currentThread = s.kernel.currentThread ∨ rtSchedule cfg k' = some k') ->
        exists lists' pre' post', Selected cfg k' lists' p (pre' ++ t :: post') ∧
          turnTicks { s with kernel := k' } pre' + 0 ≤ turnTicks s (x :: rest) := by
      intro k' lists' y hc' happ hy hlock hcur'
      rcases happ.list hy hsel.list hsel.least with ⟨more, hlist', hleast'⟩
      refine ⟨lists', x :: rest, post ++ more, ?_, Nat.le_refl _⟩
      have hassoc : x :: rest ++ t :: post ++ more = x :: rest ++ t :: (post ++ more) := by simp
      rw [hassoc] at hlist'
      have hlock' := hlock.trans hsel.unlocked
      rcases hcur' with hsame | hagain
      · exact ⟨hc', hlist', hleast', hlock', hsame.trans hcur⟩
      · exact hc'.selected hagain hlock' hlist' (by simp) hleast'
    cases op with
    | tick =>
      have hr := ticksLeft_wordPred (hslice x)
      simp only [clockStep, rtTickIncrease, hcur] at hstep
      split at hstep
      · rename_i hzero
        rw [hyield] at hstep
        cases hstep
        refine ⟨lists1, rest, post ++ [x], hsel1, ?_⟩
        rw [turnTicks_update hnd.left.left, hleft, hr.right.left.mp hzero]
        exact Nat.le_of_eq (Nat.add_comm ..)
      · rename_i hmore
        cases hstep
        refine ⟨lists, x :: rest, post, hsel, ?_⟩
        have hcons : turnTicks ⟨s.kernel, (s.tick + 1) % 2 ^ 32,
            update s.remainingTick x (wordPred (s.remainingTick x))⟩ (x :: rest) =
              ticksLeft (wordPred (s.remainingTick x)) + turnTicks s rest := by
          rw [← turnTicks_update (s := s) hnd.left.left]
          show ticksLeft (update s.remainingTick x _ x) + _ = _
          rw [update_self]
          rfl
        rw [hcons, hleft, ← hr.right.right hmore]
        show _ + 1 ≤ _
        omega
    | call op =>
      simp only [clockStep, Option.map_eq_some_iff] at hstep
      rcases hstep with ⟨k', hstep, hs'⟩
      subst hs'
      cases op with
      | yield =>
        simp only [step] at hstep
        split at hstep
        · cases hyield.symm.trans hstep
          refine ⟨lists1, rest, post ++ [x], hsel1, ?_⟩
          rw [hleft]
          exact Nat.le_add_left ..
        · cases hstep
      | resume y =>
        simp only [step] at hstep
        split at hstep
        · rcases Option.map_eq_some_iff.mp hstep with ⟨res, hres, rfl⟩
          rcases hsel.consistent.resume_appends hres with ⟨lists', hc', happ⟩
          have hproc := resume_processor hres
          exact hbehind hc' happ hok hproc.right (Or.inl hproc.left)
        · cases hstep
      | timeout y =>
        have htimeout : rtTimerCheckThread cfg s.kernel y = some k' := hstep
        rcases hsel.consistent.timeout_appends htimeout with ⟨lists', hc', happ⟩
        have hproc := timeout_scheduled htimeout
        exact hbehind hc' happ hok hproc.right (Or.inr hproc.left)
      | _ => exact absurd hok id

/-!
## Runs
-/

def SlicesHold (initTick : Tid -> Nat) (s : Clock) : Prop :=
  forall x, s.remainingTick x < 2 ^ 32 ∧ ticksLeft (s.remainingTick x) ≤ ticksLeft (initTick x)

theorem SlicesHold.step {op : ClockOp} (hslices : SlicesHold initTick s)
    (hinit : forall x, initTick x < 2 ^ 32)
    (hstep : clockStep cfg initTick s op = some s') : SlicesHold initTick s' := by
  have hupdate : forall {k : State} {tick r : Nat} {y : Tid}, r < 2 ^ 32 ->
      ticksLeft r ≤ ticksLeft (initTick y) ->
      SlicesHold initTick ⟨k, tick, update s.remainingTick y r⟩ := by
    intro k tick r y hlt hle x
    show update s.remainingTick y r x < _ ∧ ticksLeft (update s.remainingTick y r x) ≤ _
    by_cases hx : x = y
    · subst hx
      rw [update_self]
      exact ⟨hlt, hle⟩
    · rw [update_of_ne hx]
      exact hslices x
  cases op with
  | call op =>
    simp only [clockStep, Option.map_eq_some_iff] at hstep
    rcases hstep with ⟨k', _, hs'⟩
    subst hs'
    exact hslices
  | tick =>
    simp only [clockStep, rtTickIncrease] at hstep
    split at hstep
    · cases hstep
    · rename_i y _
      have hr := ticksLeft_wordPred (hslices y).left
      split at hstep
      · rcases Option.map_eq_some_iff.mp hstep with ⟨k', _, hs'⟩
        subst hs'
        exact hupdate (hinit y) (Nat.le_refl _)
      · rename_i hmore
        cases hstep
        have hle := (hslices y).right
        have hless := hr.right.right hmore
        exact hupdate hr.left (by omega)

theorem clockStep_consistent {op : ClockOp} (hc : Consistent cfg s.kernel lists)
    (hstep : clockStep cfg initTick s op = some s') :
    exists lists', Consistent cfg s'.kernel lists' := by
  cases op with
  | call op =>
    simp only [clockStep, Option.map_eq_some_iff] at hstep
    rcases hstep with ⟨k', hstep, hs'⟩
    subst hs'
    exact hc.step hstep
  | tick =>
    simp only [clockStep, rtTickIncrease] at hstep
    split at hstep
    · cases hstep
    · split at hstep
      · rcases Option.map_eq_some_iff.mp hstep with ⟨k', hyield, hs'⟩
        subst hs'
        exact hc.yield hyield
      · cases hstep
        exact ⟨lists, hc⟩

theorem clock_run {s0 : Clock} {ops : List ClockOp} (hboot : ClockBooted cfg initTick s0)
    (hrun : Run (Graph (clockStep cfg initTick)) s0 ops s) :
    (exists lists, Consistent cfg s.kernel lists) ∧ SlicesHold initTick s := by
  apply hrun.invariant (fun s => (exists lists, Consistent cfg s.kernel lists) ∧
    SlicesHold initTick s)
  · refine ⟨⟨_, hboot.kernel.consistent⟩, fun x => ?_⟩
    rw [(hboot.slice x).right]
    exact ⟨(hboot.slice x).left, Nat.le_refl _⟩
  · rintro s op s' ⟨⟨lists, hc⟩, hslices⟩ hstep
    exact ⟨clockStep_consistent hc hstep, hslices.step (fun x => (hboot.slice x).left) hstep⟩

theorem Selected.waits {ops : List ClockOp}
    (hsel : Selected cfg s.kernel lists p (pre ++ t :: post))
    (hslices : SlicesHold initTick s) (hinit : forall x, initTick x < 2 ^ 32)
    (hrun : Run (Guarded (fun s op => s.kernel.currentThread ≠ some t ∧ Shares p s op)
      (Graph (clockStep cfg initTick))) s ops s') :
    SlicesHold initTick s' ∧ exists lists' pre' post',
      Selected cfg s'.kernel lists' p (pre' ++ t :: post') ∧
        turnTicks s' pre' + ops.countP isTick ≤ turnTicks s pre := by
  induction hrun with
  | nil => exact ⟨hslices, lists, pre, post, hsel, Nat.le_refl _⟩
  | snoc _ hstep ih =>
    rcases ih with ⟨hslices1, lists1, pre1, post1, hsel1, hle1⟩
    rcases hstep with ⟨⟨hwait, hok⟩, hstep⟩
    rcases hsel1.share (fun x => (hslices1 x).left) hwait hok hstep with
      ⟨lists', pre', post', hsel', hle⟩
    refine ⟨hslices1.step hinit hstep, lists', pre', post', hsel', ?_⟩
    rw [List.countP_append, List.countP_singleton]
    omega

/-- In every state of every run, a thread of the most urgent ready list gets the processor
after at most the ticks that are left to those in front of it, whatever wakes up that is no
more urgent, and a tick is possible until then; no slice is longer than the one the thread
was given. -/
theorem ready_thread_gets_turn {s0 : Clock} {ops : List ClockOp}
    (hboot : ClockBooted cfg initTick s0)
    (hrun : Run (Graph (clockStep cfg initTick)) s0 ops s) :
    exists lists, Family s.kernel.links lists ∧
      (forall x, ticksLeft (s.remainingTick x) ≤ ticksLeft (initTick x)) ∧
      forall p t pre post, lists (ListHead.ready p) = pre ++ t :: post ->
        (forall q, q < p -> lists (ListHead.ready q) = []) -> s.kernel.lockNest = 0 ->
        s.kernel.currentThread = (pre ++ t :: post).head? ->
        forall more s', Run (Guarded (fun s op =>
            s.kernel.currentThread ≠ some t ∧ Shares p s op)
            (Graph (clockStep cfg initTick))) s more s' ->
          more.countP isTick ≤ turnTicks s pre ∧
          (more.countP isTick = turnTicks s pre -> s'.kernel.currentThread = some t) ∧
          exists s2, clockStep cfg initTick s' ClockOp.tick = some s2 := by
  rcases clock_run hboot hrun with ⟨⟨lists, hc⟩, hslices⟩
  refine ⟨lists, hc.listsOk.family, fun x => (hslices x).right, ?_⟩
  intro p t pre post hlist hleast hlock hcur more s' hmore
  have hsel : Selected cfg s.kernel lists p (pre ++ t :: post) :=
    ⟨hc, hlist, hleast, hlock, hcur⟩
  rcases hsel.waits hslices (fun x => (hboot.slice x).left) hmore with
    ⟨_, lists', pre', post', hsel', hle⟩
  refine ⟨by omega, ?_, ?_⟩
  · intro hall
    cases pre' with
    | nil => exact hsel'.current
    | cons x rest =>
      have hpos : 0 < ticksLeft (s'.remainingTick x) := ticksLeft_pos
      have hcons : turnTicks s' (x :: rest) = ticksLeft (s'.remainingTick x) +
        turnTicks s' rest := rfl
      omega
  · cases pre' with
    | nil => exact hsel'.tick
    | cons x rest => exact hsel'.tick

end Slices

def bootClock : Clock := ⟨bootState, 0, fun _ => 3⟩

theorem bootClock_booted : ClockBooted tableConfig (fun _ => 3) bootClock :=
  ⟨bootState_booted, fun _ => ⟨by decide, rfl⟩⟩

/-- Two threads with slices of three ticks; the first has one tick behind it. -/
theorem ready_thread_gets_turn_second :
    exists s s', Run (Graph (clockStep tableConfig fun _ => 3)) bootClock
        [ClockOp.call (Op.startup 1), ClockOp.call (Op.startup 3),
          ClockOp.call Op.schedulerStart, ClockOp.tick] s ∧
      Run (Graph (clockStep tableConfig fun _ => 3)) s [ClockOp.tick, ClockOp.tick] s' ∧
      s'.kernel.currentThread = some 3 := by
  have hexec : (exec (clockStep tableConfig fun _ => 3) bootClock
      [ClockOp.call (Op.startup 1), ClockOp.call (Op.startup 3),
        ClockOp.call Op.schedulerStart, ClockOp.tick]).map (fun s => decide
          ((forall q, q < 40 -> s.kernel.links.next (Node.head (ListHead.ready q)) =
              Node.head (ListHead.ready q)) ∧
            s.kernel.links.next (Node.head (ListHead.ready 40)) = Node.member 1 ∧
            s.kernel.links.next (Node.member 1) = Node.member 3 ∧
            s.kernel.links.next (Node.member 3) = Node.head (ListHead.ready 40) ∧
            s.kernel.currentThread = some 1 ∧ s.kernel.lockNest = 0 ∧ s.remainingTick 1 = 2 ∧
            (exec (fun s op => if s.kernel.currentThread ≠ some 3 ∧ Shares 40 s op then
                clockStep tableConfig (fun _ => 3) s op else none) s
              [ClockOp.tick, ClockOp.tick]).isSome = true)) = some true := by
    decide +kernel
  rw [Option.map_eq_some_iff] at hexec
  rcases hexec with ⟨s, hexec, hvalues⟩
  rcases of_decide_eq_true hvalues with
    ⟨hnone, hfirst, hsecond, hend, hcur, hlock, hleft, hmore⟩
  rcases Option.isSome_iff_exists.mp hmore with ⟨s', hs'⟩
  have hrun := run_of_exec hexec
  rcases ready_thread_gets_turn bootClock_booted hrun with ⟨lists, hfam, _, hturn⟩
  have hring := hfam.ring (ListHead.ready 40)
  have hlist : lists (ListHead.ready 40) = [1] ++ 3 :: [] := by
    generalize lists (ListHead.ready 40) = l at hring
    have hhead := hring.next_head
    rw [hfirst] at hhead
    rcases l with _ | ⟨a, _ | ⟨b, l⟩⟩
    · cases hhead
    · cases hhead
      have hnext := (@LinkRing.Ring.neighbours _ _ _ _ _ [] _ hring).left
      rw [hsecond] at hnext
      cases hnext
    · cases hhead
      have hnext := (@LinkRing.Ring.neighbours _ _ _ _ _ [] _ hring).left
      rw [hsecond] at hnext
      cases hnext
      have hlast := (@LinkRing.Ring.neighbours _ _ _ _ _ [Node.member 1] _ hring).left
      rw [hend] at hlast
      cases l with
      | nil => rfl
      | cons c l => cases hlast
  have hleast : forall q, q < 40 -> lists (ListHead.ready q) = [] := by
    intro q hq
    rw [← List.map_eq_nil_iff, ← (hfam.ring (ListHead.ready q)).next_head_eq_iff]
    exact hnone q hq
  have hguard := guarded_run_of_exec hs'
  have hwait : turnTicks s [1] = 2 := by
    show ticksLeft (s.remainingTick 1) + 0 = 2
    rw [hleft]
    rfl
  have hthird := (hturn 40 3 [1] [] hlist hleast hlock hcur _ s' hguard).right.left
  exact ⟨s, s', hrun, hguard.of_guarded, hthird hwait.symm⟩

end RtThread.Kernel
