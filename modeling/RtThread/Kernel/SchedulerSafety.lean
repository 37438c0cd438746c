import RtThread.Kernel.ReadySet

/-!
# Scheduler operations keep the ready set consistent

Most operations take one thread out of the ready set, rewrite its control block and put it back or
leave it out. In between, the invariant holds for every other thread while this one is linked
nowhere; the rules below move between that state and full consistency.
-/

namespace RtThread.Kernel

open Function (update update_of_ne update_self)

variable {cfg : Config} {k k' : State} {lists : ListHead -> List Tid} {t : Tid}

/-!
## One thread out of the ready set
-/

/-- The invariant for all threads but `t`, which is linked nowhere. -/
structure Without (cfg : Config) (k : State) (lists : ListHead -> List Tid)
    (t : Tid) : Prop where
  listsOk : ReadyLists cfg k lists
  threadOk : forall t', t' ≠ t -> ThreadOk cfg lists t' (k.thread t')
  current : forall t', t' ≠ t -> k.currentThread = some t' ->
    (k.thread t').stat ≠ ThreadStat.init
  free : forall h, t ∉ lists h

theorem setThread_self (k : State) (t : Tid) (th : Thread) : (k.setThread t th).thread t = th := by
  exact update_self ..

theorem setThread_of_ne (k : State) {t t' : Tid} (th : Thread) (hne : t' ≠ t) :
    (k.setThread t th).thread t' = k.thread t' := by
  exact update_of_ne hne ..

theorem Without.setThread (hw : Without cfg k lists t) (th : Thread) :
    Without cfg (k.setThread t th) lists t := by
  constructor
  · exact hw.listsOk.setThread (Or.inl hw.free)
  · intro t' hne
    rw [setThread_of_ne k th hne]
    exact hw.threadOk t' hne
  · intro t' hne hcur
    rw [setThread_of_ne k th hne]
    exact hw.current t' hne hcur
  · exact hw.free

theorem Without.restore (hw : Without cfg k lists t) (hth : ThreadOk cfg lists t (k.thread t))
    (hstat : (k.thread t).stat ≠ ThreadStat.init) : Consistent cfg k lists := by
  constructor
  · exact hw.listsOk
  · intro t'
    by_cases hne : t' = t
    · subst hne
      exact hth
    · exact hw.threadOk t' hne
  · intro t' hcur
    by_cases hne : t' = t
    · subst hne
      exact hstat
    · exact hw.current t' hne hcur

theorem Consistent.without (hc : Consistent cfg k lists)
    (hfree : forall h, t ∉ lists h) : Without cfg k lists t := by
  constructor
  · exact hc.listsOk
  · intro t' _
    exact hc.threadOk t'
  · intro t' _ hcur
    exact hc.current t' hcur
  · exact hfree

theorem Without.unlink (hw : Without cfg k lists t) :
    Without cfg { k with links := rtListRemove k.links (Node.member t) } lists t := by
  have hfamily := hw.listsOk.family.remove t
  rw [erase_eq_self_of_free hw.free] at hfamily
  constructor
  · exact ⟨hfamily, hw.listsOk.group, hw.listsOk.bitmap, hw.listsOk.bounded, hw.listsOk.place⟩
  · exact hw.threadOk
  · exact hw.current
  · exact hw.free

theorem insert_currentThread (hins : rtScheduleInsertThread cfg k t = some k') :
    k'.currentThread = k.currentThread := by
  unfold rtScheduleInsertThread at hins
  simp only at hins
  split at hins
  · cases hins
    unfold setPriorityMask
    split <;> rfl
  · cases hins

theorem Without.insert (hw : Without cfg k lists t)
    (hmasks : MasksOf cfg (k.thread t) (k.thread t).currentPriority)
    (htimer : (k.thread t).timer.linked = false)
    (hins : rtScheduleInsertThread cfg k t = some k') :
    Consistent cfg k' (update lists (ListHead.ready (k.thread t).currentPriority)
      (lists (ListHead.ready (k.thread t).currentPriority) ++ [t])) := by
  rcases insert_lists hw.listsOk hw.free hmasks hins with ⟨hlists, hthread⟩
  constructor
  · exact hlists
  · intro t'
    rw [hthread]
    by_cases hne : t' = t
    · subst hne
      rw [update_self]
      constructor
      · intro _
        simp
      · intro _ _
        rfl
      · intro hin
        exact absurd hin (hw.free _)
      · intro _
        exact hmasks
      · intro hlinked
        exact absurd hlinked (by simp [htimer])
    · rw [update_of_ne hne]
      apply (hw.threadOk t' hne).congr
      intro h
      exact mem_update_append hne
  · intro t' hcur
    rw [insert_currentThread hins] at hcur
    rw [hthread]
    by_cases hne : t' = t
    · subst hne
      simp
    · rw [update_of_ne hne]
      exact hw.current t' hne hcur

theorem without_of_remove (hl : ReadyLists cfg k lists)
    (hothers : forall t', t' ≠ t -> ThreadOk cfg lists t' (k.thread t'))
    (hcurrent : forall t', t' ≠ t -> k.currentThread = some t' ->
      (k.thread t').stat ≠ ThreadStat.init)
    (hmasks : MasksOf cfg (k.thread t) (k.thread t).currentPriority)
    (hrem : rtScheduleRemoveThread cfg k t = some k') :
    Without cfg k' (fun h => (lists h).erase t) t ∧ k'.thread = k.thread := by
  rcases remove_lists hl hmasks hrem with ⟨hlists, hthread⟩
  constructor
  · constructor
    · exact hlists
    · intro t' hne
      rw [hthread]
      apply (hothers t' hne).congr
      intro h
      exact mem_erase_all hne
    · intro t' hne hcur
      rw [remove_currentThread hrem] at hcur
      rw [hthread]
      exact hcurrent t' hne hcur
    · exact not_mem_erase_all hl.family t
  · exact hthread

theorem Consistent.remove (hc : Consistent cfg k lists)
    (hstat : (k.thread t).stat ≠ ThreadStat.init)
    (hrem : rtScheduleRemoveThread cfg k t = some k') :
    Without cfg k' (fun h => (lists h).erase t) t ∧ k'.thread = k.thread :=
  without_of_remove hc.listsOk (fun t' _ => hc.threadOk t')
    (fun t' _ => hc.current t') ((hc.threadOk t).masks hstat) hrem

/-!
## Selecting a thread
-/

variable {p : Nat} {e : RtErr}

theorem readyEntry_eq_some (hl : ReadyLists cfg k lists)
    (hentry : readyEntry cfg k p = some t) : t ∈ lists (ListHead.ready p) := by
  unfold readyEntry at hentry
  split at hentry
  · cases hlist : lists (ListHead.ready p) with
    | nil =>
      rw [hl.family.next_head_nil hlist] at hentry
      cases hentry
    | cons x rest =>
      rw [hl.family.next_head_cons hlist] at hentry
      cases hentry
      simp
  · cases hentry

theorem Consistent.setCurrent (hc : Consistent cfg k lists) {q : Nat}
    (hin : t ∈ lists (ListHead.ready p)) :
    Consistent cfg { k with currentPriority := q, currentThread := some t }
      lists := by
  constructor
  · apply hc.listsOk.congr
    · rfl
    · rfl
    · rfl
    · intro _ _ _
      rfl
  · exact hc.threadOk
  · intro t' hcur
    cases hcur
    have hready := (hc.threadOk t).linked p hin
    intro hinit
    have hstat : (k.thread t).stat = ThreadStat.init := hinit
    rw [hready] at hstat
    cases hstat

theorem Consistent.schedule (hc : Consistent cfg k lists)
    (hs : rtSchedule cfg k = some k') : Consistent cfg k' lists := by
  unfold rtSchedule at hs
  split at hs
  · cases hp : highestReadyPriority cfg k with
    | none =>
      rw [hp] at hs
      cases hs
    | some p =>
      rw [hp] at hs
      simp only at hs
      cases hentry : readyEntry cfg k p with
      | none =>
        rw [hentry] at hs
        cases hs
      | some x =>
        rw [hentry] at hs
        simp only at hs
        split at hs
        · cases hs
          exact hc.setCurrent (readyEntry_eq_some hc.listsOk hentry)
        · cases hs
          exact hc
  · cases hs
    exact hc

theorem Consistent.schedulerStart (hc : Consistent cfg k lists)
    (hs : rtSystemSchedulerStart cfg k = some k') : Consistent cfg k' lists := by
  unfold rtSystemSchedulerStart at hs
  cases hp : highestReadyPriority cfg k with
  | none =>
    rw [hp] at hs
    cases hs
  | some p =>
    rw [hp] at hs
    simp only at hs
    cases hentry : readyEntry cfg k p with
    | none =>
      rw [hentry] at hs
      cases hs
    | some x =>
      rw [hentry] at hs
      cases hs
      exact hc.setCurrent (q := k.currentPriority) (readyEntry_eq_some hc.listsOk hentry)

theorem Consistent.setLockNest (hc : Consistent cfg k lists) (n : Int) :
    Consistent cfg { k with lockNest := n } lists := by
  constructor
  · apply hc.listsOk.congr
    · rfl
    · rfl
    · rfl
    · intro _ _ _
      rfl
  · exact hc.threadOk
  · exact hc.current

/-!
## Thread operations
-/

theorem rtTimerStop_linked {timer : ThreadTimer}
    (hactive : timer.linked = true -> timer.activated = true) :
    (rtTimerStop timer).linked = false := by
  unfold rtTimerStop
  cases hlinked : timer.linked with
  | false => split <;> simp [hlinked]
  | true => rw [if_pos (hactive hlinked)]

theorem ThreadOk.timer_unlinked {th : Thread} (hth : ThreadOk cfg lists t th)
    (hstat : th.stat ≠ ThreadStat.suspend) : th.timer.linked = false := by
  cases hlinked : th.timer.linked with
  | false => rfl
  | true => exact absurd (hth.timer hlinked).left hstat

/-- The thread is at the end of a ready list where it was in none, or nothing has changed. -/
def Appends (lists lists' : ListHead -> List Tid) (p : Nat) (t : Tid) : Prop :=
  lists' = lists ∨
    lists' = update lists (ListHead.ready p) (lists (ListHead.ready p) ++ [t])

theorem Consistent.resume_appends (hc : Consistent cfg k lists)
    (hs : rtThreadResume cfg k t = some (k', e)) :
    exists lists', Consistent cfg k' lists' ∧
      Appends lists lists' (k.thread t).currentPriority t := by
  unfold rtThreadResume at hs
  by_cases hstat : (k.thread t).stat ≠ ThreadStat.suspend
  · rw [if_pos hstat] at hs
    cases hs
    exact ⟨lists, hc, Or.inl rfl⟩
  · rw [if_neg hstat] at hs
    push Not at hstat
    have hth := hc.threadOk t
    have hw := (hc.without (hth.free (by simp [hstat]) (by simp [hstat]))).unlink
    rcases Option.map_eq_some_iff.mp hs with ⟨k1, hins, heq⟩
    cases heq
    refine ⟨_, (hw.setThread _).insert ?_ ?_ hins, Or.inr ?_⟩
    · rw [setThread_self]
      exact hth.masks (by simp [hstat])
    · rw [setThread_self]
      exact rtTimerStop_linked fun hlinked => (hth.timer hlinked).right
    · rw [setThread_self]

theorem Consistent.resume (hc : Consistent cfg k lists)
    (hs : rtThreadResume cfg k t = some (k', e)) :
    exists lists', Consistent cfg k' lists' := by
  rcases hc.resume_appends hs with ⟨lists', hc', _⟩
  exact ⟨lists', hc'⟩

theorem Consistent.suspend (hc : Consistent cfg k lists)
    (hs : rtThreadSuspend cfg k t = some (k', e)) :
    exists lists', Consistent cfg k' lists' ∧ ((k.thread t).stat = ThreadStat.ready ->
        (k'.thread t).stat = ThreadStat.suspend) ∧
      ((k.thread t).stat ≠ ThreadStat.ready -> k' = k) := by
  unfold rtThreadSuspend at hs
  by_cases hstat : (k.thread t).stat ≠ ThreadStat.ready
  · rw [if_pos hstat] at hs
    cases hs
    exact ⟨lists, hc, fun h => absurd h hstat, fun _ => rfl⟩
  · rw [if_neg hstat] at hs
    push Not at hstat
    have hth := hc.threadOk t
    have hmasks := hth.masks (by simp [hstat])
    rcases Option.map_eq_some_iff.mp hs with ⟨k1, hrem, heq⟩
    cases heq
    -- the state was already changed when the thread leaves its ready list
    have hremoved := without_of_remove
      (k := k.setThread t { k.thread t with stat := ThreadStat.suspend })
      (hc.listsOk.setThread (Or.inr rfl))
      (by
        intro t' hne
        rw [setThread_of_ne k _ hne]
        exact hc.threadOk t')
      (by
        intro t' hne hcur
        rw [setThread_of_ne k _ hne]
        exact hc.current t' hcur)
      (by
        rw [setThread_self]
        exact hmasks) hrem
    rcases hremoved with ⟨hw, hthread⟩
    have hself : k1.thread t = { k.thread t with stat := ThreadStat.suspend } := by
      rw [hthread, setThread_self]
    have hstopped : (rtTimerStop (k.thread t).timer).linked = false :=
      rtTimerStop_linked fun hlinked => (hth.timer hlinked).right
    refine ⟨_, (hw.setThread _).restore (threadOk_of_free hw.free ?_ ?_ ?_) ?_,
      ?_, fun h => absurd hstat h⟩
    all_goals rw [setThread_self, hself]
    · simp
    · intro _
      exact hmasks
    · intro hlinked
      exact absurd hlinked (by simp [hstopped])
    · simp
    · intro _
      rfl

theorem Consistent.startup (hc : Consistent cfg k lists) (hs : rtThreadStartup cfg k t = some k') :
    exists lists', Consistent cfg k' lists' := by
  unfold rtThreadStartup at hs
  simp only at hs
  split at hs
  · rename_i hstat
    have hth := hc.threadOk t
    have hfree := hth.free (by simp [hstat]) (by simp [hstat])
    generalize hattr : priorityAttribute cfg
      { k.thread t with currentPriority := (k.thread t).initPriority } = th at hs
    have hmasks : MasksOf cfg th th.currentPriority := by
      have hattrMasks := masksOf_priorityAttribute cfg
        { k.thread t with currentPriority := (k.thread t).initPriority }
      rw [hattr] at hattrMasks
      have hprio : th.currentPriority = (k.thread t).initPriority := by
        rw [← hattr]
        unfold priorityAttribute
        split <;> rfl
      rw [hprio]
      exact hattrMasks
    have htimer : th.timer.linked = false := by
      have hsame : th.timer = (k.thread t).timer := by
        rw [← hattr]
        unfold priorityAttribute
        split <;> rfl
      rw [hsame]
      exact hth.timer_unlinked (by simp [hstat])
    have hc1 : Consistent cfg (k.setThread t { th with stat := ThreadStat.suspend }) lists := by
      refine ((hc.without hfree).setThread _).restore (threadOk_of_free hfree ?_ ?_ ?_) ?_
      all_goals rw [setThread_self]
      · simp
      · intro _
        exact hmasks
      · intro hlinked
        exact absurd hlinked (by simp [htimer])
      · simp
    cases hres : rtThreadResume cfg (k.setThread t { th with stat := ThreadStat.suspend }) t with
    | none =>
      rw [hres] at hs
      cases hs
    | some res =>
      rw [hres] at hs
      simp only at hs
      rcases hc1.resume hres with ⟨lists1, hc2⟩
      split at hs
      · exact ⟨lists1, hc2.schedule hs⟩
      · cases hs
        exact ⟨lists1, hc2⟩
  · cases hs

theorem priorityAttribute_stat (cfg : Config) (th : Thread) :
    (priorityAttribute cfg th).stat = th.stat := by
  unfold priorityAttribute
  split <;> rfl

theorem priorityAttribute_timer (cfg : Config) (th : Thread) :
    (priorityAttribute cfg th).timer = th.timer := by
  unfold priorityAttribute
  split <;> rfl

theorem priorityAttribute_currentPriority (cfg : Config) (th : Thread) :
    (priorityAttribute cfg th).currentPriority = th.currentPriority := by
  unfold priorityAttribute
  split <;> rfl

theorem Consistent.changePriority (hc : Consistent cfg k lists)
    (hstarted : (k.thread t).stat ≠ ThreadStat.init)
    (hs : rtThreadChangePriority cfg k t p = some k') :
    exists lists', Consistent cfg k' lists' := by
  have hth := hc.threadOk t
  have hmasks := masksOf_priorityAttribute cfg { k.thread t with currentPriority := p }
  unfold rtThreadChangePriority at hs
  split at hs
  · rename_i hready
    cases hrem : rtScheduleRemoveThread cfg k t with
    | none =>
      rw [hrem] at hs
      cases hs
    | some k1 =>
      rw [hrem] at hs
      rcases hc.remove hstarted hrem with ⟨hw, hthread⟩
      refine ⟨_, (hw.setThread _).insert ?_ ?_ hs⟩
      · rw [setThread_self, hthread, priorityAttribute_currentPriority]
        exact hmasks
      · rw [setThread_self, hthread, priorityAttribute_timer]
        exact hth.timer_unlinked (by simp [hready])
  · rename_i hready
    cases hs
    -- outside the ready set only the priority and its masks change
    have hlists : ReadyLists cfg (k.setThread t
        (priorityAttribute cfg { k.thread t with currentPriority := p })) lists := by
      refine hc.listsOk.congr rfl rfl rfl ?_
      intro q t' hin
      by_cases hne : t' = t
      · subst hne
        exact absurd (hth.linked q hin) hready
      · rw [setThread_of_ne k _ hne]
    refine ⟨lists, hlists, ?_, ?_⟩
    · intro t'
      by_cases hne : t' = t
      · subst hne
        rw [setThread_self]
        constructor
        · rw [priorityAttribute_stat]
          intro h
          exact absurd h hready
        · intro q hin
          exact absurd (hth.linked q hin) hready
        · rw [priorityAttribute_stat]
          exact hth.defunct
        · intro _
          rw [priorityAttribute_currentPriority]
          exact hmasks
        · rw [priorityAttribute_stat, priorityAttribute_timer]
          exact hth.timer
      · rw [setThread_of_ne k _ hne]
        exact hc.threadOk t'
    · intro t' hcur
      by_cases hne : t' = t
      · subst hne
        rw [setThread_self, priorityAttribute_stat]
        exact hstarted
      · rw [setThread_of_ne k _ hne]
        exact hc.current t' hcur

/-- The thread goes to the end of its ready list. -/
theorem Consistent.rotate (hc : Consistent cfg k lists)
    (hstat : (k.thread t).stat = ThreadStat.ready) :
    Consistent cfg { k with
        links := rtListInsertBefore (rtListRemove k.links (Node.member t))
          (Node.head (ListHead.ready (k.thread t).currentPriority)) (Node.member t) }
      (update (fun h => (lists h).erase t) (ListHead.ready (k.thread t).currentPriority)
        ((lists (ListHead.ready (k.thread t).currentPriority)).erase t ++ [t])) := by
  have hin := (hc.threadOk t).ready hstat
  have hfamily := (hc.listsOk.family.remove t).insertBefore
    (h := ListHead.ready (k.thread t).currentPriority)
    (not_mem_erase_all hc.listsOk.family t)
  generalize hl' : update (fun h => (lists h).erase t)
    (ListHead.ready (k.thread t).currentPriority) _ = lists' at hfamily ⊢
  -- rotation keeps the members of every list
  have hsame : forall h x, x ∈ lists' h <-> x ∈ lists h := by
    intro h x
    rw [← hl']
    by_cases hx : x = t
    · subst hx
      by_cases hh : h = ListHead.ready (k.thread x).currentPriority
      · subst hh
        simp [hin]
      · rw [update_of_ne hh]
        constructor
        · exact List.mem_of_mem_erase
        · intro hin'
          exact absurd (hc.listsOk.family.disjoint _ _ x hin' hin) hh
    · rw [mem_update_append hx]
      exact mem_erase_all hx
  have hempty : forall h, lists' h = [] <-> lists h = [] := by
    intro h
    simp only [List.eq_nil_iff_forall_not_mem, hsame]
  constructor
  · constructor
    · exact hfamily
    · exact hc.listsOk.group
    · intro q hq
      rw [ne_eq, hempty]
      exact hc.listsOk.bitmap q hq
    · intro q hq
      rw [hempty]
      exact hc.listsOk.bounded q hq
    · intro q x hx
      exact hc.listsOk.place q x ((hsame _ _).mp hx)
  · intro x
    exact (hc.threadOk x).congr fun h => hsame h x
  · exact hc.current

theorem Consistent.yield (hc : Consistent cfg k lists) (hs : rtThreadYield cfg k = some k') :
    exists lists', Consistent cfg k' lists' := by
  unfold rtThreadYield at hs
  cases hcur : k.currentThread with
  | none =>
    rw [hcur] at hs
    cases hs
  | some t =>
    rw [hcur] at hs
    simp only at hs
    split at hs
    · rename_i hguard
      split at hs
      · exact ⟨_, (hc.rotate hguard.left).schedule (hcur ▸ hs)⟩
      · cases hs
    · cases hs
      exact ⟨lists, hc⟩

theorem Consistent.setTimer (hc : Consistent cfg k lists) {timer : ThreadTimer}
    (htimer : timer.linked = true ->
      (k.thread t).stat = ThreadStat.suspend ∧ timer.activated = true) :
    Consistent cfg (k.setThread t { k.thread t with timer := timer, error := e }) lists := by
  constructor
  · exact hc.listsOk.setThread (Or.inr rfl)
  · intro t'
    by_cases hne : t' = t
    · subst hne
      have hth := hc.threadOk t'
      rw [setThread_self]
      exact ⟨hth.ready, hth.linked, hth.defunct, hth.masks, htimer⟩
    · rw [setThread_of_ne k _ hne]
      exact hc.threadOk t'
  · intro t' hcur
    by_cases hne : t' = t
    · subst hne
      rw [setThread_self]
      exact hc.current t' hcur
    · rw [setThread_of_ne k _ hne]
      exact hc.current t' hcur

theorem Consistent.sleep (hc : Consistent cfg k lists) {tick : Nat}
    (hrun : running k = true) (hs : rtThreadSleep cfg k tick = some k') :
    exists lists', Consistent cfg k' lists' := by
  unfold rtThreadSleep at hs
  cases hcur : k.currentThread with
  | none =>
    rw [hcur] at hs
    cases hs
  | some t =>
    rw [hcur] at hs
    simp only at hs
    cases hsus : rtThreadSuspend cfg k t with
    | none =>
      rw [hsus] at hs
      cases hs
    | some res =>
      rw [hsus] at hs
      simp only at hs
      rcases hc.suspend hsus with ⟨lists1, hc1, hready, hother⟩
      -- whether or not the call suspended it, the thread is suspended now
      have hstat : (res.fst.thread t).stat = ThreadStat.suspend := by
        by_cases hst : (k.thread t).stat = ThreadStat.ready
        · exact hready hst
        · rw [hother hst]
          have hinit := hc.current t hcur
          have hclose : (k.thread t).stat ≠ ThreadStat.close := by
            unfold running at hrun
            rw [hcur] at hrun
            simpa using hrun
          cases hcase : (k.thread t).stat with
          | init => exact absurd hcase hinit
          | ready => exact absurd hcase hst
          | suspend => rfl
          | close => exact absurd hcase hclose
      unfold rtTimerStart at hs
      split at hs
      · cases hs
      · rename_i timer htimer
        split at htimer
        · cases htimer
          refine ⟨lists1, Consistent.schedule (hc1.setTimer
            (t := t) (e := (res.fst.thread t).error) ?_) hs⟩
          intro _
          exact ⟨hstat, rfl⟩
        · cases htimer

theorem Consistent.sleepReturn (hc : Consistent cfg k lists)
    (hs : rtThreadSleepReturn k = some k') : Consistent cfg k' lists := by
  unfold rtThreadSleepReturn at hs
  cases hcur : k.currentThread with
  | none =>
    rw [hcur] at hs
    cases hs
  | some t =>
    rw [hcur] at hs
    simp only at hs
    split at hs
    · cases hs
      exact hc.setTimer (hc.threadOk t).timer
    · cases hs
      exact hc

theorem insert_stat (hins : rtScheduleInsertThread cfg k t = some k') :
    (k'.thread t).stat = ThreadStat.ready := by
  unfold rtScheduleInsertThread at hins
  simp only at hins
  split at hins
  · cases hins
    unfold setPriorityMask
    split <;> simp [State.setThread]
  · cases hins

theorem schedule_thread (hs : rtSchedule cfg k = some k') : k'.thread = k.thread := by
  unfold rtSchedule at hs
  split at hs
  · split at hs
    · cases hs
    · split at hs
      · cases hs
      · split at hs <;> cases hs <;> rfl
  · cases hs
    rfl

theorem Consistent.threadTimeout (hc : Consistent cfg k lists)
    (hunlinked : (k.thread t).timer.linked = false)
    (hs : rtThreadTimeout cfg k t = some k') :
    (exists lists', Consistent cfg k' lists' ∧
      Appends lists lists' (k.thread t).currentPriority t) ∧
      (k'.thread t).stat = ThreadStat.ready := by
  unfold rtThreadTimeout at hs
  simp only at hs
  split at hs
  · rename_i hstat
    have hth := hc.threadOk t
    have hfree := hth.free (by simp [hstat]) (by simp [hstat])
    have hw := ((hc.without hfree).setThread { k.thread t with error := RtErr.etimeout }).unlink
    split at hs
    · cases hs
    · rename_i k1 hins
      constructor
      · have hc1 := hw.insert ?_ ?_ hins
        · refine ⟨_, hc1.schedule hs, Or.inr ?_⟩
          rw [setThread_self]
        · rw [setThread_self]
          exact hth.masks (by simp [hstat])
        · rw [setThread_self]
          exact hunlinked
      · rw [schedule_thread hs]
        exact insert_stat hins
  · cases hs

theorem Consistent.timeout_appends (hc : Consistent cfg k lists)
    (hs : rtTimerCheckThread cfg k t = some k') :
    exists lists', Consistent cfg k' lists' ∧
      Appends lists lists' (k.thread t).currentPriority t := by
  unfold rtTimerCheckThread at hs
  simp only at hs
  split at hs
  · have hc1 : Consistent cfg (k.setThread t { k.thread t with
        timer := { (k.thread t).timer with linked := false } }) lists :=
      hc.setTimer (by simp)
    split at hs
    · cases hs
    · rename_i k1 htimeout
      rcases hc1.threadTimeout (by rw [setThread_self]) htimeout with
        ⟨⟨lists1, hc2, happ⟩, hready⟩
      cases hs
      rw [setThread_self] at happ
      refine ⟨lists1, hc2.setTimer (t := t) (e := (k1.thread t).error) ?_, happ⟩
      intro hlinked
      have hbad := ((hc2.threadOk t).timer hlinked).left
      rw [hready] at hbad
      cases hbad
  · cases hs

theorem Consistent.timeout (hc : Consistent cfg k lists)
    (hs : rtTimerCheckThread cfg k t = some k') :
    exists lists', Consistent cfg k' lists' := by
  rcases hc.timeout_appends hs with ⟨lists', hc', _⟩
  exact ⟨lists', hc'⟩

theorem Consistent.exit (hc : Consistent cfg k lists) (hs : rtThreadExit cfg k = some k') :
    exists lists', Consistent cfg k' lists' := by
  unfold rtThreadExit at hs
  cases hcur : k.currentThread with
  | none =>
    rw [hcur] at hs
    cases hs
  | some t =>
    rw [hcur] at hs
    simp only at hs
    split at hs
    · cases hs
    · rename_i k1 hrem
      rcases hc.remove (hc.current t hcur) hrem with ⟨hw, hthread⟩
      have hmasks := (hc.threadOk t).masks (hc.current t hcur)
      have hw1 := hw.setThread { k1.thread t with
        stat := ThreadStat.close, timer := rtTimerDetach (k1.thread t).timer }
      have hself := setThread_self k1 t { k1.thread t with
        stat := ThreadStat.close, timer := rtTimerDetach (k1.thread t).timer }
      generalize k1.setThread t { k1.thread t with
        stat := ThreadStat.close,
        timer := rtTimerDetach (k1.thread t).timer } = k2 at hs hw1 hself
      have hmasks2 : MasksOf cfg (k2.thread t) (k2.thread t).currentPriority := by
        rw [hself, hthread]
        exact hmasks
      split at hs
      · refine ⟨_,
          Consistent.schedule (hw1.restore (threadOk_of_free hw1.free ?_ ?_ ?_) ?_) hs⟩
        · simp [hself]
        · intro _
          exact hmasks2
        · intro hlinked
          rw [hself] at hlinked
          cases hlinked
        · simp [hself]
      · -- a dynamic thread, or one with a cleanup function, becomes defunct
        have hready : forall p, update (fun h => (lists h).erase t) ListHead.defunct
            (t :: (lists ListHead.defunct).erase t) (ListHead.ready p) =
            (lists (ListHead.ready p)).erase t := by
          intro p
          exact update_of_ne (by simp) ..
        refine ⟨update (fun h => (lists h).erase t) ListHead.defunct
          (t :: (lists ListHead.defunct).erase t), ?_⟩
        refine Consistent.schedule ?_ hs
        constructor
        · exact hw1.listsOk.insertDefunct hw1.free
        · intro x
          by_cases hne : x = t
          · subst hne
            constructor
            · intro hstat
              have hstat' : (k2.thread x).stat = ThreadStat.ready := hstat
              rw [hself] at hstat'
              cases hstat'
            · intro p hin
              exact absurd hin (hw1.free _)
            · intro _
              show (k2.thread x).stat = ThreadStat.close
              rw [hself]
            · intro _
              exact hmasks2
            · intro hlinked
              have hlinked' : (k2.thread x).timer.linked = true := hlinked
              rw [hself] at hlinked'
              cases hlinked'
          · apply (hw1.threadOk x hne).congr
            intro h
            exact mem_update_cons hne
        · intro x hx
          by_cases hne : x = t
          · subst hne
            show (k2.thread x).stat ≠ ThreadStat.init
            rw [hself]
            simp
          · exact hw1.current x hne hx

/-!
## Whole runs
-/

theorem Booted.consistent (hboot : Booted cfg k) : Consistent cfg k (fun _ => []) := by
  constructor
  · constructor
    · constructor
      · intro h
        exact LinkRing.ring_nil_iff.mpr (hboot.links _)
      · intro x _
        exact LinkRing.ring_nil_iff.mpr (hboot.links _)
      · intro h h' x hx
        cases hx
    · intro _ g _
      simp [hboot.group, hboot.table]
    · intro p _
      unfold readyBit
      simp [hboot.group]
    · intro p _
      rfl
    · intro p x hx
      cases hx
  · intro x
    apply threadOk_of_free
    · intro h hx
      cases hx
    · simp [hboot.stat]
    · intro hstat
      exact absurd (hboot.stat x) hstat
    · intro hlinked
      rw [hboot.timer] at hlinked
      cases hlinked
  · intro x hx
    rw [hboot.current] at hx
    cases hx

theorem Consistent.step (hc : Consistent cfg k lists) {op : Op}
    (hs : step cfg k op = some k') : exists lists', Consistent cfg k' lists' := by
  cases op with
  | startup t => exact hc.startup hs
  | suspend t =>
    simp only [Kernel.step] at hs
    split at hs
    · rcases Option.map_eq_some_iff.mp hs with ⟨res, hres, rfl⟩
      rcases hc.suspend hres with ⟨lists1, hc1, _⟩
      exact ⟨lists1, hc1⟩
    · cases hs
  | resume t =>
    simp only [Kernel.step] at hs
    split at hs
    · rcases Option.map_eq_some_iff.mp hs with ⟨res, hres, rfl⟩
      exact hc.resume hres
    · cases hs
  | yield =>
    simp only [Kernel.step] at hs
    split at hs
    · exact hc.yield hs
    · cases hs
  | sleep tick =>
    simp only [Kernel.step] at hs
    split at hs
    · rename_i hrun
      exact hc.sleep hrun hs
    · cases hs
  | sleepReturn =>
    simp only [Kernel.step] at hs
    split at hs
    · exact ⟨lists, hc.sleepReturn hs⟩
    · cases hs
  | timeout t => exact hc.timeout hs
  | changePriority t p =>
    simp only [Kernel.step] at hs
    split at hs
    · rename_i hguard
      have hstarted : (k.thread t).stat ≠ ThreadStat.init := by
        simpa [started] using hguard.left
      exact hc.changePriority hstarted hs
    · cases hs
  | exit =>
    simp only [Kernel.step] at hs
    split at hs
    · exact hc.exit hs
    · cases hs
  | schedulerStart => exact ⟨lists, hc.schedulerStart hs⟩
  | schedule => exact ⟨lists, hc.schedule hs⟩
  | enterCritical =>
    cases hs
    exact ⟨lists, hc.setLockNest _⟩
  | exitCritical =>
    simp only [Kernel.step, rtExitCritical] at hs
    split at hs
    · exact ⟨lists, (hc.setLockNest 0).schedule hs⟩
    · cases hs
      exact ⟨lists, hc.setLockNest _⟩

/-!
## The selected thread
-/

theorem LowestSet.unique {value : BitVec 32} {i j : Nat}
    (hi : LowestSet value i) (hj : LowestSet value j) : i = j := by
  rcases Nat.lt_trichotomy i j with hlt | heq | hgt
  · have hbit := hj.right i hlt
    rw [hi.left] at hbit
    cases hbit
  · exact heq
  · have hbit := hi.right j hgt
    rw [hj.left] at hbit
    cases hbit

theorem wordPred_rtFfs {value : BitVec 32} {i n : Nat}
    (hlow : LowestSet value i) (hn : n + i < 256) :
    wordPred (n + rtFfs value) = n + i := by
  have hne : value ≠ 0 := by
    intro hzero
    have hbit := hlow.left
    rw [hzero] at hbit
    simp at hbit
  rcases rtFfs_spec hne with ⟨j, hffs, hj⟩
  rw [hffs, hj.unique hlow]
  unfold wordPred
  rw [show n + (i + 1) + (2 ^ 32 - 1) = n + i + 2 ^ 32 by lia, Nat.add_mod_right]
  exact Nat.mod_eq_of_lt (by lia)

theorem ReadyLists.highestReadyPriority (hl : ReadyLists cfg k lists)
    (hne : lists (ListHead.ready p) ≠ [])
    (hmin : forall q, q < p -> lists (ListHead.ready q) = []) :
    highestReadyPriority cfg k = some p := by
  have hmax := cfg.priorityMax_le
  have hp : p < cfg.priorityMax := by
    by_contra hge
    exact hne (hl.bounded p (Nat.not_lt.mp hge))
  have hset : readyBit cfg k p = true := (hl.bitmap p (by lia)).mpr hne
  have hclear : forall q, q < p -> readyBit cfg k q = false := by
    intro q hq
    cases hbit : readyBit cfg k q with
    | false => rfl
    | true => exact absurd (hmin q hq) ((hl.bitmap q (by lia)).mp hbit)
  unfold Kernel.highestReadyPriority
  by_cases hbig : 32 < cfg.priorityMax
  · rw [if_pos hbig]
    unfold readyBit at hset hclear
    simp only [if_pos hbig, Bool.and_eq_true] at hset hclear
    have hg : p / 8 < 32 := by lia
    -- no lower byte has a bit, so the group selects the byte of `p`
    have hgroupLow : LowestSet k.readyPriorityGroup (p / 8) := by
      constructor
      · exact hset.left
      · intro g hglt
        cases hbit : k.readyPriorityGroup.getLsbD g with
        | false => rfl
        | true =>
          rcases bits_ne_zero_iff.mp ((hl.group hbig g (by lia)).mp hbit) with ⟨i, hi, htable⟩
          have hq := hclear (8 * g + i) (by lia)
          rw [show (8 * g + i) / 8 = g by lia, show (8 * g + i) % 8 = i by lia, hbit, htable] at hq
          cases hq
    have hbyteLow : LowestSet ((k.readyTable (p / 8)).setWidth 32) (p % 8) := by
      constructor
      · rw [BitVec.getLsbD_setWidth, hset.right]
        simp
        lia
      · intro i hi
        have hq := hclear (8 * (p / 8) + i) (by lia)
        rw [show (8 * (p / 8) + i) / 8 = p / 8 by lia,
          show (8 * (p / 8) + i) % 8 = i by lia, hset.left] at hq
        simpa using fun _ => hq
    have hnumber := wordPred_rtFfs (n := 0) hgroupLow (by lia)
    rw [Nat.zero_add, Nat.zero_add] at hnumber
    simp only [hnumber]
    rw [if_pos hg, Nat.shiftLeft_eq, wordPred_rtFfs hbyteLow (by lia)]
    rw [show p / 8 * 2 ^ 3 + p % 8 = p by lia]
  · rw [if_neg hbig]
    unfold readyBit at hset hclear
    simp only [if_neg hbig] at hset hclear
    have hnumber := wordPred_rtFfs (n := 0) ⟨hset, hclear⟩ (by lia)
    rw [Nat.zero_add, Nat.zero_add] at hnumber
    rw [hnumber]

/-- With the scheduler unlocked, `rt_schedule` switches to the first thread of
the most urgent non-empty list. -/
theorem ReadyLists.schedule_selects (hl : ReadyLists cfg k lists)
    (hlock : k.lockNest = 0) {rest : List Tid}
    (hlist : lists (ListHead.ready p) = t :: rest)
    (hmin : forall q, q < p -> lists (ListHead.ready q) = []) :
    exists k', rtSchedule cfg k = some k' ∧ k'.currentThread = some t := by
  have hprio := hl.highestReadyPriority (p := p) (by simp [hlist]) hmin
  have hp : p < cfg.priorityMax := by
    by_contra hge
    rw [hl.bounded p (Nat.not_lt.mp hge)] at hlist
    cases hlist
  have hentry : readyEntry cfg k p = some t := by
    unfold readyEntry
    rw [if_pos hp, hl.family.next_head_cons hlist]
  unfold rtSchedule
  rw [if_pos hlock, hprio]
  simp only [hentry]
  by_cases hcur : k.currentThread = some t
  · exact ⟨k, by simp [hcur], hcur⟩
  · exact ⟨_, by rw [if_pos (Ne.symm hcur)], rfl⟩

/-- The links form lists in which every thread occurs at most once, the bitmap and the
control blocks agree with them, and an unlocked `rt_schedule` selects the first thread of
the first non-empty list, at the priority that `__rt_ffs` computes. -/
structure ReadySetHolds (cfg : Config) (k : State)
    (lists : ListHead -> List Tid) : Prop where
  linked : Family k.links lists
  oncePerList : forall h, (lists h).Nodup
  onePlace : forall h h' t, t ∈ lists h -> t ∈ lists h' -> h = h'
  bitmap : forall p, p < cfg.priorityMax ->
    (readyBit cfg k p = true <-> lists (ListHead.ready p) ≠ [])
  member : forall p t, t ∈ lists (ListHead.ready p) ->
    (k.thread t).stat = ThreadStat.ready ∧
      (k.thread t).currentPriority = p ∧ MasksOf cfg (k.thread t) p
  selects : k.lockNest = 0 -> forall p t rest,
    lists (ListHead.ready p) = t :: rest ->
    (forall q, q < p -> lists (ListHead.ready q) = []) ->
    highestReadyPriority cfg k = some p ∧
      exists k', rtSchedule cfg k = some k' ∧ k'.currentThread = some t

/-- In every state of every scheduler run, for both bitmap layouts. -/
theorem scheduler_ready_set_invariant (cfg : Config) {k0 k : State}
    {ops : List Op} (hboot : Booted cfg k0)
    (hrun : Transition.Run (Transition.Graph (step cfg)) k0 ops k) :
    exists lists, ReadySetHolds cfg k lists := by
  have hinv : exists lists, Consistent cfg k lists := by
    apply hrun.invariant (fun s => exists lists, Consistent cfg s lists)
    · exact ⟨_, hboot.consistent⟩
    · intro s op s' hex hs
      rcases hex with ⟨lists, hc⟩
      exact hc.step hs
  rcases hinv with ⟨lists, hc⟩
  exists lists
  constructor
  · exact hc.listsOk.family
  · exact hc.listsOk.family.nodup
  · exact hc.listsOk.family.disjoint
  · intro p hp
    exact hc.listsOk.bitmap p (Nat.lt_of_lt_of_le hp cfg.priorityMax_le)
  · intro p t hin
    have hstat := (hc.threadOk t).linked p hin
    have hprio := hc.listsOk.place p t hin
    refine ⟨hstat, hprio, ?_⟩
    have hmasks := (hc.threadOk t).masks (by simp [hstat])
    rw [hprio] at hmasks
    exact hmasks
  · intro hlock p t rest hlist hmin
    constructor
    · exact hc.listsOk.highestReadyPriority (by simp [hlist]) hmin
    · exact hc.listsOk.schedule_selects hlock hlist hmin

/-- Priority levels beyond one word, so that the byte table is in use. -/
def tableConfig : Config := ⟨64, by decide⟩

def bootState : State where
  links := ⟨id, id⟩
  thread t :=
    { stat := ThreadStat.init, currentPriority := 0,
      initPriority := if t % 2 = 0 then 12 else 40, number := 0,
      highMask := 0, numberMask := 0, error := RtErr.eok,
      timer := ⟨false, false, 0⟩, systemObject := true, cleanup := false }
  readyPriorityGroup := 0
  readyTable _ := 0
  currentThread := none
  currentPriority := 0
  lockNest := 0

theorem bootState_booted : Booted tableConfig bootState := by
  constructor
  · intro n
    exact ⟨rfl, rfl⟩
  · intro t
    rfl
  · intro t
    show (if t % 2 = 0 then 12 else 40) < 64
    split <;> decide
  · intro t
    rfl
  · rfl
  · intro g
    rfl
  · rfl
  · rfl

/-- Three threads are started, one sleeps, wakes up, is demoted and exits. -/
theorem scheduler_ready_set_invariant_three_threads :
    exists k, Transition.Run (Transition.Graph (step tableConfig)) bootState
        [Op.startup 1, Op.startup 0, Op.startup 3, Op.schedulerStart,
          Op.sleep 5, Op.timeout 0, Op.changePriority 0 40, Op.yield, Op.exit] k ∧
      exists lists, ReadySetHolds tableConfig k lists := by
  have hsome : (Transition.exec (step tableConfig) bootState
      [Op.startup 1, Op.startup 0, Op.startup 3, Op.schedulerStart,
        Op.sleep 5, Op.timeout 0, Op.changePriority 0 40, Op.yield,
        Op.exit]).isSome = true := by
    decide +kernel
  rcases Option.isSome_iff_exists.mp hsome with ⟨k, hk⟩
  have hrun := Transition.run_of_exec hk
  exact ⟨k, hrun,
    scheduler_ready_set_invariant tableConfig bootState_booted hrun⟩

end RtThread.Kernel
