import RtThread.Pthreads.Rwlock

/-!
# Wake-ups of a read-write lock

Who may still wait once every thread that was woken has run.  An unlock wakes a writer, or
all the readers; the invariant says who else has been woken whenever a waiting thread
could go on.
-/

namespace RtThread.Pthreads.Rwlock

open Kernel
open Ipc
open Ipc.Semaphore
open Transition

/-- The threads in a wait that have not been released from it and have not timed out. -/
def Side.waits (d : Side) : List Tid := d.between ++ d.cond.sem.suspendThread

/-- Nobody has been released without having run: no thread has been resumed by a release,
and no thread between its unlock and its take finds a token. -/
def Side.Settled (d : Side) : Prop :=
  (forall x, x ∈ d.woken -> x.2 ≠ RtErr.eok) ∧ (d.between = [] ∨ d.cond.sem.value = 0)

def Settled (s : State) : Prop := forall role, (s.side role).Settled

/-- No reader waits while no writer holds the lock or waits for it, and no writer waits
while the lock is free. -/
def NobodyStranded (s : State) : Prop :=
  (s.writers = [] -> (s.side Role.writing).inside = [] ->
    (s.side Role.reading).waits = []) ∧
  (s.refcount = 0 -> (s.side Role.writing).waits = [])

/-- A release of the semaphore that resumes nobody while threads are between their unlock
and their take does not wrap its value. -/
def Side.NoWrap (d : Side) : Prop :=
  d.cond.sem.suspendThread = [] -> d.between ≠ [] -> d.cond.sem.value + 1 < 2 ^ 16

/-- There is a token for every reader between its unlock and its take, and no reader is
suspended. -/
def Side.Served (d : Side) : Prop :=
  d.cond.sem.suspendThread = [] ∧ d.between.length ≤ d.cond.sem.value

/-- An unlock that wakes the readers finds at most as many before their take as it leaves
tokens; one that wakes a writer does not wrap the semaphore; and a writer that gives up is
not the last to wait while no writer holds the lock and readers need to be woken. -/
def Heeded (s : State) : Op -> Prop
  | Op.unlock _ =>
    if 0 < s.nwaitwriters then s.refcount ≤ 1 -> (s.side Role.writing).NoWrap
    else (s.side Role.reading).between.length ≤
      max (s.side Role.reading).cond.sem.value 1
  | Op.wake Role.writing _ r _ =>
    r ≠ RtErr.eok -> s.nwaitwriters = 1 -> 0 ≤ s.refcount -> (s.side Role.reading).Served
  | _ => True

def Side.Roused (d : Side) : Prop :=
  (exists t, (t, RtErr.eok) ∈ d.woken) ∨ (d.between ≠ [] ∧ 0 < d.cond.sem.value)

/-- While the lock is free and a writer waits, a writer has been woken; while no writer
holds the lock or is inside its wait, every reader has been woken. -/
structure Awake (s : State) : Prop where
  writers : s.refcount = 0 -> (s.side Role.writing).waits ≠ [] ->
    (s.side Role.writing).Roused
  readers : 0 ≤ s.refcount -> s.nwaitwriters = 0 -> (s.side Role.reading).Served

variable {s s' : State} {d : Side} {role : Role} {t : Tid} {time : Int} {r : RtErr}
  {o : Outcome}

theorem Awake.init : Awake pthreadRwlockInit := by
  constructor
  · intro _ hwaits
    exact absurd rfl hwaits
  · intro _ _
    exact ⟨rfl, Nat.le_refl 0⟩

theorem Awake.of_writer (hneg : s.refcount < 0) : Awake s := by
  constructor
  · intro hzero
    omega
  · intro hpos
    omega

theorem Awake.of_held (hheld : s.refcount ≠ 0) (hwriter : 0 < s.nwaitwriters) : Awake s := by
  constructor
  · intro hzero
    exact absurd hzero hheld
  · intro _ hnone
    omega

theorem Awake.grant (ha : Awake s) (hside : s'.side = s.side) (hheld : s'.refcount ≠ 0)
    (hpos : 0 ≤ s'.refcount -> 0 ≤ s.refcount) : Awake s' := by
  constructor
  · intro hzero
    exact absurd hzero hheld
  · intro hnonneg hnone
    unfold State.nwaitwriters at hnone
    rw [hside] at hnone ⊢
    exact ha.readers (hpos hnonneg) hnone

theorem Awake.rdlockLoop (ha : Awake s) (t : Tid) (time : Int) : Awake (rdlockLoop s t time).1 := by
  unfold Rwlock.rdlockLoop
  split
  · next hblocked =>
      constructor
      · intro hzero hwaits
        exact ha.writers hzero hwaits
      · intro hnonneg hnone
        change 0 ≤ s.refcount at hnonneg
        change s.nwaitwriters = 0 at hnone
        omega
  · exact ha.grant rfl (by simp only; omega) (by simp only; omega)

theorem Awake.wrlockLoop (hs : Ok s) (t : Tid) (time : Int) : Awake (wrlockLoop s t time).1 := by
  unfold Rwlock.wrlockLoop
  split
  · next hheld =>
      have hcount := (hs.side Role.writing).count
      refine Awake.of_held hheld ?_
      show 0 < (s.side Role.writing).nwait + 1
      omega
  · exact Awake.of_writer (show (-1 : Int) < 0 by decide)

theorem Side.take_pos (hpos : 0 < d.cond.sem.value) (t : Tid) (time : Int) : d.take t time =
      { d with
        cond := { d.cond with sem := { d.cond.sem with value := d.cond.sem.value - 1 } }
        between := d.between.erase t
        woken := d.woken ++ [(t, RtErr.eok)] } := by
  unfold Side.take semTake
  simp only [if_pos hpos]

theorem Side.woken_take (d : Side) (t : Tid) (time : Int) {x : Tid × RtErr}
    (hx : x ∈ d.woken) : x ∈ (d.take t time).woken := by
  unfold Side.take
  simp only
  split
  · exact List.mem_append_left _ hx
  · exact List.mem_append_left _ hx
  · exact hx

theorem Side.Served.take (hd : d.Served) (ht : t ∈ d.between) : (d.take t time).Served := by
  obtain ⟨hqueue, hlen⟩ := hd
  have hone := List.length_pos_of_mem ht
  rw [Side.take_pos (by omega)]
  refine ⟨hqueue, ?_⟩
  show (d.between.erase t).length ≤ d.cond.sem.value - 1
  rw [List.length_erase_of_mem ht]
  omega

theorem Side.Roused.take (hd : d.Roused) (t : Tid) (time : Int) : (d.take t time).Roused := by
  rcases Nat.eq_zero_or_pos d.cond.sem.value with hzero | hpos
  · rcases hd with ⟨u, hu⟩ | ⟨_, hpos⟩
    · exact Or.inl ⟨u, d.woken_take t time hu⟩
    · omega
  · rw [Side.take_pos hpos]
    exact Or.inl ⟨t, List.mem_append_right _ List.mem_cons_self⟩

theorem Awake.take (ha : Awake s) (ht : t ∈ (s.side role).between) :
    Awake (s.setSide role ((s.side role).take t time)) := by
  cases role with
  | reading =>
    constructor
    · intro hzero hwaits
      exact ha.writers hzero hwaits
    · intro hnonneg hnone
      have hserved : ((s.side Role.reading).take t time).Served :=
        (ha.readers hnonneg hnone).take ht
      rw [State.setSide_side]
      exact hserved
  | writing =>
    have hwaits : (s.side Role.writing).waits ≠ [] :=
      List.ne_nil_of_mem (List.mem_append_left _ ht)
    constructor
    · intro hzero _
      have hroused := (ha.writers hzero hwaits).take t time
      rw [State.setSide_side]
      exact hroused
    · intro hnonneg hnone
      unfold State.nwaitwriters at hnone
      rw [State.setSide_side] at hnone
      exact ha.readers hnonneg hnone

theorem Awake.expire (ha : Awake s) (ht : t ∈ (s.side role).cond.sem.suspendThread) :
    Awake (s.setSide role ((s.side role).expire t)) := by
  cases role with
  | reading =>
    constructor
    · intro hzero hwaits
      exact ha.writers hzero hwaits
    · intro hnonneg hnone
      rw [(ha.readers hnonneg hnone).1] at ht
      cases ht
  | writing =>
    have hwaits : (s.side Role.writing).waits ≠ [] :=
      List.ne_nil_of_mem (List.mem_append_right _ ht)
    constructor
    · intro hzero _
      rw [State.setSide_side]
      rcases ha.writers hzero hwaits with ⟨u, hu⟩ | hright
      · exact Or.inl ⟨u, List.mem_append_left _ hu⟩
      · exact Or.inr hright
    · intro hnonneg hnone
      unfold State.nwaitwriters at hnone
      rw [State.setSide_side] at hnone
      exact ha.readers hnonneg hnone

theorem Awake.leave_reader (ha : Awake s) :
    Awake (s.setSide Role.reading ((s.side Role.reading).leave t r)) := by
  constructor
  · intro hzero hwaits
    exact ha.writers hzero hwaits
  · intro hnonneg hnone
    have hserved := ha.readers hnonneg hnone
    rw [State.setSide_side]
    exact hserved

theorem Awake.leave_writer (ha : Awake s) (hr : r ≠ RtErr.eok)
    (hok : s.nwaitwriters = 1 -> 0 ≤ s.refcount -> (s.side Role.reading).Served) :
    Awake (s.setSide Role.writing ((s.side Role.writing).leave t r)) := by
  constructor
  · intro hzero hwaits
    rw [State.setSide_side] at hwaits ⊢
    rcases ha.writers hzero hwaits with ⟨u, hu⟩ | hright
    · have hne : (u, RtErr.eok) ≠ (t, r) := by
        rintro heq
        cases heq
        exact hr rfl
      exact Or.inl ⟨u, (List.mem_erase_of_ne hne).mpr hu⟩
    · exact Or.inr hright
  · intro hnonneg hnone
    unfold State.nwaitwriters at hnone
    rw [State.setSide_side] at hnone
    change (s.side Role.writing).nwait - 1 = 0 at hnone
    refine hok ?_ hnonneg
    unfold State.nwaitwriters
    omega

theorem Side.Ok.roused (hd : d.Ok) (hwrap : d.NoWrap)
    (hwaits : (d.release (pthreadCondSignal d.cond)).waits ≠ []) :
    (d.release (pthreadCondSignal d.cond)).Roused := by
  unfold pthreadCondSignal at hwaits ⊢
  rw [PthreadCond.ready_of_attr hd.attr] at hwaits ⊢
  cases hqueue : d.cond.sem.suspendThread with
  | cons w rest =>
    refine Or.inl ⟨w, ?_⟩
    unfold semRelease
    rw [hqueue]
    exact List.mem_append_right _ List.mem_cons_self
  | nil =>
    right
    unfold semRelease at hwaits ⊢
    rw [hqueue] at hwaits ⊢
    have hbetween : d.between ≠ [] := by
      intro hnone
      apply hwaits
      simp [Side.waits, Side.release, hnone]
    refine ⟨hbetween, ?_⟩
    show 0 < (d.cond.sem.value + 1) % 2 ^ 16
    rw [Nat.mod_eq_of_lt (hwrap hqueue hbetween)]
    omega

theorem Side.Ok.inside_nil (hd : d.Ok) (hnone : ¬0 < d.nwait) : d.inside = [] := by
  have hcount := hd.count
  exact List.length_eq_zero_iff.mp (by omega)

theorem Side.waits_nil (hnone : d.inside = []) : d.waits = [] :=
  (List.append_eq_nil_iff.mp hnone).1

theorem Awake.wakeOthers (hs : Ok s) (h : wakeOthers s t = some s')
    (hok : if 0 < s.nwaitwriters then s.refcount = 0 -> (s.side Role.writing).NoWrap
      else (s.side Role.reading).between.length ≤
        max (s.side Role.reading).cond.sem.value 1) : Awake s' := by
  rw [wakeOthers_eq (hs.side Role.reading)] at h
  cases h
  split
  · next hwriter =>
      rw [if_pos hwriter] at hok
      split
      · next hfree =>
          constructor
          · intro _ hwaits
            rw [State.setSide_side] at hwaits ⊢
            exact (hs.side Role.writing).roused (hok hfree) hwaits
          · intro _ hnone
            unfold State.nwaitwriters at hnone
            rw [State.setSide_side] at hnone
            change s.nwaitwriters = 0 at hnone
            omega
      · next hheld => exact Awake.of_held hheld hwriter
  · next hwriter =>
      rw [if_neg hwriter] at hok
      have hnowriter := Side.waits_nil ((hs.side Role.writing).inside_nil hwriter)
      split
      · constructor
        · intro _ hwaits
          exact absurd hnowriter hwaits
        · intro _ _
          rw [State.setSide_side]
          exact ⟨rfl, hok⟩
      · next hreader =>
          have hnone := Side.waits_nil ((hs.side Role.reading).inside_nil hreader)
          obtain ⟨hbetween, hqueue⟩ := List.append_eq_nil_iff.mp hnone
          constructor
          · intro _ hwaits
            exact absurd hnowriter hwaits
          · intro _ _
            refine ⟨hqueue, ?_⟩
            rw [hbetween]
            exact Nat.zero_le _

theorem refcount_of_giveBack : (giveBack s t).refcount = 0 -> s.refcount ≤ 1 := by
  unfold giveBack
  split
  · intro hzero
    change s.refcount - 1 = 0 at hzero
    omega
  · intro _
    omega

theorem Awake.unlock (hs : Ok s) (ht : t ∈ s.readers ∨ t ∈ s.writers)
    (hok : Heeded s (Op.unlock t)) (h : Rwlock.unlock s t = some (s', o)) : Awake s' := by
  unfold Rwlock.unlock at h
  rw [Option.map_eq_some_iff] at h
  obtain ⟨s1, hothers, heq⟩ := h
  cases heq
  refine Awake.wakeOthers (hs.giveBack ht) hothers ?_
  unfold Heeded at hok
  unfold State.nwaitwriters
  rw [giveBack_side]
  change if 0 < s.nwaitwriters then _ else _
  split
  · next hwriter =>
      simp only [if_pos hwriter] at hok
      exact fun hfree => hok (refcount_of_giveBack hfree)
  · next hwriter =>
      simp only [if_neg hwriter] at hok
      exact hok

theorem Awake.wake {role : Role} (ha : Awake s) (hs : Ok s)
    (ht : (t, r) ∈ (s.side role).woken) (hok : Heeded s (Op.wake role t r time)) :
    Awake (wake s role t r time).1 := by
  have hleft := hs.leave ht
  unfold Rwlock.wake
  simp only
  by_cases hr : r = RtErr.eok
  · rw [if_neg (not_not.mpr (condResult_eq_ok.mpr hr))]
    cases role with
    | reading => exact ha.leave_reader.rdlockLoop t time
    | writing => exact Awake.wrlockLoop hleft.1 t time
  · rw [if_pos (fun h => hr (condResult_eq_ok.mp h))]
    cases role with
    | reading => exact ha.leave_reader
    | writing => exact ha.leave_writer hr (hok hr)

theorem Awake.tryrdlock (ha : Awake s) (t : Tid) : Awake (tryrdlock s t).1 := by
  unfold Rwlock.tryrdlock
  split
  · exact ha
  · exact ha.grant rfl (by simp only; omega) (by simp only; omega)

theorem Awake.trywrlock (ha : Awake s) (t : Tid) : Awake (trywrlock s t).1 := by
  unfold Rwlock.trywrlock
  split
  · exact ha
  · exact Awake.of_writer (show (-1 : Int) < 0 by decide)

theorem Awake.step {op : Op} (ha : Awake s) (hs : Ok s) (hok : Heeded s op)
    (h : stepOutcome s op = some (s', o)) : Awake s' := by
  unfold stepOutcome at h
  cases op with
  | lock role t time =>
    simp only [Option.ite_none_right_eq_some, Option.some.injEq] at h
    obtain ⟨hcall, heq⟩ := h
    have hlock : Awake (lockLoop role s t time).1 := by
      cases role with
      | reading => exact ha.rdlockLoop t time
      | writing => exact Awake.wrlockLoop hs t time
    rw [heq] at hlock
    exact hlock
  | tryrdlock t =>
    simp only [Option.ite_none_right_eq_some, Option.some.injEq] at h
    have hlock := ha.tryrdlock t
    rw [h.2] at hlock
    exact hlock
  | trywrlock t =>
    simp only [Option.ite_none_right_eq_some, Option.some.injEq] at h
    have hlock := ha.trywrlock t
    rw [h.2] at hlock
    exact hlock
  | unlock t =>
    simp only [Option.ite_none_right_eq_some] at h
    exact Awake.unlock hs h.1.2 hok h.2
  | take role t =>
    simp only [Option.ite_none_right_eq_some, Option.some.injEq] at h
    obtain ⟨ht, heq⟩ := h
    cases heq
    exact ha.take ht
  | expire role t =>
    simp only [Option.ite_none_right_eq_some, Option.some.injEq] at h
    obtain ⟨ht, heq⟩ := h
    cases heq
    exact ha.expire ht.1
  | wake role t r time =>
    simp only [Option.ite_none_right_eq_some, Option.some.injEq] at h
    obtain ⟨ht, heq⟩ := h
    have hwake := ha.wake hs ht.1 hok
    rw [heq] at hwake
    exact hwake

theorem Awake.nobody_stranded (ha : Awake s) (hs : Ok s) (hsettled : Settled s) :
    NobodyStranded s := by
  constructor
  · intro hwriters hinside
    have hnonneg : 0 ≤ s.refcount := by
      rcases hs.exclusive with ⟨hcount, _⟩ | ⟨_, _, t, ht⟩
      · omega
      · rw [hwriters] at ht
        cases ht
    have hnone : s.nwaitwriters = 0 := by
      unfold State.nwaitwriters
      rw [(hs.side Role.writing).count, hinside]
      rfl
    obtain ⟨hqueue, hlen⟩ := ha.readers hnonneg hnone
    have hbetween : (s.side Role.reading).between = [] := by
      rcases (hsettled Role.reading).2 with hnil | hzero
      · exact hnil
      · exact List.length_eq_zero_iff.mp (by omega)
    unfold Side.waits
    rw [hbetween, hqueue]
    rfl
  · intro hzero
    by_contra hwaits
    rcases ha.writers hzero hwaits with ⟨t, ht⟩ | ⟨hbetween, hpos⟩
    · exact (hsettled Role.writing).1 _ ht rfl
    · rcases (hsettled Role.writing).2 with hnil | hnone
      · exact hbetween hnil
      · omega

/-- In every run in which each unlock leaves enough tokens for the readers before their
take, no signal wraps the semaphore, and no writer that gives up leaves readers that nobody
wakes: once all that was woken has run, no reader waits without a writer that holds the lock
or waits for it, and no writer waits while the lock is free. -/
theorem rwlock_strands_nobody {ops : List Op}
    (hrun : Run (Guarded Heeded (Graph step)) pthreadRwlockInit ops s)
    (hsettled : Settled s) : NobodyStranded s := by
  have hinv : Ok s ∧ Awake s := by
    apply hrun.invariant (fun s => Ok s ∧ Awake s) ⟨Ok.init, Awake.init⟩
    rintro s op s' ⟨hs, ha⟩ ⟨hok, h⟩
    obtain ⟨⟨s1, o⟩, houtcome, heq⟩ := Option.map_eq_some_iff.mp h
    subst heq
    exact ⟨hs.step houtcome, ha.step hs hok houtcome⟩
  exact hinv.2.nobody_stranded hinv.1 hsettled

instance (d : Side) : Decidable d.NoWrap := inferInstanceAs (Decidable (_ -> _ -> _))

instance (d : Side) : Decidable d.Served := inferInstanceAs (Decidable (_ ∧ _))

instance (s : State) : forall op, Decidable (Heeded s op)
  | Op.unlock _ => inferInstanceAs (Decidable
      (if 0 < s.nwaitwriters then s.refcount ≤ 1 -> (s.side Role.writing).NoWrap
      else (s.side Role.reading).between.length ≤
        max (s.side Role.reading).cond.sem.value 1))
  | Op.wake Role.writing _ _ _ => inferInstanceAs (Decidable (_ -> _ -> _ -> _))
  | Op.wake Role.reading _ _ _ => isTrue trivial
  | Op.lock _ _ _ => isTrue trivial
  | Op.tryrdlock _ => isTrue trivial
  | Op.trywrlock _ => isTrue trivial
  | Op.take _ _ => isTrue trivial
  | Op.expire _ _ => isTrue trivial

/-- A reader and a writer wait for a writer; the unlocks wake one after the other. -/
def writerThenReader : List Op :=
  [Op.lock Role.writing 0 (-1), Op.lock Role.reading 1 (-1), Op.take Role.reading 1,
    Op.lock Role.writing 2 (-1), Op.take Role.writing 2, Op.unlock 0,
    Op.wake Role.writing 2 RtErr.eok (-1), Op.unlock 2, Op.wake Role.reading 1 RtErr.eok (-1)]

theorem rwlock_strands_nobody_writer_then_reader :
    exists s, Run (Guarded Heeded (Graph step)) pthreadRwlockInit writerThenReader s ∧
      NobodyStranded s := by
  obtain ⟨s, hs⟩ : exists s, exec (fun s op => if Heeded s op then step s op else none)
      pthreadRwlockInit writerThenReader = some s := ⟨_, rfl⟩
  have hrun := guarded_run_of_exec hs
  refine ⟨s, hrun, rwlock_strands_nobody hrun ?_⟩
  cases hs
  intro role
  cases role <;> exact ⟨List.forall_mem_nil _, Or.inl rfl⟩

/-- A reader waits behind a writer that waits for another reader and times out. -/
def writerGivesUp : List Op :=
  [Op.lock Role.reading 0 (-1), Op.lock Role.writing 1 5, Op.take Role.writing 1,
    Op.lock Role.reading 2 (-1), Op.take Role.reading 2, Op.expire Role.writing 1,
    Op.wake Role.writing 1 RtErr.etimeout 0]

def twoReadersBetween : List Op :=
  [Op.lock Role.writing 0 (-1), Op.lock Role.reading 1 (-1), Op.lock Role.reading 2 (-1),
    Op.unlock 0, Op.take Role.reading 1, Op.take Role.reading 2,
    Op.wake Role.reading 1 RtErr.eok (-1)]

theorem rwlock_strands_readers :
    (exists s, Run (Graph step) pthreadRwlockInit writerGivesUp s ∧ Settled s ∧
      (s.side Role.reading).waits = [2] ∧ s.writers = [] ∧ s.nwaitwriters = 0 ∧
      ¬NobodyStranded s) ∧
    (exists s, Run (Graph step) pthreadRwlockInit twoReadersBetween s ∧ Settled s ∧
      (s.side Role.reading).waits = [2] ∧ s.writers = [] ∧ s.nwaitwriters = 0 ∧
      ¬NobodyStranded s) := by
  constructor
  · obtain ⟨s, hs⟩ : exists s, exec step pthreadRwlockInit writerGivesUp = some s :=
      ⟨_, rfl⟩
    refine ⟨s, run_of_exec hs, ?_⟩
    cases hs
    refine ⟨?_, rfl, rfl, rfl, fun h => ?_⟩
    · intro role
      cases role <;> exact ⟨List.forall_mem_nil _, Or.inl rfl⟩
    · cases h.1 rfl rfl
  · obtain ⟨s, hs⟩ : exists s, exec step pthreadRwlockInit twoReadersBetween = some s :=
      ⟨_, rfl⟩
    refine ⟨s, run_of_exec hs, ?_⟩
    cases hs
    refine ⟨?_, rfl, rfl, rfl, fun h => ?_⟩
    · intro role
      cases role <;> exact ⟨List.forall_mem_nil _, Or.inl rfl⟩
    · cases h.1 rfl rfl

end RtThread.Pthreads.Rwlock
