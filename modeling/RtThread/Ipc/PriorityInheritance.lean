import RtThread.Ipc.Mutex

/-!
# Priority inheritance

A take that blocks lends its priority to the owner, and the last release gives back the priority
that the mutex remembers from the moment its owner got it. First, when this is the owner's own
priority; then, when no owner is less urgent than a thread that waits for it.
-/

namespace RtThread.Ipc.Mutex

open Kernel
open Function (update_apply)
open Transition

variable {s s' : State} {op : Op} {t : Tid} {m : Mid}

/-!
## The priority a thread gets back
-/

def PriorityBack (s : State) : Prop :=
  forall t, (forall m, (s.mutex m).owner ≠ some t) ->
    (s.thread t).currentPriority = (s.thread t).initPriority

/-- For every mutex: its owner had its own priority when it became the owner. -/
abbrev Calm := Mid -> Bool

def recordCalm (s : State) (_op : Op) (s' : State) (calm : Calm) : Calm :=
  fun m =>
    match (s'.mutex m).owner with
    | none => calm m
    | some t =>
      if (s.mutex m).owner = some t then calm m
      else decide ((s'.thread t).currentPriority =
        (s'.thread t).initPriority)

/-- The last mutex that a thread gives away is one it got with its own
priority. -/
def LastIsCalm (s : State) (calm : Calm) : Op -> Prop
  | Op.release t m =>
    (s.mutex m).owner = some t -> holdDec (s.mutex m).hold = 0 ->
    (forall m', m' ≠ m -> (s.mutex m').owner ≠ some t) -> calm m = true
  | _ => True

/-- What a mutex remembers is its owner's own priority iff the owner had it. -/
def Remembered (s : State) (calm : Calm) : Prop :=
  forall m t, (s.mutex m).owner = some t ->
    (calm m = true <->
      (s.mutex m).originalPriority = (s.thread t).initPriority)

variable {calm : Calm}

theorem Remembered.effect (hr : Remembered s calm) (he : Effect s op s') :
    Remembered s' (recordCalm s op s' calm) := by
  unfold Remembered recordCalm at *
  cases he with
  | nested hidle howner =>
    unfold setError
    grind -linarith [update_apply]
  | acquire hidle hready howner =>
    unfold setError
    grind -linarith [update_apply]
  | refuse hidle howner =>
    unfold setError
    grind -linarith [update_apply]
  | block hidle hready howner hne htime hlinked =>
    unfold threadChangePriority
    grind -linarith [update_apply]
  | takeReturn hready => grind -linarith
  | deny hidle howner =>
    unfold setError
    grind -linarith [update_apply]
  | unnest hidle howner hhold => grind -linarith [update_apply]
  | free hidle hready howner hhold hlist =>
    unfold threadChangePriority
    grind -linarith [update_apply]
  | handOver hidle hready howner hhold hlist hne =>
    unfold threadChangePriority
    grind -linarith [update_apply]
  | timeout hstat =>
    unfold timeout threadTimeout
    grind -linarith [update_apply]

theorem Effect.initPriority (he : Effect s op s') (x : Tid) :
    (s'.thread x).initPriority = (s.thread x).initPriority := by
  cases he with
  | takeReturn hready => rfl
  | unnest hidle howner hhold => rfl
  | timeout hstat =>
    unfold Mutex.timeout threadTimeout
    grind -linarith [update_apply]
  | _ =>
    simp only [setError, threadChangePriority, update_apply]
    grind -linarith

theorem Effect.priority_of_free (he : Effect s op s') {x : Tid}
    (hfree : forall m, (s.mutex m).owner ≠ some x) :
    (s'.thread x).currentPriority = (s.thread x).currentPriority := by
  cases he with
  | takeReturn hready => rfl
  | unnest hidle howner hhold => rfl
  | timeout hstat =>
    unfold Mutex.timeout threadTimeout
    grind -linarith [update_apply]
  | _ =>
    simp only [setError, threadChangePriority, update_apply]
    grind -linarith

theorem Effect.release_of_lost (he : Effect s op s') (howner : (s.mutex m).owner = some t)
    (hlost : (s'.mutex m).owner ≠ some t) :
    op = Op.release t m ∧ holdDec (s.mutex m).hold = 0 := by
  cases he with
  | timeout hstat => exact absurd howner hlost
  | _ =>
    simp only [update_apply] at hlost
    grind -linarith

theorem Effect.last_release (he : Effect s (Op.release t m) s')
    (howner : (s.mutex m).owner = some t)
    (hhold : holdDec (s.mutex m).hold = 0) :
    (s'.mutex m).owner = (s.mutex m).suspendThread.head? ∧
      (s'.mutex m).suspendThread = (s.mutex m).suspendThread.tail ∧
      (forall m', m' ≠ m -> s'.mutex m' = s.mutex m') ∧
      forall x, (s'.thread x).currentPriority =
        if x = t then (s.mutex m).originalPriority
        else (s.thread x).currentPriority := by
  cases he with
  | deny hidle hother => exact absurd howner hother
  | unnest hidle _ hnot => exact absurd hhold hnot
  | free hidle hready _ _ hlist =>
    rw [hlist]
    refine ⟨by simp, by simp [hlist], ?_, ?_⟩
    · intro m' hm
      simp [hm]
    · intro x
      unfold threadChangePriority
      grind -linarith [update_apply]
  | handOver hidle hready _ _ hlist hne =>
    rw [hlist]
    refine ⟨by simp, by simp, ?_, ?_⟩
    · intro m' hm
      simp [hm]
    · intro x
      unfold threadChangePriority
      grind -linarith [update_apply]

theorem Effect.lost_of_last (hc : Consistent s) (he : Effect s (Op.release t m) s')
    (howner : (s.mutex m).owner = some t)
    (hhold : holdDec (s.mutex m).hold = 0) : (s'.mutex m).owner ≠ some t := by
  rw [(he.last_release howner hhold).left]
  intro hhead
  exact (hc.taken m t howner).right (List.mem_of_head? hhead)

theorem PriorityBack.effect (hp : PriorityBack s) (hr : Remembered s calm)
    (hok : LastIsCalm s calm op) (he : Effect s op s') : PriorityBack s' := by
  intro x hfree'
  rw [he.initPriority]
  by_cases hfree : forall m, (s.mutex m).owner ≠ some x
  · rw [he.priority_of_free hfree]
    exact hp x hfree
  · -- the step gave the thread's last mutex away
    rw [not_forall] at hfree
    rcases hfree with ⟨m, hm⟩
    rw [ne_eq, not_not] at hm
    rcases he.release_of_lost hm (hfree' m) with ⟨hop, hhold⟩
    subst hop
    rcases he.last_release hm hhold with ⟨_, _, hothers, hprio⟩
    have hcalm := hok hm hhold (by
      intro m' hne
      rw [← hothers m' hne]
      exact hfree' m')
    rw [hprio, if_pos rfl]
    exact (hr m x hm).mp hcalm

theorem uncalm_breaks (hc : Consistent s) (hr : Remembered s calm) (he : Effect s op s')
    (hok : ¬ LastIsCalm s calm op) : ¬ PriorityBack s' := by
  intro hp
  apply hok
  cases op with
  | take t m time => trivial
  | takeReturn t => trivial
  | timeout t => trivial
  | release t m =>
    intro howner hhold honly
    rcases he.last_release howner hhold with ⟨_, _, hothers, hprio⟩
    have hback := hp t (by
      intro m'
      by_cases hne : m' = m
      · rw [hne]
        exact Effect.lost_of_last hc he howner hhold
      · rw [hothers m' hne]
        exact honly m' hne)
    rw [hprio, if_pos rfl, he.initPriority] at hback
    exact (hr m t howner).mpr hback

/-- In every run in which each thread gives away last a mutex that it got with its own
priority. Any other step that leaves a thread without a mutex leaves it a wrong priority. -/
theorem priority_given_back {s0 s : State} {calm0 calm : Calm} {ops : List Op}
    (hboot : Booted s0)
    (hrun : Run (Guarded (fun w op => LastIsCalm w.1 w.2 op)
      (Graph (watched step recordCalm))) (s0, calm0) ops (s, calm)) :
    PriorityBack s ∧
      forall op s', step s op = some s' ->
        (PriorityBack s' <-> LastIsCalm s calm op) := by
  have hinv : Consistent s ∧ Remembered s calm ∧ PriorityBack s := by
    apply hrun.guarded_watched_invariant
      (fun s calm => Consistent s ∧ Remembered s calm ∧ PriorityBack s)
    · refine ⟨hboot.consistent, ?_, ?_⟩
      · intro m t howner
        rcases hboot.mutex m with ⟨flag, hm⟩
        rw [hm] at howner
        cases howner
      · intro t _
        exact (hboot.thread t).right.left
    · rintro s calm op s' ⟨hc, hr, hp⟩ hok hstep
      have he := step_effect hc hstep
      exact ⟨hc.step hstep, hr.effect he, hp.effect hr hok he⟩
  rcases hinv with ⟨hc, hr, hp⟩
  refine ⟨hp, ?_⟩
  intro op s' hs
  have he := step_effect hc hs
  constructor
  · intro hp'
    by_contra hok
    exact uncalm_breaks hc hr he hok hp'
  · intro hok
    exact hp.effect hr hok he

def twoPriorities : Tid -> Nat
  | 0 => 10
  | _ => 5

def overlapOps : List Op :=
  [Op.take 0 0 0, Op.take 1 0 (-1), Op.take 0 1 0, Op.release 0 0,
    Op.release 0 1]

theorem overlapping_mutexes_keep_boost :
    exists s, Run (Graph step) (bootState twoPriorities IpcFlag.prio)
      overlapOps s ∧ ¬ PriorityBack s := by
  have hfree : forall m, (exec step (bootState twoPriorities IpcFlag.prio)
      overlapOps).map (fun s => ((s.thread 0).currentPriority,
        (s.thread 0).initPriority, decide ((s.mutex m).owner = some 0))) =
      some (5, 10, false) := by
    intro m
    match m with
    | 0 => decide +kernel
    | 1 => decide +kernel
    | _ + 2 => rfl
  cases hexec : exec step (bootState twoPriorities IpcFlag.prio) overlapOps with
  | none =>
    have h0 := hfree 0
    rw [hexec] at h0
    cases h0
  | some s =>
    rw [hexec] at hfree
    exists s
    refine ⟨run_of_exec hexec, ?_⟩
    intro hback
    have hprio := hback 0 (by
      intro m
      have hm := congrArg (fun x => x.2.2) (Option.some.inj (hfree m))
      exact of_decide_eq_false hm)
    have h5 := congrArg (fun x => x.1) (Option.some.inj (hfree 0))
    have h10 := congrArg (fun x => x.2.1) (Option.some.inj (hfree 0))
    simp only at h5 h10
    rw [h5, h10] at hprio
    cases hprio

theorem priority_given_back_after_boost :
    exists s calm, Run (Guarded (fun w op => LastIsCalm w.1 w.2 op)
        (Graph (watched step recordCalm)))
        (bootState twoPriorities IpcFlag.prio, fun _ => false)
        [Op.take 0 0 0, Op.take 1 0 (-1), Op.release 0 0] (s, calm) ∧
      PriorityBack s := by
  let boot : State × Calm :=
    (bootState twoPriorities IpcFlag.prio, fun _ => false)
  let taken := (watched step recordCalm boot (Op.take 0 0 0)).getD boot
  let lent := (watched step recordCalm taken (Op.take 1 0 (-1))).getD boot
  let given := (watched step recordCalm lent (Op.release 0 0)).getD boot
  have hrun : Run (Guarded (fun w op => LastIsCalm w.1 w.2 op)
      (Graph (watched step recordCalm))) boot
      [Op.take 0 0 0, Op.take 1 0 (-1), Op.release 0 0] (given.1, given.2) := by
    have htaken : Run (Guarded (fun w op => LastIsCalm w.1 w.2 op)
        (Graph (watched step recordCalm))) boot [Op.take 0 0 0] taken :=
      Run.snoc Run.nil ⟨trivial, rfl⟩
    have hlent : Run (Guarded (fun w op => LastIsCalm w.1 w.2 op)
        (Graph (watched step recordCalm))) boot
        [Op.take 0 0 0, Op.take 1 0 (-1)] lent :=
      Run.snoc htaken ⟨trivial, rfl⟩
    exact Run.snoc hlent ⟨fun _ _ _ => rfl, rfl⟩
  exact ⟨_, _, hrun, (priority_given_back (bootState_booted _ _) hrun).left⟩

/-!
## The bound on owners
-/

/-- No owner is less urgent than a thread that waits for it. -/
def InheritanceBound (s : State) : Prop :=
  forall m w o, w ∈ (s.mutex m).suspendThread -> (s.mutex m).owner = some o ->
    (s.thread o).currentPriority ≤ (s.thread w).currentPriority

/-- An owner that is lent a priority waits for no less urgent owner; the thread handed a
mutex is as urgent as those that wait for it; and the priority given back at a release as
urgent as those that wait for the thread's other mutexes. -/
def KeepsBound (s : State) : Op -> Prop
  | Op.take t m time =>
    forall o, (s.mutex m).owner = some o -> o ≠ t -> time ≠ 0 ->
      (s.thread t).currentPriority < (s.thread o).currentPriority ->
      forall m' p, o ∈ (s.mutex m').suspendThread ->
        (s.mutex m').owner = some p ->
        (s.thread p).currentPriority ≤ (s.thread t).currentPriority
  | Op.release t m =>
    (s.mutex m).owner = some t -> holdDec (s.mutex m).hold = 0 ->
    (forall w rest, (s.mutex m).suspendThread = w :: rest ->
      forall x, x ∈ rest ->
        (s.thread w).currentPriority ≤ (s.thread x).currentPriority) ∧
    (forall m' x, m' ≠ m -> (s.mutex m').owner = some t ->
      x ∈ (s.mutex m').suspendThread ->
      (s.mutex m).originalPriority ≤ (s.thread x).currentPriority)
  | _ => True

theorem Effect.waits {o : Tid} {time : Int} (he : Effect s (Op.take t m time) s')
    (howner : (s.mutex m).owner = some o) (hne : o ≠ t) (htime : time ≠ 0) :
    (forall m', (s'.mutex m').owner = (s.mutex m').owner) ∧
      (forall m' x, x ∈ (s'.mutex m').suspendThread <->
        x ∈ (s.mutex m').suspendThread ∨ x = t ∧ m' = m) ∧
      forall x, (s'.thread x).currentPriority =
        if x = o then min (s.thread t).currentPriority (s.thread o).currentPriority
        else (s.thread x).currentPriority := by
  cases he with
  | nested hidle hself =>
    rw [howner] at hself
    exact absurd (Option.some.inj hself) hne
  | acquire hidle hready hfree =>
    rw [howner] at hfree
    cases hfree
  | refuse hidle hother => exact absurd rfl htime
  | block hidle hready hother _ _ hlinked =>
    rw [howner] at hother
    cases hother
    refine ⟨?_, ?_, ?_⟩
    · intro m'
      grind -linarith [update_apply]
    · intro m' x
      grind -linarith [update_apply, mem_suspendInto]
    · intro x
      unfold threadChangePriority
      grind -linarith [update_apply]

theorem bound_iff_of_waits (hc : Consistent s) (hb : InheritanceBound s)
    {o : Tid} {time : Int} (he : Effect s (Op.take t m time) s')
    (howner : (s.mutex m).owner = some o) (hne : o ≠ t) (htime : time ≠ 0) :
    InheritanceBound s' <-> KeepsBound s (Op.take t m time) := by
  rcases he.waits howner hne htime with ⟨howners, hlists, hprio⟩
  constructor
  · intro hb' o' ho' _ _ hlt m' p hin hp
    rw [howner] at ho'
    cases ho'
    have hpo : p ≠ o := by
      intro heq
      subst heq
      exact (hc.taken m' p hp).right hin
    have hle := hb' m' o p ((hlists m' o).mpr (Or.inl hin)) (by rw [howners, hp])
    rw [hprio p, hprio o, if_neg hpo, if_pos rfl] at hle
    exact Nat.le_trans hle (Nat.min_le_left ..)
  · intro hok m' x p hin hp
    rw [howners] at hp
    rw [hprio p, hprio x]
    rcases (hlists m' x).mp hin with hold | ⟨hx, hm⟩
    · -- a thread that waited before; the owner lent to may be on either side
      have hle := hb m' x p hold hp
      have hpx : p ≠ x := by
        intro heq
        subst heq
        exact (hc.taken m' p hp).right hold
      by_cases hpo : p = o
      · rw [if_pos hpo, if_neg (fun hxo => hpx (hpo.trans hxo.symm)), ← hpo]
        exact Nat.le_trans (Nat.min_le_right ..) hle
      · rw [if_neg hpo]
        by_cases hxo : x = o
        · subst hxo
          rw [if_pos rfl]
          apply Nat.le_min.mpr
          refine ⟨?_, hle⟩
          by_cases hlt : (s.thread t).currentPriority < (s.thread x).currentPriority
          · exact hok x howner hne htime hlt m' p hold hp
          · exact Nat.le_trans hle (Nat.le_of_not_lt hlt)
        · rw [if_neg hxo]
          exact hle
    · subst hx
      subst hm
      rw [howner] at hp
      cases hp
      rw [if_pos rfl, if_neg (Ne.symm hne)]
      exact Nat.min_le_left ..

theorem bound_iff_of_last (hc : Consistent s) (hb : InheritanceBound s)
    (he : Effect s (Op.release t m) s')
    (hready : (s.thread t).stat = ThreadStat.ready)
    (howner : (s.mutex m).owner = some t)
    (hhold : holdDec (s.mutex m).hold = 0) :
    InheritanceBound s' <-> KeepsBound s (Op.release t m) := by
  rcases he.last_release howner hhold with ⟨hnew, hrest, hothers, hprio⟩
  have hnot : forall m' x, x ∈ (s.mutex m').suspendThread -> x ≠ t := by
    intro m' x hin heq
    subst heq
    have hstat := ((hc.blocked m' x).mp hin).left
    rw [hready] at hstat
    cases hstat
  constructor
  · intro hb' _ _
    constructor
    · intro w rest hlist x hx
      rw [hlist] at hnew hrest
      have hw := hnot m w (by rw [hlist]; exact List.mem_cons_self)
      have hxt := hnot m x (by rw [hlist]; exact List.mem_cons_of_mem w hx)
      have hle := hb' m x w (by rw [hrest]; exact hx) hnew
      rwa [hprio w, hprio x, if_neg hw, if_neg hxt] at hle
    · intro m' x hm hm' hin
      have hle := hb' m' x t (by rw [hothers m' hm]; exact hin) (by rw [hothers m' hm]; exact hm')
      rwa [hprio t, hprio x, if_pos rfl, if_neg (hnot m' x hin)] at hle
  · intro hok m' x o hin ho
    rcases hok howner hhold with ⟨hheadOk, hothersOk⟩
    rw [hprio o, hprio x]
    by_cases hm : m' = m
    · subst hm
      rw [hnew] at ho
      rw [hrest] at hin
      cases hlist : (s.mutex m').suspendThread with
      | nil =>
        rw [hlist] at ho
        cases ho
      | cons w rest =>
        rw [hlist] at ho hin
        have hwo : w = o := Option.some.inj ho
        subst hwo
        have hw := hnot m' w (by rw [hlist]; exact List.mem_cons_self)
        have hxt := hnot m' x (by rw [hlist]; exact List.mem_cons_of_mem w hin)
        rw [if_neg hw, if_neg hxt]
        exact hheadOk w rest hlist x hin
    · rw [hothers m' hm] at hin ho
      rw [if_neg (hnot m' x hin)]
      by_cases hot : o = t
      · subst hot
        rw [if_pos rfl]
        exact hothersOk m' x hm ho hin
      · rw [if_neg hot]
        exact hb m' x o hin ho

theorem bound_iff_keepsBound (hc : Consistent s) (hb : InheritanceBound s)
    (he : Effect s op s') : InheritanceBound s' <-> KeepsBound s op := by
  have howned := hc.owned
  cases he with
  | nested hidle howner =>
    unfold InheritanceBound KeepsBound setError at *
    grind -linarith [update_apply]
  | acquire hidle hready howner =>
    unfold InheritanceBound KeepsBound setError at *
    grind -linarith [update_apply]
  | refuse hidle howner =>
    unfold InheritanceBound KeepsBound setError at *
    grind -linarith [update_apply]
  | block hidle hready howner hne htime hlinked =>
    exact bound_iff_of_waits hc hb
      (Effect.block hidle hready howner hne htime hlinked) howner hne htime
  | takeReturn hready => exact iff_of_true hb trivial
  | deny hidle howner =>
    unfold InheritanceBound KeepsBound setError at *
    grind -linarith [update_apply]
  | unnest hidle howner hhold =>
    unfold InheritanceBound KeepsBound at *
    grind -linarith [update_apply]
  | free hidle hready howner hhold hlist =>
    exact bound_iff_of_last hc hb (Effect.free hidle hready howner hhold hlist) hready howner hhold
  | handOver hidle hready howner hhold hlist hne =>
    exact bound_iff_of_last hc hb
      (Effect.handOver hidle hready howner hhold hlist hne) hready howner
      hhold
  | timeout hstat =>
    unfold InheritanceBound KeepsBound timeout threadTimeout at *
    grind -linarith [update_apply, List.mem_of_mem_erase]

/-- In every run whose steps meet the condition; the first step that does not
meet it breaks the bound. -/
theorem priority_inheritance_bound {s0 s : State} {ops : List Op}
    (hboot : Booted s0)
    (hrun : Run (Guarded KeepsBound (Graph step)) s0 ops s) :
    InheritanceBound s ∧
      forall op s', step s op = some s' ->
        (InheritanceBound s' <-> KeepsBound s op) := by
  have hinv : Consistent s ∧ InheritanceBound s := by
    apply hrun.invariant (fun s => Consistent s ∧ InheritanceBound s)
    · refine ⟨hboot.consistent, ?_⟩
      intro m w o _ howner
      rcases hboot.mutex m with ⟨flag, hm⟩
      rw [hm] at howner
      cases howner
    · intro s op s' hs hstep
      rcases hs with ⟨hc, hb⟩
      rcases hstep with ⟨hok, hstep⟩
      exact ⟨hc.step hstep,
        (bound_iff_keepsBound hc hb (step_effect hc hstep)).mpr hok⟩
  rcases hinv with ⟨hc, hb⟩
  refine ⟨hb, ?_⟩
  intro op s' hs
  exact bound_iff_keepsBound hc hb (step_effect hc hs)

def threePriorities : Tid -> Nat
  | 0 => 10
  | 1 => 20
  | _ => 15

theorem fifo_hand_over_breaks_bound :
    exists s, Run (Graph step) (bootState threePriorities IpcFlag.fifo)
        [Op.take 0 0 0, Op.take 1 0 (-1), Op.take 2 0 (-1), Op.release 0 0] s ∧
      ¬ InheritanceBound s := by
  have hexec : (exec step (bootState threePriorities IpcFlag.fifo)
      [Op.take 0 0 0, Op.take 1 0 (-1), Op.take 2 0 (-1), Op.release 0 0]).map
      (fun s => ((s.mutex 0).owner, (s.mutex 0).suspendThread,
        (s.thread 1).currentPriority, (s.thread 2).currentPriority)) =
      some (some 1, [2], 20, 15) := by
    decide +kernel
  rw [Option.map_eq_some_iff] at hexec
  rcases hexec with ⟨s, hexec, hdata⟩
  rw [Prod.mk.injEq, Prod.mk.injEq, Prod.mk.injEq] at hdata
  rcases hdata with ⟨howner, hlist, h1, h2⟩
  refine ⟨s, run_of_exec hexec, ?_⟩
  intro hb
  have hle := hb 0 2 1 (by rw [hlist]; exact List.mem_singleton_self 2) howner
  rw [h1, h2] at hle
  exact absurd hle (by decide)

theorem priority_inheritance_bound_lent :
    exists s, Run (Guarded KeepsBound (Graph step))
        (bootState twoPriorities IpcFlag.fifo)
        [Op.take 0 0 0, Op.take 1 0 (-1)] s ∧
      (s.thread 0).currentPriority = 5 ∧ InheritanceBound s := by
  let boot := bootState twoPriorities IpcFlag.fifo
  let taken := (step boot (Op.take 0 0 0)).getD boot
  let lent := (step taken (Op.take 1 0 (-1))).getD boot
  have hrun : Run (Guarded KeepsBound (Graph step)) boot
      [Op.take 0 0 0, Op.take 1 0 (-1)] lent := by
    have htake : KeepsBound boot (Op.take 0 0 0) := by
      intro o howner
      cases howner
    have hlend : KeepsBound taken (Op.take 1 0 (-1)) := by
      intro o howner _ _ _ m' p hin
      cases howner
      have hnil : forall m', (taken.mutex m').suspendThread = [] := by
        intro m'
        cases m' with
        | zero => rfl
        | succ n => rfl
      rw [hnil m'] at hin
      cases hin
    have htaken : Run (Guarded KeepsBound (Graph step)) boot [Op.take 0 0 0]
        taken := Run.snoc Run.nil ⟨htake, rfl⟩
    exact Run.snoc htaken ⟨hlend, rfl⟩
  exact ⟨lent, hrun, rfl,
    (priority_inheritance_bound (bootState_booted _ _) hrun).left⟩

end RtThread.Ipc.Mutex
