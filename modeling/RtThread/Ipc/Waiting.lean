import RtThread.Kernel.SchedulerSafety

/-!
# Blocked threads

What an IPC object sees of a thread: its state, its priorities, its error number and whether its
timer is running. The operations are those of `thread.c` on that view, and the list operations of
`ipc.c`. Which ready thread runs next is left open, so results about this level hold for every
interleaving. The last section proves that the operations are the effect of the scheduler's own on
the view.
-/

namespace RtThread.Ipc

open Kernel
open Function (update update_idem update_of_ne update_self)

structure WaitThread where
  stat : ThreadStat
  currentPriority : Nat
  initPriority : Nat
  error : RtErr
  timerLinked : Bool
deriving DecidableEq, Repr

abbrev Threads := Tid -> WaitThread

inductive IpcFlag where
  | fifo
  | prio
deriving DecidableEq, Repr

/-!
## Operations on threads
-/

def threadSuspend (v : Threads) (t : Tid) : Threads :=
  if (v t).stat ≠ ThreadStat.ready then v
  else Function.update v t
    { v t with stat := ThreadStat.suspend, timerLinked := false }

def threadResume (v : Threads) (t : Tid) : Threads :=
  if (v t).stat ≠ ThreadStat.suspend then v
  else Function.update v t
    { v t with stat := ThreadStat.ready, timerLinked := false }

/-- `rt_thread_control` with `RT_THREAD_CTRL_CHANGE_PRIORITY` -/
def threadChangePriority (v : Threads) (t : Tid) (p : Nat) : Threads :=
  Function.update v t { v t with currentPriority := p }

def setError (v : Threads) (t : Tid) (e : RtErr) : Threads :=
  Function.update v t { v t with error := e }

def startTimer (v : Threads) (t : Tid) : Threads :=
  Function.update v t { v t with timerLinked := true }

/-- `rt_timer_check` reaching the timer of a blocked thread: `rt_thread_timeout`
makes the thread ready with a timeout error. -/
def threadTimeout (v : Threads) (t : Tid) : Threads :=
  Function.update v t
    { v t with
      stat := ThreadStat.ready, error := RtErr.etimeout, timerLinked := false }

/-!
## Suspend lists
-/

/-- The search of `rt_ipc_list_suspend` for `RT_IPC_FLAG_PRIO`: before the first
thread that is less urgent. -/
def insertByPriority (v : Threads) (t : Tid) : List Tid -> List Tid
  | [] => [t]
  | x :: rest =>
    if (v t).currentPriority < (v x).currentPriority then t :: x :: rest
    else x :: insertByPriority v t rest

/-- The new suspend list of `rt_ipc_list_suspend`. -/
def suspendInto (v : Threads) (flag : IpcFlag) (t : Tid) (l : List Tid) :
    List Tid :=
  match flag with
  | IpcFlag.fifo => l ++ [t]
  | IpcFlag.prio => insertByPriority v t l

/-- `rt_ipc_list_resume`, called for non-empty lists only. The first thread leaves the list
when `rt_thread_resume` finds it suspended. -/
def listResume (v : Threads) : List Tid -> Threads × List Tid
  | [] => (v, [])
  | t :: rest =>
    (threadResume v t,
      if (v t).stat = ThreadStat.suspend then rest else t :: rest)

/-- The loop of `rt_ipc_list_resume_all`.  It does not end when a listed thread
is not suspended. -/
def listResumeAll : Threads -> List Tid -> Option Threads
  | v, [] => some v
  | v, t :: rest =>
    if (v t).stat = ThreadStat.suspend then
      listResumeAll (threadResume (setError v t RtErr.error) t) rest
    else none

/-- The timeout that is left after `delta` ticks, as the waiting loops compute it
in 32 bits. -/
def timeoutLeft (timeout : Int) (delta : Nat) : Int :=
  if 0 < timeout then
    let left := (timeout - delta).bmod (2 ^ 32)
    if left < 0 then 0 else left
  else timeout

/-- The suspension of a waiting loop. The timer is started when the thread does not wait
forever, for a period that `rt_timer_start` accepts. -/
def suspendFor (v : Threads) (t : Tid) (timeout : Int) : Option Threads :=
  let v := threadSuspend v t
  if 0 < timeout then
    if timeout.toNat < rtTickMax / 2 then some (startTimer v t) else none
  else some v

variable {v : Threads} {x : Tid} {l : List Tid} {e : RtErr}

theorem mem_insertByPriority {t : Tid} : x ∈ insertByPriority v t l <-> x = t ∨ x ∈ l := by
  induction l with
  | nil => simp [insertByPriority]
  | cons y rest ih =>
    unfold insertByPriority
    split
    · simp
    · rw [List.mem_cons, List.mem_cons, ih]
      tauto

theorem nodup_insertByPriority {t : Tid} (hl : l.Nodup) (ht : t ∉ l) :
    (insertByPriority v t l).Nodup := by
  induction l with
  | nil => simp [insertByPriority]
  | cons y rest ih =>
    unfold insertByPriority
    rw [List.nodup_cons] at hl
    rw [List.mem_cons, not_or] at ht
    split
    · rw [List.nodup_cons, List.nodup_cons, List.mem_cons, not_or]
      exact ⟨ht, hl⟩
    · rw [List.nodup_cons, mem_insertByPriority, not_or]
      exact ⟨⟨Ne.symm ht.left, hl.left⟩, ih hl.right ht.right⟩

theorem mem_suspendInto {flag : IpcFlag} {t : Tid} :
    x ∈ suspendInto v flag t l <-> x = t ∨ x ∈ l := by
  cases flag with
  | fifo =>
    unfold suspendInto
    simp [or_comm]
  | prio => exact mem_insertByPriority

theorem nodup_suspendInto {flag : IpcFlag} {t : Tid} (hl : l.Nodup) (ht : t ∉ l) :
    (suspendInto v flag t l).Nodup := by
  cases flag with
  | fifo =>
    unfold suspendInto
    rw [List.nodup_append]
    refine ⟨hl, by simp, ?_⟩
    intro a ha b hb hab
    rw [List.mem_singleton] at hb
    subst hab
    subst hb
    exact ht ha
  | prio => exact nodup_insertByPriority hl ht

theorem length_erase_add (l : List Tid) (t : Tid) :
    (l.erase t).length + (if t ∈ l then 1 else 0) = l.length := by
  rw [List.length_erase]
  split
  · rename_i hin
    exact Nat.sub_add_cancel (List.length_pos_of_mem hin)
  · rfl

/-!
## Resuming and suspending
-/

theorem listResume_cons {t : Tid} (hstat : (v t).stat = ThreadStat.suspend) :
    listResume v (t :: l) = (update v t
      { v t with stat := ThreadStat.ready, timerLinked := false }, l) := by
  have hresume : threadResume v t = update v t
      { v t with stat := ThreadStat.ready, timerLinked := false } := by
    unfold threadResume
    rw [if_neg (by simp [hstat])]
  simp only [listResume, hresume, if_pos hstat]

theorem setError_stat {t : Tid} : (setError v t e x).stat = (v x).stat := by
  unfold setError
  by_cases hx : x = t
  · rw [hx, update_self]
  · rw [update_of_ne hx]

theorem setError_timerLinked {t : Tid} : (setError v t e x).timerLinked = (v x).timerLinked := by
  unfold setError
  by_cases hx : x = t
  · rw [hx, update_self]
  · rw [update_of_ne hx]

theorem setError_of_ne {t : Tid} (hne : x ≠ t) : setError v t e x = v x :=
  update_of_ne hne _ _

theorem setError_setError {t : Tid} {e' : RtErr} :
    setError (setError v t e) t e' = setError v t e' := by
  unfold setError
  rw [update_self, update_idem]

theorem suspendFor_eq {v' : Threads} {t : Tid} {timeout : Int}
    (hready : (v t).stat = ThreadStat.ready)
    (hs : suspendFor v t timeout = some v') :
    exists linked, v' = update v t
      { v t with stat := ThreadStat.suspend, timerLinked := linked } := by
  unfold suspendFor at hs
  have hsuspend : threadSuspend v t = update v t
      { v t with stat := ThreadStat.suspend, timerLinked := false } := by
    unfold threadSuspend
    rw [if_neg (by simp [hready])]
  simp only [hsuspend] at hs
  split at hs
  · split at hs
    · cases hs
      exists true
      unfold startTimer
      rw [update_idem, update_self]
    · cases hs
  · cases hs
    exists false

theorem listResumeAll_eq {v' : Threads} (hl : l.Nodup)
    (hs : listResumeAll v l = some v') (x : Tid) :
    v' x = if x ∈ l then
        { v x with
          stat := ThreadStat.ready, error := RtErr.error, timerLinked := false }
      else v x := by
  induction l generalizing v with
  | nil =>
    cases hs
    rfl
  | cons y rest ih =>
    unfold listResumeAll at hs
    rw [List.nodup_cons] at hl
    split at hs
    · rename_i hstat
      have hresume : threadResume (setError v y RtErr.error) y = update v y { v y with
            stat := ThreadStat.ready
            error := RtErr.error
            timerLinked := false } := by
        unfold threadResume setError
        rw [update_self, if_neg (by simp [hstat]), update_idem]
      rw [hresume] at hs
      rw [ih hl.right hs]
      by_cases hx : x = y
      · subst hx
        rw [if_neg hl.left, update_self, if_pos List.mem_cons_self]
      · rw [update_of_ne hx]
        simp [hx]
    · cases hs

/-!
## The view of a scheduler state
-/

/-- The view of all thread control blocks of a scheduler state. -/
def viewOf (k : Kernel.State) : Threads := fun t =>
  { stat := (k.thread t).stat
    currentPriority := (k.thread t).currentPriority
    initPriority := (k.thread t).initPriority
    error := (k.thread t).error
    timerLinked := (k.thread t).timer.linked }

section View

variable {cfg : Config} {k k' : Kernel.State}
  {lists : ListHead -> List Tid} {t : Tid}

theorem viewOf_update {th : Thread} (hthread : k'.thread = update k.thread t th) :
    viewOf k' = update (viewOf k) t
      { stat := th.stat, currentPriority := th.currentPriority,
        initPriority := th.initPriority, error := th.error, timerLinked := th.timer.linked } := by
  funext x
  unfold viewOf
  rw [hthread]
  by_cases hx : x = t
  · subst hx
    rw [update_self, update_self]
  · rw [update_of_ne hx, update_of_ne hx]

theorem insert_thread (hins : rtScheduleInsertThread cfg k t = some k') :
    k'.thread = update k.thread t { k.thread t with stat := ThreadStat.ready } := by
  unfold rtScheduleInsertThread at hins
  simp only at hins
  split at hins
  · cases hins
    unfold setPriorityMask
    split <;> rfl
  · cases hins

theorem viewOf_suspend (hc : Consistent cfg k lists) {e : RtErr}
    (hs : rtThreadSuspend cfg k t = some (k', e)) :
    viewOf k' = threadSuspend (viewOf k) t := by
  unfold rtThreadSuspend at hs
  unfold threadSuspend
  simp only at hs
  split at hs
  · rename_i hstat
    rw [if_pos (show (viewOf k t).stat ≠ ThreadStat.ready from hstat)]
    cases hs
    rfl
  · rename_i hstat
    rw [if_neg (show ¬ (viewOf k t).stat ≠ ThreadStat.ready from hstat)]
    rw [Option.map_eq_some_iff] at hs
    rcases hs with ⟨k1, hrem, hk⟩
    cases hk
    have htimer := (hc.threadOk t).timer
    have hthread : (k1.setThread t { k1.thread t with
        timer := rtTimerStop (k1.thread t).timer }).thread =
        update k.thread t { k.thread t with
          stat := ThreadStat.suspend
          timer := rtTimerStop (k.thread t).timer } := by
      rw [remove_thread hrem, setThread_self]
      show update k1.thread t _ = _
      rw [remove_thread hrem]
      exact update_idem ..
    rw [viewOf_update hthread]
    congr 1
    simp only [viewOf, WaitThread.mk.injEq, true_and]
    exact rtTimerStop_linked fun hlinked => (htimer hlinked).right

theorem viewOf_resume (hc : Consistent cfg k lists) {e : RtErr}
    (hs : rtThreadResume cfg k t = some (k', e)) :
    viewOf k' = threadResume (viewOf k) t := by
  unfold rtThreadResume at hs
  unfold threadResume
  simp only at hs
  split at hs
  · rename_i hstat
    rw [if_pos (show (viewOf k t).stat ≠ ThreadStat.suspend from hstat)]
    cases hs
    rfl
  · rename_i hstat
    rw [if_neg (show ¬ (viewOf k t).stat ≠ ThreadStat.suspend from hstat)]
    rw [Option.map_eq_some_iff] at hs
    rcases hs with ⟨k1, hins, hk⟩
    cases hk
    have htimer := (hc.threadOk t).timer
    have hthread : k'.thread = update k.thread t { k.thread t with
        stat := ThreadStat.ready
        timer := rtTimerStop (k.thread t).timer } := by
      rw [insert_thread hins, setThread_self]
      exact update_idem ..
    rw [viewOf_update hthread]
    congr 1
    simp only [viewOf, WaitThread.mk.injEq, true_and]
    exact rtTimerStop_linked fun hlinked => (htimer hlinked).right

theorem viewOf_changePriority {p : Nat} (hs : rtThreadChangePriority cfg k t p = some k') :
    viewOf k' = threadChangePriority (viewOf k) t p := by
  have hattr : forall th : Thread, (priorityAttribute cfg th).initPriority = th.initPriority ∧
      (priorityAttribute cfg th).error = th.error := by
    intro th
    unfold priorityAttribute
    split <;> exact ⟨rfl, rfl⟩
  unfold rtThreadChangePriority at hs
  unfold threadChangePriority
  split at hs
  · rename_i hstat
    cases hrem : rtScheduleRemoveThread cfg k t with
    | none =>
      rw [hrem] at hs
      cases hs
    | some k1 =>
      rw [hrem] at hs
      have hins := insert_thread hs
      rw [setThread_self, remove_thread hrem] at hins
      have hthread : k'.thread = update k.thread t
          { priorityAttribute cfg { k.thread t with currentPriority := p } with
            stat := ThreadStat.ready } := by
        rw [hins]
        show update (update k1.thread t _) t _ = _
        rw [remove_thread hrem, update_idem]
      rw [viewOf_update hthread]
      simp [viewOf, hattr, hstat, priorityAttribute_timer, priorityAttribute_currentPriority]
  · cases hs
    rw [viewOf_update (k := k) (t := t) rfl]
    simp [viewOf, hattr, priorityAttribute_timer, priorityAttribute_stat,
      priorityAttribute_currentPriority]

theorem viewOf_timeout (hs : rtTimerCheckThread cfg k t = some k') :
    viewOf k' = threadTimeout (viewOf k) t := by
  unfold rtTimerCheckThread rtThreadTimeout at hs
  unfold threadTimeout
  simp only at hs
  split at hs
  · split at hs
    · cases hs
    · rename_i k1 htimeout
      cases hs
      split at htimeout
      · split at htimeout
        · cases htimeout
        · rename_i k2 hins
          have hwoken := schedule_thread htimeout
          rw [insert_thread hins] at hwoken
          funext x
          by_cases hx : x = t
          · subst hx
            simp [viewOf, State.setThread, hwoken]
          · simp [viewOf, State.setThread, hwoken, hx]
      · cases htimeout
  · cases hs

theorem viewOf_schedule (hs : rtSchedule cfg k = some k') : viewOf k' = viewOf k := by
  unfold viewOf
  rw [schedule_thread hs]

theorem viewOf_yield (hs : rtThreadYield cfg k = some k') : viewOf k' = viewOf k := by
  unfold rtThreadYield at hs
  split at hs
  · cases hs
  · simp only at hs
    split at hs
    · split at hs
      · have hview := viewOf_schedule hs
        exact hview
      · cases hs
    · cases hs
      rfl

end View

/-!
## Runs of the scheduler, seen from the objects
-/

/-- What a call of the scheduler does to the view. -/
def viewStep (v : Threads) : Kernel.Op -> Threads
  | Kernel.Op.suspend t => threadSuspend v t
  | Kernel.Op.resume t => threadResume v t
  | Kernel.Op.changePriority t p => threadChangePriority v t p
  | Kernel.Op.timeout t => threadTimeout v t
  | _ => v

/-- The calls that the objects make or that leave the view alone: no thread starts, sleeps
or ends. -/
def Viewed : Kernel.Op -> Prop
  | Kernel.Op.startup _ | Kernel.Op.sleep _ | Kernel.Op.sleepReturn | Kernel.Op.exit => False
  | _ => True

section Refinement

variable {cfg : Config} {k0 k k' : Kernel.State} {lists : ListHead -> List Tid}

theorem viewOf_step {op : Kernel.Op} (hc : Consistent cfg k lists) (hop : Viewed op)
    (hs : Kernel.step cfg k op = some k') : viewOf k' = viewStep (viewOf k) op := by
  cases op with
  | startup t => exact absurd hop id
  | sleep tick => exact absurd hop id
  | sleepReturn => exact absurd hop id
  | exit => exact absurd hop id
  | suspend t =>
    simp only [Kernel.step] at hs
    split at hs
    · rcases Option.map_eq_some_iff.mp hs with ⟨res, hres, rfl⟩
      exact viewOf_suspend hc hres
    · cases hs
  | resume t =>
    simp only [Kernel.step] at hs
    split at hs
    · rcases Option.map_eq_some_iff.mp hs with ⟨res, hres, rfl⟩
      exact viewOf_resume hc hres
    · cases hs
  | changePriority t p =>
    simp only [Kernel.step] at hs
    split at hs
    · exact viewOf_changePriority hs
    · cases hs
  | timeout t => exact viewOf_timeout hs
  | yield =>
    simp only [Kernel.step] at hs
    split at hs
    · exact viewOf_yield hs
    · cases hs
  | schedulerStart =>
    simp only [Kernel.step, rtSystemSchedulerStart] at hs
    split at hs
    · cases hs
    · split at hs
      · cases hs
      · cases hs
        rfl
  | schedule => exact viewOf_schedule hs
  | enterCritical =>
    cases hs
    rfl
  | exitCritical =>
    simp only [Kernel.step, rtExitCritical] at hs
    split at hs
    · have hview := viewOf_schedule hs
      exact hview
    · cases hs
      rfl

/-- From every state of a scheduler run on, the calls that the objects make change the view
of the control blocks as the operations on views do, and those that only choose the running
thread do not change it. -/
theorem scheduler_refines_view {ops more : List Kernel.Op} (hboot : Booted cfg k0)
    (hrun : Transition.Run (Transition.Graph (Kernel.step cfg)) k0 ops k)
    (hmore : Transition.Run (Transition.Guarded (fun _ op => Viewed op)
      (Transition.Graph (Kernel.step cfg))) k more k') :
    viewOf k' = more.foldl viewStep (viewOf k) := by
  have hinv : exists lists, Consistent cfg k lists :=
    hrun.invariant (fun s => exists lists, Consistent cfg s lists) ⟨_, hboot.consistent⟩
      fun _ _ _ hex hs => hex.elim fun _ hc => hc.step hs
  have hboth : (exists lists, Consistent cfg k' lists) ∧
      viewOf k' = more.foldl viewStep (viewOf k) := by
    induction hmore with
    | nil => exact ⟨hinv, rfl⟩
    | snoc _ hstep ih =>
      rcases ih with ⟨⟨lists, hc⟩, hview⟩
      refine ⟨hc.step hstep.right, ?_⟩
      rw [viewOf_step hc hstep.left hstep.right, hview, List.foldl_append]
      rfl
  exact hboth.right

end Refinement

/-- A thread waits with a timeout, one is resumed, and the first times out. -/
theorem scheduler_refines_view_timeout :
    exists k k', Transition.Run (Transition.Graph (Kernel.step tableConfig)) Kernel.bootState
        [Kernel.Op.startup 1, Kernel.Op.startup 0, Kernel.Op.schedulerStart,
          Kernel.Op.sleep 5] k ∧
      Transition.Run (Transition.Guarded (fun _ op => Viewed op)
        (Transition.Graph (Kernel.step tableConfig))) k
        [Kernel.Op.suspend 1, Kernel.Op.resume 1, Kernel.Op.timeout 0] k' ∧
      viewOf k' = threadTimeout (threadResume (threadSuspend (viewOf k) 1) 1) 0 := by
  have hexec : ((Transition.exec (Kernel.step tableConfig) Kernel.bootState
      [Kernel.Op.startup 1, Kernel.Op.startup 0, Kernel.Op.schedulerStart,
        Kernel.Op.sleep 5]).bind fun k => Transition.exec (Kernel.step tableConfig) k
          [Kernel.Op.suspend 1, Kernel.Op.resume 1, Kernel.Op.timeout 0]).isSome = true := by
    decide +kernel
  rcases Option.isSome_iff_exists.mp hexec with ⟨k', hk'⟩
  rcases Option.bind_eq_some_iff.mp hk' with ⟨k, hk, hmore⟩
  have hrun := Transition.run_of_exec hk
  have hviewed : forall (s : Kernel.State) a,
      a ∈ [Kernel.Op.suspend 1, Kernel.Op.resume 1, Kernel.Op.timeout 0] -> Viewed a := by
    intro s a ha
    simp only [List.mem_cons, List.not_mem_nil, or_false] at ha
    rcases ha with rfl | rfl | rfl
    · trivial
    · trivial
    · trivial
  have hguarded := Transition.Run.guard hviewed (Transition.run_of_exec hmore)
  exact ⟨k, k', hrun, hguarded, scheduler_refines_view bootState_booted hrun hguarded⟩

end RtThread.Ipc
