import RtThread.Pthreads.Rwlock

/-!
# Destroying a read-write lock

`pthread_rwlock_destroy` of an initialised lock between the critical sections of the other
calls, when nobody holds `rw_mutex`.
-/

namespace RtThread.Pthreads.Rwlock

open Ipc Ipc.Semaphore Kernel Transition

def pthreadCondDestroy (c : PthreadCond) (t : Tid) : PthreadCond × Errno :=
  if c.attr = -1 then (c, Errno.ok)
  else
    match (semTake c.sem t 0).2 with
    | Take.taken => ({ attr := -1, sem := rtSemInit 0 IpcFlag.fifo }, Errno.ok)
    | _ => (c, Errno.ebusy)

/-- The call's result, the lock, and the owner and the attribute of `rw_mutex` afterwards. -/
structure Destroyed where
  result : Errno
  lock : State
  owner : Option Tid
  attr : Int

def State.setCond (s : State) (role : Role) (c : PthreadCond) : State :=
  s.setSide role { s.side role with cond := c }

/-- `rt_sem_release` of a condition of the lock. -/
def State.releaseSem (s : State) (role : Role) : State :=
  let c := (s.side role).cond
  let released := semRelease c.sem
  s.setSide role ((s.side role).release ({ c with sem := released.1 }, released.2))

def destroyIdle (s : State) (t : Tid) : Errno × State :=
  let readers := (s.side Role.reading).cond
  let taken := semTake readers.sem t 0
  match taken.2 with
  | Take.taken =>
    let s := s.setCond Role.reading { readers with sem := taken.1 }
    let writers := (s.side Role.writing).cond
    let taken := semTake writers.sem t 0
    match taken.2 with
    | Take.taken =>
      let s := (s.setCond Role.writing { writers with sem := taken.1 }).releaseSem Role.reading
      let s := s.releaseSem Role.writing
      let s := s.setCond Role.reading (pthreadCondDestroy (s.side Role.reading).cond t).1
      (Errno.ok, s.setCond Role.writing (pthreadCondDestroy (s.side Role.writing).cond t).1)
    | _ => (Errno.ebusy, s.releaseSem Role.reading)
  | _ => (Errno.ebusy, s)

/-- `pthread_rwlock_destroy`; the first branch returns with `rw_mutex` locked. -/
def pthreadRwlockDestroy (s : State) (t : Tid) : Destroyed :=
  if s.refcount ≠ 0 ∨ s.nwaitreaders ≠ 0 ∨ s.nwaitwriters ≠ 0 then
    { result := Errno.ebusy, lock := s, owner := some t, attr := 0 }
  else
    let r := destroyIdle s t
    { result := r.1, lock := r.2, owner := none, attr := if r.1 = Errno.ok then -1 else 0 }

/-- No thread holds the lock or waits for it. -/
def Unused (s : State) : Prop := s.readers = [] ∧ s.writers = [] ∧ s.inside = []

/-- The call destroys an unused lock and leaves all others as they are. -/
structure Clean (s : State) (r : Destroyed) : Prop where
  result : r.result = Errno.ok <-> Unused s
  busy : r.result = Errno.ebusy -> r.lock = s ∧ r.owner = none ∧ r.attr ≠ -1
  destroyed : r.result = Errno.ok ->
    (forall role, (r.lock.side role).cond.attr = -1) ∧ r.owner = none ∧ r.attr = -1

variable {s : State} {t : Tid}

theorem Ok.unused_iff (hs : Ok s) :
    ¬(s.refcount ≠ 0 ∨ s.nwaitreaders ≠ 0 ∨ s.nwaitwriters ≠ 0) <-> Unused s := by
  have hside : forall role, (s.side role).nwait = 0 <-> (s.side role).inside = [] := by
    intro role
    rw [(hs.side role).count, Int.natCast_eq_zero, List.length_eq_zero_iff]
  unfold Unused State.inside State.nwaitreaders State.nwaitwriters
  rw [List.append_eq_nil_iff, <- hside, <- hside, not_or, not_or, not_not, not_not, not_not]
  constructor
  · rintro ⟨hzero, hwait⟩
    rcases hs.exclusive.free hzero with ⟨hreaders, hwriters⟩
    exact ⟨hreaders, hwriters, hwait⟩
  · rintro ⟨hreaders, hwriters, hwait⟩
    refine ⟨?_, hwait⟩
    rcases hs.exclusive with ⟨hcount, -⟩ | ⟨-, -, w, hwriter⟩
    · rw [hcount, hreaders]
      rfl
    · rw [hwriter] at hwriters
      cases hwriters

theorem semTake_pos {sem : RtSemaphore} : (semTake sem t 0).2 = Take.taken <-> 0 < sem.value := by
  unfold semTake
  split
  · next hpos => exact iff_of_true rfl hpos
  · next hzero => exact iff_of_false nofun hzero

theorem semRelease_take {sem : RtSemaphore} (hok : SemOk sem) (hpos : 0 < sem.value) :
    semRelease (semTake sem t 0).1 = (sem, []) := by
  have hback : (sem.value - 1 + 1) % 2 ^ 16 = sem.value := by
    rw [Nat.sub_add_cancel hpos, Nat.mod_eq_of_lt hok.bound]
  have hqueue := hok.queue hpos
  unfold semTake semRelease
  rw [if_pos hpos]
  dsimp only
  rw [hqueue]
  dsimp only
  rw [hback, <- hqueue]

theorem condDestroy_released {c : PthreadCond} (hattr : c.attr ≠ -1) (hok : SemOk c.sem)
    (hpos : 0 < c.sem.value) :
    (pthreadCondDestroy { c with sem := (semRelease (semTake c.sem t 0).1).1 } t).1.attr = -1 := by
  rw [semRelease_take hok hpos, pthreadCondDestroy, if_neg hattr, semTake_pos.mpr hpos]

theorem destroyIdle_taken (hs : Ok s) (hpos : forall role, 0 < (s.side role).cond.sem.value) :
    (destroyIdle s t).1 = Errno.ok ∧
      forall role, ((destroyIdle s t).2.side role).cond.attr = -1 := by
  have hdestroyed := fun role =>
    condDestroy_released (t := t) (hs.side role).attr (hs.side role).sem (hpos role)
  unfold destroyIdle
  dsimp only
  rw [semTake_pos.mpr (hpos Role.reading)]
  dsimp only
  split
  · refine ⟨rfl, fun role => ?_⟩
    cases role with
    | reading => exact hdestroyed Role.reading
    | writing => exact hdestroyed Role.writing
  · next hother => exact absurd (semTake_pos.mpr (hpos Role.writing)) hother

/-- An unused lock is destroyed only when both conditions hold a token. -/
theorem pos_of_destroyIdle (hresult : (destroyIdle s t).1 = Errno.ok) (role : Role) :
    0 < (s.side role).cond.sem.value := by
  unfold destroyIdle at hresult
  dsimp only at hresult
  split at hresult
  · next hread =>
      split at hresult
      · next hwrite =>
          cases role with
          | reading => exact semTake_pos.mp hread
          | writing => exact semTake_pos.mp hwrite
      · cases hresult
  · cases hresult

/-- In every reachable state the call does what it is for exactly when the lock is unused
and both conditions hold a token: on a lock in use it returns with `rw_mutex` locked, and
without a token it takes an unused lock for a busy one. -/
theorem rwlock_destroy_iff {ops : List Op} (hrun : Run (Graph step) pthreadRwlockInit ops s) :
    Clean s (pthreadRwlockDestroy s t) <->
      Unused s ∧ forall role, 0 < (s.side role).cond.sem.value := by
  have hs : Ok s := by
    apply hrun.invariant Ok Ok.init
    intro s op s' hs h
    rcases Option.map_eq_some_iff.mp h with ⟨⟨s1, o⟩, houtcome, rfl⟩
    exact hs.step houtcome
  unfold pthreadRwlockDestroy
  by_cases hunused : Unused s
  · rw [if_neg (hs.unused_iff.mpr hunused)]
    constructor
    · intro hclean
      exact ⟨hunused, fun role => pos_of_destroyIdle (hclean.result.mpr hunused) role⟩
    · rintro ⟨-, hpos⟩
      rcases destroyIdle_taken (t := t) hs hpos with ⟨hok, hattr⟩
      refine ⟨iff_of_true hok hunused, fun hbusy => ?_, fun _ => ⟨hattr, rfl, if_pos hok⟩⟩
      exact nomatch hok.symm.trans hbusy
  · rw [if_pos (not_not.mp fun h => hunused (hs.unused_iff.mp h))]
    exact iff_of_false (fun hclean => nomatch (hclean.busy rfl).2.1) fun h => hunused h.1

def twoTokens : List Op :=
  [Op.lock Role.writing 0 (-1), Op.lock Role.reading 1 (-1), Op.take Role.reading 1,
    Op.unlock 0, Op.wake Role.reading 1 RtErr.eok (-1), Op.lock Role.writing 2 5,
    Op.take Role.writing 2, Op.expire Role.writing 2, Op.unlock 1,
    Op.wake Role.writing 2 RtErr.etimeout 0]

theorem rwlock_destroy_iff_two_tokens :
    exists s, exec step pthreadRwlockInit twoTokens = some s ∧
      Clean s (pthreadRwlockDestroy s 3) := by
  obtain ⟨s, hs⟩ : exists s, exec step pthreadRwlockInit twoTokens = some s := ⟨_, rfl⟩
  refine ⟨s, hs, (rwlock_destroy_iff (run_of_exec hs)).mpr ?_⟩
  cases hs
  refine ⟨⟨rfl, rfl, rfl⟩, fun role => ?_⟩
  cases role <;> exact Nat.one_pos

/-- A lock that was only initialised is not destroyed, and on one that a reader holds the call
returns with `rw_mutex` locked. -/
theorem rwlock_destroy_unclean :
    (pthreadRwlockDestroy pthreadRwlockInit 0).result = Errno.ebusy ∧ Unused pthreadRwlockInit ∧
    (exists s, exec step pthreadRwlockInit [Op.lock Role.reading 1 (-1)] = some s ∧
      (pthreadRwlockDestroy s 0).result = Errno.ebusy ∧
      (pthreadRwlockDestroy s 0).owner = some 0 ∧ ¬ Clean s (pthreadRwlockDestroy s 0)) ∧
    ¬ Clean pthreadRwlockInit (pthreadRwlockDestroy pthreadRwlockInit 0) := by
  refine ⟨rfl, ⟨rfl, rfl, rfl⟩, ⟨_, rfl, rfl, rfl, fun hclean => ?_⟩, fun hclean => ?_⟩
  · exact nomatch (hclean.busy rfl).2.1
  · exact nomatch hclean.result.mpr ⟨rfl, rfl, rfl⟩

end RtThread.Pthreads.Rwlock
