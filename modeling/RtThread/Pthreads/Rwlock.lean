import RtThread.Pthreads.Cond

/-!
# Read-write locks

A read-write lock is a signed count under a mutex and two conditions, one for the readers and one
for the writers. A step is a critical section of the mutex, a take of a condition's semaphore or
the expiry of a wait. The state lists the threads inside the waits, and the locks that have been
given out and not been returned.
-/

namespace RtThread.Pthreads.Rwlock

open Kernel
open Function (update update_of_ne update_self)
open Ipc
open Ipc.Semaphore
open Transition

inductive Role where
  | reading
  | writing
deriving DecidableEq, Repr

/-- A condition of the lock with its counter and the threads inside its wait: between the
unlock and the take, suspended, or on their way to lock the mutex again, with the result of
the take. -/
structure Side where
  cond : PthreadCond
  nwait : Int
  between : List Tid
  woken : List (Tid × RtErr)
deriving DecidableEq, Repr

/-- `rw_refcount`, the two conditions with their counters, the timeout of every thread's
current call, and who holds the lock. -/
structure State where
  refcount : Int
  side : Role -> Side
  time : Tid -> Int
  readers : List Tid
  writers : List Tid

def State.nwaitreaders (s : State) : Int := (s.side Role.reading).nwait

def State.nwaitwriters (s : State) : Int := (s.side Role.writing).nwait

def Side.inside (d : Side) : List Tid :=
  d.between ++ d.cond.sem.suspendThread ++ d.woken.map Prod.fst

def State.inside (s : State) : List Tid :=
  (s.side Role.reading).inside ++ (s.side Role.writing).inside

def State.setSide (s : State) (role : Role) (d : Side) : State :=
  { s with side := Function.update s.side role d }

@[simp] theorem State.setSide_side (s : State) (role : Role) (d : Side) :
    (s.setSide role d).side role = d := by
  unfold State.setSide
  exact update_self role d s.side

/-!
## The condition waits
-/

def Side.enter (d : Side) (t : Tid) : Side :=
  { d with nwait := d.nwait + 1, between := d.between ++ [t] }

def Side.take (d : Side) (t : Tid) (time : Int) : Side :=
  let took := semTake d.cond.sem t time
  { d with
    cond := { d.cond with sem := took.1 }
    between := d.between.erase t
    woken :=
      match took.2 with
      | Take.taken => d.woken ++ [(t, RtErr.eok)]
      | Take.timedOut => d.woken ++ [(t, RtErr.etimeout)]
      | Take.waits => d.woken }

def Side.expire (d : Side) (t : Tid) : Side :=
  { d with
    cond := { d.cond with
      sem := { d.cond.sem with suspendThread := d.cond.sem.suspendThread.erase t } }
    woken := d.woken ++ [(t, RtErr.etimeout)] }

/-- The wait has locked the mutex again and the counter goes down. -/
def Side.leave (d : Side) (t : Tid) (r : RtErr) : Side :=
  { d with nwait := d.nwait - 1, woken := d.woken.erase (t, r) }

/-- The condition after a signal or a broadcast, and the threads that it has resumed. -/
def Side.release (d : Side) (released : PthreadCond × List Tid) : Side :=
  { d with
    cond := released.1
    woken := d.woken ++ released.2.map fun t => (t, RtErr.eok) }

/-!
## Operations
-/

/-- How a step ends: with the call in a wait, with the call's result, or inside a wait. -/
inductive Outcome where
  | waits
  | returned (result : Errno)
  | silent
deriving DecidableEq, Repr

/-- The loop of `pthread_rwlock_rdlock` and `pthread_rwlock_timedrdlock` from its test on.
The wait is `pthread_cond_wait`, with the timeout -1, or `pthread_cond_timedwait`. -/
def rdlockLoop (s : State) (t : Tid) (time : Int) : State × Outcome :=
  if s.refcount < 0 ∨ 0 < s.nwaitwriters then
    ({ s.setSide Role.reading ((s.side Role.reading).enter t) with
        time := Function.update s.time t time }, Outcome.waits)
  else
    ({ s with refcount := s.refcount + 1, readers := t :: s.readers },
      Outcome.returned Errno.ok)

/-- The loop of `pthread_rwlock_wrlock` and `pthread_rwlock_timedwrlock` from its test on. -/
def wrlockLoop (s : State) (t : Tid) (time : Int) : State × Outcome :=
  if s.refcount ≠ 0 then
    ({ s.setSide Role.writing ((s.side Role.writing).enter t) with
        time := Function.update s.time t time }, Outcome.waits)
  else
    ({ s with refcount := -1, writers := t :: s.writers }, Outcome.returned Errno.ok)

def lockLoop : Role -> State -> Tid -> Int -> State × Outcome
  | Role.reading => rdlockLoop
  | Role.writing => wrlockLoop

def tryrdlock (s : State) (t : Tid) : State × Outcome :=
  if s.refcount < 0 ∨ 0 < s.nwaitwriters then (s, Outcome.returned Errno.ebusy)
  else
    ({ s with refcount := s.refcount + 1, readers := t :: s.readers },
      Outcome.returned Errno.ok)

def trywrlock (s : State) (t : Tid) : State × Outcome :=
  if s.refcount ≠ 0 then (s, Outcome.returned Errno.ebusy)
  else
    ({ s with refcount := -1, writers := t :: s.writers }, Outcome.returned Errno.ok)

/-- The loops behind their wait: the counter goes down, an error ends the call, else the
loop starts over, with a new timeout if timed. -/
def wake (s : State) (role : Role) (t : Tid) (r : RtErr) (time : Int) : State × Outcome :=
  let left := s.setSide role ((s.side role).leave t r)
  let result := condResult (s.time t) r
  if result ≠ Errno.ok then (left, Outcome.returned result)
  else lockLoop role left t time

/-- The first lines of `pthread_rwlock_unlock`, with what the holder gives back. -/
def giveBack (s : State) (t : Tid) : State :=
  if 0 < s.refcount then
    { s with refcount := s.refcount - 1, readers := s.readers.erase t }
  else if s.refcount = -1 then
    { s with refcount := 0, writers := s.writers.erase t }
  else s

/-- The rest of `pthread_rwlock_unlock`: writers come first. -/
def wakeOthers (s : State) (t : Tid) : Option State :=
  if 0 < s.nwaitwriters then
    if s.refcount = 0 then
      let d := s.side Role.writing
      some (s.setSide Role.writing (d.release (pthreadCondSignal d.cond)))
    else some s
  else if 0 < s.nwaitreaders then
    let d := s.side Role.reading
    (pthreadCondBroadcast d.cond t).map fun released =>
      s.setSide Role.reading (d.release released)
  else some s

def unlock (s : State) (t : Tid) : Option (State × Outcome) :=
  (wakeOthers (giveBack s t) t).map fun s' => (s', Outcome.returned Errno.ok)

/-!
## Runs
-/

inductive Op where
  | lock (role : Role) (t : Tid) (time : Int)
  | tryrdlock (t : Tid)
  | trywrlock (t : Tid)
  | unlock (t : Tid)
  | take (role : Role) (t : Tid)
  | expire (role : Role) (t : Tid)
  | wake (role : Role) (t : Tid) (r : RtErr) (time : Int)
deriving DecidableEq, Repr

/-- `clock_time_to_tick` gives no negative timeout. -/
def Timeout (time : Int) : Prop := time = -1 ∨ 0 ≤ time

instance (time : Int) : Decidable (Timeout time) := inferInstanceAs (Decidable (_ ∨ _))

def SameCall (time time' : Int) : Prop := Timeout time' ∧ (time = -1 <-> time' = -1)

instance (time time' : Int) : Decidable (SameCall time time') :=
  inferInstanceAs (Decidable (_ ∧ _))

/-- One step, with how it ends.  Unlocks are made by holders. -/
def stepOutcome (s : State) : Op -> Option (State × Outcome)
  | Op.lock role t time =>
    if t ∉ s.inside ∧ Timeout time then some (lockLoop role s t time) else none
  | Op.tryrdlock t => if t ∉ s.inside then some (tryrdlock s t) else none
  | Op.trywrlock t => if t ∉ s.inside then some (trywrlock s t) else none
  | Op.unlock t =>
    if t ∉ s.inside ∧ (t ∈ s.readers ∨ t ∈ s.writers) then unlock s t else none
  | Op.take role t =>
    if t ∈ (s.side role).between then
      some (s.setSide role ((s.side role).take t (s.time t)), Outcome.silent)
    else none
  | Op.expire role t =>
    if t ∈ (s.side role).cond.sem.suspendThread ∧ 0 < s.time t then
      some (s.setSide role ((s.side role).expire t), Outcome.silent)
    else none
  | Op.wake role t r time =>
    if (t, r) ∈ (s.side role).woken ∧ SameCall (s.time t) time then
      some (wake s role t r time)
    else none

def step (s : State) (op : Op) : Option State := (stepOutcome s op).map Prod.fst

/-- A condition of the lock after `pthread_cond_init`, with nobody in its wait. -/
def Side.init : Side := { cond := pthreadCondInit, nwait := 0, between := [], woken := [] }

def pthreadRwlockInit : State :=
  { refcount := 0
    side := fun _ => Side.init
    time := fun _ => 0
    readers := []
    writers := [] }

/-!
## The threads inside the waits
-/

variable {s s' : State} {d : Side} {role : Role} {t : Tid} {time : Int} {r : RtErr}

/-- The counter is the number of the threads inside the wait. -/
structure Side.Ok (d : Side) : Prop where
  attr : d.cond.attr ≠ -1
  sem : SemOk d.cond.sem
  count : d.nwait = d.inside.length

theorem Side.enter_inside (d : Side) (t : Tid) : (d.enter t).inside.Perm (t :: d.inside) := by
  rw [List.perm_iff_count]
  intro u
  simp only [Side.inside, Side.enter, List.count_append, List.count_cons, List.count_nil]
  omega

theorem count_of_mem {l : List Tid} (ht : t ∈ l) (u : Tid) :
    l.count u = (l.erase t).count u + [t].count u := by
  rw [(List.perm_iff_count.mp (List.perm_cons_erase ht)) u]
  simp only [List.count_cons, List.count_nil]
  omega

theorem Side.take_inside (ht : t ∈ d.between) : (d.take t time).inside.Perm d.inside := by
  rw [List.perm_iff_count]
  intro u
  have hcount := count_of_mem ht u
  simp only [Side.inside, Side.take, List.count_append]
  unfold semTake
  split
  · simp only [List.map_append, List.map_cons, List.map_nil, List.count_append]
    omega
  · split
    · simp only [List.map_append, List.map_cons, List.map_nil, List.count_append]
      omega
    · simp only [List.count_append]
      omega

theorem Side.expire_inside (ht : t ∈ d.cond.sem.suspendThread) :
    (d.expire t).inside.Perm d.inside := by
  rw [List.perm_iff_count]
  intro u
  have hcount := count_of_mem ht u
  simp only [Side.inside, Side.expire, List.map_append, List.map_cons, List.map_nil,
    List.count_append]
  omega

theorem Side.leave_inside (ht : (t, r) ∈ d.woken) :
    (t :: (d.leave t r).inside).Perm d.inside := by
  have hperm := (List.perm_cons_erase ht).map Prod.fst
  rw [List.perm_iff_count]
  intro u
  have hcount := List.perm_iff_count.mp hperm u
  simp only [Side.inside, Side.leave, List.map_cons, List.count_cons,
    List.count_append] at hcount ⊢
  omega

theorem Side.release_inside {sem : RtSemaphore} {ts : List Tid}
    (hsplit : d.cond.sem.suspendThread = ts ++ sem.suspendThread) :
    (d.release ({ d.cond with sem := sem }, ts)).inside.Perm d.inside := by
  rw [List.perm_iff_count]
  intro u
  simp only [Side.inside, Side.release, hsplit, List.map_append, List.map_map, List.count_append]
  rw [show (Prod.fst ∘ fun t : Tid => (t, RtErr.eok)) = id from rfl, List.map_id]
  omega

theorem Side.Ok.init : Side.init.Ok := ⟨by decide, SemOk.init, rfl⟩

theorem Side.Ok.enter (hd : d.Ok) (t : Tid) : (d.enter t).Ok := by
  refine ⟨hd.attr, hd.sem, ?_⟩
  rw [(d.enter_inside t).length_eq, List.length_cons]
  show d.nwait + 1 = _
  rw [hd.count]
  push_cast
  rfl

theorem Side.Ok.take (hd : d.Ok) (ht : t ∈ d.between) : (d.take t time).Ok := by
  refine ⟨hd.attr, hd.sem.take t time, ?_⟩
  rw [(Side.take_inside ht).length_eq]
  exact hd.count

theorem Side.Ok.expire (hd : d.Ok) (ht : t ∈ d.cond.sem.suspendThread) : (d.expire t).Ok := by
  refine ⟨hd.attr, ⟨fun hpos => ?_, hd.sem.bound⟩, ?_⟩
  · rw [hd.sem.queue hpos] at ht
    cases ht
  · rw [(Side.expire_inside ht).length_eq]
    exact hd.count

theorem Side.Ok.leave (hd : d.Ok) (ht : (t, r) ∈ d.woken) : (d.leave t r).Ok := by
  refine ⟨hd.attr, hd.sem, ?_⟩
  have hlen := (Side.leave_inside ht).length_eq
  have hcount := hd.count
  rw [List.length_cons] at hlen
  show d.nwait - 1 = _
  omega

theorem Side.Ok.signal (hd : d.Ok) : (d.release (pthreadCondSignal d.cond)).Ok ∧
    (d.release (pthreadCondSignal d.cond)).inside.Perm d.inside := by
  unfold pthreadCondSignal
  rw [PthreadCond.ready_of_attr hd.attr]
  have hperm := Side.release_inside (semRelease_split d.cond.sem)
  refine ⟨⟨hd.attr, hd.sem.release, ?_⟩, hperm⟩
  rw [hperm.length_eq]
  exact hd.count

def Side.broadcast (d : Side) : Side :=
  { d with
    cond := { d.cond with
      sem := { d.cond.sem with value := max d.cond.sem.value 1, suspendThread := [] } }
    woken := d.woken ++ d.cond.sem.suspendThread.map fun t => (t, RtErr.eok) }

theorem Side.Ok.broadcast_eq (hd : d.Ok) (caller : Tid) :
    (pthreadCondBroadcast d.cond caller).map d.release = some d.broadcast := by
  have hready := PthreadCond.ready_of_attr hd.attr
  rw [pthreadCondBroadcast_eq caller (by rw [hready]; exact hd.sem), hready]
  rfl

theorem Side.Ok.broadcast (hd : d.Ok) : d.broadcast.Ok ∧ d.broadcast.inside.Perm d.inside := by
  have hperm : d.broadcast.inside.Perm d.inside :=
    Side.release_inside (List.append_nil _).symm
  refine ⟨⟨hd.attr, hd.sem.broadcast, ?_⟩, hperm⟩
  rw [hperm.length_eq]
  exact hd.count

theorem State.setSide_inside (hperm : d.inside.Perm (s.side role).inside) :
    (s.setSide role d).inside.Perm s.inside := by
  unfold State.inside State.setSide
  cases role with
  | reading => simpa using hperm.append_right _
  | writing => simpa using hperm.append_left _

theorem State.setSide_inside_cons (hperm : d.inside.Perm (t :: (s.side role).inside)) :
    (s.setSide role d).inside.Perm (t :: s.inside) := by
  unfold State.inside State.setSide
  cases role with
  | reading => simpa using hperm.append_right _
  | writing => simpa using (hperm.append_left _).trans List.perm_middle

theorem State.inside_cons_setSide (hperm : (t :: d.inside).Perm (s.side role).inside) :
    (t :: (s.setSide role d).inside).Perm s.inside := by
  unfold State.inside State.setSide
  cases role with
  | reading => simpa using hperm.append_right _
  | writing => simpa using List.perm_middle.symm.trans (hperm.append_left _)

/-!
## Who holds the lock
-/

/-- The count is the number of read locks that are held, or -1 for one write lock. -/
def Exclusive (s : State) : Prop :=
  (s.refcount = s.readers.length ∧ s.writers = []) ∨
    (s.refcount = -1 ∧ s.readers = [] ∧ exists t, s.writers = [t])

/-- The counters count, no thread is twice inside the waits, and the lock is exclusive. -/
structure Ok (s : State) : Prop where
  side : forall role, (s.side role).Ok
  nodup : s.inside.Nodup
  exclusive : Exclusive s

theorem Ok.init : Ok pthreadRwlockInit := by
  refine ⟨fun _ => Side.Ok.init, by decide, ?_⟩
  exact Or.inl ⟨rfl, rfl⟩

theorem Ok.setSide (hs : Ok s) (hd : d.Ok) (hperm : d.inside.Perm (s.side role).inside) :
    Ok (s.setSide role d) := by
  refine ⟨fun other => ?_, (State.setSide_inside hperm).nodup_iff.mpr hs.nodup, hs.exclusive⟩
  unfold State.setSide
  by_cases heq : other = role
  · subst heq
    simpa using hd
  · simpa [update_of_ne heq] using hs.side other

theorem Ok.enter (hs : Ok s) (ht : t ∉ s.inside) (timeOf : Tid -> Int) :
    Ok { s.setSide role ((s.side role).enter t) with time := timeOf } := by
  have hperm := State.setSide_inside_cons ((s.side role).enter_inside t)
  refine ⟨fun other => ?_, hperm.nodup_iff.mpr (List.nodup_cons.mpr ⟨ht, hs.nodup⟩),
    hs.exclusive⟩
  unfold State.setSide
  by_cases heq : other = role
  · subst heq
    simpa using (hs.side other).enter t
  · simpa [update_of_ne heq] using hs.side other

theorem Ok.leave (hs : Ok s) (ht : (t, r) ∈ (s.side role).woken) :
    Ok (s.setSide role ((s.side role).leave t r)) ∧
      t ∉ (s.setSide role ((s.side role).leave t r)).inside := by
  have hperm := State.inside_cons_setSide (Side.leave_inside ht)
  have hnodup := List.nodup_cons.mp (hperm.nodup_iff.mpr hs.nodup)
  refine ⟨⟨fun other => ?_, hnodup.2, hs.exclusive⟩, hnodup.1⟩
  unfold State.setSide
  by_cases heq : other = role
  · subst heq
    simpa using (hs.side other).leave ht
  · simpa [update_of_ne heq] using hs.side other

theorem Exclusive.reader (hs : Exclusive s) (hpos : ¬s.refcount < 0) :
    s.refcount = s.readers.length ∧ s.writers = [] := by
  rcases hs with hread | hwrite
  · exact hread
  · rw [hwrite.1] at hpos
    exact absurd (by decide) hpos

theorem Exclusive.free (hs : Exclusive s) (hzero : s.refcount = 0) :
    s.readers = [] ∧ s.writers = [] := by
  obtain ⟨hcount, hwriters⟩ := hs.reader (by omega)
  exact ⟨List.length_eq_zero_iff.mp (by omega), hwriters⟩

theorem Ok.grantRead (hs : Ok s) (hpos : ¬s.refcount < 0) (t : Tid) :
    Ok { s with refcount := s.refcount + 1, readers := t :: s.readers } := by
  obtain ⟨hcount, hwriters⟩ := hs.exclusive.reader hpos
  refine ⟨hs.side, hs.nodup, Or.inl ⟨?_, hwriters⟩⟩
  show s.refcount + 1 = ((t :: s.readers).length : Int)
  rw [List.length_cons, hcount]
  push_cast
  rfl

theorem Ok.grantWrite (hs : Ok s) (hzero : s.refcount = 0) (t : Tid) :
    Ok { s with refcount := -1, writers := t :: s.writers } := by
  obtain ⟨hreaders, hwriters⟩ := hs.exclusive.free hzero
  refine ⟨hs.side, hs.nodup, Or.inr ⟨rfl, hreaders, t, ?_⟩⟩
  show t :: s.writers = [t]
  rw [hwriters]

theorem Ok.lockLoop (hs : Ok s) (ht : t ∉ s.inside) (role : Role) (time : Int) :
    Ok (lockLoop role s t time).1 := by
  cases role with
  | reading =>
    show Ok (rdlockLoop s t time).1
    unfold rdlockLoop
    split
    · exact hs.enter ht _
    · next hfree => exact hs.grantRead (fun hneg => hfree (Or.inl hneg)) t
  | writing =>
    show Ok (wrlockLoop s t time).1
    unfold wrlockLoop
    split
    · exact hs.enter ht _
    · next hfree => exact hs.grantWrite (not_not.mp hfree) t

theorem Ok.tryrdlock (hs : Ok s) (t : Tid) : Ok (tryrdlock s t).1 := by
  unfold Rwlock.tryrdlock
  split
  · exact hs
  · next hfree => exact hs.grantRead (fun hneg => hfree (Or.inl hneg)) t

theorem Ok.trywrlock (hs : Ok s) (t : Tid) : Ok (trywrlock s t).1 := by
  unfold Rwlock.trywrlock
  split
  · exact hs
  · next hfree => exact hs.grantWrite (not_not.mp hfree) t

theorem Ok.giveBack (hs : Ok s) (ht : t ∈ s.readers ∨ t ∈ s.writers) : Ok (giveBack s t) := by
  unfold Rwlock.giveBack
  split
  · next hpos =>
      obtain ⟨hcount, hwriters⟩ := hs.exclusive.reader (by omega)
      have hreader : t ∈ s.readers := by
        rcases ht with hreader | hwriter
        · exact hreader
        · rw [hwriters] at hwriter
          cases hwriter
      have hlen := List.length_erase_of_mem hreader
      have hone := List.length_pos_of_mem hreader
      refine ⟨hs.side, hs.nodup, Or.inl ⟨?_, hwriters⟩⟩
      show s.refcount - 1 = ((s.readers.erase t).length : Int)
      omega
  · split
    · next hwrite =>
        rcases hs.exclusive with ⟨hcount, _⟩ | ⟨_, hreaders, w, hwriters⟩
        · omega
        · have hw : t = w := by
            rw [hreaders, hwriters] at ht
            simpa using ht
          refine ⟨hs.side, hs.nodup, Or.inl ⟨?_, ?_⟩⟩
          · show (0 : Int) = s.readers.length
            rw [hreaders]
            rfl
          · show s.writers.erase t = []
            rw [hwriters, hw]
            simp
    · exact hs

theorem wakeOthers_eq (hd : (s.side Role.reading).Ok) (t : Tid) : wakeOthers s t = some
      (if 0 < s.nwaitwriters then
        if s.refcount = 0 then
          s.setSide Role.writing ((s.side Role.writing).release
            (pthreadCondSignal (s.side Role.writing).cond))
        else s
      else if 0 < s.nwaitreaders then
        s.setSide Role.reading (s.side Role.reading).broadcast
      else s) := by
  have heq := hd.broadcast_eq t
  rw [Option.map_eq_some_iff] at heq
  obtain ⟨released, hcall, hrelease⟩ := heq
  unfold wakeOthers
  simp only [hcall, Option.map_some, hrelease]
  split
  · split <;> rfl
  · split <;> rfl

theorem Ok.wakeOthers (hs : Ok s) (h : wakeOthers s t = some s') : Ok s' := by
  rw [wakeOthers_eq (hs.side Role.reading)] at h
  cases h
  split
  · split
    · have hsignal := (hs.side Role.writing).signal
      exact hs.setSide hsignal.1 hsignal.2
    · exact hs
  · split
    · have hbroadcast := (hs.side Role.reading).broadcast
      exact hs.setSide hbroadcast.1 hbroadcast.2
    · exact hs

theorem Ok.step {op : Op} {o : Outcome} (hs : Ok s) (h : stepOutcome s op = some (s', o)) :
    Ok s' := by
  unfold stepOutcome at h
  cases op with
  | lock role t time =>
    simp only [Option.ite_none_right_eq_some, Option.some.injEq] at h
    obtain ⟨hcall, heq⟩ := h
    have hok := hs.lockLoop hcall.1 role time
    rw [heq] at hok
    exact hok
  | tryrdlock t =>
    simp only [Option.ite_none_right_eq_some, Option.some.injEq] at h
    have hok := hs.tryrdlock t
    rw [h.2] at hok
    exact hok
  | trywrlock t =>
    simp only [Option.ite_none_right_eq_some, Option.some.injEq] at h
    have hok := hs.trywrlock t
    rw [h.2] at hok
    exact hok
  | unlock t =>
    simp only [Option.ite_none_right_eq_some] at h
    obtain ⟨hcall, heq⟩ := h
    unfold unlock at heq
    rw [Option.map_eq_some_iff] at heq
    obtain ⟨s1, hothers, heq⟩ := heq
    cases heq
    exact (hs.giveBack hcall.2).wakeOthers hothers
  | take role t =>
    simp only [Option.ite_none_right_eq_some, Option.some.injEq] at h
    obtain ⟨ht, heq⟩ := h
    cases heq
    exact hs.setSide ((hs.side role).take ht) (Side.take_inside ht)
  | expire role t =>
    simp only [Option.ite_none_right_eq_some, Option.some.injEq] at h
    obtain ⟨ht, heq⟩ := h
    cases heq
    exact hs.setSide ((hs.side role).expire ht.1) (Side.expire_inside ht.1)
  | wake role t r time =>
    simp only [Option.ite_none_right_eq_some, Option.some.injEq] at h
    obtain ⟨ht, heq⟩ := h
    have hleft := hs.leave ht.1
    simp only [wake] at heq
    split at heq
    · cases heq
      exact hleft.1
    · have hok := hleft.1.lockLoop hleft.2 role time
      rw [heq] at hok
      exact hok

/-!
## The account

What every thread held when its current call began, and the calls that failed and did not
leave their caller with just that.
-/

def State.held (s : State) (t : Tid) : Nat × Nat := (s.readers.count t, s.writers.count t)

structure Account where
  before : Tid -> Nat × Nat
  broken : List Tid

def Account.note (a : Account) (t : Tid) (before : Nat × Nat) (s' : State) :
    Outcome -> Account
  | Outcome.waits => { a with before := Function.update a.before t before }
  | Outcome.returned result =>
    if result ≠ Errno.ok ∧ s'.held t ≠ before then { a with broken := t :: a.broken } else a
  | Outcome.silent => a

def record (s : State) (op : Op) (s' : State) (a : Account) : Account :=
  match stepOutcome s op, op with
  | some (_, o), Op.lock _ t _ => a.note t (s.held t) s' o
  | some (_, o), Op.tryrdlock t => a.note t (s.held t) s' o
  | some (_, o), Op.trywrlock t => a.note t (s.held t) s' o
  | some (_, o), Op.wake _ t _ _ => a.note t (a.before t) s' o
  | _, _ => a

/-- Nothing changes what a thread holds while it is inside a wait. -/
structure Kept (s : State) (a : Account) : Prop where
  held : forall t, t ∈ s.inside -> s.held t = a.before t
  broken : a.broken = []

/-- What a call of a thread does up to its wait or its end. -/
def CallStep (s : State) (t : Tid) (s' : State) : Outcome -> Prop
  | Outcome.waits => s'.inside.Perm (t :: s.inside) ∧ s'.held = s.held
  | Outcome.returned result =>
    s'.inside = s.inside ∧ (forall u, u ≠ t -> s'.held u = s.held u) ∧
      (result ≠ Errno.ok -> s'.held t = s.held t)
  | Outcome.silent => False

variable {a : Account} {o : Outcome}

theorem CallStep.same (s : State) (t : Tid) (result : Errno) :
    CallStep s t s (Outcome.returned result) := ⟨rfl, fun _ _ => rfl, fun _ => rfl⟩

theorem CallStep.grantRead (s : State) (t : Tid) :
    CallStep s t { s with refcount := s.refcount + 1, readers := t :: s.readers }
      (Outcome.returned Errno.ok) := by
  refine ⟨rfl, fun u hu => ?_, fun hok => absurd rfl hok⟩
  simp [State.held, List.count_cons_of_ne hu.symm]

theorem CallStep.grantWrite (s : State) (t : Tid) :
    CallStep s t { s with refcount := -1, writers := t :: s.writers }
      (Outcome.returned Errno.ok) := by
  refine ⟨rfl, fun u hu => ?_, fun hok => absurd rfl hok⟩
  simp [State.held, List.count_cons_of_ne hu.symm]

theorem CallStep.enter (s : State) (t : Tid) (timeOf : Tid -> Int) :
    CallStep s t { s.setSide role ((s.side role).enter t) with time := timeOf }
      Outcome.waits :=
  ⟨State.setSide_inside_cons ((s.side role).enter_inside t), rfl⟩

theorem CallStep.lockLoop (role : Role) (s : State) (t : Tid) (time : Int) :
    CallStep s t (lockLoop role s t time).1 (lockLoop role s t time).2 := by
  cases role with
  | reading =>
    show CallStep s t (rdlockLoop s t time).1 (rdlockLoop s t time).2
    unfold rdlockLoop
    split
    · exact CallStep.enter s t _
    · exact CallStep.grantRead s t
  | writing =>
    show CallStep s t (wrlockLoop s t time).1 (wrlockLoop s t time).2
    unfold wrlockLoop
    split
    · exact CallStep.enter s t _
    · exact CallStep.grantWrite s t

theorem CallStep.tryrdlock (s : State) (t : Tid) :
    CallStep s t (tryrdlock s t).1 (tryrdlock s t).2 := by
  unfold Rwlock.tryrdlock
  split
  · exact CallStep.same s t _
  · exact CallStep.grantRead s t

theorem CallStep.trywrlock (s : State) (t : Tid) :
    CallStep s t (trywrlock s t).1 (trywrlock s t).2 := by
  unfold Rwlock.trywrlock
  split
  · exact CallStep.same s t _
  · exact CallStep.grantWrite s t

theorem Kept.call {before : Nat × Nat} (hk : Kept s a) (ht : t ∉ s.inside)
    (hbefore : s.held t = before) (hcall : CallStep s t s' o) :
    Kept s' (a.note t before s' o) := by
  cases o with
  | waits =>
    obtain ⟨hperm, hheld⟩ := hcall
    refine ⟨fun u hu => ?_, hk.broken⟩
    rw [hheld]
    show s.held u = update a.before t before u
    rcases List.mem_cons.mp (hperm.subset hu) with rfl | hmem
    · rw [update_self, hbefore]
    · have hne : u ≠ t := fun heq => ht (heq ▸ hmem)
      rw [update_of_ne hne, hk.held u hmem]
  | returned result =>
    obtain ⟨hinside, hothers, hfailed⟩ := hcall
    have hgood : ¬(result ≠ Errno.ok ∧ s'.held t ≠ before) := by
      rintro ⟨hresult, hchanged⟩
      exact hchanged ((hfailed hresult).trans hbefore)
    unfold Account.note
    simp only [if_neg hgood]
    refine ⟨fun u hu => ?_, hk.broken⟩
    rw [hinside] at hu
    have hne : u ≠ t := fun heq => ht (heq ▸ hu)
    rw [hothers u hne, hk.held u hu]
  | silent => exact hcall.elim

theorem Kept.perm (hk : Kept s a) (hperm : s'.inside.Perm s.inside)
    (hheld : forall u, u ∈ s.inside -> s'.held u = s.held u) : Kept s' a := by
  refine ⟨fun u hu => ?_, hk.broken⟩
  have hmem := hperm.subset hu
  rw [hheld u hmem, hk.held u hmem]

theorem giveBack_held {u : Tid} (hu : u ≠ t) : (giveBack s t).held u = s.held u := by
  unfold giveBack State.held
  split
  · simp [List.count_erase_of_ne hu]
  · split
    · simp [List.count_erase_of_ne hu]
    · rfl

theorem giveBack_inside (s : State) (t : Tid) : (giveBack s t).inside = s.inside := by
  unfold giveBack
  split
  · rfl
  · split <;> rfl

theorem giveBack_side (s : State) (t : Tid) : (giveBack s t).side = s.side := by
  unfold giveBack
  split
  · rfl
  · split <;> rfl

theorem wakeOthers_spec (hside : forall role, (s.side role).Ok)
    (h : wakeOthers s t = some s') : s'.inside.Perm s.inside ∧ s'.held = s.held := by
  rw [wakeOthers_eq (hside Role.reading)] at h
  cases h
  split
  · split
    · exact ⟨State.setSide_inside (hside Role.writing).signal.2, rfl⟩
    · exact ⟨List.Perm.refl _, rfl⟩
  · split
    · exact ⟨State.setSide_inside (hside Role.reading).broadcast.2, rfl⟩
    · exact ⟨List.Perm.refl _, rfl⟩

theorem Kept.unlock (hk : Kept s a) (hside : forall role, (s.side role).Ok)
    (ht : t ∉ s.inside) (h : Rwlock.unlock s t = some (s', o)) : Kept s' a := by
  unfold Rwlock.unlock at h
  rw [Option.map_eq_some_iff] at h
  obtain ⟨s1, hothers, heq⟩ := h
  cases heq
  obtain ⟨hperm, hheld⟩ := wakeOthers_spec (by rwa [giveBack_side]) hothers
  rw [giveBack_inside] at hperm
  refine hk.perm hperm fun u hu => ?_
  have hne : u ≠ t := fun heq => ht (heq ▸ hu)
  rw [hheld, giveBack_held hne]

theorem mem_inside_of_woken (ht : (t, r) ∈ (s.side role).woken) : t ∈ s.inside := by
  have hmem := (State.inside_cons_setSide (Side.leave_inside ht)).subset List.mem_cons_self
  exact hmem

theorem Kept.step {op : Op} (hk : Kept s a) (hs : Ok s)
    (h : stepOutcome s op = some (s', o)) : Kept s' (record s op s' a) := by
  unfold record
  rw [h]
  unfold stepOutcome at h
  cases op with
  | lock role t time =>
    simp only [Option.ite_none_right_eq_some, Option.some.injEq] at h
    have hcall := CallStep.lockLoop role s t time
    rw [h.2] at hcall
    exact hk.call h.1.1 rfl hcall
  | tryrdlock t =>
    simp only [Option.ite_none_right_eq_some, Option.some.injEq] at h
    have hcall := CallStep.tryrdlock s t
    rw [h.2] at hcall
    exact hk.call h.1 rfl hcall
  | trywrlock t =>
    simp only [Option.ite_none_right_eq_some, Option.some.injEq] at h
    have hcall := CallStep.trywrlock s t
    rw [h.2] at hcall
    exact hk.call h.1 rfl hcall
  | unlock t =>
    simp only [Option.ite_none_right_eq_some] at h
    exact hk.unlock hs.side h.1.1 h.2
  | take role t =>
    simp only [Option.ite_none_right_eq_some, Option.some.injEq] at h
    obtain ⟨ht, heq⟩ := h
    cases heq
    exact hk.perm (State.setSide_inside (Side.take_inside ht)) fun _ _ => rfl
  | expire role t =>
    simp only [Option.ite_none_right_eq_some, Option.some.injEq] at h
    obtain ⟨ht, heq⟩ := h
    cases heq
    exact hk.perm (State.setSide_inside (Side.expire_inside ht.1)) fun _ _ => rfl
  | wake role t r time =>
    simp only [Option.ite_none_right_eq_some, Option.some.injEq] at h
    obtain ⟨ht, heq⟩ := h
    have hleft := (hs.leave ht.1).2
    have hperm := State.inside_cons_setSide (Side.leave_inside ht.1)
    have hk1 : Kept (s.setSide role ((s.side role).leave t r)) a := by
      refine ⟨fun u hu => ?_, hk.broken⟩
      exact hk.held u (hperm.subset (List.mem_cons_of_mem t hu))
    have hbefore := hk.held t (mem_inside_of_woken ht.1)
    simp only [wake] at heq
    split at heq
    · cases heq
      exact hk1.call hleft hbefore (CallStep.same _ t _)
    · have hcall := CallStep.lockLoop role (s.setSide role ((s.side role).leave t r)) t time
      rw [heq] at hcall
      exact hk1.call hleft hbefore hcall

/-- Nothing has been held or failed before the first call. -/
def Account.start : Account := { before := fun _ => (0, 0), broken := [] }

/-- In every run: the count is the number of read locks held, with no write lock, or -1 with
one write lock and no read lock; the two counters are the numbers of threads inside the
waits, each there once; and a call that failed left its caller with just what it held
before. -/
theorem rwlock_excludes {ops : List Op}
    (hrun : Run (Graph (watched step record)) (pthreadRwlockInit, Account.start) ops (s, a)) :
    ((s.refcount = s.readers.length ∧ s.writers = []) ∨
      (s.refcount = -1 ∧ s.readers = [] ∧ exists t, s.writers = [t])) ∧
    s.inside.Nodup ∧
    s.nwaitreaders = (s.side Role.reading).inside.length ∧
    s.nwaitwriters = (s.side Role.writing).inside.length ∧
    a.broken = [] := by
  have hinv : Ok s ∧ Kept s a := by
    apply hrun.watched_invariant (fun s a => Ok s ∧ Kept s a)
    · refine ⟨Ok.init, fun t ht => ?_, rfl⟩
      cases ht
    · intro s a op s' hinv h
      obtain ⟨⟨s1, o⟩, houtcome, heq⟩ := Option.map_eq_some_iff.mp h
      subst heq
      exact ⟨hinv.1.step houtcome, hinv.2.step hinv.1 houtcome⟩
  obtain ⟨hs, hk⟩ := hinv
  exact ⟨hs.exclusive, hs.nodup, (hs.side Role.reading).count, (hs.side Role.writing).count,
    hk.broken⟩

def oneReader : List Op :=
  [Op.lock Role.reading 0 (-1), Op.lock Role.writing 1 5, Op.take Role.writing 1,
    Op.tryrdlock 2, Op.expire Role.writing 1, Op.wake Role.writing 1 RtErr.etimeout 0,
    Op.unlock 0]

theorem rwlock_excludes_one_reader :
    exists x, Run (Graph (watched step record)) (pthreadRwlockInit, Account.start)
      oneReader x ∧ x.2.broken = [] := by
  obtain ⟨x, hx⟩ : exists x, exec (watched step record) (pthreadRwlockInit, Account.start)
      oneReader = some x := ⟨_, rfl⟩
  have hrun := run_of_exec hx
  exact ⟨x, hrun, (rwlock_excludes (s := x.1) (a := x.2) hrun).2.2.2.2⟩

/-- One thread holds two read locks and the count is 2; a reader that tries to write keeps
its read lock. -/
theorem rwlock_counts_locks :
    (exists s, Run (Graph step) pthreadRwlockInit
      [Op.lock Role.reading 0 (-1), Op.lock Role.reading 0 (-1)] s ∧
      s.refcount = 2 ∧ forall t, t ∈ s.readers -> t = 0) ∧
    (exists s s', Run (Graph step) pthreadRwlockInit [Op.lock Role.reading 0 (-1)] s ∧
      stepOutcome s (Op.trywrlock 0) = some (s', Outcome.returned Errno.ebusy) ∧
      s'.held 0 = (1, 0)) := by
  constructor
  · obtain ⟨s, hs⟩ : exists s, exec step pthreadRwlockInit
        [Op.lock Role.reading 0 (-1), Op.lock Role.reading 0 (-1)] = some s := ⟨_, rfl⟩
    refine ⟨s, run_of_exec hs, ?_⟩
    cases hs
    refine ⟨rfl, fun t ht => ?_⟩
    change t ∈ [0, 0] at ht
    simpa using ht
  · obtain ⟨s, hs⟩ : exists s, exec step pthreadRwlockInit
        [Op.lock Role.reading 0 (-1)] = some s := ⟨_, rfl⟩
    refine ⟨s, s, run_of_exec hs, ?_⟩
    cases hs
    exact ⟨rfl, rfl⟩

end RtThread.Pthreads.Rwlock
