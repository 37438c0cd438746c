import RtThread.Ipc.Semaphore

/-!
# Condition variables

A condition variable is a semaphore of value 0 that queues its threads in the order of
their arrival.  A wait releases the mutex and then takes the semaphore, so that a thread
can be between the two; a signal releases the semaphore once, a broadcast as long as a
try to take it fails.
-/

namespace RtThread.Pthreads

open Kernel
open Ipc
open Ipc.Semaphore

/-- The results of the calls. -/
inductive Errno where
  | ok
  | einval
  | ebusy
  | etimedout
deriving DecidableEq, Repr

structure PthreadCond where
  attr : Int
  sem : RtSemaphore
deriving DecidableEq, Repr

/-- `pthread_cond_init` without attributes; `PTHREAD_PROCESS_PRIVATE` is 0. -/
def pthreadCondInit : PthreadCond :=
  { attr := 0, sem := rtSemInit 0 IpcFlag.fifo }

/-- The first lines of every call: a condition that is initialised statically, with the
attribute -1, is initialised now. -/
def PthreadCond.ready (c : PthreadCond) : PthreadCond :=
  if c.attr = -1 then pthreadCondInit else c

/-!
## The semaphore

What `rt_sem_take` and `rt_sem_release` do to a semaphore in order of arrival, apart from
the threads' control blocks.
-/

inductive Take where
  | taken
  | timedOut
  | waits
deriving DecidableEq, Repr

def semTake (sem : RtSemaphore) (t : Tid) (time : Int) : RtSemaphore × Take :=
  if 0 < sem.value then ({ sem with value := sem.value - 1 }, Take.taken)
  else if time = 0 then (sem, Take.timedOut)
  else ({ sem with suspendThread := sem.suspendThread ++ [t] }, Take.waits)

def semRelease (sem : RtSemaphore) : RtSemaphore × List Tid :=
  match sem.suspendThread with
  | w :: rest => ({ sem with suspendThread := rest }, [w])
  | [] => ({ sem with value := (sem.value + 1) % 2 ^ 16 }, [])

theorem semRelease_split (sem : RtSemaphore) :
    sem.suspendThread = (semRelease sem).2 ++ (semRelease sem).1.suspendThread := by
  unfold semRelease
  split
  · next hlist => exact hlist
  · rfl

/-- What `pthread_cond_wait`, whose timeout is -1, and `pthread_cond_timedwait` make of the
result of the take. -/
def condResult (time : Int) (r : RtErr) : Errno :=
  if r = RtErr.eok then Errno.ok
  else if time ≠ -1 ∧ r = RtErr.etimeout then Errno.etimedout
  else Errno.einval

@[simp] theorem condResult_eq_ok {time : Int} {r : RtErr} :
    condResult time r = Errno.ok <-> r = RtErr.eok := by
  unfold condResult
  split
  · simp [*]
  · split <;> simp [*]

/-!
## Signals and broadcasts
-/

def pthreadCondSignal (c : PthreadCond) : PthreadCond × List Tid :=
  let released := semRelease c.ready.sem
  ({ c.ready with sem := released.1 }, released.2)

def broadcastLoop (caller : Tid) :
    Nat -> RtSemaphore -> List Tid -> Option (RtSemaphore × List Tid)
  | 0, _, _ => none
  | fuel + 1, sem, resumed =>
    let took := semTake sem caller 0
    let released := semRelease took.1
    match took.2 with
    | Take.timedOut => broadcastLoop caller fuel released.1 (resumed ++ released.2)
    | Take.taken => some (released.1, resumed ++ released.2)
    | Take.waits => none

def pthreadCondBroadcast (c : PthreadCond) (caller : Tid) :
    Option (PthreadCond × List Tid) :=
  (broadcastLoop caller (c.ready.sem.suspendThread.length + 2) c.ready.sem []).map
    fun released => ({ c.ready with sem := released.1 }, released.2)

theorem broadcastLoop_zero (caller : Tid) (flag : IpcFlag) (queue resumed : List Tid) :
    broadcastLoop caller (queue.length + 2) ⟨0, flag, queue⟩ resumed =
      some (⟨1, flag, []⟩, resumed ++ queue) := by
  induction queue generalizing resumed with
  | nil => simp [broadcastLoop, semTake, semRelease]
  | cons w rest ih =>
    have hloop := ih (resumed ++ [w])
    rw [List.append_assoc] at hloop
    exact hloop

theorem broadcastLoop_pos (caller : Tid) (flag : IpcFlag) {fuel value : Nat}
    (resumed : List Tid) (hpos : 0 < value) (hlt : value < 2 ^ 16) :
    broadcastLoop caller (fuel + 1) ⟨value, flag, []⟩ resumed =
      some (⟨value, flag, []⟩, resumed) := by
  have hback : (value - 1 + 1) % 2 ^ 16 = value := by
    rw [Nat.sub_add_cancel hpos, Nat.mod_eq_of_lt hlt]
  simp only [broadcastLoop, semTake, semRelease, hpos, if_true, hback, List.append_nil]

/-- A semaphore with tokens has no thread in its list, and its value has 16 bits. -/
structure SemOk (sem : RtSemaphore) : Prop where
  queue : 0 < sem.value -> sem.suspendThread = []
  bound : sem.value < 2 ^ 16

theorem SemOk.init : SemOk (rtSemInit 0 IpcFlag.fifo) :=
  ⟨fun h => absurd h (by decide), by decide⟩

variable {sem : RtSemaphore}

theorem SemOk.take (hok : SemOk sem) (t : Tid) (time : Int) : SemOk (semTake sem t time).1 := by
  have hbound := hok.bound
  unfold semTake
  split
  · next hpos =>
      refine ⟨fun _ => hok.queue hpos, ?_⟩
      show sem.value - 1 < 2 ^ 16
      omega
  · next hzero =>
      split
      · exact hok
      · exact ⟨fun h => absurd h hzero, hbound⟩

theorem SemOk.release (hok : SemOk sem) : SemOk (semRelease sem).1 := by
  unfold semRelease
  split
  · next w rest hlist =>
      refine ⟨fun h => ?_, hok.bound⟩
      have hempty := hok.queue h
      rw [hlist] at hempty
      cases hempty
  · next hlist => exact ⟨fun _ => hlist, Nat.mod_lt _ (by decide)⟩

/-- What a broadcast does: it resumes every thread of the list and leaves one token, or,
when there are tokens, nothing. -/
theorem pthreadCondBroadcast_eq {c : PthreadCond} (caller : Tid) (hok : SemOk c.ready.sem) :
    pthreadCondBroadcast c caller = some ({ c.ready with
        sem := { c.ready.sem with value := max c.ready.sem.value 1, suspendThread := [] } },
        c.ready.sem.suspendThread) := by
  unfold pthreadCondBroadcast
  generalize c.ready = r at hok
  obtain ⟨attr, value, flag, queue⟩ := r
  rcases Nat.eq_zero_or_pos value with hzero | hpos
  · subst hzero
    simp only [broadcastLoop_zero, List.nil_append]
    rfl
  · have hqueue : queue = [] := hok.queue hpos
    subst hqueue
    have hmax : max value 1 = value := by omega
    simp only [broadcastLoop_pos caller flag [] hpos hok.bound, hmax]
    rfl

theorem SemOk.broadcast (hok : SemOk sem) :
    SemOk { sem with value := max sem.value 1, suspendThread := [] } := by
  have hbound := hok.bound
  refine ⟨fun _ => rfl, ?_⟩
  show max sem.value 1 < 2 ^ 16
  omega

theorem PthreadCond.ready_attr (c : PthreadCond) : c.ready.attr ≠ -1 := by
  unfold PthreadCond.ready
  split
  · decide
  · assumption

theorem PthreadCond.ready_of_attr {c : PthreadCond} (hattr : c.attr ≠ -1) : c.ready = c :=
  if_neg hattr

end RtThread.Pthreads
