import RtThread.Ipc.WaitActs

/-!
# The order of wait queues

Semaphores, mutexes, mailboxes and message queues, any number of each, over one set of threads. A
thread is suspended in one of their queues at a time. The priority of a thread may change while it
is in a queue, by `rt_thread_control` or a mutex; the queue is not sorted again then, so the order
holds in the runs in which such a change leaves the thread at its place.
-/

namespace RtThread.Ipc.WaitOrder

open Kernel
open Function (update update_eq_self update_eq_self_iff update_of_ne update_self)
open StableInsert
open Transition

/-!
## The system
-/

/-- All objects over one set of threads.  Each object knows which threads are in
its calls. -/
structure System where
  thread : Threads
  sem : Nat -> Semaphore.RtSemaphore
  semPc : Nat -> Tid -> Semaphore.Pc
  mutex : Mutex.Mid -> Mutex.RtMutex
  mutexPc : Tid -> Mutex.Pc
  mb : Nat -> Mailbox.RtMailbox
  mbPc : Nat -> Tid -> Mailbox.Pc
  mq : Nat -> MessageQueue.RtMessageQueue
  mqPc : Nat -> MessageQueue.Caller -> MessageQueue.Pc

def System.atSem (s : System) (i : Nat) : Semaphore.State :=
  ⟨s.thread, s.sem i, s.semPc i⟩

def System.putSem (s : System) (i : Nat) (x : Semaphore.State) : System :=
  { s with
    thread := x.thread
    sem := Function.update s.sem i x.sem
    semPc := Function.update s.semPc i x.pc }

def System.atMutex (s : System) : Mutex.State := ⟨s.thread, s.mutex, s.mutexPc⟩

def System.putMutex (s : System) (x : Mutex.State) : System :=
  { s with thread := x.thread, mutex := x.mutex, mutexPc := x.pc }

def System.atMb (s : System) (i : Nat) : Mailbox.State :=
  ⟨s.thread, s.mb i, s.mbPc i⟩

def System.putMb (s : System) (i : Nat) (x : Mailbox.State) : System :=
  { s with
    thread := x.thread
    mb := Function.update s.mb i x.mb
    mbPc := Function.update s.mbPc i x.pc }

def System.atMq (s : System) (i : Nat) : MessageQueue.State :=
  ⟨s.thread, s.mq i, s.mqPc i⟩

def System.putMq (s : System) (i : Nat) (x : MessageQueue.State) : System :=
  { s with
    thread := x.thread
    mq := Function.update s.mq i x.mq
    mqPc := Function.update s.mqPc i x.pc }

/-- The timer of a waiting thread runs out: `rt_thread_timeout` unlinks it from
the list it is in. -/
def System.timeout (s : System) (t : Tid) : System :=
  { s with
    thread := threadTimeout s.thread t
    sem := fun i => { s.sem i with
      suspendThread := (s.sem i).suspendThread.erase t }
    mutex := fun i => { s.mutex i with
      suspendThread := (s.mutex i).suspendThread.erase t }
    mb := fun i => { s.mb i with
      suspendThread := (s.mb i).suspendThread.erase t
      suspendSenderThread := (s.mb i).suspendSenderThread.erase t }
    mq := fun i => { s.mq i with
      suspendThread := (s.mq i).suspendThread.erase t } }

/-- An operation of one of the objects, a timeout, or a change of the priority
of a thread. -/
inductive Op where
  | sem (i : Nat) (op : Semaphore.Op)
  | mutex (op : Mutex.Op)
  | mb (i : Nat) (op : Mailbox.Op)
  | mq (i : Nat) (op : MessageQueue.Op)
  | timeout (t : Tid)
  | changePriority (t : Tid) (p : Nat)
deriving DecidableEq

def step (s : System) : Op -> Option System
  | Op.sem _ (Semaphore.Op.timeout _) => none
  | Op.sem i op => (Semaphore.step (s.atSem i) op).map (s.putSem i)
  | Op.mutex (Mutex.Op.timeout _) => none
  | Op.mutex op => (Mutex.step s.atMutex op).map s.putMutex
  | Op.mb _ (Mailbox.Op.timeout _) => none
  | Op.mb i op => (Mailbox.step (s.atMb i) op).map (s.putMb i)
  | Op.mq _ (MessageQueue.Op.timeout _) => none
  | Op.mq i op => (MessageQueue.step (s.atMq i) op).map (s.putMq i)
  | Op.timeout t =>
    if (s.thread t).timerLinked ∧ (s.thread t).stat = ThreadStat.suspend then
      some (s.timeout t)
    else none
  | Op.changePriority t p =>
    if p < 256 then
      some { s with thread := threadChangePriority s.thread t p }
    else none

/-- The operations that resume one waiting thread when they resume any: neither
a reset nor a timeout. -/
def Op.resumesOne : Op -> Bool
  | Op.sem _ op => ! clearsSem op
  | Op.mb _ op => ! clearsMb op
  | Op.mq _ op => ! clearsMq op
  | Op.timeout _ => false
  | _ => true

/-- The wait queues of the objects; a mailbox has two. -/
inductive Wait where
  | sem (i : Nat)
  | mutex (m : Mutex.Mid)
  | receivers (i : Nat)
  | senders (i : Nat)
  | mq (i : Nat)
deriving DecidableEq, Repr

def System.queue (s : System) : Wait -> List Tid
  | Wait.sem i => (s.sem i).suspendThread
  | Wait.mutex m => (s.mutex m).suspendThread
  | Wait.receivers i => (s.mb i).suspendThread
  | Wait.senders i => (s.mb i).suspendSenderThread
  | Wait.mq i => (s.mq i).suspendThread

def System.flag (s : System) : Wait -> IpcFlag
  | Wait.sem i => (s.sem i).flag
  | Wait.mutex m => (s.mutex m).flag
  | Wait.receivers i => (s.mb i).flag
  | Wait.senders i => (s.mb i).flag
  | Wait.mq i => (s.mq i).flag

/-!
## How long a thread has waited
-/

/-- The number of steps so far, and when each thread was suspended last. -/
structure Clock where
  now : Nat
  since : Tid -> Nat

def Clock.start : Clock := { now := 0, since := fun _ => 0 }

def recordSince (s : System) (_op : Op) (s' : System) (h : Clock) : Clock :=
  { now := h.now + 1
    since := fun t =>
      if (s.thread t).stat ≠ ThreadStat.suspend ∧
          (s'.thread t).stat = ThreadStat.suspend then h.now
      else h.since t }

def rank (flag : IpcFlag) (v : Threads) (t : Tid) : Nat :=
  match flag with
  | IpcFlag.fifo => 0
  | IpcFlag.prio => (v t).currentPriority

/-- The invariant: the threads of the queues are suspended, each in one queue,
and every queue is in order. -/
structure Ordered (now : Nat) (v : Threads) (since : Tid -> Nat)
    (flag : Wait -> IpcFlag) (queue : Wait -> List Tid) : Prop where
  blocked : forall q x, x ∈ queue q -> (v x).stat = ThreadStat.suspend
  alone : forall q q' x, x ∈ queue q -> x ∈ queue q' -> q = q'
  past : forall q x, x ∈ queue q -> since x < now
  order : forall q, (queue q).Pairwise (Before (rank (flag q) v) since)

section Ordered

variable {now : Nat} {v v' : Threads} {since since' : Tid -> Nat}
  {flag : Wait -> IpcFlag} {queue queue' : Wait -> List Tid} {q : Wait} {t : Tid}
  {reset : Bool} {l' : List Tid}

theorem rank_congr {f : IpcFlag} {x : Tid}
    (hpriority : (v' x).currentPriority = (v x).currentPriority) :
    rank f v' x = rank f v x := by
  cases f with
  | fifo => rfl
  | prio => exact hpriority

theorem Ordered.isBlocked (ho : Ordered now v since flag queue) (q : Wait) : Blocked v (queue q) :=
  ⟨nodup_of_before (ho.order q), ho.blocked q⟩

theorem Ordered.shrink (ho : Ordered now v since flag queue)
    (hsub : forall q, (queue' q).Sublist (queue q))
    (hkeep : forall q x, x ∈ queue' q -> Same v v' x ∧ since' x = since x) :
    Ordered (now + 1) v' since' flag queue' := by
  constructor
  · intro q x hx
    rw [(hkeep q x hx).left.left]
    exact ho.blocked q x ((hsub q).subset hx)
  · intro q q' x hx hx'
    exact ho.alone q q' x ((hsub q).subset hx) ((hsub q').subset hx')
  · intro q x hx
    rw [(hkeep q x hx).right]
    exact Nat.lt_succ_of_lt (ho.past q x ((hsub q).subset hx))
  · intro q
    apply before_congr ((ho.order q).sublist (hsub q))
    · intro x hx
      exact rank_congr (hkeep q x hx).left.right
    · intro x hx
      exact (hkeep q x hx).right

theorem ordered_suspendInto {f : IpcFlag} {l : List Tid} (hl : l.Pairwise (Before (rank f v) since))
    (hlast : forall x, x ∈ l -> since x < since t) :
    (suspendInto v f t l).Pairwise (Before (rank f v) since) := by
  cases f with
  | fifo =>
    show (l ++ [t]).Pairwise _
    rw [List.pairwise_append]
    refine ⟨hl, List.pairwise_singleton _ _, ?_⟩
    intro x hx y hy
    rw [List.mem_singleton] at hy
    subst hy
    exact Or.inr ⟨rfl, hlast x hx⟩
  | prio =>
    show (insertByPriority v t l).Pairwise _
    rw [insertByPriority_eq]
    exact before_insertBehind hl hlast

theorem Ordered.enter (ho : Ordered now v since flag queue) (hready : (v t).stat = ThreadStat.ready)
    (hsuspend : (v' t).stat = ThreadStat.suspend)
    (hother : forall x, x ≠ t -> Same v v' x ∧ since' x = since x)
    (hnow : since' t = now)
    (hq : queue' q = suspendInto v' (flag q) t (queue q))
    (hqueue : forall q', q' ≠ q -> queue' q' = queue q') :
    Ordered (now + 1) v' since' flag queue' := by
  have hout : forall q, t ∉ queue q := by
    intro q ht
    rw [ho.blocked q t ht] at hready
    cases hready
  have hne : forall q x, x ∈ queue q -> x ≠ t := by
    intro q x hx heq
    exact hout q (heq ▸ hx)
  have hmem : forall q' x, x ∈ queue' q' -> x = t ∧ q' = q ∨ x ∈ queue q' := by
    intro q' x hx
    by_cases hq' : q' = q
    · subst hq'
      rw [hq, mem_suspendInto] at hx
      exact hx.imp_left fun heq => ⟨heq, rfl⟩
    · rw [hqueue q' hq'] at hx
      exact Or.inr hx
  have hsame : forall q', (queue q').Pairwise (Before (rank (flag q') v') since') := by
    intro q'
    apply before_congr (ho.order q')
    · intro x hx
      exact rank_congr (hother x (hne q' x hx)).left.right
    · intro x hx
      exact (hother x (hne q' x hx)).right
  have hlast : forall q' x, x ∈ queue q' -> since' x < now := by
    intro q' x hx
    rw [(hother x (hne q' x hx)).right]
    exact ho.past q' x hx
  constructor
  · intro q' x hx
    rcases hmem q' x hx with ⟨heq, _⟩ | hx
    · rw [heq]
      exact hsuspend
    · rw [(hother x (hne q' x hx)).left.left]
      exact ho.blocked q' x hx
  · intro q1 q2 x hx1 hx2
    rcases hmem q1 x hx1 with ⟨heq, hq1⟩ | hx1
    · rcases hmem q2 x hx2 with ⟨_, hq2⟩ | hx2
      · rw [hq1, hq2]
      · exact absurd (heq ▸ hx2) (hout q2)
    · rcases hmem q2 x hx2 with ⟨heq, _⟩ | hx2
      · exact absurd (heq ▸ hx1) (hout q1)
      · exact ho.alone q1 q2 x hx1 hx2
  · intro q' x hx
    rcases hmem q' x hx with ⟨heq, _⟩ | hx
    · rw [heq, hnow]
      exact Nat.lt_succ_self now
    · exact Nat.lt_succ_of_lt (hlast q' x hx)
  · intro q'
    by_cases hq' : q' = q
    · subst hq'
      rw [hq]
      apply ordered_suspendInto (hsame q')
      intro x hx
      rw [hnow]
      exact hlast q' x hx
    · rw [hqueue q' hq']
      exact hsame q'

def stamp (now : Nat) (v v' : Threads) (since : Tid -> Nat) (t : Tid) : Nat :=
  if (v t).stat ≠ ThreadStat.suspend ∧ (v' t).stat = ThreadStat.suspend then now
  else since t

theorem stamp_same {x : Tid} (hsame : Same v v' x) : stamp now v v' since x = since x := by
  unfold stamp
  rw [if_neg]
  rintro ⟨hne, heq⟩
  exact hne (hsame.left.symm.trans heq)

theorem Ordered.act (ho : Ordered now v since flag queue)
    (hact : Act reset (flag q) v (queue q) v' l') (hq : queue' q = l')
    (hqueue : forall q', q' ≠ q -> queue' q' = queue q') :
    Ordered (now + 1) v' (stamp now v v' since) flag queue' := by
  have hkeep : forall x, Same v v' x -> Same v v' x ∧ stamp now v v' since x = since x :=
    fun x hsame => ⟨hsame, stamp_same hsame⟩
  -- a thread of another queue is not in this one
  have haway : forall q' x, q' ≠ q -> x ∈ queue' q' -> x ∉ queue q := by
    intro q' x hne hx hin
    rw [hqueue q' hne] at hx
    exact hne (ho.alone q' q x hx hin)
  cases hact with
  | stay hsame hl =>
    apply ho.shrink
    · intro q'
      by_cases hq' : q' = q
      · subst hq'
        rw [hq, hl]
      · rw [hqueue q' hq']
    · intro q' x _
      exact hkeep x (hsame x)
  | enter t hready hsuspend hpriority hother hl =>
    apply ho.enter hready hsuspend
    · intro x hx
      exact hkeep x (hother x hx)
    · unfold stamp
      rw [if_pos]
      refine ⟨?_, hsuspend⟩
      rw [hready]
      decide
    · rw [hq, hl]
    · exact hqueue
  | first t hready hother hl =>
    have hnodup := (ho.isBlocked q).left
    rw [hl, List.nodup_cons] at hnodup
    apply ho.shrink
    · intro q'
      by_cases hq' : q' = q
      · subst hq'
        rw [hq, hl]
        exact List.sublist_cons_self t l'
      · rw [hqueue q' hq']
    · intro q' x hx
      apply hkeep x (hother x _)
      intro heq
      subst heq
      by_cases hq' : q' = q
      · subst hq'
        rw [hq] at hx
        exact hnodup.left hx
      · exact haway q' x hq' hx (by rw [hl]; exact List.mem_cons_self)
  | clear _ hready hother hl =>
    apply ho.shrink
    · intro q'
      by_cases hq' : q' = q
      · subst hq'
        rw [hq, hl]
        exact List.nil_sublist _
      · rw [hqueue q' hq']
    · intro q' x hx
      apply hkeep x (hother x _)
      by_cases hq' : q' = q
      · subst hq'
        rw [hq, hl] at hx
        cases hx
      · exact haway q' x hq' hx

/-- A change of priority that leaves a thread at its place. -/
def KeepsPlace (v : Threads) (since : Tid -> Nat) (flag : Wait -> IpcFlag)
    (queue : Wait -> List Tid) (t : Tid) (p : Nat) : Prop :=
  forall q xs ys, flag q = IpcFlag.prio -> queue q = xs ++ t :: ys ->
    (forall x, x ∈ xs -> (v x).currentPriority < p ∨
      (v x).currentPriority = p ∧ since x < since t) ∧
    forall y, y ∈ ys -> p < (v y).currentPriority ∨
      p = (v y).currentPriority ∧ since t < since y

theorem Ordered.changePriority {p : Nat} (ho : Ordered now v since flag queue)
    (hplace : KeepsPlace v since flag queue t p) :
    Ordered now (threadChangePriority v t p) since flag queue := by
  have hself : (threadChangePriority v t p t).currentPriority = p := by
    unfold threadChangePriority
    rw [update_self]
  have hother : forall x, x ≠ t ->
      (threadChangePriority v t p x).currentPriority = (v x).currentPriority := by
    intro x hx
    unfold threadChangePriority
    rw [update_of_ne hx]
  constructor
  · intro q x hx
    rw [stat_changePriority]
    exact ho.blocked q x hx
  · exact ho.alone
  · exact ho.past
  · intro q
    have hold := ho.order q
    cases hflag : flag q with
    | fifo =>
      rw [hflag] at hold
      exact before_congr hold (fun _ _ => rfl) (fun _ _ => rfl)
    | prio =>
      rw [hflag] at hold
      by_cases ht : t ∈ queue q
      · rcases List.append_of_mem ht with ⟨xs, ys, hsplit⟩
        have hnodup := (ho.isBlocked q).left
        rcases hplace q xs ys hflag hsplit with ⟨hleft, hright⟩
        rw [hsplit] at hold hnodup ⊢
        -- the members besides `t` keep their ranks
        have hxs : forall x, x ∈ xs -> x ≠ t := by
          intro x hx heq
          subst heq
          exact (List.nodup_append.mp hnodup).right.right x hx x List.mem_cons_self rfl
        have hys : forall y, y ∈ ys -> y ≠ t := by
          intro y hy heq
          subst heq
          have hcons := (List.nodup_append.mp hnodup).right.left
          exact (List.nodup_cons.mp hcons).left hy
        rw [List.pairwise_append, List.pairwise_cons] at hold ⊢
        rcases hold with ⟨hl, ⟨_, hr⟩, hcross⟩
        refine ⟨?_, ⟨?_, ?_⟩, ?_⟩
        · exact before_congr hl (fun x hx => hother x (hxs x hx)) (fun _ _ => rfl)
        · intro y hy
          unfold Before rank
          simp only [hself, hother y (hys y hy)]
          exact hright y hy
        · exact before_congr hr (fun y hy => hother y (hys y hy)) (fun _ _ => rfl)
        · intro x hx y hy
          unfold Before rank
          rcases List.mem_cons.mp hy with heq | hy
          · subst heq
            simp only [hself, hother x (hxs x hx)]
            exact hleft x hx
          · simp only [hother x (hxs x hx), hother y (hys y hy)]
            exact hcross x hx y (List.mem_cons_of_mem t hy)
      · apply before_congr hold
        · intro x hx
          apply hother
          intro heq
          exact ht (heq ▸ hx)
        · intro x _
          rfl

end Ordered

/-!
## Steps of the system
-/

/-- A step that changes the priority of a waiting thread leaves it at its place
in a queue that is sorted by priority. -/
def StaysInPlace (x : System × Clock) : Op -> Prop
  | Op.changePriority t p =>
    KeepsPlace x.1.thread x.2.since x.1.flag x.1.queue t p
  | Op.mutex (Mutex.Op.take t m time) =>
    forall o, (x.1.mutex m).owner = some o -> o ≠ t ->
      (x.1.mutex m).value = 0 -> time ≠ 0 ->
      (x.1.thread t).currentPriority < (x.1.thread o).currentPriority ->
      KeepsPlace x.1.thread x.2.since x.1.flag x.1.queue o
        (x.1.thread t).currentPriority
  | _ => True

def Sorted (s : System) (h : Clock) : Prop :=
  Ordered h.now s.thread h.since s.flag s.queue

section Steps

variable {s s' : System} {h : Clock} {op : Op}

/-- Either a step is an operation on one queue, after a change of one priority,
or it only takes threads out of queues, all at once. -/
inductive Step (s : System) (op : Op) (s' : System) : Prop where
  | act (q : Wait) (v : Threads) (reset : Bool)
      (hv : v = s.thread ∨
        (exists t m time o, op = Op.mutex (Mutex.Op.take t m time) ∧
          (s.mutex m).owner = some o ∧ o ≠ t ∧ (s.mutex m).value = 0 ∧ time ≠ 0 ∧
          (s.thread t).currentPriority < (s.thread o).currentPriority ∧
          v = threadChangePriority s.thread o (s.thread t).currentPriority) ∨
        exists t p, (s.thread t).stat = ThreadStat.ready ∧
          v = threadChangePriority s.thread t p)
      (hreset : op.resumesOne = true -> reset = false)
      (hact : Act reset (s.flag q) v (s.queue q) s'.thread (s'.queue q))
      (hqueue : forall q', q' ≠ q -> s'.queue q' = s.queue q')
  | gone (hop : op.resumesOne = false)
      (hsub : forall q, (s'.queue q).Sublist (s.queue q))
      (hkeep : forall q x, x ∈ s'.queue q -> Same s.thread s'.thread x)
  | changed (t : Tid) (p : Nat) (hop : op = Op.changePriority t p)
      (hthread : s'.thread = threadChangePriority s.thread t p)
      (hqueue : s'.queue = s.queue)

variable {i : Nat} {x : Semaphore.State}

theorem putSem_queue : (s.putSem i x).queue = update s.queue (Wait.sem i) x.sem.suspendThread := by
  funext q
  cases q with
  | sem j =>
    by_cases hj : j = i
    · subst hj
      simp [System.queue, System.putSem]
    · simp [System.queue, System.putSem, hj]
  | mutex m => rfl
  | receivers j => rfl
  | senders j => rfl
  | mq j => rfl

theorem putSem_flag (hflag : x.sem.flag = (s.sem i).flag) : (s.putSem i x).flag = s.flag := by
  funext q
  cases q with
  | sem j =>
    by_cases hj : j = i
    · subst hj
      simp [System.flag, System.putSem, hflag]
    · simp [System.flag, System.putSem, hj]
  | mutex m => rfl
  | receivers j => rfl
  | senders j => rfl
  | mq j => rfl

theorem putMq_queue {x : MessageQueue.State} : (s.putMq i x).queue =
    update s.queue (Wait.mq i) x.mq.suspendThread := by
  funext q
  cases q with
  | sem j => rfl
  | mutex m => rfl
  | receivers j => rfl
  | senders j => rfl
  | mq j =>
    by_cases hj : j = i
    · subst hj
      simp [System.queue, System.putMq]
    · simp [System.queue, System.putMq, hj]

theorem putMq_flag {x : MessageQueue.State}
    (hflag : x.mq.flag = (s.mq i).flag) : (s.putMq i x).flag = s.flag := by
  funext q
  cases q with
  | sem j => rfl
  | mutex m => rfl
  | receivers j => rfl
  | senders j => rfl
  | mq j =>
    by_cases hj : j = i
    · subst hj
      simp [System.flag, System.putMq, hflag]
    · simp [System.flag, System.putMq, hj]

theorem putMb_queue {x : Mailbox.State} : (s.putMb i x).queue =
    update (update s.queue (Wait.receivers i)
      x.mb.suspendThread) (Wait.senders i) x.mb.suspendSenderThread := by
  funext q
  cases q with
  | sem j => rfl
  | mutex m => rfl
  | receivers j =>
    by_cases hj : j = i
    · subst hj
      simp [System.queue, System.putMb]
    · simp [System.queue, System.putMb, hj]
  | senders j =>
    by_cases hj : j = i
    · subst hj
      simp [System.queue, System.putMb]
    · simp [System.queue, System.putMb, hj]
  | mq j => rfl

theorem putMb_flag {x : Mailbox.State}
    (hflag : x.mb.flag = (s.mb i).flag) : (s.putMb i x).flag = s.flag := by
  funext q
  cases q with
  | sem j => rfl
  | mutex m => rfl
  | receivers j =>
    by_cases hj : j = i
    · subst hj
      simp [System.flag, System.putMb, hflag]
    · simp [System.flag, System.putMb, hj]
  | senders j =>
    by_cases hj : j = i
    · subst hj
      simp [System.flag, System.putMb, hflag]
    · simp [System.flag, System.putMb, hj]
  | mq j => rfl

theorem Step.of_act {q : Wait} {reset : Bool} {l : List Tid}
    (hreset : op.resumesOne = true -> reset = false)
    (hact : Act reset (s.flag q) s.thread (s.queue q) s'.thread l)
    (hqueue : s'.queue = update s.queue q l) : Step s op s' := by
  refine Step.act q s.thread reset (Or.inl rfl) hreset ?_ ?_
  · rw [hqueue, update_self]
    exact hact
  · intro q' hq'
    rw [hqueue, update_of_ne hq']

theorem Sorted.stepSem {op : Semaphore.Op} (ho : Sorted s h)
    (hop : forall t, op ≠ Semaphore.Op.timeout t)
    (hs : Semaphore.step (s.atSem i) op = some x) :
    Step s (Op.sem i op) (s.putSem i x) ∧ (s.putSem i x).flag = s.flag := by
  rcases act_semaphore (ho.isBlocked (Wait.sem i)) hop hs with ⟨hact, hflag⟩
  refine ⟨Step.of_act (q := Wait.sem i) ?_ hact putSem_queue, putSem_flag hflag⟩
  intro hone
  simpa [Op.resumesOne] using hone

theorem Sorted.stepMq {op : MessageQueue.Op} {x : MessageQueue.State}
    (ho : Sorted s h) (hop : forall t, op ≠ MessageQueue.Op.timeout t)
    (hs : MessageQueue.step (s.atMq i) op = some x) :
    Step s (Op.mq i op) (s.putMq i x) ∧ (s.putMq i x).flag = s.flag := by
  rcases act_messageQueue (ho.isBlocked (Wait.mq i)) hop hs with ⟨hact, hflag⟩
  refine ⟨Step.of_act (q := Wait.mq i) ?_ hact putMq_queue, putMq_flag hflag⟩
  intro hone
  simpa [Op.resumesOne] using hone

theorem Sorted.stepMb {op : Mailbox.Op} {x : Mailbox.State}
    (ho : Sorted s h) (hop : forall t, op ≠ Mailbox.Op.timeout t)
    (hs : Mailbox.step (s.atMb i) op = some x) :
    Step s (Op.mb i op) (s.putMb i x) ∧ (s.putMb i x).flag = s.flag := by
  rcases act_mailbox (ho.isBlocked (Wait.receivers i))
    (ho.isBlocked (Wait.senders i)) hop hs with ⟨hact, hflag⟩
  refine ⟨?_, putMb_flag hflag⟩
  have hone : (Op.mb i op).resumesOne = true -> clearsMb op = false := by
    intro hone
    simpa [Op.resumesOne] using hone
  cases hact with
  | receivers hact hsame =>
    refine Step.of_act (q := Wait.receivers i) (s := s) hone hact ?_
    rw [putMb_queue, hsame]
    exact update_eq_self_iff.mpr rfl
  | senders hact hsame =>
    refine Step.of_act (q := Wait.senders i) (s := s) hone hact ?_
    rw [putMb_queue, hsame]
    congr 1
    exact update_eq_self (Wait.receivers i) s.queue
  | both v hreset hfirst hsecond hnil =>
    have hthread := listResumeAll_eq (ho.isBlocked (Wait.receivers i)).left hfirst
    have hthread' := listResumeAll_eq (ho.isBlocked (Wait.senders i)).left hsecond
    apply Step.gone
    · simp [Op.resumesOne, hreset]
    · intro q
      rw [putMb_queue, hnil.left, hnil.right]
      by_cases hs : q = Wait.senders i
      · rw [hs, update_self]
        exact List.nil_sublist _
      · rw [update_of_ne hs]
        by_cases hr : q = Wait.receivers i
        · rw [hr, update_self]
          exact List.nil_sublist _
        · rw [update_of_ne hr]
    · intro q y hy
      rw [putMb_queue, hnil.left, hnil.right] at hy
      by_cases hs : q = Wait.senders i
      · rw [hs, update_self] at hy
        cases hy
      · rw [update_of_ne hs] at hy
        by_cases hr : q = Wait.receivers i
        · rw [hr, update_self] at hy
          cases hy
        · rw [update_of_ne hr] at hy
          have hns : y ∉ s.queue (Wait.senders i) :=
            fun hin => hs (ho.alone q _ y hy hin)
          have hnr : y ∉ s.queue (Wait.receivers i) :=
            fun hin => hr (ho.alone q _ y hy hin)
          have heq : x.thread y = s.thread y := by
            rw [hthread' y, if_neg hns, hthread y, if_neg hnr]
            rfl
          show Same s.thread x.thread y
          unfold Same
          rw [heq]
          exact ⟨rfl, rfl⟩

theorem Sorted.stepMutex {op : Mutex.Op} {x : Mutex.State}
    (ho : Sorted s h) (hop : forall t, op ≠ Mutex.Op.timeout t)
    (hs : Mutex.step s.atMutex op = some x) :
    Step s (Op.mutex op) (s.putMutex x) ∧ (s.putMutex x).flag = s.flag := by
  rcases act_mutex (fun m => ho.isBlocked (Wait.mutex m)) hop hs with
    ⟨m, v, hlent, hact, hother, hflag⟩
  constructor
  · refine Step.act (Wait.mutex m) v false ?_ (fun _ => rfl) hact ?_
    · cases hlent with
      | none => exact Or.inl rfl
      | lend howner hne hvalue htime hlt =>
        exact Or.inr (Or.inl ⟨_, _, _, _, rfl, howner, hne, hvalue, htime, hlt, rfl⟩)
      | restore hready => exact Or.inr (Or.inr ⟨_, _, hready, rfl⟩)
    · intro q' hq'
      cases q' with
      | sem j => rfl
      | mutex m' => exact hother m' (fun heq => hq' (by rw [heq]))
      | receivers j => rfl
      | senders j => rfl
      | mq j => rfl
  · funext q
    cases q with
    | sem j => rfl
    | mutex m' => exact hflag m'
    | receivers j => rfl
    | senders j => rfl
    | mq j => rfl

theorem Sorted.stepTimeout {t : Tid} (ho : Sorted s h) :
    Step s (Op.timeout t) (s.timeout t) ∧ (s.timeout t).flag = s.flag := by
  have hqueue : forall q, (s.timeout t).queue q = (s.queue q).erase t := by
    intro q
    cases q <;> rfl
  constructor
  · apply Step.gone rfl
    · intro q
      rw [hqueue]
      exact List.erase_sublist
    · intro q x hx
      rw [hqueue, (ho.isBlocked q).left.mem_erase_iff] at hx
      exact same_update hx.left
  · funext q
    cases q <;> rfl

theorem Sorted.step_cases (ho : Sorted s h) (hs : step s op = some s') :
    Step s op s' ∧ s'.flag = s.flag := by
  unfold WaitOrder.step at hs
  split at hs
  · cases hs
  · rename_i i op hop
    rw [Option.map_eq_some_iff] at hs
    rcases hs with ⟨x, hs, heq⟩
    cases heq
    exact ho.stepSem hop hs
  · cases hs
  · rename_i op hop
    rw [Option.map_eq_some_iff] at hs
    rcases hs with ⟨x, hs, heq⟩
    cases heq
    exact ho.stepMutex hop hs
  · cases hs
  · rename_i i op hop
    rw [Option.map_eq_some_iff] at hs
    rcases hs with ⟨x, hs, heq⟩
    cases heq
    exact ho.stepMb hop hs
  · cases hs
  · rename_i i op hop
    rw [Option.map_eq_some_iff] at hs
    rcases hs with ⟨x, hs, heq⟩
    cases heq
    exact ho.stepMq hop hs
  · split at hs
    · cases hs
      exact ho.stepTimeout
    · cases hs
  · rename_i t p
    split at hs
    · cases hs
      exact ⟨Step.changed t p rfl rfl rfl, rfl⟩
    · cases hs

theorem keepsPlace_of_ready {t : Tid} {p : Nat} (ho : Sorted s h)
    (hready : (s.thread t).stat = ThreadStat.ready) :
    KeepsPlace s.thread h.since s.flag s.queue t p := by
  intro q xs ys _ hsplit
  have hblocked := ho.blocked q t (by rw [hsplit]; simp)
  rw [hready] at hblocked
  cases hblocked

theorem Sorted.step (ho : Sorted s h) (hplace : StaysInPlace (s, h) op)
    (hs : step s op = some s') : Sorted s' (recordSince s op s' h) := by
  rcases ho.step_cases hs with ⟨hstep, hflag⟩
  show Ordered (h.now + 1) s'.thread (stamp h.now s.thread s'.thread h.since) s'.flag s'.queue
  rw [hflag]
  cases hstep with
  | act q v reset hv _ hact hqueue =>
    -- the change of priority comes first, and suspends nobody
    have hchange : forall t p, v = threadChangePriority s.thread t p ->
        KeepsPlace s.thread h.since s.flag s.queue t p ->
        Ordered (h.now + 1) s'.thread (stamp h.now s.thread s'.thread h.since) s.flag s'.queue := by
      intro t p heq hkeep
      have hmid := Ordered.changePriority ho hkeep
      rw [← heq] at hmid
      have hstat : forall x, (v x).stat = (s.thread x).stat := by
        intro x
        rw [heq]
        exact stat_changePriority x
      have hstamp : stamp h.now v s'.thread h.since = stamp h.now s.thread s'.thread h.since := by
        funext x
        unfold stamp
        rw [hstat x]
      have hnext := hmid.act hact rfl hqueue
      rwa [hstamp] at hnext
    rcases hv with hv | ⟨t, m, time, o, hop, howner, hne, hvalue, htime, hlt, hv⟩ |
      ⟨t, p, hready, hv⟩
    · rw [hv] at hact
      exact Ordered.act ho hact rfl hqueue
    · subst hop
      exact hchange o _ hv (hplace o howner hne hvalue htime hlt)
    · exact hchange t p hv (keepsPlace_of_ready ho hready)
  | gone _ hsub hkeep =>
    apply Ordered.shrink ho hsub
    intro q x hx
    exact ⟨hkeep q x hx, stamp_same (hkeep q x hx)⟩
  | changed t p hop hthread hqueue =>
    subst hop
    rw [hthread, hqueue]
    apply (Ordered.changePriority ho hplace).shrink
    · intro q
      exact List.Sublist.refl _
    · intro q x _
      refine ⟨⟨rfl, rfl⟩, ?_⟩
      unfold stamp
      rw [stat_changePriority, if_neg (fun hcond => hcond.left hcond.right)]

end Steps

/-!
## Who is resumed
-/

/-- A waiting thread is the one that the flag of the queue says to resume. -/
def Foremost (s : System) (h : Clock) (q : Wait) (t : Tid) : Prop :=
  forall x, x ∈ s.queue q ->
    match s.flag q with
    | IpcFlag.fifo => h.since t ≤ h.since x
    | IpcFlag.prio =>
      (s.thread t).currentPriority ≤ (s.thread x).currentPriority ∧
        ((s.thread x).currentPriority = (s.thread t).currentPriority ->
          h.since t ≤ h.since x)

/-- The objects as their initialisation leaves them, in a system of started
threads. -/
structure Booted (s : System) : Prop where
  sem : forall i, exists value, Semaphore.Booted value (s.atSem i)
  mutex : Mutex.Booted s.atMutex
  mb : forall i, Mailbox.Booted (s.atMb i)
  mq : forall i, MessageQueue.Booted (s.atMq i)

section Runs

variable {s0 s s' : System} {h : Clock} {op : Op} {ops : List Op} {q : Wait}
  {t : Tid}

theorem Booted.sorted (hboot : Booted s0) : Sorted s0 Clock.start := by
  have hempty : forall q, s0.queue q = [] := by
    intro q
    cases q with
    | sem i =>
      rcases hboot.sem i with ⟨value, ⟨flag, hsem⟩, _⟩
      exact congrArg Semaphore.RtSemaphore.suspendThread hsem
    | mutex m =>
      rcases hboot.mutex.mutex m with ⟨flag, hmutex⟩
      exact congrArg Mutex.RtMutex.suspendThread hmutex
    | receivers i => exact (hboot.mb i).lists.left
    | senders i => exact (hboot.mb i).lists.right
    | mq i =>
      rcases (hboot.mq i).mq with ⟨memory, alignSize, msgSize, poolSize, flag, hmq⟩
      exact congrArg MessageQueue.RtMessageQueue.suspendThread hmq
  constructor
  · intro q x hx
    rw [hempty] at hx
    cases hx
  · intro q q' x hx
    rw [hempty] at hx
    cases hx
  · intro q x hx
    rw [hempty] at hx
    cases hx
  · intro q
    rw [hempty]
    exact List.Pairwise.nil

theorem run_sorted (hboot : Booted s0)
    (hrun : Run (Guarded StaysInPlace (Graph (watched step recordSince)))
      (s0, Clock.start) ops (s, h)) : Sorted s h := by
  apply hrun.guarded_watched_invariant Sorted
  · exact hboot.sorted
  · intro s h op s' hx hplace hstep
    exact hx.step hplace hstep

def bootState (priority : Tid -> Nat) (flag : IpcFlag) : System :=
  { thread := (Mutex.bootState priority flag).thread
    sem := fun _ => Semaphore.rtSemInit 0 flag
    semPc := fun _ _ => Semaphore.Pc.idle
    mutex := (Mutex.bootState priority flag).mutex
    mutexPc := fun _ => Mutex.Pc.idle
    mb := fun _ => (Mailbox.bootState 1 flag).mb
    mbPc := fun _ _ => Mailbox.Pc.idle
    mq := fun _ => MessageQueue.rtMqInit
      { msgSize := 0, maxMsgs := 0, entry := 0, msgQueueHead := none,
        msgQueueTail := none, msgQueueFree := none, next := fun _ => none,
        body := fun _ _ => 0, flag := flag, suspendThread := [] } 4 4 8 flag
    mqPc := fun _ _ => MessageQueue.Pc.idle }

theorem bootState_booted (priority : Tid -> Nat) (flag : IpcFlag) :
    Booted (bootState priority flag) := by
  constructor
  · intro i
    exact ⟨0, ⟨flag, rfl⟩, fun t => ⟨rfl, rfl⟩, fun t => rfl⟩
  · exact Mutex.bootState_booted priority flag
  · intro i
    exact ⟨⟨Nat.one_pos, Nat.lt_of_sub_pos (by decide : 0 < 2 ^ 16 - 1)⟩, rfl, rfl, rfl,
      ⟨rfl, rfl⟩, fun t => ⟨rfl, rfl⟩, fun t => rfl⟩
  · intro i
    refine ⟨⟨_, _, _, _, _, rfl⟩, ?_, fun c => rfl⟩
    show 1 ≤ 8 / (rtAlign 4 4 % 2 ^ 16 + 4) % 2 ^ 16
    decide

theorem Sorted.resumes_first (ho : Sorted s h) (hs : WaitOrder.step s op = some s')
    (hop : op.resumesOne = true) (hin : t ∈ s.queue q) (hout : t ∉ s'.queue q) :
    s.queue q = t :: s'.queue q := by
  rcases ho.step_cases hs with ⟨hstep, _⟩
  cases hstep with
  | act q' v reset _ hreset hact hqueue =>
    by_cases hq : q = q'
    · subst hq
      cases hact with
      | stay _ hl =>
        rw [hl] at hout
        exact absurd hin hout
      | enter x _ _ _ _ hl =>
        rw [hl, mem_suspendInto] at hout
        exact absurd (Or.inr hin) hout
      | first x _ _ hl =>
        rw [hl] at hin
        rcases List.mem_cons.mp hin with heq | hrest
        · rw [heq]
          exact hl
        · exact absurd hrest hout
      | clear hclear =>
        rw [hreset hop] at hclear
        cases hclear
    · rw [hqueue q hq] at hout
      exact absurd hin hout
  | gone hgone =>
    rw [hop] at hgone
    cases hgone
  | changed _ _ _ _ hqueue =>
    rw [hqueue] at hout
    exact absurd hin hout

theorem Sorted.foremost {rest : List Tid} (ho : Sorted s h)
    (hq : s.queue q = t :: rest) : Foremost s h q t := by
  have horder := ho.order q
  rw [hq] at horder
  have hfirst := (List.pairwise_cons.mp horder).left
  intro x hx
  rw [hq] at hx
  rcases List.mem_cons.mp hx with heq | hrest
  · subst heq
    cases s.flag q with
    | fifo => exact Nat.le_refl _
    | prio => exact ⟨Nat.le_refl _, fun _ => Nat.le_refl _⟩
  · have hbefore := hfirst x hrest
    cases hflag : s.flag q with
    | fifo =>
      rw [hflag] at hbefore
      rcases hbefore with hlt | ⟨_, hlt⟩
      · exact absurd hlt (Nat.lt_irrefl 0)
      · exact Nat.le_of_lt hlt
    | prio =>
      rw [hflag] at hbefore
      refine ⟨hbefore.key_le, ?_⟩
      intro heq
      rcases hbefore with hlt | ⟨_, hlt⟩
      · exact absurd heq.symm (Nat.ne_of_lt hlt)
      · exact Nat.le_of_lt hlt

/-- In every run whose changes of priority leave waiting threads in place, an operation that
resumes a waiting thread resumes the right one. -/
theorem wait_queue_resumes_foremost (hboot : Booted s0)
    (hrun : Run (Guarded StaysInPlace (Graph (watched step recordSince)))
      (s0, Clock.start) ops (s, h))
    (hs : step s op = some s') (hop : op.resumesOne = true) (hin : t ∈ s.queue q)
    (hout : t ∉ s'.queue q) : Foremost s h q t := by
  have ho := run_sorted hboot hrun
  exact ho.foremost (ho.resumes_first hs hop hin hout)

theorem Sorted.keepsPlace {p : Nat} {xs ys : List Tid} (ho : Sorted s h)
    (hq : s.queue q = xs ++ t :: ys)
    (hleft : forall x, x ∈ xs -> (s.thread x).currentPriority < p)
    (hright : forall y, y ∈ ys -> p < (s.thread y).currentPriority) :
    KeepsPlace s.thread h.since s.flag s.queue t p := by
  intro q' xs' ys' _ hq'
  have hin : t ∈ s.queue q := by
    rw [hq]
    simp
  have hin' : t ∈ s.queue q' := by
    rw [hq']
    simp
  have heq := ho.alone q q' t hin hin'
  subst heq
  -- a thread occurs once, so the two splits are the same
  have hnodup := (ho.isBlocked q).left
  rw [hq] at hnodup hq'
  have hout := (List.nodup_cons.mp (List.nodup_middle.mp hnodup)).left
  rw [List.mem_append, not_or] at hout
  have hsplit := (List.append_cons_inj_of_notMem hout.left hout.right).mp hq'
  rw [← hsplit.left, ← hsplit.right.right]
  exact ⟨fun x hx => Or.inl (hleft x hx), fun y hy => Or.inl (hright y hy)⟩

/-- Two threads wait, and the second gets a priority that leaves it behind the
first. -/
theorem wait_queue_resumes_foremost_kept :
    exists s h s',
      Run (Guarded StaysInPlace (Graph (watched step recordSince)))
        (bootState (fun t => 10 * t) IpcFlag.prio, Clock.start)
        [Op.sem 0 (Semaphore.Op.take (some 1) (-1)),
          Op.sem 0 (Semaphore.Op.take (some 2) (-1)), Op.changePriority 2 15]
        (s, h) ∧
      step s (Op.sem 0 Semaphore.Op.release) = some s' ∧
      s.queue (Wait.sem 0) = [1, 2] ∧ s'.queue (Wait.sem 0) = [2] ∧
      Foremost s h (Wait.sem 0) 1 := by
  have hboot := bootState_booted (fun t => 10 * t) IpcFlag.prio
  have hexec : (exec (watched step recordSince)
      (bootState (fun t => 10 * t) IpcFlag.prio, Clock.start)
      [Op.sem 0 (Semaphore.Op.take (some 1) (-1)),
        Op.sem 0 (Semaphore.Op.take (some 2) (-1))]).map
      (fun x => (x.1.queue (Wait.sem 0), (x.1.thread 1).currentPriority,
        (x.1.thread 1).stat)) = some ([1, 2], 10, ThreadStat.suspend) := by
    decide +kernel
  rw [Option.map_eq_some_iff] at hexec
  rcases hexec with ⟨⟨s1, h1⟩, hexec, hvalues⟩
  simp only [Prod.mk.injEq] at hvalues
  have hrun1 : Run (Guarded StaysInPlace (Graph (watched step recordSince)))
      (bootState (fun t => 10 * t) IpcFlag.prio, Clock.start)
      [Op.sem 0 (Semaphore.Op.take (some 1) (-1)),
        Op.sem 0 (Semaphore.Op.take (some 2) (-1))] (s1, h1) := by
    apply (run_of_exec hexec).guard
    intro x op hop
    simp only [List.mem_cons, List.not_mem_nil, or_false] at hop
    rcases hop with hop | hop
    · rw [hop]
      trivial
    · rw [hop]
      trivial
  have hplace : StaysInPlace (s1, h1) (Op.changePriority 2 15) := by
    have hsplit : s1.queue (Wait.sem 0) = [1] ++ 2 :: [] := hvalues.left
    apply (run_sorted hboot hrun1).keepsPlace hsplit
    · intro x hx
      rw [List.mem_singleton] at hx
      rw [hx, hvalues.right.left]
      decide
    · intro y hy
      cases hy
  have hs2 : exists s2 : System, s2 = { s1 with
      thread := threadChangePriority s1.thread 2 15 } := ⟨_, rfl⟩
  rcases hs2 with ⟨s2, hs2⟩
  have hgraph : Graph (watched step recordSince) (s1, h1) (Op.changePriority 2 15)
      (s2, recordSince s1 (Op.changePriority 2 15) s2 h1) := by
    rw [hs2]
    rfl
  have hrun := Run.snoc hrun1 ⟨hplace, hgraph⟩
  have hq : s2.queue (Wait.sem 0) = [1, 2] := by
    rw [hs2]
    exact hvalues.left
  have hstat : (s2.thread 1).stat = ThreadStat.suspend := by
    rw [hs2]
    exact (stat_changePriority 1).trans hvalues.right.right
  have hq' : (s2.putSem 0 (Semaphore.rtSemRelease (s2.atSem 0)).1).queue
      (Wait.sem 0) = [2] := by
    have hlist : (s2.atSem 0).sem.suspendThread = [1, 2] := hq
    have hsuspend : ((s2.atSem 0).thread 1).stat = ThreadStat.suspend := hstat
    rw [putSem_queue, Function.update_self]
    unfold Semaphore.rtSemRelease
    simp only [hlist, listResume_cons hsuspend]
  have hrelease : step s2 (Op.sem 0 Semaphore.Op.release) =
      some (s2.putSem 0 (Semaphore.rtSemRelease (s2.atSem 0)).1) := rfl
  refine ⟨s2, _, _, hrun, hrelease, hq, hq', ?_⟩
  exact wait_queue_resumes_foremost hboot hrun hrelease rfl (by rw [hq]; decide)
    (by rw [hq']; decide)

/-- Two threads wait, the second gets the more urgent priority, and the first is
resumed. -/
theorem wait_queue_not_sorted_again :
    exists s h s',
      Run (Graph (watched step recordSince))
        (bootState (fun t => 10 * t) IpcFlag.prio, Clock.start)
        [Op.sem 0 (Semaphore.Op.take (some 1) (-1)),
          Op.sem 0 (Semaphore.Op.take (some 2) (-1)), Op.changePriority 2 5]
        (s, h) ∧
      step s (Op.sem 0 Semaphore.Op.release) = some s' ∧
      s.queue (Wait.sem 0) = [1, 2] ∧ s'.queue (Wait.sem 0) = [2] ∧
      ¬ Foremost s h (Wait.sem 0) 1 := by
  have hexec : (exec (watched step recordSince)
      (bootState (fun t => 10 * t) IpcFlag.prio, Clock.start)
      [Op.sem 0 (Semaphore.Op.take (some 1) (-1)),
        Op.sem 0 (Semaphore.Op.take (some 2) (-1)), Op.changePriority 2 5]).map
      (fun x => (x.1.queue (Wait.sem 0), x.1.flag (Wait.sem 0),
        (x.1.thread 1).currentPriority, (x.1.thread 2).currentPriority,
        (step x.1 (Op.sem 0 Semaphore.Op.release)).map
          fun s' => s'.queue (Wait.sem 0))) =
      some ([1, 2], IpcFlag.prio, 10, 5, some [2]) := by
    decide +kernel
  rw [Option.map_eq_some_iff] at hexec
  rcases hexec with ⟨⟨s, h⟩, hexec, hvalues⟩
  simp only [Prod.mk.injEq] at hvalues
  rcases hvalues with ⟨hq, hflag, hfirst, hsecond, hafter⟩
  rw [Option.map_eq_some_iff] at hafter
  rcases hafter with ⟨s', hstep, hq'⟩
  refine ⟨s, h, s', run_of_exec hexec, hstep, hq, hq', ?_⟩
  intro hforemost
  have hle := hforemost 2 (by rw [hq]; decide)
  simp only [hflag, hfirst, hsecond] at hle
  omega

end Runs

end RtThread.Ipc.WaitOrder
