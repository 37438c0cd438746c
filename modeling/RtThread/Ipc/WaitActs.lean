import RtThread.Ipc.Mailbox
import RtThread.Ipc.MessageQueue
import RtThread.Ipc.Mutex
import RtThread.Ipc.Semaphore
import RtThread.Library.StableInsert

/-!
# What operations do to wait queues

The operations of semaphores, mutexes, mailboxes and message queues change a wait
queue in one of a few ways: a running thread enters it, its first thread is
resumed, or it is cleared by a reset.  Only a mutex changes priorities besides.
-/

namespace RtThread.Ipc.WaitOrder

open Kernel
open Function (update update_idem update_of_ne update_self)
open StableInsert

/-!
## What an operation does to a queue
-/

def Same (v v' : Threads) (x : Tid) : Prop :=
  (v' x).stat = (v x).stat ∧ (v' x).currentPriority = (v x).currentPriority

/-- The ways in which an operation changes a queue.  It is cleared by a reset
only. -/
inductive Act (reset : Bool) (flag : IpcFlag) (v : Threads) (l : List Tid)
    (v' : Threads) (l' : List Tid) : Prop where
  | stay (hsame : forall x, Same v v' x) (hl : l' = l)
  | enter (t : Tid) (hready : (v t).stat = ThreadStat.ready)
      (hsuspend : (v' t).stat = ThreadStat.suspend)
      (hpriority : (v' t).currentPriority = (v t).currentPriority)
      (hother : forall x, x ≠ t -> Same v v' x)
      (hl : l' = suspendInto v' flag t l)
  | first (t : Tid) (hready : (v' t).stat = ThreadStat.ready)
      (hother : forall x, x ≠ t -> Same v v' x) (hl : l = t :: l')
  | clear (hreset : reset = true)
      (hready : forall x, x ∈ l -> (v' x).stat = ThreadStat.ready)
      (hother : forall x, x ∉ l -> Same v v' x) (hl : l' = [])

section Acts

variable {reset : Bool} {flag : IpcFlag} {v v' : Threads} {l : List Tid} {t : Tid}

theorem act_refl : Act reset flag v l v l :=
  Act.stay (fun _ => ⟨rfl, rfl⟩) rfl

theorem same_update {w : WaitThread} {x : Tid} (hx : x ≠ t) : Same v (update v t w) x := by
  unfold Same
  rw [update_of_ne hx]
  exact ⟨rfl, rfl⟩

theorem same_setError {e : RtErr} (x : Tid) : Same v (setError v t e) x := by
  by_cases hx : x = t
  · subst hx
    unfold Same setError
    rw [update_self]
    exact ⟨rfl, rfl⟩
  · exact same_update hx

theorem Same.trans {v2 : Threads} {x : Tid} (h : Same v v' x) (h' : Same v' v2 x) : Same v v2 x :=
  ⟨h'.left.trans h.left, h'.right.trans h.right⟩

theorem act_error {e e' : RtErr} : Act reset flag v l (setError (setError v t e) t e') l := by
  refine Act.stay ?_ rfl
  intro x
  have hfirst : Same v (setError v t e) x := same_setError x
  have hsecond : Same (setError v t e) (setError (setError v t e) t e') x :=
    same_setError x
  exact hfirst.trans hsecond

theorem act_resume (hl : forall x, x ∈ l -> (v x).stat = ThreadStat.suspend) :
    Act reset flag v l (listResume v l).1 (listResume v l).2 := by
  cases l with
  | nil => exact act_refl
  | cons t rest =>
    rw [listResume_cons (hl t List.mem_cons_self)]
    apply Act.first t
    · simp only [update_self]
    · intro x hx
      exact same_update hx
    · rfl

theorem act_wait {e : RtErr} {timeout : Int} (hready : (v t).stat = ThreadStat.ready)
    (hs : suspendFor (setError v t e) t timeout = some v') :
    Act reset flag v l v' (suspendInto v' flag t l) := by
  have hset : (setError v t e t).stat = ThreadStat.ready :=
    (same_setError t).left.trans hready
  rcases suspendFor_eq hset hs with ⟨linked, hv⟩
  apply Act.enter t hready
  · rw [hv, update_self]
  · rw [hv, update_self]
    exact (same_setError t).right
  · intro x hx
    have hsame : Same v (setError v t e) x := same_setError x
    rw [hv]
    exact hsame.trans (same_update hx)
  · rfl

theorem insertByPriority_eq : insertByPriority v t l =
    insertBehind (fun x => (v x).currentPriority) t l := by
  induction l with
  | nil => rfl
  | cons y rest ih =>
    unfold insertByPriority insertBehind
    rw [ih]

theorem suspendInto_congr (hpriority : forall x, (v' x).currentPriority = (v x).currentPriority) :
    suspendInto v' flag t l = suspendInto v flag t l := by
  cases flag with
  | fifo => rfl
  | prio =>
    show insertByPriority v' t l = insertByPriority v t l
    rw [insertByPriority_eq, insertByPriority_eq]
    simp only [hpriority]

theorem stat_changePriority {p : Nat} (x : Tid) :
    (threadChangePriority v t p x).stat = (v x).stat := by
  unfold threadChangePriority
  by_cases hx : x = t
  · subst hx
    rw [update_self]
  · rw [update_of_ne hx]

theorem same_changePriority {o x : Tid} {p : Nat} (hsame : Same v v' x) :
    Same (threadChangePriority v o p) (threadChangePriority v' o p) x := by
  unfold threadChangePriority
  by_cases hx : x = o
  · subst hx
    unfold Same
    rw [update_self, update_self]
    exact ⟨hsame.left, rfl⟩
  · unfold Same
    rw [update_of_ne hx, update_of_ne hx]
    exact hsame

theorem act_suspend (hready : (v t).stat = ThreadStat.ready)
    (hv : v' = threadSuspend v t ∨ v' = startTimer (threadSuspend v t) t) :
    Act reset flag v l v' (suspendInto (threadSuspend v t) flag t l) := by
  have hsuspend : threadSuspend v t = update v t
      { v t with stat := ThreadStat.suspend, timerLinked := false } := by
    unfold threadSuspend
    rw [if_neg (by simp [hready])]
  have heq : exists linked, v' = update v t
      { v t with stat := ThreadStat.suspend, timerLinked := linked } := by
    rcases hv with hv | hv
    · exact ⟨false, hv.trans hsuspend⟩
    · exists true
      rw [hv, hsuspend]
      unfold startTimer
      rw [update_idem, update_self]
  rcases heq with ⟨linked, heq⟩
  have hpriority : forall x, (v' x).currentPriority = (threadSuspend v t x).currentPriority := by
    intro x
    rw [heq, hsuspend]
    by_cases hx : x = t
    · subst hx
      rw [update_self, update_self]
    · rw [update_of_ne hx, update_of_ne hx]
  apply Act.enter t hready
  · rw [heq, update_self]
  · rw [heq, update_self]
  · intro x hx
    rw [heq]
    exact same_update hx
  · rw [suspendInto_congr hpriority]

theorem act_of_same {v1 : Threads} {l' : List Tid}
    (hsame : forall x, Same v1 v x) (hact : Act reset flag v l v' l') :
    Act reset flag v1 l v' l' := by
  cases hact with
  | stay hother hl => exact Act.stay (fun x => (hsame x).trans (hother x)) hl
  | enter t hready hsuspend hpriority hother hl =>
    refine Act.enter t ?_ hsuspend ?_ ?_ hl
    · rw [← (hsame t).left]
      exact hready
    · rw [← (hsame t).right]
      exact hpriority
    · intro x hx
      exact (hsame x).trans (hother x hx)
  | first t hready hother hl =>
    exact Act.first t hready (fun x hx => (hsame x).trans (hother x hx)) hl
  | clear hreset hready hother hl =>
    exact Act.clear hreset hready (fun x hx => (hsame x).trans (hother x hx)) hl

theorem act_clear (hnodup : l.Nodup) (hs : listResumeAll v l = some v') :
    Act true flag v l v' [] := by
  have hthread := listResumeAll_eq hnodup hs
  apply Act.clear rfl
  · intro x hx
    rw [hthread, if_pos hx]
  · intro x hx
    unfold Same
    rw [hthread, if_neg hx]
    exact ⟨rfl, rfl⟩
  · rfl

end Acts

/-!
## Operations of the four objects
-/

section Objects

def clearsSem : Semaphore.Op -> Bool
  | Semaphore.Op.reset _ => true
  | _ => false

def clearsMb : Mailbox.Op -> Bool
  | Mailbox.Op.reset => true
  | _ => false

def clearsMq : MessageQueue.Op -> Bool
  | MessageQueue.Op.reset => true
  | _ => false

def Blocked (v : Threads) (l : List Tid) : Prop :=
  l.Nodup ∧ forall x, x ∈ l -> (v x).stat = ThreadStat.suspend

theorem act_semaphore {s s' : Semaphore.State} {op : Semaphore.Op}
    (hb : Blocked s.thread s.sem.suspendThread)
    (hop : forall t, op ≠ Semaphore.Op.timeout t)
    (hs : Semaphore.step s op = some s') :
    Act (clearsSem op) s.sem.flag s.thread s.sem.suspendThread s'.thread s'.sem.suspendThread ∧
      s'.sem.flag = s.sem.flag := by
  unfold Semaphore.step Semaphore.stepOutcome at hs
  cases op with
  | take caller time =>
    simp only at hs
    split at hs
    · rename_i hcall
      unfold Semaphore.rtSemTake at hs
      simp only at hs
      split at hs
      · cases hs
        exact ⟨act_refl, rfl⟩
      · split at hs
        · cases hs
          exact ⟨act_refl, rfl⟩
        · cases caller with
          | none => cases hs
          | some t =>
            unfold Semaphore.mayCall at hcall
            rw [Bool.and_eq_true, decide_eq_true_eq] at hcall
            simp only [Option.map_map, Option.map_eq_some_iff] at hs
            rcases hs with ⟨v, hv, heq⟩
            cases heq
            exact ⟨act_wait hcall.left hv, rfl⟩
    · cases hs
  | takeReturn t =>
    simp only at hs
    split at hs
    · cases hs
      exact ⟨act_refl, rfl⟩
    · cases hs
  | release =>
    have heq : (Semaphore.rtSemRelease s).1 = s' := Option.some.inj hs
    subst heq
    unfold Semaphore.rtSemRelease
    cases hlist : s.sem.suspendThread with
    | nil =>
      simp only [hlist, and_true]
      exact act_refl
    | cons w rest =>
      simp only [hlist, and_true]
      rw [hlist] at hb
      exact act_resume hb.right
  | timeout t => exact absurd rfl (hop t)
  | reset value =>
    simp only [Semaphore.rtSemReset, Option.map_map, Option.map_eq_some_iff] at hs
    rcases hs with ⟨v, hv, heq⟩
    cases heq
    exact ⟨act_clear hb.left hv, rfl⟩

variable {s : Mutex.State} {s' : Mailbox.State} {timeout : Int} {m : Mutex.Mid}

theorem act_mqRecvLoop {reset : Bool} {s s' : MessageQueue.State} {c : MessageQueue.Caller}
    {size : Nat} {o : MessageQueue.Outcome}
    (hruns : MessageQueue.runs s c = true)
    (hs : MessageQueue.recvLoop s c size timeout = some (s', o)) :
    Act reset s.mq.flag s.thread s.mq.suspendThread s'.thread s'.mq.suspendThread ∧
      s'.mq.flag = s.mq.flag := by
  unfold MessageQueue.recvLoop at hs
  split at hs
  · cases c with
    | interrupt n => cases hs
    | thread t =>
      unfold MessageQueue.runs at hruns
      rw [decide_eq_true_eq] at hruns
      simp only at hs
      split at hs
      · cases hs
        exact ⟨act_error, rfl⟩
      · rw [Option.map_eq_some_iff] at hs
        rcases hs with ⟨v, hv, heq⟩
        cases heq
        exact ⟨act_wait hruns hv, rfl⟩
  · unfold MessageQueue.recvUnlink at hs
    split at hs
    · cases hs
    · rename_i msg _
      -- the new values of the fields play no part
      have heq : exists head tail n, s' = { s with mq := { s.mq with
          msgQueueHead := head, msgQueueTail := tail, entry := n } }.setPc c
            (MessageQueue.Pc.receiving msg size []) :=
        ⟨_, _, _, (congrArg Prod.fst (Option.some.inj hs)).symm⟩
      rcases heq with ⟨head, tail, n, heq⟩
      rw [heq]
      exact ⟨act_refl, rfl⟩

theorem act_mqSendStep {reset : Bool} {s : MessageQueue.State} {c : MessageQueue.Caller}
    {urgent : Bool} {msg : MessageQueue.Slot} {buffer : List MessageQueue.Byte}
    {progress : Nat} (hb : Blocked s.thread s.mq.suspendThread) :
    let s' := (MessageQueue.sendStep s c urgent msg buffer progress).1
    Act reset s.mq.flag s.thread s.mq.suspendThread s'.thread s'.mq.suspendThread ∧
      s'.mq.flag = s.mq.flag := by
  unfold MessageQueue.sendStep
  split
  · cases urgent with
    | true => exact ⟨act_refl, rfl⟩
    | false => exact ⟨act_refl, rfl⟩
  · split
    · exact ⟨act_refl, rfl⟩
    · have hlink : (if urgent then MessageQueue.linkFirst s.mq msg else
          MessageQueue.linkLast s.mq msg).suspendThread = s.mq.suspendThread ∧
          (if urgent then MessageQueue.linkFirst s.mq msg else
            MessageQueue.linkLast s.mq msg).flag = s.mq.flag := by
        cases urgent with
        | true => exact ⟨rfl, rfl⟩
        | false => exact ⟨rfl, rfl⟩
      unfold MessageQueue.sendLink MessageQueue.State.setPc
      simp only [hlink.left, hlink.right, and_true]
      exact act_resume hb.right

theorem releaseAll_list {n : Nat} {mq mq' : MessageQueue.RtMessageQueue}
    (hs : MessageQueue.releaseAll n mq = some mq') :
    mq'.suspendThread = mq.suspendThread ∧ mq'.flag = mq.flag := by
  induction n generalizing mq with
  | zero =>
    unfold MessageQueue.releaseAll at hs
    split at hs
    · cases hs
      exact ⟨rfl, rfl⟩
    · cases hs
  | succ n ih =>
    unfold MessageQueue.releaseAll at hs
    split at hs
    · cases hs
      exact ⟨rfl, rfl⟩
    · have hrest := ih hs
      exact hrest

theorem act_messageQueue {s s' : MessageQueue.State} {op : MessageQueue.Op}
    (hb : Blocked s.thread s.mq.suspendThread)
    (hop : forall t, op ≠ MessageQueue.Op.timeout t)
    (hs : MessageQueue.step s op = some s') :
    Act (clearsMq op) s.mq.flag s.thread s.mq.suspendThread s'.thread s'.mq.suspendThread ∧
      s'.mq.flag = s.mq.flag := by
  unfold MessageQueue.step at hs
  rw [Option.map_eq_some_iff] at hs
  rcases hs with ⟨⟨s1, o⟩, hs, heq⟩
  cases heq
  unfold MessageQueue.stepOutcome at hs
  cases op with
  | send c urgent buffer =>
    simp only at hs
    split at hs
    · unfold MessageQueue.sendGrab at hs
      split at hs
      · cases hs
      · split at hs
        · cases hs
          exact ⟨act_refl, rfl⟩
        · split at hs
          · cases hs
            exact ⟨act_refl, rfl⟩
          · cases hs
            exact ⟨act_refl, rfl⟩
    · cases hs
  | recv c size timeout =>
    simp only at hs
    split at hs
    · rename_i hruns
      unfold MessageQueue.rtMqRecv at hs
      split at hs
      · cases hs
      · split at hs
        · cases hs
          exact ⟨act_refl, rfl⟩
        · exact act_mqRecvLoop hruns.left hs
    · cases hs
  | go c =>
    simp only at hs
    split at hs
    · split at hs
      · have heq := congrArg Prod.fst (Option.some.inj hs)
        simp only at heq
        rw [← heq]
        exact act_mqSendStep hb
      · have heq := congrArg Prod.fst (Option.some.inj hs)
        simp only at heq
        rw [← heq]
        unfold MessageQueue.recvStep
        split
        · exact ⟨act_refl, rfl⟩
        · exact ⟨act_refl, rfl⟩
      · cases hs
    · cases hs
  | again t delta =>
    simp only at hs
    split at hs
    · rename_i hruns
      split at hs
      · unfold MessageQueue.recvAgain at hs
        simp only at hs
        split at hs
        · cases hs
          exact ⟨act_refl, rfl⟩
        · exact act_mqRecvLoop hruns hs
      · cases hs
    · cases hs
  | timeout t => exact absurd rfl (hop t)
  | reset =>
    simp only [MessageQueue.reset] at hs
    split at hs
    · cases hs
    · rename_i v hv
      rw [Option.map_eq_some_iff] at hs
      rcases hs with ⟨mq, hmq, heq⟩
      cases heq
      rcases releaseAll_list hmq with ⟨hlist, hflag⟩
      simp only [hlist, hflag, and_true]
      exact act_clear hb.left hv

/-- An operation of a mailbox acts on one of its two queues, or clears both. -/
inductive MailboxAct (reset : Bool) (s s' : Mailbox.State) : Prop where
  | receivers
      (hact : Act reset s.mb.flag s.thread s.mb.suspendThread s'.thread
        s'.mb.suspendThread)
      (hsame : s'.mb.suspendSenderThread = s.mb.suspendSenderThread)
  | senders
      (hact : Act reset s.mb.flag s.thread s.mb.suspendSenderThread s'.thread
        s'.mb.suspendSenderThread)
      (hsame : s'.mb.suspendThread = s.mb.suspendThread)
  | both (v : Threads) (hreset : reset = true)
      (hfirst : listResumeAll s.thread s.mb.suspendThread = some v)
      (hsecond : listResumeAll v s.mb.suspendSenderThread = some s'.thread)
      (hnil : s'.mb.suspendThread = [] ∧ s'.mb.suspendSenderThread = [])

theorem MailboxAct.of_pc {reset : Bool} {s : Mailbox.State} {pc : Tid -> Mailbox.Pc}
    (hact : MailboxAct reset { s with pc := pc } s') : MailboxAct reset s s' := by
  cases hact with
  | receivers hact hsame => exact MailboxAct.receivers hact hsame
  | senders hact hsame => exact MailboxAct.senders hact hsame
  | both v hreset hfirst hsecond hnil =>
    exact MailboxAct.both v hreset hfirst hsecond hnil

theorem act_mbSendLoop {reset : Bool} {s : Mailbox.State} {caller : Option Tid}
    {value : BitVec 32} {o : Mailbox.Outcome}
    (hb : Blocked s.thread s.mb.suspendThread)
    (hcall : forall t, caller = some t -> (s.thread t).stat = ThreadStat.ready)
    (hs : Mailbox.sendLoop s caller value timeout = some (s', o)) :
    MailboxAct reset s s' ∧ s'.mb.flag = s.mb.flag := by
  unfold Mailbox.sendLoop at hs
  simp only at hs
  split at hs
  · cases caller with
    | none => cases hs
    | some t =>
      simp only at hs
      split at hs
      · cases hs
        exact ⟨MailboxAct.senders (Act.stay same_setError rfl) rfl, rfl⟩
      · rw [Option.map_eq_some_iff] at hs
        rcases hs with ⟨v, hv, heq⟩
        cases heq
        exact ⟨MailboxAct.senders (act_wait (hcall t rfl) hv) rfl, rfl⟩
  · cases hs
    exact ⟨MailboxAct.receivers (act_resume hb.right) rfl, rfl⟩

theorem act_mbRecvLoop {reset : Bool} {s : Mailbox.State} {caller : Option Tid}
    {o : Mailbox.Outcome}
    (hb : Blocked s.thread s.mb.suspendSenderThread)
    (hcall : forall t, caller = some t -> (s.thread t).stat = ThreadStat.ready)
    (hs : Mailbox.recvLoop s caller timeout = some (s', o)) :
    MailboxAct reset s s' ∧ s'.mb.flag = s.mb.flag := by
  unfold Mailbox.recvLoop at hs
  simp only at hs
  split at hs
  · cases caller with
    | none => cases hs
    | some t =>
      simp only at hs
      split at hs
      · cases hs
        exact ⟨MailboxAct.receivers act_error rfl, rfl⟩
      · rw [Option.map_eq_some_iff] at hs
        rcases hs with ⟨v, hv, heq⟩
        cases heq
        exact ⟨MailboxAct.receivers (act_wait (hcall t rfl) hv) rfl, rfl⟩
  · have heq : exists n i, s' = { s with
        thread := (listResume s.thread s.mb.suspendSenderThread).1
        mb := { s.mb with
          outOffset := n
          entry := i
          suspendSenderThread :=
            (listResume s.thread s.mb.suspendSenderThread).2 } } :=
      ⟨_, _, (congrArg Prod.fst (Option.some.inj hs)).symm⟩
    rcases heq with ⟨n, i, heq⟩
    rw [heq]
    exact ⟨MailboxAct.senders (act_resume hb.right) rfl, rfl⟩

theorem act_mailbox {s : Mailbox.State} {op : Mailbox.Op} (hr : Blocked s.thread s.mb.suspendThread)
    (hd : Blocked s.thread s.mb.suspendSenderThread)
    (hop : forall t, op ≠ Mailbox.Op.timeout t)
    (hs : Mailbox.step s op = some s') :
    MailboxAct (clearsMb op) s s' ∧ s'.mb.flag = s.mb.flag := by
  have hmay : forall caller, Mailbox.mayCall s caller = true -> forall t,
      caller = some t -> (s.thread t).stat = ThreadStat.ready := by
    intro caller hcall t ht
    subst ht
    unfold Mailbox.mayCall at hcall
    rw [Bool.and_eq_true, decide_eq_true_eq] at hcall
    exact hcall.left
  have hstay : forall reset, MailboxAct reset s s := fun reset =>
    MailboxAct.receivers act_refl rfl
  unfold Mailbox.step at hs
  rw [Option.map_eq_some_iff] at hs
  rcases hs with ⟨⟨s1, o⟩, hs, heq⟩
  cases heq
  unfold Mailbox.stepOutcome at hs
  cases op with
  | send caller value timeout =>
    simp only at hs
    split at hs
    · rename_i hcall
      unfold Mailbox.rtMbSendWait at hs
      split at hs
      · cases hs
        exact ⟨hstay _, rfl⟩
      · exact act_mbSendLoop hr (hmay caller hcall) hs
    · cases hs
  | recv caller timeout =>
    simp only at hs
    split at hs
    · rename_i hcall
      unfold Mailbox.rtMbRecv at hs
      split at hs
      · cases hs
        exact ⟨hstay _, rfl⟩
      · exact act_mbRecvLoop hd (hmay caller hcall) hs
    · cases hs
  | again t delta =>
    simp only at hs
    split at hs
    · rename_i hready
      have hcall : forall x, some t = some x -> (s.thread x).stat = ThreadStat.ready := by
        intro x hx
        cases hx
        exact hready
      unfold Mailbox.again at hs
      simp only at hs
      split at hs
      · cases hs
      · split at hs
        · cases hs
          exact ⟨MailboxAct.receivers act_refl rfl, rfl⟩
        · rcases act_mbSendLoop (s := { s with
            pc := update s.pc t Mailbox.Pc.idle }) hr hcall hs with ⟨hact, hflag⟩
          exact ⟨hact.of_pc, hflag⟩
      · split at hs
        · cases hs
          exact ⟨MailboxAct.receivers act_refl rfl, rfl⟩
        · rcases act_mbRecvLoop (s := { s with
            pc := update s.pc t Mailbox.Pc.idle }) hd hcall hs with ⟨hact, hflag⟩
          exact ⟨hact.of_pc, hflag⟩
    · cases hs
  | timeout t => exact absurd rfl (hop t)
  | reset =>
    simp only [Mailbox.reset] at hs
    split at hs
    · cases hs
    · rename_i v hv
      rw [Option.map_eq_some_iff] at hs
      rcases hs with ⟨v', hv', heq⟩
      cases heq
      exact ⟨MailboxAct.both v rfl hv hv' ⟨rfl, rfl⟩, rfl⟩

/-- The priority that a mutex operation changes before it acts on the queue: a take that
waits lends its own, a release gives it back. -/
inductive Lent (s : Mutex.State) : Mutex.Op -> Threads -> Prop where
  | none (op : Mutex.Op) : Lent s op s.thread
  | lend {t o : Tid} {m : Mutex.Mid} {time : Int}
      (howner : (s.mutex m).owner = some o) (hne : o ≠ t)
      (hvalue : (s.mutex m).value = 0) (htime : time ≠ 0)
      (hlt : (s.thread t).currentPriority < (s.thread o).currentPriority) :
      Lent s (Mutex.Op.take t m time)
        (threadChangePriority s.thread o (s.thread t).currentPriority)
  | restore {t : Tid} {m : Mutex.Mid}
      (hready : (s.thread t).stat = ThreadStat.ready) :
      Lent s (Mutex.Op.release t m)
        (threadChangePriority s.thread t (s.mutex m).originalPriority)

structure MutexAct (s : Mutex.State) (op : Mutex.Op) (s' : Mutex.State)
    (m : Mutex.Mid) (v : Threads) : Prop where
  lent : Lent s op v
  act : Act false (s.mutex m).flag v (s.mutex m).suspendThread s'.thread
    (s'.mutex m).suspendThread
  other : forall m', m' ≠ m ->
    (s'.mutex m').suspendThread = (s.mutex m').suspendThread
  flag : forall m', (s'.mutex m').flag = (s.mutex m').flag

theorem mutexAct_update {op : Mutex.Op} {mutex : Mutex.RtMutex} {v v' : Threads}
    {pc : Tid -> Mutex.Pc}
    (hlent : Lent s op v) (hflag : mutex.flag = (s.mutex m).flag)
    (hact : Act false (s.mutex m).flag v (s.mutex m).suspendThread v' mutex.suspendThread) :
    MutexAct s op ⟨v', update s.mutex m mutex, pc⟩ m v := by
  constructor
  · exact hlent
  · simp only [update_self]
    exact hact
  · intro m' hm
    simp only [update_of_ne hm]
  · intro m'
    by_cases hm : m' = m
    · subst hm
      simp only [update_self]
      exact hflag
    · simp only [update_of_ne hm]

theorem act_mutexBlock {s' : Mutex.State} {t : Tid} {time : Int} {r : Option RtErr}
    (hready : (s.thread t).stat = ThreadStat.ready)
    (howner : (s.mutex m).owner ≠ some t) (hvalue : (s.mutex m).value = 0)
    (htime : time ≠ 0)
    (hs : Mutex.takeBlock { s with thread := setError s.thread t RtErr.eok } t m
      time = some (s', r)) :
    exists v, MutexAct s (Mutex.Op.take t m time) s' m v := by
  unfold Mutex.takeBlock at hs
  simp only at hs
  cases hown : (s.mutex m).owner with
  | none =>
    rw [hown] at hs
    cases hs
  | some o =>
    rw [hown] at hs howner
    have hne : o ≠ t := fun heq => howner (by rw [heq])
    simp only at hs
    -- the threads after the owner has got its priority, and the error aside
    generalize hlend : (if (setError s.thread t RtErr.eok t).currentPriority <
        (setError s.thread t RtErr.eok o).currentPriority then
      threadChangePriority (setError s.thread t RtErr.eok) o
        (setError s.thread t RtErr.eok t).currentPriority
      else setError s.thread t RtErr.eok) = v at hs
    have hv : exists v1, Lent s (Mutex.Op.take t m time) v1 ∧
        (forall x, Same v1 v x) ∧ (v1 t).stat = ThreadStat.ready := by
      have hp : forall x, (setError s.thread t RtErr.eok x).currentPriority =
          (s.thread x).currentPriority := fun x => (same_setError x).right
      rw [hp, hp] at hlend
      split at hlend
      · rename_i hlt
        refine ⟨_, Lent.lend hown hne hvalue htime hlt, ?_, ?_⟩
        · intro x
          rw [← hlend]
          exact same_changePriority (same_setError x)
        · rw [stat_changePriority]
          exact hready
      · refine ⟨s.thread, Lent.none _, ?_, hready⟩
        intro x
        rw [← hlend]
        exact same_setError x
    rcases hv with ⟨v1, hlent, hsame, hready1⟩
    exists v1
    have hready2 : (v t).stat = ThreadStat.ready :=
      (hsame t).left.trans hready1
    split at hs
    · split at hs
      · cases hs
        exact mutexAct_update hlent rfl (act_of_same hsame (act_suspend hready2 (Or.inr rfl)))
      · cases hs
    · cases hs
      exact mutexAct_update hlent rfl (act_of_same hsame (act_suspend hready2 (Or.inl rfl)))

theorem act_mutexTake {s' : Mutex.State} {t : Tid} {time : Int} {r : Option RtErr}
    (hready : (s.thread t).stat = ThreadStat.ready)
    (hs : Mutex.rtMutexTake s t m time = some (s', r)) :
    exists v, MutexAct s (Mutex.Op.take t m time) s' m v := by
  have hstay : forall l, Act false (s.mutex m).flag s.thread l (setError s.thread t RtErr.eok) l :=
    fun l => Act.stay same_setError rfl
  unfold Mutex.rtMutexTake at hs
  simp only at hs
  split at hs
  · cases hs
    exact ⟨s.thread, mutexAct_update (Lent.none _) rfl (hstay _)⟩
  · rename_i howner
    split at hs
    · cases hs
      exact ⟨s.thread, mutexAct_update (Lent.none _) rfl (hstay _)⟩
    · rename_i hvalue
      split at hs
      · cases hs
        exact ⟨s.thread, Lent.none _, act_error, fun _ _ => rfl, fun _ => rfl⟩
      · rename_i htime
        exact act_mutexBlock hready howner (Nat.eq_zero_of_not_pos hvalue) htime hs

theorem act_mutexRelease {t : Tid} (hready : (s.thread t).stat = ThreadStat.ready)
    (hb : Blocked s.thread (s.mutex m).suspendThread) :
    exists v, MutexAct s (Mutex.Op.release t m) (Mutex.rtMutexRelease s t m).1 m v := by
  unfold Mutex.rtMutexRelease
  simp only
  split
  · exact ⟨s.thread, Lent.none _, Act.stay same_setError rfl, fun _ _ => rfl, fun _ => rfl⟩
  · split
    · have hv : exists v, Lent s (Mutex.Op.release t m) v ∧
          (if (s.mutex m).originalPriority ≠ (s.thread t).currentPriority then
            threadChangePriority s.thread t (s.mutex m).originalPriority
            else s.thread) = v ∧ forall x, (v x).stat = (s.thread x).stat := by
        split
        · refine ⟨_, Lent.restore hready, rfl, ?_⟩
          intro x
          exact stat_changePriority x
        · exact ⟨_, Lent.none _, rfl, fun _ => rfl⟩
      rcases hv with ⟨v, hlent, heq, hstat⟩
      rw [heq]
      exists v
      unfold Mutex.releaseLast
      cases hlist : (s.mutex m).suspendThread with
      | nil =>
        simp only [Mutex.State.setMutex]
        refine mutexAct_update hlent ?_ ?_
        · rfl
        · rw [hlist]
          exact act_refl
      | cons w rest =>
        have hw : (v w).stat = ThreadStat.suspend := by
          rw [hstat]
          exact hb.right w (by rw [hlist]; exact List.mem_cons_self)
        have hresume : Act false (s.mutex m).flag v (w :: rest)
            (listResume v (w :: rest)).1 (listResume v (w :: rest)).2 := by
          apply act_resume
          intro x hx
          rw [hstat]
          exact hb.right x (by rw [hlist]; exact hx)
        rw [listResume_cons hw] at hresume
        have hthread : threadResume v w = update v w
            { v w with stat := ThreadStat.ready, timerLinked := false } := by
          unfold threadResume
          rw [if_neg (by simp [hw])]
        simp only [Mutex.State.setMutex, hw, if_true, hthread]
        refine mutexAct_update hlent ?_ ?_
        · rfl
        · rw [hlist]
          exact hresume
    · exact ⟨s.thread, mutexAct_update (Lent.none _) rfl act_refl⟩

theorem act_mutex {s' : Mutex.State} {op : Mutex.Op}
    (hb : forall m, Blocked s.thread (s.mutex m).suspendThread)
    (hop : forall t, op ≠ Mutex.Op.timeout t)
    (hs : Mutex.step s op = some s') :
    exists m v, MutexAct s op s' m v := by
  have hruns : forall t pc, Mutex.runs s t pc = true -> (s.thread t).stat = ThreadStat.ready := by
    intro t pc hruns
    unfold Mutex.runs at hruns
    rw [Bool.and_eq_true, decide_eq_true_eq] at hruns
    exact hruns.left
  unfold Mutex.step at hs
  cases op with
  | take t m time =>
    simp only at hs
    split at hs
    · rename_i hcall
      rw [Option.map_eq_some_iff] at hs
      rcases hs with ⟨⟨s1, r⟩, hs, heq⟩
      cases heq
      exact ⟨m, act_mutexTake (hruns t _ hcall) hs⟩
    · cases hs
  | takeReturn t =>
    simp only at hs
    split at hs
    · cases hs
      refine ⟨0, s.thread, Lent.none _, act_refl, ?_, ?_⟩
      · intro m' _
        rfl
      · intro m'
        rfl
    · cases hs
  | release t m =>
    simp only at hs
    split at hs
    · rename_i hcall
      cases hs
      exact ⟨m, act_mutexRelease (hruns t _ hcall) (hb m)⟩
    · cases hs
  | timeout t => exact absurd rfl (hop t)

end Objects

end RtThread.Ipc.WaitOrder
