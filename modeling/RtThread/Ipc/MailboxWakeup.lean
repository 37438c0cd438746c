import RtThread.Ipc.MailboxFifo

/-!
# A mailbox loses no wake-up

A send resumes one receiver and leaves the mail to whoever comes first. The history of this module
lists the threads that were resumed so and have not run their loop again. As long as a receiver is
suspended, each stored mail is matched by one of them; free slots and senders likewise.
-/

namespace RtThread.Ipc.Mailbox

open Kernel
open Function (update update_apply update_of_ne update_self)
open Transition

/-!
## Resumed threads
-/

/-- The receivers resumed by a send and the senders resumed by a receive, which
have not run their loop again. -/
structure Woken where
  receivers : List Tid
  senders : List Tid
deriving DecidableEq, Repr

def noneWoken : Woken := { receivers := [], senders := [] }

def Woken.rerun (w : Woken) (t : Tid) : Woken :=
  { receivers := w.receivers.erase t, senders := w.senders.erase t }

/-- A send resumes the first suspended receiver, a receive the first suspended
sender. -/
def Woken.note (w : Woken) (mb : RtMailbox) : Outcome -> Woken
  | Outcome.sent _ =>
    { w with receivers := mb.suspendThread.head?.toList ++ w.receivers }
  | Outcome.received _ =>
    { w with senders := mb.suspendSenderThread.head?.toList ++ w.senders }
  | _ => w

def recordWoken (s : State) (op : Op) (_s' : State) (w : Woken) : Woken :=
  let w :=
    match op with
    | Op.again t _ => w.rerun t
    | _ => w
  match outcomeOf s op with
  | none => w
  | some o => w.note s.mb o

def Pc.isReceiving : Pc -> Bool
  | Pc.receiving _ => true
  | _ => false

def Pc.isSending : Pc -> Bool
  | Pc.sending _ _ => true
  | _ => false

theorem Pc.one_loop {pc : Pc} (hrecv : pc.isReceiving = true) : pc.isSending = false := by
  cases pc with
  | idle => rfl
  | sending value timeout => cases hrecv
  | receiving timeout => rfl

/-- The invariant, up to one receiver or one sender that is running its loop and
is in neither list. -/
structure Waiters (s : State) (w : Woken) (a b : Nat) : Prop where
  receiving : forall t, t ∈ s.mb.suspendThread <->
    (s.thread t).stat = ThreadStat.suspend ∧ (s.pc t).isReceiving = true
  sending : forall t, t ∈ s.mb.suspendSenderThread <->
    (s.thread t).stat = ThreadStat.suspend ∧ (s.pc t).isSending = true
  nodup : s.mb.suspendThread.Nodup ∧ s.mb.suspendSenderThread.Nodup
  wokenReceiver : forall t, t ∈ w.receivers ->
    (s.thread t).stat = ThreadStat.ready ∧ (s.thread t).error = RtErr.eok ∧
      (s.pc t).isReceiving = true
  wokenSender : forall t, t ∈ w.senders ->
    (s.thread t).stat = ThreadStat.ready ∧ (s.thread t).error = RtErr.eok ∧
      (s.pc t).isSending = true
  wokenOnce : w.receivers.Nodup ∧ w.senders.Nodup
  error : forall t, (s.thread t).stat = ThreadStat.suspend ->
    (s.thread t).error = RtErr.eok
  timer : forall t, (s.thread t).timerLinked = true ->
    (s.thread t).stat = ThreadStat.suspend
  bounded : s.mb.entry ≤ s.mb.size ∧ s.mb.size < 65536
  mails : s.mb.suspendThread ≠ [] ->
    s.mb.entry ≤ w.receivers.length + a
  room : s.mb.suspendSenderThread ≠ [] ->
    s.mb.size ≤ s.mb.entry + w.senders.length + b

variable {s s' : State} {w : Woken} {a b : Nat} {o : Outcome} {op : Op} {t : Tid}

/-!
## One step
-/

theorem Waiters.sendMail (hw : Waiters s w 0 b) (hb : b ≤ 1)
    (hroom : s.mb.entry ≠ s.mb.size) (value : BitVec 32) :
    Waiters (sendMail s value) (w.note s.mb (Outcome.sent value)) 0 0 := by
  rcases hw with ⟨hrecv, hsend, hnodup, hwr, hws, honce, herror, htimer, hbound, hmails, hfree⟩
  have hloop := fun t => @Pc.one_loop (s.pc t)
  have hentry : (s.mb.entry + 1) % 2 ^ 16 = s.mb.entry + 1 :=
    Nat.mod_eq_of_lt (by omega)
  unfold Mailbox.sendMail Woken.note
  cases hlist : s.mb.suspendThread with
  | nil =>
    have hres : listResume s.thread s.mb.suspendThread = (s.thread, []) := by
      rw [hlist]
      rfl
    simp only [hres, hentry]
    constructor <;> grind -linarith
  | cons x rest =>
    -- one more mail, and one more receiver on its way to it
    have hx := (hrecv x).mp (by rw [hlist]; exact List.mem_cons_self)
    have hres := listResume_cons (l := rest) hx.left
    rw [← hlist] at hres
    simp only [hres, hentry]
    constructor <;> grind -linarith [update_apply]

theorem Waiters.recvMail (hw : Waiters s w a 0) (ha : a ≤ 1)
    (hmail : s.mb.entry ≠ 0) (value : BitVec 32) :
    Waiters (recvMail s) (w.note s.mb (Outcome.received value)) 0 0 := by
  rcases hw with ⟨hrecv, hsend, hnodup, hwr, hws, honce, herror, htimer, hbound, hmails, hfree⟩
  have hloop := fun t => @Pc.one_loop (s.pc t)
  have hentry : (s.mb.entry + (2 ^ 16 - 1)) % 2 ^ 16 = s.mb.entry - 1 := by
    omega
  unfold Mailbox.recvMail Woken.note
  cases hlist : s.mb.suspendSenderThread with
  | nil =>
    have hres : listResume s.thread s.mb.suspendSenderThread = (s.thread, []) := by
      rw [hlist]
      rfl
    simp only [hres, hentry]
    constructor <;> grind -linarith
  | cons x rest =>
    -- one more free slot, and one more sender on its way to it
    have hx := (hsend x).mp (by rw [hlist]; exact List.mem_cons_self)
    have hres := listResume_cons (l := rest) hx.left
    rw [← hlist] at hres
    simp only [hres, hentry]
    constructor <;> grind -linarith [update_apply]

/-- The caller of a loop is an interrupt, or a ready thread outside of loops. -/
def MayCall (s : State) (caller : Option Tid) : Prop :=
  forall t, caller = some t ->
    (s.thread t).stat = ThreadStat.ready ∧ s.pc t = Pc.idle

theorem Waiters.called (hw : Waiters s w a b) (e : RtErr)
    (hready : (s.thread t).stat = ThreadStat.ready) (hidle : s.pc t = Pc.idle) :
    Waiters { s with thread := setError s.thread t e } w a b := by
  have hout : forall x, (s.pc x).isReceiving = true ∨ (s.pc x).isSending = true -> x ≠ t := by
    rintro x hloop rfl
    rw [hidle] at hloop
    rcases hloop with hloop | hloop
    · cases hloop
    · cases hloop
  constructor
  · intro x
    simp only [setError_stat]
    exact hw.receiving x
  · intro x
    simp only [setError_stat]
    exact hw.sending x
  · exact hw.nodup
  · intro x hx
    have hwoken := hw.wokenReceiver x hx
    simp only [setError_of_ne (hout x (Or.inl hwoken.right.right))]
    exact hwoken
  · intro x hx
    have hwoken := hw.wokenSender x hx
    simp only [setError_of_ne (hout x (Or.inr hwoken.right.right))]
    exact hwoken
  · exact hw.wokenOnce
  · intro x hx
    simp only [setError_stat] at hx
    have hne : x ≠ t := by
      rintro rfl
      rw [hready] at hx
      cases hx
    simp only [setError_of_ne hne]
    exact hw.error x hx
  · intro x hx
    simp only [setError_stat]
    apply hw.timer x
    by_cases hxt : x = t
    · subst hxt
      unfold setError at hx
      simpa using hx
    · simpa only [setError_of_ne hxt] using hx
  · exact hw.bounded
  · exact hw.mails
  · exact hw.room

theorem Waiters.full (hw : Waiters s w a b) (hfull : s.mb.entry = s.mb.size) : Waiters s w a 0 :=
  { hw with room := fun _ => by omega }

theorem Waiters.empty (hw : Waiters s w a b) (hempty : s.mb.entry = 0) : Waiters s w 0 b :=
  { hw with mails := fun _ => by omega }

variable {caller : Option Tid}

theorem Waiters.sendLoop {value : BitVec 32} {timeout : Int} (hw : Waiters s w 0 b) (hb : b ≤ 1)
    (hcall : MayCall s caller)
    (hs : sendLoop s caller value timeout = some (s', o)) :
    Waiters s' (w.note s.mb o) 0 0 := by
  unfold Mailbox.sendLoop at hs
  simp only at hs
  split at hs
  · rename_i hfull
    cases caller with
    | none => cases hs
    | some t =>
      rcases hcall t rfl with ⟨hready, hidle⟩
      simp only at hs
      split at hs
      · cases hs
        exact (hw.full hfull).called RtErr.eok hready hidle
      · rw [Option.map_eq_some_iff] at hs
        rcases hs with ⟨v, hv, heq⟩
        cases heq
        rcases suspendFor_eq (setError_stat.trans hready) hv with ⟨linked, hv⟩
        subst hv
        rcases hw with ⟨hrecv, hsend, hnodup, hwr, hws, honce, herror, htimer,
          hbound, hmails, hfree⟩
        unfold Woken.note setError
        constructor <;> grind -linarith [update_apply, Pc.isReceiving, Pc.isSending,
          mem_suspendInto, nodup_suspendInto]
  · rename_i hroom
    cases hs
    exact hw.sendMail hb hroom value

theorem Waiters.recvLoop {timeout : Int}
    (hw : Waiters s w a 0) (ha : a ≤ 1) (hcall : MayCall s caller)
    (hs : recvLoop s caller timeout = some (s', o)) :
    Waiters s' (w.note s.mb o) 0 0 := by
  unfold Mailbox.recvLoop at hs
  simp only at hs
  split at hs
  · rename_i hempty
    cases caller with
    | none => cases hs
    | some t =>
      rcases hcall t rfl with ⟨hready, hidle⟩
      simp only at hs
      split at hs
      · cases hs
        rw [setError_setError]
        exact (hw.empty hempty).called RtErr.etimeout hready hidle
      · rw [Option.map_eq_some_iff] at hs
        rcases hs with ⟨v, hv, heq⟩
        cases heq
        rcases suspendFor_eq (setError_stat.trans hready) hv with ⟨linked, hv⟩
        subst hv
        rcases hw with ⟨hrecv, hsend, hnodup, hwr, hws, honce, herror, htimer,
          hbound, hmails, hfree⟩
        unfold Woken.note setError
        constructor <;> grind -linarith [update_apply, Pc.isReceiving, Pc.isSending,
            mem_suspendInto, nodup_suspendInto]
  · rename_i hmail
    cases hs
    exact hw.recvMail ha hmail _

theorem Waiters.rerun (hw : Waiters s w 0 0) (hready : (s.thread t).stat = ThreadStat.ready) :
    Waiters { s with pc := update s.pc t Pc.idle } (w.rerun t)
      (if t ∈ w.receivers then 1 else 0) (if t ∈ w.senders then 1 else 0) := by
  rcases hw with ⟨hrecv, hsend, hnodup, hwr, hws, honce, herror, htimer, hbound, hmails, hfree⟩
  unfold Woken.rerun
  constructor
  · grind -linarith [update_apply, Pc.isReceiving]
  · grind -linarith [update_apply, Pc.isSending]
  · exact hnodup
  · intro x hx
    have hne : x ≠ t := by
      intro heq
      subst heq
      exact honce.left.not_mem_erase hx
    simp only [update_of_ne hne]
    exact hwr x (List.mem_of_mem_erase hx)
  · intro x hx
    have hne : x ≠ t := by
      intro heq
      subst heq
      exact honce.right.not_mem_erase hx
    simp only [update_of_ne hne]
    exact hws x (List.mem_of_mem_erase hx)
  · exact ⟨honce.left.erase t, honce.right.erase t⟩
  · exact herror
  · exact htimer
  · exact hbound
  · intro hne
    have hle := hmails hne
    have hlen := length_erase_add w.receivers t
    simp only at hlen ⊢
    omega
  · intro hne
    have hle := hfree hne
    have hlen := length_erase_add w.senders t
    simp only at hlen ⊢
    omega

theorem mayCall_rerun (hready : (s.thread t).stat = ThreadStat.ready) :
    MayCall { s with pc := update s.pc t Pc.idle } (some t) := by
  intro x hx
  cases hx
  exact ⟨hready, update_self ..⟩

theorem Waiters.again {delta : Nat} (hw : Waiters s w 0 0)
    (hready : (s.thread t).stat = ThreadStat.ready)
    (hs : again s t delta = some (s', o)) :
    Waiters s' ((w.rerun t).note s.mb o) 0 0 := by
  have hrerun := hw.rerun hready
  have hcall := mayCall_rerun hready
  unfold Mailbox.again at hs
  simp only at hs
  -- a thread that ends its call with an error was not resumed by a commit
  have hfail : forall e, (s.thread t).error ≠ RtErr.eok ->
      some (({ s with pc := update s.pc t Pc.idle } : State), Outcome.fails e) = some (s', o) ->
      Waiters s' ((w.rerun t).note s.mb o) 0 0 := by
    intro e herror heq
    cases heq
    rw [if_neg (fun hin => herror (hw.wokenReceiver t hin).right.left),
      if_neg (fun hin => herror (hw.wokenSender t hin).right.left)] at hrerun
    exact hrerun
  split at hs
  · cases hs
  · rename_i value left hpc
    split at hs
    · rename_i herror
      exact hfail _ herror hs
    · have hnot : t ∉ w.receivers := by
        intro hin
        have hloop := (hw.wokenReceiver t hin).right.right
        rw [hpc] at hloop
        cases hloop
      rw [if_neg hnot] at hrerun
      exact hrerun.sendLoop (by split <;> omega) hcall hs
  · rename_i left hpc
    split at hs
    · rename_i herror
      exact hfail _ herror hs
    · have hnot : t ∉ w.senders := by
        intro hin
        have hloop := (hw.wokenSender t hin).right.right
        rw [hpc] at hloop
        cases hloop
      rw [if_neg hnot] at hrerun
      exact hrerun.recvLoop (by split <;> omega) hcall hs

theorem Waiters.reset (hw : Waiters s w 0 0) (hs : reset s = some (s', o)) :
    Waiters s' (w.note s.mb o) 0 0 := by
  rcases hw with ⟨hrecv, hsend, hnodup, hwr, hws, honce, herror, htimer, hbound, hmails, hfree⟩
  unfold Mailbox.reset at hs
  split at hs
  · cases hs
  · rename_i v hv
    rw [Option.map_eq_some_iff] at hs
    rcases hs with ⟨v', hv', heq⟩
    cases heq
    have hthread := listResumeAll_eq hnodup.right hv'
    have hfirst := listResumeAll_eq hnodup.left hv
    unfold Woken.note
    constructor <;> grind -linarith

theorem Waiters.timeout (hw : Waiters s w 0 0) (hstat : (s.thread t).stat = ThreadStat.suspend) :
    Waiters (timeout s t) w 0 0 := by
  rcases hw with ⟨hrecv, hsend, hnodup, hwr, hws, honce, herror, htimer, hbound, hmails, hfree⟩
  unfold Mailbox.timeout threadTimeout
  constructor <;> grind -linarith [update_apply]

theorem mayCall_spec (hcall : mayCall s caller = true) : MayCall s caller := by
  intro t ht
  subst ht
  unfold mayCall at hcall
  rwa [Bool.and_eq_true, decide_eq_true_eq, decide_eq_true_eq] at hcall

theorem Waiters.step (hw : Waiters s w 0 0) (hs : step s op = some s') :
    Waiters s' (recordWoken s op s' w) 0 0 := by
  rcases step_outcome hs with ⟨o, hstep, hout⟩
  unfold recordWoken
  rw [hout]
  cases op with
  | send caller value timeout =>
    unfold stepOutcome rtMbSendWait at hstep
    simp only at hstep
    split at hstep
    · rename_i hcall
      split at hstep
      · cases hstep
        exact hw
      · exact hw.sendLoop (Nat.zero_le 1) (mayCall_spec hcall) hstep
    · cases hstep
  | recv caller timeout =>
    unfold stepOutcome rtMbRecv at hstep
    simp only at hstep
    split at hstep
    · rename_i hcall
      split at hstep
      · cases hstep
        exact hw
      · exact hw.recvLoop (Nat.zero_le 1) (mayCall_spec hcall) hstep
    · cases hstep
  | again t delta =>
    unfold stepOutcome at hstep
    simp only at hstep
    split at hstep
    · rename_i hready
      exact hw.again hready hstep
    · cases hstep
  | timeout t =>
    unfold stepOutcome at hstep
    simp only at hstep
    split at hstep
    · rename_i htimer
      cases hstep
      exact hw.timeout htimer.right
    · cases hstep
  | reset => exact hw.reset hstep

/-!
## No lost wake-up
-/

structure NoLostWakeup (s : State) (w : Woken) : Prop where
  wokenOnce : w.receivers.Nodup ∧ w.senders.Nodup
  receivers : s.mb.suspendThread ≠ [] -> s.mb.entry ≤ w.receivers.length
  senders : s.mb.suspendSenderThread ≠ [] ->
    s.mb.size - s.mb.entry ≤ w.senders.length
  quiet : w.receivers = [] -> w.senders = [] ->
    (s.mb.suspendThread ≠ [] -> s.mb.entry = 0) ∧
      (s.mb.suspendSenderThread ≠ [] -> s.mb.entry = s.mb.size)

/-- In every state of every interleaved run. -/
theorem mailbox_no_lost_wakeup {s0 s : State} {w : Woken} {ops : List Op}
    (hboot : Booted s0)
    (hrun : Run (Graph (watched step recordWoken)) (s0, noneWoken) ops (s, w)) :
    NoLostWakeup s w := by
  have hinv : Waiters s w 0 0 := by
    apply hrun.watched_invariant (fun s w => Waiters s w 0 0)
    · rcases hboot with ⟨hsize, hentry, _, _, hlists, hthread, hpc⟩
      unfold noneWoken
      constructor <;> grind -linarith
    · intro s w op s' hw hstep
      exact hw.step hstep
  rcases hinv with ⟨_, _, _, _, _, honce, _, _, hbound, hmails, hfree⟩
  constructor
  · exact honce
  · exact hmails
  · intro hne
    have hle := hfree hne
    omega
  · intro hr hs
    constructor
    · intro hne
      have hle := hmails hne
      rw [hr] at hle
      exact Nat.le_zero.mp hle
    · intro hne
      have hle := hfree hne
      rw [hs] at hle
      simp only [List.length_nil] at hle
      omega

/-- A receiver is resumed by a send and overtaken by an interrupt. -/
theorem mailbox_no_lost_wakeup_overtaken :
    exists s, Run (Graph (watched step recordWoken))
        (bootState 2 IpcFlag.prio, noneWoken)
        [Op.recv (some 0) (-1), Op.recv (some 1) 8, Op.send (some 2) 7 0,
          Op.recv none 0]
        (s, { receivers := [0], senders := [] }) ∧
      NoLostWakeup s { receivers := [0], senders := [] } := by
  have hexec : (exec (watched step recordWoken)
      (bootState 2 IpcFlag.prio, noneWoken)
      [Op.recv (some 0) (-1), Op.recv (some 1) 8, Op.send (some 2) 7 0,
        Op.recv none 0]).map Prod.snd =
      some { receivers := [0], senders := [] } := by
    decide +kernel
  rw [Option.map_eq_some_iff] at hexec
  rcases hexec with ⟨⟨s, w⟩, hexec, hw⟩
  change w = _ at hw
  subst hw
  have hrun := run_of_exec hexec
  exact ⟨s, hrun, mailbox_no_lost_wakeup (bootState_booted (by decide) _) hrun⟩

end RtThread.Ipc.Mailbox
