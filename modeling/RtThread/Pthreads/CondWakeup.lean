import RtThread.Pthreads.Cond
import Mathlib.Data.List.Perm.Subperm

/-!
# Wake-ups of a condition variable

One condition and one mutex, used by any number of threads. A wait is three steps: it releases the
mutex, takes the semaphore, locks the mutex again. Signals and broadcasts are made by the thread
that holds the mutex. The account beside the state says whom they have called: the threads that a
broadcast found between their unlock and their take, and for each signal the threads it found in
their waits, as long as none of them has been released.
-/

namespace RtThread.Pthreads.CondWakeup

open Kernel
open Function (update update_of_ne update_self)
open Ipc
open Ipc.Semaphore
open Transition

/-- Where a thread is: outside of the waits, between the unlock and the take, suspended
on the semaphore, or on its way to lock the mutex again. -/
inductive Pc where
  | outside
  | between (time : Int)
  | waiting (time : Int)
  | woken (time : Int) (result : RtErr)
deriving DecidableEq, Repr

/-- The condition, the owner of the mutex and the threads; `between` lists those that are
between the unlock and the take. -/
structure State where
  owner : Option Tid
  cond : PthreadCond
  pc : Tid -> Pc
  between : List Tid

/-!
## Operations
-/

/-- `_pthread_cond_timedwait` up to its unlock; a caller that does not own the mutex gets
an error. -/
def condWaitEnter (s : State) (t : Tid) (time : Int) : State :=
  if s.owner = some t then
    { owner := none
      cond := s.cond.ready
      pc := Function.update s.pc t (Pc.between time)
      between := s.between ++ [t] }
  else { s with cond := s.cond.ready }

/-- How the wait goes on after `rt_sem_take`. -/
def afterTake (time : Int) : Take -> Pc
  | Take.taken => Pc.woken time RtErr.eok
  | Take.timedOut => Pc.woken time RtErr.etimeout
  | Take.waits => Pc.waiting time

def condWaitTake (s : State) (t : Tid) (time : Int) : State :=
  let took := semTake s.cond.sem t time
  { s with
    cond := { s.cond with sem := took.1 }
    pc := Function.update s.pc t (afterTake time took.2)
    between := s.between.erase t }

def condWaitExpire (s : State) (t : Tid) (time : Int) : State :=
  { s with
    cond := { s.cond with
      sem := { s.cond.sem with suspendThread := s.cond.sem.suspendThread.erase t } }
    pc := Function.update s.pc t (Pc.woken time RtErr.etimeout) }

def resume (pc : Tid -> Pc) (ts : List Tid) (t : Tid) : Pc :=
  match pc t with
  | Pc.waiting time => if t ∈ ts then Pc.woken time RtErr.eok else Pc.waiting time
  | p => p

inductive Op where
  | lock (t : Tid)
  | unlock (t : Tid)
  | wait (t : Tid) (time : Int)
  | take (t : Tid)
  | expire (t : Tid)
  | relock (t : Tid)
  | signal (t : Tid)
  | broadcast (t : Tid)
deriving DecidableEq, Repr

/-- One step.  A thread that waits for the mutex takes it once it is free. -/
def step (s : State) : Op -> Option State
  | Op.lock t =>
    if s.pc t = Pc.outside ∧ s.owner = none then some { s with owner := some t } else none
  | Op.unlock t =>
    if s.pc t = Pc.outside ∧ s.owner = some t then some { s with owner := none } else none
  | Op.wait t time =>
    if s.pc t = Pc.outside then some (condWaitEnter s t time) else none
  | Op.take t =>
    match s.pc t with
    | Pc.between time => some (condWaitTake s t time)
    | _ => none
  | Op.expire t =>
    match s.pc t with
    | Pc.waiting time => if 0 < time then some (condWaitExpire s t time) else none
    | _ => none
  | Op.relock t =>
    match s.pc t with
    | Pc.woken _ _ =>
      if s.owner = none then
        some { s with owner := some t, pc := Function.update s.pc t Pc.outside }
      else none
    | _ => none
  | Op.signal t =>
    if s.pc t = Pc.outside ∧ s.owner = some t then
      let released := pthreadCondSignal s.cond
      some { s with cond := released.1, pc := resume s.pc released.2 }
    else none
  | Op.broadcast t =>
    if s.pc t = Pc.outside ∧ s.owner = some t then
      (pthreadCondBroadcast s.cond t).map fun released =>
        { s with cond := released.1, pc := resume s.pc released.2 }
    else none

/-- A condition that is initialised, or that the first call will initialise, with no
thread in a wait. -/
structure Booted (s : State) : Prop where
  cond : s.cond = pthreadCondInit ∨ s.cond.attr = -1
  owner : s.owner = none
  pc : forall t, s.pc t = Pc.outside
  between : s.between = []

def State.sem (s : State) : RtSemaphore := s.cond.ready.sem

/-!
## The account
-/

/-- A thread in `heard` was between its unlock and its take at a broadcast; an entry of
`debts` are the threads that a signal found in their waits and that have not been suspended
since, none released; `lost` are those that a broadcast did not release. -/
structure Calls where
  heard : List Tid
  debts : List (List Tid)
  lost : List Tid
deriving DecidableEq, Repr

/-- The thread has left its wait without an error and not by its timer. -/
def State.released (s : State) (t : Tid) : Bool :=
  match s.pc t with
  | Pc.woken _ RtErr.eok => true
  | _ => false

def record (s : State) (op : Op) (s' : State) (h : Calls) : Calls :=
  match op with
  | Op.take t =>
    if s'.released t then
      { h with heard := h.heard.erase t, debts := h.debts.filter fun d => t ∉ d }
    else
      { heard := h.heard.erase t
        debts := h.debts.map fun d => d.erase t
        lost := h.lost ++ h.heard.filter (· = t) }
  | Op.signal _ =>
    let owed := s.sem.suspendThread ++ s.between
    if owed = [] ∨ owed.any s'.released then h
    else { h with debts := owed :: h.debts }
  | Op.broadcast _ =>
    { h with
      heard := s.between
      lost := h.lost ++ s.sem.suspendThread.filter fun t => !s'.released t }
  | _ => h

/-- No broadcast has left a thread in its wait, and no signal has left all of them. -/
def NothingLost (h : Calls) : Prop := h.lost = [] ∧ [] ∉ h.debts

/-- The signals that have to be answered by a thread of their own. -/
def Calls.open (h : Calls) : List (List Tid) :=
  h.debts.filter fun d => d.all fun t => t ∉ h.heard

/-- A broadcast finds at most as many threads between their unlock and their take as it
leaves tokens, which are those there are or, without any, one. A signal does not wrap the
semaphore. A thread nobody has called takes a token only when there are more than the calls
need. -/
def Uncrowded (s : State) (h : Calls) : Op -> Prop
  | Op.take t =>
    0 < s.sem.value -> t ∈ h.heard ∨ (exists d, d ∈ h.open ∧ t ∈ d) ∨
      h.heard.length + h.open.length < s.sem.value
  | Op.signal _ =>
    s.sem.suspendThread = [] -> s.between ≠ [] -> s.sem.value + 1 < 2 ^ 16
  | Op.broadcast _ => s.between.length ≤ max s.sem.value 1
  | _ => True

/-!
## Where the threads are
-/

/-- The lists hold the threads that are there, and a condition in use is initialised. -/
structure Placed (s : State) : Prop where
  attr : forall t, s.pc t ≠ Pc.outside -> s.cond.attr ≠ -1
  between : forall t, t ∈ s.between <-> exists time, s.pc t = Pc.between time
  between_nodup : s.between.Nodup
  queue : forall t, t ∈ s.sem.suspendThread <-> exists time, s.pc t = Pc.waiting time
  queue_nodup : s.sem.suspendThread.Nodup
  sem : SemOk s.sem

variable {s s' : State} {h : Calls} {t : Tid} {time : Int}

theorem Placed.sem_eq (hp : Placed s) (hpc : s.pc t ≠ Pc.outside) : s.sem = s.cond.sem := by
  unfold State.sem
  rw [PthreadCond.ready_of_attr (hp.attr t hpc)]

theorem sem_ready (owner : Option Tid) (pc : Tid -> Pc) (between : List Tid) :
    State.sem ⟨owner, s.cond.ready, pc, between⟩ = s.sem := by
  unfold State.sem
  exact congrArg PthreadCond.sem (PthreadCond.ready_of_attr s.cond.ready_attr)

theorem Booted.placed (hboot : Booted s) : Placed s := by
  have hsem : s.sem = rtSemInit 0 IpcFlag.fifo := by
    unfold State.sem PthreadCond.ready
    rcases hboot.cond with hcond | hattr
    · rw [hcond]
      rfl
    · rw [if_pos hattr]
      rfl
  constructor
  · intro t hpc
    exact absurd (hboot.pc t) hpc
  · intro t
    simp [hboot.between, hboot.pc t]
  · simp [hboot.between]
  · intro t
    simp [hsem, rtSemInit, hboot.pc t]
  · simp [hsem, rtSemInit]
  · rw [hsem]
    exact SemOk.init

theorem Placed.owner (hp : Placed s) (owner : Option Tid) : Placed { s with owner := owner } :=
  ⟨hp.attr, hp.between, hp.between_nodup, hp.queue, hp.queue_nodup, hp.sem⟩

theorem Placed.enter (hp : Placed s) (hpc : s.pc t = Pc.outside) :
    Placed (condWaitEnter s t time) := by
  unfold condWaitEnter
  split
  · constructor
    · intro _ _
      exact s.cond.ready_attr
    · intro u
      have hu := hp.between u
      by_cases heq : u = t
      · subst heq
        simp
      · simp [hu, heq]
    · refine List.nodup_append.mpr ⟨hp.between_nodup, List.nodup_singleton t, ?_⟩
      intro a ha b hb hab
      subst hab
      rw [List.mem_singleton] at hb
      subst hb
      obtain ⟨_, hbetween⟩ := (hp.between a).mp ha
      rw [hpc] at hbetween
      cases hbetween
    · intro u
      rw [sem_ready]
      have hu := hp.queue u
      by_cases heq : u = t
      · subst heq
        simp [hu, hpc]
      · simp [update_of_ne heq, hu]
    · rw [sem_ready]
      exact hp.queue_nodup
    · rw [sem_ready]
      exact hp.sem
  · refine ⟨fun _ _ => s.cond.ready_attr, hp.between, hp.between_nodup, ?_, ?_, ?_⟩ <;>
      rw [sem_ready]
    · exact hp.queue
    · exact hp.queue_nodup
    · exact hp.sem

theorem sem_with (cond : PthreadCond) (sem : RtSemaphore) (owner : Option Tid)
    (pc : Tid -> Pc) (between : List Tid) (hattr : cond.attr ≠ -1) :
    State.sem ⟨owner, { cond with sem := sem }, pc, between⟩ = sem :=
  congrArg PthreadCond.sem (PthreadCond.ready_of_attr (c := { cond with sem := sem }) hattr)

theorem Placed.take (hp : Placed s) (hpc : s.pc t = Pc.between time) :
    Placed (condWaitTake s t time) := by
  have hout : s.pc t ≠ Pc.outside := by simp [hpc]
  have hattr := hp.attr t hout
  have hsem := hp.sem_eq hout
  unfold condWaitTake
  have hqueue := hp.queue
  have hnodup := hp.queue_nodup
  have hok := hp.sem
  rw [hsem] at hqueue hnodup hok
  have ht : t ∉ s.cond.sem.suspendThread := by
    rw [hqueue t, hpc]
    simp
  constructor
  · intro _ _
    exact hattr
  · intro u
    rw [hp.between_nodup.mem_erase_iff, hp.between u]
    by_cases heq : u = t
    · subst heq
      simp only [ne_eq, not_true_eq_false, false_and, update_self, false_iff]
      rintro ⟨_, hafter⟩
      generalize (semTake s.cond.sem u time).2 = took at hafter
      cases took <;> cases hafter
    · simp [heq]
  · exact hp.between_nodup.erase t
  · intro u
    rw [sem_with _ _ _ _ _ hattr]
    unfold semTake
    by_cases heq : u = t
    · subst heq
      split
      · simpa [afterTake] using ht
      · split
        · simpa [afterTake] using ht
        · simp [afterTake]
    · have hu := hqueue u
      split
      · simpa [update_of_ne heq] using hu
      · split <;> simpa [update_of_ne heq, heq] using hu
  · rw [sem_with _ _ _ _ _ hattr]
    unfold semTake
    split
    · exact hnodup
    · split
      · exact hnodup
      · rw [<- List.concat_eq_append]
        exact hnodup.concat ht
  · rw [sem_with _ _ _ _ _ hattr]
    exact hok.take t time

theorem Placed.expire (hp : Placed s) (hpc : s.pc t = Pc.waiting time) :
    Placed (condWaitExpire s t time) := by
  have hout : s.pc t ≠ Pc.outside := by simp [hpc]
  have hattr := hp.attr t hout
  have hsem := hp.sem_eq hout
  have hqueue := hp.queue
  have hnodup := hp.queue_nodup
  have hok := hp.sem
  rw [hsem] at hqueue hnodup hok
  unfold condWaitExpire
  constructor
  · intro _ _
    exact hattr
  · intro u
    have hu := hp.between u
    by_cases heq : u = t
    · subst heq
      simp [hu, hpc]
    · simpa [update_of_ne heq] using hu
  · exact hp.between_nodup
  · intro u
    rw [sem_with _ _ _ _ _ hattr, hnodup.mem_erase_iff, hqueue u]
    by_cases heq : u = t
    · subst heq
      simp
    · simp [heq]
  · rw [sem_with _ _ _ _ _ hattr]
    exact hnodup.erase t
  · rw [sem_with _ _ _ _ _ hattr]
    refine ⟨fun hpos => ?_, hok.bound⟩
    simp [hok.queue hpos]

theorem Placed.relock {result : RtErr} (hp : Placed s) (hpc : s.pc t = Pc.woken time result) :
    Placed { s with owner := some t, pc := update s.pc t Pc.outside } := by
  constructor
  · intro u _
    exact hp.attr t (by simp [hpc])
  · intro u
    have hu := hp.between u
    by_cases heq : u = t
    · subst heq
      simp [hu, hpc]
    · simpa [update_of_ne heq] using hu
  · exact hp.between_nodup
  · intro u
    refine (hp.queue u).trans ?_
    by_cases heq : u = t
    · subst heq
      simp [hpc]
    · simp [update_of_ne heq]
  · exact hp.queue_nodup
  · exact hp.sem

variable {ts : List Tid}

theorem resume_between {pc : Tid -> Pc} :
    resume pc ts t = Pc.between time <-> pc t = Pc.between time := by
  unfold resume
  cases pc t with
  | waiting _ => by_cases hts : t ∈ ts <;> simp [hts]
  | _ => simp

theorem resume_waiting {pc : Tid -> Pc} :
    resume pc ts t = Pc.waiting time <-> pc t = Pc.waiting time ∧ t ∉ ts := by
  unfold resume
  cases pc t with
  | waiting _ => by_cases hts : t ∈ ts <;> simp [hts]
  | _ => simp

theorem Placed.release {sem : RtSemaphore} (hp : Placed s)
    (hsplit : s.sem.suspendThread = ts ++ sem.suspendThread) (hok : SemOk sem) :
    Placed { s with cond := { s.cond.ready with sem := sem }, pc := resume s.pc ts } := by
  have hnodup := hp.queue_nodup
  rw [hsplit] at hnodup
  constructor
  · intro _ _
    exact s.cond.ready_attr
  · intro u
    simp only [resume_between]
    exact hp.between u
  · exact hp.between_nodup
  · intro u
    have hu := hp.queue u
    rw [hsplit, List.mem_append] at hu
    rw [sem_with _ _ _ _ _ s.cond.ready_attr]
    simp only [resume_waiting, exists_and_right, <- hu]
    constructor
    · intro hmem
      exact ⟨Or.inr hmem, fun hts => List.disjoint_of_nodup_append hnodup hts hmem⟩
    · rintro ⟨hts | hmem, hnot⟩
      · exact absurd hts hnot
      · exact hmem
  · rw [sem_with _ _ _ _ _ s.cond.ready_attr]
    exact (List.nodup_append.mp hnodup).2.1
  · rw [sem_with _ _ _ _ _ s.cond.ready_attr]
    exact hok

theorem Placed.released_of_mem {cond : PthreadCond} (hp : Placed s)
    (hmem : t ∈ s.sem.suspendThread) (hts : t ∈ ts) :
    State.released { s with cond := cond, pc := resume s.pc ts } t = true := by
  obtain ⟨time, hpc⟩ := (hp.queue t).mp hmem
  simp [State.released, resume, hpc, hts]

/-!
## Tokens and calls
-/

/-- There is a token for every thread that a broadcast has called and for every signal
that none of these threads answers. -/
structure Served (s : State) (h : Calls) : Prop where
  nodup : h.heard.Nodup
  heard : forall t, t ∈ h.heard -> t ∈ s.between
  debts : forall d, d ∈ h.debts -> d ≠ [] ∧ forall t, t ∈ d -> t ∈ s.between
  tokens : h.heard.length + h.open.length ≤ s.sem.value
  lost : h.lost = []

theorem Served.mono (hh : Served s h) (hbetween : forall t, t ∈ s.between -> t ∈ s'.between)
    (hvalue : s.sem.value ≤ s'.sem.value) : Served s' h := by
  refine ⟨hh.nodup, fun t ht => hbetween t (hh.heard t ht), ?_, hh.tokens.trans hvalue, hh.lost⟩
  intro d hd
  exact ⟨(hh.debts d hd).1, fun t ht => hbetween t ((hh.debts d hd).2 t ht)⟩

theorem Served.enter (hh : Served s h) : Served (condWaitEnter s t time) h := by
  unfold condWaitEnter
  split
  · refine hh.mono (fun u hu => List.mem_append_left [t] hu) ?_
    rw [sem_ready]
  · refine hh.mono (fun u hu => hu) ?_
    rw [sem_ready]

theorem open_answered (h : Calls) (t : Tid) :
    Calls.open { h with heard := h.heard.erase t, debts := h.debts.filter fun d => t ∉ d } =
      h.open.filter fun d => t ∉ d := by
  unfold Calls.open
  rw [List.filter_filter, List.filter_filter]
  apply List.filter_congr
  intro d _
  by_cases htd : t ∈ d
  · simp [htd]
  · have hall : (d.all fun x => decide (x ∉ h.heard.erase t)) =
        d.all fun x => decide (x ∉ h.heard) := by
      rw [Bool.eq_iff_iff, List.all_eq_true, List.all_eq_true]
      apply forall₂_congr
      intro x hx
      have hne : x ≠ t := fun heq => htd (heq ▸ hx)
      simp only [List.mem_erase_of_ne hne]
    simp only [hall, htd, not_false_eq_true, decide_true, Bool.and_true, Bool.true_and]

theorem Served.taken (hh : Served s h) (hp : Placed s) (hpc : s.pc t = Pc.between time)
    (hpos : 0 < s.sem.value) (hok : Uncrowded s h (Op.take t)) :
    Served (condWaitTake s t time)
      { h with heard := h.heard.erase t, debts := h.debts.filter fun d => t ∉ d } := by
  have hout : s.pc t ≠ Pc.outside := by simp [hpc]
  have hsem := hp.sem_eq hout
  have hvalue : (condWaitTake s t time).sem.value = s.sem.value - 1 := by
    rw [hsem] at hpos ⊢
    unfold condWaitTake
    rw [sem_with _ _ _ _ _ (hp.attr t hout)]
    unfold semTake
    rw [if_pos hpos]
  have htokens := hh.tokens
  have hstay : forall u, u ≠ t -> u ∈ s.between -> u ∈ (condWaitTake s t time).between :=
    fun u hne hu => (List.mem_erase_of_ne hne).mpr hu
  constructor
  · exact hh.nodup.erase t
  · intro u hu
    have hmem := hh.nodup.mem_erase_iff.mp hu
    exact hstay u hmem.1 (hh.heard u hmem.2)
  · intro d hd
    simp only [List.mem_filter, decide_eq_true_eq] at hd
    obtain ⟨hne, hsub⟩ := hh.debts d hd.1
    exact ⟨hne, fun u hu => hstay u (fun heq => hd.2 (heq ▸ hu)) (hsub u hu)⟩
  · rw [open_answered, hvalue]
    have hle := List.length_filter_le (fun d => decide (t ∉ d)) h.open
    by_cases hheard : t ∈ h.heard
    · have hlen := List.length_erase_of_mem hheard
      have hone := List.length_pos_of_mem hheard
      simp only [hlen]
      omega
    · have hlen : (h.heard.erase t).length = h.heard.length := by
        rw [List.erase_of_not_mem hheard]
      simp only [hlen]
      rcases hok hpos with hmem | ⟨d, hd, htd⟩ | hspare
      · exact absurd hmem hheard
      · have hlt : (h.open.filter fun d => decide (t ∉ d)).length < h.open.length := by
          rw [List.length_filter_lt_length_iff_exists]
          exact ⟨d, hd, by simpa using htd⟩
        omega
      · omega
  · exact hh.lost

theorem Served.nobody (hh : Served s h) (hzero : s.sem.value = 0) :
    h.heard = [] ∧ h.debts = [] := by
  have htokens := hh.tokens
  rw [hzero] at htokens
  have hheard : h.heard = [] := List.length_eq_zero_iff.mp (by omega)
  have hopen : h.open = [] := List.length_eq_zero_iff.mp (by omega)
  refine ⟨hheard, ?_⟩
  unfold Calls.open at hopen
  rw [hheard] at hopen
  apply List.eq_nil_iff_forall_not_mem.mpr
  simpa using hopen

theorem Served.take (hh : Served s h) (hp : Placed s) (hpc : s.pc t = Pc.between time)
    (hok : Uncrowded s h (Op.take t)) :
    Served (condWaitTake s t time) (record s (Op.take t) (condWaitTake s t time) h) := by
  have hsem := hp.sem_eq (t := t) (by simp [hpc])
  unfold record
  rcases Nat.eq_zero_or_pos s.sem.value with hzero | hpos
  · have hnot : (condWaitTake s t time).released t = false := by
      rw [hsem] at hzero
      unfold State.released condWaitTake semTake
      simp only [hzero, lt_irrefl, if_false, update_self]
      by_cases htime : time = 0 <;> simp [htime, afterTake]
    obtain ⟨hheard, hdebts⟩ := hh.nobody hzero
    simp only [hnot, hheard, hdebts, Bool.false_eq_true, if_false]
    refine ⟨by simp, by simp, by simp, by simp [Calls.open], ?_⟩
    simpa using hh.lost
  · have hyes : (condWaitTake s t time).released t = true := by
      rw [hsem] at hpos
      unfold State.released condWaitTake semTake
      simp [hpos, afterTake]
    simp only [hyes, if_true]
    exact hh.taken hp hpc hpos hok

theorem Served.signal (hh : Served s h) (hp : Placed s) (hok : Uncrowded s h (Op.signal t))
    (hs' : s' = { s with
      cond := (pthreadCondSignal s.cond).1
      pc := resume s.pc (pthreadCondSignal s.cond).2 }) :
    Served s' (record s (Op.signal t) s' h) := by
  have hsem : s'.sem = (semRelease s.sem).1 := by
    rw [hs']
    exact sem_with _ _ _ _ _ s.cond.ready_attr
  have hbetween : s'.between = s.between := by rw [hs']
  unfold record
  simp only
  cases hqueue : s.sem.suspendThread with
  | cons w rest =>
    -- the first thread of the list answers the signal at once
    have hreleased : s'.released w = true := by
      rw [hs']
      refine hp.released_of_mem (by rw [hqueue]; exact List.mem_cons_self) ?_
      have hresumed : (semRelease s.sem).2 = [w] := by
        unfold semRelease
        rw [hqueue]
      show w ∈ (semRelease s.sem).2
      rw [hresumed]
      exact List.mem_cons_self
    rw [if_pos (Or.inr (by simp [hreleased]))]
    refine hh.mono (fun u hu => hbetween ▸ hu) ?_
    rw [hsem]
    unfold semRelease
    rw [hqueue]
  | nil =>
    have hvalue : s'.sem.value = (s.sem.value + 1) % 2 ^ 16 := by
      rw [hsem]
      unfold semRelease
      rw [hqueue]
    rw [List.nil_append]
    by_cases hnone : s.between = []
    · -- with nobody in a wait there is no call to serve
      rw [if_pos (Or.inl hnone)]
      have hheard : h.heard = [] :=
        List.eq_nil_iff_forall_not_mem.mpr fun u hu => by simpa [hnone] using hh.heard u hu
      have hdebts : h.debts = [] := by
        apply List.eq_nil_iff_forall_not_mem.mpr
        intro d hd
        obtain ⟨hne, hsub⟩ := hh.debts d hd
        obtain ⟨u, hu⟩ := List.exists_mem_of_ne_nil d hne
        simpa [hnone] using hsub u hu
      refine ⟨hh.nodup, by simp [hheard], by simp [hdebts], ?_, hh.lost⟩
      simp [Calls.open, hheard, hdebts]
    · have hlt := hok hqueue hnone
      rw [Nat.mod_eq_of_lt hlt] at hvalue
      have hmono : Served s' h := hh.mono (fun u hu => hbetween ▸ hu) (by omega)
      split
      · exact hmono
      · refine ⟨hh.nodup, hmono.heard, ?_, ?_, hh.lost⟩
        · intro d hd
          rcases List.mem_cons.mp hd with rfl | hd
          · exact ⟨hnone, fun u hu => hbetween ▸ hu⟩
          · exact hmono.debts d hd
        · have hopen : (Calls.open { h with debts := s.between :: h.debts }).length ≤
              h.open.length + 1 := by
            unfold Calls.open
            rw [List.filter_cons]
            split <;> simp
          have htokens := hh.tokens
          simp only at hopen ⊢
          omega

theorem Served.broadcast (hh : Served s h) (hp : Placed s) (hok : Uncrowded s h (Op.broadcast t))
    (hs' : s' = { s with
      cond := { s.cond.ready with
        sem := { s.sem with value := max s.sem.value 1, suspendThread := [] } }
      pc := resume s.pc s.sem.suspendThread }) :
    Served s' (record s (Op.broadcast t) s' h) := by
  have hvalue : s'.sem.value = max s.sem.value 1 := by
    rw [hs', sem_with _ _ _ _ _ s.cond.ready_attr]
  have hbetween : s'.between = s.between := by rw [hs']
  unfold record
  constructor
  · exact hp.between_nodup
  · intro u hu
    rw [hbetween]
    exact hu
  · intro d hd
    rw [hbetween]
    exact hh.debts d hd
  · -- every signal without an answer has called a thread that the broadcast calls too
    have hopen : (Calls.open { h with heard := s.between }) = [] := by
      unfold Calls.open
      rw [List.filter_eq_nil_iff]
      intro d hd hall
      obtain ⟨hne, hsub⟩ := hh.debts d hd
      obtain ⟨u, hu⟩ := List.exists_mem_of_ne_nil d hne
      rw [List.all_eq_true] at hall
      exact (of_decide_eq_true (hall u hu)) (hsub u hu)
    have hnone : (Calls.open
        { heard := s.between, debts := h.debts,
          lost := h.lost ++ s.sem.suspendThread.filter fun t => !s'.released t }) = [] := hopen
    simp only [hnone, List.length_nil, Nat.add_zero, hvalue]
    exact hok
  · have hall : (s.sem.suspendThread.filter fun t => !s'.released t) = [] := by
      rw [List.filter_eq_nil_iff]
      intro u hu
      rw [hs', hp.released_of_mem hu hu]
      simp
    simp [hall, hh.lost]

/-!
## Runs
-/

theorem Placed.step {op : Op} (hp : Placed s) (hs : step s op = some s') : Placed s' := by
  unfold CondWakeup.step at hs
  cases op with
  | lock t =>
    simp only at hs
    split at hs
    · cases hs
      exact hp.owner _
    · cases hs
  | unlock t =>
    simp only at hs
    split at hs
    · cases hs
      exact hp.owner _
    · cases hs
  | wait t time =>
    simp only at hs
    split at hs
    · next hpc =>
        cases hs
        exact hp.enter hpc
    · cases hs
  | take t =>
    simp only at hs
    split at hs
    · next time hpc =>
        cases hs
        exact hp.take hpc
    · cases hs
  | expire t =>
    simp only at hs
    split at hs
    · next time hpc =>
        split at hs
        · cases hs
          exact hp.expire hpc
        · cases hs
    · cases hs
  | relock t =>
    simp only at hs
    split at hs
    · next hpc =>
        split at hs
        · cases hs
          exact hp.relock hpc
        · cases hs
    · cases hs
  | signal t =>
    simp only at hs
    split at hs
    · cases hs
      exact hp.release (semRelease_split s.sem) hp.sem.release
    · cases hs
  | broadcast t =>
    simp only at hs
    split at hs
    · rw [pthreadCondBroadcast_eq t hp.sem] at hs
      cases hs
      exact hp.release (List.append_nil _).symm hp.sem.broadcast
    · cases hs

theorem Served.step {op : Op} (hh : Served s h) (hp : Placed s) (hok : Uncrowded s h op)
    (hs : step s op = some s') : Served s' (record s op s' h) := by
  unfold CondWakeup.step at hs
  cases op with
  | lock t =>
    simp only at hs
    split at hs
    · cases hs
      exact hh.mono (fun _ hu => hu) le_rfl
    · cases hs
  | unlock t =>
    simp only at hs
    split at hs
    · cases hs
      exact hh.mono (fun _ hu => hu) le_rfl
    · cases hs
  | wait t time =>
    simp only at hs
    split at hs
    · cases hs
      exact hh.enter
    · cases hs
  | take t =>
    simp only at hs
    split at hs
    · next time hpc =>
        cases hs
        exact hh.take hp hpc hok
    · cases hs
  | expire t =>
    simp only at hs
    split at hs
    · next time hpc =>
        split at hs
        · cases hs
          have hout : s.pc t ≠ Pc.outside := by simp [hpc]
          refine hh.mono (fun _ hu => hu) ?_
          rw [hp.sem_eq hout]
          unfold condWaitExpire
          rw [sem_with _ _ _ _ _ (hp.attr t hout)]
        · cases hs
    · cases hs
  | relock t =>
    simp only at hs
    split at hs
    · split at hs
      · cases hs
        exact hh.mono (fun _ hu => hu) le_rfl
      · cases hs
    · cases hs
  | signal t =>
    simp only at hs
    split at hs
    · cases hs
      exact hh.signal hp hok rfl
    · cases hs
  | broadcast t =>
    simp only at hs
    split at hs
    · rw [pthreadCondBroadcast_eq t hp.sem] at hs
      cases hs
      exact hh.broadcast hp hok rfl
    · cases hs

theorem Served.start (s : State) : Served s ⟨[], [], []⟩ :=
  ⟨by simp, by simp, by simp, by simp [Calls.open], rfl⟩

theorem Served.next_take (hh : Served s h) (hp : Placed s) (ht : t ∈ h.heard) :
    exists s', CondWakeup.step s (Op.take t) = some s' ∧ s'.released t = true := by
  obtain ⟨time, hpc⟩ := (hp.between t).mp (hh.heard t ht)
  have hpos : 0 < s.cond.sem.value := by
    rw [<- hp.sem_eq (t := t) (by simp [hpc])]
    have htokens := hh.tokens
    have hone := List.length_pos_of_mem ht
    omega
  refine ⟨condWaitTake s t time, by simp [CondWakeup.step, hpc], ?_⟩
  unfold State.released condWaitTake semTake
  simp [hpos, afterTake]

/-- In every run in which no broadcast finds more threads between their unlock and their
take than it leaves tokens, no signal wraps the semaphore and no thread takes a token that a
call needs: no broadcast has left a thread in its wait, no signal all the threads it found,
and whoever a broadcast has called before the semaphore will be released by it. -/
theorem condition_loses_no_wakeup {s0 s : State} {h : Calls} {ops : List Op}
    (hboot : Booted s0)
    (hrun : Run (Guarded (fun (x : State × Calls) op => Uncrowded x.1 x.2 op)
      (Graph (watched step record))) (s0, ⟨[], [], []⟩) ops (s, h)) :
    NothingLost h ∧ forall t, t ∈ h.heard ->
      exists s', step s (Op.take t) = some s' ∧ s'.released t = true := by
  have hinv : Placed s ∧ Served s h := by
    apply hrun.guarded_watched_invariant (fun s h => Placed s ∧ Served s h)
      ⟨hboot.placed, Served.start s0⟩
    intro s h op s' hinv hok hs
    exact ⟨hinv.1.step hs, hinv.2.step hinv.1 hok hs⟩
  obtain ⟨hp, hh⟩ := hinv
  refine ⟨⟨hh.lost, fun hnil => (hh.debts [] hnil).1 rfl⟩, fun t ht => hh.next_take hp ht⟩

def bootState : State :=
  { owner := none, cond := pthreadCondInit, pc := fun _ => Pc.outside, between := [] }

theorem bootState_booted : Booted bootState := ⟨Or.inl rfl, rfl, fun _ => rfl, rfl⟩

instance (s : State) (h : Calls) : forall op, Decidable (Uncrowded s h op)
  | Op.take _ => inferInstanceAs (Decidable (_ -> _))
  | Op.signal _ => inferInstanceAs (Decidable (_ -> _ -> _))
  | Op.broadcast _ => inferInstanceAs (Decidable (_ ≤ _))
  | Op.lock _ => isTrue trivial
  | Op.unlock _ => isTrue trivial
  | Op.wait _ _ => isTrue trivial
  | Op.expire _ => isTrue trivial
  | Op.relock _ => isTrue trivial

def oneBetween : List Op :=
  [Op.lock 0, Op.wait 0 (-1), Op.take 0, Op.lock 1, Op.wait 1 (-1), Op.lock 2,
    Op.broadcast 2, Op.take 1]

theorem condition_loses_no_wakeup_one_between :
    exists x, Run (Guarded (fun (x : State × Calls) op => Uncrowded x.1 x.2 op)
      (Graph (watched step record))) (bootState, ⟨[], [], []⟩) oneBetween x ∧
      NothingLost x.2 := by
  obtain ⟨x, hx⟩ : exists x, exec (fun x op => if Uncrowded x.1 x.2 op then
      watched step record x op else none) (bootState, ⟨[], [], []⟩) oneBetween = some x :=
    ⟨_, rfl⟩
  have hrun : Run (Guarded (fun (x : State × Calls) op => Uncrowded x.1 x.2 op)
      (Graph (watched step record))) (bootState, ⟨[], [], []⟩) oneBetween x :=
    guarded_run_of_exec hx
  exact ⟨x, hrun, (condition_loses_no_wakeup bootState_booted hrun).1⟩

def twoBetween : List Op :=
  [Op.lock 0, Op.wait 0 (-1), Op.lock 1, Op.wait 1 (-1), Op.lock 2, Op.broadcast 2,
    Op.take 0, Op.take 1]

/-- A thread is between its unlock and its take at a signal; one that begins its wait
afterwards takes the token. -/
def tokenTaken : List Op :=
  [Op.lock 0, Op.wait 0 (-1), Op.lock 2, Op.signal 2, Op.unlock 2, Op.lock 1,
    Op.wait 1 (-1), Op.take 1, Op.take 0]

theorem condition_loses_wakeups :
    (exists x, Run (Graph (watched step record)) (bootState, ⟨[], [], []⟩) twoBetween x ∧
      x.2.lost = [1] ∧ x.1.pc 1 = Pc.waiting (-1) ∧ x.1.sem.value = 0) ∧
    (exists x, Run (Graph (watched step record)) (bootState, ⟨[], [], []⟩) tokenTaken x ∧
      [] ∈ x.2.debts ∧ x.1.pc 0 = Pc.waiting (-1) ∧ x.1.sem.value = 0) := by
  constructor
  · obtain ⟨x, hx⟩ : exists x, exec (watched step record) (bootState, ⟨[], [], []⟩)
        twoBetween = some x := ⟨_, rfl⟩
    refine ⟨x, run_of_exec hx, ?_⟩
    cases hx
    exact ⟨rfl, rfl, rfl⟩
  · obtain ⟨x, hx⟩ : exists x, exec (watched step record) (bootState, ⟨[], [], []⟩)
        tokenTaken = some x := ⟨_, rfl⟩
    refine ⟨x, run_of_exec hx, ?_⟩
    cases hx
    exact ⟨List.mem_singleton.mpr rfl, rfl, rfl⟩

end RtThread.Pthreads.CondWakeup
