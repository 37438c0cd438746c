import RtThread.Library.Transition

/-!
# The end of a pthread

A pthread ends by returning, by `pthread_exit` or by an asynchronous `pthread_cancel`; another
thread may join or detach it; the idle thread calls its cleanup function. Each releases a part of
what `pthread_create` has allocated. A step is a stretch of code up to the next place where
another of the three can go on. Uses of freed memory and of missing semaphores, and frees of what
is still linked, are recorded as faults.
-/

namespace RtThread.Pthreads.Lifetime

open Transition

/-- The pthread is in its start routine; behind it, with its return value set; in
`pthread_exit` before the release of the semaphore, before its `rt_thread_detach`, or there,
off the ready list but not yet in the defunct list; ended; or switched away from without
being in any list. -/
inductive ThreadPc where
  | running
  | returned
  | exiting
  | detaching
  | removed
  | ended
  | lost
deriving DecidableEq, Repr

/-- Where the thread is that joins or detaches: before its call, before its take, suspended
on it, behind it, or at the end. -/
inductive OtherPc where
  | outside
  | taking
  | waiting
  | taken
  | joined (value : Int)
  | refused
  | detached
deriving DecidableEq, Repr

inductive Fault where
  | usedFreed
  | freedLinked
  | noSemaphore
  | joinedEarly
deriving DecidableEq, Repr

structure Freed where
  thread : Nat
  data : Nat
  stack : Nat
  tls : Nat
  sem : Nat
deriving DecidableEq, Repr

/-- `close`, `cleanup`, `defunct` and `listed` are of the thread object, the next six of its
`_pthread_data_t`; `given` is the value returned or passed to `pthread_exit`, and `tlsMade`
counts the TLS areas. -/
structure State where
  close : Bool
  cleanup : Bool
  defunct : Bool
  listed : Bool
  joinable : Bool
  ownStack : Bool
  joinableSem : Bool
  semValue : Nat
  returnValue : Int
  tls : Bool
  pc : ThreadPc
  other : OtherPc
  idle : Bool
  freed : Freed
  tlsMade : Nat
  given : Option Int
  faults : List Fault
deriving DecidableEq, Repr

def pthreadCreate (joinable ownStack : Bool) : State :=
  { close := false, cleanup := true, defunct := false, listed := true
    joinable := joinable, ownStack := ownStack, joinableSem := joinable, semValue := 0
    returnValue := 0, tls := false
    pc := ThreadPc.running, other := OtherPc.outside, idle := false
    freed := ⟨0, 0, 0, 0, 0⟩, tlsMade := 0, given := none, faults := [] }

/-!
## The functions
-/

def State.fault (s : State) (f : Fault) : State := { s with faults := f :: s.faults }

def State.useThread (s : State) : State :=
  if s.freed.thread = 0 then s else s.fault Fault.usedFreed

def State.useData (s : State) : State :=
  if s.freed.data = 0 then s else s.fault Fault.usedFreed

def State.useSem (s : State) : State :=
  if s.joinableSem = false then s.fault Fault.noSemaphore
  else if s.freed.sem = 0 then s else s.fault Fault.usedFreed

/-- `rt_thread_detach` takes the thread out of its list and, when there is a cleanup
function, puts it into the defunct list. -/
def rtThreadDetach (s : State) : State :=
  { s.useThread with close := true, listed := false, defunct := s.cleanup }

def deleteSem (s : State) : State :=
  { s.useSem with freed := { s.freed with sem := s.freed.sem + 1 } }

def releaseSem (s : State) : State :=
  if s.other = OtherPc.waiting then { s.useSem with other := OtherPc.taken }
  else { s.useSem with semValue := s.semValue + 1 }

/-- The stack, the TLS area, the thread object and the data block are freed. -/
def freeAll (s : State) : State :=
  let s := if s.defunct ∨ s.listed then s.fault Fault.freedLinked else s
  { s with
    freed :=
      { s.freed with
        thread := s.freed.thread + 1
        data := s.freed.data + 1
        stack := s.freed.stack + s.ownStack.toNat
        tls := s.freed.tls + s.tls.toNat } }

def pthreadDetach (s : State) : State :=
  let s := s.useData.useThread
  if s.close then
    freeAll (rtThreadDetach (if s.joinableSem then deleteSem s else s))
  else { deleteSem { s with joinable := false } with joinableSem := false }

def rtThreadExit (s : State) : State :=
  let s := s.useThread
  if s.cleanup then { s with close := true, defunct := true, pc := ThreadPc.ended }
  else { s with close := true, listed := false, pc := ThreadPc.ended }

def pthreadCleanup (s : State) : State :=
  let s := { s.useData with cleanup := false }
  if s.joinable then releaseSem s else pthreadDetach s

/-- The rest of `pthread_join`, when it has the semaphore. -/
def joinFinish (s : State) : State :=
  let s := s.useData
  let s := if s.close then s else s.fault Fault.joinedEarly
  { pthreadDetach s with other := OtherPc.joined s.returnValue }

inductive Op where
  | makeTls
  | ret (value : Int)
  | threadExit
  | exit (value : Int)
  | exitRelease
  | exitRemove
  | exitDetach
  | preempt
  | cancel
  | join
  | joinTake
  | joinFinish
  | detach
  | idleClean
  | idleCheck
deriving DecidableEq, Repr

/-- One step of the pthread, of a thread that cancels it, of the thread that joins or
detaches, or of the idle thread. -/
def step (s : State) : Op -> Option State
  | Op.makeTls =>
    if s.pc = ThreadPc.running ∧ s.tls = false then
      some { s.useData with tls := true, tlsMade := s.tlsMade + 1 }
    else none
  | Op.ret value =>
    if s.pc = ThreadPc.running then
      some { s.useData with
        returnValue := value, given := some value, pc := ThreadPc.returned }
    else none
  | Op.threadExit => if s.pc = ThreadPc.returned then some (rtThreadExit s) else none
  | Op.exit value =>
    -- the cleanup handlers have run and the TLS area is released
    if s.pc = ThreadPc.running then
      some { s.useData with
        returnValue := value
        given := some value
        freed := { s.freed with tls := s.freed.tls + s.tls.toNat }
        tls := false
        pc := ThreadPc.exiting }
    else none
  | Op.exitRelease =>
    if s.pc = ThreadPc.exiting then
      let s := s.useData
      some { (if s.joinable then releaseSem s else s) with pc := ThreadPc.detaching }
    else none
  | Op.exitRemove =>
    if s.pc = ThreadPc.detaching then some { s.useThread with pc := ThreadPc.removed }
    else none
  | Op.exitDetach =>
    if s.pc = ThreadPc.removed then some { rtThreadDetach s with pc := ThreadPc.ended }
    else none
  | Op.preempt =>
    if s.pc = ThreadPc.removed then some { s with pc := ThreadPc.lost } else none
  | Op.cancel =>
    if s.pc = ThreadPc.running ∨ s.pc = ThreadPc.returned then
      some { rtThreadDetach s.useData with pc := ThreadPc.ended }
    else none
  | Op.join =>
    if s.other = OtherPc.outside then
      some { s.useData with
        other := if s.joinable then OtherPc.taking else OtherPc.refused }
    else none
  | Op.joinTake =>
    if s.other = OtherPc.taking then
      some (if 0 < s.semValue then
        { s.useSem with semValue := s.semValue - 1, other := OtherPc.taken }
      else { s.useSem with other := OtherPc.waiting })
    else none
  | Op.joinFinish =>
    if s.other = OtherPc.taken then some (joinFinish s) else none
  | Op.detach =>
    if s.other = OtherPc.outside then
      some { pthreadDetach s with other := OtherPc.detached }
    else none
  | Op.idleClean =>
    if s.defunct ∧ s.idle = false then
      let s := { s.useThread with defunct := false, idle := true }
      some (if s.cleanup then pthreadCleanup s else s)
    else none
  | Op.idleCheck =>
    if s.idle then some { s.useThread with idle := false } else none

/-- The idle thread cleans up a joinable pthread; what the other thread does with its
resources comes after that; and the pthread is not switched away from between the ready list
and the defunct list. -/
def Orderly (s : State) : Op -> Prop
  | Op.idleClean => s.joinable = true
  | Op.joinFinish => s.cleanup = false ∧ s.idle = false
  | Op.detach => s.cleanup = false ∧ s.idle = false
  | Op.preempt => False
  | _ => True

def OtherPc.released : OtherPc -> Bool
  | OtherPc.joined _ => true
  | OtherPc.detached => true
  | _ => false

/-- No fault has happened. Before the join or the detach the resources are there, apart from
a TLS area that `pthread_exit` has freed; after it each has been freed once, and nothing
refers to the thread. A join gives the value of a pthread that has ended. -/
structure ReleasedOnce (s : State) : Prop where
  faults : s.faults = []
  kept : s.other.released = false ->
    s.freed = ⟨0, 0, 0, s.freed.tls, 0⟩ ∧ s.tlsMade = s.freed.tls + s.tls.toNat ∧
      s.tlsMade ≤ 1
  freed : s.other.released = true ->
    s.freed = ⟨1, 1, s.ownStack.toNat, s.tlsMade, 1⟩ ∧ s.tlsMade ≤ 1 ∧
      s.defunct = false ∧
      s.listed = false ∧ s.idle = false ∧ s.pc = ThreadPc.ended
  joined : forall v, s.other = OtherPc.joined v -> s.close = true ∧ v = s.given.getD 0
  scheduled : s.pc ≠ ThreadPc.lost

/-!
## What the parties rely on
-/

/-- The pthread is in the defunct list from its end until the idle thread cleans it up while
it is joinable; the semaphore is there as long. -/
structure Agreed (s : State) : Prop where
  close : s.close = true <-> s.pc = ThreadPc.ended
  defunct : s.defunct = true <-> s.pc = ThreadPc.ended ∧ s.cleanup = true
  cleaned : s.cleanup = false -> s.pc = ThreadPc.ended ∧ s.joinable = true
  idle : s.idle = true -> s.cleanup = false
  sem : s.joinableSem = s.joinable
  joining : s.other = OtherPc.taking ∨ s.other = OtherPc.waiting ∨ s.other = OtherPc.taken ->
    s.joinable = true
  value : s.returnValue = s.given.getD 0
  tls : s.pc = ThreadPc.running -> s.freed.tls = 0

/-- The resources are there and nobody has noticed a fault. -/
structure Held (s : State) : Prop where
  agreed : Agreed s
  faults : s.faults = []
  freed : s.freed = ⟨0, 0, 0, s.freed.tls, 0⟩
  tls : s.tlsMade = s.freed.tls + s.tls.toNat
  once : s.tlsMade ≤ 1
  other : s.other.released = false
  scheduled : s.pc ≠ ThreadPc.lost

/-- The resources have been released, and nobody is left to use them. -/
structure Gone (s : State) : Prop where
  faults : s.faults = []
  freed : s.freed = ⟨1, 1, s.ownStack.toNat, s.tlsMade, 1⟩
  once : s.tlsMade ≤ 1
  defunct : s.defunct = false
  listed : s.listed = false
  idle : s.idle = false
  pc : s.pc = ThreadPc.ended
  close : s.close = true
  other : s.other.released = true
  joined : forall v, s.other = OtherPc.joined v -> v = s.given.getD 0

variable {s s' : State} {f : Fault}

theorem Held.useThread (hs : Held s) : s.useThread = s := by
  unfold State.useThread
  rw [hs.freed]
  rfl

theorem Held.useData (hs : Held s) : s.useData = s := by
  unfold State.useData
  rw [hs.freed]
  rfl

theorem Held.useSem (hs : Held s) (hj : s.joinable = true) : s.useSem = s := by
  unfold State.useSem
  rw [hs.agreed.sem, hj, hs.freed]
  rfl

theorem Held.start (joinable ownStack : Bool) : Held (pthreadCreate joinable ownStack) := by
  refine ⟨⟨?_, ?_, ?_, ?_, rfl, ?_, rfl, fun _ => rfl⟩, rfl, rfl, rfl, Nat.zero_le 1, rfl,
    ?_⟩ <;>
    simp [pthreadCreate]

/-!
## Steps
-/

theorem Held.makeTls (hs : Held s) (hpc : s.pc = ThreadPc.running) (htls : s.tls = false) :
    Held { s with tls := true, tlsMade := s.tlsMade + 1 } := by
  have ha := hs.agreed
  have hmade := hs.tls
  have hzero := ha.tls hpc
  rw [htls, hzero] at hmade
  refine ⟨⟨ha.close, ha.defunct, ha.cleaned, ha.idle, ha.sem, ha.joining, ha.value, ha.tls⟩,
    hs.faults, hs.freed, ?_, ?_, hs.other, hs.scheduled⟩
  · simp [hmade, hzero]
  · simp [hmade]

theorem Held.move (hs : Held s) (hnot : s.pc ≠ ThreadPc.ended) {pc : ThreadPc}
    (hpc : pc ≠ ThreadPc.running) (hended : pc ≠ ThreadPc.ended)
    (hlost : pc ≠ ThreadPc.lost) :
    Held { s with pc := pc } := by
  have ha := hs.agreed
  refine ⟨⟨?_, ?_, ?_, ha.idle, ha.sem, ha.joining, ha.value, ?_⟩, hs.faults, hs.freed,
    hs.tls, hs.once, hs.other, hlost⟩
  · rw [ha.close]
    exact ⟨fun h => absurd h hnot, fun h => absurd h hended⟩
  · rw [ha.defunct]
    exact ⟨fun h => absurd h.1 hnot, fun h => absurd h.1 hended⟩
  · intro hclean
    exact absurd (ha.cleaned hclean).1 hnot
  · intro hrunning
    exact absurd hrunning hpc

theorem Held.give (hs : Held s) (value : Int) :
    Held { s with returnValue := value, given := some value } := by
  have ha := hs.agreed
  exact ⟨⟨ha.close, ha.defunct, ha.cleaned, ha.idle, ha.sem, ha.joining, rfl, ha.tls⟩,
    hs.faults, hs.freed, hs.tls, hs.once, hs.other, hs.scheduled⟩

theorem Held.freeTls (hs : Held s) {pc : ThreadPc} (hnot : s.pc ≠ ThreadPc.ended)
    (hpc : pc ≠ ThreadPc.running) (hended : pc ≠ ThreadPc.ended)
    (hlost : pc ≠ ThreadPc.lost) :
    Held { s with
      freed := { s.freed with tls := s.freed.tls + s.tls.toNat }, tls := false, pc := pc } := by
  have hm := hs.move hnot hpc hended hlost
  have ha := hm.agreed
  refine ⟨⟨ha.close, ha.defunct, ha.cleaned, ha.idle, ha.sem, ha.joining, ha.value, ?_⟩,
    hs.faults, ?_, ?_, hs.once, hs.other, hlost⟩
  · intro hrunning
    exact absurd hrunning hpc
  · show { s.freed with tls := s.freed.tls + s.tls.toNat } = _
    rw [hs.freed]
  · show s.tlsMade = s.freed.tls + s.tls.toNat + 0
    exact hs.tls

theorem Held.finish (hs : Held s) (hnot : s.pc ≠ ThreadPc.ended) (listed : Bool) :
    Held { s with close := true, listed := listed, defunct := s.cleanup,
                  pc := ThreadPc.ended } := by
  have ha := hs.agreed
  have hcleanup : s.cleanup = true := by
    cases hc : s.cleanup with
    | true => rfl
    | false => exact absurd (ha.cleaned hc).1 hnot
  refine ⟨⟨?_, ?_, ?_, ha.idle, ha.sem, ha.joining, ha.value, ?_⟩, hs.faults, hs.freed,
    hs.tls, hs.once, hs.other, ?_⟩ <;> simp [hcleanup]

theorem Held.release (hs : Held s) (hj : s.joinable = true) : Held (releaseSem s) := by
  have ha := hs.agreed
  unfold releaseSem
  rw [hs.useSem hj]
  split
  · exact ⟨⟨ha.close, ha.defunct, ha.cleaned, ha.idle, ha.sem, fun _ => hj, ha.value,
      ha.tls⟩,
      hs.faults, hs.freed, hs.tls, hs.once, rfl, hs.scheduled⟩
  · exact ⟨⟨ha.close, ha.defunct, ha.cleaned, ha.idle, ha.sem, ha.joining, ha.value, ha.tls⟩,
      hs.faults, hs.freed, hs.tls, hs.once, hs.other, hs.scheduled⟩

theorem Held.other_move (hs : Held s) {other : OtherPc} (hother : other.released = false)
    (hj : other = OtherPc.taking ∨ other = OtherPc.waiting ∨ other = OtherPc.taken ->
      s.joinable = true) (semValue : Nat) :
    Held { s with semValue := semValue, other := other } := by
  have ha := hs.agreed
  exact ⟨⟨ha.close, ha.defunct, ha.cleaned, ha.idle, ha.sem, hj, ha.value, ha.tls⟩,
    hs.faults, hs.freed, hs.tls, hs.once, hother, hs.scheduled⟩

theorem Held.clean (hs : Held s) (hdefunct : s.defunct = true) (hj : s.joinable = true) :
    Held { s with defunct := false, idle := true, cleanup := false } := by
  have ha := hs.agreed
  obtain ⟨hended, _⟩ := ha.defunct.mp hdefunct
  refine ⟨⟨ha.close, ?_, fun _ => ⟨hended, hj⟩, fun _ => rfl, ha.sem, ha.joining, ha.value,
    ha.tls⟩, hs.faults, hs.freed, hs.tls, hs.once, hs.other, hs.scheduled⟩
  simp

theorem Held.check (hs : Held s) : Held { s with idle := false } := by
  have ha := hs.agreed
  refine ⟨⟨ha.close, ha.defunct, ha.cleaned, ?_, ha.sem, ha.joining, ha.value, ha.tls⟩,
    hs.faults, hs.freed, hs.tls, hs.once, hs.other, hs.scheduled⟩
  intro hidle
  cases hidle

theorem Held.gone (hs : Held s) (hclean : s.cleanup = false) (hidle : s.idle = false)
    {other : OtherPc} (hother : other.released = true)
    (hvalue : forall v, other = OtherPc.joined v -> v = s.returnValue) :
    Gone { pthreadDetach s with other := other } := by
  have ha := hs.agreed
  obtain ⟨hended, hj⟩ := ha.cleaned hclean
  have hclose := ha.close.mpr hended
  have hsem : s.joinableSem = true := ha.sem.trans hj
  have hmade := hs.tls
  have hdetach : pthreadDetach s = { s with
        close := true
        listed := false
        defunct := false
        freed := ⟨1, 1, s.ownStack.toNat, s.freed.tls + s.tls.toNat, 1⟩ } := by
    unfold pthreadDetach
    simp only [hs.useData, hs.useThread, hclose, if_true, hsem]
    have hfreed := hs.freed
    generalize s.freed.tls = n at hfreed ⊢
    unfold deleteSem rtThreadDetach freeAll State.useThread
    rw [hs.useSem hj]
    simp [hfreed, hclean, hsem]
  rw [hdetach]
  refine ⟨hs.faults, ?_, hs.once, rfl, rfl, hidle, hended, rfl, hother, ?_⟩
  · simp only [hmade]
  · intro v hv
    rw [hvalue v hv]
    exact ha.value

theorem Held.joinFinish (hs : Held s) (hclean : s.cleanup = false) (hidle : s.idle = false) :
    Gone (joinFinish s) := by
  have hclose := hs.agreed.close.mpr (hs.agreed.cleaned hclean).1
  unfold Lifetime.joinFinish
  simp only [hs.useData, hclose, if_true]
  refine hs.gone hclean hidle rfl ?_
  intro v hv
  cases hv
  rfl

theorem pthreadCleanup_joinable (hdata : s.useData = s) (hj : s.joinable = true) :
    pthreadCleanup s = releaseSem { s with cleanup := false } := by
  unfold pthreadCleanup
  rw [hdata]
  exact if_pos hj

theorem Held.step {op : Op} (hs : Held s) (hok : Orderly s op) (h : step s op = some s') :
    Held s' ∨ Gone s' := by
  unfold Lifetime.step at h
  cases op with
  | makeTls =>
    simp only [Option.ite_none_right_eq_some, Option.some.injEq] at h
    obtain ⟨⟨hpc, htls⟩, heq⟩ := h
    rw [hs.useData] at heq
    subst heq
    exact Or.inl (hs.makeTls hpc htls)
  | ret value =>
    simp only [Option.ite_none_right_eq_some, Option.some.injEq] at h
    obtain ⟨hpc, heq⟩ := h
    rw [hs.useData] at heq
    subst heq
    exact Or.inl ((hs.give value).move (by simp [hpc]) (by decide) (by decide) (by decide))
  | threadExit =>
    simp only [Option.ite_none_right_eq_some, Option.some.injEq] at h
    obtain ⟨hpc, heq⟩ := h
    have hnot : s.pc ≠ ThreadPc.ended := by simp [hpc]
    have hcleanup : s.cleanup = true := by
      cases hc : s.cleanup with
      | true => rfl
      | false => exact absurd (hs.agreed.cleaned hc).1 hnot
    have hfinish := hs.finish hnot s.listed
    unfold rtThreadExit at heq
    rw [hs.useThread, if_pos hcleanup] at heq
    rw [hcleanup] at hfinish
    subst heq
    left
    rw [hcleanup]
    exact hfinish
  | exit value =>
    simp only [Option.ite_none_right_eq_some, Option.some.injEq] at h
    obtain ⟨hpc, heq⟩ := h
    rw [hs.useData] at heq
    subst heq
    exact Or.inl ((hs.give value).freeTls (by simp [hpc]) (by decide) (by decide) (by decide))
  | exitRelease =>
    simp only [Option.ite_none_right_eq_some, Option.some.injEq] at h
    obtain ⟨hpc, heq⟩ := h
    rw [hs.useData] at heq
    subst heq
    left
    split
    · next hj =>
        have hrelease := hs.release hj
        refine hrelease.move ?_ (by decide) (by decide) (by decide)
        unfold releaseSem
        rw [hs.useSem hj]
        split <;> simp [hpc]
    · exact hs.move (by simp [hpc]) (by decide) (by decide) (by decide)
  | exitRemove =>
    simp only [Option.ite_none_right_eq_some, Option.some.injEq] at h
    obtain ⟨hpc, heq⟩ := h
    rw [hs.useThread] at heq
    subst heq
    exact Or.inl (hs.move (by simp [hpc]) (by decide) (by decide) (by decide))
  | exitDetach =>
    simp only [Option.ite_none_right_eq_some, Option.some.injEq] at h
    obtain ⟨hpc, heq⟩ := h
    unfold rtThreadDetach at heq
    rw [hs.useThread] at heq
    subst heq
    exact Or.inl (hs.finish (by simp [hpc]) false)
  | preempt => exact hok.elim
  | cancel =>
    simp only [Option.ite_none_right_eq_some, Option.some.injEq] at h
    obtain ⟨hpc, heq⟩ := h
    unfold rtThreadDetach at heq
    rw [hs.useData, hs.useThread] at heq
    subst heq
    have hnot : s.pc ≠ ThreadPc.ended := by
      rcases hpc with hpc | hpc
      · simp [hpc]
      · simp [hpc]
    exact Or.inl (hs.finish hnot false)
  | join =>
    simp only [Option.ite_none_right_eq_some, Option.some.injEq] at h
    obtain ⟨_, heq⟩ := h
    rw [hs.useData] at heq
    subst heq
    left
    by_cases hj : s.joinable = true
    · rw [if_pos hj]
      exact hs.other_move rfl (fun _ => hj) s.semValue
    · rw [if_neg hj]
      exact hs.other_move rfl (by simp) s.semValue
  | joinTake =>
    simp only [Option.ite_none_right_eq_some, Option.some.injEq] at h
    obtain ⟨hother, heq⟩ := h
    have hj := hs.agreed.joining (Or.inl hother)
    rw [hs.useSem hj] at heq
    subst heq
    left
    split
    · exact hs.other_move rfl (fun _ => hj) (s.semValue - 1)
    · exact hs.other_move rfl (fun _ => hj) s.semValue
  | joinFinish =>
    simp only [Option.ite_none_right_eq_some, Option.some.injEq] at h
    obtain ⟨_, heq⟩ := h
    subst heq
    exact Or.inr (hs.joinFinish hok.1 hok.2)
  | detach =>
    simp only [Option.ite_none_right_eq_some, Option.some.injEq] at h
    obtain ⟨_, heq⟩ := h
    subst heq
    exact Or.inr (hs.gone hok.1 hok.2 rfl fun v hv => by cases hv)
  | idleClean =>
    simp only [Option.ite_none_right_eq_some, Option.some.injEq] at h
    obtain ⟨⟨hdefunct, _⟩, heq⟩ := h
    have hj : s.joinable = true := hok
    have hcleanup := (hs.agreed.defunct.mp hdefunct).2
    have hclean := hs.clean hdefunct hj
    rw [hs.useThread, if_pos hcleanup] at heq
    left
    have hdata : State.useData { s with defunct := false, idle := true } =
        { s with defunct := false, idle := true } := by
      unfold State.useData
      rw [if_pos]
      exact congrArg Freed.data hs.freed
    rw [pthreadCleanup_joinable hdata hj] at heq
    subst heq
    exact hclean.release hj
  | idleCheck =>
    simp only [Option.ite_none_right_eq_some, Option.some.injEq] at h
    obtain ⟨_, heq⟩ := h
    rw [hs.useThread] at heq
    subst heq
    exact Or.inl hs.check

theorem Gone.step {op : Op} (hs : Gone s) : step s op = none := by
  have hother : s.other ≠ OtherPc.outside ∧ s.other ≠ OtherPc.taking ∧
    s.other ≠ OtherPc.taken := by
    have hreleased := hs.other
    cases ho : s.other <;> simp_all [OtherPc.released]
  unfold Lifetime.step
  cases op <;> simp [hs.pc, hs.defunct, hs.idle, hother]

theorem Held.releasedOnce (hs : Held s) : ReleasedOnce s := by
  refine ⟨hs.faults, fun _ => ⟨hs.freed, hs.tls, hs.once⟩, ?_, ?_, hs.scheduled⟩
  · intro hreleased
    rw [hs.other] at hreleased
    cases hreleased
  · intro v hv
    have hother := hs.other
    rw [hv] at hother
    cases hother

theorem Gone.releasedOnce (hs : Gone s) : ReleasedOnce s := by
  refine ⟨hs.faults, ?_, fun _ => ⟨hs.freed, hs.once, hs.defunct, hs.listed, hs.idle, hs.pc⟩,
    fun v hv => ⟨hs.close, hs.joined v hv⟩, ?_⟩
  · intro hkept
    rw [hs.other] at hkept
    cases hkept
  · rw [hs.pc]
    decide

/-- In every run in which the idle thread cleans the pthread up while it is joinable, the
other thread goes on with its resources only after that, and it is not switched away from
inside its own `rt_thread_detach`: there is no fault, and the join or the detach has freed
everything once. -/
theorem pthread_released_once {joinable ownStack : Bool} {ops : List Op}
    (hrun : Run (Guarded Orderly (Graph step)) (pthreadCreate joinable ownStack) ops s) :
    ReleasedOnce s := by
  have hinv : Held s ∨ Gone s := by
    apply hrun.invariant (fun s => Held s ∨ Gone s) (Or.inl (Held.start joinable ownStack))
    rintro s op s' (hs | hs) ⟨hok, h⟩
    · exact hs.step hok h
    · have hnone : step s op = none := hs.step
      rw [show step s op = some s' from h] at hnone
      cases hnone
  rcases hinv with hs | hs
  · exact hs.releasedOnce
  · exact hs.releasedOnce

instance (s : State) : forall op, Decidable (Orderly s op)
  | Op.idleClean => inferInstanceAs (Decidable (_ = _))
  | Op.joinFinish => inferInstanceAs (Decidable (_ ∧ _))
  | Op.detach => inferInstanceAs (Decidable (_ ∧ _))
  | Op.preempt => isFalse id
  | Op.makeTls => isTrue trivial
  | Op.ret _ => isTrue trivial
  | Op.threadExit => isTrue trivial
  | Op.exit _ => isTrue trivial
  | Op.exitRelease => isTrue trivial
  | Op.exitRemove => isTrue trivial
  | Op.exitDetach => isTrue trivial
  | Op.cancel => isTrue trivial
  | Op.join => isTrue trivial
  | Op.joinTake => isTrue trivial
  | Op.idleCheck => isTrue trivial

def joinedAfterCleanup : List Op :=
  [Op.makeTls, Op.ret 7, Op.threadExit, Op.idleClean, Op.idleCheck, Op.join, Op.joinTake,
    Op.joinFinish]

theorem pthread_released_once_joined :
    exists s, Run (Guarded Orderly (Graph step)) (pthreadCreate true true)
      joinedAfterCleanup s ∧ s.other = OtherPc.joined 7 ∧ ReleasedOnce s := by
  obtain ⟨s, hs⟩ : exists s, exec (fun s op => if Orderly s op then step s op else none)
      (pthreadCreate true true) joinedAfterCleanup = some s := ⟨_, rfl⟩
  have hrun := guarded_run_of_exec hs
  refine ⟨s, hrun, ?_, pthread_released_once hrun⟩
  cases hs
  rfl

/-- The joining thread waits, and goes on as soon as `pthread_exit` releases the
semaphore. -/
def joinerAtOnce : List Op :=
  [Op.join, Op.joinTake, Op.exit 7, Op.exitRelease, Op.joinFinish]

/-- The joining thread waits, and goes on when the pthread has ended but before the idle
thread. -/
def joinerBeforeIdle : List Op :=
  [Op.join, Op.joinTake, Op.exit 7, Op.exitRelease, Op.exitRemove, Op.exitDetach,
    Op.joinFinish, Op.idleClean]

def detachedReturns : List Op := [Op.ret 7, Op.threadExit, Op.idleClean, Op.idleCheck]

theorem pthread_released_wrongly :
    (exists s, Run (Graph step) (pthreadCreate true true) joinerAtOnce s ∧
      s.faults = [Fault.joinedEarly]) ∧
    (exists s, Run (Graph step) (pthreadCreate true true) joinerBeforeIdle s ∧
      Fault.freedLinked ∈ s.faults ∧ Fault.usedFreed ∈ s.faults) ∧
    (exists s, Run (Graph step) (pthreadCreate false true) detachedReturns s ∧
      s.faults = [Fault.usedFreed]) := by
  refine ⟨?_, ?_, ?_⟩
  · obtain ⟨s, hs⟩ : exists s, exec step (pthreadCreate true true) joinerAtOnce = some s :=
      ⟨_, rfl⟩
    refine ⟨s, run_of_exec hs, ?_⟩
    cases hs
    rfl
  · obtain ⟨s, hs⟩ : exists s, exec step (pthreadCreate true true) joinerBeforeIdle = some s :=
      ⟨_, rfl⟩
    refine ⟨s, run_of_exec hs, ?_⟩
    cases hs
    decide
  · obtain ⟨s, hs⟩ : exists s, exec step (pthreadCreate false true) detachedReturns = some s :=
      ⟨_, rfl⟩
    refine ⟨s, run_of_exec hs, ?_⟩
    cases hs
    rfl

end RtThread.Pthreads.Lifetime
