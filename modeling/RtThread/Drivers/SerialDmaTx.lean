import RtThread.Drivers.DataQueueFifo

/-!
# The transmit side of a serial device in DMA mode

`_serial_dma_tx` by any number of threads, and `rt_hw_serial_isr` on `RT_SERIAL_EVENT_TX_DMADONE`.
A write is three steps: it pushes its buffer into the data queue, tests `activated` with
interrupts disabled and calls `dma_transmit` if it has to start the transfer. The interrupt
handler is one step, and comes when a transfer has ended.
-/

namespace RtThread.Drivers.SerialDmaTx

open Kernel
open Function (update update_of_ne update_self)
open DataQueue (RtDataItem Log Pending)
open Transition

def rtTrue : Int := 1

def rtFalse : Int := 0

/-- Where a write is behind its push: at the test of `activated`, or at its call of
`dma_transmit`. -/
inductive WriterPc where
  | idle
  | pushed (item : RtDataItem)
  | starting (item : RtDataItem)
deriving DecidableEq, Repr

/-- `struct rt_serial_tx_dma` with its writers and the transfers that the hardware has
under way. -/
structure State where
  activated : Int
  dataQueue : DataQueue.State
  writer : Tid -> WriterPc
  active : List RtDataItem

/-- How the calls on the data queue ended, the writer whose push was accepted, what was
handed to `dma_transmit`, and what `tx_complete` was called with, where `none` is a pointer
that was never set. -/
structure Note where
  queue : List DataQueue.Outcome
  accepted : Option Tid
  transmitted : List RtDataItem
  completed : List (Option Nat)

def quiet : Note := { queue := [], accepted := none, transmitted := [], completed := [] }

/-!
## Operations
-/

/-- A write behind its call of `rt_data_queue_push`, which waits, fails or succeeds. -/
def afterPush (s : State) (t : Tid) (r : DataQueue.State × DataQueue.Outcome) :
    State × Note :=
  match r.2 with
  | DataQueue.Outcome.pushed item =>
    ({ s with dataQueue := r.1, writer := Function.update s.writer t (WriterPc.pushed item) },
      { quiet with queue := [r.2], accepted := some t })
  | _ => ({ s with dataQueue := r.1 }, { quiet with queue := [r.2] })

def rtSerialWrite (s : State) (t : Tid) (item : RtDataItem) : Option (State × Note) :=
  if item.dataSize = 0 then some (s, quiet)
  else
    (DataQueue.stepOutcome s.dataQueue (DataQueue.Op.push (some t) item (-1))).map
      (afterPush s t)

def testActivated (s : State) (t : Tid) (item : RtDataItem) : State :=
  if s.activated ≠ rtTrue then
    { s with
      activated := rtTrue
      writer := Function.update s.writer t (WriterPc.starting item) }
  else { s with writer := Function.update s.writer t WriterPc.idle }

/-- The writer's call of `dma_transmit`. -/
def startTransfer (s : State) (t : Tid) (item : RtDataItem) : State × Note :=
  ({ s with
      writer := Function.update s.writer t WriterPc.idle
      active := s.active ++ [item] },
    { quiet with transmitted := [item] })

def lastDataPtr : DataQueue.Outcome -> Option Nat
  | DataQueue.Outcome.popped item _ => some item.dataPtr
  | _ => none

/-- `RT_SERIAL_EVENT_TX_DMADONE`, with the transfers that are left. -/
def dmaDone (s : State) (rest : List RtDataItem) : Option (State × Note) :=
  (DataQueue.stepOutcome s.dataQueue (DataQueue.Op.pop none 0)).map fun r =>
    match DataQueue.rtDataQueuePeak r.1 with
    | (q, DataQueue.Outcome.peeked item) =>
      ({ s with activated := rtTrue, dataQueue := q, active := rest ++ [item] },
        { quiet with
          queue := [r.2]
          transmitted := [item]
          completed := [lastDataPtr r.2] })
    | (q, _) =>
      ({ s with activated := rtFalse, dataQueue := q, active := rest },
        { quiet with queue := [r.2], completed := [lastDataPtr r.2] })

inductive Op where
  | write (t : Tid) (item : RtDataItem)
  | again (t : Tid)
  | test (t : Tid)
  | transmit (t : Tid)
  | dmaDone
deriving DecidableEq, Repr

def isReady (s : State) (t : Tid) : Bool :=
  (s.dataQueue.thread t).stat = ThreadStat.ready

def stepNote (s : State) : Op -> Option (State × Note)
  | Op.write t item => if s.writer t = WriterPc.idle then rtSerialWrite s t item else none
  | Op.again t =>
    match s.writer t, s.dataQueue.pc t with
    | WriterPc.idle, DataQueue.Pc.pushing _ _ =>
      (DataQueue.stepOutcome s.dataQueue (DataQueue.Op.again t)).map (afterPush s t)
    | _, _ => none
  | Op.test t =>
    match s.writer t with
    | WriterPc.pushed item =>
      if isReady s t then some (testActivated s t item, quiet) else none
    | _ => none
  | Op.transmit t =>
    match s.writer t with
    | WriterPc.starting item => if isReady s t then some (startTransfer s t item) else none
    | _ => none
  | Op.dmaDone =>
    match s.active with
    | [] => none
    | _ :: rest => dmaDone s rest

def step (s : State) (op : Op) : Option State := (stepNote s op).map Prod.fst

/-- The device as `rt_serial_open` leaves it.  Nothing is said about `activated`. -/
structure Opened (s : State) : Prop where
  booted : DataQueue.Booted s.dataQueue
  writer : forall t, s.writer t = WriterPc.idle
  active : s.active = []

/-!
## The account
-/

/-- The buffers accepted and popped, those handed to `dma_transmit`, those `tx_complete` was
called with, and for each writer the place of its last buffer. -/
structure Account where
  log : Log
  transmitted : List RtDataItem
  completed : List (Option Nat)
  number : Tid -> Nat

def Account.note (a : Account) (n : Note) : Account :=
  { log := n.queue.foldl Log.note a.log
    transmitted := a.transmitted ++ n.transmitted
    completed := a.completed ++ n.completed
    number :=
      match n.accepted with
      | some t => Function.update a.number t a.log.pushed.length
      | none => a.number }

def emptyAccount : Account :=
  { log := DataQueue.emptyLog, transmitted := [], completed := [], number := fun _ => 0 }

def record (s : State) (op : Op) (_ : State) (a : Account) : Account :=
  match stepNote s op with
  | some (_, n) => a.note n
  | none => a

/-- A push does not test a full queue between the wraps of the two indices, and a writer
that finds `activated` clear has pushed the oldest buffer. -/
def InTurn (s : State) (a : Account) : Op -> Prop
  | Op.write _ item => item.dataSize ≠ 0 -> ¬ s.dataQueue.dq.fullUnseen
  | Op.again t =>
    DataQueue.testsPush s.dataQueue (DataQueue.Op.again t) = true ->
      ¬ s.dataQueue.dq.fullUnseen
  | Op.test t => s.activated ≠ rtTrue -> a.number t = a.log.popped.length
  | _ => True

instance (s : State) (a : Account) : forall op, Decidable (InTurn s a op)
  | Op.write _ _ => inferInstanceAs (Decidable (_ -> _))
  | Op.again _ => inferInstanceAs (Decidable (_ -> _))
  | Op.test _ => inferInstanceAs (Decidable (_ -> _))
  | Op.transmit _ => isTrue trivial
  | Op.dmaDone => isTrue trivial

/-- Who drives the queue: nobody, and then the writer of the oldest buffer has yet to test;
a writer about to transfer the oldest buffer; or the hardware, which is transferring it. -/
inductive Driven (s : State) (a : Account) : Prop where
  | nobody (hflag : s.activated ≠ rtTrue) (hactive : s.active = [])
      (hstart : forall t item, s.writer t ≠ WriterPc.starting item)
      (hsent : a.transmitted = a.log.popped)
      (howner : a.log.popped.length < a.log.pushed.length ->
        exists t item, s.writer t = WriterPc.pushed item ∧
          a.number t = a.log.popped.length)
  | writer (t : Tid) (item : RtDataItem) (hflag : s.activated = rtTrue)
      (hactive : s.active = []) (hwriter : s.writer t = WriterPc.starting item)
      (hstart : forall t' item', s.writer t' = WriterPc.starting item' -> t' = t)
      (holdest : a.log.pushed[a.log.popped.length]? = some item)
      (hsent : a.transmitted = a.log.popped)
  | hardware (item : RtDataItem) (hflag : s.activated = rtTrue) (hactive : s.active = [item])
      (hstart : forall t item, s.writer t ≠ WriterPc.starting item)
      (holdest : a.log.pushed[a.log.popped.length]? = some item)
      (hsent : a.transmitted = a.log.popped ++ [item])

structure Dispatch (s : State) (a : Account) : Prop where
  pending : Pending s.dataQueue.dq a.log
  completed : a.completed = a.log.popped.map fun item => some item.dataPtr
  owner : forall t item, s.writer t = WriterPc.pushed item ->
    a.log.pushed[a.number t]? = some item
  driven : Driven s a

/-!
## Steps
-/

variable {s : State} {a : Account} {t : Tid} {item : RtDataItem}

theorem le_of_pending {dq : DataQueue.RtDataQueue} {log : Log} (hp : Pending dq log) :
    log.popped.length ≤ log.pushed.length := by
  obtain ⟨_, l, _, _, hlog, _⟩ := hp
  rw [hlog, List.length_append]
  exact Nat.le_add_right _ _

theorem index_ne_iff {dq : DataQueue.RtDataQueue} {log : Log} (hp : Pending dq log) :
    dq.getIndex ≠ dq.putIndex <-> log.popped.length < log.pushed.length := by
  have hle := le_of_pending hp
  obtain ⟨hstored, _⟩ := hp.stored_eq
  obtain ⟨hput, hget, hbound, _, _⟩ := hp.indices
  unfold Log.stored at hstored
  omega

theorem writer_update {pc pc' : WriterPc} {t' : Tid} (hidle : s.writer t = pc)
    (hother : s.writer t' = pc') (hne : pc ≠ pc') (new : WriterPc) :
    update s.writer t new t' = pc' := by
  rw [update_of_ne]
  · exact hother
  · intro heq
    rw [heq, hidle] at hother
    exact hne hother

variable {new : WriterPc} {q : DataQueue.State}

theorem not_starting_update (hstart : forall t item, s.writer t ≠ WriterPc.starting item)
    (hnew : forall item, new ≠ WriterPc.starting item) (t' : Tid) (item' : RtDataItem) :
    update s.writer t new t' ≠ WriterPc.starting item' := by
  rcases eq_or_ne t' t with rfl | hne
  · rw [update_self]
    exact hnew item'
  · rw [update_of_ne hne]
    exact hstart t' item'

theorem only_starting_update {t0 : Tid}
    (hstart : forall t item, s.writer t = WriterPc.starting item -> t = t0)
    (hnew : forall item, new ≠ WriterPc.starting item) (t' : Tid) (item' : RtDataItem)
    (hwriter : update s.writer t new t' = WriterPc.starting item') : t' = t0 := by
  rcases eq_or_ne t' t with rfl | hne
  · rw [update_self] at hwriter
    exact absurd hwriter (hnew item')
  · rw [update_of_ne hne] at hwriter
    exact hstart t' item' hwriter

def Account.push (a : Account) (t : Tid) (item : RtDataItem) : Account :=
  { a with
    log := { a.log with pushed := a.log.pushed ++ [item] }
    number := Function.update a.number t a.log.pushed.length }

theorem Driven.push (hd : Driven s a)
    (hle : a.log.popped.length ≤ a.log.pushed.length) (hidle : s.writer t = WriterPc.idle) :
    Driven { s with
      dataQueue := q
      writer := update s.writer t (WriterPc.pushed item) } (a.push t item) := by
  have hgrown (x : RtDataItem) (hx : a.log.pushed[a.log.popped.length]? = some x) :
      (a.log.pushed ++ [item])[a.log.popped.length]? = some x := by
    rw [List.getElem?_append_left (List.getElem?_eq_some_iff.mp hx).1]
    exact hx
  cases hd with
  | nobody hflag hactive hstart hsent howner =>
    refine Driven.nobody hflag hactive (not_starting_update hstart nofun) hsent ?_
    intro _
    rcases Nat.lt_or_ge a.log.popped.length a.log.pushed.length with hlt | hge
    · obtain ⟨t', item', hwriter, hnumber⟩ := howner hlt
      have hne : t' ≠ t := by
        rintro rfl
        rw [hidle] at hwriter
        cases hwriter
      refine ⟨t', item', writer_update hidle hwriter nofun _, ?_⟩
      exact (update_of_ne hne _ _).trans hnumber
    · refine ⟨t, item, update_self .., ?_⟩
      exact (update_self ..).trans (Nat.le_antisymm hge hle)
  | writer t' item' hflag hactive hwriter hstart holdest hsent =>
    exact Driven.writer t' item' hflag hactive (writer_update hidle hwriter nofun _)
      (only_starting_update hstart nofun) (hgrown _ holdest) hsent
  | hardware item' hflag hactive hstart holdest hsent =>
    exact Driven.hardware item' hflag hactive (not_starting_update hstart nofun)
      (hgrown _ holdest) hsent

theorem Dispatch.queue (hd : Dispatch s a)
    (hpending : Pending q.dq a.log) : Dispatch { s with dataQueue := q } a := by
  refine ⟨hpending, hd.completed, hd.owner, ?_⟩
  cases hd.driven with
  | nobody hflag hactive hstart hsent howner =>
    exact Driven.nobody hflag hactive hstart hsent howner
  | writer t' item' hflag hactive hwriter hstart holdest hsent =>
    exact Driven.writer t' item' hflag hactive hwriter hstart holdest hsent
  | hardware item' hflag hactive hstart holdest hsent =>
    exact Driven.hardware item' hflag hactive hstart holdest hsent

theorem Account.note_queue (a : Account) (o : DataQueue.Outcome) :
    a.note { quiet with queue := [o] } = { a with log := a.log.note o } := by
  unfold Account.note quiet
  simp

theorem Dispatch.afterPush {o : DataQueue.Outcome}
    {op : DataQueue.Op} (hd : Dispatch s a) (hidle : s.writer t = WriterPc.idle)
    (hnopop : DataQueue.testsPop s.dataQueue op = false)
    (hseen : DataQueue.testsPush s.dataQueue op = true -> ¬ s.dataQueue.dq.fullUnseen)
    (hs : DataQueue.stepOutcome s.dataQueue op = some (q, o)) :
    Dispatch (afterPush s t (q, o)).1 (a.note (afterPush s t (q, o)).2) := by
  have hpending := hd.pending.step hseen hs
  have hslots := DataQueue.step_slots hs
  have hsame (hlog : a.log.note o = a.log) :
      Dispatch { s with dataQueue := q } (a.note { quiet with queue := [o] }) := by
    rw [a.note_queue, hlog]
    rw [hlog] at hpending
    exact hd.queue hpending
  cases o with
  | pushed item =>
    have haccount : a.note (SerialDmaTx.afterPush s t (q, DataQueue.Outcome.pushed item)).2 =
          a.push t item := by
      unfold Account.note Account.push SerialDmaTx.afterPush quiet
      simp [Log.note]
    rw [haccount]
    refine ⟨hpending, hd.completed, ?_, hd.driven.push (le_of_pending hd.pending) hidle⟩
    intro t' item' hwriter
    change update s.writer t (WriterPc.pushed item) t' = _ at hwriter
    show (a.log.pushed ++ [item])[update a.number t _ t']? = _
    rcases eq_or_ne t' t with rfl | hne
    · rw [update_self] at hwriter
      cases hwriter
      rw [update_self, List.getElem?_append_right (Nat.le_refl _), Nat.sub_self]
      rfl
    · rw [update_of_ne hne] at hwriter
      have howner := hd.owner t' item' hwriter
      rw [update_of_ne hne, List.getElem?_append_left (List.getElem?_eq_some_iff.mp howner).1]
      exact howner
  | popped item low =>
    have htests := hslots.1
    rw [hnopop] at htests
    cases htests
  | waits => exact hsame rfl
  | fails e => exact hsame rfl
  | peeked item => exact hsame rfl
  | expired => exact hsame rfl

theorem Account.note_quiet (a : Account) : a.note quiet = a := by
  unfold Account.note quiet
  simp

theorem owner_update {pushed : List RtDataItem} {number : Tid -> Nat}
    (howner : forall t item, s.writer t = WriterPc.pushed item -> pushed[number t]? = some item)
    (hnew : forall item, new ≠ WriterPc.pushed item) (t' : Tid) (item' : RtDataItem)
    (hwriter : update s.writer t new t' = WriterPc.pushed item') :
    pushed[number t']? = some item' := by
  rcases eq_or_ne t' t with rfl | hne
  · rw [update_self] at hwriter
    exact absurd hwriter (hnew item')
  · rw [update_of_ne hne] at hwriter
    exact howner t' item' hwriter

theorem Dispatch.test (hd : Dispatch s a) (hpc : s.writer t = WriterPc.pushed item)
    (hturn : s.activated ≠ rtTrue -> a.number t = a.log.popped.length) :
    Dispatch (testActivated s t item) a := by
  have howner := hd.owner t item hpc
  unfold testActivated
  split
  · next hflag =>
      rw [hturn hflag] at howner
      refine ⟨hd.pending, hd.completed, owner_update hd.owner nofun, ?_⟩
      cases hd.driven with
      | nobody _ hactive hstart hsent _ =>
        refine Driven.writer t item rfl hactive (update_self ..) ?_ howner hsent
        intro t' item' hwriter
        by_contra hne
        exact hstart t' item' ((update_of_ne hne _ _).symm.trans hwriter)
      | writer _ _ hset => exact absurd hset hflag
      | hardware _ hset => exact absurd hset hflag
  · next hset =>
      refine ⟨hd.pending, hd.completed, owner_update hd.owner nofun, ?_⟩
      cases hd.driven with
      | nobody hflag => exact absurd hflag hset
      | writer t' item' hflag hactive hwriter hstart holdest hsent =>
        exact Driven.writer t' item' hflag hactive (writer_update hpc hwriter nofun _)
          (only_starting_update hstart nofun) holdest hsent
      | hardware item' hflag hactive hstart holdest hsent =>
        exact Driven.hardware item' hflag hactive (not_starting_update hstart nofun) holdest hsent

theorem Dispatch.transmit (hd : Dispatch s a) (hpc : s.writer t = WriterPc.starting item) :
    Dispatch (startTransfer s t item).1 (a.note (startTransfer s t item).2) := by
  have haccount : a.note (startTransfer s t item).2 =
      { a with transmitted := a.transmitted ++ [item] } := by
    unfold Account.note startTransfer quiet
    simp
  rw [haccount]
  refine ⟨hd.pending, hd.completed, owner_update hd.owner nofun, ?_⟩
  cases hd.driven with
  | nobody _ _ hstart => exact absurd hpc (hstart t item)
  | hardware _ _ _ hstart => exact absurd hpc (hstart t item)
  | writer t' item' hflag hactive hwriter hstart holdest hsent =>
    obtain rfl := hstart t item hpc
    rw [hpc] at hwriter
    cases hwriter
    refine Driven.hardware item hflag ?_ ?_ holdest ?_
    · show s.active ++ [item] = [item]
      rw [hactive, List.nil_append]
    · intro t2 item2 h2
      rcases eq_or_ne t2 t with rfl | hne
      · simp [startTransfer] at h2
      · simp only [startTransfer, update_of_ne hne] at h2
        exact hne (hstart t2 item2 h2)
    · show a.transmitted ++ [item] = _
      rw [hsent]

theorem Dispatch.dmaDone {first : RtDataItem} {rest : List RtDataItem} {s' : State} {n : Note}
    (hd : Dispatch s a) (hactive : s.active = first :: rest)
    (hs : dmaDone s rest = some (s', n)) : Dispatch s' (a.note n) := by
  cases hd.driven with
  | nobody _ hnone =>
    rw [hnone] at hactive
    cases hactive
  | writer _ _ _ hnone =>
    rw [hnone] at hactive
    cases hactive
  | hardware item hflag hone hstart holdest hsent =>
    obtain ⟨-, rfl⟩ := List.cons.inj (hone.symm.trans hactive)
    have hsome := (index_ne_iff hd.pending).mpr (List.getElem?_eq_some_iff.mp holdest).1
    unfold SerialDmaTx.dmaDone at hs
    rw [Option.map_eq_some_iff] at hs
    obtain ⟨⟨q, o⟩, hpop, hs⟩ := hs
    have hpending := hd.pending.step (fun h => by cases h) hpop
    have ho : exists low, o = DataQueue.Outcome.popped item low := by
      simp only [DataQueue.stepOutcome, DataQueue.mayCall, DataQueue.popLoop, if_true,
        hsome, if_false, Option.some.injEq, Prod.mk.injEq] at hpop
      have hfront := hd.pending.front hsome
      rw [holdest] at hfront
      exact ⟨_, hpop.2.symm.trans (by rw [Option.some.inj hfront])⟩
    obtain ⟨low, rfl⟩ := ho
    have hsent' : a.transmitted = (a.log.note (DataQueue.Outcome.popped item low)).popped := hsent
    have hcompleted : a.completed ++ [some item.dataPtr] =
        (a.log.note (DataQueue.Outcome.popped item low)).popped.map
          fun item => some item.dataPtr := by
      rw [hd.completed]
      simp [Log.note]
    have howner (t : Tid) (x : RtDataItem) (hwriter : s.writer t = WriterPc.pushed x) :
        (a.log.note (DataQueue.Outcome.popped item low)).pushed[a.number t]? = some x :=
      hd.owner t x hwriter
    generalize hlog : a.log.note (DataQueue.Outcome.popped item low) = log at *
    by_cases hempty : q.dq.getIndex = q.dq.putIndex
    · simp only [DataQueue.rtDataQueuePeak, hempty, if_true, Prod.mk.injEq] at hs
      obtain ⟨rfl, rfl⟩ := hs
      have haccount : a.note { quiet with
            queue := [DataQueue.Outcome.popped item low]
            completed := [some item.dataPtr] } =
          { a with log := log, completed := a.completed ++ [some item.dataPtr] } := by
        unfold Account.note quiet
        simp [hlog]
      show Dispatch _ (a.note _)
      rw [show lastDataPtr (DataQueue.Outcome.popped item low) = some item.dataPtr from rfl,
        haccount]
      refine ⟨hpending, hcompleted, howner, ?_⟩
      refine Driven.nobody (show rtFalse ≠ rtTrue by decide) rfl hstart hsent' ?_
      intro hlt
      exact absurd hempty ((index_ne_iff hpending).mpr hlt)
    · simp only [DataQueue.rtDataQueuePeak, hempty, if_false, Prod.mk.injEq] at hs
      obtain ⟨rfl, rfl⟩ := hs
      have haccount : a.note { quiet with
            queue := [DataQueue.Outcome.popped item low]
            transmitted := [q.dq.front]
            completed := [some item.dataPtr] } =
          { a with
            log := log
            transmitted := a.transmitted ++ [q.dq.front]
            completed := a.completed ++ [some item.dataPtr] } := by
        unfold Account.note quiet
        simp [hlog]
      show Dispatch _ (a.note _)
      rw [show lastDataPtr (DataQueue.Outcome.popped item low) = some item.dataPtr from rfl,
        haccount]
      refine ⟨hpending, hcompleted, howner, ?_⟩
      exact Driven.hardware q.dq.front rfl rfl hstart (hpending.front hempty) (by rw [hsent'])

theorem Dispatch.step {op : Op} {s' : State} {n : Note} (hd : Dispatch s a)
    (hturn : InTurn s a op) (hs : stepNote s op = some (s', n)) : Dispatch s' (a.note n) := by
  cases op with
  | write t item =>
    simp only [stepNote, rtSerialWrite] at hs
    split at hs
    · next hidle =>
        split at hs
        · cases hs
          rw [a.note_quiet]
          exact hd
        · next hsize =>
            rw [Option.map_eq_some_iff] at hs
            obtain ⟨⟨q, o⟩, hpush, heq⟩ := hs
            have hnext := hd.afterPush hidle rfl (fun _ => hturn hsize) hpush
            rw [heq] at hnext
            exact hnext
    · cases hs
  | again t =>
    simp only [stepNote] at hs
    split at hs
    · next item timeout hidle hpc =>
        rw [Option.map_eq_some_iff] at hs
        obtain ⟨⟨q, o⟩, hpush, heq⟩ := hs
        have hnopop : DataQueue.testsPop s.dataQueue (DataQueue.Op.again t) = false := by
          simp [DataQueue.testsPop, hpc, DataQueue.Pc.isPopping]
        have hnext := hd.afterPush hidle hnopop hturn hpush
        rw [heq] at hnext
        exact hnext
    · cases hs
  | test t =>
    simp only [stepNote] at hs
    split at hs
    · next item hpc =>
        split at hs
        · cases hs
          rw [a.note_quiet]
          exact hd.test hpc hturn
        · cases hs
    · cases hs
  | transmit t =>
    simp only [stepNote] at hs
    split at hs
    · next item hpc =>
        split at hs
        · cases hs
          exact hd.transmit hpc
        · cases hs
    · cases hs
  | dmaDone =>
    simp only [stepNote] at hs
    split at hs
    · cases hs
    · next first rest hactive => exact hd.dmaDone hactive hs

theorem Opened.dispatch (hopen : Opened s) (hflag : s.activated ≠ rtTrue) :
    Dispatch s emptyAccount := by
  refine ⟨hopen.booted.pending, rfl, ?_, ?_⟩
  · intro t item hwriter
    rw [hopen.writer t] at hwriter
    cases hwriter
  · refine Driven.nobody hflag hopen.active ?_ rfl ?_
    · intro t item hwriter
      rw [hopen.writer t] at hwriter
      cases hwriter
    · intro hlt
      cases hlt

/-- In every run from an open that finds `activated` not set, all steps in turn: the buffers
handed to `dma_transmit` are the first accepted ones, each once and in order; all but at
most one have been transferred, and `tx_complete` was called with those; when no transfer is
active and no writer under way, every accepted buffer has been handed over. -/
theorem dma_transmits_in_order {s0 s : State} {a : Account} {ops : List Op}
    (hopen : Opened s0) (hflag : s0.activated ≠ rtTrue)
    (hrun : Run (Guarded (fun (x : State × Account) op => InTurn x.1 x.2 op)
      (Graph (watched step record))) (s0, emptyAccount) ops (s, a)) :
    a.transmitted <+: a.log.pushed ∧ s.active.length ≤ 1 ∧
      a.transmitted.map (fun item => some item.dataPtr) =
        a.completed ++ s.active.map (fun item => some item.dataPtr) ∧
      (s.active = [] -> (forall t, s.writer t = WriterPc.idle) ->
        a.transmitted = a.log.pushed) := by
  have hinv : Dispatch s a := by
    apply hrun.guarded_watched_invariant Dispatch (hopen.dispatch hflag)
    intro s a op s' hx hturn hstep
    unfold step at hstep
    rw [Option.map_eq_some_iff] at hstep
    obtain ⟨⟨s1, n⟩, hnote, heq⟩ := hstep
    have hnext := hx.step hturn hnote
    rw [← heq]
    unfold record
    rw [hnote]
    exact hnext
  have hle := le_of_pending hinv.pending
  obtain ⟨_, l, _, _, hlog, _⟩ := hinv.pending
  cases hinv.driven with
  | nobody hclear hactive hstart hsent howner =>
    refine ⟨?_, ?_, ?_, ?_⟩
    · rw [hsent, hlog]
      exact List.prefix_append _ _
    · rw [hactive]
      exact Nat.zero_le 1
    · rw [hactive, hsent, hinv.completed, List.map_nil, List.append_nil]
    · intro _ hidle
      -- the writer of a buffer left behind would not be idle
      have hnone : ¬ a.log.popped.length < a.log.pushed.length := by
        intro hlt
        obtain ⟨t, item, hwriter, _⟩ := howner hlt
        rw [hidle t] at hwriter
        cases hwriter
      rw [hlog, List.length_append] at hnone
      have hl : l = [] := List.length_eq_zero_iff.mp (by omega)
      rw [hsent, hlog, hl, List.append_nil]
  | writer t item hset hactive hwriter hstart holdest hsent =>
    refine ⟨?_, ?_, ?_, ?_⟩
    · rw [hsent, hlog]
      exact List.prefix_append _ _
    · rw [hactive]
      exact Nat.zero_le 1
    · rw [hactive, hsent, hinv.completed, List.map_nil, List.append_nil]
    · intro _ hidle
      rw [hidle t] at hwriter
      cases hwriter
  | hardware item hset hactive hstart holdest hsent =>
    refine ⟨?_, ?_, ?_, ?_⟩
    · rw [hlog, List.getElem?_append_right (Nat.le_refl _), Nat.sub_self] at holdest
      cases l with
      | nil => cases holdest
      | cons x l =>
        cases holdest
        rw [hsent, hlog]
        exact ⟨l, by simp⟩
    · rw [hactive]
      exact Nat.le_refl 1
    · rw [hactive, hsent, hinv.completed, List.map_append]
    · intro hnone
      rw [hactive] at hnone
      cases hnone

/-- A device that was just opened, with what `rt_malloc` left in `activated`. -/
def openState (activated : Int) : State :=
  { activated := activated
    dataQueue := DataQueue.bootState 8 4
    writer := fun _ => WriterPc.idle
    active := [] }

theorem openState_opened (activated : Int) : Opened (openState activated) := by
  refine ⟨DataQueue.bootState_booted ⟨3, by decide, rfl⟩ 4, ?_, rfl⟩
  intro t
  rfl

def twoWrites : List Op :=
  [Op.write 1 ⟨100, 4⟩, Op.test 1, Op.write 2 ⟨200, 6⟩, Op.test 2, Op.transmit 1,
    Op.dmaDone,
    Op.dmaDone]

theorem dma_transmits_in_order_two_writes :
    exists s a, Run (Guarded (fun (x : State × Account) op => InTurn x.1 x.2 op)
        (Graph (watched step record))) (openState 0, emptyAccount) twoWrites (s, a) ∧
      a.transmitted = [⟨100, 4⟩, ⟨200, 6⟩] ∧ a.completed = [some 100, some 200] ∧
      a.transmitted <+: a.log.pushed := by
  have hexec : (exec (fun (x : State × Account) op =>
      if InTurn x.1 x.2 op then watched step record x op else none)
      (openState 0, emptyAccount) twoWrites).map
      (fun x => (x.2.transmitted, x.2.completed)) =
      some ([⟨100, 4⟩, ⟨200, 6⟩], [some 100, some 200]) := by
    decide +kernel
  rw [Option.map_eq_some_iff] at hexec
  obtain ⟨⟨s, a⟩, hexec, heq⟩ := hexec
  have hrun := @guarded_run_of_exec _ _ _ _
    (fun (x : State × Account) op => InTurn x.1 x.2 op) _ _ _ hexec
  have horder := dma_transmits_in_order (openState_opened 0) (by decide) hrun
  rw [Prod.mk.injEq] at heq
  exact ⟨s, a, hrun, heq.1, heq.2, horder.1⟩

/-- With memory that holds `RT_TRUE` in `activated` nothing is transmitted. Otherwise a
second writer between the push and the test of the first starts its own buffer: that one is
transmitted twice, the first never, although `tx_complete` is called with it. -/
theorem dma_transmit_goes_wrong :
    (exists s a, Run (Graph (watched step record)) (openState 1, emptyAccount)
        [Op.write 1 ⟨100, 4⟩, Op.test 1] (s, a) ∧
      s.active = [] ∧ s.writer 1 = WriterPc.idle ∧ a.log.pushed = [⟨100, 4⟩] ∧
      a.transmitted = []) ∧
    (exists s a, Run (Graph (watched step record)) (openState 0, emptyAccount)
        [Op.write 1 ⟨100, 4⟩, Op.write 2 ⟨200, 6⟩, Op.test 2, Op.transmit 2, Op.test 1,
          Op.dmaDone, Op.dmaDone] (s, a) ∧
      a.log.pushed = [⟨100, 4⟩, ⟨200, 6⟩] ∧
        a.transmitted = [⟨200, 6⟩, ⟨200, 6⟩] ∧
      a.completed = [some 100, some 200]) := by
  constructor
  · have hexec : (exec (watched step record) (openState 1, emptyAccount)
        [Op.write 1 ⟨100, 4⟩, Op.test 1]).map
        (fun x => (x.1.active, x.1.writer 1, x.2.log.pushed, x.2.transmitted)) =
        some ([], WriterPc.idle, [⟨100, 4⟩], []) := by
      decide +kernel
    rw [Option.map_eq_some_iff] at hexec
    obtain ⟨⟨s, a⟩, hexec, heq⟩ := hexec
    simp only [Prod.mk.injEq] at heq
    exact ⟨s, a, run_of_exec hexec, heq⟩
  · have hexec : (exec (watched step record) (openState 0, emptyAccount)
        [Op.write 1 ⟨100, 4⟩, Op.write 2 ⟨200, 6⟩, Op.test 2, Op.transmit 2, Op.test 1,
          Op.dmaDone, Op.dmaDone]).map
        (fun x => (x.2.log.pushed, x.2.transmitted, x.2.completed)) =
        some ([⟨100, 4⟩, ⟨200, 6⟩], [⟨200, 6⟩, ⟨200, 6⟩],
          [some 100, some 200]) := by
      decide +kernel
    rw [Option.map_eq_some_iff] at hexec
    obtain ⟨⟨s, a⟩, hexec, heq⟩ := hexec
    simp only [Prod.mk.injEq] at heq
    exact ⟨s, a, run_of_exec hexec, heq⟩

end RtThread.Drivers.SerialDmaTx
