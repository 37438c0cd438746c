import RtThread.Ipc.Mailbox

/-!
# A mailbox is a bounded first-in first-out queue

The order is that of the commits to the pool.  What the waiting threads do has
no part in it: the pool, its offsets and its counter change only at a commit, at
a receive and at a reset.
-/

namespace RtThread.Ipc.Mailbox

open Kernel
open RingBuffer
open Transition

/-!
## What a step does to the pool
-/

/-- The pool of a mailbox with its offsets and its counter. -/
structure Slots where
  msgPool : Nat -> BitVec 32
  size : Nat
  entry : Nat
  inOffset : Nat
  outOffset : Nat

def RtMailbox.slots (mb : RtMailbox) : Slots :=
  { msgPool := mb.msgPool
    size := mb.size
    entry := mb.entry
    inOffset := mb.inOffset
    outOffset := mb.outOffset }

def SlotsStep (mb mb' : RtMailbox) : Outcome -> Prop
  | Outcome.sent value =>
    mb.entry ≠ mb.size ∧ mb'.slots =
      { mb.slots with
        msgPool := Function.update mb.msgPool mb.inOffset value
        inOffset :=
          if mb.size ≤ (mb.inOffset + 1) % 2 ^ 16 then 0
          else (mb.inOffset + 1) % 2 ^ 16
        entry := (mb.entry + 1) % 2 ^ 16 }
  | Outcome.received value =>
    mb.entry ≠ 0 ∧ value = mb.msgPool mb.outOffset ∧ mb'.slots =
      { mb.slots with
        outOffset :=
          if mb.size ≤ (mb.outOffset + 1) % 2 ^ 16 then 0
          else (mb.outOffset + 1) % 2 ^ 16
        entry := (mb.entry + (2 ^ 16 - 1)) % 2 ^ 16 }
  | Outcome.reset =>
    mb'.slots = { mb.slots with entry := 0, inOffset := 0, outOffset := 0 }
  | _ => mb'.slots = mb.slots

variable {s s' : State} {o : Outcome} {op : Op}

variable {value : BitVec 32}

theorem sendLoop_slots {caller : Option Tid} {timeout : Int}
    (hs : sendLoop s caller value timeout = some (s', o)) :
    SlotsStep s.mb s'.mb o := by
  unfold sendLoop at hs
  simp only at hs
  split at hs
  · cases caller with
    | none => cases hs
    | some t =>
      simp only at hs
      split at hs
      · cases hs
        rfl
      · rw [Option.map_eq_some_iff] at hs
        rcases hs with ⟨v, _, heq⟩
        cases heq
        rfl
  · rename_i hroom
    cases hs
    exact ⟨hroom, rfl⟩

theorem recvLoop_slots {caller : Option Tid} {timeout : Int}
    (hs : recvLoop s caller timeout = some (s', o)) :
    SlotsStep s.mb s'.mb o := by
  unfold recvLoop at hs
  simp only at hs
  split at hs
  · cases caller with
    | none => cases hs
    | some t =>
      simp only at hs
      split at hs
      · cases hs
        rfl
      · rw [Option.map_eq_some_iff] at hs
        rcases hs with ⟨v, _, heq⟩
        cases heq
        rfl
  · rename_i hmail
    cases hs
    exact ⟨hmail, rfl, rfl⟩

theorem again_slots {t : Tid} {delta : Nat}
    (hs : again s t delta = some (s', o)) : SlotsStep s.mb s'.mb o := by
  unfold again at hs
  simp only at hs
  split at hs
  · cases hs
  · split at hs
    · cases hs
      rfl
    · have hslots := sendLoop_slots hs
      exact hslots
  · split at hs
    · cases hs
      rfl
    · have hslots := recvLoop_slots hs
      exact hslots

theorem reset_slots (hs : reset s = some (s', o)) : SlotsStep s.mb s'.mb o := by
  unfold reset at hs
  split at hs
  · cases hs
  · rw [Option.map_eq_some_iff] at hs
    rcases hs with ⟨v, _, heq⟩
    cases heq
    rfl

theorem step_slots (hs : stepOutcome s op = some (s', o)) : SlotsStep s.mb s'.mb o := by
  cases op with
  | send caller value timeout =>
    unfold stepOutcome rtMbSendWait at hs
    simp only at hs
    split at hs
    · split at hs
      · cases hs
        rfl
      · exact sendLoop_slots hs
    · cases hs
  | recv caller timeout =>
    unfold stepOutcome rtMbRecv at hs
    simp only at hs
    split at hs
    · split at hs
      · cases hs
        rfl
      · exact recvLoop_slots hs
    · cases hs
  | again t delta =>
    unfold stepOutcome at hs
    simp only at hs
    split at hs
    · exact again_slots hs
    · cases hs
  | timeout t =>
    unfold stepOutcome at hs
    simp only at hs
    split at hs
    · cases hs
      rfl
    · cases hs
  | reset => exact reset_slots hs

theorem step_outcome (hs : step s op = some s') :
    exists o, stepOutcome s op = some (s', o) ∧ outcomeOf s op = some o := by
  unfold step at hs
  rw [Option.map_eq_some_iff] at hs
  rcases hs with ⟨⟨s1, o⟩, hs, heq⟩
  cases heq
  refine ⟨o, hs, ?_⟩
  unfold outcomeOf
  rw [hs]
  rfl

/-!
## The history since the last reset
-/

structure Log where
  sent : List (BitVec 32)
  received : List (BitVec 32)
deriving DecidableEq, Repr

def emptyLog : Log := { sent := [], received := [] }

def Log.note (log : Log) : Outcome -> Log
  | Outcome.sent value => { log with sent := log.sent ++ [value] }
  | Outcome.received value => { log with received := log.received ++ [value] }
  | Outcome.reset => emptyLog
  | _ => log

def recordLog (s : State) (op : Op) (_s' : State) (log : Log) : Log :=
  match outcomeOf s op with
  | none => log
  | some o => log.note o

def Pending (mb : RtMailbox) (log : Log) : Prop :=
  exists l, log.sent = log.received ++ l ∧
    Stores mb.msgPool mb.size mb.outOffset l ∧
    mb.entry = l.length ∧
    mb.inOffset = (mb.outOffset + l.length) % mb.size ∧
    mb.size < 2 ^ 16

variable {mb mb' : RtMailbox} {log : Log}

theorem Pending.push (hp : Pending mb log) (hs : SlotsStep mb mb' (Outcome.sent value)) :
    Pending mb' (log.note (Outcome.sent value)) := by
  rcases hp with ⟨l, hlog, hstores, hentry, hin, hsize⟩
  rcases hs with ⟨hroom, hslots⟩
  simp only [RtMailbox.slots, Slots.mk.injEq] at hslots
  rcases hslots with ⟨hpool, hsize', hentry', hin', hout'⟩
  have hfits := hstores.fits
  have hlt : mb.inOffset < mb.size := by
    rw [hin]
    exact Nat.mod_lt _ (by have := hstores.offset; omega)
  have hlen : l.length < mb.size := by omega
  refine ⟨l ++ [value], ?_, ?_, ?_, ?_, ?_⟩
  · show log.sent ++ [value] = _
    rw [hlog, List.append_assoc]
    rfl
  · rw [hpool, hsize', hout', hin]
    exact hstores.push hlen value
  · rw [hentry', List.length_append, List.length_singleton]
    omega
  · rw [Nat.mod_eq_of_lt (by omega)] at hin'
    have hadvance : mb'.inOffset = advance mb.size mb.inOffset := hin'
    rw [hadvance, advance_eq_mod hlt, hin, hsize', hout', List.length_append,
      List.length_singleton, Nat.mod_add_mod, Nat.add_assoc]
  · omega

theorem Pending.pop (hp : Pending mb log) (hs : SlotsStep mb mb' (Outcome.received value)) :
    Pending mb' (log.note (Outcome.received value)) := by
  rcases hp with ⟨l, hlog, hstores, hentry, hin, hsize⟩
  rcases hs with ⟨hmail, hvalue, hslots⟩
  simp only [RtMailbox.slots, Slots.mk.injEq] at hslots
  rcases hslots with ⟨hpool, hsize', hentry', hin', hout'⟩
  cases l with
  | nil => exact absurd hentry hmail
  | cons x l =>
    have hfits := hstores.fits
    have hoff := hstores.offset
    rw [List.length_cons] at hfits hentry
    rw [Nat.mod_eq_of_lt (by omega)] at hout'
    have hadvance : mb'.outOffset = advance mb.size mb.outOffset := hout'
    rw [hstores.head] at hvalue
    subst hvalue
    refine ⟨l, ?_, ?_, ?_, ?_, ?_⟩
    · show log.sent = (log.received ++ [value]) ++ l
      rw [hlog, List.append_assoc]
      rfl
    · rw [hpool, hsize', hadvance]
      exact hstores.pop
    · rw [hentry']
      omega
    · rw [hin', hin, hadvance, hsize', advance_add_mod hoff, List.length_cons]
    · omega

theorem Pending.step (hp : Pending s.mb log) (hs : step s op = some s') :
    Pending s'.mb (recordLog s op s' log) := by
  rcases step_outcome hs with ⟨o, hstep, hout⟩
  have hslots := step_slots hstep
  unfold recordLog
  rw [hout]
  have hsame : s'.mb.slots = s.mb.slots -> Pending s'.mb log := by
    intro heq
    simp only [RtMailbox.slots, Slots.mk.injEq] at heq
    rcases heq with ⟨hpool, hsize, hentry, hin, hout⟩
    unfold Pending
    rw [hpool, hsize, hentry, hin, hout]
    exact hp
  cases o with
  | sent value => exact hp.push hslots
  | received value => exact hp.pop hslots
  | reset =>
    rcases hp with ⟨l, _, hstores, _, _, hsize⟩
    change s'.mb.slots = _ at hslots
    simp only [RtMailbox.slots, Slots.mk.injEq] at hslots
    rcases hslots with ⟨hpool, hsize', hentry', hin', hout'⟩
    have hpos : 0 < s.mb.size := Nat.zero_lt_of_lt hstores.offset
    refine ⟨[], rfl, ?_, hentry', ?_, ?_⟩
    · rw [hsize', hout']
      exact Stores.nil _ hpos
    · rw [hin', hout', hsize']
      rfl
    · rw [hsize']
      exact hsize
  | waits => exact hsame hslots
  | fails e => exact hsame hslots
  | expired => exact hsame hslots

structure FifoHolds (mb : RtMailbox) (log : Log) : Prop where
  order : log.received <+: log.sent
  entry : mb.entry + log.received.length = log.sent.length
  bounded : mb.entry ≤ mb.size
  inOffset : mb.inOffset < mb.size
  outOffset : mb.outOffset < mb.size
  offsets : (mb.outOffset + mb.entry) % mb.size = mb.inOffset

/-- In every state of every interleaved run on a mailbox of any size. -/
theorem mailbox_fifo {s0 s : State} {log : Log} {ops : List Op}
    (hboot : Booted s0)
    (hrun : Run (Graph (watched step recordLog)) (s0, emptyLog) ops (s, log)) :
    FifoHolds s.mb log := by
  have hinv : Pending s.mb log := by
    apply hrun.watched_invariant (fun s log => Pending s.mb log)
    · refine ⟨[], rfl, ?_, hboot.entry, ?_, hboot.size.right⟩
      · apply Stores.nil
        rw [hboot.outOffset]
        exact hboot.size.left
      · rw [hboot.inOffset, hboot.outOffset]
        exact (Nat.zero_mod _).symm
    · intro s log op s' hp hstep
      exact hp.step hstep
  rcases hinv with ⟨l, hlog, hstores, hentry, hin, hsize⟩
  have hpos : 0 < s.mb.size := Nat.zero_lt_of_lt hstores.offset
  constructor
  · rw [hlog]
    exact List.prefix_append _ _
  · rw [hlog, hentry, List.length_append, Nat.add_comm]
  · rw [hentry]
    exact hstores.fits
  · rw [hin]
    exact Nat.mod_lt _ hpos
  · exact hstores.offset
  · rw [hentry, hin]

def twoSlotOps : List Op :=
  [Op.send (some 0) 11 0, Op.send none 12 0, Op.send (some 1) 13 20,
    Op.recv (some 2) (-1), Op.again 1 3, Op.recv (some 2) 0]

theorem mailbox_fifo_two_slots :
    exists s, Run (Graph (watched step recordLog))
        (bootState 2 IpcFlag.fifo, emptyLog) twoSlotOps
        (s, { sent := [11, 12, 13], received := [11, 12] }) ∧
      FifoHolds s.mb { sent := [11, 12, 13], received := [11, 12] } := by
  have hexec : (exec (watched step recordLog)
      (bootState 2 IpcFlag.fifo, emptyLog) twoSlotOps).map Prod.snd =
      some { sent := [11, 12, 13], received := [11, 12] } := by
    decide +kernel
  rw [Option.map_eq_some_iff] at hexec
  rcases hexec with ⟨⟨s, log⟩, hexec, hlog⟩
  change log = _ at hlog
  subst hlog
  have hrun := run_of_exec hexec
  exact ⟨s, hrun, mailbox_fifo (bootState_booted (by decide) _) hrun⟩

end RtThread.Ipc.Mailbox
