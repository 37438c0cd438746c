import RtThread.Drivers.DataQueue
import RtThread.Library.RingBuffer

/-!
# A data queue is a bounded first-in first-out queue while its tests see the wrap

The slots are those of the indices modulo the size, which divides their range, so an index may
wrap around. Their difference is right in 16 bits. The tests take it in `int`, where it is
negative while only the put index has wrapped: a push then finds no queue full, and a pop finds
every queue low.
-/

namespace RtThread.Drivers.DataQueue

open Kernel
open Ipc
open RingBuffer
open Transition

variable {s s' : State} {o : Outcome} {op : Op}

/-!
## What a step does to the slots
-/

structure Slots where
  queue : Nat -> RtDataItem
  size : Nat
  lwm : Nat
  getIndex : Nat
  putIndex : Nat

def RtDataQueue.slots (dq : RtDataQueue) : Slots :=
  { queue := dq.queue
    size := dq.size
    lwm := dq.lwm
    getIndex := dq.getIndex
    putIndex := dq.putIndex }

/-- How the slots change in a step with this outcome, and what the step tested. -/
def SlotsStep (s : State) (op : Op) (dq' : RtDataQueue) : Outcome -> Prop
  | Outcome.pushed item =>
    testsPush s op = true ∧ s.dq.isFull = false ∧ dq'.slots =
      { s.dq.slots with
        queue := Function.update s.dq.queue (s.dq.putIndex &&& s.dq.mask) item
        putIndex := (s.dq.putIndex + 1) % 2 ^ 16 }
  | Outcome.popped item low =>
    testsPop s op = true ∧ s.dq.getIndex ≠ s.dq.putIndex ∧ item = s.dq.front ∧
      low = (if s.dq.waitingLwm then some s.dq.taken.isLow else none) ∧
      dq'.slots = s.dq.taken.slots
  | Outcome.peeked item =>
    testsPush s op = false ∧ testsPop s op = false ∧ s.dq.getIndex ≠ s.dq.putIndex ∧
      item = s.dq.front ∧ dq'.slots = s.dq.slots
  | _ =>
    dq'.slots = s.dq.slots ∧ (testsPush s op = true -> s.dq.isFull = true) ∧
      (testsPop s op = true -> s.dq.getIndex = s.dq.putIndex)

theorem popItem_slots (s : State) : (popItem s).dq.slots = s.dq.taken.slots := by
  unfold popItem
  simp only
  split <;> rfl

variable {item : RtDataItem} {k : Nat}

theorem pushLoop_slots {caller : Option Tid} {timeout : Int}
    (hpush : testsPush s op = true) (hpop : testsPop s op = false) {s1 : State}
    (hdq : s1.dq = s.dq) (hs : pushLoop s1 caller item timeout = some (s', o)) :
    SlotsStep s op s'.dq o := by
  unfold pushLoop at hs
  rw [hdq] at hs
  split at hs
  · rename_i hfull
    have hwait : SlotsStep s op { s.dq with waitingLwm := true } Outcome.waits := by
      refine ⟨rfl, fun _ => hfull, fun h => ?_⟩
      rw [hpop] at h
      cases h
    simp only at hs
    split at hs
    · cases hs
      exact hwait
    · cases caller with
      | none => cases hs
      | some t =>
        rw [Option.map_eq_some_iff] at hs
        rcases hs with ⟨v, _, heq⟩
        cases heq
        exact hwait
  · rename_i hroom
    cases hs
    refine ⟨hpush, by simpa using hroom, ?_⟩
    unfold pushItem
    rw [hdq]
    rfl

theorem popLoop_slots {caller : Option Tid} {timeout : Int}
    (hpush : testsPush s op = false) (hpop : testsPop s op = true) {s1 : State}
    (hdq : s1.dq = s.dq) (hs : popLoop s1 caller timeout = some (s', o)) :
    SlotsStep s op s'.dq o := by
  unfold popLoop at hs
  simp only [hdq] at hs
  split at hs
  · rename_i hempty
    have hwait : SlotsStep s op s.dq Outcome.waits := by
      refine ⟨rfl, fun h => ?_, fun _ => hempty⟩
      rw [hpush] at h
      cases h
    split at hs
    · cases hs
      rw [hdq]
      exact hwait
    · cases caller with
      | none => cases hs
      | some t =>
        rw [Option.map_eq_some_iff] at hs
        rcases hs with ⟨v, _, heq⟩
        cases heq
        exact hwait
  · rename_i hitem
    cases hs
    refine ⟨hpop, hitem, rfl, rfl, ?_⟩
    rw [popItem_slots, hdq]

theorem again_slots {t : Tid} (hs : again s t = some (s', o)) :
    SlotsStep s (Op.again t) s'.dq o := by
  unfold again at hs
  simp only at hs
  have hfail (e : RtErr) (herror : (s.thread t).error ≠ RtErr.eok) :
      SlotsStep s (Op.again t) s.dq (Outcome.fails e) := by
    refine ⟨rfl, ?_, ?_⟩
    · intro h
      simp [testsPush, herror] at h
    · intro h
      simp [testsPop, herror] at h
  split at hs
  · cases hs
  · rename_i item timeout hpc
    split at hs
    · rename_i herror
      cases hs
      exact hfail _ herror
    · rename_i herror
      apply pushLoop_slots _ _ _ hs
      · simpa [testsPush, hpc, Pc.isPushing] using herror
      · simp [testsPop, hpc, Pc.isPopping]
      · rfl
  · rename_i timeout hpc
    split at hs
    · rename_i herror
      cases hs
      exact hfail _ herror
    · rename_i herror
      apply popLoop_slots _ _ _ hs
      · simp [testsPush, hpc, Pc.isPushing]
      · simpa [testsPop, hpc, Pc.isPopping] using herror
      · rfl

theorem step_slots (hs : stepOutcome s op = some (s', o)) : SlotsStep s op s'.dq o := by
  cases op with
  | push caller item timeout =>
    simp only [stepOutcome] at hs
    split at hs
    · exact pushLoop_slots rfl rfl rfl hs
    · cases hs
  | pop caller timeout =>
    simp only [stepOutcome] at hs
    split at hs
    · exact popLoop_slots rfl rfl rfl hs
    · cases hs
  | peak =>
    simp only [stepOutcome, rtDataQueuePeak, Option.some.injEq] at hs
    split at hs
    · cases hs
      exact ⟨rfl, fun h => (by cases h), fun h => (by cases h)⟩
    · rename_i hitem
      cases hs
      exact ⟨rfl, rfl, hitem, rfl, rfl⟩
  | again t =>
    simp only [stepOutcome] at hs
    split at hs
    · exact again_slots hs
    · cases hs
  | timeout t =>
    simp only [stepOutcome] at hs
    split at hs
    · cases hs
      exact ⟨rfl, fun h => (by cases h), fun h => (by cases h)⟩
    · cases hs

/-!
## The history
-/

structure Log where
  pushed : List RtDataItem
  popped : List RtDataItem
deriving DecidableEq, Repr

def emptyLog : Log := { pushed := [], popped := [] }

def Log.note (log : Log) : Outcome -> Log
  | Outcome.pushed item => { log with pushed := log.pushed ++ [item] }
  | Outcome.popped item _ => { log with popped := log.popped ++ [item] }
  | _ => log

def Log.stored (log : Log) : Nat := log.pushed.length - log.popped.length

def recordLog (s : State) (op : Op) (_s' : State) (log : Log) : Log :=
  match outcomeOf s op with
  | none => log
  | some o => log.note o

def Pending (dq : RtDataQueue) (log : Log) : Prop :=
  exists k l, k < 16 ∧ dq.size = 2 ^ k ∧ log.pushed = log.popped ++ l ∧
    Stores dq.queue dq.size (dq.getIndex % dq.size) l ∧
    dq.putIndex = (dq.getIndex + l.length) % 2 ^ 16 ∧ dq.getIndex < 2 ^ 16

variable {dq : RtDataQueue} {log : Log}

theorem and_mask (hk : k < 16) (hsize : dq.size = 2 ^ k) (i : Nat) :
    i &&& dq.mask = i % dq.size := by
  have hpos : 0 < 2 ^ k := Nat.two_pow_pos k
  have hle : 2 ^ k < 2 ^ 16 := Nat.pow_lt_pow_right (by decide) hk
  have hmask : dq.mask = 2 ^ k - 1 := by
    unfold RtDataQueue.mask
    rw [hsize]
    omega
  rw [hmask, Nat.and_two_pow_sub_one_eq_mod, hsize]

theorem mod_range_mod (hk : k < 16) (i : Nat) : i % 2 ^ 16 % 2 ^ k = i % 2 ^ k :=
  Nat.mod_mod_of_dvd i (Nat.pow_dvd_pow 2 (by omega))

theorem size_le (hk : k < 16) : 0 < 2 ^ k ∧ 2 ^ k ≤ 32768 :=
  ⟨Nat.two_pow_pos k, (Nat.pow_le_pow_right (by decide) (show k ≤ 15 by omega)).trans
    (by decide)⟩

theorem Pending.stored_eq (hp : Pending dq log) :
    dq.stored = log.stored ∧ log.stored ≤ dq.size := by
  rcases hp with ⟨k, l, hk, hsize, hlog, hstores, hput, hget⟩
  have hfits := hstores.fits
  have hbound := size_le hk
  have hlen : log.stored = l.length := by
    unfold Log.stored
    rw [hlog, List.length_append]
    omega
  rw [hlen]
  refine ⟨?_, hfits⟩
  unfold RtDataQueue.stored
  rw [hput]
  omega

theorem Pending.front (hp : Pending dq log) (hitem : dq.getIndex ≠ dq.putIndex) :
    log.pushed[log.popped.length]? = some dq.front := by
  rcases hp with ⟨k, l, hk, hsize, hlog, hstores, hput, hget⟩
  cases l with
  | nil =>
    rw [List.length_nil, Nat.add_zero, Nat.mod_eq_of_lt hget] at hput
    exact absurd hput.symm hitem
  | cons x l =>
    have hhead := hstores.head
    unfold RtDataQueue.front
    rw [and_mask hk hsize, hhead, hlog, List.getElem?_append_right (Nat.le_refl _), Nat.sub_self]
    rfl

theorem Pending.push (hp : Pending s.dq log) (hroom : log.stored < s.dq.size)
    (hs : SlotsStep s op s'.dq (Outcome.pushed item)) :
    Pending s'.dq (log.note (Outcome.pushed item)) := by
  rcases hp with ⟨k, l, hk, hsize, hlog, hstores, hput, hget⟩
  rcases hs with ⟨_, _, hslots⟩
  simp only [RtDataQueue.slots, Slots.mk.injEq] at hslots
  rcases hslots with ⟨hqueue, hsize', _, hget', hput'⟩
  have hlen : l.length < s.dq.size := by
    unfold Log.stored at hroom
    rw [hlog, List.length_append] at hroom
    omega
  refine ⟨k, l ++ [item], hk, by rw [hsize', hsize], ?_, ?_, ?_, by rw [hget']; exact hget⟩
  · show log.pushed ++ [item] = _
    rw [hlog, List.append_assoc]
    rfl
  · have hslot : s.dq.putIndex &&& s.dq.mask =
        (s.dq.getIndex % s.dq.size + l.length) % s.dq.size := by
      rw [and_mask hk hsize, hput, hsize, mod_range_mod hk, Nat.mod_add_mod]
    rw [hqueue, hsize', hget', hslot]
    exact hstores.push hlen item
  · rw [hput', hput, hget', List.length_append, List.length_singleton, Nat.mod_add_mod,
      Nat.add_assoc]

theorem Pending.pop {low : Option Bool} (hp : Pending s.dq log)
    (hs : SlotsStep s op s'.dq (Outcome.popped item low)) :
    Pending s'.dq (log.note (Outcome.popped item low)) := by
  have hfront := hp.front hs.right.left
  rcases hp with ⟨k, l, hk, hsize, hlog, hstores, hput, hget⟩
  rcases hs with ⟨_, hne, hitem, _, hslots⟩
  simp only [RtDataQueue.slots, RtDataQueue.taken, Slots.mk.injEq] at hslots
  rcases hslots with ⟨hqueue, hsize', _, hget', hput'⟩
  cases l with
  | nil =>
    rw [List.length_nil, Nat.add_zero, Nat.mod_eq_of_lt hget] at hput
    exact absurd hput.symm hne
  | cons x l =>
    have hx : item = x := by
      rw [hitem]
      rw [hlog, List.getElem?_append_right (Nat.le_refl _), Nat.sub_self] at hfront
      exact (Option.some.inj hfront).symm
    subst hx
    refine ⟨k, l, hk, by rw [hsize', hsize], ?_, ?_, ?_, ?_⟩
    · show log.pushed = (log.popped ++ [item]) ++ l
      rw [hlog, List.append_assoc]
      rfl
    · have hoff : (s.dq.getIndex + 1) % 2 ^ 16 % s.dq.size =
          advance s.dq.size (s.dq.getIndex % s.dq.size) := by
        rw [advance_eq_mod hstores.offset, Nat.mod_add_mod, hsize, mod_range_mod hk]
      rw [hqueue, hsize', hget', hoff]
      exact hstores.pop
    · rw [hput', hput, hget', Nat.mod_add_mod, List.length_cons, Nat.add_assoc, Nat.add_comm 1]
    · rw [hget']
      exact Nat.mod_lt _ (by decide)

/-!
## The tests
-/

/-- The condition on a step: its test does not fall into the time between the wraps of
the two indices, at a level where that matters. -/
def WrapSeen (s : State) (op : Op) : Prop :=
  (testsPush s op = true -> ¬ s.dq.fullUnseen) ∧
    (testsPop s op = true -> ¬ s.dq.highUnseen)

instance (s : State) (op : Op) : Decidable (WrapSeen s op) :=
  inferInstanceAs (Decidable (_ ∧ _))

/-- The contract of one step: a push needs room, a pop and a peak give the oldest item,
and the test of the low-water mark is right. -/
def StepHolds (s : State) (log : Log) : Outcome -> Prop
  | Outcome.pushed _ => log.stored < s.dq.size
  | Outcome.popped item low =>
    log.pushed[log.popped.length]? = some item ∧
      forall b, low = some b -> (b = true <-> log.stored - 1 ≤ s.dq.lwm)
  | Outcome.peeked item => log.pushed[log.popped.length]? = some item
  | _ => True

theorem Pending.indices (hp : Pending dq log) :
    dq.putIndex = (dq.getIndex + dq.stored) % 65536 ∧ dq.getIndex < 65536 ∧
      dq.stored ≤ 32768 ∧ dq.stored ≤ dq.size ∧ 0 < dq.size := by
  have hstored := hp.stored_eq
  rcases hp with ⟨k, l, hk, hsize, hlog, hstores, hput, hget⟩
  have hbound := size_le hk
  have hfits := hstores.fits
  have hlen : log.stored = l.length := by
    unfold Log.stored
    rw [hlog, List.length_append]
    omega
  rw [hstored.left, hlen]
  exact ⟨hput, hget, by omega, hfits, by omega⟩

theorem isFull_iff (hp : Pending dq log) (hseen : ¬ dq.fullUnseen) :
    dq.isFull = true <-> dq.stored = dq.size := by
  rcases hp.indices with ⟨hput, hget, hle, hsize, hpos⟩
  unfold RtDataQueue.fullUnseen at hseen
  unfold RtDataQueue.isFull
  rw [decide_eq_true_eq]
  omega

theorem not_isFull_of_unseen (hp : Pending dq log) (hunseen : dq.fullUnseen) :
    dq.isFull = false := by
  rcases hp.indices with ⟨hput, hget, hle, hsize, hpos⟩
  rcases hunseen with ⟨hwrap, _⟩
  unfold RtDataQueue.isFull
  rw [decide_eq_false_iff_not]
  omega

theorem isLow_iff (hp : Pending dq log) (hitem : dq.getIndex ≠ dq.putIndex) :
    (dq.taken.isLow = true <-> dq.stored - 1 ≤ dq.lwm) <->
      ¬ (dq.putIndex < dq.taken.getIndex ∧ dq.lwm + 1 < dq.stored) := by
  rcases hp.indices with ⟨hput, hget, hle, hsize, hpos⟩
  unfold RtDataQueue.isLow RtDataQueue.taken
  rw [decide_eq_true_eq]
  simp only
  omega

theorem Pending.room (hp : Pending dq log) (hroom : dq.isFull = false)
    (hseen : ¬ dq.fullUnseen) : log.stored < dq.size := by
  have hstored := hp.stored_eq
  have hfull := (isFull_iff hp hseen).not.mp (by simp [hroom])
  omega

theorem Pending.seen_of_quiet (hp : Pending s.dq log)
    (hquiet : (testsPush s op = true -> s.dq.isFull = true) ∧
      (testsPop s op = true -> s.dq.getIndex = s.dq.putIndex)) : WrapSeen s op := by
  rcases hp.indices with ⟨hput, hget, hle, _, _⟩
  constructor
  · intro hpush hunseen
    have hfull := hquiet.left hpush
    rw [not_isFull_of_unseen hp hunseen] at hfull
    cases hfull
  · intro hpop hunseen
    have hempty := hquiet.right hpop
    have hmany := hunseen.right.right
    omega

theorem Pending.step_iff (hp : Pending s.dq log)
    (hs : stepOutcome s op = some (s', o)) : WrapSeen s op <-> StepHolds s log o := by
  have hslots := step_slots hs
  have hstored := hp.stored_eq
  rcases hp.indices with ⟨_, _, _, hle, hpos⟩
  cases o with
  | pushed item =>
    rcases hslots with ⟨hpush, hroom, _⟩
    have hpop : testsPop s op = false := by
      cases op <;> simp [testsPush, testsPop] at hpush ⊢
      cases hpc : s.pc _ <;> simp_all [Pc.isPushing, Pc.isPopping]
    unfold WrapSeen StepHolds
    rw [hpop]
    constructor
    · intro h
      exact hp.room hroom (h.left hpush)
    · intro h
      refine ⟨fun _ hunseen => ?_, nofun⟩
      have heq := hunseen.right
      omega
  | popped item low =>
    rcases hslots with ⟨hpop, hitem, hfront, hlow, _⟩
    have hpush : testsPush s op = false := by
      cases op <;> simp [testsPush, testsPop] at hpop ⊢
      cases hpc : s.pc _ <;> simp_all [Pc.isPushing, Pc.isPopping]
    have htest := isLow_iff hp hitem
    rw [hstored.left] at htest
    unfold WrapSeen StepHolds RtDataQueue.highUnseen
    rw [hpush, hpop, hlow, hfront, hstored.left]
    cases hwait : s.dq.waitingLwm with
    | false => simp [hp.front hitem]
    | true => simpa [hp.front hitem] using htest.symm
  | peeked item =>
    rcases hslots with ⟨hpush, hpop, hitem, hfront, _⟩
    unfold WrapSeen StepHolds
    rw [hpush, hpop, hfront]
    simp [hp.front hitem]
  | waits => exact iff_of_true (hp.seen_of_quiet hslots.right) trivial
  | fails e => exact iff_of_true (hp.seen_of_quiet hslots.right) trivial
  | expired => exact iff_of_true (hp.seen_of_quiet hslots.right) trivial

theorem Pending.step (hp : Pending s.dq log) (hseen : testsPush s op = true -> ¬ s.dq.fullUnseen)
    (hs : stepOutcome s op = some (s', o)) : Pending s'.dq (log.note o) := by
  have hslots := step_slots hs
  have hsame : s'.dq.slots = s.dq.slots -> Pending s'.dq log := by
    intro heq
    simp only [RtDataQueue.slots, Slots.mk.injEq] at heq
    rcases heq with ⟨hqueue, hsize, _, hget, hput⟩
    unfold Pending
    rw [hqueue, hsize, hget, hput]
    exact hp
  cases o with
  | pushed item => exact hp.push (hp.room hslots.right.left (hseen hslots.left)) hslots
  | popped item low => exact hp.pop hslots
  | peeked item => exact hsame hslots.right.right.right.right
  | waits => exact hsame hslots.left
  | fails e => exact hsame hslots.left
  | expired => exact hsame hslots.left

theorem Booted.pending (hboot : Booted s) : Pending s.dq emptyLog := by
  rcases hboot.size with ⟨k, hk, hsize⟩
  refine ⟨k, [], hk, hsize, rfl, ?_, ?_, ?_⟩
  · apply Stores.nil
    apply Nat.mod_lt
    rw [hsize]
    exact Nat.two_pow_pos k
  · rw [hboot.getIndex, hboot.putIndex]
    rfl
  · rw [hboot.getIndex]
    decide

/-- The contract of the queue in one state, and of the next step. -/
structure FifoHolds (s : State) (log : Log) : Prop where
  order : log.popped <+: log.pushed
  bounded : log.stored ≤ s.dq.size
  step : forall op s' o, stepOutcome s op = some (s', o) ->
    (WrapSeen s op <-> StepHolds s log o)

/-- In every state of every interleaved run in which the tests see the wrap. -/
theorem data_queue_fifo {s0 s : State} {log : Log} {ops : List Op} (hboot : Booted s0)
    (hrun : Run (Guarded (fun x op => WrapSeen x.1 op) (Graph (watched step recordLog)))
      (s0, emptyLog) ops (s, log)) : FifoHolds s log := by
  have hinv : Pending s.dq log := by
    apply hrun.guarded_watched_invariant (fun s log => Pending s.dq log)
    · exact hboot.pending
    · intro s log op s' hx hseen hstep
      rcases step_outcome hstep with ⟨o, hstep, hout⟩
      unfold recordLog
      rw [hout]
      exact hx.step hseen.left hstep
  constructor
  · rcases hinv with ⟨_, l, _, _, hlog, _⟩
    rw [hlog]
    exact List.prefix_append _ _
  · exact hinv.stored_eq.right
  · intro op s' o hstep
    exact hinv.step_iff hstep

/-- A push that waits for room and is resumed at the low-water mark. -/
def waitingPushOps : List Op :=
  [Op.push (some 0) ⟨10, 1⟩ 0, Op.push none ⟨20, 2⟩ 0, Op.push (some 1) ⟨30, 3⟩ 50,
    Op.pop (some 2) (-1), Op.peak, Op.again 1, Op.pop (some 2) 0]

theorem data_queue_fifo_two_slots :
    exists s, Run (Guarded (fun x op => WrapSeen x.1 op) (Graph (watched step recordLog)))
        (bootState 2 1, emptyLog) waitingPushOps
        (s, { pushed := [⟨10, 1⟩, ⟨20, 2⟩, ⟨30, 3⟩]
              popped := [⟨10, 1⟩, ⟨20, 2⟩] }) ∧
      FifoHolds s
        { pushed := [⟨10, 1⟩, ⟨20, 2⟩, ⟨30, 3⟩]
          popped := [⟨10, 1⟩, ⟨20, 2⟩] } := by
  have hexec : (exec (fun (x : State × Log) op =>
      if WrapSeen x.1 op then watched step recordLog x op else none)
      (bootState 2 1, emptyLog) waitingPushOps).map Prod.snd =
      some { pushed := [⟨10, 1⟩, ⟨20, 2⟩, ⟨30, 3⟩]
             popped := [⟨10, 1⟩, ⟨20, 2⟩] } := by
    decide +kernel
  rw [Option.map_eq_some_iff] at hexec
  rcases hexec with ⟨⟨s, log⟩, hexec, hlog⟩
  change log = _ at hlog
  subst hlog
  have hrun := @guarded_run_of_exec _ _ _ _ (fun (x : State × Log) op => WrapSeen x.1 op)
    _ _ _ hexec
  exact ⟨s, hrun, data_queue_fifo (bootState_booted ⟨1, by decide, rfl⟩ 1) hrun⟩

/-!
## Beyond the range of the indices
-/

/-- A queue of one slot after `n` items came and went. -/
def lapped (n : Nat) : State :=
  { bootState 1 0 with
    dq := { (bootState 1 0).dq with getIndex := n, putIndex := n } }

theorem watched_of_outcome (hs : stepOutcome s op = some (s', o)) (log : Log) :
    watched step recordLog (s, log) op = some (s', log.note o) := by
  unfold watched step recordLog outcomeOf
  rw [hs]
  rfl

theorem push_outcome (hroom : s.dq.isFull = false) :
    stepOutcome s (Op.push none item 0) = some (pushItem s item, Outcome.pushed item) := by
  simp [stepOutcome, mayCall, pushLoop, hroom]

theorem pop_outcome (hitem : s.dq.getIndex ≠ s.dq.putIndex) (hwaiting : s.dq.waitingLwm = false) :
    stepOutcome s (Op.pop none 0) =
      some ({ s with dq := s.dq.taken }, Outcome.popped s.dq.front none) := by
  simp [stepOutcome, mayCall, popLoop, popItem, RtDataQueue.taken, hitem, hwaiting]

def lappedFull (n : Nat) : State :=
  { lapped n with dq := { (lapped n).dq with putIndex := n + 1 } }

theorem lapped_step {n : Nat} (hn : n < 65535) {log : Log} :
    exec (watched step recordLog) (lapped n, log) [Op.push none ⟨0, 0⟩ 0, Op.pop none 0] =
      some (lapped (n + 1),
        { pushed := log.pushed ++ [⟨0, 0⟩], popped := log.popped ++ [⟨0, 0⟩] }) := by
  have hnext : (n + 1) % 2 ^ 16 = n + 1 := Nat.mod_eq_of_lt (by omega)
  have hroom : (lapped n).dq.isFull = false := by
    simp [lapped, bootState, RtDataQueue.isFull]
  have hpushed : pushItem (lapped n) ⟨0, 0⟩ = lappedFull n := by
    unfold pushItem lappedFull
    simp only [lapped, bootState, listResume, hnext]
    congr 2
    exact Function.update_eq_self _ _
  have hpush := watched_of_outcome (@push_outcome (lapped n) ⟨0, 0⟩ hroom) log
  rw [hpushed] at hpush
  have htaken : { lappedFull n with dq := (lappedFull n).dq.taken } = lapped (n + 1) := by
    unfold lappedFull lapped RtDataQueue.taken
    simp only [hnext]
  have hpop := watched_of_outcome
    (pop_outcome (show (lappedFull n).dq.getIndex ≠ (lappedFull n).dq.putIndex from
      Nat.ne_of_lt (Nat.lt_succ_self n)) rfl) (log.note (Outcome.pushed ⟨0, 0⟩))
  rw [htaken] at hpop
  simp only [exec, hpush, hpop]
  rfl

theorem lapped_run {n : Nat} (hn : n ≤ 65535) :
    exists ops, Run (Graph (watched step recordLog)) (bootState 1 0, emptyLog) ops
      (lapped n, Log.mk (List.replicate n ⟨0, 0⟩) (List.replicate n ⟨0, 0⟩)) := by
  induction n with
  | zero => exact ⟨[], Run.nil⟩
  | succ n ih =>
    rcases ih (by omega) with ⟨ops, hrun⟩
    have hmore := hrun.exec_append (lapped_step (by omega))
    rw [← List.replicate_succ'] at hmore
    exact ⟨_, hmore⟩

theorem wrapped_run {ops : List Op} {items : List RtDataItem}
    (hrun : Run (Graph (watched step recordLog)) (bootState 1 0, emptyLog) ops
      (lapped 65535, Log.mk items items)) :
    exists ops', Run (Graph (watched step recordLog)) (bootState 1 0, emptyLog) ops'
      (pushItem (pushItem (lapped 65535) ⟨1, 1⟩) ⟨2, 2⟩,
        Log.mk (items ++ [⟨1, 1⟩] ++ [⟨2, 2⟩]) items) := by
  have hfirst := watched_of_outcome (@push_outcome (lapped 65535) ⟨1, 1⟩ (by decide))
    (Log.mk items items)
  have hsecond := watched_of_outcome
    (@push_outcome (pushItem (lapped 65535) ⟨1, 1⟩) ⟨2, 2⟩ (by decide))
    ((Log.mk items items).note (Outcome.pushed ⟨1, 1⟩))
  exact ⟨_, Run.snoc (Run.snoc hrun hfirst) hsecond⟩

/-- After 65535 items the put index wraps around.  Then two items fit into a queue of
one slot, and the second replaces the first. -/
theorem wrapped_push_overwrites :
    exists ops s log, Run (Graph (watched step recordLog)) (bootState 1 0, emptyLog) ops
        (s, log) ∧
      s.dq.size = 1 ∧ log.stored = 2 ∧ log.pushed[log.popped.length]? = some ⟨1, 1⟩ ∧
      s.dq.front = ⟨2, 2⟩ ∧ ¬ FifoHolds s log := by
  obtain ⟨items, ops, hrun⟩ : exists items ops,
      Run (Graph (watched step recordLog)) (bootState 1 0, emptyLog) ops
        (lapped 65535, Log.mk items items) :=
    ⟨_, lapped_run (Nat.le_refl 65535)⟩
  obtain ⟨ops', hmore⟩ := wrapped_run hrun
  have hstored : (Log.mk (items ++ [⟨1, 1⟩] ++ [⟨2, 2⟩]) items).stored = 2 := by
    simp [Log.stored]
  have hsize : (pushItem (pushItem (lapped 65535) ⟨1, 1⟩) ⟨2, 2⟩).dq.size = 1 := rfl
  refine ⟨ops', _, _, hmore, hsize, hstored, ?_, by decide, ?_⟩
  · simp
  · intro hholds
    have hbound := hholds.bounded
    rw [hsize, hstored] at hbound
    omega

end RtThread.Drivers.DataQueue
