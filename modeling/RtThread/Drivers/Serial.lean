import RtThread.Drivers.Device
import RtThread.Library.Transition

/-!
# Opening and closing a serial device

The methods of a serial device below the generic device layer, with the blocks that they
allocate and free and the calls of `ops->control` that they make.  An assertion that fails
ends the run, and so does an allocation that fails, which is asserted not to.  Only the array of
a data queue may be refused.
-/

namespace RtThread.Drivers.Serial

open Kernel
open Transition

def flagIntRx : Nat := 0x100
def flagDmaRx : Nat := 0x200
def flagIntTx : Nat := 0x400
def flagDmaTx : Nat := 0x800

/-- What a block was allocated for. -/
inductive Kind where
  | rxDma
  | rxFifo
  | txDma
  | txItems
  | txFifo
deriving DecidableEq, Repr

structure Block where
  kind : Kind
  number : Nat
deriving DecidableEq, Repr

inductive Cmd where
  | setInt
  | clrInt
deriving DecidableEq, Repr

/-- `struct rt_serial_device` without its device, with the blocks allocated and freed so
far and the control calls made so far. -/
structure SerialData where
  serialRx : Option Block
  serialTx : Option Block
  allocated : List Block
  freed : List Block
  control : List (Cmd × Nat)
deriving DecidableEq, Repr

/-!
## Methods
-/

/-- `rt_malloc`, which gives a new block every time. -/
def malloc (d : SerialData) (kind : Kind) : Block × SerialData :=
  let b := { kind := kind, number := d.allocated.length }
  (b, { d with allocated := d.allocated ++ [b] })

def free (d : SerialData) (b : Block) : SerialData := { d with freed := d.freed ++ [b] }

def opsControl (d : SerialData) (cmd : Cmd) (source : Nat) : SerialData :=
  { d with control := d.control ++ [(cmd, source)] }

def setFlag (dev : RtDevice) (mask : Nat) : RtDevice :=
  { dev with openFlag := dev.openFlag ||| mask }

def clearFlag (dev : RtDevice) (mask : Nat) : RtDevice :=
  { dev with openFlag := dev.openFlag &&& (0xffff ^^^ mask) }

/-- `rt_serial_init`, with what the low-level driver's configure returns. -/
def rtSerialInit (configure : RtErr) : Method SerialData := fun x =>
  some ((x.1, { x.2 with serialRx := none, serialTx := none }), configure)

def supports (flag oflag : Nat) : Bool :=
  [flagDmaRx, flagDmaTx, flagIntRx, flagIntTx].all fun mode =>
    !hasFlag oflag mode || hasFlag flag mode

/-- The receive part of `rt_serial_open`. -/
def openRx (oflag : Nat) (x : RtDevice × SerialData) : RtDevice × SerialData :=
  match x.2.serialRx with
  | some _ => x
  | none =>
    if hasFlag oflag flagDmaRx then
      let m := malloc x.2 Kind.rxDma
      (setFlag x.1 flagDmaRx, { m.2 with serialRx := some m.1 })
    else if hasFlag oflag flagIntRx then
      let m := malloc x.2 Kind.rxFifo
      (setFlag x.1 flagIntRx,
        opsControl { m.2 with serialRx := some m.1 } Cmd.setInt flagIntRx)
    else x

/-- `rt_data_queue_init`: the array of the queue, unless there is no memory for it. -/
def rtDataQueueInit (d : SerialData) (memory : Bool) : SerialData :=
  if memory then (malloc d Kind.txItems).2 else d

/-- The transmit part of `rt_serial_open`, which does not look at the result of
`rt_data_queue_init`. -/
def openTx (oflag : Nat) (memory : Bool) (x : RtDevice × SerialData) : RtDevice × SerialData :=
  match x.2.serialTx with
  | some _ => x
  | none =>
    if hasFlag oflag flagDmaTx then
      let m := malloc x.2 Kind.txDma
      (setFlag x.1 flagDmaTx, { rtDataQueueInit m.2 memory with serialTx := some m.1 })
    else if hasFlag oflag flagIntTx then
      let m := malloc x.2 Kind.txFifo
      (setFlag x.1 flagIntTx,
        opsControl { m.2 with serialTx := some m.1 } Cmd.setInt flagIntTx)
    else x

def rtSerialOpen (memory : Bool) (oflag : Nat) : Method SerialData := fun x =>
  if supports x.1.flag oflag then
    let x := ({ x.1 with openFlag := oflag &&& 0xff }, x.2)
    some (openTx oflag memory (openRx oflag x), RtErr.eok)
  else some (x, RtErr.eio)

/-- The receive part of `rt_serial_close` clears the interrupt of the transmitter, and in
DMA mode frees its block. -/
def closeRx (x : RtDevice × SerialData) : Option (RtDevice × SerialData) :=
  if hasFlag x.1.openFlag flagIntRx then
    x.2.serialRx.map fun b =>
      (clearFlag x.1 flagIntRx,
        opsControl { free x.2 b with serialRx := none } Cmd.clrInt flagIntTx)
  else if hasFlag x.1.openFlag flagDmaRx then
    x.2.serialTx.map fun b =>
      (clearFlag x.1 flagDmaRx, { free x.2 b with serialRx := none })
  else some x

/-- The transmit part of `rt_serial_close`: in interrupt mode the block it frees is that of
the receiver. -/
def closeTx (x : RtDevice × SerialData) : Option (RtDevice × SerialData) :=
  if hasFlag x.1.openFlag flagIntTx then
    x.2.serialRx.map fun b =>
      (clearFlag x.1 flagIntTx,
        opsControl { free x.2 b with serialTx := none } Cmd.clrInt flagIntTx)
  else if hasFlag x.1.openFlag flagDmaTx then
    x.2.serialTx.map fun b =>
      (clearFlag x.1 flagDmaTx, { free x.2 b with serialTx := none })
  else some x

def rtSerialClose : Method SerialData := fun x =>
  if x.1.refCount > 1 then some (x, RtErr.eok)
  else ((closeRx x).bind closeTx).map fun y => (y, RtErr.eok)

def serialDriver (configure : RtErr) (memory : Bool) : Driver SerialData :=
  { init := some (rtSerialInit configure)
    openDev := some (rtSerialOpen memory)
    close := some rtSerialClose }

abbrev State := RtDevice × SerialData

/-- An open comes with what the driver's configure returns and whether there is memory for the
array of a data queue. -/
inductive Op where
  | openDev (oflag : Nat) (configure : RtErr) (memory : Bool)
  | close
deriving DecidableEq, Repr

def stepResult (s : State) : Op -> Option (State × RtErr)
  | Op.openDev oflag configure memory => rtDeviceOpen (serialDriver configure memory) s oflag
  | Op.close => rtDeviceClose (serialDriver RtErr.eok true) s

def step (s : State) (op : Op) : Option State := (stepResult s op).map Prod.fst

def noData : SerialData :=
  { serialRx := none
    serialTx := none
    allocated := []
    freed := []
    control := [] }

structure Registered (s : State) : Prop where
  count : s.1.refCount = 0
  flag : s.1.openFlag = 0
  data : s.2 = noData

/-!
## What open and close promise
-/

/-- A mode bit of the open flag is set exactly if the structure of that mode exists. -/
def Agrees (s : State) : Prop :=
  (hasFlag s.1.openFlag flagIntRx = true <-> exists n, s.2.serialRx = some ⟨Kind.rxFifo, n⟩) ∧
    (hasFlag s.1.openFlag flagDmaRx = true <->
      exists n, s.2.serialRx = some ⟨Kind.rxDma, n⟩) ∧
    (hasFlag s.1.openFlag flagIntTx = true <->
      exists n, s.2.serialTx = some ⟨Kind.txFifo, n⟩) ∧
    (hasFlag s.1.openFlag flagDmaTx = true <->
      exists n, s.2.serialTx = some ⟨Kind.txDma, n⟩)

/-- All that was allocated was freed exactly once, no structure is left, every source was
disabled as often as enabled, and the open flag is clear. -/
def Undone (s : State) : Prop :=
  s.2.allocated.Nodup ∧ s.2.freed.Perm s.2.allocated ∧
    s.2.serialRx = none ∧ s.2.serialTx = none ∧
    (forall source, s.2.control.count (Cmd.setInt, source) =
      s.2.control.count (Cmd.clrInt, source)) ∧ s.1.openFlag = 0

/-- Of the four modes the open asks at most for DMA on the transmit side: it must once the
structure of that mode exists, and may before only if the array of its queue is refused. -/
def PlainModes (d : SerialData) (oflag : Nat) (memory : Bool) : Prop :=
  hasFlag oflag flagIntRx = false ∧ hasFlag oflag flagDmaRx = false ∧
    hasFlag oflag flagIntTx = false ∧
    if d.serialTx = none then hasFlag oflag flagDmaTx = true -> memory = false
    else hasFlag oflag flagDmaTx = true

def Plain (s : State) : Op -> Prop
  | Op.openDev oflag _ memory => supports s.1.flag oflag = true -> PlainModes s.2 oflag memory
  | Op.close => True

instance (d : SerialData) (oflag : Nat) (memory : Bool) :
    Decidable (PlainModes d oflag memory) := by
  unfold PlainModes
  infer_instance

instance (s : State) : forall op, Decidable (Plain s op)
  | Op.openDev _ _ _ => inferInstanceAs (Decidable (_ -> _))
  | Op.close => isTrue trivial

/-- The device is closed, or it is open without a receive structure. -/
structure Tidy (s : State) : Prop where
  rx : s.2.serialRx = none
  kind : forall b, s.2.serialTx = some b -> b.kind = Kind.txDma
  control : s.2.control = []
  blocks : s.2.allocated = s.2.freed ++ s.2.serialTx.toList
  numbers : s.2.allocated.map Block.number = List.range s.2.allocated.length
  closed : s.1.refCount = 0 -> s.2.serialTx = none ∧ s.1.openFlag = 0
  opened : s.1.refCount ≠ 0 -> hasFlag s.1.flag flagActivated = true ∧ Agrees s

/-!
## Steps
-/

variable {s s' : State} {r configure : RtErr} {oflag : Nat} {memory : Bool} {op : Op}

theorem hasFlag_or {flags more mask : Nat} (hout : more &&& mask = 0) :
    hasFlag (flags ||| more) mask = hasFlag flags mask := by
  unfold hasFlag
  rw [Nat.and_or_distrib_right, hout, Nat.or_zero]

theorem supports_activated (flag : Nat) :
    supports (flag ||| flagActivated) oflag = supports flag oflag := by
  unfold supports
  simp only [List.all_cons, List.all_nil, Bool.and_true]
  rw [hasFlag_or (show flagActivated &&& flagDmaRx = 0 from rfl),
    hasFlag_or (show flagActivated &&& flagDmaTx = 0 from rfl),
    hasFlag_or (show flagActivated &&& flagIntRx = 0 from rfl),
    hasFlag_or (show flagActivated &&& flagIntTx = 0 from rfl)]

theorem Tidy.activate (ht : Tidy s)
    (hs : activate (serialDriver configure memory) s = some (s', r)) :
    Tidy s' ∧ s'.2 = s.2 ∧ supports s'.1.flag oflag = supports s.1.flag oflag ∧
      (r = RtErr.eok -> hasFlag s'.1.flag flagActivated = true) := by
  unfold Drivers.activate serialDriver at hs
  split at hs
  · next hactive =>
      cases hs
      exact ⟨ht, rfl, rfl, fun _ => hactive⟩
  · next hactive =>
      have hzero : s.1.refCount = 0 := by
        by_contra hne
        exact hactive (ht.opened hne).1
      have hdata : { s.2 with serialRx := none, serialTx := none } = s.2 := by
        have htx := (ht.closed hzero).1
        have hrx := ht.rx
        cases hd : s.2
        rw [hd] at htx hrx
        cases htx
        cases hrx
        rfl
      simp only [rtSerialInit, Option.map_some, Option.some.injEq, hdata] at hs
      split at hs
      · cases hs
        refine ⟨⟨ht.rx, ht.kind, ht.control, ht.blocks, ht.numbers, ht.closed, ?_⟩, rfl,
          supports_activated _, fun _ => hasFlag_activated _⟩
        intro hne
        exact absurd hzero hne
      · next hconf =>
          cases hs
          exact ⟨ht, rfl, rfl, fun hr => absurd hr hconf⟩

theorem open_plain {x : State} (hrx : x.2.serialRx = none) (hplain : PlainModes x.2 oflag memory) :
    openTx oflag memory (openRx oflag x) =
      match x.2.serialTx, hasFlag oflag flagDmaTx with
      | none, true => (setFlag x.1 flagDmaTx,
          { (malloc x.2 Kind.txDma).2 with serialTx := some (malloc x.2 Kind.txDma).1 })
      | _, _ => x := by
  obtain ⟨hintRx, hdmaRx, hintTx, hdmaTx⟩ := hplain
  have hsame : openRx oflag x = x := by
    simp only [openRx, hrx, hdmaRx, hintRx, Bool.false_eq_true, if_false]
  rw [hsame]
  unfold openTx
  cases htx : x.2.serialTx with
  | some b => rfl
  | none =>
    rw [if_pos htx] at hdmaTx
    cases hdma : hasFlag oflag flagDmaTx with
    | false => simp only [Bool.false_eq_true, hintTx, if_false]
    | true =>
      -- the array of the queue is refused
      rw [hdmaTx hdma]
      rfl

theorem agrees_of_plain {dev : RtDevice} {d : SerialData} (hrx : d.serialRx = none)
    (hkind : forall b, d.serialTx = some b -> b.kind = Kind.txDma)
    (hflag : dev.openFlag = oflag ||| oflagOpen)
    (hplain : hasFlag oflag flagIntRx = false ∧ hasFlag oflag flagDmaRx = false ∧
      hasFlag oflag flagIntTx = false)
    (htx : hasFlag oflag flagDmaTx = true <-> d.serialTx ≠ none) : Agrees (dev, d) := by
  obtain ⟨hintRx, hdmaRx, hintTx⟩ := hplain
  unfold Agrees
  simp only [hflag, hrx]
  rw [hasFlag_or (show oflagOpen &&& flagIntRx = 0 from rfl),
    hasFlag_or (show oflagOpen &&& flagDmaRx = 0 from rfl),
    hasFlag_or (show oflagOpen &&& flagIntTx = 0 from rfl),
    hasFlag_or (show oflagOpen &&& flagDmaTx = 0 from rfl), hintRx, hdmaRx, hintTx, htx]
  refine ⟨by simp, by simp, ?_, ?_⟩
  · constructor
    · intro h
      cases h
    · rintro ⟨n, hn⟩
      have hk := hkind _ hn
      cases hk
  · constructor
    · intro hne
      obtain ⟨b, hb⟩ := Option.ne_none_iff_exists'.mp hne
      obtain ⟨kind, n⟩ := b
      have hk : kind = Kind.txDma := hkind _ hb
      rw [hk] at hb
      exact ⟨n, hb⟩
    · rintro ⟨n, hn⟩
      rw [hn]
      exact Option.some_ne_none _

theorem numbers_malloc {l : List Block} {kind : Kind}
    (hl : l.map Block.number = List.range l.length) :
    (l ++ [Block.mk kind l.length]).map Block.number =
      List.range (l ++ [Block.mk kind l.length]).length := by
  rw [List.map_append, hl, List.length_append, List.length_singleton, List.range_succ]
  rfl

/-- An open that allocates nothing is counted. -/
theorem Tidy.counted (ht : Tidy s) {dev : RtDevice}
    (hactive : hasFlag dev.flag flagActivated = true) (hcount : dev.refCount ≠ 0)
    (hflag : dev.openFlag = oflag ||| oflagOpen)
    (hplain : hasFlag oflag flagIntRx = false ∧ hasFlag oflag flagDmaRx = false ∧
      hasFlag oflag flagIntTx = false)
    (htx : hasFlag oflag flagDmaTx = true <-> s.2.serialTx ≠ none) : Tidy (dev, s.2) :=
  ⟨ht.rx, ht.kind, ht.control, ht.blocks, ht.numbers, fun hzero => absurd hzero hcount,
    fun _ => ⟨hactive, agrees_of_plain ht.rx ht.kind hflag hplain htx⟩⟩

theorem Tidy.method (ht : Tidy s) (hactive : hasFlag s.1.flag flagActivated = true)
    (hok : supports s.1.flag oflag = true -> PlainModes s.2 oflag memory)
    (hs : (rtSerialOpen memory oflag s).bind (countOpen oflag) = some (s', r)) : Tidy s' := by
  unfold rtSerialOpen at hs
  split at hs
  · next hsupports =>
      have hmodes := hok hsupports
      obtain ⟨hintRx, hdmaRx, hintTx, hdmaTx⟩ := hmodes
      have hplain := And.intro hintRx (And.intro hdmaRx hintTx)
      simp only [Option.bind_some, countOpen, true_or, if_true] at hs
      split at hs
      · cases hs
      · next hwrap =>
          rw [open_plain (by exact ht.rx) (by exact hok hsupports)] at hs hwrap
          cases htx : s.2.serialTx with
          | some b =>
            simp only [htx] at hs hwrap
            cases hs
            rw [if_neg (by simp [htx])] at hdmaTx
            refine ht.counted hactive hwrap rfl hplain ?_
            rw [htx]
            simp only [ne_eq, reduceCtorEq, not_false_eq_true, iff_true]
            exact hdmaTx
          | none =>
            have hblocks := ht.blocks
            rw [htx, Option.toList_none, List.append_nil] at hblocks
            cases hdma : hasFlag oflag flagDmaTx with
            | false =>
              simp only [htx, hdma] at hs hwrap
              cases hs
              refine ht.counted hactive hwrap rfl hplain ?_
              simp [htx, hdma]
            | true =>
              simp only [htx, hdma, malloc, setFlag] at hs hwrap
              cases hs
              have hkind : forall b, some (Block.mk Kind.txDma s.2.allocated.length) =
                  some b -> b.kind = Kind.txDma := by
                intro b hb
                cases hb
                rfl
              refine ⟨ht.rx, hkind, ht.control, ?_, numbers_malloc ht.numbers,
                fun hzero => absurd hzero hwrap, fun _ => ⟨hactive, ?_⟩⟩
              · show s.2.allocated ++ [_] = s.2.freed ++ [_]
                rw [hblocks]
              · refine agrees_of_plain ?_ hkind rfl hplain ?_
                · exact ht.rx
                · simp [hdma]
  · simp only [Option.bind_some, countOpen, reduceCtorEq, or_self, if_false] at hs
    cases hs
    exact ht

theorem Tidy.openDev (ht : Tidy s) (hok : Plain s (Op.openDev oflag configure memory))
    (hs : stepResult s (Op.openDev oflag configure memory) = some (s', r)) : Tidy s' := by
  simp only [stepResult, rtDeviceOpen, Option.bind_eq_some_iff] at hs
  obtain ⟨⟨s1, r1⟩, hactivate, hs⟩ := hs
  obtain ⟨ht1, hdata, hsupports, hactive⟩ := @Tidy.activate _ _ _ _ oflag _ ht hactivate
  split at hs
  · cases hs
    exact ht1
  · next hr1 =>
      split at hs
      · cases hs
        exact ht1
      · apply ht1.method (hactive (by simpa using hr1)) _ hs
        rw [hsupports, hdata]
        exact hok

theorem Tidy.close_last {dev : RtDevice} (ht : Tidy s) (hopen : s.1.refCount ≠ 0)
    (hflag : dev.openFlag = s.1.openFlag) :
    exists dev', (closeRx (dev, s.2)).bind closeTx = some (dev', { s.2 with
        serialTx := none
        freed := s.2.freed ++ s.2.serialTx.toList }) ∧ dev'.refCount = dev.refCount := by
  obtain ⟨_, hintRx, hdmaRx, hintTx, hdmaTx⟩ := ht.opened hopen
  rw [← hflag] at hintRx hdmaRx hintTx hdmaTx
  have hnorx : hasFlag dev.openFlag flagIntRx = false ∧
    hasFlag dev.openFlag flagDmaRx = false := by
    rw [ht.rx] at hintRx hdmaRx
    exact ⟨by simpa using hintRx, by simpa using hdmaRx⟩
  have hrx : closeRx (dev, s.2) = some (dev, s.2) := by
    simp only [closeRx, hnorx.1, hnorx.2, Bool.false_eq_true, if_false]
  have hnointTx : hasFlag dev.openFlag flagIntTx = false := by
    rw [Bool.eq_false_iff]
    intro hset
    obtain ⟨n, hn⟩ := hintTx.mp hset
    have hkind := ht.kind _ hn
    cases hkind
  rw [hrx, Option.bind_some]
  unfold closeTx
  simp only [hnointTx, Bool.false_eq_true, if_false]
  cases htx : s.2.serialTx with
  | none =>
    have hclear : hasFlag dev.openFlag flagDmaTx = false := by
      rw [Bool.eq_false_iff]
      intro hset
      obtain ⟨n, hn⟩ := hdmaTx.mp hset
      rw [htx] at hn
      cases hn
    refine ⟨dev, ?_, rfl⟩
    simp only [hclear, Bool.false_eq_true, if_false, Option.toList_none, List.append_nil]
    rw [← htx]
  | some b =>
    have hset : hasFlag dev.openFlag flagDmaTx = true := by
      obtain ⟨kind, n⟩ := b
      have hkind : kind = Kind.txDma := ht.kind _ htx
      rw [hkind] at htx
      exact hdmaTx.mpr ⟨n, htx⟩
    refine ⟨clearFlag dev flagDmaTx, ?_, rfl⟩
    simp only [hset, if_true, Option.map_some, free, Option.toList_some]

theorem Tidy.close (ht : Tidy s) : exists s' r, stepResult s Op.close = some (s', r) ∧
    Tidy s' := by
  unfold stepResult rtDeviceClose
  by_cases hzero : s.1.refCount = 0
  · simp only [hzero, if_true]
    exact ⟨s, _, rfl, ht⟩
  · simp only [hzero, if_false]
    by_cases hmore : s.1.refCount - 1 = 0
    · obtain ⟨dev', hclose, hcount⟩ := @Tidy.close_last _
        { s.1 with refCount := s.1.refCount - 1 } ht hzero rfl
      simp only [hmore, ne_eq, not_true_eq_false, if_false, serialDriver, rtSerialClose]
      simp only [hmore] at hclose hcount
      rw [if_neg (by decide), hclose]
      simp only [Option.map_some, clearOpen, true_or, if_true]
      refine ⟨_, _, rfl, ?_⟩
      refine ⟨ht.rx, ?_, ht.control, ?_, ht.numbers, fun _ => ⟨rfl, rfl⟩, ?_⟩
      · intro b hb
        cases hb
      · show s.2.allocated = (s.2.freed ++ s.2.serialTx.toList) ++ []
        rw [List.append_nil]
        exact ht.blocks
      · intro hne
        exact absurd hcount hne
    · simp only [ne_eq, hmore, not_false_eq_true, if_true]
      refine ⟨_, _, rfl, ht.rx, ht.kind, ht.control, ht.blocks, ht.numbers, ?_, ?_⟩
      · intro hnone
        exact absurd hnone hmore
      · intro _
        exact ht.opened hzero

theorem Tidy.step (ht : Tidy s) (hok : Plain s op)
    (hs : stepResult s op = some (s', r)) : Tidy s' := by
  cases op with
  | openDev oflag configure memory => exact ht.openDev hok hs
  | close =>
    obtain ⟨s1, r1, hclose, ht1⟩ := ht.close
    rw [hclose] at hs
    cases hs
    exact ht1

theorem Registered.tidy (hreg : Registered s) : Tidy s := by
  obtain ⟨hcount, hflag, hdata⟩ := hreg
  refine ⟨?_, ?_, ?_, ?_, ?_, ?_, ?_⟩
  · rw [hdata]
    rfl
  · intro b hb
    rw [hdata] at hb
    cases hb
  · rw [hdata]
    rfl
  · rw [hdata]
    rfl
  · rw [hdata]
    rfl
  · intro _
    rw [hdata]
    exact ⟨rfl, hflag⟩
  · intro hne
    exact absurd hcount hne

/-- In every run of plain opens and of closes: a close fails no assertion; while the device
is open its mode bits agree with the structures; when every open has been closed all is
undone. -/
theorem serial_open_close_inverse {s0 s : State} {ops : List Op} (hreg : Registered s0)
    (hrun : Run (Guarded Plain (Graph step)) s0 ops s) :
    (exists s' r, stepResult s Op.close = some (s', r)) ∧
      (s.1.refCount ≠ 0 -> Agrees s) ∧ (s.1.refCount = 0 -> Undone s) := by
  have hinv : Tidy s := by
    apply hrun.invariant Tidy hreg.tidy
    intro x op x' hx hstep
    have hmoved : (stepResult x op).map Prod.fst = some x' := hstep.right
    rw [Option.map_eq_some_iff] at hmoved
    obtain ⟨⟨s1, r⟩, hresult, heq⟩ := hmoved
    rw [← heq]
    exact hx.step hstep.left hresult
  refine ⟨?_, fun hopen => (hinv.opened hopen).2, ?_⟩
  · obtain ⟨s', r, hclose, _⟩ := hinv.close
    exact ⟨s', r, hclose⟩
  · intro hzero
    obtain ⟨htx, hflag⟩ := hinv.closed hzero
    refine ⟨?_, ?_, hinv.rx, htx, ?_, hflag⟩
    · apply List.Nodup.of_map Block.number
      rw [hinv.numbers]
      exact List.nodup_range
    · rw [hinv.blocks, htx, Option.toList_none, List.append_nil]
    · intro source
      rw [hinv.control]
      rfl

def registeredState : State :=
  ({ flag := 0xf03, openFlag := 0, refCount := 0 }, noData)

theorem registeredState_registered : Registered registeredState := ⟨rfl, rfl, rfl⟩

/-- Two opens for DMA on the transmit side, without memory for the queue, share one structure. -/
theorem serial_open_close_inverse_shared :
    exists s, Run (Guarded Plain (Graph step)) registeredState
        [Op.openDev 0x003 RtErr.eok true, Op.openDev 0x803 RtErr.eok false,
          Op.openDev 0x802 RtErr.eok true, Op.close, Op.close, Op.close] s ∧
      s.1.refCount = 0 ∧ s.2.allocated = [⟨Kind.txDma, 0⟩] ∧ Undone s := by
  have hexec : (exec (fun x op => if Plain x op then step x op else none) registeredState
      [Op.openDev 0x003 RtErr.eok true, Op.openDev 0x803 RtErr.eok false,
        Op.openDev 0x802 RtErr.eok true, Op.close, Op.close, Op.close]).map
      (fun x => (x.1.refCount, x.2.allocated)) = some (0, [⟨Kind.txDma, 0⟩]) := by
    decide +kernel
  rw [Option.map_eq_some_iff] at hexec
  obtain ⟨s, hexec, heq⟩ := hexec
  rw [Prod.mk.injEq] at heq
  have hrun := guarded_run_of_exec hexec
  exact ⟨s, hrun, heq.1, heq.2,
    (serial_open_close_inverse registeredState_registered hrun).2.2 heq.1⟩

theorem run_of_map {α : Type} {ops : List Op} {f : State -> α} {a : α}
    (hexec : (exec step registeredState ops).map f = some a) :
    exists s, Run (Graph step) registeredState ops s ∧ f s = a := by
  rw [Option.map_eq_some_iff] at hexec
  obtain ⟨s, hexec, heq⟩ := hexec
  exact ⟨s, run_of_exec hexec, heq⟩

/-- In interrupt mode the source that was enabled stays enabled; in DMA mode the close fails
an assertion, or leaves the array of the data queue allocated; a second open without the mode bit
hides a structure. -/
theorem serial_close_misses :
    (exists s, Run (Graph step) registeredState [Op.openDev 0x103 RtErr.eok true, Op.close] s ∧
      s.2.control = [(Cmd.setInt, flagIntRx), (Cmd.clrInt, flagIntTx)]) ∧
    (exists s, Run (Graph step) registeredState [Op.openDev 0x203 RtErr.eok true] s ∧
      step s Op.close = none) ∧
    (exists s, Run (Graph step) registeredState [Op.openDev 0x803 RtErr.eok true, Op.close] s ∧
      (s.1.refCount, s.2.allocated, s.2.freed) =
        (0, [⟨Kind.txDma, 0⟩, ⟨Kind.txItems, 1⟩], [⟨Kind.txDma, 0⟩])) ∧
    (exists s, Run (Graph step) registeredState
        [Op.openDev 0x103 RtErr.eok true, Op.openDev 0x003 RtErr.eok true] s ∧
      (s.2.serialRx, hasFlag s.1.openFlag flagIntRx) = (some ⟨Kind.rxFifo, 0⟩, false)) :=
  ⟨run_of_map (by decide +kernel), run_of_map (by decide +kernel),
    run_of_map (by decide +kernel), run_of_map (by decide +kernel)⟩

end RtThread.Drivers.Serial
