import RtThread.Ipc.Waiting
import RtThread.Kernel.Align
import RtThread.Mem.Ownership

/-!
# Memory pools

`rt_mp_init`, `rt_mp_alloc` and `rt_mp_free` on one pool. The blocks lie in a byte memory, each
with a header of four bytes in front: a free block's leads to the next free block, an allocated
one's to the pool. The pool object is a record beside the memory, and null pointers are zero. An
allocation that waits is one step up to its `rt_schedule` and another each time its thread runs
again.
-/

namespace RtThread.Mem

open Kernel ByteMemory Ipc

namespace MemPool

/-- `struct rt_mempool` at the address `self`, behind a `struct rt_object` of
`objectSize` bytes. -/
structure RtMempool where
  self : Nat
  objectSize : Nat
  startAddress : Nat
  size : Nat
  blockSize : Nat
  blockList : Nat
  blockTotalCount : Nat
  blockFreeCount : Nat
  suspendThread : List Tid
  suspendThreadCount : Nat
deriving DecidableEq, Repr

def RtMempool.stride (mp : RtMempool) : Nat := add32 mp.blockSize 4

def header (m : Memory) (b : Nat) : Nat := readNumber m b 4

def setHeader (m : Memory) (b value : Nat) : Memory := writeNumber m b 4 value

/-- The loop of `rt_mp_init` over the blocks from `b` on. -/
def linkBlocks (stride : Nat) : Nat -> Memory -> Nat -> Memory
  | 0, m, _ => m
  | k + 1, m, b => linkBlocks stride k (setHeader m b (b + stride)) (b + stride)

def rtMpInit (c : Config) (m : Memory) (self objectSize start size blockSize : Nat) :
    RtMempool × Memory :=
  let size := rtAlignDown size c.alignSize
  let blockSize := rtAlign blockSize c.alignSize
  let stride := add32 blockSize 4
  let total := size / stride
  let m := linkBlocks stride total m start
  let m := setHeader m (sub32 (start + total * stride) stride) 0
  ({ self := self
     objectSize := objectSize
     startAddress := start
     size := size
     blockSize := blockSize
     blockList := start
     blockTotalCount := total
     blockFreeCount := total
     suspendThread := []
     suspendThreadCount := 0 }, m)

inductive Pc where
  | idle
  | allocating (time : Int)
deriving DecidableEq, Repr

/-- The system; `live` are the blocks that are allocated. -/
structure State where
  mem : Memory
  mp : RtMempool
  thread : Threads
  pc : Tid -> Pc
  live : List Nat

inductive Outcome where
  | waits
  | fails (e : RtErr)
  | allocated (block : Nat)
  | freed
  | expired
  | written
deriving DecidableEq, Repr

/-!
## Operations
-/

def leave (pc : Tid -> Pc) : Option Tid -> Tid -> Pc
  | none => pc
  | some t => Function.update pc t Pc.idle

/-- `rt_mp_alloc` from the test of its loop on: it returns, or it waits. -/
def allocLoop (s : State) (caller : Option Tid) (time : Int) :
    Option (State × Outcome) :=
  let mp := s.mp
  if mp.blockFreeCount = 0 then
    if time = 0 then
      some ({ s with pc := leave s.pc caller }, Outcome.fails RtErr.etimeout)
    else
      match caller with
      | none => none
      | some t =>
        (suspendFor (setError s.thread t RtErr.eok) t time).map fun v =>
          ({ s with
              thread := v
              mp := { mp with
                suspendThread := t :: mp.suspendThread
                suspendThreadCount := mp.suspendThreadCount + 1 }
              pc := Function.update s.pc t (Pc.allocating time) }, Outcome.waits)
  else if mp.blockList = 0 then none
  else
    let block := mp.blockList
    some ({ s with
        mem := setHeader s.mem block mp.self
        mp := { mp with
          blockFreeCount := mp.blockFreeCount - 1
          blockList := header s.mem block }
        pc := leave s.pc caller
        live := block :: s.live }, Outcome.allocated (block + 4))

/-- `rt_mp_alloc` when a thread that waited runs again, `delta` ticks later. -/
def allocReturn (s : State) (t : Tid) (time : Int) (delta : Nat) :
    Option (State × Outcome) :=
  let e := (s.thread t).error
  if e ≠ RtErr.eok then
    some ({ s with pc := Function.update s.pc t Pc.idle }, Outcome.fails e)
  else allocLoop s (some t) (timeoutLeft time delta)

/-- The address of the list head `suspend_thread` in the pool object. -/
def RtMempool.suspendHead (mp : RtMempool) : Nat := mp.self + mp.objectSize + 24

/-- The resumption of what `rt_list_entry` makes of the head of an empty list. `error` and
`stat` lie 28 and 32 bytes behind `tlist`. What follows is unknown if `stat` happens to hold
`RT_THREAD_SUSPEND`. -/
def resumeHead (s : State) : Option State :=
  let head := s.mp.suspendHead
  let m := writeNumber s.mem (head + 28) 4 0
  if readNumber m (head + 32) 1 = 2 then none else some { s with mem := m }

def resumeFirst (s : State) : Option State :=
  match s.mp.suspendThread with
  | [] => resumeHead s
  | t :: rest =>
    let woken := listResume (setError s.thread t RtErr.eok) (t :: rest)
    some { s with
      thread := woken.1
      mp := { s.mp with suspendThread := woken.2 } }

/-- `rt_mp_free` of the block with its header at `block`. -/
def rtMpFree (s : State) (block : Nat) : Option State :=
  -- the pool is found through the header
  if header s.mem block ≠ s.mp.self then none
  else
    let s := { s with
      mem := setHeader s.mem block s.mp.blockList
      mp := { s.mp with
        blockFreeCount := s.mp.blockFreeCount + 1
        blockList := block }
      live := s.live.erase block }
    if 0 < s.mp.suspendThreadCount then
      (resumeFirst s).map fun s =>
        { s with mp := { s.mp with
            suspendThreadCount := s.mp.suspendThreadCount - 1 } }
    else some s

def timeout (s : State) (t : Tid) : State :=
  { s with
    thread := threadTimeout s.thread t
    mp := { s.mp with suspendThread := s.mp.suspendThread.erase t } }

/-!
## Runs
-/

inductive Op where
  | alloc (caller : Option Tid) (time : Int)
  | allocReturn (t : Tid) (delta : Nat)
  | free (block : Nat)
  | timeout (t : Tid)
  | write (addr : Nat) (v : Byte)
deriving DecidableEq, Repr

def mayCall (s : State) : Option Tid -> Bool
  | none => true
  | some t =>
    decide ((s.thread t).stat = ThreadStat.ready) && decide (s.pc t = Pc.idle)

def InPayload (mp : RtMempool) (b addr : Nat) : Prop :=
  b + 4 ≤ addr ∧ addr < b + mp.stride

instance (mp : RtMempool) (b addr : Nat) : Decidable (InPayload mp b addr) :=
  inferInstanceAs (Decidable (_ ∧ _))

/-- A byte that its holder, or code that does not know the pool, may write. -/
def MayWrite (s : State) (addr : Nat) : Prop :=
  addr < s.mp.startAddress ∨ s.mp.startAddress + s.mp.size ≤ addr ∨
    exists b, b ∈ s.live ∧ InPayload s.mp b addr

instance (s : State) (addr : Nat) : Decidable (MayWrite s addr) :=
  inferInstanceAs (Decidable (_ ∨ _ ∨ _))

def stepOutcome (s : State) : Op -> Option (State × Outcome)
  | Op.alloc caller time =>
    if mayCall s caller then allocLoop s caller time else none
  | Op.allocReturn t delta =>
    match s.pc t with
    | Pc.idle => none
    | Pc.allocating time =>
      if (s.thread t).stat = ThreadStat.ready then allocReturn s t time delta
      else none
  | Op.free block =>
    if block ∈ s.live then (rtMpFree s block).map fun s => (s, Outcome.freed)
    else none
  | Op.timeout t =>
    if (s.thread t).timerLinked ∧ (s.thread t).stat = ThreadStat.suspend then
      some (timeout s t, Outcome.expired)
    else none
  | Op.write addr v =>
    if MayWrite s addr then
      some ({ s with mem := Function.update s.mem addr v }, Outcome.written)
    else none

def step (s : State) (op : Op) : Option State := (stepOutcome s op).map Prod.fst

/-- A pool as `rt_mp_init` leaves it, in a system of started threads, within the address
space and with room for a block. -/
structure Booted (c : Config) (s : State) : Prop where
  pool : exists m self objectSize start size blockSize,
    (s.mp, s.mem) = rtMpInit c m self objectSize start size blockSize ∧
    0 < self ∧ self < 2 ^ 32 ∧ 0 < start ∧ start + size ≤ 2 ^ 32 ∧
    rtAlign blockSize c.alignSize + 4 ≤ rtAlignDown size c.alignSize
  thread : forall t, (s.thread t).stat = ThreadStat.ready ∧
    (s.thread t).timerLinked = false
  pc : forall t, s.pc t = Pc.idle
  live : s.live = []

def bootState (c : Config) (self objectSize start size blockSize : Nat) : State :=
  let r := rtMpInit c (fun _ => 0) self objectSize start size blockSize
  { mem := r.2
    mp := r.1
    thread := fun _ =>
      { stat := ThreadStat.ready
        currentPriority := 10
        initPriority := 10
        error := RtErr.eok
        timerLinked := false }
    pc := fun _ => Pc.idle
    live := [] }

theorem bootState_booted {c : Config} {self objectSize start size blockSize : Nat}
    (hself : 0 < self ∧ self < 2 ^ 32) (hstart : 0 < start)
    (hfits : start + size ≤ 2 ^ 32)
    (hblock : rtAlign blockSize c.alignSize + 4 ≤ rtAlignDown size c.alignSize) :
    Booted c (bootState c self objectSize start size blockSize) := by
  constructor
  · exact ⟨fun _ => 0, self, objectSize, start, size, blockSize, rfl, hself.left,
      hself.right, hstart, hfits, hblock⟩
  · intro t
    exact ⟨rfl, rfl⟩
  · intro t
    rfl
  · rfl

end MemPool
end RtThread.Mem
