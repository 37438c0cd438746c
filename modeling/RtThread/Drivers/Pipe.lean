import RtThread.Drivers.RingBufferFifo
import RtThread.Ipc.Waiting

/-!
# Pipe devices

`rt_pipe_read` and `rt_pipe_write` on one pipe. A step is a stretch of code with interrupts
disabled: a call up to its end or to the `rt_schedule` of its loop, then one round of the loop at
a time. Sizes have 32 bits, of which the ring buffer sees 16. The `rx_indicate` callback is left
out.
-/

namespace RtThread.Drivers.Pipe

open Kernel
open Ipc

/-- `struct rt_pipe_device`, with the bits of its flag. -/
structure RtPipeDevice where
  ringbuffer : RtRingbuffer
  blockRd : Bool
  blockWr : Bool
  forceWr : Bool
  suspendedReadList : List Tid
  suspendedWriteList : List Tid

inductive Pc where
  | idle
  | reading (size : Nat)
  | writing (buffer : List UInt8)
deriving DecidableEq, Repr

structure State where
  thread : Threads
  pipe : RtPipeDevice
  pc : Tid -> Pc

inductive Outcome where
  | waits
  | read (bytes : List UInt8)
  | written (bytes : List UInt8)
deriving DecidableEq, Repr

def length16 (size : Nat) : Nat := size % 2 ^ 16

def rtPipeResumeWriter (s : State) : State :=
  let woken := listResume s.thread s.pipe.suspendedWriteList
  { s with thread := woken.1, pipe := { s.pipe with suspendedWriteList := woken.2 } }

def rtPipeResumeReader (s : State) : State :=
  let woken := listResume s.thread s.pipe.suspendedReadList
  { s with thread := woken.1, pipe := { s.pipe with suspendedReadList := woken.2 } }

/-- `rt_ringbuffer_get` on the ring buffer of the pipe, with the bytes it got. -/
def getBytes (s : State) (size : Nat) : Option (List UInt8 × State) :=
  (rtRingbufferGet s.pipe.ringbuffer (List.replicate (length16 size) 0)).map fun r =>
    (r.2.1.take r.1, { s with pipe := { s.pipe with ringbuffer := r.2.2 } })

/-- A function that puts bytes into the ring buffer of the pipe, with the bytes it put. -/
def putBytes (put : RtRingbuffer -> List UInt8 -> Option (Nat × RtRingbuffer)) (s : State)
    (buffer : List UInt8) : Option (List UInt8 × State) :=
  let buffer := buffer.take (length16 buffer.length)
  (put s.pipe.ringbuffer buffer).map fun r =>
    (buffer.take r.1, { s with pipe := { s.pipe with ringbuffer := r.2 } })

def readLoop (s : State) (t : Tid) (size : Nat) : Option (State × Outcome) := do
  let (bytes, s) <- getBytes s size
  if bytes = [] then
    return ({ s with
      thread := threadSuspend s.thread t
      pipe := { s.pipe with suspendedReadList := s.pipe.suspendedReadList ++ [t] }
      pc := Function.update s.pc t (Pc.reading size) }, Outcome.waits)
  return (rtPipeResumeWriter s, Outcome.read bytes)

def writeLoop (s : State) (t : Tid) (buffer : List UInt8) : Option (State × Outcome) := do
  let (bytes, s) <- putBytes rtRingbufferPut s buffer
  if bytes = [] then
    return ({ s with
      thread := threadSuspend s.thread t
      pipe := { s.pipe with suspendedWriteList := s.pipe.suspendedWriteList ++ [t] }
      pc := Function.update s.pc t (Pc.writing buffer) }, Outcome.waits)
  return (rtPipeResumeReader s, Outcome.written bytes)

def rtPipeRead (s : State) (caller : Option Tid) (size : Nat) :
    Option (State × Outcome) := do
  if !s.pipe.blockRd then
    let (bytes, s) <- getBytes s size
    if bytes = [] then
      return (s, Outcome.read bytes)
    return (rtPipeResumeWriter s, Outcome.read bytes)
  match caller with
  | none => none
  | some t => readLoop s t size

def rtPipeWrite (s : State) (caller : Option Tid) (buffer : List UInt8) :
    Option (State × Outcome) := do
  if s.pipe.forceWr || !s.pipe.blockWr then
    let (bytes, s) <-
      if s.pipe.forceWr then putBytes rtRingbufferPutForce s buffer
      else putBytes rtRingbufferPut s buffer
    return (rtPipeResumeReader s, Outcome.written bytes)
  match caller with
  | none => none
  | some t => writeLoop s t buffer

def again (s : State) (t : Tid) : Option (State × Outcome) :=
  let s' := { s with pc := Function.update s.pc t Pc.idle }
  match s.pc t with
  | Pc.idle => none
  | Pc.reading size => readLoop s' t size
  | Pc.writing buffer => writeLoop s' t buffer

/-!
## Runs
-/

inductive Op where
  | read (caller : Option Tid) (size : Nat)
  | write (caller : Option Tid) (buffer : List UInt8)
  | again (t : Tid)
deriving DecidableEq, Repr

def mayCall (s : State) : Option Tid -> Bool
  | none => true
  | some t =>
    decide ((s.thread t).stat = ThreadStat.ready) && decide (s.pc t = Pc.idle)

def stepOutcome (s : State) : Op -> Option (State × Outcome)
  | Op.read caller size => if mayCall s caller then rtPipeRead s caller size else none
  | Op.write caller buffer => if mayCall s caller then rtPipeWrite s caller buffer else none
  | Op.again t => if (s.thread t).stat = ThreadStat.ready then again s t else none

def step (s : State) (op : Op) : Option State := (stepOutcome s op).map Prod.fst

def outcomeOf (s : State) (op : Op) : Option Outcome :=
  (stepOutcome s op).map Prod.snd

theorem step_outcome {s s' : State} {op : Op} (hs : step s op = some s') :
    exists o, stepOutcome s op = some (s', o) ∧ outcomeOf s op = some o := by
  unfold step at hs
  rw [Option.map_eq_some_iff] at hs
  rcases hs with ⟨⟨s1, o⟩, hs, heq⟩
  cases heq
  refine ⟨o, hs, ?_⟩
  unfold outcomeOf
  rw [hs]
  rfl

/-- The pipe as `rt_pipe_init` leaves it, in a system of started threads.  Its writes do
not discard bytes. -/
structure Booted (s : State) : Prop where
  ringbuffer : exists pool size align, 0 < align ∧ align ≤ size ∧ size ≤ 32767 ∧
    s.pipe.ringbuffer = rtRingbufferInit pool size align
  force : s.pipe.forceWr = false
  lists : s.pipe.suspendedReadList = [] ∧ s.pipe.suspendedWriteList = []
  thread : forall t, (s.thread t).stat = ThreadStat.ready
  pc : forall t, s.pc t = Pc.idle

def bootState (size : Nat) (blockWr : Bool) : State :=
  { thread := fun _ =>
      { stat := ThreadStat.ready
        currentPriority := 10
        initPriority := 10
        error := RtErr.eok
        timerLinked := false }
    pipe :=
      { ringbuffer := rtRingbufferInit (fun _ => 0) size 4
        blockRd := true
        blockWr := blockWr
        forceWr := false
        suspendedReadList := []
        suspendedWriteList := [] }
    pc := fun _ => Pc.idle }

theorem bootState_booted {size : Nat} (hle : 4 ≤ size) (hmax : size ≤ 32767)
    (blockWr : Bool) : Booted (bootState size blockWr) := by
  constructor
  · exact ⟨_, size, 4, by decide, hle, hmax, rfl⟩
  · rfl
  · exact ⟨rfl, rfl⟩
  · intro t
    rfl
  · intro t
    rfl

/-!
## What a round of a loop does
-/

def Pc.isReading : Pc -> Bool
  | Pc.reading _ => true
  | _ => false

def Pc.isWriting : Pc -> Bool
  | Pc.writing _ => true
  | _ => false

variable {s s' : State} {q : List UInt8} {o : Outcome} {op : Op}

theorem getBytes_eq (hq : Holds s.pipe.ringbuffer q) (size : Nat) :
    exists rb, getBytes s size = some (q.take (length16 size),
        { s with pipe := { s.pipe with ringbuffer := rb } }) ∧
      Holds rb (q.drop (length16 size)) ∧ rb.bufferSize = s.pipe.ringbuffer.bufferSize := by
  have hmove := hq.advanceRead (Nat.min_le_right (length16 size) q.length)
  refine ⟨_, ?_, ?_, advanceRead_bufferSize (min (length16 size) q.length)⟩
  · unfold getBytes
    rw [hq.get_eq_getchars, hq.getchars, List.length_replicate, Option.map_some]
    congr 2
    rw [List.take_append_of_le_length (by rw [List.length_take]),
      List.take_of_length_le (by rw [List.length_take])]
  · rcases Nat.le_total (length16 size) q.length with hle | hle
    · rwa [Nat.min_eq_left hle] at hmove ⊢
    · rw [Nat.min_eq_right hle] at hmove ⊢
      rw [List.drop_length] at hmove
      rwa [List.drop_eq_nil_of_le hle]

theorem putBytes_eq (hq : Holds s.pipe.ringbuffer q) (buffer : List UInt8) :
    exists rb, putBytes rtRingbufferPut s buffer = some ((buffer.take (length16 buffer.length)).take
          (s.pipe.ringbuffer.bufferSize - q.length),
          { s with pipe := { s.pipe with ringbuffer := rb } }) ∧
      Holds rb (q ++ (buffer.take (length16 buffer.length)).take
        (s.pipe.ringbuffer.bufferSize - q.length)) ∧
      rb.bufferSize = s.pipe.ringbuffer.bufferSize := by
  rcases hq.putchars (buffer.take (length16 buffer.length)) with ⟨rb, hput, hholds, hsize⟩
  refine ⟨rb, ?_, hholds, hsize⟩
  unfold putBytes
  simp only [rtRingbufferPut_eq_putchars hq.wf, hput, Option.map_some]
  congr 2
  rw [Nat.min_comm, ← List.take_take, List.take_length]

end RtThread.Drivers.Pipe
