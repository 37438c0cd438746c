import RtThread.Drivers.RingBufferBlocks

/-!
# The ring buffer refines a bounded queue

Calls are made with buffers of the caller's: the bytes to put, or the bytes to fill.
The queue says what a call returns and leaves in that buffer.
-/

namespace RtThread.Drivers

/-- A buffer whose length can be passed as an `rt_uint16_t`. -/
structure Block where
  bytes : List UInt8
  bound : bytes.length < 2 ^ 16

inductive RingOp where
  | put (block : Block)
  | get (block : Block)
  | putchar (ch : UInt8)
  | getchar (ch : UInt8)
  | putcharForce (ch : UInt8)

/-- The value returned, and the caller's buffer after the call. -/
structure RingResult where
  count : Nat
  buffer : List UInt8
deriving DecidableEq

def ringStep (rb : RtRingbuffer) : RingOp -> Option (RingResult × RtRingbuffer)
  | RingOp.put block =>
    (rtRingbufferPut rb block.bytes).map fun r => (⟨r.1, block.bytes⟩, r.2)
  | RingOp.get block =>
    (rtRingbufferGet rb block.bytes).map fun r => (⟨r.1, r.2.1⟩, r.2.2)
  | RingOp.putchar ch =>
    (rtRingbufferPutchar rb ch).map fun r => (⟨r.1, [ch]⟩, r.2)
  | RingOp.getchar ch =>
    (rtRingbufferGetchar rb ch).map fun r => (⟨r.1, [r.2.1]⟩, r.2.2)
  | RingOp.putcharForce ch =>
    (rtRingbufferPutcharForce rb ch).map fun r => (⟨r.1, [ch]⟩, r.2)

def ringRun (rb : RtRingbuffer) : List RingOp -> Option (List RingResult × RtRingbuffer)
  | [] => some ([], rb)
  | op :: rest => do
      let (result, rb) <- ringStep rb op
      let (results, rb) <- ringRun rb rest
      return (result :: results, rb)

/-!
# The bounded queue
-/

def fifoStep (capacity : Nat) (q : List UInt8) : RingOp -> RingResult × List UInt8
  | RingOp.put block =>
    let n := min block.bytes.length (capacity - q.length)
    (⟨n, block.bytes⟩, q ++ block.bytes.take n)
  | RingOp.get block =>
    let n := min block.bytes.length q.length
    (⟨n, q.take n ++ block.bytes.drop n⟩, q.drop n)
  | RingOp.putchar ch =>
    if q.length < capacity then (⟨1, [ch]⟩, q ++ [ch]) else (⟨0, [ch]⟩, q)
  | RingOp.getchar ch =>
    match q with
    | [] => (⟨0, [ch]⟩, [])
    | x :: q => (⟨1, [x]⟩, q)
  | RingOp.putcharForce ch =>
    if q.length < capacity then (⟨1, [ch]⟩, q ++ [ch]) else (⟨1, [ch]⟩, q.tail ++ [ch])

def fifoRun (capacity : Nat) (q : List UInt8) : List RingOp -> List RingResult × List UInt8
  | [] => ([], q)
  | op :: rest =>
    let (result, q) := fifoStep capacity q op
    let (results, q) := fifoRun capacity q rest
    (result :: results, q)

/-!
# Refinement
-/

variable {rb : RtRingbuffer} {q : List UInt8}

theorem Holds.advanceRead (h : Holds rb q) {n : Nat} (hn : n ≤ q.length) :
    Holds (rb.advanceRead n) (q.drop n) := by
  induction n generalizing rb q with
  | zero => simpa [advanceRead_zero h.wf] using h
  | succ n ih =>
    cases q with
    | nil => cases hn
    | cons x q =>
      have hfits := h.stores.fits
      rw [List.length_cons] at hfits hn
      have hpop := ih h.pop.right (by omega)
      rwa [advanceRead_add h.wf (by omega), Nat.add_comm 1 n] at hpop

def Refined (rb : RtRingbuffer) (result : RingResult × List UInt8)
    (step : Option (RingResult × RtRingbuffer)) : Prop :=
  exists rb', step = some (result.1, rb') ∧ Holds rb' result.2 ∧
    rb'.bufferSize = rb.bufferSize

theorem Holds.put (h : Holds rb q) (block : Block) :
    Refined rb (fifoStep rb.bufferSize q (RingOp.put block)) (ringStep rb (RingOp.put block)) := by
  rcases h.putchars block.bytes with ⟨rb', hput, hholds, hsize⟩
  refine ⟨rb', ?_, ?_, hsize⟩
  · simp only [ringStep, rtRingbufferPut_eq_putchars h.wf, hput]
    rfl
  · simp only [fifoStep]
    rwa [Nat.min_comm, ← List.take_take, List.take_length]

theorem Holds.get (h : Holds rb q) (block : Block) :
    Refined rb (fifoStep rb.bufferSize q (RingOp.get block)) (ringStep rb (RingOp.get block)) := by
  refine ⟨rb.advanceRead (min block.bytes.length q.length), ?_,
    h.advanceRead (Nat.min_le_right _ _), advanceRead_bufferSize _⟩
  simp only [ringStep, h.get_eq_getchars, h.getchars, Option.map_some, fifoStep]
  rcases Nat.le_total block.bytes.length q.length with hle | hle
  · rw [Nat.min_eq_left hle, List.drop_eq_nil_of_le hle, List.drop_length]
  · rw [Nat.min_eq_right hle, List.take_of_length_le hle, List.take_length]

theorem Holds.putchar (h : Holds rb q) (ch : UInt8) :
    Refined rb (fifoStep rb.bufferSize q (RingOp.putchar ch))
      (ringStep rb (RingOp.putchar ch)) := by
  have hfits := h.stores.fits
  unfold Refined
  simp only [ringStep, fifoStep]
  by_cases hroom : q.length < rb.bufferSize
  · rw [if_pos hroom, rtRingbufferPutchar_room h.wf (by rw [h.used]; exact hroom)]
    exact ⟨_, rfl, h.push hroom ch, advanceWrite_bufferSize _⟩
  · rw [if_neg hroom, rtRingbufferPutchar_full h.wf (by rw [h.used]; omega)]
    exact ⟨rb, rfl, h, rfl⟩

theorem Holds.getchar (h : Holds rb q) (ch : UInt8) :
    Refined rb (fifoStep rb.bufferSize q (RingOp.getchar ch))
      (ringStep rb (RingOp.getchar ch)) := by
  unfold Refined
  simp only [ringStep]
  cases q with
  | nil =>
    rw [rtRingbufferGetchar_empty h.wf h.used]
    exact ⟨rb, rfl, h, rfl⟩
  | cons x q =>
    have hpos : 0 < rb.used := by
      rw [h.used]
      exact Nat.succ_pos _
    rw [rtRingbufferGetchar_data h.wf hpos, h.pop.left]
    exact ⟨_, rfl, h.pop.right, advanceRead_bufferSize _⟩

theorem Holds.putcharForce (h : Holds rb q) (ch : UInt8) :
    Refined rb (fifoStep rb.bufferSize q (RingOp.putcharForce ch))
      (ringStep rb (RingOp.putcharForce ch)) := by
  have hfits := h.stores.fits
  have hpos := h.wf.size_pos
  unfold Refined
  simp only [ringStep, fifoStep]
  by_cases hroom : q.length < rb.bufferSize
  · have hused : rb.used < rb.bufferSize := by
      rw [h.used]
      exact hroom
    rw [if_pos hroom, rtRingbufferPutcharForce_room h.wf hused, rtRingbufferPutchar_room h.wf hused]
    exact ⟨_, rfl, h.push hroom ch, advanceWrite_bufferSize _⟩
  · have hfull : q.length = rb.bufferSize := by omega
    have hdrop := h.advanceRead (show 1 ≤ q.length by omega)
    rw [List.drop_one] at hdrop
    have hless : q.tail.length < (rb.advanceRead 1).bufferSize := by
      rw [List.length_tail, advanceRead_bufferSize]
      omega
    rw [if_neg hroom, rtRingbufferPutcharForce_full h.wf (by rw [h.used, hfull]),
      rtRingbufferPutchar_room hdrop.wf (by rw [hdrop.used]; exact hless)]
    refine ⟨_, rfl, hdrop.push hless ch, ?_⟩
    rw [advanceWrite_bufferSize]
    exact advanceRead_bufferSize _

theorem Holds.step (h : Holds rb q) (op : RingOp) :
    Refined rb (fifoStep rb.bufferSize q op) (ringStep rb op) := by
  cases op with
  | put block => exact h.put block
  | get block => exact h.get block
  | putchar ch => exact h.putchar ch
  | getchar ch => exact h.getchar ch
  | putcharForce ch => exact h.putcharForce ch

theorem Holds.run (h : Holds rb q) (ops : List RingOp) :
    exists rb', ringRun rb ops = some ((fifoRun rb.bufferSize q ops).1, rb') ∧
      Holds rb' (fifoRun rb.bufferSize q ops).2 ∧ rb'.bufferSize = rb.bufferSize := by
  induction ops generalizing rb q with
  | nil => exact ⟨rb, rfl, h, rfl⟩
  | cons op rest ih =>
    rcases h.step op with ⟨rb1, hstep, hholds, hsize⟩
    rcases ih hholds with ⟨rb', hrun, hholds', hsize'⟩
    rw [hsize] at hrun hholds' hsize'
    refine ⟨rb', ?_, hholds', hsize'⟩
    simp only [ringRun, hstep, Option.bind_eq_bind, Option.bind_some, hrun, Option.pure_def]
    rfl

theorem init_holds (pool : Nat -> UInt8) {size align : Nat} (halign : 0 < align)
    (hle : align ≤ size) (hmax : size ≤ 32767) :
    Holds (rtRingbufferInit pool size align) [] := by
  have hwf := init_wf pool halign hle hmax
  exact ⟨hwf, rfl, RingBuffer.Stores.nil pool hwf.read⟩

/-- Every sequence of calls on an initialised ring buffer has the results of the bounded
queue and leaves its bytes; no copy goes out of bounds, the two lengths add up, and a block
operation is one operation for each byte. -/
theorem ringbuffer_refines_fifo (pool : Nat -> UInt8) (size align : Nat)
    (halign : 0 < align) (hle : align ≤ size) (hmax : size ≤ 32767) (ops : List RingOp) :
    exists rb, ringRun (rtRingbufferInit pool size align) ops =
        some ((fifoRun (Kernel.rtAlignDown size align) [] ops).1, rb) ∧
      rb.contents = (fifoRun (Kernel.rtAlignDown size align) [] ops).2 ∧
      rb.contents.length = rtRingbufferDataLen rb ∧
      rb.bufferSize = Kernel.rtAlignDown size align ∧
      (rtRingbufferDataLen rb : Int) + rtRingbufferSpaceLen rb = rb.bufferSize ∧
      (forall block : Block, rtRingbufferPut rb block.bytes = putchars rb block.bytes) ∧
      forall block : Block, rtRingbufferGet rb block.bytes = getchars rb block.bytes := by
  rcases (init_holds pool halign hle hmax).run ops with ⟨rb, hrun, hholds, hsize⟩
  refine ⟨rb, hrun, hholds.contents_eq, ?_, hsize, ?_, ?_, ?_⟩
  · rw [hholds.contents_eq, rtRingbufferDataLen_eq hholds.wf, hholds.used]
  · unfold rtRingbufferSpaceLen
    omega
  · intro block
    exact rtRingbufferPut_eq_putchars hholds.wf block.bytes
  · intro block
    exact hholds.get_eq_getchars block.bytes

/-- Two blocks that wrap around, and a byte forced into the full buffer. -/
theorem ringbuffer_refines_fifo_wrap :
    (fifoRun 4 [] [RingOp.put ⟨[1, 2, 3], by decide⟩, RingOp.get ⟨[0, 0], by decide⟩,
        RingOp.put ⟨[4, 5, 6, 7], by decide⟩, RingOp.putcharForce 8]).2 = [4, 5, 6, 8] ∧
      exists rb, ringRun (rtRingbufferInit (fun _ => 0) 5 4)
          [RingOp.put ⟨[1, 2, 3], by decide⟩, RingOp.get ⟨[0, 0], by decide⟩,
            RingOp.put ⟨[4, 5, 6, 7], by decide⟩, RingOp.putcharForce 8] =
          some ([⟨3, [1, 2, 3]⟩, ⟨2, [1, 2]⟩, ⟨3, [4, 5, 6, 7]⟩, ⟨1, [8]⟩], rb) ∧
        rb.contents = [4, 5, 6, 8] := by
  refine ⟨by decide, ?_⟩
  rcases ringbuffer_refines_fifo (fun _ => 0) 5 4 (by decide) (by decide) (by decide)
    [RingOp.put ⟨[1, 2, 3], by decide⟩, RingOp.get ⟨[0, 0], by decide⟩,
      RingOp.put ⟨[4, 5, 6, 7], by decide⟩, RingOp.putcharForce 8] with
    ⟨rb, hrun, hcontents, _⟩
  exact ⟨rb, hrun, hcontents⟩

end RtThread.Drivers
