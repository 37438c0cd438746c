import RtThread.Kernel.Align
import RtThread.Library.RingBuffer

/-!
# The ring buffer of the device drivers

`ringbuffer.c`, and the functions on ring buffers of `rtdevice.h`. The two indices have fifteen
bits and a mirror bit each, which flips when the index wraps around. Expressions are of type `int`
and are cut off when stored. A copy that leaves the pool or the caller's buffer has no result.
-/

namespace RtThread.Drivers

/-- `struct rt_ringbuffer`, with the bytes of the pool and their number. -/
structure RtRingbuffer where
  bufferPtr : Nat -> UInt8
  poolSize : Nat
  readMirror : Bool
  readIndex : Nat
  writeMirror : Bool
  writeIndex : Nat
  bufferSize : Nat

inductive RtRingbufferState where
  | empty
  | full
  | halffull
deriving DecidableEq, Repr

def uint16 (x : Int) : Nat := (x % 2 ^ 16).toNat

def index15 (x : Int) : Nat := (x % 2 ^ 15).toNat

/-- `rt_ringbuffer_init`, on a pool of `size` bytes. -/
def rtRingbufferInit (pool : Nat -> UInt8) (size align : Nat) : RtRingbuffer :=
  { bufferPtr := pool
    poolSize := size
    readMirror := false
    readIndex := 0
    writeMirror := false
    writeIndex := 0
    bufferSize := Kernel.rtAlignDown size align }

def rtRingbufferStatus (rb : RtRingbuffer) : RtRingbufferState :=
  if rb.readIndex = rb.writeIndex then
    if rb.readMirror = rb.writeMirror then RtRingbufferState.empty
    else RtRingbufferState.full
  else RtRingbufferState.halffull

def rtRingbufferDataLen (rb : RtRingbuffer) : Nat :=
  match rtRingbufferStatus rb with
  | RtRingbufferState.empty => 0
  | RtRingbufferState.full => uint16 rb.bufferSize
  | RtRingbufferState.halffull =>
    if rb.readIndex < rb.writeIndex then uint16 (rb.writeIndex - rb.readIndex)
    else uint16 (rb.bufferSize - (rb.readIndex - rb.writeIndex))

def rtRingbufferSpaceLen (rb : RtRingbuffer) : Int :=
  rb.bufferSize - rtRingbufferDataLen rb

/-- Write `n` bytes of `src` from `start` on into memory from `dst` on. -/
def writeBlock (pool : Nat -> UInt8) (dst : Nat) (src : List UInt8) (start n : Nat) :
    Nat -> UInt8 := fun i =>
  if dst ≤ i ∧ i < dst + n then src.getD (start + (i - dst)) 0 else pool i

/-- `n` bytes of memory from `start` on. -/
def readBlock (pool : Nat -> UInt8) (start n : Nat) : List UInt8 :=
  (List.range n).map fun i => pool (start + i)

/-- `memcpy` into the pool. -/
def copyIn (rb : RtRingbuffer) (dst : Nat) (src : List UInt8) (start n : Int) :
    Option RtRingbuffer :=
  if 0 ≤ n ∧ dst + n ≤ rb.poolSize ∧ 0 ≤ start ∧ start + n ≤ src.length then
    some { rb with bufferPtr := writeBlock rb.bufferPtr dst src start.toNat n.toNat }
  else none

/-- `memcpy` out of the pool. -/
def copyOut (dst : List UInt8) (start : Int) (rb : RtRingbuffer) (src : Nat) (n : Int) :
    Option (List UInt8) :=
  if 0 ≤ n ∧ src + n ≤ rb.poolSize ∧ 0 ≤ start ∧ start + n ≤ dst.length then
    some (dst.take start.toNat ++ readBlock rb.bufferPtr src n.toNat ++
      dst.drop (start + n).toNat)
  else none

/-- `rt_ringbuffer_put`, with all of the caller's bytes. -/
def rtRingbufferPut (rb : RtRingbuffer) (ptr : List UInt8) :
    Option (Nat × RtRingbuffer) := do
  let size := uint16 (rtRingbufferSpaceLen rb)
  if size = 0 then
    return (0, rb)
  let length := if size < ptr.length then size else ptr.length
  let rest : Int := rb.bufferSize - rb.writeIndex
  if rest > length then
    let rb <- copyIn rb rb.writeIndex ptr 0 length
    return (length, { rb with writeIndex := index15 (rb.writeIndex + length) })
  let rb <- copyIn rb rb.writeIndex ptr 0 rest
  let rb <- copyIn rb 0 ptr rest (length - rest)
  return (length,
    { rb with writeMirror := !rb.writeMirror, writeIndex := index15 (length - rest) })

/-- `rt_ringbuffer_put_force`, which drops old bytes of a full buffer. -/
def rtRingbufferPutForce (rb : RtRingbuffer) (ptr : List UInt8) :
    Option (Nat × RtRingbuffer) := do
  let spaceLength := uint16 (rtRingbufferSpaceLen rb)
  let length := if spaceLength < ptr.length then uint16 rb.bufferSize else ptr.length
  let rest : Int := rb.bufferSize - rb.writeIndex
  if rest > length then
    let rb <- copyIn rb rb.writeIndex ptr 0 length
    let rb := { rb with writeIndex := index15 (rb.writeIndex + length) }
    if spaceLength < length then
      return (length, { rb with readIndex := rb.writeIndex })
    return (length, rb)
  let rb <- copyIn rb rb.writeIndex ptr 0 rest
  let rb <- copyIn rb 0 ptr rest (length - rest)
  let rb := { rb with writeMirror := !rb.writeMirror, writeIndex := index15 (length - rest) }
  if spaceLength < length then
    return (length, { rb with readMirror := !rb.readMirror, readIndex := rb.writeIndex })
  return (length, rb)

/-- `rt_ringbuffer_get`, into all of the caller's bytes. -/
def rtRingbufferGet (rb : RtRingbuffer) (ptr : List UInt8) :
    Option (Nat × List UInt8 × RtRingbuffer) := do
  let size := rtRingbufferDataLen rb
  if size = 0 then
    return (0, ptr, rb)
  let length := if size < ptr.length then size else ptr.length
  let rest : Int := rb.bufferSize - rb.readIndex
  if rest > length then
    let ptr <- copyOut ptr 0 rb rb.readIndex length
    return (length, ptr, { rb with readIndex := index15 (rb.readIndex + length) })
  let ptr <- copyOut ptr 0 rb rb.readIndex rest
  let ptr <- copyOut ptr rest rb 0 (length - rest)
  return (length, ptr,
    { rb with readMirror := !rb.readMirror, readIndex := index15 (length - rest) })

def store (rb : RtRingbuffer) (ch : UInt8) : Option RtRingbuffer :=
  if rb.writeIndex < rb.poolSize then
    some { rb with bufferPtr := Function.update rb.bufferPtr rb.writeIndex ch }
  else none

def load (rb : RtRingbuffer) : Option UInt8 :=
  if rb.readIndex < rb.poolSize then some (rb.bufferPtr rb.readIndex) else none

def rtRingbufferPutchar (rb : RtRingbuffer) (ch : UInt8) :
    Option (Nat × RtRingbuffer) := do
  if rtRingbufferSpaceLen rb = 0 then
    return (0, rb)
  let rb <- store rb ch
  if (rb.writeIndex : Int) = rb.bufferSize - 1 then
    return (1, { rb with writeMirror := !rb.writeMirror, writeIndex := 0 })
  return (1, { rb with writeIndex := index15 (rb.writeIndex + 1) })

def rtRingbufferPutcharForce (rb : RtRingbuffer) (ch : UInt8) :
    Option (Nat × RtRingbuffer) := do
  let oldState := rtRingbufferStatus rb
  let rb <- store rb ch
  if (rb.writeIndex : Int) = rb.bufferSize - 1 then
    let rb := { rb with writeMirror := !rb.writeMirror, writeIndex := 0 }
    if oldState = RtRingbufferState.full then
      return (1, { rb with readMirror := !rb.readMirror, readIndex := rb.writeIndex })
    return (1, rb)
  let rb := { rb with writeIndex := index15 (rb.writeIndex + 1) }
  if oldState = RtRingbufferState.full then
    return (1, { rb with readIndex := rb.writeIndex })
  return (1, rb)

/-- `rt_ringbuffer_getchar`, with the byte that the caller's `ch` points to. -/
def rtRingbufferGetchar (rb : RtRingbuffer) (ch : UInt8) :
    Option (Nat × UInt8 × RtRingbuffer) := do
  if rtRingbufferDataLen rb = 0 then
    return (0, ch, rb)
  let ch <- load rb
  if (rb.readIndex : Int) = rb.bufferSize - 1 then
    return (1, ch, { rb with readMirror := !rb.readMirror, readIndex := 0 })
  return (1, ch, { rb with readIndex := index15 (rb.readIndex + 1) })

/-!
# States that the functions keep
-/

/-- The indices lie in the pool, and the mirror bits say which one is ahead. -/
structure RtRingbuffer.Wf (rb : RtRingbuffer) : Prop where
  size_pos : 0 < rb.bufferSize
  size_lt : rb.bufferSize < 2 ^ 15
  pool : rb.bufferSize ≤ rb.poolSize
  read : rb.readIndex < rb.bufferSize
  write : rb.writeIndex < rb.bufferSize
  same : rb.readMirror = rb.writeMirror -> rb.readIndex ≤ rb.writeIndex
  other : rb.readMirror ≠ rb.writeMirror -> rb.writeIndex ≤ rb.readIndex

def RtRingbuffer.used (rb : RtRingbuffer) : Nat :=
  if rb.readMirror = rb.writeMirror then rb.writeIndex - rb.readIndex
  else rb.bufferSize + rb.writeIndex - rb.readIndex

def RtRingbuffer.contents (rb : RtRingbuffer) : List UInt8 :=
  (List.range rb.used).map fun i => rb.bufferPtr ((rb.readIndex + i) % rb.bufferSize)

variable {rb : RtRingbuffer}

theorem uint16_of_lt {n : Nat} (hn : n < 2 ^ 16) : uint16 n = n := by
  unfold uint16
  omega

theorem index15_of_lt {n : Nat} (hn : n < 2 ^ 15) : index15 n = n := by
  unfold index15
  omega

theorem rtRingbufferDataLen_eq (hrb : rb.Wf) : rtRingbufferDataLen rb = rb.used := by
  have hlt := hrb.size_lt
  have hread := hrb.read
  have hwrite := hrb.write
  unfold rtRingbufferDataLen rtRingbufferStatus RtRingbuffer.used
  by_cases hm : rb.readMirror = rb.writeMirror
  · have hle := hrb.same hm
    by_cases hi : rb.readIndex = rb.writeIndex
    · simp [hm, hi]
    · have hcast : ((rb.writeIndex : Int) - rb.readIndex) =
          ((rb.writeIndex - rb.readIndex : Nat) : Int) := by omega
      simp only [hi, hm, if_true, if_false, show rb.readIndex < rb.writeIndex by omega]
      rw [hcast, uint16_of_lt (by omega)]
  · have hle := hrb.other hm
    by_cases hi : rb.readIndex = rb.writeIndex
    · simp only [hi, hm, if_true, if_false]
      rw [uint16_of_lt (by omega)]
      omega
    · have hcast : ((rb.bufferSize : Int) - (rb.readIndex - rb.writeIndex)) =
          ((rb.bufferSize + rb.writeIndex - rb.readIndex : Nat) : Int) := by omega
      simp only [hi, hm, if_false, show ¬ rb.readIndex < rb.writeIndex by omega]
      rw [hcast, uint16_of_lt (by omega)]

theorem RtRingbuffer.Wf.used_le (hrb : rb.Wf) : rb.used ≤ rb.bufferSize := by
  have hread := hrb.read
  have hwrite := hrb.write
  unfold RtRingbuffer.used
  split
  · omega
  · rename_i hm
    have hle := hrb.other hm
    omega

theorem rtRingbufferSpaceLen_eq (hrb : rb.Wf) :
    rtRingbufferSpaceLen rb = ((rb.bufferSize - rb.used : Nat) : Int) := by
  have hle := hrb.used_le
  unfold rtRingbufferSpaceLen
  rw [rtRingbufferDataLen_eq hrb]
  omega

theorem RtRingbuffer.Wf.writeIndex_eq (hrb : rb.Wf) :
    rb.writeIndex = (rb.readIndex + rb.used) % rb.bufferSize := by
  have hread := hrb.read
  have hwrite := hrb.write
  unfold RtRingbuffer.used
  split
  · rename_i hm
    have hle := hrb.same hm
    rw [show rb.readIndex + (rb.writeIndex - rb.readIndex) = rb.writeIndex by omega,
      Nat.mod_eq_of_lt hwrite]
  · rename_i hm
    have hle := hrb.other hm
    rw [show rb.readIndex + (rb.bufferSize + rb.writeIndex - rb.readIndex) =
        rb.writeIndex + rb.bufferSize by omega,
      Nat.add_mod_right, Nat.mod_eq_of_lt hwrite]

theorem rtRingbufferStatus_full_iff (hrb : rb.Wf) :
    rtRingbufferStatus rb = RtRingbufferState.full <-> rb.used = rb.bufferSize := by
  have hread := hrb.read
  have hwrite := hrb.write
  unfold rtRingbufferStatus RtRingbuffer.used
  by_cases hm : rb.readMirror = rb.writeMirror
  · have hle := hrb.same hm
    simp only [hm, if_true]
    constructor
    · intro h
      split at h <;> cases h
    · intro h
      omega
  · have hle := hrb.other hm
    simp only [hm, if_false]
    constructor
    · intro h
      split at h
      · omega
      · cases h
    · intro h
      rw [if_pos (by omega)]

theorem init_wf (pool : Nat -> UInt8) {size align : Nat} (halign : 0 < align)
    (hle : align ≤ size) (hmax : size ≤ 32767) :
    (rtRingbufferInit pool size align).Wf := by
  have hmod := Nat.mod_lt size halign
  have hdown := Kernel.rtAlignDown_le size align
  have hpos : 0 < Kernel.rtAlignDown size align := by
    unfold Kernel.rtAlignDown
    omega
  constructor
  · exact hpos
  · show Kernel.rtAlignDown size align < 2 ^ 15
    omega
  · exact hdown
  · exact hpos
  · exact hpos
  · intro _
    exact Nat.le_refl 0
  · intro h
    exact absurd rfl h

end RtThread.Drivers
