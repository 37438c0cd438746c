import RtThread.Kernel.Align
import RtThread.Library.Transition
import RtThread.Mem.Ownership

/-!
# The small memory heap

`rt_system_heap_init`, `rt_malloc`, `rt_realloc` and `rt_free` of `mem.c`. The memory is indexed
by the offset from `heap_ptr`, which is what the headers store; callers see addresses. Sums of
offsets and sizes stay below the end of the heap and are plain; differences are those of
`rt_size_t`. An operation has no result when an assertion fails or a loop does not end. All of
this runs under `heap_sem`; a `rt_realloc` that moves a block gives it up, and is an allocation, a
copy by the caller and a release.
-/

namespace RtThread.Mem

open Kernel ByteMemory

namespace SmallMem

inductive Field where
  | magic
  | used
  | next
  | prev
deriving DecidableEq, Repr

def heapMem : Layout Field where
  offset
    | Field.magic => 0
    | Field.used => 2
    | Field.next => 4
    | Field.prev => 8
  width
    | Field.magic => 2
    | Field.used => 2
    | Field.next => 4
    | Field.prev => 4
  size := 12
  fits := by
    intro f
    cases f with
    | magic => decide
    | used => decide
    | next => decide
    | prev => decide
  separate := by
    intro f g hne
    cases f with
    | magic => cases g <;> first | exact absurd rfl hne | decide
    | used => cases g <;> first | exact absurd rfl hne | decide
    | next => cases g <;> first | exact absurd rfl hne | decide
    | prev => cases g <;> first | exact absurd rfl hne | decide

def heapMagic : Nat := 0x1ea0

def minSize : Nat := 12

end SmallMem

def Config.minSizeAligned (c : Config) : Nat := rtAlign SmallMem.minSize c.alignSize

def Config.sizeofStructMem (c : Config) : Nat := rtAlign SmallMem.heapMem.size c.alignSize

/-- Every data block must be at least `MIN_SIZE_ALIGNED` long. -/
def Config.dataSize (c : Config) (size : Nat) : Nat :=
  if size < c.minSizeAligned then c.minSizeAligned else size

namespace SmallMem

/-- The static variables of `mem.c` and the memory of the heap. -/
structure Heap where
  heapPtr : Nat
  memSizeAligned : Nat
  lfree : Nat
  usedMem : Nat
  maxMem : Nat
  mem : Memory

/-- `heap_end`, set once and for all when the heap is initialised. -/
def Heap.heapEnd (c : Config) (h : Heap) : Nat :=
  h.memSizeAligned + c.sizeofStructMem

def Heap.get (h : Heap) (mem : Nat) (f : Field) : Nat := heapMem.get h.mem mem f

def Heap.put (h : Heap) (mem : Nat) (f : Field) (value : Nat) : Heap :=
  { h with mem := heapMem.put h.mem mem f value }

/-- Count a block in `used_mem` and `max_mem`. -/
def Heap.account (h : Heap) (size : Nat) : Heap :=
  let used := add32 h.usedMem size
  { h with
    usedMem := used
    maxMem := if h.maxMem < used then used else h.maxMem }

/-- `rt_system_heap_init`, over whatever the memory holds. -/
def rtSystemHeapInit (c : Config) (m : Memory) (beginAddr endAddr : Nat) :
    Option Heap :=
  let beginAlign := rtAlign (beginAddr % 2 ^ 32) c.alignSize
  let endAlign := rtAlignDown (endAddr % 2 ^ 32) c.alignSize
  if 2 * c.sizeofStructMem < endAlign ∧
      beginAlign ≤ endAlign - 2 * c.sizeofStructMem then
    let size := endAlign - beginAlign - 2 * c.sizeofStructMem
    let h : Heap := ⟨beginAlign, size, 0, 0, 0, m⟩
    let h := h.put 0 Field.magic heapMagic
    let h := h.put 0 Field.next (size + c.sizeofStructMem)
    let h := h.put 0 Field.prev 0
    let h := h.put 0 Field.used 0
    let e := h.heapEnd c
    let h := h.put e Field.magic heapMagic
    let h := h.put e Field.used 1
    let h := h.put e Field.next (size + c.sizeofStructMem)
    some (h.put e Field.prev (size + c.sizeofStructMem))
  else
    none

/-!
## Joining free blocks
-/

/-- The first half of `plug_holes`: join the block with the one behind it. -/
def plugForward (c : Config) (h : Heap) (mem : Nat) : Heap :=
  let nmem := h.get mem Field.next
  if mem ≠ nmem ∧ h.get nmem Field.used = 0 ∧ nmem ≠ h.heapEnd c then
    let h := { h with lfree := if h.lfree = nmem then mem else h.lfree }
    let h := h.put mem Field.next (h.get nmem Field.next)
    h.put (h.get nmem Field.next) Field.prev mem
  else
    h

/-- The second half: join the block before it with the block. -/
def plugBackward (h : Heap) (mem : Nat) : Heap :=
  let pmem := h.get mem Field.prev
  if pmem ≠ mem ∧ h.get pmem Field.used = 0 then
    let h := { h with lfree := if h.lfree = mem then pmem else h.lfree }
    let h := h.put pmem Field.next (h.get mem Field.next)
    h.put (h.get mem Field.next) Field.prev pmem
  else
    h

def plugHoles (c : Config) (h : Heap) (mem : Nat) : Option Heap :=
  if mem < h.heapEnd c ∧ h.get mem Field.used = 0 then
    some (plugBackward (plugForward c h mem) mem)
  else
    none

/-!
## Allocation
-/

/-- The block fits: it is free and its payload has the size. -/
def fits (c : Config) (h : Heap) (size ptr : Nat) : Bool :=
  h.get ptr Field.used = 0 ∧
    size ≤ sub32 (h.get ptr Field.next) (ptr + c.sizeofStructMem)

/-- The loop of `rt_malloc` from `ptr` on: the block it stops at, if any. -/
def search (c : Config) (h : Heap) (size : Nat) : Nat -> Nat -> Option (Option Nat)
  | 0, _ => none
  | fuel + 1, ptr =>
    if ptr < sub32 h.memSizeAligned size then
      if fits c h size ptr then
        some (some ptr)
      else
        search c h size fuel (h.get ptr Field.next)
    else
      some none

/-- Link the new header `mem2` behind `mem`. -/
def linkBehind (h : Heap) (mem mem2 : Nat) : Heap :=
  let h := h.put mem2 Field.used 0
  let h := h.put mem2 Field.next (h.get mem Field.next)
  let h := h.put mem2 Field.prev mem
  h.put mem Field.next mem2

/-- Let the block behind `mem2` point back at it, unless it is the last entry. -/
def linkBack (c : Config) (h : Heap) (mem2 : Nat) : Heap :=
  if h.get mem2 Field.next ≠ h.memSizeAligned + c.sizeofStructMem then
    h.put (h.get mem2 Field.next) Field.prev mem2
  else
    h

/-- Take the block for a request, splitting it when the rest is large enough. -/
def takeBlock (c : Config) (h : Heap) (size mem : Nat) : Heap :=
  if size + c.sizeofStructMem + c.minSizeAligned ≤
      sub32 (h.get mem Field.next) (mem + c.sizeofStructMem) then
    let mem2 := mem + c.sizeofStructMem + size
    let h := linkBehind h mem mem2
    let h := h.put mem Field.used 1
    (linkBack c h mem2).account (size + c.sizeofStructMem)
  else
    let h := h.put mem Field.used 1
    h.account (sub32 (h.get mem Field.next) mem)

/-- The loop that moves `lfree` to the next free block. -/
def nextFree (c : Config) (h : Heap) : Nat -> Nat -> Option Nat
  | 0, _ => none
  | fuel + 1, p =>
    if h.get p Field.used ≠ 0 ∧ p ≠ h.heapEnd c then
      nextFree c h fuel (h.get p Field.next)
    else
      some p

def Heap.turns (c : Config) (h : Heap) : Nat := h.heapEnd c + 2

/-- Give up `mem` as the lowest free block. -/
def advance (c : Config) (h : Heap) (mem : Nat) : Option Heap :=
  if mem = h.lfree then
    (nextFree c h (h.turns c) h.lfree).map fun p => { h with lfree := p }
  else
    some h

/-- What `rt_malloc` does with the block it found. -/
def allocate (c : Config) (h : Heap) (size mem : Nat) :
    Option (Heap × Option Nat) :=
  let h := (takeBlock c h size mem).put mem Field.magic heapMagic
  match advance c h mem with
  | none => none
  | some h =>
    if mem + c.sizeofStructMem + size ≤ h.heapEnd c ∧
        (h.heapPtr + mem + c.sizeofStructMem) % c.alignSize = 0 ∧
        (h.heapPtr + mem) % c.alignSize = 0 then
      some (h, some (h.heapPtr + mem + c.sizeofStructMem))
    else
      none

/-- `rt_malloc`.  The result is null or the address of the payload. -/
def rtMalloc (c : Config) (h : Heap) (size : Nat) :
    Option (Heap × Option Nat) :=
  if size = 0 then
    some (h, none)
  else
    let size := rtAlign size c.alignSize
    if h.memSizeAligned < size then
      some (h, none)
    else
      let size := c.dataSize size
      match search c h size (h.turns c) h.lfree with
      | none => none
      | some none => some (h, none)
      | some (some mem) => allocate c h size mem

/-!
## Release and reallocation
-/

def rtFree (c : Config) (h : Heap) : Option Nat -> Option Heap
  | none => some h
  | some rmem =>
    if rmem % c.alignSize = 0 ∧ h.heapPtr ≤ rmem ∧
        rmem < h.heapPtr + h.heapEnd c then
      let mem := rmem - c.sizeofStructMem - h.heapPtr
      if h.get mem Field.used ≠ 0 ∧ h.get mem Field.magic = heapMagic then
        let h := h.put mem Field.used 0
        let h := h.put mem Field.magic 0
        let h := { h with lfree := if mem < h.lfree then mem else h.lfree }
        let h := { h with
          usedMem := sub32 h.usedMem (sub32 (h.get mem Field.next) mem) }
        plugHoles c h mem
      else
        none
    else
      none

/-- The part of `rt_realloc` that cuts off the end of a block. -/
def shrink (c : Config) (h : Heap) (mem size newsize : Nat) : Option Heap :=
  let h := { h with usedMem := sub32 h.usedMem (sub32 size newsize) }
  let mem2 := mem + c.sizeofStructMem + newsize
  let h := h.put mem2 Field.magic heapMagic
  let h := linkBehind h mem mem2
  plugHoles c (linkBack c h mem2) mem2

/-- `rt_memcpy` inside of the heap. -/
def rtMemcpy (h : Heap) (dst src count : Nat) : Heap :=
  { h with mem := copy h.mem dst src count }

/-- The part of `rt_realloc` that moves a block. -/
def relocate (c : Config) (h : Heap) (rmem size newsize : Nat) :
    Option (Heap × Option Nat) :=
  match rtMalloc c h newsize with
  | none => none
  | some (h, none) => some (h, none)
  | some (h, some nmem) =>
    let n := if size < newsize then size else newsize
    let h := rtMemcpy h (nmem - h.heapPtr) (rmem - h.heapPtr) n
    (rtFree c h (some rmem)).map fun h => (h, some nmem)

def rtRealloc (c : Config) (h : Heap) (rmem : Option Nat) (newsize : Nat) :
    Option (Heap × Option Nat) :=
  let newsize := rtAlign newsize c.alignSize
  if h.memSizeAligned < newsize then
    some (h, none)
  else
    match rmem with
    | none => rtMalloc c h newsize
    | some rmem =>
      if rmem < h.heapPtr ∨ h.heapPtr + h.heapEnd c ≤ rmem then
        some (h, some rmem)
      else
        let mem := rmem - c.sizeofStructMem - h.heapPtr
        let size := sub32 (sub32 (h.get mem Field.next) mem) c.sizeofStructMem
        if size = newsize then
          some (h, some rmem)
        else if newsize + c.sizeofStructMem + minSize < size then
          (shrink c h mem size newsize).map fun h => (h, some rmem)
        else
          relocate c h rmem size newsize

/-!
## Runs
-/

structure State where
  heap : Heap
  live : Owners

def payloadSize (c : Config) (h : Heap) (rmem : Nat) : Nat :=
  h.get (rmem - c.sizeofStructMem - h.heapPtr) Field.next - (rmem - h.heapPtr)

def act (c : Config) (s : State) : Op -> Option State
  | Op.malloc size =>
    (rtMalloc c s.heap size).map fun r => ⟨r.1, s.live.malloc size r.2⟩
  | Op.free rmem =>
    (rtFree c s.heap rmem).map fun h => ⟨h, s.live.free rmem⟩
  | Op.realloc none newsize =>
    (rtRealloc c s.heap none newsize).map fun r =>
      ⟨r.1, s.live.malloc newsize r.2⟩
  | Op.realloc (some rmem) newsize =>
    (rtRealloc c s.heap (some rmem) newsize).map fun r =>
      ⟨r.1, s.live.move rmem newsize newsize r.2⟩
  | Op.write rmem i v =>
    if i < payloadSize c s.heap rmem then
      let m := Function.update s.heap.mem (rmem - s.heap.heapPtr + i) v
      some ⟨{ s.heap with mem := m }, s.live.write rmem i v⟩
    else
      none

/-- One step of the system: a call with a 32-bit size and a live pointer. -/
def step (c : Config) (s : State) (op : Op) : Option State :=
  if op.Legal s.live then act c s op else none

def noOwners : Owners := fun _ => none

def boot (h : Heap) : State := ⟨h, noOwners⟩

end SmallMem
end RtThread.Mem
