import RtThread.Kernel.Align
import RtThread.Library.Transition
import RtThread.Mem.Ownership

/-!
# Memory heaps

`rt_memheap_init`, `rt_memheap_alloc`, `rt_memheap_realloc` and `rt_memheap_free` on one heap
object. Items are addresses in a byte memory that holds the pool and the header of the free list;
pointers and sizes are 32-bit numbers, and sums that can leave the pool wrap around. An operation
has no result when an assertion fails. The calls run under the lock of the heap; a
`rt_memheap_realloc` that moves a block gives it up, and is an allocation, a copy by the caller
and a release.
-/

namespace RtThread.Mem

open Kernel ByteMemory

namespace MemHeap

inductive Field where
  | magic
  | poolPtr
  | next
  | prev
  | nextFree
  | prevFree
deriving DecidableEq, Repr

def Field.word : Field -> Nat
  | Field.magic => 0
  | Field.poolPtr => 1
  | Field.next => 2
  | Field.prev => 3
  | Field.nextFree => 4
  | Field.prevFree => 5

theorem Field.word_lt (f : Field) : f.word < 6 := by
  cases f <;> decide

theorem Field.word_injective : Function.Injective Field.word := by
  intro f g heq
  cases f <;> cases g <;> first | rfl | cases heq

def memheapItem : Layout Field where
  offset f := 4 * f.word
  width _ := 4
  size := 24
  fits := by
    intro f
    have hlt := f.word_lt
    omega
  separate := by
    intro f g hne
    have hword : f.word ≠ g.word := fun heq => hne (Field.word_injective heq)
    omega

def memheapMagic : Nat := 0x1ea01ea0

def memheapMask : Nat := 0xfffffffe

def memheapUsed : Nat := 0x01

def memheapMinialloc : Nat := 12

end MemHeap

def Config.memheapSize (c : Config) : Nat :=
  rtAlign MemHeap.memheapItem.size c.alignSize

def Config.allocSize (c : Config) (size : Nat) : Nat :=
  let size := rtAlign size c.alignSize
  if size < MemHeap.memheapMinialloc then MemHeap.memheapMinialloc else size

namespace MemHeap

/-- `struct rt_memheap` at the address `self`, with the address of its
`free_header`, and the memory. -/
structure RtMemheap where
  self : Nat
  freeHeader : Nat
  startAddr : Nat
  poolSize : Nat
  availableSize : Nat
  maxUsedSize : Nat
  blockList : Nat
  freeList : Nat
  mem : Memory

def RtMemheap.get (h : RtMemheap) (item : Nat) (f : Field) : Nat :=
  memheapItem.get h.mem item f

def RtMemheap.put (h : RtMemheap) (item : Nat) (f : Field) (value : Nat) :
    RtMemheap :=
  { h with mem := memheapItem.put h.mem item f value }

def isUsed (h : RtMemheap) (item : Nat) : Bool :=
  h.get item Field.magic &&& memheapUsed ≠ 0

def memitemSize (c : Config) (h : RtMemheap) (item : Nat) : Nat :=
  sub32 (sub32 (h.get item Field.next) item) c.memheapSize

def RtMemheap.noteUsed (h : RtMemheap) : RtMemheap :=
  let used := sub32 h.poolSize h.availableSize
  { h with maxUsedSize := if h.maxUsedSize < used then used else h.maxUsedSize }

/-!
## The two lists
-/

def freeInsert (h : RtMemheap) (item : Nat) : RtMemheap :=
  let h := h.put item Field.nextFree (h.get h.freeList Field.nextFree)
  let h := h.put item Field.prevFree h.freeList
  let h := h.put (h.get h.freeList Field.nextFree) Field.prevFree item
  h.put h.freeList Field.nextFree item

def freeRemove (h : RtMemheap) (item : Nat) : RtMemheap :=
  let h := h.put (h.get item Field.nextFree) Field.prevFree
    (h.get item Field.prevFree)
  h.put (h.get item Field.prevFree) Field.nextFree (h.get item Field.nextFree)

/-- Build a free item at `new` and link it behind an item of the block list. -/
def splitBlock (h : RtMemheap) (header new : Nat) : RtMemheap :=
  let h := h.put new Field.magic memheapMagic
  let h := h.put new Field.poolPtr h.self
  let h := h.put new Field.prev header
  let h := h.put new Field.next (h.get header Field.next)
  let h := h.put (h.get header Field.next) Field.prev new
  h.put header Field.next new

def rtMemheapInit (c : Config) (m : Memory) (self freeHeader startAddr size : Nat) :
    RtMemheap :=
  let poolSize := rtAlignDown size c.alignSize
  let available := sub32 poolSize (2 * c.memheapSize)
  let h : RtMemheap := ⟨self, freeHeader, startAddr, poolSize, available,
    sub32 poolSize available, 0, 0, m⟩
  -- the free list header
  let h := h.put freeHeader Field.magic memheapMagic
  let h := h.put freeHeader Field.poolPtr self
  let h := h.put freeHeader Field.next 0
  let h := h.put freeHeader Field.prev 0
  let h := h.put freeHeader Field.nextFree freeHeader
  let h := h.put freeHeader Field.prevFree freeHeader
  let h := { h with freeList := freeHeader }
  -- the first big memory block
  let h := h.put startAddr Field.magic memheapMagic
  let h := h.put startAddr Field.poolPtr self
  let h := h.put startAddr Field.next 0
  let h := h.put startAddr Field.prev 0
  let h := h.put startAddr Field.nextFree startAddr
  let h := h.put startAddr Field.prevFree startAddr
  let tail := add32 (add32 startAddr available) c.memheapSize
  let h := h.put startAddr Field.next tail
  let h := h.put startAddr Field.prev (h.get startAddr Field.next)
  let h := { h with blockList := startAddr }
  let h := freeInsert h startAddr
  -- the tailer
  let h := h.put tail Field.magic (memheapMagic ||| memheapUsed)
  let h := h.put tail Field.poolPtr self
  let h := h.put tail Field.next startAddr
  let h := h.put tail Field.prev startAddr
  let h := h.put tail Field.prevFree 0
  h.put tail Field.nextFree 0

/-!
## Allocation
-/

/-- The loop of `rt_memheap_alloc`: the item it stops at and the last size it
read. -/
def searchFree (c : Config) (h : RtMemheap) (size : Nat) :
    Nat -> Nat -> Nat -> Option (Nat × Nat)
  | 0, _, _ => none
  | fuel + 1, header, freeSize =>
    if header ≠ h.freeList ∧ freeSize < size then
      let freeSize := memitemSize c h header
      if freeSize < size then
        searchFree c h size fuel (h.get header Field.nextFree) freeSize
      else
        searchFree c h size fuel header freeSize
    else
      some (header, freeSize)

def freeTake (h : RtMemheap) (item : Nat) : RtMemheap :=
  let h := freeRemove h item
  let h := h.put item Field.nextFree 0
  h.put item Field.prevFree 0

/-- Take a free block, splitting it when the rest is large enough. -/
def takeBlock (c : Config) (h : RtMemheap) (size header freeSize : Nat) :
    RtMemheap :=
  let h :=
    if size + c.memheapSize + memheapMinialloc ≤ freeSize then
      let new := header + size + c.memheapSize
      let h := splitBlock h header new
      let h := freeTake h header
      let h := freeInsert h new
      let h := { h with
        availableSize := sub32 (sub32 h.availableSize size) c.memheapSize }
      h.noteUsed
    else
      let h := { h with availableSize := sub32 h.availableSize freeSize }
      let h := h.noteUsed
      freeTake h header
  h.put header Field.magic (h.get header Field.magic ||| memheapUsed)

def RtMemheap.turns (h : RtMemheap) : Nat := h.poolSize + 3

def rtMemheapAlloc (c : Config) (h : RtMemheap) (size : Nat) :
    Option (RtMemheap × Option Nat) :=
  let size := c.allocSize size
  if size < h.availableSize then
    match searchFree c h size h.turns (h.get h.freeList Field.nextFree) 0 with
    | none => none
    | some (header, freeSize) =>
      if size ≤ freeSize then
        some (takeBlock c h size header freeSize,
          some (header + c.memheapSize))
      else
        some (h, none)
  else
    some (h, none)

/-!
## Release
-/

/-- Merge a block with its previous neighbour if that is free: the heap, the
merged block, and whether it is yet to be inserted in the free list. -/
def mergeLeft (c : Config) (h : RtMemheap) (header : Nat) :
    RtMemheap × Nat × Bool :=
  if ¬ isUsed h (h.get header Field.prev) then
    let h := { h with availableSize := add32 h.availableSize c.memheapSize }
    let h := h.put (h.get header Field.prev) Field.next (h.get header Field.next)
    let h := h.put (h.get header Field.next) Field.prev (h.get header Field.prev)
    (h, h.get header Field.prev, false)
  else
    (h, header, true)

/-- Merge a block with its next neighbour if that is free. -/
def mergeRight (c : Config) (h : RtMemheap) (header : Nat) : RtMemheap :=
  if ¬ isUsed h (h.get header Field.next) then
    let h := { h with availableSize := add32 h.availableSize c.memheapSize }
    let new := h.get header Field.next
    let h := h.put (h.get new Field.next) Field.prev header
    let h := h.put header Field.next (h.get new Field.next)
    freeRemove h new
  else
    h

/-- `rt_memheap_free`.  The pool pointer of the item must be this heap. -/
def rtMemheapFree (c : Config) (h : RtMemheap) : Option Nat -> Option RtMemheap
  | none => some h
  | some ptr =>
    let header := ptr - c.memheapSize
    let magic := h.get header Field.magic
    if magic &&& memheapMask = memheapMagic ∧ magic &&& memheapUsed ≠ 0 ∧
        h.get (h.get header Field.next) Field.magic &&& memheapMask =
          memheapMagic ∧
        h.get header Field.poolPtr = h.self then
      let h := h.put header Field.magic (magic &&& memheapMask)
      let h := { h with
        availableSize := add32 h.availableSize (memitemSize c h header) }
      let left := mergeLeft c h header
      let h := mergeRight c left.1 left.2.1
      some (if left.2.2 then freeInsert h left.2.1 else h)
    else
      none

/-!
## Reallocation
-/

def growBlock (h : RtMemheap) (ptr header next oldsize newsize : Nat) :
    RtMemheap :=
  let h := { h with
    availableSize := sub32 h.availableSize (sub32 newsize oldsize) }
  let h := h.noteUsed
  let h := freeRemove h next
  let h := h.put (h.get next Field.next) Field.prev (h.get next Field.prev)
  let h := h.put (h.get next Field.prev) Field.next (h.get next Field.next)
  let new := add32 ptr newsize
  let h := splitBlock h header new
  freeInsert h new

/-- Cut off the end of a block and merge it with a free block behind it. -/
def shrinkBlock (c : Config) (h : RtMemheap) (header newsize : Nat) : RtMemheap :=
  let new := header + newsize + c.memheapSize
  let h := splitBlock h header new
  let h :=
    if ¬ isUsed h (h.get new Field.next) then
      let free := h.get new Field.next
      let h := { h with
        availableSize := sub32 h.availableSize (memitemSize c h free) }
      let h := h.put (h.get free Field.next) Field.prev new
      let h := h.put new Field.next (h.get free Field.next)
      freeRemove h free
    else
      h
  let h := freeInsert h new
  { h with availableSize := add32 h.availableSize (memitemSize c h new) }

def rtMemcpy (h : RtMemheap) (dst src count : Nat) : RtMemheap :=
  { h with mem := copy h.mem dst src count }

def moveBlock (c : Config) (h : RtMemheap) (ptr oldsize newsize : Nat) :
    Option (RtMemheap × Option Nat) :=
  match rtMemheapAlloc c h newsize with
  | none => none
  | some (h, none) => some (h, none)
  | some (h, some new) =>
    let h := rtMemcpy h new ptr (if oldsize < newsize then oldsize else newsize)
    (rtMemheapFree c h (some ptr)).map fun h => (h, some new)

def rtMemheapRealloc (c : Config) (h : RtMemheap) (ptr : Option Nat)
    (newsize : Nat) : Option (RtMemheap × Option Nat) :=
  if newsize = 0 then
    (rtMemheapFree c h ptr).map fun h => (h, none)
  else
    let newsize := c.allocSize newsize
    match ptr with
    | none => rtMemheapAlloc c h newsize
    | some ptr =>
      let header := ptr - c.memheapSize
      let oldsize := memitemSize c h header
      if oldsize < newsize then
        let next := h.get header Field.next
        if header < next then
          if ¬ isUsed h next ∧ add32 newsize memheapMinialloc <
              add32 (memitemSize c h next) oldsize then
            some (growBlock h ptr header next oldsize newsize, some ptr)
          else
            moveBlock c h ptr oldsize newsize
        else
          none
      else if oldsize ≤ newsize + c.memheapSize + memheapMinialloc then
        some (h, some ptr)
      else
        some (shrinkBlock c h header newsize, some ptr)

/-!
## Runs
-/

structure State where
  heap : RtMemheap
  live : Owners

def payloadSize (c : Config) (h : RtMemheap) (ptr : Nat) : Nat :=
  h.get (ptr - c.memheapSize) Field.next - ptr

def act (c : Config) (s : State) : Op -> Option State
  | Op.malloc size =>
    (rtMemheapAlloc c s.heap size).map fun r =>
      ⟨r.1, s.live.malloc (c.allocSize size) r.2⟩
  | Op.free ptr =>
    (rtMemheapFree c s.heap ptr).map fun h => ⟨h, s.live.free ptr⟩
  | Op.realloc none newsize =>
    (rtMemheapRealloc c s.heap none newsize).map fun r =>
      ⟨r.1, s.live.malloc (c.allocSize newsize) r.2⟩
  | Op.realloc (some ptr) newsize =>
    (rtMemheapRealloc c s.heap (some ptr) newsize).map fun r =>
      if newsize = 0 then
        ⟨r.1, s.live.free (some ptr)⟩
      else
        ⟨r.1, s.live.move ptr newsize (c.allocSize newsize) r.2⟩
  | Op.write ptr i v =>
    if i < payloadSize c s.heap ptr then
      let m := Function.update s.heap.mem (ptr + i) v
      some ⟨{ s.heap with mem := m }, s.live.write ptr i v⟩
    else
      none

/-- One step of the system: a call with a 32-bit size and a live pointer. -/
def step (c : Config) (s : State) (op : Op) : Option State :=
  if op.Legal s.live then act c s op else none

def boot (h : RtMemheap) : State := ⟨h, fun _ => none⟩

end MemHeap
end RtThread.Mem
