import RtThread.Kernel.Align
import Mathlib.Logic.Function.Basic

/-!
# The heap of the finsh shell

`finsh_heap.c`. A block has a header of eight bytes with its length and a link; headers are named
by their addresses and kept apart from the bytes. Free and allocated blocks form two lists in the
order of their addresses. A variable of the shell keeps a block from being collected when its
value is the address of the block's data. An operation has no result when a loop does not end.
-/

namespace RtThread.Finsh

open Kernel

def finshHeapMax : Nat := 128

def heapAlignment : Nat := 4

def headerSize : Nat := 8

def heapAlignSize (size : Nat) : Nat :=
  rtAlignDown (size + (heapAlignment - 1)) heapAlignment

inductive ListId where
  | free
  | allocate
deriving DecidableEq, Repr

structure FinshHeap where
  length : Nat -> Nat
  next : Nat -> Option Nat
  freeList : Option Nat
  allocateList : Option Nat

namespace FinshHeap

def head (h : FinshHeap) : ListId -> Option Nat
  | ListId.free => h.freeList
  | ListId.allocate => h.allocateList

def setHead (h : FinshHeap) (list : ListId) (v : Option Nat) : FinshHeap :=
  match list with
  | ListId.free => { h with freeList := v }
  | ListId.allocate => { h with allocateList := v }

def setNext (h : FinshHeap) (header : Nat) (v : Option Nat) : FinshHeap :=
  { h with next := Function.update h.next header v }

def setLength (h : FinshHeap) (header length : Nat) : FinshHeap :=
  { h with length := Function.update h.length header length }

end FinshHeap

/-- `finsh_heap_init`, with the heap at the address `heap`. -/
def finshHeapInit (heap : Nat) : FinshHeap :=
  { length := fun a => if a = heap then finshHeapMax - headerSize else 0
    next := fun _ => none
    freeList := some heap
    allocateList := none }

/-!
## Lists
-/

def insertPoint (h : FinshHeap) (header : Nat) : Nat -> Nat -> Option Nat
  | 0, _ => none
  | fuel + 1, node =>
    match h.next node with
    | none => some node
    | some n => if header < n then some node else insertPoint h header fuel n

def finshBlockInsert (h : FinshHeap) (list : ListId) (header : Nat) :
    Option FinshHeap :=
  match h.head list with
  | none => some (h.setHead list (some header))
  | some node =>
    if header < node then
      some ((h.setNext header (some node)).setHead list (some header))
    else
      match insertPoint h header finshHeapMax node with
      | none => none
      | some node =>
        let h := if h.next node ≠ none then h.setNext header (h.next node) else h
        some (h.setNext node (some header))

def removeLoop (h : FinshHeap) (header : Nat) : Nat -> Option Nat -> Option FinshHeap
  | 0, _ => none
  | _ + 1, none => some h
  | fuel + 1, some node =>
    if h.next node = some header then some (h.setNext node (h.next header))
    else removeLoop h header fuel (h.next node)

def finshBlockRemove (h : FinshHeap) (list : ListId) (header : Nat) :
    Option FinshHeap :=
  if h.head list = some header then
    some ((h.setHead list (h.next header)).setNext header none)
  else removeLoop h header finshHeapMax (h.head list)

def finshBlockSplit (h : FinshHeap) (header size : Nat) : FinshHeap :=
  let next := header + headerSize + size
  let h := h.setLength next (h.length header - headerSize - size)
  let h := h.setLength header size
  let h := h.setNext next (h.next header)
  h.setNext header (some next)

def findPrev (h : FinshHeap) (header : Nat) : Nat -> Option Nat -> Option (Option Nat)
  | 0, _ => none
  | _ + 1, none => some none
  | fuel + 1, some node =>
    if h.next node = some header then some (some node)
    else findPrev h header fuel (h.next node)

def adjoins (h : FinshHeap) (node next : Nat) : Bool :=
  node + h.length node + headerSize = next

/-- `finsh_block_merge`, once the neighbours in the list are found. -/
def mergeWith (h : FinshHeap) (prev next : Option Nat) (header : Nat) : FinshHeap :=
  match prev.filter fun p => adjoins h p header with
  | some prev =>
    match next.filter fun n => adjoins h header n with
    | some next =>
      (h.setLength prev
        (h.length prev + (h.length header + h.length next + 2 * headerSize))).setNext
          prev (h.next next)
    | none =>
      (h.setLength prev (h.length prev + (h.length header + headerSize))).setNext
        prev (h.next header)
  | none =>
    match next.filter fun n => adjoins h header n with
    | some next =>
      (h.setLength header (h.length header + (h.length next + headerSize))).setNext
        header (h.next next)
    | none => h

def finshBlockMerge (h : FinshHeap) (list : ListId) (header : Nat) :
    Option FinshHeap :=
  if h.head list = some header then some (mergeWith h none (h.next header) header)
  else
    (findPrev h header finshHeapMax (h.head list)).map fun prev =>
      mergeWith h prev (h.next header) header

/-!
## Allocation and release
-/

def finshHeapFree (h : FinshHeap) (ptr : Nat) : Option FinshHeap :=
  let header := ptr - headerSize
  (finshBlockRemove h ListId.allocate header).bind fun h =>
    (finshBlockInsert h ListId.free header).bind fun h =>
      finshBlockMerge h ListId.free header

/-- The loop of `finsh_heap_gc`; `held` says whether a variable has the value of a
pointer. -/
def gcLoop (held : Nat -> Bool) : Nat -> FinshHeap -> Option Nat -> Option FinshHeap
  | 0, _, _ => none
  | _ + 1, h, none => some h
  | fuel + 1, h, some temp =>
    let header := h.next temp
    if held (temp + headerSize) then gcLoop held fuel h header
    else
      (finshHeapFree h (temp + headerSize)).bind fun h => gcLoop held fuel h header

def finshHeapGc (held : Nat -> Bool) (h : FinshHeap) : Option FinshHeap :=
  gcLoop held finshHeapMax h h.allocateList

/-- A search for the first free block that is long enough. -/
def firstFit (fits : Nat -> Bool) (h : FinshHeap) : Nat -> Option Nat -> Option (Option Nat)
  | 0, _ => none
  | _ + 1, none => some none
  | fuel + 1, some header =>
    if fits (h.length header) then some (some header)
    else firstFit fits h fuel (h.next header)

/-- The rest of `finsh_heap_allocate`, for the block that was found. -/
def allocateBlock (h : FinshHeap) (header size : Nat) : Option (Option Nat × FinshHeap) :=
  let h := finshBlockSplit h header size
  (finshBlockRemove h ListId.free header).bind fun h =>
    (finshBlockInsert (h.setNext header none) ListId.allocate header).map fun h =>
      (some (header + headerSize), h)

/-- `finsh_heap_allocate`.  The search before a collection asks for more room than
the search after it. -/
def finshHeapAllocate (held : Nat -> Bool) (h : FinshHeap) (size : Nat) :
    Option (Option Nat × FinshHeap) :=
  let size := heapAlignSize size
  match firstFit (fun length => size + headerSize < length) h finshHeapMax h.freeList with
  | none => none
  | some (some header) => allocateBlock h header size
  | some none =>
    match finshHeapGc held h with
    | none => none
    | some h =>
      match firstFit (fun length => size + headerSize ≤ length) h finshHeapMax
          h.freeList with
      | none => none
      | some none => some (none, h)
      | some (some header) => allocateBlock h header size

end RtThread.Finsh
