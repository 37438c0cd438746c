import RtThread.Mem.MemHeap

/-!
# The memory heaps of the system

`rt_malloc`, `rt_free` and `rt_realloc` of `memheap.c` (`RT_USING_MEMHEAP_AS_HEAP`). They try the
default heap `_heap` first and then the other heap objects, in the order of the object list. The
pools of all heaps lie in one memory.
-/

namespace RtThread.Mem

open Kernel ByteMemory

namespace MemHeap

/-- `struct rt_memheap` without the memory its pool lies in. -/
structure HeapObject where
  self : Nat
  freeHeader : Nat
  startAddr : Nat
  poolSize : Nat
  availableSize : Nat
  maxUsedSize : Nat
  blockList : Nat
  freeList : Nat

def HeapObject.over (o : HeapObject) (m : Memory) : RtMemheap :=
  ⟨o.self, o.freeHeader, o.startAddr, o.poolSize, o.availableSize, o.maxUsedSize,
    o.blockList, o.freeList, m⟩

def RtMemheap.object (h : RtMemheap) : HeapObject :=
  ⟨h.self, h.freeHeader, h.startAddr, h.poolSize, h.availableSize, h.maxUsedSize,
    h.blockList, h.freeList⟩

/-- The heap objects by their addresses, the object list of their class, the address
of `_heap`, and the memory. -/
structure Heaps where
  objects : Nat -> HeapObject
  list : List Nat
  system : Nat
  mem : Memory

def Heaps.heap (s : Heaps) (a : Nat) : RtMemheap := (s.objects a).over s.mem

def Heaps.put (s : Heaps) (a : Nat) (h : RtMemheap) : Heaps :=
  { s with objects := Function.update s.objects a h.object, mem := h.mem }

def Heaps.poolPtr (c : Config) (s : Heaps) (ptr : Nat) : Nat :=
  memheapItem.get s.mem (ptr - c.memheapSize) Field.poolPtr

/-- `rt_memheap_alloc` on one of the heaps. -/
def Heaps.memheapAlloc (c : Config) (s : Heaps) (heap size : Nat) :
    Option (Heaps × Option Nat) :=
  (rtMemheapAlloc c (s.heap heap) size).map fun r => (s.put heap r.1, r.2)

/-- `rt_memheap_realloc` on one of the heaps. -/
def Heaps.memheapRealloc (c : Config) (s : Heaps) (heap : Nat) (ptr : Option Nat)
    (newsize : Nat) : Option (Heaps × Option Nat) :=
  (rtMemheapRealloc c (s.heap heap) ptr newsize).map fun r => (s.put heap r.1, r.2)

/-- The loop of `rt_malloc` over the object list. -/
def allocOther (c : Config) (size : Nat) : Heaps -> List Nat -> Option (Heaps × Option Nat)
  | s, [] => some (s, none)
  | s, heap :: rest =>
    if heap = s.system then
      allocOther c size s rest
    else
      match s.memheapAlloc c heap size with
      | none => none
      | some (s, none) => allocOther c size s rest
      | some (s, some ptr) => some (s, some ptr)

def rtMalloc (c : Config) (s : Heaps) (size : Nat) : Option (Heaps × Option Nat) :=
  match s.memheapAlloc c s.system size with
  | none => none
  | some (s, none) => allocOther c size s s.list
  | some (s, some ptr) => some (s, some ptr)

/-- `rt_free`, which is `rt_memheap_free` on the heap of the block. -/
def rtFree (c : Config) (s : Heaps) : Option Nat -> Option Heaps
  | none => some s
  | some ptr =>
    let heap := s.poolPtr c ptr
    (rtMemheapFree c (s.heap heap) (some ptr)).map (s.put heap)

def rtRealloc (c : Config) (s : Heaps) (rmem : Option Nat) (newsize : Nat) :
    Option (Heaps × Option Nat) :=
  match rmem with
  | none => rtMalloc c s newsize
  | some rmem =>
    let header := rmem - c.memheapSize
    match s.memheapRealloc c (s.poolPtr c rmem) (some rmem) newsize with
    | none => none
    | some (s, some new) => some (s, some new)
    | some (s, none) =>
      if newsize = 0 then
        some (s, none)
      else
        -- allocate a memory block from other heaps
        match rtMalloc c s newsize with
        | none => none
        | some (s, none) => some (s, none)
        | some (s, some new) =>
          let oldsize := memitemSize c (s.heap (s.poolPtr c rmem)) header
          let count := if oldsize < newsize then oldsize else newsize
          some ({ s with mem := copy s.mem new rmem count }, some new)

/-!
## Runs
-/

/-- The memory and the heap object that `rt_memheap_init` is called with. -/
structure Pool where
  heap : Nat
  freeHeader : Nat
  startAddr : Nat
  size : Nat

def initHeaps (c : Config) : Heaps -> List Pool -> Heaps
  | s, [] => s
  | s, p :: rest =>
    initHeaps c (s.put p.heap
      (rtMemheapInit c s.mem p.heap p.freeHeader p.startAddr p.size)) rest

structure System where
  heaps : Heaps
  live : Owners

/-- A call of `rt_malloc`, `rt_free` or `rt_realloc`, or one of the `rt_memheap` calls
on a heap. -/
structure Call where
  heap : Option Nat
  op : Op

def Call.malloc (c : Config) (s : Heaps) (size : Nat) :
    Option Nat -> Option (Heaps × Option Nat)
  | none => rtMalloc c s size
  | some heap => s.memheapAlloc c heap size

def Call.realloc (c : Config) (s : Heaps) (rmem : Option Nat) (newsize : Nat) :
    Option Nat -> Option (Heaps × Option Nat)
  | none => rtRealloc c s rmem newsize
  | some heap => s.memheapRealloc c heap rmem newsize

def Call.act (c : Config) (s : System) (call : Call) : Option System :=
  match call.op with
  | Op.malloc size =>
    (Call.malloc c s.heaps size call.heap).map fun r =>
      ⟨r.1, s.live.malloc (c.allocSize size) r.2⟩
  | Op.free ptr =>
    (rtFree c s.heaps ptr).map fun h => ⟨h, s.live.free ptr⟩
  | Op.realloc none newsize =>
    (Call.realloc c s.heaps none newsize call.heap).map fun r =>
      ⟨r.1, s.live.malloc (c.allocSize newsize) r.2⟩
  | Op.realloc (some ptr) newsize =>
    (Call.realloc c s.heaps (some ptr) newsize call.heap).map fun r =>
      if newsize = 0 then
        ⟨r.1, s.live.free (some ptr)⟩
      else
        ⟨r.1, s.live.move ptr newsize (c.allocSize newsize) r.2⟩
  | Op.write ptr i v =>
    if i < payloadSize c (s.heaps.heap (s.heaps.poolPtr c ptr)) ptr then
      let m := Function.update s.heaps.mem (ptr + i) v
      some ⟨{ s.heaps with mem := m }, s.live.write ptr i v⟩
    else
      none

/-- A call passes null or a live pointer, and one on a heap passes a pointer of that
heap. -/
def Call.Legal (c : Config) (s : System) (call : Call) : Prop :=
  call.op.Legal s.live ∧ forall a, a ∈ call.heap -> a ∈ s.heaps.list ∧
    forall p, p ∈ call.op.pointer -> s.heaps.poolPtr c p = a

instance (c : Config) (s : System) (call : Call) : Decidable (call.Legal c s) :=
  inferInstanceAs (Decidable (_ ∧ _))

def Call.step (c : Config) (s : System) (call : Call) : Option System :=
  if call.Legal c s then call.act c s else none

/-- The system right after the initialisation of its heaps. -/
def bootSystem (c : Config) (m : Memory) (objects : Nat -> HeapObject) (system : Nat)
    (pools : List Pool) : System :=
  ⟨initHeaps c ⟨objects, pools.map Pool.heap, system, m⟩ pools, fun _ => none⟩

end MemHeap
end RtThread.Mem
