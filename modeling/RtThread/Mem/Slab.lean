import RtThread.Kernel.Align
import RtThread.Mem.SlabPages

/-!
# The slab heap

`rt_system_heap_init`, `zoneindex`, `rt_malloc`, `rt_realloc`, `rt_calloc` and `rt_free` of
`slab.c`. Pointers are byte addresses; a page of the page allocator starts at its number times
`RT_MM_PAGE_SIZE`. A zone header lies at the start of its zone and the link of a free chunk in the
chunk itself; the bytes that callers keep in chunks are left out. A function has no result when an
assertion fails, a null pointer is followed or a loop does not end.
-/

namespace RtThread.Mem

open Kernel

namespace Slab

structure SlabZone where
  magic : Int
  nfree : Nat
  nmax : Nat
  next : Option Nat
  baseptr : Nat
  uindex : Nat
  chunksize : Nat
  zoneindex : Nat
  freechunk : Option Nat
deriving DecidableEq, Repr

def sizeofZone : Nat := 36

def zallocSlabMagic : Int := 0x51ab51ab

def zallocZoneLimit : Nat := 16 * 1024

def zallocMinZoneSize : Nat := 32 * 1024

def zallocMaxZoneSize : Nat := 128 * 1024

def nzones : Nat := 72

def zoneReleaseThresh : Nat := 2

def minChunkSize : Nat := 8

/-- The page types; the fourth value of the two bits has no name. -/
inductive PageType where
  | free
  | small
  | large
  | unnamed
deriving DecidableEq, Repr

structure Memusage where
  type : PageType
  size : Nat
deriving DecidableEq, Repr

/-- The heap: its pages, the zone headers and chunk links at their addresses,
and the variables of the allocator. -/
structure Heap extends PageHeap where
  zone : Nat -> SlabZone
  cNext : Nat -> Option Nat
  memusage : Nat -> Memusage
  heapStart : Nat
  zoneArray : Nat -> Option Nat
  zoneFree : Option Nat
  zoneFreeCnt : Nat
  zoneSize : Nat
  zoneLimit : Nat
  zonePageCnt : Nat
  usedMem : Nat
  maxMem : Nat

def Heap.lock (h : Heap) : Heap := { h with toPageHeap := h.toPageHeap.lock }

def Heap.unlock (h : Heap) : Heap := { h with toPageHeap := h.toPageHeap.unlock }

def Heap.setZone (h : Heap) (z : Nat) (value : SlabZone) : Heap :=
  { h with zone := Function.update h.zone z value }

def Heap.setArray (h : Heap) (zi : Nat) (z : Option Nat) : Heap :=
  { h with zoneArray := Function.update h.zoneArray zi z }

def Heap.btokup (h : Heap) (addr : Nat) : Nat := (addr - h.heapStart) / pageSize

def Heap.setUsage (h : Heap) (index : Nat) (value : Memusage) : Heap :=
  { h with memusage := Function.update h.memusage index value }

def Heap.setZoneUsage (h : Heap) (z : Nat) (value : Nat -> Memusage) : Heap :=
  let first := h.btokup z
  { h with memusage := fun i =>
      if first ≤ i ∧ i < first + h.zonePageCnt then value (i - first)
      else h.memusage i }

def Heap.noteUsed (h : Heap) (size : Nat) : Heap :=
  let used := add32 h.usedMem size
  { h with usedMem := used, maxMem := if h.maxMem < used then used else h.maxMem }

def Heap.noteFreed (h : Heap) (size : Nat) : Heap :=
  { h with usedMem := sub32 h.usedMem size }

/-- The loop of `rt_system_heap_init` for `zone_size`. -/
def zoneSizeFor (limsize : Nat) : Nat -> Nat -> Nat
  | 0, size => size
  | fuel + 1, size =>
    if size < zallocMaxZoneSize ∧ size * 2 < limsize / 1024 then
      zoneSizeFor limsize fuel (size * 2)
    else size

/-- `rt_system_heap_init`, with what the memory holds before.  The static variables
are zero at that time.  The memory-usage table takes the first pages. -/
def rtSystemHeapInit (h : Heap) (beginAddr endAddr : Nat) : Option Heap :=
  let heapStart := rtAlign beginAddr pageSize
  let heapEnd := rtAlignDown endAddr pageSize
  if heapEnd ≤ heapStart then none
  else
    let limsize := heapEnd - heapStart
    let npages := limsize / pageSize
    let h := { h with heapSem := [] }
    match rtPageInit h.toPageHeap (heapStart / pageSize) npages with
    | none => none
    | some pages =>
      let zoneSize := zoneSizeFor limsize 2 zallocMinZoneSize
      let zoneLimit := min (zoneSize / 4) zallocZoneLimit
      match rtPageAlloc pages (rtAlign (npages * 4) pageSize / pageSize) with
      | none => none
      | some (_, pages) =>
        some { h with
          toPageHeap := pages
          heapStart := heapStart
          zoneArray := fun _ => none
          zoneFree := none
          zoneFreeCnt := 0
          zoneSize := zoneSize
          zoneLimit := zoneLimit
          zonePageCnt := zoneSize / pageSize
          usedMem := 0
          maxMem := 0 }

/-- A heap before `rt_system_heap_init`. -/
def Heap.blank : Heap :=
  { toPageHeap := PageHeap.empty
    zone := fun _ => ⟨0, 0, 0, none, 0, 0, 0, 0, none⟩
    cNext := fun _ => none
    memusage := fun _ => ⟨PageType.free, 0⟩
    heapStart := 0
    zoneArray := fun _ => none
    zoneFree := none
    zoneFreeCnt := 0
    zoneSize := 0
    zoneLimit := 0
    zonePageCnt := 0
    usedMem := 0
    maxMem := 0 }

/-!
## Allocation
-/

def roundUp (n align : Nat) : Nat := rtAlignDown (n + (align - 1)) align

/-- `zoneindex`: the index, and the chunk size that replaces the request. -/
def zoneindex (bytes : Nat) : Nat × Nat :=
  if bytes < 128 then
    let n := roundUp bytes 8
    (n / 8 - 1, n)
  else if bytes < 256 then
    let n := roundUp bytes 16
    (n / 16 + 7, n)
  else if bytes < 8192 then
    if bytes < 512 then
      let n := roundUp bytes 32
      (n / 32 + 15, n)
    else if bytes < 1024 then
      let n := roundUp bytes 64
      (n / 64 + 23, n)
    else if bytes < 2048 then
      let n := roundUp bytes 128
      (n / 128 + 31, n)
    else if bytes < 4096 then
      let n := roundUp bytes 256
      (n / 256 + 39, n)
    else
      let n := roundUp bytes 512
      (n / 512 + 47, n)
  else if bytes < 16384 then
    let n := roundUp bytes 1024
    (n / 1024 + 55, n)
  else (0, bytes)

/-- A chunk from the first zone of the array, which leaves the array when it has
no other free chunk. -/
def takeChunk (h : Heap) (zi z size : Nat) : Option (Nat × Heap) :=
  let zone := h.zone z
  if zone.nfree = 0 then none
  else
    let nfree := zone.nfree - 1
    let h := if nfree = 0 then h.setArray zi zone.next else h
    let zone := { zone with
      nfree := nfree, next := if nfree = 0 then none else zone.next }
    if zone.uindex + 1 ≠ zone.nmax then
      let uindex := zone.uindex + 1
      some (zone.baseptr + uindex * size,
        (h.setZone z { zone with uindex := uindex }).noteUsed zone.chunksize)
    else
      match zone.freechunk with
      | none => none
      | some chunk =>
        some (chunk, (h.setZone z { zone with freechunk := h.cNext chunk }).noteUsed
          zone.chunksize)

def isPowerOfTwo (size : Nat) : Bool := (size ||| (size - 1)) + 1 = size * 2

def chunkOffset (size : Nat) : Nat :=
  if isPowerOfTwo size then roundUp sizeofZone size
  else roundUp sizeofZone minChunkSize

/-- Fill in the header of a new zone, link it to the array and hand out its first
chunk. -/
def initZone (h : Heap) (zi z size : Nat) : Nat × Heap :=
  let off := chunkOffset size
  let nmax := (h.zoneSize - off) / size
  let zone : SlabZone :=
    { magic := zallocSlabMagic
      nfree := nmax - 1
      nmax := nmax
      next := h.zoneArray zi
      baseptr := z + off
      uindex := 0
      chunksize := size
      zoneindex := zi
      freechunk := none }
  (z + off, ((h.setZone z zone).setArray zi (some z)).noteUsed size)

def mallocLarge (h : Heap) (size : Nat) : Option (Option Nat × Heap) :=
  let size := rtAlign size pageSize
  match rtPageAlloc h.toPageHeap (size / pageSize) with
  | none => none
  | some (none, pages) => some (none, { h with toPageHeap := pages })
  | some (some page, pages) =>
    let chunk := page * pageSize
    let h := { h with toPageHeap := pages }
    let h := h.setUsage (h.btokup chunk) ⟨PageType.large, size / pageSize⟩
    some (some chunk, (h.lock.noteUsed size).unlock)

def mallocSmall (h : Heap) (size : Nat) : Option (Option Nat × Heap) :=
  let h := h.lock
  let (zi, size) := zoneindex size
  if nzones ≤ zi then none
  else
    match h.zoneArray zi with
    | some z => (takeChunk h zi z size).map fun r => (some r.1, r.2.unlock)
    | none =>
      match h.zoneFree with
      | some z =>
        let h := { h with
          zoneFree := (h.zone z).next, zoneFreeCnt := h.zoneFreeCnt - 1 }
        let r := initZone h zi z size
        some (some r.1, r.2.unlock)
      | none =>
        -- the page allocator takes the lock itself
        let h := h.unlock
        match rtPageAlloc h.toPageHeap (h.zoneSize / pageSize) with
        | none => none
        -- `goto fail`
        | some (none, pages) =>
          some (none, Heap.unlock { h with toPageHeap := pages })
        | some (some page, pages) =>
          let h := Heap.lock { h with toPageHeap := pages }
          let z := page * pageSize
          let h := h.setZoneUsage z fun off => ⟨PageType.small, off⟩
          let r := initZone h zi z size
          some (some r.1, r.2.unlock)

def rtMalloc (h : Heap) (size : Nat) : Option (Option Nat × Heap) :=
  if size = 0 then some (none, h)
  else if h.zoneLimit ≤ size then mallocLarge h size
  else mallocSmall h size

/-!
## Release
-/

/-- What the pointer `pz` of `rt_free` points at. -/
inductive ZoneSlot where
  | array (zi : Nat)
  | next (z : Nat)
deriving DecidableEq, Repr

def Heap.loadZone (h : Heap) : ZoneSlot -> Option Nat
  | ZoneSlot.array zi => h.zoneArray zi
  | ZoneSlot.next z => (h.zone z).next

def Heap.storeZone (h : Heap) (pz : ZoneSlot) (v : Option Nat) : Heap :=
  match pz with
  | ZoneSlot.array zi => h.setArray zi v
  | ZoneSlot.next z => h.setZone z { h.zone z with next := v }

def unlinkZone (z : Nat) : Nat -> Heap -> ZoneSlot -> Option Heap
  | 0, _, _ => none
  | fuel + 1, h, pz =>
    match h.loadZone pz with
    | none => none
    | some y =>
      if y = z then some (h.storeZone pz (h.zone z).next)
      else unlinkZone z fuel h (ZoneSlot.next y)

/-- A zone without chunks in use goes to the free zones, or its pages go back. -/
def retireZone (h : Heap) (z : Nat) : Option Heap :=
  match unlinkZone z (pageCount + 1) h (ZoneSlot.array (h.zone z).zoneindex) with
  | none => none
  | some h =>
    let h := h.setZone z { h.zone z with magic := -1, next := h.zoneFree }
    let h := { h with zoneFree := some z, zoneFreeCnt := h.zoneFreeCnt + 1 }
    if zoneReleaseThresh < h.zoneFreeCnt then
      let h := { h with
        zoneFree := (h.zone z).next, zoneFreeCnt := h.zoneFreeCnt - 1 }
      let h := h.setZoneUsage z fun _ => ⟨PageType.free, 0⟩
      let h := h.unlock
      (rtPageFree h.toPageHeap (z / pageSize) (h.zoneSize / pageSize)).map
        fun pages => { h with toPageHeap := pages }
    else some h.unlock

def freeLarge (h : Heap) (ptr : Nat) : Option Heap :=
  let kup := h.btokup (rtAlignDown ptr pageSize)
  let h := h.lock
  let size := (h.memusage kup).size
  let h := h.setUsage kup { h.memusage kup with size := 0 }
  let h := (h.noteFreed (size * pageSize)).unlock
  if ptr % pageSize ≠ 0 then none
  else
    (rtPageFree h.toPageHeap (ptr / pageSize) size).map fun pages =>
      { h with toPageHeap := pages }

def zoneOf (h : Heap) (ptr : Nat) : Nat :=
  let page := rtAlignDown ptr pageSize
  page - (h.memusage (h.btokup page)).size * pageSize

/-- Put a chunk in the chain of its zone.  A zone that had no free chunk goes back
to the array. -/
def releaseChunk (h : Heap) (z ptr : Nat) : Heap :=
  let zone := h.zone z
  let h := { h with cNext := Function.update h.cNext ptr zone.freechunk }
  let h := h.noteFreed zone.chunksize
  let freed := { zone with freechunk := some ptr, nfree := zone.nfree + 1 }
  if zone.nfree = 0 then
    (h.setZone z { freed with next := h.zoneArray zone.zoneindex }).setArray
      zone.zoneindex (some z)
  else h.setZone z freed

def freeSmall (h : Heap) (ptr : Nat) : Option Heap :=
  let h := h.lock
  let z := zoneOf h ptr
  if (h.zone z).magic ≠ zallocSlabMagic then none
  else
    let h := releaseChunk h z ptr
    let zone := h.zone z
    if zone.nfree = zone.nmax ∧
        (zone.next ≠ none ∨ h.zoneArray zone.zoneindex ≠ some z) then
      retireZone h z
    else some h.unlock

def rtFree (h : Heap) : Option Nat -> Option Heap
  | none => some h
  | some ptr =>
    match (h.memusage (h.btokup (rtAlignDown ptr pageSize))).type with
    | PageType.large => freeLarge h ptr
    | _ => freeSmall h ptr

/-- The new block of `rt_realloc` and the release of the old one. -/
def reallocMove (h : Heap) (ptr size : Nat) : Option (Option Nat × Heap) :=
  match rtMalloc h size with
  | none => none
  | some (none, h) => some (none, h)
  | some (some nptr, h) => (rtFree h (some ptr)).map fun h => (some nptr, h)

def rtRealloc (h : Heap) (ptr : Option Nat) (size : Nat) :
    Option (Option Nat × Heap) :=
  match ptr with
  | none => rtMalloc h size
  | some ptr =>
    if size = 0 then (rtFree h (some ptr)).map fun h => (none, h)
    else
      match (h.memusage (h.btokup (rtAlignDown ptr pageSize))).type with
      | PageType.large => reallocMove h ptr size
      | PageType.small =>
        let zone := h.zone (zoneOf h ptr)
        if zone.magic ≠ zallocSlabMagic then none
        else
          let size := (zoneindex size).2
          if zone.chunksize = size then some (some ptr, h)
          else reallocMove h ptr size
      | _ => some (none, h)

def rtCalloc (h : Heap) (count size : Nat) : Option (Option Nat × Heap) :=
  rtMalloc h (count * size % 2 ^ 32)

inductive Call where
  | malloc (size : Nat)
  | free (ptr : Option Nat)
  | realloc (ptr : Option Nat) (size : Nat)
  | calloc (count size : Nat)
deriving DecidableEq, Repr

def call (h : Heap) : Call -> Option (Option Nat × Heap)
  | Call.malloc size => rtMalloc h size
  | Call.free ptr => (rtFree h ptr).map fun h => (none, h)
  | Call.realloc ptr size => rtRealloc h ptr size
  | Call.calloc count size => rtCalloc h count size

end Slab
end RtThread.Mem
