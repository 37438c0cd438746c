import RtThread.Library.Partition

/-!
# The memory of a module

`rt_module_malloc`, `rt_module_free` and `rt_module_realloc`. The unit is the size of `struct
rt_mem_head`, 8 bytes: a block is an extent of units that starts with its head, and the free
blocks are in the order of their links. A chunk of pages starts at a multiple of `pageUnits`. What
`rt_page_alloc` answers is given with the call. A call that fails an assertion, waits for
`mod_sem` or uses a pointer `RT_NULL` has no result.
-/

namespace RtThread.Module.Memory

open Extents

/-- `RT_MM_PAGE_SIZE / sizeof(struct rt_mem_head)` -/
def pageUnits : Nat := 512

def pageCountMax : Nat := 256

/-- The free blocks, the blocks handed out, the page array and its count, the pages of the
module, and the value of `mod_sem`. An unused entry of the array is `none`. -/
structure State where
  memList : List Extent
  live : List Extent
  pageArray : List (Option Extent)
  pageCnt : UInt32
  pages : Nat -> Bool
  modSem : Nat

def start : State where
  memList := []
  live := []
  pageArray := List.replicate pageCountMax none
  pageCnt := 0
  pages := fun _ => false
  modSem := 1

/-- The units of a block with room for `size` bytes, in an `rt_size_t`. -/
def nunits (size : UInt32) : Nat := ((size + 8 - 1) / 8 + 1).toNat

/-- The pages to ask for when no free block has room for `size` bytes. -/
def npages (size : UInt32) : Nat := ((size + 8 + 4096 - 1) / 4096).toNat

/-! ### Allocation -/

/-- `rt_module_malloc_page`, with the answer of `rt_page_alloc`. -/
def rtModuleMallocPage (npage : Nat) (chunk : Option Nat) (s : State) :
    Option (Option Nat × State) :=
  match chunk with
  | none => some (none, s)
  | some p =>
    if s.pageCnt.toNat < pageCountMax then
      some (some p, { s with
        pageArray := s.pageArray.set s.pageCnt.toNat (some ⟨p, npage⟩)
        pageCnt := s.pageCnt + 1
        pages := fun x => p ≤ x && x < p + npage || s.pages x })
    else none

/-- The loop that links new pages in: in front of the first block behind their end. -/
def insertPages (up : Extent) : List Extent -> List Extent
  | [] => [up]
  | b :: l => if b.start > up.start + up.size then up :: b :: l else b :: insertPages up l

/-- `rt_module_malloc`: the first fit, as in `take`, with the answers to the requests for
pages. The result is the first unit of the block. -/
def rtModuleMalloc (size : UInt32) : List (Option Nat) -> State -> Option (Option Nat × State)
  | chunks, s =>
    if size = 0 ∨ s.modSem = 0 then none
    else
      match take (nunits size) s.memList with
      | some (b, l) =>
        some (some b, { s with memList := l, live := ⟨b, nunits size⟩ :: s.live })
      | none =>
        match chunks with
        | [] => none
        | chunk :: chunks =>
          match rtModuleMallocPage (npages size) chunk
              { s with modSem := s.modSem - 1 } with
          | none => none
          -- `mod_sem` is not released here
          | some (none, s) => some (none, s)
          | some (some p, s) =>
            let up : Extent := ⟨p * pageUnits, npages size * pageUnits⟩
            rtModuleMalloc size chunks { s with
              memList := insertPages up s.memList, modSem := s.modSem + 1 }

/-! ### Release -/

/-- `rt_module_free_page`, for the module that runs: its count is decremented as
`module->page_cnt` and as `self_module->page_cnt`. -/
def rtModuleFreePage (page : Extent) (s : State) : Option State :=
  let s := { s with pages := fun x => !(page.start ≤ x && x < page.stop) && s.pages x }
  let cnt := s.pageCnt.toNat
  let entry : Option Extent -> Bool := fun e => e.any fun e => e.start == page.start
  match (s.pageArray.take cnt).findIdx? entry with
  | none => none
  | some i =>
    match s.pageArray.getD i none with
    | none => none
    | some e =>
      if e.size = page.size + 1 then
        some { s with
          pageArray := s.pageArray.set i (some ⟨e.start + page.size, e.size - page.size⟩)
          pageCnt := s.pageCnt - 1 }
      -- the entries behind are moved, which ends outside of the array for a larger count
      else if e.size = page.size ∧ cnt ≤ pageCountMax then
        some { s with
          pageArray := (s.pageArray.take cnt).eraseIdx i ++ none :: s.pageArray.drop cnt
          pageCnt := s.pageCnt - 1 - 1 }
      else none

/-- Hand the whole pages at the start of `m` back, and keep what is left of it. -/
def handBack (m : Extent) (l : List Extent) : List Extent × Option Extent :=
  let npage := m.size / pageUnits
  (if m.size % pageUnits ≠ 0 then
      ⟨m.start + npage * pageUnits, m.size - npage * pageUnits⟩ :: l
    else l,
    some ⟨m.start / pageUnits, npage⟩)

/-- The free block `b` grows by `n`, and by the next block when they touch. -/
def mergeNext (b n : Extent) : List Extent -> Extent × List Extent
  | [] => (⟨b.start, b.size + n.size⟩, [])
  | c :: l =>
    if b.start + (b.size + n.size) = c.start then
      (⟨b.start, b.size + (c.size + n.size)⟩, l)
    else (⟨b.start, b.size + n.size⟩, c :: l)

/-- The end of `rt_module_free`, for a block that touches no other. The number of units left
is read as a number of bytes. -/
def freeEnd (n : Extent) (l : List Extent) : List Extent × Option Extent :=
  if n.start % pageUnits = 0 then
    let npage := n.size / pageUnits
    if 0 < npage then
      (if n.size % 4096 ≠ 0 then
          ⟨n.start + npage * pageUnits, n.size - npage * pageUnits⟩ :: l
        else l,
        some ⟨n.start / pageUnits, npage⟩)
    else (l, none)
  else (n :: l, none)

/-- The loop of `rt_module_free`: the free list afterwards, and the pages to hand back. -/
def freeLoop (n : Extent) : List Extent -> Option (List Extent × Option Extent)
  | [] => some (freeEnd n [])
  | b :: l =>
    if b.size = 0 then none
    else if ¬ (b.start > n.start ∨ b.stop ≤ n.start) then none
    else if b.stop = n.start ∧ n.start % pageUnits ≠ 0 then
      let r := mergeNext b n l
      if r.1.start % pageUnits = 0 ∧ 0 < r.1.size / pageUnits then some (handBack r.1 r.2)
      else some (r.1 :: r.2, none)
    else if b.start = n.stop then
      let m : Extent := ⟨n.start, b.size + n.size⟩
      if n.start % pageUnits = 0 then
        -- less than a page is not linked in
        if 0 < m.size / pageUnits then some (handBack m l) else some (b :: l, none)
      else some (m :: l, none)
    else if b.start > n.stop then some (freeEnd n (b :: l))
    else (freeLoop n l).map fun r => (b :: r.1, r.2)

/-- `rt_module_free`, for the block that starts at unit `b`. -/
def rtModuleFree (b : Nat) (s : State) : Option State :=
  if s.modSem = 0 then none
  else
    match s.live.find? fun n => n.start = b with
    | none => none
    | some n =>
      match freeLoop n s.memList with
      | none => none
      | some (l, page) =>
        let s := { s with memList := l, live := s.live.erase n }
        match page with
        | none => some s
        | some page => rtModuleFreePage page s

/-! ### Reallocation -/

/-- The free block behind block `b` that `rt_module_realloc` finds, and the rest of the
list: only the second block is looked at. -/
def nextFree (b : Extent) (nunits : Nat) : List Extent -> Option (Extent × List Extent)
  | [] => none
  | p :: l => if p.size ≥ nunits - b.size ∧ p.start = b.stop then some (p, l) else none

/-- `rt_module_realloc`.  The copy of the data is left out. -/
def rtModuleRealloc (ptr : Option Nat) (size : UInt32) (chunks : List (Option Nat))
    (s : State) : Option (Option Nat × State) :=
  match ptr with
  | none => rtModuleMalloc size chunks s
  | some ptr =>
    if size = 0 then (rtModuleFree ptr s).map fun s => (none, s)
    else
      match s.live.find? fun n => n.start = ptr with
      | none => none
      | some b =>
        if nunits size ≤ b.size then
          if nunits size = b.size then some (some ptr, s)
          else
            let p : Extent := ⟨b.start + nunits size, b.size - nunits size⟩
            let s := { s with live := ⟨b.start, nunits size⟩ :: p :: s.live.erase b }
            (rtModuleFree p.start s).map fun s => (some ptr, s)
        else
          match s.memList with
          | [] => none
          | prev :: l =>
            let grown : List Extent := ⟨b.start, nunits size⟩ :: s.live.erase b
            match nextFree b (nunits size) l with
            | some (p, l) =>
              if p.size = nunits size - b.size then
                some (some ptr, { s with memList := prev :: l, live := grown })
              else
                let p' : Extent := ⟨b.start + nunits size, p.size + b.size - nunits size⟩
                some (some ptr, { s with memList := prev :: p' :: l, live := grown })
            | none =>
              match rtModuleMalloc size chunks s with
              | none => none
              | some (none, s) => some (none, s)
              | some (some p, s) => (rtModuleFree ptr s).map fun s => (some p, s)

/-! ### Runs -/

/-- The calls, with the answers to the requests for pages that they make. -/
inductive Op where
  | malloc (size : UInt32) (chunks : List (Option Nat))
  | free (b : Nat)
  | realloc (ptr : Option Nat) (size : UInt32) (chunks : List (Option Nat))
deriving DecidableEq, Repr

def step (s : State) : Op -> Option State
  | Op.malloc size chunks => (rtModuleMalloc size chunks s).map Prod.snd
  | Op.free b => rtModuleFree b s
  | Op.realloc ptr size chunks => (rtModuleRealloc ptr size chunks s).map Prod.snd

/-- The answer to the request for pages for `size` bytes: pages that are not in use, and
none when asked for none. -/
def Answer (s : State) (size : UInt32) (chunks : List (Option Nat)) : Prop :=
  exists chunk rest, chunks = chunk :: rest ∧
    forall p, chunk = some p ->
      npages size ≠ 0 ∧ forall x, p ≤ x -> x < p + npages size -> s.pages x = false

/-- The block that starts at unit `b` is handed out. -/
def Live (s : State) (b : Nat) : Prop := exists n, n ∈ s.live ∧ n.start = b

/-- What a module is to pass: the size of an allocation is not zero, as is asserted, and a
pointer is to a block that it has. -/
def Legal (s : State) : Op -> Prop
  | Op.malloc size chunks => size ≠ 0 ∧ Answer s size chunks
  | Op.free b => Live s b
  | Op.realloc none size chunks => size ≠ 0 ∧ Answer s size chunks
  | Op.realloc (some b) size chunks => Live s b ∧ Answer s size chunks

def State.inUse (s : State) : List Extent := s.pageArray.filterMap id

/-- The free blocks and the blocks handed out divide the units of the module's pages, the
page array divides these pages, `page_cnt` is their number and `mod_sem` is free. -/
structure Conserved (s : State) : Prop where
  units : Partitions (s.memList ++ s.live) fun u => s.pages (u / pageUnits) = true
  recorded : Partitions s.inUse fun x => s.pages x = true
  count : s.pageCnt.toNat = s.inUse.length
  released : s.modSem = 1

/-- The states of a run whose calls are legal and meet `cond`. -/
inductive Reached (cond : State -> Op -> Prop) : State -> Prop where
  | start : Reached cond start
  | step {s s' : State} {op : Op} (hs : Reached cond s) (hlegal : Legal s op)
      (hcond : cond s op) (hstep : step s op = some s') : Reached cond s'

end RtThread.Module.Memory
