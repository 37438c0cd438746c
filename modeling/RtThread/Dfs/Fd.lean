import Mathlib.Algebra.Group.Int.Defs
import Mathlib.Algebra.Group.Nat.Defs
import RtThread.Dfs.File
import RtThread.Library.Slots
import RtThread.Library.Transition

/-!
# File descriptors

The table of descriptors and the calls of the POSIX layer on it, one after the other.  A
filesystem shows itself only in what its methods answer; the answers are part of a call, and
a missing method is one that answers with an error, except for a missing close.
-/

namespace RtThread.Dfs.Fd

open Transition

def fdMagic : Nat := 0xfdfd

def statusEnoent : Int := 2
def statusEinval : Int := 22
def statusEnosys : Int := 38

def oRdonly : Nat := 0x0000000
def oCreat : Nat := 0x0000100
def oDirectory : Nat := 0x0200000

inductive FileType where
  | regular
  | directory
deriving DecidableEq, Repr

/-- `struct dfs_fd`, without the flags and the private data, which only the methods of the
filesystem read. -/
structure DfsFd where
  magic : Nat
  type : FileType
  path : Option Path
  refCount : Int
  fs : Option Nat
  size : Nat
  pos : Int
deriving DecidableEq, Repr

/-- A descriptor after `rt_memset`. -/
def clearFd : DfsFd :=
  { magic := 0, type := FileType.regular, path := none, refCount := 0, fs := none, size := 0,
    pos := 0 }

/-- The mounted filesystems, the table of descriptors and the number of the first of them: 0,
or 3 with `DFS_USING_STDIO`. -/
structure State where
  workdir : Option Path
  filesystems : List DfsFilesystem
  first : Nat
  fdTable : List DfsFd
deriving DecidableEq, Repr

/-- What a method of a filesystem returns, and the size and position it leaves behind.  Before
it an open needs memory for the path. -/
structure Answer where
  memory : Bool
  result : Int
  size : Nat
  pos : Int
deriving DecidableEq, Repr

def answered (d : DfsFd) (a : Answer) : DfsFd := { d with size := a.size, pos := a.pos }

/-!
## References
-/

/-- The loop of `fd_new`. -/
def findFree : List DfsFd -> Nat -> Option Nat
  | [], _ => none
  | d :: rest, fd => if 0 < d.refCount then findFree rest (fd + 1) else some fd

/-- `fd_new`, with the descriptor as it leaves it. -/
def fdNew (s : State) : Option (Nat × DfsFd) :=
  (findFree (s.fdTable.drop s.first) s.first).bind fun fd =>
    s.fdTable[fd]?.map fun d => (fd, { d with refCount := 1, magic := fdMagic })

def addRef (d : DfsFd) : DfsFd := { d with refCount := (d.refCount + 1).bmod (2 ^ 32) }

/-- `fd_get`, with the descriptor as it leaves it. -/
def fdGet (s : State) (fd : Int) : Option (Nat × DfsFd) :=
  if fd < s.first ∨ s.fdTable.length ≤ fd then none
  else
    s.fdTable[fd.toNat]?.bind fun d =>
      if d.magic ≠ fdMagic then none else some (fd.toNat, addRef d)

def fdPut (d : DfsFd) : DfsFd :=
  let count := (d.refCount - 1).bmod (2 ^ 32)
  if count = 0 then clearFd else { d with refCount := count }

def store (s : State) (fd : Nat) (d : DfsFd) : State := { s with fdTable := s.fdTable.set fd d }

/-!
## Files

A result of `none` is an access through a null pointer.
-/

def dfsFileOpen (s : State) (d : DfsFd) (path : Path) (flags : Nat) (a : Answer) : DfsFd × Int :=
  match normalizeIf a.memory s.workdir path with
  | none => (d, -1)
  | some fullpath =>
    match dfsFilesystemLookup s.filesystems fullpath with
    | none => (d, -statusEnoent)
    | some _ =>
      match Dfs.dfsFileOpen s.workdir s.filesystems path with
      | none => (clearFd, -statusEnosys)
      | some file =>
        if a.result < 0 then (clearFd, a.result)
        else
          let d := answered { d with fs := file.fs, path := some file.path } a
          if flags &&& oDirectory ≠ 0 then ({ d with type := FileType.directory }, 0)
          else ({ d with type := FileType.regular }, 0)

def dfsFileClose (d : DfsFd) (a : Answer) : Option (DfsFd × Int) :=
  d.fs.map fun _ =>
    if a.result < 0 then (answered d a, a.result) else (clearFd, a.result)

/-- `dfs_file_read` and `dfs_file_write`, up to the method that they call. -/
def dfsFileTransfer (d : DfsFd) (a : Answer) : Option (DfsFd × Int) :=
  d.fs.map fun _ => (answered d a, a.result)

def dfsFileGetdents (d : DfsFd) (a : Answer) : Option (DfsFd × Int) :=
  if d.type ≠ FileType.directory then some (d, -statusEinval)
  else d.fs.map fun _ => (answered d a, a.result)

def dfsFileLseek (d : DfsFd) (a : Answer) : DfsFd × Int :=
  match d.fs with
  | none => (d, -statusEinval)
  | some _ =>
    let d := answered d a
    (if 0 ≤ a.result then { d with pos := a.result } else d, a.result)

/-!
## Calls

Each gives the new table and its result, with -1 for a null pointer.
-/

def posixOpen (s : State) (path : Path) (flags : Nat) (a : Answer) : Option (State × Int) :=
  match fdNew s with
  | none => some (s, -1)
  | some (fd, d) =>
    let (d, result) := dfsFileOpen s (addRef d) path flags a
    if result < 0 then some (store s fd (fdPut (fdPut d)), -1)
    else some (store s fd (fdPut d), fd)

def close (s : State) (fd : Int) (a : Answer) : Option (State × Int) :=
  match fdGet s fd with
  | none => some (s, -1)
  | some (fd, d) =>
    (dfsFileClose d a).map fun (d, result) =>
      if result < 0 then (store s fd (fdPut d), -1)
      else (store s fd (fdPut (fdPut d)), 0)

/-- `read` and `write`. -/
def transfer (s : State) (fd : Int) (a : Answer) : Option (State × Int) :=
  match fdGet s fd with
  | none => some (s, -1)
  | some (fd, d) =>
    (dfsFileTransfer d a).map fun (d, result) =>
      (store s fd (fdPut d), if result < 0 then -1 else result)

def read : State -> Int -> Answer -> Option (State × Int) := transfer

def write : State -> Int -> Answer -> Option (State × Int) := transfer

/-- The offset that `lseek` computes, where it is valid. -/
def seekTarget (d : DfsFd) (offset whence : Int) : Option Int :=
  (if whence = 0 then some offset
    else if whence = 1 then some ((offset + d.pos).bmod (2 ^ 32))
    else if whence = 2 then some ((offset + d.size).bmod (2 ^ 32))
    else none).filter fun target => 0 ≤ target

/-- `lseek`, which keeps its reference where the offset is not valid. -/
def lseek (s : State) (fd offset whence : Int) (a : Answer) : Option (State × Int) :=
  match fdGet s fd with
  | none => some (s, -1)
  | some (fd, d) =>
    match seekTarget d offset whence with
    | none => some (store s fd d, -1)
    | some offset =>
      let (d, result) := dfsFileLseek d a
      some (store s fd (fdPut d), if result < 0 then -1 else offset)

def fstat (s : State) (fd : Int) : Option (State × Int) :=
  match fdGet s fd with
  | none => some (s, -1)
  | some (fd, d) => some (store s fd (fdPut d), 0)

/-- `mkdir`, which gives one of its two references back. -/
def mkdir (s : State) (path : Path) (opening closing : Answer) : Option (State × Int) :=
  match fdNew s with
  | none => some (s, -1)
  | some (fd, d) =>
    let (d, result) := dfsFileOpen s (addRef d) path (oDirectory ||| oCreat) opening
    if result < 0 then some (store s fd (fdPut d), -1)
    else (dfsFileClose d closing).map fun (d, _) => (store s fd (fdPut d), 0)

/-- `opendir`; the stream is its descriptor, and may find no memory. -/
def opendir (s : State) (name : Path) (opening closing : Answer) (memory : Bool) :
    Option (State × Int) :=
  match fdNew s with
  | none => some (s, -1)
  | some (fd, d) =>
    let (d, result) := dfsFileOpen s (addRef d) name (oRdonly ||| oDirectory) opening
    if 0 ≤ result then
      if memory then some (store s fd (fdPut d), fd)
      else (dfsFileClose d closing).map fun (d, _) => (store s fd (fdPut (fdPut d)), -1)
    else some (store s fd (fdPut (fdPut d)), -1)

/-- `DIR`: the descriptor, the bytes in the buffer and the current entry. -/
structure Dir where
  fd : Int
  num : Nat
  cur : Nat
deriving DecidableEq, Repr

def readdir (s : State) (dir : Dir) (reclen : Nat) (a : Answer) :
    Option ((State × Dir) × Int) :=
  match fdGet s dir.fd with
  | none => some ((s, dir), -1)
  | some (fd, d) =>
    let dir := if dir.num ≠ 0 then { dir with cur := dir.cur + reclen } else dir
    if dir.num = 0 ∨ dir.num ≤ dir.cur then
      (dfsFileGetdents d a).map fun (d, result) =>
        if result ≤ 0 then ((store s fd (fdPut d), dir), -1)
        else ((store s fd (fdPut d), { dir with num := result.toNat, cur := 0 }), 0)
    else some ((store s fd (fdPut d), dir), dir.cur)

/-- `closedir`, which gives both references back whatever the filesystem answers. -/
def closedir (s : State) (dir : Dir) (a : Answer) : Option (State × Int) :=
  match fdGet s dir.fd with
  | none => some (s, -1)
  | some (fd, d) =>
    (dfsFileClose d a).map fun (d, result) =>
      (store s fd (fdPut (fdPut d)), if result < 0 then -1 else 0)

inductive Op where
  | openFile (path : Path) (flags : Nat) (a : Answer)
  | close (fd : Int) (a : Answer)
  | read (fd : Int) (a : Answer)
  | write (fd : Int) (a : Answer)
  | lseek (fd offset whence : Int) (a : Answer)
  | fstat (fd : Int)
  | mkdir (path : Path) (opening closing : Answer)
  | opendir (name : Path) (opening closing : Answer) (memory : Bool)
  | readdir (dir : Dir) (reclen : Nat) (a : Answer)
  | closedir (dir : Dir) (a : Answer)
deriving DecidableEq, Repr

def stepResult (s : State) : Op -> Option (State × Int)
  | Op.openFile path flags a => posixOpen s path flags a
  | Op.close fd a => close s fd a
  | Op.read fd a => read s fd a
  | Op.write fd a => write s fd a
  | Op.lseek fd offset whence a => lseek s fd offset whence a
  | Op.fstat fd => fstat s fd
  | Op.mkdir path opening closing => mkdir s path opening closing
  | Op.opendir name opening closing memory => opendir s name opening closing memory
  | Op.readdir dir reclen a => (readdir s dir reclen a).map fun p => (p.1.1, p.2)
  | Op.closedir dir a => closedir s dir a

def step (s : State) (op : Op) : Option State := (stepResult s op).map Prod.fst

/-!
## What a reference is taken from
-/

variable {s : State} {n : Nat} {d : DfsFd}

theorem findFree_spec {table : List DfsFd} {i : Nat} (h : findFree table i = some n) :
    exists j d, n = i + j ∧ table[j]? = some d ∧ d.refCount ≤ 0 := by
  induction table generalizing i with
  | nil => cases h
  | cons d rest ih =>
    rw [findFree] at h
    split at h
    · obtain ⟨j, d', rfl, hd', hfree⟩ := ih h
      exact ⟨j + 1, d', by omega, hd', hfree⟩
    · next hfree =>
        cases h
        exact ⟨0, d, rfl, rfl, by omega⟩

theorem fdNew_slot (h : fdNew s = some (n, d)) :
    s.first ≤ n ∧ exists d0, s.fdTable[n]? = some d0 ∧ d0.refCount ≤ 0 ∧
      d = { d0 with refCount := 1, magic := fdMagic } := by
  unfold fdNew at h
  simp only [Option.bind_eq_some_iff, Option.map_eq_some_iff, Prod.mk.injEq] at h
  obtain ⟨m, hfind, d0, hd0, rfl, rfl⟩ := h
  obtain ⟨j, d1, hm, hd1, hcount⟩ := findFree_spec hfind
  rw [List.getElem?_drop, ← hm, hd0] at hd1
  cases hd1
  exact ⟨by omega, d0, hd0, hcount, rfl⟩

theorem fdGet_slot {fd : Int} (h : fdGet s fd = some (n, d)) :
    (n : Int) = fd ∧ s.first ≤ n ∧ exists d0, s.fdTable[n]? = some d0 ∧
      d0.magic = fdMagic ∧ d = addRef d0 := by
  unfold fdGet at h
  split at h
  · cases h
  · next hrange =>
      rw [Option.bind_eq_some_iff] at h
      obtain ⟨d0, hd0, h⟩ := h
      split at h
      · cases h
      · next hmagic =>
          cases h
          exact ⟨by omega, by omega, d0, hd0, not_not.mp hmagic, rfl⟩

theorem fdGet_of_slot (hfirst : s.first ≤ n) (hd : s.fdTable[n]? = some d)
    (hmagic : d.magic = fdMagic) : fdGet s n = some (n, addRef d) := by
  have hlt := (List.getElem?_eq_some_iff.mp hd).1
  unfold fdGet
  rw [if_neg (by omega), Int.toNat_natCast, hd, Option.bind_some, if_neg (not_not.mpr hmagic)]

end RtThread.Dfs.Fd
