import Mathlib.Algebra.GroupWithZero.Nat
import RtThread.Dfs.Unlink
import RtThread.Library.CharBuffer

/-!
# The filesystem in memory

`dfs_ramfs.c`.  The entries hang in a ring behind the root entry; an operation that reads
past the name of an entry, or through a null pointer, has no result.
-/

namespace RtThread.Dfs

open CharBuffer

def ramfsNameMax : Nat := 32

def direntSize : Nat := 260

/-- `struct ramfs_dirent` without its links; `id` stands for its address. -/
structure RamfsDirent where
  id : Nat
  name : List Char
  data : Option (List UInt8)
  size : Nat
deriving DecidableEq, Repr

/-- `struct dfs_ramfs`: the entries behind the root in the order of the ring, and whether the
root still hangs in it. -/
structure DfsRamfs where
  files : List RamfsDirent
  hasRoot : Bool
  next : Nat
deriving DecidableEq, Repr

inductive RamfsEntry where
  | root
  | file (dirent : RamfsDirent)
deriving DecidableEq, Repr

inductive DfsStatus where
  | ok
  | enoent
  | enospc
  | enomem
  | eexist
  | einval
  | eio
deriving DecidableEq, Repr

/-- The flags that `dfs_ramfs_open` tests. -/
structure OpenFlags where
  directory : Bool
  creat : Bool
  wronly : Bool
  trunc : Bool
  append : Bool
deriving DecidableEq, Repr

/-- What the descriptor says after opening: `data`, `size` and `pos`. -/
structure RamfsFd where
  data : RamfsEntry
  size : Nat
  pos : Nat
deriving DecidableEq, Repr

/-- `struct dirent` as `dfs_ramfs_getdents` fills it in; `d_name` up to `RAMFS_NAME_MAX`. -/
structure Dirent where
  dType : Nat
  dNamlen : Nat
  dReclen : Nat
  dName : List Char
deriving DecidableEq, Repr

namespace Ramfs

/-!
## Operations
-/

def dfsRamfsCreate : DfsRamfs := ⟨[], true, 0⟩

def subpath (path : Path) : Path := path.dropWhile fun c => c = '/'

def lookupLoop (name : Path) : List RamfsDirent -> Option (Option RamfsEntry)
  | [] => some none
  | f :: rest =>
    match strcmpEq f.name name with
    | none => none
    | some true => some (some (RamfsEntry.file f))
    | some false => lookupLoop name rest

def dfsRamfsLookup (fs : DfsRamfs) (path : Path) : Option (Option RamfsEntry) :=
  if subpath path = [] then some (some RamfsEntry.root)
  else lookupLoop (subpath path) fs.files

def RamfsEntry.size : RamfsEntry -> Nat
  | RamfsEntry.root => 0
  | RamfsEntry.file f => f.size

/-- The end of `dfs_ramfs_open`. -/
def opened (flags : OpenFlags) (entry : RamfsEntry) : RamfsFd :=
  { data := entry
    size := RamfsEntry.size entry
    pos := if flags.append then RamfsEntry.size entry else 0 }

def setEntry (fs : DfsRamfs) (f : RamfsDirent) : DfsRamfs :=
  { fs with files := fs.files.map fun g => if g.id = f.id then f else g }

/-- The branch of `dfs_ramfs_open` for `DFS_O_TRUNC`. -/
def truncate (flags : OpenFlags) (f : RamfsDirent) : RamfsDirent :=
  if flags.trunc then { f with data := none, size := 0 } else f

/-- `dfs_ramfs_open`; `memory` says whether an entry can be allocated. -/
def dfsRamfsOpen (fs : DfsRamfs) (path : Path) (flags : OpenFlags) (memory : Bool) :
    Option (Except DfsStatus RamfsFd × DfsRamfs) :=
  if flags.directory then
    if flags.creat then some (Except.error DfsStatus.enospc, fs)
    else
      (dfsRamfsLookup fs path).map fun
        | none => (Except.error DfsStatus.enoent, fs)
        | some entry => (Except.ok (opened flags entry), fs)
  else
    (dfsRamfsLookup fs path).map fun
      | some RamfsEntry.root => (Except.error DfsStatus.enoent, fs)
      | none =>
        if flags.creat ∨ flags.wronly then
          if memory then
            let f : RamfsDirent :=
              { id := fs.next
                name := strncpy (subpath path) ramfsNameMax
                data := none
                size := 0 }
            (Except.ok (opened flags (RamfsEntry.file f)),
              { fs with files := f :: fs.files, next := fs.next + 1 })
          else (Except.error DfsStatus.enomem, fs)
        else (Except.error DfsStatus.enoent, fs)
      | some (RamfsEntry.file f) =>
        (Except.ok (opened flags (RamfsEntry.file (truncate flags f))),
          setEntry fs (truncate flags f))

def dfsRamfsStat (fs : DfsRamfs) (path : Path) : Option (Except DfsStatus Nat) :=
  (dfsRamfsLookup fs path).map fun
    | none => Except.error DfsStatus.enoent
    | some entry => Except.ok (RamfsEntry.size entry)

/-- `dfs_ramfs_unlink`; without the root the ring is out of reach. -/
def dfsRamfsUnlink (fs : DfsRamfs) (path : Path) : Option (DfsStatus × DfsRamfs) :=
  (dfsRamfsLookup fs path).map fun
    | none => (DfsStatus.enoent, fs)
    | some RamfsEntry.root => (DfsStatus.ok, { fs with files := [], hasRoot := false })
    | some (RamfsEntry.file f) =>
      (DfsStatus.ok, { fs with files := fs.files.filter fun g => g.id ≠ f.id })

/-- `dfs_ramfs_rename`.  The root entry can be given a name as well, which nothing reads. -/
def dfsRamfsRename (fs : DfsRamfs) (oldpath newpath : Path) : Option (DfsStatus × DfsRamfs) :=
  (dfsRamfsLookup fs newpath).bind fun
    | some _ => some (DfsStatus.eexist, fs)
    | none =>
      (dfsRamfsLookup fs oldpath).map fun
        | none => (DfsStatus.enoent, fs)
        | some RamfsEntry.root => (DfsStatus.ok, fs)
        | some (RamfsEntry.file f) =>
          (DfsStatus.ok, setEntry fs { f with name := strncpy newpath ramfsNameMax })

def shown (f : RamfsDirent) : Dirent :=
  { dType := 1
    dNamlen := 8
    dReclen := direntSize
    dName := strncpy (f.name.takeWhile fun c => c ≠ '\x00') ramfsNameMax }

/-- The loop of `dfs_ramfs_getdents`: the records, and the position behind them. -/
def getdentsLoop : List RamfsDirent -> Nat -> Nat -> Nat -> List Dirent × Nat
  | [], _, _, pos => ([], pos)
  | f :: rest, index, stop, pos =>
    if index < stop then
      if pos ≤ index then
        let r := getdentsLoop rest (index + 1) stop (pos + 1)
        (shown f :: r.1, r.2)
      else getdentsLoop rest (index + 1) stop pos
    else ([], pos)

def dfsRamfsGetdents (fs : DfsRamfs) (fd : RamfsFd) (count : Nat) :
    Except DfsStatus (List Dirent) × RamfsFd :=
  if fd.data = RamfsEntry.root ∧ count / direntSize ≠ 0 then
    let r := getdentsLoop fs.files 0 (fd.pos + count / direntSize) fd.pos
    (Except.ok r.1, { fd with pos := r.2 })
  else (Except.error DfsStatus.einval, fd)

end Ramfs

end RtThread.Dfs
