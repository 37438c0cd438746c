import RtThread.Dfs.Normalize

/-!
# Files of mounted filesystems

What `dfs_file_open` hands to a filesystem and remembers in the descriptor.
-/

namespace RtThread.Dfs

open Separated

def FsOperation.fullPath (ops : FsOperation) : Bool := ops.flags &&& 0x01 ≠ 0

/-- What a descriptor says about its file: `fd->fs`, as a place in the table, and
`fd->path`. -/
structure FdFile where
  fs : Option Nat
  path : Path
deriving DecidableEq, Repr

/-!
## Operations
-/

/-- The mounted filesystem in a place of the table, with its path and its operations. -/
def mountOf (table : List DfsFilesystem) (i : Nat) : Option (Path × FsOperation) :=
  table[i]?.bind fun e => e.path.bind fun m => e.ops.map fun ops => (m, ops)

/-- The name that a filesystem gets for a path: the whole path, or the part below the mount
point. -/
def handedName (m : Path) (ops : FsOperation) (fullpath : Path) : Path :=
  if ops.fullPath then fullpath else nameBelow m fullpath

/-- The file object of a normalised path: its filesystem and the name handed to it. -/
def objectOf (table : List DfsFilesystem) (fullpath : Path) : Option (Nat × Path) :=
  (dfsFilesystemLookup table fullpath).bind fun i =>
    (mountOf table i).map fun mo => (i, handedName mo.1 mo.2 fullpath)

/-- What `dfs_file_open` fills in, where the open method of the filesystem succeeds. -/
def dfsFileOpen (workdir : Option Path) (table : List DfsFilesystem) (path : Path) :
    Option FdFile :=
  (dfsNormalizePath workdir path).bind fun fullpath =>
    (dfsFilesystemLookup table fullpath).bind fun i =>
      (mountOf table i).bind fun mo =>
        if mo.2.hasOpen then some { fs := some i, path := handedName mo.1 mo.2 fullpath }
        else none

variable {table : List DfsFilesystem} {full m : Path} {i : Nat} {ops : FsOperation}

theorem mounted_of_mountOf (h : mountOf table i = some (m, ops)) : Mounted table i m := by
  unfold mountOf at h
  simp only [Option.bind_eq_some_iff, Option.map_eq_some_iff, Prod.mk.injEq] at h
  obtain ⟨e, he, m', hm, ops', hops, rfl, rfl⟩ := h
  exact ⟨e, he, hm, by rw [hops]; nofun⟩

theorem mountOf_of_mounted (h : Mounted table i m) :
    exists ops, mountOf table i = some (m, ops) := by
  obtain ⟨e, he, hm, hops⟩ := h
  obtain ⟨ops, hops⟩ := Option.ne_none_iff_exists'.mp hops
  refine ⟨ops, ?_⟩
  unfold mountOf
  rw [he, Option.bind_some, hm, Option.bind_some, hops]
  rfl

theorem lookup_passes (hlookup : dfsFilesystemLookup table full = some i)
    (hmount : mountOf table i = some (m, ops)) : Passes full m := by
  have hspec := lookup_spec table full
  rw [hlookup] at hspec
  obtain ⟨m', hm', hpasses, _⟩ := hspec
  obtain ⟨ops', hops'⟩ := mountOf_of_mounted hm'
  rw [hmount] at hops'
  cases hops'
  exact hpasses

theorem lookup_mountOf (hlookup : dfsFilesystemLookup table full = some i) :
    exists m ops, mountOf table i = some (m, ops) := by
  have hspec := lookup_spec table full
  rw [hlookup] at hspec
  obtain ⟨m, hm, _⟩ := hspec
  obtain ⟨ops, hops⟩ := mountOf_of_mounted hm
  exact ⟨m, ops, hops⟩

theorem objectOf_eq {name : Path} (hobject : objectOf table full = some (i, name)) :
    exists m ops, dfsFilesystemLookup table full = some i ∧
      mountOf table i = some (m, ops) ∧ name = handedName m ops full := by
  unfold objectOf at hobject
  simp only [Option.bind_eq_some_iff, Option.map_eq_some_iff, Prod.mk.injEq] at hobject
  obtain ⟨j, hlookup, ⟨m, ops⟩, hmount, rfl, rfl⟩ := hobject
  exact ⟨m, ops, hlookup, hmount, rfl⟩

end RtThread.Dfs
