import RtThread.Dfs.File

/-!
# Unlinking files that are open

`dfs_file_unlink` with the check of `fd_is_open`, over any mount table and any descriptors
that `dfs_file_open` has filled in.  Each of the two functions needs memory for a path.
-/

namespace RtThread.Dfs

open Separated

/-!
## Operations
-/

/-- `fd_is_open(pathname) == 0`, with whether there is memory for the path. -/
def fdIsOpen (memory : Bool) (workdir : Option Path) (table : List DfsFilesystem)
    (fds : List FdFile) (pathname : Path) : Bool :=
  match normalizeIf memory workdir pathname with
  | none => false
  | some fullpath =>
    match dfsFilesystemLookup table fullpath with
    | none => false
    | some i =>
      match mountOf table i with
      | none => false
      | some mo =>
        let mountpath := if mo.1 = slash then fullpath else fullpath.drop mo.1.length
        fds.any fun fd => fd.fs = some i ∧ fd.path = mountpath

/-- How an unlink ends: with an error, or with a call of the filesystem's method. -/
inductive UnlinkResult where
  | einval
  | enoent
  | ebusy
  | enosys
  | unlinked (fs : Nat) (name : Path)
deriving DecidableEq, Repr

/-- Whether there is memory for the path of `dfs_file_unlink`, and for that of `fd_is_open`. -/
structure PathMemory where
  unlink : Bool
  check : Bool
deriving DecidableEq, Repr

def dfsFileUnlink (memory : PathMemory) (workdir : Option Path) (table : List DfsFilesystem)
    (fds : List FdFile) (path : Path) : UnlinkResult :=
  match normalizeIf memory.unlink workdir path with
  | none => UnlinkResult.einval
  | some fullpath =>
    match dfsFilesystemLookup table fullpath with
    | none => UnlinkResult.enoent
    | some i =>
      if fdIsOpen memory.check workdir table fds fullpath then UnlinkResult.ebusy
      else
        match mountOf table i with
        | none => UnlinkResult.enosys
        | some mo =>
          if mo.2.hasUnlink then
            UnlinkResult.unlinked i (handedName mo.1 mo.2 fullpath)
          else UnlinkResult.enosys

/-!
## What is promised
-/

/-- A descriptor that `dfs_file_open` has filled in under this mount table. -/
def Opened (table : List DfsFilesystem) (fd : FdFile) : Prop :=
  exists workdir path, dfsFileOpen workdir table path = some fd

/-- If a descriptor refers to the object of the path, the unlink returns
`-DFS_STATUS_EBUSY`; the method is called only if none does. -/
def Protected (memory : PathMemory) (workdir : Option Path) (table : List DfsFilesystem)
    (path : Path) (fds : List FdFile) : Prop :=
  forall full i name, dfsNormalizePath workdir path = some full ->
    objectOf table full = some (i, name) ->
    ((exists fd, fd ∈ fds ∧ fd.fs = some i ∧ fd.path = name) ->
      dfsFileUnlink memory workdir table fds path = UnlinkResult.ebusy) ∧
    (forall j n, dfsFileUnlink memory workdir table fds path = UnlinkResult.unlinked j n ->
      j = i ∧ n = name ∧ forall fd, fd ∈ fds -> ¬ (fd.fs = some i ∧ fd.path = name))

/-- If files can be opened in the filesystem that the path resolves to, there is memory for the
path, and the filesystem is mounted at the root, or gets the part below its mount point and the
path is not that point. -/
def Comparable (memory : PathMemory) (workdir : Option Path) (table : List DfsFilesystem)
    (path : Path) : Prop :=
  forall full i m ops, dfsNormalizePath workdir path = some full ->
    dfsFilesystemLookup table full = some i -> mountOf table i = some (m, ops) ->
    ops.hasOpen = true ->
      memory = ⟨true, true⟩ ∧ (m = slash ∨ (ops.fullPath = false ∧ m ≠ full))

variable {memory : PathMemory} {workdir : Option Path} {table : List DfsFilesystem}
  {path full m : Path} {i : Nat} {ops : FsOperation}

/-!
## The name and what it is compared with
-/

/-- What `fd_is_open` compares the paths of the descriptors with. -/
def comparedName (m full : Path) : Path := if m = slash then full else full.drop m.length

theorem head?_of_passes (hpasses : Passes full m) (habsolute : m.head? = some '/') :
    full.head? = some '/' := by
  obtain ⟨z, rfl⟩ := strncmpEq_length_iff.mp hpasses.1
  rw [List.head?_append, habsolute]
  rfl

theorem nameBelow_slash (hfull : Normalised full) : nameBelow slash full = full := by
  obtain ⟨cs, rfl, hcs⟩ := hfull
  exact @nameBelow_render [] cs (by simpa using hcs)

theorem nameBelow_drop (hpasses : Passes full m) (habsolute : m.head? = some '/')
    (hroot : m ≠ slash) (hne : m ≠ full) : nameBelow m full = full.drop m.length := by
  have hlong : m.length > 1 := by
    cases m with
    | nil => cases habsolute
    | cons a rest =>
      cases rest with
      | nil => exact absurd (by simpa [slash] using habsolute) hroot
      | cons b rest => simp
  obtain ⟨z, rfl⟩ := strncmpEq_length_iff.mp hpasses.1
  have hboundary : AtBoundary '/' z := by
    rw [← boundary_iff]
    exact fun h => hpasses.2 ⟨hlong, h⟩
  rcases hboundary with rfl | ⟨rest, rfl⟩
  · simp at hne
  · unfold nameBelow dfsSubdir
    simp

theorem handedName_eq (hfull : Normalised full) (hpasses : Passes full m)
    (habsolute : m.head? = some '/')
    (hok : m = slash ∨ (ops.fullPath = false ∧ m ≠ full)) :
    handedName m ops full = comparedName m full := by
  unfold handedName comparedName
  rcases hok with rfl | ⟨hflag, hne⟩
  · rw [if_pos rfl, nameBelow_slash hfull, ite_self]
  · rw [hflag, if_neg (by decide)]
    by_cases hroot : m = slash
    · rw [if_pos hroot, hroot, nameBelow_slash hfull]
    · rw [if_neg hroot, nameBelow_drop hpasses habsolute hroot hne]

theorem handedName_ne (habsolute : m.head? = some '/') (hroot : m ≠ slash)
    (hbad : ops.fullPath = true ∨ m = full) (hpasses : Passes full m) :
    handedName m ops full ≠ comparedName m full := by
  have hpos : 0 < m.length := by
    cases m with
    | nil => cases habsolute
    | cons a rest => exact Nat.succ_pos _
  obtain ⟨z, hz⟩ := strncmpEq_length_iff.mp hpasses.1
  have hlen : full.length = m.length + z.length := by rw [hz, List.length_append]
  unfold handedName comparedName
  rw [if_neg hroot]
  intro h
  have hlength := congrArg List.length h
  rw [List.length_drop] at hlength
  cases hflag : ops.fullPath with
  | true =>
    rw [hflag, if_pos rfl] at hlength
    omega
  | false =>
    rcases hbad with hbad | rfl
    · rw [hflag] at hbad
      cases hbad
    · have hsame : nameBelow m m = slash := by simp [nameBelow, dfsSubdir]
      rw [hflag, if_neg (by decide), hsame, Nat.sub_self] at hlength
      cases hlength

/-!
## The check
-/

/-- Mount paths and the working directory are absolute, as `dfs_normalize_path` says of its
results. -/
structure Absolute (workdir : Option Path) (table : List DfsFilesystem) : Prop where
  workdir : forall d, workdir = some d -> d.head? = some '/'
  mount : forall i m, Mounted table i m -> m.head? = some '/'

theorem normalised_of_lookup (habs : Absolute workdir table)
    (hnorm : dfsNormalizePath workdir path = some full)
    (hlookup : dfsFilesystemLookup table full = some i) : Normalised full := by
  obtain ⟨m, ops, hmount⟩ := lookup_mountOf hlookup
  have hhead := head?_of_passes (lookup_passes hlookup hmount)
    (habs.mount i m (mounted_of_mountOf hmount))
  apply normalize_inside habs.workdir _ hnorm
  by_contra houtside
  exact normalize_outside habs.workdir houtside hnorm hhead

variable {fds : List FdFile}

theorem fdIsOpen_eq (hfull : Normalised full) (hlookup : dfsFilesystemLookup table full = some i)
    (hmount : mountOf table i = some (m, ops)) :
    fdIsOpen true workdir table fds full =
      fds.any fun fd => fd.fs = some i ∧ fd.path = comparedName m full := by
  unfold fdIsOpen normalizeIf
  rw [if_pos rfl, normalize_normalised hfull]
  simp only [hlookup, hmount]
  rfl

theorem dfsFileUnlink_eq (hnorm : dfsNormalizePath workdir path = some full)
    (hlookup : dfsFilesystemLookup table full = some i)
    (hmount : mountOf table i = some (m, ops)) :
    dfsFileUnlink memory workdir table fds path =
      if memory.unlink = false then UnlinkResult.einval
      else if fdIsOpen memory.check workdir table fds full then UnlinkResult.ebusy
      else if ops.hasUnlink then UnlinkResult.unlinked i (handedName m ops full)
      else UnlinkResult.enosys := by
  unfold dfsFileUnlink normalizeIf
  cases memory.unlink with
  | false => rfl
  | true => simp only [if_true, Bool.true_eq_false, if_false, hnorm, hlookup, hmount]

theorem Opened.hasOpen {fd : FdFile} (hfd : Opened table fd) (hfs : fd.fs = some i)
    (hmount : mountOf table i = some (m, ops)) : ops.hasOpen = true := by
  obtain ⟨wd, path, hopen⟩ := hfd
  unfold dfsFileOpen at hopen
  simp only [Option.bind_eq_some_iff] at hopen
  obtain ⟨full, _, j, _, ⟨m', ops'⟩, hmount', hif⟩ := hopen
  split at hif
  · next hyes =>
      cases hif
      cases hfs
      rw [hmount] at hmount'
      cases hmount'
      exact hyes
  · cases hif

theorem protected_of_comparable (habs : Absolute workdir table)
    (hok : Comparable memory workdir table path) (hfds : forall fd, fd ∈ fds -> Opened table fd) :
    Protected memory workdir table path fds := by
  intro full i name hnorm hobject
  obtain ⟨m, ops, hlookup, hmount, rfl⟩ := objectOf_eq hobject
  have hfull := normalised_of_lookup habs hnorm hlookup
  -- an open descriptor of the object is found
  have hfound : (exists fd, fd ∈ fds ∧ fd.fs = some i ∧ fd.path = handedName m ops full) ->
      memory.unlink = true ∧ fdIsOpen memory.check workdir table fds full = true := by
    rintro ⟨fd, hin, hfs, hpath⟩
    have hopen := (hfds fd hin).hasOpen hfs hmount
    obtain ⟨rfl, hplace⟩ := hok full i m ops hnorm hlookup hmount hopen
    have hname := handedName_eq hfull (lookup_passes hlookup hmount)
      (habs.mount i m (mounted_of_mountOf hmount)) hplace
    refine ⟨rfl, ?_⟩
    rw [fdIsOpen_eq hfull hlookup hmount, List.any_eq_true]
    refine ⟨fd, hin, ?_⟩
    rw [decide_eq_true_eq, ← hname]
    exact ⟨hfs, hpath⟩
  rw [dfsFileUnlink_eq hnorm hlookup hmount]
  constructor
  · intro hfd
    rw [(hfound hfd).1, if_neg (by decide), if_pos (hfound hfd).2]
  · intro j n hresult
    split at hresult
    · cases hresult
    split at hresult
    · cases hresult
    · next hnone =>
        split at hresult
        · cases hresult
          refine ⟨rfl, rfl, fun fd hin hrefers => ?_⟩
          exact hnone (hfound ⟨fd, hin, hrefers⟩).2
        · cases hresult

theorem comparable_of_protected (habs : Absolute workdir table)
    (hok : forall fds, (forall fd, fd ∈ fds -> Opened table fd) ->
      Protected memory workdir table path fds) : Comparable memory workdir table path := by
  intro full i m ops hnorm hlookup hmount hopen
  -- the file itself, opened once
  have hfd : Opened table { fs := some i, path := handedName m ops full } := by
    refine ⟨workdir, path, ?_⟩
    unfold dfsFileOpen
    rw [hnorm, Option.bind_some, hlookup, Option.bind_some, hmount, Option.bind_some, if_pos hopen]
  have hobject : objectOf table full = some (i, handedName m ops full) := by
    unfold objectOf
    rw [hlookup, Option.bind_some, hmount]
    rfl
  have hbusy := (hok [{ fs := some i, path := handedName m ops full }]
    (by simpa using hfd) full i _ hnorm hobject).1 ⟨_, List.mem_singleton_self _, rfl, rfl⟩
  have hfull := normalised_of_lookup habs hnorm hlookup
  have hpasses := lookup_passes hlookup hmount
  -- it is found only if there is memory and its name is the one compared with
  have hfound : memory.unlink = true ∧ fdIsOpen memory.check workdir table
      [{ fs := some i, path := handedName m ops full }] full = true := by
    rw [dfsFileUnlink_eq hnorm hlookup hmount] at hbusy
    by_contra hnot
    split at hbusy
    · cases hbusy
    · next hunlink =>
        rw [if_neg fun h => hnot ⟨Bool.not_eq_false _ ▸ hunlink, h⟩] at hbusy
        split at hbusy
        · cases hbusy
        · cases hbusy
  obtain ⟨unlink, check⟩ := memory
  obtain ⟨hunlink, hcheck⟩ := hfound
  cases check with
  | false => cases hcheck
  | true =>
    refine ⟨by rw [show unlink = true from hunlink], ?_⟩
    by_contra hbad
    rw [not_or, not_and_or, Bool.not_eq_false, not_not] at hbad
    have hne := handedName_ne (habs.mount i m (mounted_of_mountOf hmount)) hbad.1 hbad.2 hpasses
    rw [fdIsOpen_eq hfull hlookup hmount] at hcheck
    simp [hne] at hcheck

/-- For every table with absolute mount paths and every path: the unlink protects the object
against every set of open descriptors if and only if there is memory for the path and its
filesystem is mounted at the root, or gets names below its mount point and the path is not that
point. -/
theorem unlink_protects_iff (habs : Absolute workdir table) (memory : PathMemory) (path : Path) :
    (forall fds, (forall fd, fd ∈ fds -> Opened table fd) ->
      Protected memory workdir table path fds) <-> Comparable memory workdir table path :=
  ⟨comparable_of_protected habs, fun hok _ hfds => protected_of_comparable habs hok hfds⟩

theorem threeMounts_absolute : Absolute (some slash) threeMounts := by
  constructor
  · intro d hd
    cases hd
    rfl
  · intro i m hm
    rcases threeMounts_mounted hm with ⟨_, rfl⟩ | ⟨_, rfl⟩ | ⟨_, rfl⟩ <;> rfl

/-- A file below `/m` is protected, whatever the spelling of its path. -/
theorem unlink_protects_below_mount :
    Comparable ⟨true, true⟩ (some slash) threeMounts
      ['/', '/', 'm', '/', '.', '/', 'a', '/'] ∧
      forall fds, (forall fd, fd ∈ fds -> Opened threeMounts fd) ->
        Protected ⟨true, true⟩ (some slash) threeMounts
          ['/', '/', 'm', '/', '.', '/', 'a', '/'] fds := by
  have hok : Comparable ⟨true, true⟩ (some slash) threeMounts
      ['/', '/', 'm', '/', '.', '/', 'a', '/'] := by
    intro full i m ops hnorm hlookup hmount _
    have hfull : dfsNormalizePath (some slash) ['/', '/', 'm', '/', '.', '/', 'a', '/'] =
        some ['/', 'm', '/', 'a'] := by
      decide
    rw [hfull] at hnorm
    cases hnorm
    have hi : dfsFilesystemLookup threeMounts ['/', 'm', '/', 'a'] = some 1 := by
      decide
    rw [hi] at hlookup
    cases hlookup
    cases hmount
    exact ⟨rfl, Or.inr ⟨rfl, by decide⟩⟩
  exact ⟨hok, (unlink_protects_iff threeMounts_absolute _ _).mpr hok⟩

/-- With a filesystem at `/m` whose root is open, `unlink("/m")` reaches it; with one that
gets full paths, `unlink` of an open file does, and so it does below the root if there is no
memory for the check. -/
theorem unlink_misses_open_files :
    (dfsFileOpen (some slash) [mountAt ['/', 'm'] 0] ['/', 'm'] = some ⟨some 0, slash⟩ ∧
      dfsFileUnlink ⟨true, true⟩ (some slash) [mountAt ['/', 'm'] 0] [⟨some 0, slash⟩]
          ['/', 'm'] =
        UnlinkResult.unlinked 0 slash) ∧
    (dfsFileOpen (some slash) [mountAt ['/', 'm'] 1] ['/', 'm', '/', 'a'] =
        some ⟨some 0, ['/', 'm', '/', 'a']⟩ ∧
      dfsFileUnlink ⟨true, true⟩ (some slash) [mountAt ['/', 'm'] 1]
          [⟨some 0, ['/', 'm', '/', 'a']⟩] ['/', 'm', '/', 'a'] =
        UnlinkResult.unlinked 0 ['/', 'm', '/', 'a']) ∧
    (dfsFileOpen (some slash) [mountAt slash 0] ['/', 'a'] = some ⟨some 0, ['/', 'a']⟩ ∧
      dfsFileUnlink ⟨true, false⟩ (some slash) [mountAt slash 0] [⟨some 0, ['/', 'a']⟩]
          ['/', 'a'] =
        UnlinkResult.unlinked 0 ['/', 'a']) := by
  refine ⟨⟨?_, ?_⟩, ⟨?_, ?_⟩, ?_, ?_⟩ <;> decide

end RtThread.Dfs
