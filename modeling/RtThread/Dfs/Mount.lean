import RtThread.Dfs.File
import RtThread.Drivers.Device
import RtThread.Library.Transition

/-!
# The table of mounted filesystems

`dfs_register`, `dfs_mount` and `dfs_unmount`, one call after the other.  What the methods
of the filesystem and of the device driver answer is part of the operation.
-/

namespace RtThread.Dfs.Mount

open Kernel
open Function (update_of_ne update_self)
open Drivers
open Transition

structure State where
  workdir : Option Path
  types : List (Option FsOperation)
  table : List DfsFilesystem
  device : Nat -> RtDevice

/-- How a call ends; a fault is an access through a null pointer. -/
inductive Result where
  | ok
  | error
  | fault
deriving DecidableEq, Repr

/-- The device that a mount names: none, one that does not exist, or one that does. -/
inductive DeviceArg where
  | null
  | missing
  | found (id : Nat)
deriving DecidableEq, Repr

def emptyEntry : DfsFilesystem := { devId := none, path := none, ops := none }

/-!
## Registering types
-/

/-- The loop of `dfs_register`: the first empty place, and whether the name was found. -/
def registerLoop (name : Path) :
    List (Option FsOperation) -> Nat -> Option Nat -> Option Nat × Bool
  | [], _, empty => (empty, false)
  | none :: rest, i, empty => registerLoop name rest (i + 1) (empty.or (some i))
  | some ops :: rest, i, empty =>
    if ops.name = name then (empty, true) else registerLoop name rest (i + 1) empty

/-- `dfs_register`: with no empty place nothing is saved, and the result is `RT_EOK`. -/
def dfsRegister (s : State) (ops : FsOperation) : State × Result :=
  match registerLoop ops.name s.types 0 none with
  | (_, true) => (s, Result.error)
  | (some i, false) => ({ s with types := s.types.set i (some ops) }, Result.ok)
  | (none, false) => (s, Result.ok)

/-!
## Mounting
-/

inductive TypeSearch where
  | found (ops : FsOperation)
  | unknown
  | fault
deriving DecidableEq, Repr

/-- The loop of `dfs_mount` over the types, which tests the address of a place instead of
its content. -/
def findType (fstype : Path) : List (Option FsOperation) -> TypeSearch
  | [] => TypeSearch.unknown
  | none :: _ => TypeSearch.fault
  | some ops :: rest =>
    if ops.name = fstype then TypeSearch.found ops else findType fstype rest

inductive EntrySearch where
  | free (i : Nat)
  | taken
  | full
deriving DecidableEq, Repr

/-- The loop of `dfs_mount` over the filesystems, which compares the path as the caller has
spelled it. -/
def findEntry (path : Path) : List DfsFilesystem -> Nat -> Option Nat -> EntrySearch
  | [], _, none => EntrySearch.full
  | [], _, some i => EntrySearch.free i
  | e :: rest, i, fs =>
    match e.ops with
    | none => findEntry path rest (i + 1) (fs.or (some i))
    | some _ => if e.path = some path then EntrySearch.taken else findEntry path rest (i + 1) fs

def checkMountPoint (s : State) (fullpath : Path) (openDir : Bool) : Bool :=
  fullpath = slash ∨ fullpath = ['/', 'd', 'e', 'v'] ∨
    ((dfsFileOpen s.workdir s.table fullpath).isSome ∧ openDir)

/-- `rt_device_open(fs->dev_id, RT_DEVICE_OFLAG_RDWR)` -/
def openDevice (s : State) (id : Nat) (a : Answers) : Option (State × RtErr) :=
  (rtDeviceOpen (answering a) (s.device id, ()) (oflagRdonly ||| oflagWronly)).map fun p =>
    ({ s with device := Function.update s.device id p.1.1 }, p.2)

def closeDevice (s : State) (id : Nat) (a : Answers) : Option State :=
  (rtDeviceClose (answering a) (s.device id, ())).map fun p =>
    { s with device := Function.update s.device id p.1.1 }

def setEntry (s : State) (i : Nat) (e : DfsFilesystem) : State :=
  { s with table := s.table.set i e }

/-- `dfs_mount` behind the registration in place `i`. -/
def finishMount (s : State) (i : Nat) (dev : Option Nat) (a : Answers) (mountOk : Bool) :
    Option (State × Result) :=
  match dev with
  | none =>
    if mountOk then some (s, Result.ok) else some (setEntry s i emptyEntry, Result.error)
  | some id =>
    (openDevice s id a).bind fun p =>
      if p.2 ≠ RtErr.eok then some (setEntry p.1 i emptyEntry, Result.error)
      else if mountOk then some (p.1, Result.ok)
      else (closeDevice p.1 id a).map fun s => (setEntry s i emptyEntry, Result.error)

/-- `dfs_mount` from the search of the type on. -/
def mountOn (s : State) (dev : Option Nat) (path fstype : Path) (openDir : Bool) (a : Answers)
    (mountOk : Bool) : Option (State × Result) :=
  match findType fstype s.types with
  | TypeSearch.fault => some (s, Result.fault)
  | TypeSearch.unknown => some (s, Result.error)
  | TypeSearch.found ops =>
    if ops.hasMount = false then some (s, Result.error)
    else
      match dfsNormalizePath s.workdir path with
      | none => some (s, Result.error)
      | some fullpath =>
        if checkMountPoint s fullpath openDir = false then some (s, Result.error)
        else
          match findEntry path s.table 0 none with
          | EntrySearch.taken => some (s, Result.error)
          | EntrySearch.full => some (s, Result.error)
          | EntrySearch.free i =>
            finishMount
              (setEntry s i { devId := dev, path := some fullpath, ops := some ops }) i dev
              a mountOk

def dfsMount (s : State) (dev : DeviceArg) (path fstype : Path) (openDir : Bool) (a : Answers)
    (mountOk : Bool) : Option (State × Result) :=
  match dev with
  | DeviceArg.missing => some (s, Result.error)
  | DeviceArg.null => mountOn s none path fstype openDir a mountOk
  | DeviceArg.found id => mountOn s (some id) path fstype openDir a mountOk

/-!
## Unmounting
-/

/-- The loop of `dfs_unmount`. -/
def findMounted (fullpath : Path) : List DfsFilesystem -> Nat -> Option Nat
  | [], _ => none
  | e :: rest, i =>
    if e.path = some fullpath then some i else findMounted fullpath rest (i + 1)

def dfsUnmount (s : State) (path : Path) (unmountOk : Bool) (a : Answers) :
    Option (State × Result) :=
  match dfsNormalizePath s.workdir path with
  | none => some (s, Result.error)
  | some fullpath =>
    match (findMounted fullpath s.table 0).bind fun i => s.table[i]?.map fun e => (i, e) with
    | none => some (s, Result.error)
    | some (i, e) =>
      match e.ops with
      | none => some (s, Result.fault)
      | some ops =>
        if ops.hasUnmount = false ∨ unmountOk = false then some (s, Result.error)
        else
          match e.devId with
          | none => some (setEntry s i emptyEntry, Result.ok)
          | some id =>
            (closeDevice s id a).map fun s => (setEntry s i emptyEntry, Result.ok)

inductive Op where
  | register (ops : FsOperation)
  | mount (dev : DeviceArg) (path fstype : Path) (openDir : Bool) (a : Answers) (mountOk : Bool)
  | unmount (path : Path) (unmountOk : Bool) (a : Answers)
deriving DecidableEq, Repr

def stepResult (s : State) : Op -> Option (State × Result)
  | Op.register ops => some (dfsRegister s ops)
  | Op.mount dev path fstype openDir a mountOk =>
    dfsMount s dev path fstype openDir a mountOk
  | Op.unmount path unmountOk a => dfsUnmount s path unmountOk a

def step (s : State) (op : Op) : Option State := (stepResult s op).map Prod.fst

/-- The tables as `dfs_init` leaves them. -/
structure Initial (s : State) : Prop where
  workdir : forall d, s.workdir = some d -> d.head? = some '/'
  types : exists n, s.types = List.replicate n none
  table : exists n, s.table = List.replicate n emptyEntry
  device : forall id, (s.device id).refCount < 2 ^ 8

/-!
## What is promised
-/

def HasType (types : List (Option FsOperation)) (name : Path) : Prop :=
  exists ops, some ops ∈ types ∧ ops.name = name

structure Unchanged (s s' : State) : Prop where
  types : s'.types = s.types
  table : s'.table = s.table
  count : forall id, (s'.device id).refCount = (s.device id).refCount

def Promised (s : State) (op : Op) (s' : State) (r : Result) : Prop :=
  (r = Result.error -> Unchanged s s') ∧
    match op with
    | Op.register ops =>
      r = Result.ok <-> HasType s'.types ops.name ∧ ¬ HasType s.types ops.name
    | Op.mount _ _ fstype _ _ _ => ¬ HasType s.types fstype -> r = Result.error
    | Op.unmount _ _ _ => True

/-- There is room for a type that is new. A mount finds its type, or the table of types is
full; its path stays below the root and, if mounted already, is spelled as it is there; and
the open method of the device does not answer `-RT_ENOSYS`. -/
def Orderly (s : State) : Op -> Prop
  | Op.register ops => none ∈ s.types ∨ HasType s.types ops.name
  | Op.mount _ path fstype _ a _ =>
    (HasType s.types fstype ∨ none ∉ s.types) ∧ StaysInside s.workdir path ∧
      (forall full i, dfsNormalizePath s.workdir path = some full ->
        Mounted s.table i full -> path = full) ∧
      a.openDev ≠ RtErr.enosys
  | Op.unmount _ _ _ => True

/-- The types fill the front of their table, unused entries are cleared, and the mounted
filesystems have distinct normalised paths. -/
structure Sound (s : State) : Prop where
  workdir : forall d, s.workdir = some d -> d.head? = some '/'
  packed : exists (known : List FsOperation) (n : Nat),
    s.types = known.map some ++ List.replicate n none
  cleared : forall (i : Nat) e, s.table[i]? = some e -> e.ops = none -> e = emptyEntry
  named : forall (i : Nat) e, s.table[i]? = some e -> e.ops ≠ none -> e.path ≠ none
  mounted : WellMounted s.table
  device : forall id, (s.device id).refCount < 2 ^ 8

/-!
## Searches
-/

variable {s s' : State} {name path full : Path} {known : List FsOperation} {n : Nat}

theorem hasType_packed : HasType (known.map some ++ List.replicate n none) name <->
      exists ops, ops ∈ known ∧ ops.name = name := by
  unfold HasType
  simp [List.mem_replicate]

theorem none_mem_packed :
    (none : Option FsOperation) ∈ known.map some ++ List.replicate n none <-> n ≠ 0 := by
  simp [List.mem_replicate]

theorem registerLoop_replicate (i : Nat) (empty : Option Nat) :
    registerLoop name (List.replicate n none) i empty =
      (if n = 0 then empty else empty.or (some i), false) := by
  induction n generalizing i empty with
  | zero => rfl
  | succ n ih =>
    rw [List.replicate_succ, registerLoop, ih]
    split <;> cases empty <;> rfl

theorem registerLoop_packed (i : Nat) : (exists ops, ops ∈ known ∧ ops.name = name ∧
        registerLoop name (known.map some ++ List.replicate n none) i none = (none, true)) ∨
      ((forall ops, ops ∈ known -> ops.name ≠ name) ∧
        registerLoop name (known.map some ++ List.replicate n none) i none =
          (if n = 0 then none else some (i + known.length), false)) := by
  induction known generalizing i with
  | nil =>
    refine Or.inr ⟨fun ops hops => (by cases hops), ?_⟩
    rw [List.map_nil, List.nil_append, registerLoop_replicate]
    rfl
  | cons ops known ih =>
    rw [List.map_cons, List.cons_append, registerLoop]
    by_cases hname : ops.name = name
    · exact Or.inl ⟨ops, List.mem_cons_self, hname, by rw [if_pos hname]⟩
    · rw [if_neg hname]
      rcases ih (i + 1) with ⟨ops', hops', hname', heq⟩ | ⟨hnone, heq⟩
      · exact Or.inl ⟨ops', List.mem_cons_of_mem _ hops', hname', heq⟩
      · refine Or.inr ⟨?_, ?_⟩
        · intro ops' hops'
          rcases List.mem_cons.mp hops' with rfl | hops'
          · exact hname
          · exact hnone ops' hops'
        · rw [heq, List.length_cons, Nat.add_assoc, Nat.add_comm 1]

theorem findType_packed : (exists ops, ops ∈ known ∧ ops.name = name ∧
        findType name (known.map some ++ List.replicate n none) = TypeSearch.found ops) ∨
      ((forall ops, ops ∈ known -> ops.name ≠ name) ∧
        findType name (known.map some ++ List.replicate n none) =
          if n = 0 then TypeSearch.unknown else TypeSearch.fault) := by
  induction known with
  | nil =>
    refine Or.inr ⟨fun ops hops => (by cases hops), ?_⟩
    cases n with
    | zero => rfl
    | succ n => rfl
  | cons ops known ih =>
    rw [List.map_cons, List.cons_append, findType]
    by_cases hname : ops.name = name
    · exact Or.inl ⟨ops, List.mem_cons_self, hname, by rw [if_pos hname]⟩
    · rw [if_neg hname]
      rcases ih with ⟨ops', hops', hname', heq⟩ | ⟨hnone, heq⟩
      · exact Or.inl ⟨ops', List.mem_cons_of_mem _ hops', hname', heq⟩
      · refine Or.inr ⟨?_, heq⟩
        intro ops' hops'
        rcases List.mem_cons.mp hops' with rfl | hops'
        · exact hname
        · exact hnone ops' hops'

variable {table : List DfsFilesystem} {dev : Option Nat}

theorem findEntry_free {i k : Nat} {fs : Option Nat}
    (hs : findEntry path table i fs = EntrySearch.free k) :
    (fs = some k ∨ exists j e, k = i + j ∧ table[j]? = some e ∧ e.ops = none) ∧
      forall e, e ∈ table -> e.ops ≠ none -> e.path ≠ some path := by
  induction table generalizing i fs with
  | nil =>
    cases fs with
    | none => cases hs
    | some k' =>
      cases hs
      exact ⟨Or.inl rfl, fun e he => (by cases he)⟩
  | cons e rest ih =>
    have hshift {k : Nat} : (exists j e', k = i + 1 + j ∧ rest[j]? = some e' ∧ e'.ops = none) ->
        exists j e', k = i + j ∧ (e :: rest)[j]? = some e' ∧ e'.ops = none := by
      rintro ⟨j, e', rfl, he', hops⟩
      exact ⟨j + 1, e', by omega, he', hops⟩
    rw [findEntry] at hs
    split at hs
    · next hops =>
        obtain ⟨hplace, hnone⟩ := ih hs
        refine ⟨?_, ?_⟩
        · rcases hplace with hfs | hlater
          · cases fs with
            | none =>
              cases hfs
              exact Or.inr ⟨0, e, rfl, rfl, hops⟩
            | some k' => exact Or.inl hfs
          · exact Or.inr (hshift hlater)
        · intro e' he' hused
          rcases List.mem_cons.mp he' with rfl | he'
          · exact absurd hops hused
          · exact hnone e' he' hused
    · next ops hops =>
        split at hs
        · cases hs
        · next hpath =>
            obtain ⟨hplace, hnone⟩ := ih hs
            refine ⟨hplace.imp_right hshift, ?_⟩
            intro e' he' hused
            rcases List.mem_cons.mp he' with rfl | he'
            · exact hpath
            · exact hnone e' he' hused

theorem findMounted_some {i k : Nat} (hs : findMounted full table i = some k) :
    exists j e, k = i + j ∧ table[j]? = some e ∧ e.path = some full := by
  induction table generalizing i with
  | nil => cases hs
  | cons e rest ih =>
    rw [findMounted] at hs
    split at hs
    · next hpath =>
        cases hs
        exact ⟨0, e, rfl, rfl, hpath⟩
    · obtain ⟨j, e', rfl, he', hpath⟩ := ih hs
      exact ⟨j + 1, e', by omega, he', hpath⟩

/-!
## Steps
-/

variable {i : Nat} {a : Answers} {r : Result} {new : DfsFilesystem}

theorem Unchanged.sound (hu : Unchanged s s') (hsound : Sound s)
    (hworkdir : s'.workdir = s.workdir) : Sound s' := by
  refine ⟨?_, ?_, ?_, ?_, ?_, ?_⟩
  · rw [hworkdir]
    exact hsound.workdir
  · rw [hu.types]
    exact hsound.packed
  · rw [hu.table]
    exact hsound.cleared
  · rw [hu.table]
    exact hsound.named
  · rw [hu.table]
    exact hsound.mounted
  · intro id
    rw [hu.count id]
    exact hsound.device id

theorem Unchanged.refl (s : State) : Unchanged s s := ⟨rfl, rfl, fun _ => rfl⟩

theorem openDevice_spec {id : Nat} {e : RtErr} (hopen : a.openDev ≠ RtErr.enosys)
    (hbyte : forall id, (s.device id).refCount < 2 ^ 8)
    (hs : openDevice s id a = some (s', e)) :
    s'.table = s.table ∧ s'.types = s.types ∧ s'.workdir = s.workdir ∧
      (forall id, (s'.device id).refCount < 2 ^ 8) ∧
      forall id', (s'.device id').refCount =
        (s.device id').refCount + (if e = RtErr.eok ∧ id' = id then 1 else 0) := by
  unfold openDevice at hs
  rw [Option.map_eq_some_iff] at hs
  obtain ⟨⟨y, e'⟩, hcall, heq⟩ := hs
  cases heq
  refine ⟨rfl, rfl, rfl, ?_, ?_⟩
  · intro id'
    simp only
    rcases eq_or_ne id' id with rfl | hne
    · rw [update_self]
      rcases open_answering hopen (hbyte id') hcall with ⟨_, _, hlt⟩ | ⟨_, _, hsame, _⟩
      · exact hlt
      · rw [hsame]
        exact hbyte id'
    · rw [update_of_ne hne]
      exact hbyte id'
  · intro id'
    simp only
    rcases eq_or_ne id' id with rfl | hne
    · rw [update_self]
      rcases open_answering hopen (hbyte id') hcall with ⟨hr, hcount, _⟩ | ⟨hr, _, hsame, _⟩
      · rw [hcount, if_pos ⟨hr, rfl⟩]
      · rw [hsame, if_neg fun h => hr h.1, Nat.add_zero]
    · rw [update_of_ne hne, if_neg fun h => hne h.2, Nat.add_zero]

theorem closeDevice_spec {id : Nat} (hs : closeDevice s id a = some s') :
    s'.table = s.table ∧ s'.types = s.types ∧ s'.workdir = s.workdir ∧
      forall id', (s'.device id').refCount =
        (s.device id').refCount - (if id' = id then 1 else 0) := by
  unfold closeDevice at hs
  rw [Option.map_eq_some_iff] at hs
  obtain ⟨⟨y, e⟩, hcall, heq⟩ := hs
  cases heq
  refine ⟨rfl, rfl, rfl, ?_⟩
  intro id'
  simp only
  rcases eq_or_ne id' id with rfl | hne
  · rw [update_self, if_pos rfl]
    exact close_count hcall
  · rw [update_of_ne hne, if_neg hne, Nat.sub_zero]

theorem set_restore (h : table[i]? = some emptyEntry) :
    (table.set i new).set i emptyEntry = table := by
  rw [List.set_set]
  apply List.ext_getElem?
  intro j
  rw [List.getElem?_set]
  split
  · next hj =>
      subst hj
      rw [if_pos (List.getElem?_eq_some_iff.mp h).1, h]
  · rfl

theorem finishMount_spec {mountOk : Bool}
    (hfree : s.table[i]? = some emptyEntry) (hopen : a.openDev ≠ RtErr.enosys)
    (hbyte : forall id, (s.device id).refCount < 2 ^ 8)
    (hs : finishMount (setEntry s i new) i dev a mountOk = some (s', r)) :
    s'.types = s.types ∧ s'.workdir = s.workdir ∧ ((r = Result.error ∧ Unchanged s s') ∨
        (r = Result.ok ∧ s'.table = s.table.set i new ∧
          forall id, (s'.device id).refCount < 2 ^ 8)) := by
  unfold finishMount at hs
  cases dev with
  | none =>
    simp only at hs
    split at hs
    · cases hs
      exact ⟨rfl, rfl, Or.inr ⟨rfl, rfl, hbyte⟩⟩
    · cases hs
      exact ⟨rfl, rfl, Or.inl ⟨rfl, rfl, set_restore hfree, fun _ => rfl⟩⟩
  | some id =>
    rw [Option.bind_eq_some_iff] at hs
    obtain ⟨⟨s1, e⟩, hcall, hs⟩ := hs
    have hbyte0 : forall id, ((setEntry s i new).device id).refCount < 2 ^ 8 := hbyte
    obtain ⟨htable, htypes, hworkdir, hbyte1, hcount⟩ := openDevice_spec hopen hbyte0 hcall
    have hrestored : s1.table.set i emptyEntry = s.table := by
      rw [htable]
      exact set_restore hfree
    split at hs
    · next herror =>
        cases hs
        refine ⟨htypes, hworkdir, Or.inl ⟨rfl, htypes, hrestored, fun id' => ?_⟩⟩
        have hsame := hcount id'
        rw [if_neg fun h => herror h.1] at hsame
        exact hsame
    · next hok =>
        have hopened : e = RtErr.eok := by simpa using hok
        split at hs
        · cases hs
          exact ⟨htypes, hworkdir, Or.inr ⟨rfl, htable, hbyte1⟩⟩
        · rw [Option.map_eq_some_iff] at hs
          obtain ⟨s2, hclose, heq⟩ := hs
          cases heq
          obtain ⟨htable2, htypes2, hworkdir2, hcount2⟩ := closeDevice_spec hclose
          refine ⟨htypes2.trans htypes, hworkdir2.trans hworkdir,
            Or.inl ⟨rfl, htypes2.trans htypes, ?_, fun id' => ?_⟩⟩
          · show s2.table.set i emptyEntry = s.table
            rw [htable2]
            exact hrestored
          · show (s2.device id').refCount = (s.device id').refCount
            rw [hcount2 id', hcount id']
            simp only [hopened, true_and]
            exact Nat.add_sub_cancel _ _

theorem mounted_set {j : Nat} {m : Path} (hm : Mounted (table.set i new) j m) :
    (j = i ∧ new.path = some m ∧ new.ops ≠ none) ∨ (j ≠ i ∧ Mounted table j m) := by
  obtain ⟨e, he, hpath, hops⟩ := hm
  rw [List.getElem?_set] at he
  split at he
  · next hj =>
      split at he
      · cases he
        exact Or.inl ⟨hj.symm, hpath, hops⟩
      · cases he
  · next hj => exact Or.inr ⟨fun h => hj h.symm, e, he, hpath, hops⟩

theorem getElem?_setEntry {j : Nat} {e : DfsFilesystem}
    (he : (table.set i new)[j]? = some e) : e = new ∨ table[j]? = some e := by
  rw [List.getElem?_set] at he
  split at he
  · split at he
    · exact Or.inl (Option.some.inj he).symm
    · cases he
  · exact Or.inr he

theorem Sound.mounts {ops : FsOperation} (hsound : Sound s)
    (hfull : Normalised full) (hnew : forall j, ¬ Mounted s.table j full)
    (htypes : s'.types = s.types) (hworkdir : s'.workdir = s.workdir)
    (htable : s'.table = s.table.set i { devId := dev, path := some full, ops := some ops })
    (hdevice : forall id, (s'.device id).refCount < 2 ^ 8) : Sound s' := by
  refine ⟨?_, ?_, ?_, ?_, ⟨?_, ?_⟩, hdevice⟩
  · rw [hworkdir]
    exact hsound.workdir
  · rw [htypes]
    exact hsound.packed
  · intro j e he hops
    rw [htable] at he
    rcases getElem?_setEntry he with rfl | he
    · cases hops
    · exact hsound.cleared j e he hops
  · intro j e he hops
    rw [htable] at he
    rcases getElem?_setEntry he with rfl | he
    · exact Option.some_ne_none _
    · exact hsound.named j e he hops
  · intro j m hm
    rw [htable] at hm
    rcases mounted_set hm with ⟨_, hpath, _⟩ | ⟨_, hm⟩
    · cases hpath
      exact hfull
    · exact hsound.mounted.normalised j m hm
  · intro j k m hm hm'
    rw [htable] at hm hm'
    rcases mounted_set hm with ⟨hj, hpath, _⟩ | ⟨_, hold⟩
    · rcases mounted_set hm' with ⟨hk, _⟩ | ⟨_, hold'⟩
      · rw [hj, hk]
      · cases hpath
        exact absurd hold' (hnew k)
    · rcases mounted_set hm' with ⟨_, hpath, _⟩ | ⟨_, hold'⟩
      · cases hpath
        exact absurd hold (hnew j)
      · exact hsound.mounted.distinct j k m hold hold'

theorem Sound.clears (hsound : Sound s) (htypes : s'.types = s.types)
    (hworkdir : s'.workdir = s.workdir) (htable : s'.table = s.table.set i emptyEntry)
    (hdevice : forall id, (s'.device id).refCount ≤ (s.device id).refCount) : Sound s' := by
  have hold {j : Nat} {m : Path} (hm : Mounted s'.table j m) : Mounted s.table j m := by
    rw [htable] at hm
    rcases mounted_set hm with ⟨_, _, hops⟩ | ⟨_, hm⟩
    · exact absurd rfl hops
    · exact hm
  refine ⟨?_, ?_, ?_, ?_, ⟨?_, ?_⟩, ?_⟩
  · rw [hworkdir]
    exact hsound.workdir
  · rw [htypes]
    exact hsound.packed
  · intro j e he hops
    rw [htable] at he
    rcases getElem?_setEntry he with rfl | he
    · rfl
    · exact hsound.cleared j e he hops
  · intro j e he hops
    rw [htable] at he
    rcases getElem?_setEntry he with rfl | he
    · exact absurd rfl hops
    · exact hsound.named j e he hops
  · intro j m hm
    exact hsound.mounted.normalised j m (hold hm)
  · intro j k m hm hm'
    exact hsound.mounted.distinct j k m (hold hm) (hold hm')
  · intro id
    exact Nat.lt_of_le_of_lt (hdevice id) (hsound.device id)

theorem Sound.register {ops : FsOperation} (hsound : Sound s)
    (hok : Orderly s (Op.register ops)) (hs : dfsRegister s ops = (s', r)) :
    Sound s' ∧ Promised s (Op.register ops) s' r := by
  obtain ⟨known, n, htypes⟩ := hsound.packed
  change none ∈ s.types ∨ HasType s.types ops.name at hok
  rw [htypes, none_mem_packed, hasType_packed] at hok
  unfold dfsRegister at hs
  unfold Promised
  rw [htypes] at hs
  simp only [htypes, hasType_packed]
  rcases @registerLoop_packed ops.name known n 0 with
    ⟨ops', hops', hname, heq⟩ | ⟨hnone, heq⟩
  · rw [heq] at hs
    cases hs
    refine ⟨hsound, fun _ => Unchanged.refl s, ?_⟩
    constructor
    · intro h
      cases h
    · intro h
      exact absurd ⟨ops', hops', hname⟩ h.2
  · have hnew : ¬ exists ops', ops' ∈ known ∧ ops'.name = ops.name := by
      rintro ⟨ops', hops', hname⟩
      exact hnone ops' hops' hname
    have hn : n ≠ 0 := hok.resolve_right hnew
    obtain ⟨k, rfl⟩ := Nat.exists_eq_succ_of_ne_zero hn
    rw [heq, if_neg (Nat.succ_ne_zero k), Nat.zero_add] at hs
    cases hs
    have hset : (known.map some ++ List.replicate (k + 1) none).set known.length (some ops) =
        (known ++ [ops]).map some ++ List.replicate k none := by
      rw [List.set_append_right _ _ (by simp), List.length_map, Nat.sub_self, List.replicate_succ]
      simp
    refine ⟨⟨hsound.workdir, ⟨known ++ [ops], k, hset⟩, hsound.cleared, hsound.named,
      hsound.mounted, hsound.device⟩, nofun, ?_⟩
    rw [show k.succ = k + 1 from rfl, hset, hasType_packed]
    refine ⟨fun _ => ⟨⟨ops, by simp, rfl⟩, hnew⟩, fun _ => rfl⟩

theorem Sound.refused (hsound : Sound s) {P : Prop} (hr : r = Result.error) :
    Sound s ∧ (r = Result.error -> Unchanged s s) ∧ (P -> r = Result.error) :=
  ⟨hsound, fun _ => Unchanged.refl s, fun _ => hr⟩

theorem Sound.mount {fstype : Path} {openDir mountOk : Bool}
    (hsound : Sound s) (htype : HasType s.types fstype ∨ none ∉ s.types)
    (hinside : StaysInside s.workdir path)
    (hspelled : forall full i, dfsNormalizePath s.workdir path = some full ->
      Mounted s.table i full -> path = full)
    (hopen : a.openDev ≠ RtErr.enosys)
    (hs : mountOn s dev path fstype openDir a mountOk = some (s', r)) :
    Sound s' ∧ (r = Result.error -> Unchanged s s') ∧
      (¬ HasType s.types fstype -> r = Result.error) := by
  obtain ⟨known, n, htypes⟩ := hsound.packed
  unfold mountOn at hs
  rcases @findType_packed fstype known n with ⟨ops, hops, hname, heq⟩ | ⟨hnone, heq⟩
  · have hthere : HasType s.types fstype := by
      rw [htypes, hasType_packed]
      exact ⟨ops, hops, hname⟩
    rw [htypes, heq] at hs
    simp only at hs
    split at hs
    · cases hs
      exact hsound.refused rfl
    · split at hs
      · cases hs
        exact hsound.refused rfl
      · next fullpath hnormal =>
          split at hs
          · cases hs
            exact hsound.refused rfl
          · split at hs
            · cases hs
              exact hsound.refused rfl
            · cases hs
              exact hsound.refused rfl
            · next i hfree =>
                obtain ⟨hplace, hother⟩ := findEntry_free hfree
                have hempty : s.table[i]? = some emptyEntry := by
                  rcases hplace with hplace | ⟨j, e, rfl, he, hunused⟩
                  · cases hplace
                  · rw [Nat.zero_add, he, hsound.cleared j e he hunused]
                have hnew : forall j, ¬ Mounted s.table j fullpath := by
                  intro j hmounted
                  have hsame := hspelled fullpath j hnormal hmounted
                  obtain ⟨e, he, hpath, hused⟩ := hmounted
                  rw [← hsame] at hpath
                  exact hother e (List.mem_of_getElem? he) hused hpath
                have hfull : Normalised fullpath :=
                  normalize_inside hsound.workdir hinside hnormal
                obtain ⟨htypes', hworkdir, hend⟩ :=
                  finishMount_spec hempty hopen hsound.device hs
                rcases hend with ⟨rfl, hunchanged⟩ | ⟨rfl, htable, hdevice⟩
                · exact ⟨hunchanged.sound hsound hworkdir, fun _ => hunchanged, fun _ => rfl⟩
                · exact ⟨hsound.mounts hfull hnew htypes' hworkdir htable hdevice, nofun,
                    fun hmissing => absurd hthere hmissing⟩
  · have hmissing : ¬ HasType s.types fstype := by
      rw [htypes, hasType_packed]
      rintro ⟨ops, hops, hname⟩
      exact hnone ops hops hname
    have hfull : n = 0 := by
      have hfilled := htype.resolve_left hmissing
      rw [htypes, none_mem_packed] at hfilled
      exact not_not.mp hfilled
    rw [htypes, heq, if_pos hfull] at hs
    cases hs
    exact hsound.refused rfl

theorem Sound.unmount {unmountOk : Bool} (hsound : Sound s)
    (hs : dfsUnmount s path unmountOk a = some (s', r)) :
    Sound s' ∧ (r = Result.error -> Unchanged s s') := by
  have hrefused (r : Result) : Sound s ∧ (r = Result.error -> Unchanged s s) :=
    ⟨hsound, fun _ => Unchanged.refl s⟩
  unfold dfsUnmount at hs
  split at hs
  · cases hs
    exact hrefused Result.error
  · next fullpath _ =>
      split at hs
      · cases hs
        exact hrefused Result.error
      · next i e hfound =>
          simp only [Option.bind_eq_some_iff, Option.map_eq_some_iff, Prod.mk.injEq] at hfound
          obtain ⟨k, hmounted, e', he, rfl, rfl⟩ := hfound
          obtain ⟨j, e, rfl, hj, hpath⟩ := findMounted_some hmounted
          rw [Nat.zero_add] at he
          rw [hj] at he
          cases he
          split at hs
          · next hunused =>
              -- a cleared entry has no path, so this one is in use
              rw [hsound.cleared j _ hj hunused] at hpath
              cases hpath
          · split at hs
            · cases hs
              exact hrefused Result.error
            · split at hs
              · cases hs
                exact ⟨hsound.clears rfl rfl rfl fun _ => Nat.le_refl _, nofun⟩
              · rw [Option.map_eq_some_iff] at hs
                obtain ⟨s1, hclose, heq⟩ := hs
                cases heq
                obtain ⟨htable, htypes, hworkdir, hcount⟩ := closeDevice_spec hclose
                have htable' : (setEntry s1 (0 + j) emptyEntry).table =
                    s.table.set (0 + j) emptyEntry := by
                  rw [setEntry, htable]
                refine ⟨hsound.clears htypes hworkdir htable' ?_, nofun⟩
                intro id
                show (s1.device id).refCount ≤ (s.device id).refCount
                rw [hcount id]
                exact Nat.sub_le _ _

theorem Sound.step {op : Op} (hsound : Sound s) (hok : Orderly s op)
    (hs : stepResult s op = some (s', r)) : Sound s' ∧ Promised s op s' r := by
  cases op with
  | register ops => exact hsound.register hok (Option.some.inj hs)
  | mount dev path fstype openDir a mountOk =>
    obtain ⟨htype, hinside, hspelled, hopen⟩ := hok
    cases dev with
    | null => exact hsound.mount htype hinside hspelled hopen hs
    | missing =>
      cases hs
      exact hsound.refused rfl
    | found id => exact hsound.mount htype hinside hspelled hopen hs
  | unmount path unmountOk a =>
    obtain ⟨hsound', hunchanged⟩ := hsound.unmount hs
    exact ⟨hsound', hunchanged, trivial⟩

theorem Initial.sound (hinit : Initial s) : Sound s := by
  obtain ⟨n, htypes⟩ := hinit.types
  obtain ⟨m, htable⟩ := hinit.table
  have hempty {j : Nat} {e : DfsFilesystem} (he : s.table[j]? = some e) : e = emptyEntry := by
    rw [htable, List.getElem?_replicate] at he
    split at he
    · exact (Option.some.inj he).symm
    · cases he
  have hnone {j : Nat} {m : Path} : ¬ Mounted s.table j m := by
    rintro ⟨e, he, _, hops⟩
    rw [hempty he] at hops
    exact hops rfl
  refine ⟨hinit.workdir, ⟨[], n, htypes⟩, ?_, ?_, ⟨?_, ?_⟩, hinit.device⟩
  · intro j e he _
    exact hempty he
  · intro j e he hops
    rw [hempty he] at hops
    exact absurd rfl hops
  · intro j m hm
    exact absurd hm hnone
  · intro j k m hm _
    exact absurd hm hnone

/-!
## Runs
-/

/-- No two entries have the same path, and every path is normalised. -/
structure TableInvariant (table : List DfsFilesystem) : Prop where
  distinct : forall (j k : Nat) e e' m, table[j]? = some e -> table[k]? = some e' ->
    e.path = some m -> e'.path = some m -> j = k
  normalised : forall (j : Nat) e m, table[j]? = some e -> e.path = some m -> Normalised m

theorem Sound.tableInvariant (hsound : Sound s) : TableInvariant s.table := by
  have hmounted {j : Nat} {e : DfsFilesystem} {m : Path} (he : s.table[j]? = some e)
      (hpath : e.path = some m) : Mounted s.table j m := by
    refine ⟨e, he, hpath, ?_⟩
    intro hunused
    rw [hsound.cleared j e he hunused] at hpath
    cases hpath
  refine ⟨?_, ?_⟩
  · intro j k e e' m he he' hpath hpath'
    exact hsound.mounted.distinct j k m (hmounted he hpath) (hmounted he' hpath')
  · intro j e m he hpath
    exact hsound.mounted.normalised j m (hmounted he hpath)

/-- In every run of orderly calls the table keeps its invariant, and every orderly call keeps
its promise. -/
theorem mount_table_invariant {s0 : State} {ops : List Op} (hinit : Initial s0)
    (hrun : Run (Guarded Orderly (Graph Mount.step)) s0 ops s) :
    TableInvariant s.table ∧
      forall op s' r, Orderly s op -> stepResult s op = some (s', r) -> Promised s op s' r := by
  have hsound : Sound s := by
    refine Run.invariant Sound hinit.sound ?_ hrun
    intro s op s' hsound hs
    obtain ⟨hok, hs⟩ := hs
    change (stepResult s op).map Prod.fst = some s' at hs
    rw [Option.map_eq_some_iff] at hs
    obtain ⟨⟨s1, r⟩, hresult, rfl⟩ := hs
    exact (hsound.step hok hresult).1
  refine ⟨hsound.tableInvariant, ?_⟩
  intro op s' r hok hs
  exact (hsound.step hok hs).2

def sampleFs : FsOperation :=
  { name := ['e', 'l', 'm'], flags := 0, hasMount := true, hasUnmount := true,
    hasOpen := true, hasUnlink := true }

def sampleState : State :=
  { workdir := none
    types := [none, none]
    table := [emptyEntry, emptyEntry]
    device := fun _ => { flag := 0, openFlag := 0, refCount := 0 } }

def allWell : Answers := { init := RtErr.eok, openDev := RtErr.eok, close := RtErr.eok }

def sampleMounted : State :=
  { sampleState with
    types := [some sampleFs, none]
    table := [{ devId := none, path := some slash, ops := some sampleFs }, emptyEntry] }

def mountRoot (path : Path) : Op :=
  Op.mount DeviceArg.null path sampleFs.name true allWell true

theorem sampleState_initial : Initial sampleState :=
  ⟨nofun, ⟨2, rfl⟩, ⟨2, rfl⟩, fun _ => Nat.two_pow_pos 8⟩

theorem orderly_register : Orderly sampleState (Op.register sampleFs) :=
  Or.inl List.mem_cons_self

theorem orderly_mountRoot : Orderly { sampleState with types := [some sampleFs, none] }
    (mountRoot slash) := by
  refine ⟨Or.inl ⟨sampleFs, List.mem_cons_self, rfl⟩, ?_, ?_, by decide⟩
  · intro full hfull
    cases hfull
    decide
  · intro full i hfull _
    have hroot : dfsNormalizePath none slash = some slash := by decide
    exact Option.some.inj (hroot.symm.trans hfull)

theorem mount_table_invariant_root :
    Mounted sampleMounted.table 0 slash ∧ TableInvariant sampleMounted.table :=
  ⟨⟨_, rfl, rfl, nofun⟩,
    (mount_table_invariant sampleState_initial
      (Run.snoc (Run.snoc Run.nil ⟨orderly_register, rfl⟩)
        ⟨orderly_mountRoot, rfl⟩)).1⟩

/-- The root is mounted twice, as `/` and as `//`. -/
theorem mount_table_breaks :
    ¬ forall (s0 s : State) (ops : List Op), Initial s0 -> Run (Graph Mount.step) s0 ops s ->
      TableInvariant s.table ∧
        forall op s' r, stepResult s op = some (s', r) -> Promised s op s' r := by
  intro hclaim
  have hrun := run_of_exec (show exec Mount.step sampleState
    [Op.register sampleFs, mountRoot slash, mountRoot ['/', '/']] = some _ from rfl)
  have hdistinct := (hclaim _ _ _ sampleState_initial hrun).1.distinct
  exact absurd (hdistinct 0 1 _ _ slash rfl rfl rfl rfl) (by decide)

end RtThread.Dfs.Mount
