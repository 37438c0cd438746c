import RtThread.Dfs.Ramfs
import RtThread.Library.Transition
import Mathlib.Data.List.Forall2
import Mathlib.Data.List.Nodup

/-!
# The names of files in memory

A ramfs that is reached through the mount table: paths are normalised and the part below the
mount point is handed over.  Beside the state stands the name that each file was given
last.
-/

namespace RtThread.Dfs

open Separated CharBuffer Transition

namespace Ramfs

/-- A mount table with a ramfs in one place, and the working directory. -/
structure Mounts where
  workdir : Path
  table : List DfsFilesystem
  place : Nat
  absolute : workdir.head? = some '/'
  nonzero : '\x00' ∉ workdir
  normalised : forall i m, Mounted table i m -> Normalised m
  ramfs : forall m ops, mountOf table place = some (m, ops) -> ops.fullPath = false

/-- The calls of the DFS layer: their paths, whether memory can be had, and which
descriptors are open. -/
inductive NameOp where
  | create (path : CPath) (flags : OpenFlags) (memory : Bool)
  | stat (path : CPath)
  | unlink (path : CPath) (memory : PathMemory) (fds : List FdFile)
  | rename (oldpath newpath : CPath)
  | getdents (fd : RamfsFd) (count : Nat)

/-!
## Operations
-/

/-- The name that the ramfs gets for a path, if the path leads to it. -/
def handed (mt : Mounts) (path : CPath) : Option Path :=
  (dfsNormalizePath (some mt.workdir) path.1).bind fun fullpath =>
    (objectOf mt.table fullpath).bind fun o => if o.1 = mt.place then some o.2 else none

/-- The argument that `dfs_file_rename` gives to the ramfs for a path, which is null for the
mount point. -/
def renameArg (mt : Mounts) (path : CPath) : Option (Option Path) :=
  (dfsNormalizePath (some mt.workdir) path.1).bind fun fullpath =>
    if dfsFilesystemLookup mt.table fullpath = some mt.place then
      (mountOf mt.table mt.place).map fun mo =>
        if mo.2.fullPath then some fullpath else dfsSubdir mo.1 fullpath
    else none

/-- The filesystem that a path leads to, if the path can be normalised. -/
def placeOf (mt : Mounts) (path : CPath) : Option (Option Nat) :=
  (dfsNormalizePath (some mt.workdir) path.1).map (dfsFilesystemLookup mt.table)

/-- `dfs_file_rename` within the ramfs, which reads both arguments; two paths under no
filesystem at all are the same one to it, and it calls through null. -/
def dfsFileRename (mt : Mounts) (fs : DfsRamfs) (oldpath newpath : CPath) :
    Option (DfsStatus × DfsRamfs) :=
  match renameArg mt oldpath, renameArg mt newpath with
  | some (some old), some (some new) => dfsRamfsRename fs old new
  | some none, some _ => none
  | some _, some none => none
  | _, _ =>
    if placeOf mt oldpath = some none ∧ placeOf mt newpath = some none then none
    else some (DfsStatus.eio, fs)

/-- One call; the calls that do not reach the ramfs leave it alone. -/
def nameStep (mt : Mounts) (fs : DfsRamfs) : NameOp -> Option DfsRamfs
  | NameOp.create path flags memory =>
    match handed mt path with
    | none => some fs
    | some name => (dfsRamfsOpen fs name flags memory).map Prod.snd
  | NameOp.stat path =>
    match handed mt path with
    | none => some fs
    | some name => if name = slash then some fs else (dfsRamfsStat fs name).map fun _ => fs
  | NameOp.unlink path memory fds =>
    match dfsFileUnlink memory (some mt.workdir) mt.table fds path.1 with
    | UnlinkResult.unlinked i name =>
      if i = mt.place then (dfsRamfsUnlink fs name).map Prod.snd else some fs
    | _ => some fs
  | NameOp.rename oldpath newpath => (dfsFileRename mt fs oldpath newpath).map Prod.snd
  | NameOp.getdents _ _ => some fs

/-- The file that a rename gives a name to, and the name. -/
def renamed (mt : Mounts) (fs : DfsRamfs) (oldpath newpath : CPath) : Option (Nat × Path) :=
  match renameArg mt oldpath, renameArg mt newpath with
  | some (some old), some (some new) =>
    match dfsRamfsLookup fs new, dfsRamfsLookup fs old with
    | some none, some (some (RamfsEntry.file f)) => some (f.id, subpath new)
    | _, _ => none
  | _, _ => none

def nameRecord (mt : Mounts) (fs : DfsRamfs) (op : NameOp) (fs' : DfsRamfs)
    (h : List (Nat × Path)) : List (Nat × Path) :=
  match op with
  | NameOp.create path _ _ =>
    match handed mt path with
    | none => h
    | some name => if fs.next < fs'.next then (fs.next, subpath name) :: h else h
  | NameOp.unlink _ _ _ => h.filter fun g => fs'.files.any fun f => f.id = g.1
  | NameOp.rename oldpath newpath =>
    match renamed mt fs oldpath newpath with
    | none => h
    | some (id, name) => h.map fun g => if g.1 = id then (id, name) else g
  | _ => h

/-!
## What is promised
-/

/-- The entries hold the names that were given: short, different, and none empty. -/
structure Consistent (fs : DfsRamfs) (h : List (Nat × Path)) : Prop where
  hasRoot : fs.hasRoot = true
  stored : List.Forall₂ (fun f g => f.id = g.1 ∧ f.name = strncpy g.2 ramfsNameMax)
    fs.files h
  proper : forall g, g ∈ h -> g.2 ≠ [] ∧ '\x00' ∉ g.2 ∧ g.2.length < ramfsNameMax
  ids : (h.map Prod.fst).Nodup
  names : (h.map Prod.snd).Nodup
  fresh : forall g, g ∈ h -> g.1 < fs.next

/-- A created name leaves room for the terminator, a rename does not reach the ramfs or is
refused by it, and the mount point is not unlinked. -/
def Regular (mt : Mounts) (fs : DfsRamfs) : NameOp -> Prop
  | NameOp.create path flags memory => forall name, handed mt path = some name ->
      dfsRamfsLookup fs name = some none -> flags.directory = false ->
      (flags.creat ∨ flags.wronly) -> memory = true -> (subpath name).length < ramfsNameMax
  | NameOp.unlink path _ _ => handed mt path ≠ some slash
  | NameOp.rename oldpath newpath => forall old new, renameArg mt oldpath = some old ->
      renameArg mt newpath = some new -> exists o n, old = some o ∧ new = some n ∧
        (dfsRamfsLookup fs n ≠ some none ∨ dfsRamfsLookup fs o = some none)
  | _ => True

/-!
## Names that are handed over
-/

section Handed

variable {mt : Mounts} {path : CPath} {name full : Path}

theorem Mounts.isAbsolute (mt : Mounts) : Absolute (some mt.workdir) mt.table := by
  constructor
  · rintro d ⟨⟩
    exact mt.absolute
  · intro i m hm
    obtain ⟨cs, rfl, _⟩ := mt.normalised i m hm
    exact head?_render cs

theorem nonzero_of_drop {n : Nat} (hfull : '\x00' ∉ full) : '\x00' ∉ full.drop n :=
  fun h => hfull (List.drop_subset n full h)

theorem dfsSubdir_nonzero {m sub : Path} (hfull : '\x00' ∉ full)
    (hsub : dfsSubdir m full = some sub) : '\x00' ∉ sub := by
  unfold dfsSubdir at hsub
  split at hsub
  · cases hsub
  · simp only at hsub
    split at hsub
    · cases hsub
      exact nonzero_of_drop hfull
    · cases hsub
      exact nonzero_of_drop hfull

theorem handed_spec (hname : handed mt path = some name) :
    '\x00' ∉ name ∧ (subpath name = [] -> name = slash) := by
  unfold handed at hname
  simp only [Option.bind_eq_some_iff] at hname
  obtain ⟨full, hfull, ⟨i, name'⟩, hobject, hif⟩ := hname
  split at hif
  · next hplace =>
      cases hif
      subst hplace
      obtain ⟨m, ops, hlookup, hmount, rfl⟩ := objectOf_eq hobject
      have hnonzero := normalize_nonzero mt.absolute mt.nonzero path.2 hfull
      have hnormal := normalised_of_lookup mt.isAbsolute hfull hlookup
      have hm := mt.normalised _ m (mounted_of_mountOf hmount)
      obtain ⟨cs, es, rfl, rfl, hall⟩ :=
        (passes_iff hm hnormal).mp (lookup_passes hlookup hmount)
      unfold handedName
      rw [mt.ramfs _ ops hmount, if_neg (by decide)]
      constructor
      · unfold nameBelow
        cases hsub : dfsSubdir (render '/' cs) (render '/' (cs ++ es)) with
        | none =>
          show '\x00' ∉ slash
          decide
        | some sub => exact dfsSubdir_nonzero hnonzero hsub
      · rw [nameBelow_render hall]
        intro hempty
        cases es with
        | nil => rfl
        | cons e es =>
          have he := (hall e (by simp)).1
          cases e with
          | nil => exact absurd rfl he.1
          | cons a e =>
            have ha : a ≠ '/' := fun h => he.2 (h ▸ List.mem_cons_self)
            rw [render_eq_body (List.cons_ne_nil _ _), body_cons] at hempty
            simp [subpath, ha] at hempty
  · cases hif

theorem renameArg_nonzero (harg : renameArg mt path = some (some name)) : '\x00' ∉ name := by
  unfold renameArg at harg
  rw [Option.bind_eq_some_iff] at harg
  obtain ⟨full, hfull, harg⟩ := harg
  have hnonzero := normalize_nonzero mt.absolute mt.nonzero path.2 hfull
  split at harg
  · rw [Option.map_eq_some_iff] at harg
    obtain ⟨⟨m, ops⟩, hmount, harg⟩ := harg
    simp only [mt.ramfs m ops hmount] at harg
    exact dfsSubdir_nonzero hnonzero harg
  · cases harg

theorem unlink_handed {memory : PathMemory} {fds : List FdFile}
    (hunlink : dfsFileUnlink memory (some mt.workdir) mt.table fds path.1 =
      UnlinkResult.unlinked mt.place name) : handed mt path = some name := by
  unfold dfsFileUnlink at hunlink
  unfold handed objectOf
  cases hfull : normalizeIf memory.unlink (some mt.workdir) path.1 with
  | none =>
    rw [hfull] at hunlink
    cases hunlink
  | some full =>
    rw [normalizeIf_eq_some hfull]
    simp only [hfull] at hunlink
    cases hlookup : dfsFilesystemLookup mt.table full with
    | none =>
      rw [hlookup] at hunlink
      cases hunlink
    | some i =>
      simp only [hlookup] at hunlink
      split at hunlink
      · cases hunlink
      · cases hmount : mountOf mt.table i with
        | none =>
          rw [hmount] at hunlink
          cases hunlink
        | some mo =>
          simp only [hmount] at hunlink
          split at hunlink
          · cases hunlink
            simp [hlookup, hmount]
          · cases hunlink

end Handed

/-!
## Looking up
-/

section Lookup

variable {fs fs' : DfsRamfs} {h : List (Nat × Path)} {name path : Path} {f : RamfsDirent}

theorem lookupLoop_spec {files : List RamfsDirent}
    (hstored : List.Forall₂ (fun f g => f.id = g.1 ∧ f.name = strncpy g.2 ramfsNameMax) files h)
    (hproper : forall g, g ∈ h -> g.2 ≠ [] ∧ '\x00' ∉ g.2 ∧ g.2.length < ramfsNameMax)
    (hname : '\x00' ∉ name) :
    (lookupLoop name files = some none ∧ forall g, g ∈ h -> g.2 ≠ name) ∨
      exists f, f ∈ files ∧ lookupLoop name files = some (some (RamfsEntry.file f)) ∧
        (f.id, name) ∈ h := by
  induction hstored with
  | nil => exact Or.inl ⟨rfl, nofun⟩
  | @cons f g files h hfirst hrest ih =>
    obtain ⟨hne, hzero, hshort⟩ := hproper g List.mem_cons_self
    have hcmp : strcmpEq f.name name = some (decide (g.2 = name)) := by
      rw [hfirst.2]
      exact strcmpEq_strncpy hzero hname hshort
    rw [lookupLoop, hcmp]
    by_cases heq : g.2 = name
    · refine Or.inr ⟨f, List.mem_cons_self, by simp [heq], ?_⟩
      rw [hfirst.1, ← heq]
      exact List.mem_cons_self
    · rw [decide_eq_false heq]
      rcases ih fun g hg => hproper g (List.mem_cons_of_mem _ hg) with
        ⟨hnone, hother⟩ | ⟨f', hf', hfound, hin⟩
      · refine Or.inl ⟨hnone, fun g' hg' => ?_⟩
        rcases List.mem_cons.mp hg' with rfl | hg'
        · exact heq
        · exact hother g' hg'
      · exact Or.inr ⟨f', List.mem_cons_of_mem f hf', hfound, List.mem_cons_of_mem g hin⟩

theorem Consistent.lookup (hc : Consistent fs h) (hpath : '\x00' ∉ path) :
    (subpath path = [] ∧ dfsRamfsLookup fs path = some (some RamfsEntry.root)) ∨
      (subpath path ≠ [] ∧ dfsRamfsLookup fs path = some none ∧
        forall g, g ∈ h -> g.2 ≠ subpath path) ∨
      (subpath path ≠ [] ∧ exists f, f ∈ fs.files ∧
        dfsRamfsLookup fs path = some (some (RamfsEntry.file f)) ∧
        (f.id, subpath path) ∈ h) := by
  have hsub : '\x00' ∉ subpath path :=
    fun hin => hpath ((List.dropWhile_sublist _).subset hin)
  unfold dfsRamfsLookup
  by_cases hempty : subpath path = []
  · exact Or.inl ⟨hempty, if_pos hempty⟩
  · rw [if_neg hempty]
    rcases lookupLoop_spec hc.stored hc.proper hsub with hnone | hfound
    · exact Or.inr (Or.inl ⟨hempty, hnone⟩)
    · exact Or.inr (Or.inr ⟨hempty, hfound⟩)

theorem Consistent.map_id (hc : Consistent fs h) :
    fs.files.map RamfsDirent.id = h.map Prod.fst := by
  have hstored := hc.stored
  generalize fs.files = files at hstored
  clear hc
  induction hstored with
  | nil => rfl
  | cons hfirst _ ih => rw [List.map_cons, List.map_cons, hfirst.1, ih]

theorem Consistent.file_ext {f' : RamfsDirent} (hc : Consistent fs h) (hf : f ∈ fs.files)
    (hf' : f' ∈ fs.files) (hid : f.id = f'.id) : f = f' :=
  List.inj_on_of_nodup_map (hc.map_id ▸ hc.ids) hf hf' hid

theorem Consistent.file_of_name {g : Nat × Path} (hc : Consistent fs h) (hg : g ∈ h) :
    exists f, f ∈ fs.files ∧ f.id = g.1 := by
  have hin : g.1 ∈ fs.files.map RamfsDirent.id := hc.map_id ▸ List.mem_map.mpr ⟨g, hg, rfl⟩
  exact List.mem_map.mp hin

theorem Consistent.name_of_file (hc : Consistent fs h) (hf : f ∈ fs.files) :
    exists g, g ∈ h ∧ g.1 = f.id := by
  have hin : f.id ∈ h.map Prod.fst := hc.map_id ▸ List.mem_map.mpr ⟨f, hf, rfl⟩
  exact List.mem_map.mp hin

theorem Consistent.pair_ext {g g' : Nat × Path} (hc : Consistent fs h) (hg : g ∈ h)
    (hg' : g' ∈ h) (heq : g.1 = g'.1 ∨ g.2 = g'.2) : g = g' := by
  rcases heq with heq | heq
  · exact List.inj_on_of_nodup_map hc.ids hg hg' heq
  · exact List.inj_on_of_nodup_map hc.names hg hg' heq

theorem Consistent.found_iff (hc : Consistent fs h) (hf : f ∈ fs.files)
    (hpath : '\x00' ∉ path) :
    dfsRamfsLookup fs path = some (some (RamfsEntry.file f)) <-> (f.id, subpath path) ∈ h := by
  rcases hc.lookup hpath with ⟨hempty, hroot⟩ | ⟨_, hnone, hother⟩ |
    ⟨_, f', hf', hfound, hin⟩
  · rw [hroot]
    refine ⟨nofun, fun hin => ?_⟩
    exact absurd hempty (hc.proper _ hin).1
  · rw [hnone]
    exact ⟨nofun, fun hin => absurd rfl (hother _ hin)⟩
  · rw [hfound]
    constructor
    · intro heq
      cases heq
      exact hin
    · intro hin'
      have hpair := hc.pair_ext hin hin' (Or.inr rfl)
      rw [hc.file_ext hf' hf (congrArg Prod.fst hpair)]

theorem Consistent.map_dName (hc : Consistent fs h) :
    (fs.files.map fun f => (shown f).dName) = h.map fun g => strncpy g.2 ramfsNameMax := by
  have hstored := hc.stored
  have hproper := hc.proper
  generalize fs.files = files at hstored
  clear hc
  induction hstored with
  | nil => rfl
  | @cons f g files h hfirst _ ih =>
    obtain ⟨_, hzero, hshort⟩ := hproper g List.mem_cons_self
    have hname : f.name.takeWhile (fun c => c ≠ '\x00') = g.2 := by
      have hcontent := content_strncpy hzero hshort
      rw [hfirst.2]
      unfold content at hcontent
      split at hcontent
      · exact Option.some.inj hcontent
      · cases hcontent
    rw [List.map_cons, List.map_cons, ih fun g hg => hproper g (List.mem_cons_of_mem _ hg)]
    unfold shown
    rw [hname]

theorem Consistent.shown_nodup (hc : Consistent fs h) :
    (fs.files.map fun f => (shown f).dName).Nodup := by
  rw [hc.map_dName]
  have hnames := hc.names
  refine List.Nodup.map_on ?_ (List.Nodup.of_map _ hnames)
  intro g hg g' hg' heq
  obtain ⟨_, hzero, hshort⟩ := hc.proper g hg
  obtain ⟨_, hzero', hshort'⟩ := hc.proper g' hg'
  have hcontent := content_strncpy hzero hshort
  rw [heq, content_strncpy hzero' hshort'] at hcontent
  exact hc.pair_ext hg hg' (Or.inr (Option.some.inj hcontent).symm)

/-!
## Steps
-/

theorem Consistent.setEntry {f' : RamfsDirent} (hc : Consistent fs h) (hf : f ∈ fs.files)
    (hid : f'.id = f.id) (hname : f'.name = f.name) : Consistent (Ramfs.setEntry fs f') h := by
  refine ⟨hc.hasRoot, ?_, hc.proper, hc.ids, hc.names, hc.fresh⟩
  show List.Forall₂ _ (fs.files.map fun g => if g.id = f'.id then f' else g) h
  rw [List.forall₂_map_left_iff]
  have hstored := (List.forall₂_and_left fs.files h).mpr ⟨fun _ => id, hc.stored⟩
  refine hstored.imp ?_
  rintro e g ⟨he, heid, hename⟩
  split
  · next heq =>
      have hsame := hc.file_ext he hf (heq.trans hid)
      rw [hid, hname, ← hsame]
      exact ⟨heid, hename⟩
  · exact ⟨heid, hename⟩

theorem open_directory {flags : OpenFlags} {memory : Bool} (hdir : flags.directory = true)
    (hopen : (dfsRamfsOpen fs name flags memory).map Prod.snd = some fs') : fs' = fs := by
  unfold dfsRamfsOpen at hopen
  rw [if_pos hdir] at hopen
  split at hopen
  · cases hopen
    rfl
  · rw [Option.map_map, Option.map_eq_some_iff] at hopen
    obtain ⟨r, _, hr⟩ := hopen
    cases r with
    | none => exact hr.symm
    | some entry => exact hr.symm

theorem Consistent.insert (hc : Consistent fs h) (hne : name ≠ []) (hzero : '\x00' ∉ name)
    (hshort : name.length < ramfsNameMax) (hother : forall g, g ∈ h -> g.2 ≠ name)
    (hid : f.id = fs.next) (hname : f.name = strncpy name ramfsNameMax) :
    Consistent { fs with files := f :: fs.files, next := fs.next + 1 } ((fs.next, name) :: h) := by
  refine ⟨hc.hasRoot, List.Forall₂.cons ⟨hid, hname⟩ hc.stored, ?_, ?_, ?_, ?_⟩
  · intro g hg
    rcases List.mem_cons.mp hg with rfl | hg
    · exact ⟨hne, hzero, hshort⟩
    · exact hc.proper g hg
  · rw [List.map_cons, List.nodup_cons]
    refine ⟨fun hin => ?_, hc.ids⟩
    obtain ⟨g, hg, heq⟩ := List.mem_map.mp hin
    exact Nat.ne_of_lt (hc.fresh g hg) heq
  · rw [List.map_cons, List.nodup_cons]
    refine ⟨fun hin => ?_, hc.names⟩
    obtain ⟨g, hg, heq⟩ := List.mem_map.mp hin
    exact hother g hg heq
  · intro g hg
    rcases List.mem_cons.mp hg with rfl | hg
    · exact Nat.lt_succ_self _
    · exact Nat.lt_succ_of_lt (hc.fresh g hg)

theorem Consistent.create {flags : OpenFlags} {memory : Bool} (hc : Consistent fs h)
    (hname : '\x00' ∉ name)
    (hshort : dfsRamfsLookup fs name = some none -> flags.directory = false ->
      (flags.creat ∨ flags.wronly) -> memory = true -> (subpath name).length < ramfsNameMax)
    (hopen : (dfsRamfsOpen fs name flags memory).map Prod.snd = some fs') :
    Consistent fs' (if fs.next < fs'.next then (fs.next, subpath name) :: h else h) := by
  by_cases hdir : flags.directory = true
  · rw [open_directory hdir hopen, if_neg (Nat.lt_irrefl _)]
    exact hc
  · unfold dfsRamfsOpen at hopen
    rw [if_neg hdir] at hopen
    rcases hc.lookup hname with ⟨_, hlookup⟩ | ⟨hne, hlookup, hother⟩ |
      ⟨_, f, hf, hlookup, _⟩
    · rw [hlookup] at hopen
      cases hopen
      rw [if_neg (Nat.lt_irrefl _)]
      exact hc
    · rw [hlookup] at hopen
      simp only [Option.map_some, Option.some.injEq] at hopen
      split at hopen
      · next hcreat =>
          split at hopen
          · next hmem =>
              subst hopen
              have hlen := hshort hlookup (by simpa using hdir) hcreat hmem
              have hzero : '\x00' ∉ subpath name :=
                fun hin => hname ((List.dropWhile_sublist _).subset hin)
              rw [if_pos (Nat.lt_succ_self _)]
              exact hc.insert hne hzero hlen hother rfl rfl
          · subst hopen
            rw [if_neg (Nat.lt_irrefl _)]
            exact hc
      · subst hopen
        rw [if_neg (Nat.lt_irrefl _)]
        exact hc
    · rw [hlookup] at hopen
      simp only [Option.map_some, Option.some.injEq] at hopen
      subst hopen
      rw [if_neg (show ¬ fs.next < (Ramfs.setEntry fs (truncate flags f)).next from
        Nat.lt_irrefl fs.next)]
      refine hc.setEntry hf ?_ ?_
      · unfold truncate
        split <;> rfl
      · unfold truncate
        split <;> rfl

theorem Consistent.unlink (hc : Consistent fs h) (hname : '\x00' ∉ name)
    (hroot : subpath name ≠ [])
    (hunlink : (dfsRamfsUnlink fs name).map Prod.snd = some fs') :
    Consistent fs' (h.filter fun g => fs'.files.any fun f => f.id = g.1) := by
  unfold dfsRamfsUnlink at hunlink
  rcases hc.lookup hname with ⟨hempty, _⟩ | ⟨_, hlookup, _⟩ | ⟨_, f, _, hlookup, _⟩
  · exact absurd hempty hroot
  · rw [hlookup] at hunlink
    cases hunlink
    rw [List.filter_eq_self.mpr]
    · exact hc
    · intro g hg
      obtain ⟨f, hf, heq⟩ := hc.file_of_name hg
      exact List.any_eq_true.mpr ⟨f, hf, decide_eq_true heq⟩
  · rw [hlookup] at hunlink
    cases hunlink
    have hfilter : (h.filter fun g =>
        (fs.files.filter fun e => e.id ≠ f.id).any fun e => e.id = g.1) =
        h.filter fun g => g.1 ≠ f.id := by
      refine List.filter_congr fun g hg => ?_
      rw [Bool.eq_iff_iff, List.any_eq_true, decide_eq_true_eq]
      constructor
      · rintro ⟨e, he, heq⟩
        have hne := (List.mem_filter.mp he).2
        rw [decide_eq_true_eq] at heq hne
        rwa [← heq]
      · intro hne
        obtain ⟨e, he, heq⟩ := hc.file_of_name hg
        refine ⟨e, List.mem_filter.mpr ⟨he, ?_⟩, decide_eq_true heq⟩
        rw [decide_eq_true_eq, heq]
        exact hne
    rw [hfilter]
    have hsub : (h.filter fun g => g.1 ≠ f.id).Sublist h := List.filter_sublist
    refine ⟨hc.hasRoot, ?_, fun g hg => hc.proper g (hsub.subset hg),
      hc.ids.sublist (hsub.map _), hc.names.sublist (hsub.map _),
      fun g hg => hc.fresh g (hsub.subset hg)⟩
    refine List.rel_filter ?_ hc.stored
    intro e g heg
    simp only [heg.1]

theorem Consistent.rename_refused {o n : Path} (hc : Consistent fs h) (hn : '\x00' ∉ n)
    (hrefused : dfsRamfsLookup fs n ≠ some none ∨ dfsRamfsLookup fs o = some none)
    (hrename : (dfsRamfsRename fs o n).map Prod.snd = some fs') : fs' = fs := by
  unfold dfsRamfsRename at hrename
  rcases hc.lookup hn with ⟨_, hlookup⟩ | ⟨_, hlookup, _⟩ | ⟨_, f, _, hlookup, _⟩
  · rw [hlookup] at hrename
    cases hrename
    rfl
  · rw [hlookup, Option.bind_some] at hrename
    rcases hrefused with hbusy | hmissing
    · exact absurd hlookup hbusy
    · simp only [hmissing, Option.map_some, Option.some.injEq] at hrename
      exact hrename.symm
  · rw [hlookup] at hrename
    cases hrename
    rfl

end Lookup

/-!
## Reading the directory
-/

theorem getdentsLoop_eq (files : List RamfsDirent) {index pos : Nat} (hle : index ≤ pos)
    (count : Nat) :
    getdentsLoop files index (pos + count) pos = (((files.drop (pos - index)).take count).map shown,
        pos + min count (files.length - (pos - index))) := by
  induction files generalizing index pos count with
  | nil => simp [getdentsLoop]
  | cons f rest ih =>
    rw [getdentsLoop]
    rcases Nat.lt_or_eq_of_le hle with hlt | rfl
    · rw [if_pos (by omega), if_neg (by omega), ih hlt]
      obtain ⟨k, hk⟩ : exists k, pos - index = k + 1 := ⟨pos - index - 1, by omega⟩
      rw [hk, show pos - (index + 1) = k by omega, List.drop_succ_cons, List.length_cons,
        Nat.add_sub_add_right]
    · cases count with
      | zero => rw [if_neg (by omega), Nat.zero_min]; simp
      | succ count =>
        rw [if_pos (by omega), if_pos (Nat.le_refl _),
          show index + (count + 1) = index + 1 + count by omega, ih (Nat.le_refl _)]
        simp only [Nat.sub_self, List.drop_zero, List.take_succ_cons, List.map_cons,
          List.length_cons, Nat.sub_zero]
        congr 1
        omega

/-- Reading on with one call after the other, until a call gives nothing. -/
def readAll (fs : DfsRamfs) : List Nat -> RamfsFd -> List Dirent × RamfsFd
  | [], fd => ([], fd)
  | count :: rest, fd =>
    match dfsRamfsGetdents fs fd count with
    | (Except.error _, fd') => ([], fd')
    | (Except.ok ds, fd') =>
      let r := readAll fs rest fd'
      (ds ++ r.1, r.2)

/-- How many records fit into the buffers of several calls. -/
def records (counts : List Nat) : Nat := (counts.map fun c => c / direntSize).sum

section Reading

variable {fs : DfsRamfs} {fd : RamfsFd} {count : Nat} {counts : List Nat}

theorem getdents_eq (hroot : fd.data = RamfsEntry.root) (hcount : count / direntSize ≠ 0) :
    dfsRamfsGetdents fs fd count =
      (Except.ok (((fs.files.drop fd.pos).take (count / direntSize)).map shown),
        { fd with pos := fd.pos + min (count / direntSize) (fs.files.length - fd.pos) }) := by
  unfold dfsRamfsGetdents
  rw [if_pos ⟨hroot, hcount⟩, getdentsLoop_eq fs.files (Nat.zero_le _)]
  rfl

theorem readAll_eq (hroot : fd.data = RamfsEntry.root)
    (hcounts : forall c, c ∈ counts -> c / direntSize ≠ 0) :
    readAll fs counts fd = (((fs.files.drop fd.pos).take (records counts)).map shown,
        { fd with pos := fd.pos + min (records counts) (fs.files.length - fd.pos) }) := by
  induction counts generalizing fd with
  | nil => simp [readAll, records]
  | cons count rest ih =>
    have hone := @getdents_eq fs fd count hroot (hcounts count List.mem_cons_self)
    rw [readAll, hone]
    simp only
    have hrest := @ih ⟨fd.data, fd.size,
        fd.pos + min (count / direntSize) (fs.files.length - fd.pos)⟩ hroot
      fun c hc => hcounts c (List.mem_cons_of_mem count hc)
    rw [hrest, show records (count :: rest) = count / direntSize + records rest from List.sum_cons]
    generalize count / direntSize = n, records rest = total
    -- behind the end there is nothing to drop
    have hdrop : fs.files.drop (fd.pos + min n (fs.files.length - fd.pos)) =
        (fs.files.drop fd.pos).drop n := by
      rw [List.drop_drop]
      rcases Nat.le_total n (fs.files.length - fd.pos) with hle | hle
      · rw [Nat.min_eq_left hle]
      · rw [Nat.min_eq_right hle, List.drop_of_length_le (by omega),
          List.drop_of_length_le (by omega)]
    have hpos : fd.pos + min n (fs.files.length - fd.pos) +
        min total (fs.files.length - (fd.pos + min n (fs.files.length - fd.pos))) =
        fd.pos + min (n + total) (fs.files.length - fd.pos) := by
      omega
    simp only [hdrop, hpos, ← List.map_append, ← List.take_add]

theorem readAll_complete (hroot : fd.data = RamfsEntry.root) (hpos : fd.pos = 0)
    (hcounts : forall c, c ∈ counts -> c / direntSize ≠ 0)
    (hlast : (dfsRamfsGetdents fs (readAll fs counts fd).2 count).1 = Except.ok []) :
    (readAll fs counts fd).1 = fs.files.map shown := by
  have hdata : (readAll fs counts fd).2.data = RamfsEntry.root := by
    rw [readAll_eq hroot hcounts]
    exact hroot
  have hcount : count / direntSize ≠ 0 := by
    intro hzero
    unfold dfsRamfsGetdents at hlast
    rw [if_neg (fun h => h.2 hzero)] at hlast
    cases hlast
  rw [getdents_eq hdata hcount, readAll_eq hroot hcounts] at hlast
  simp only [Except.ok.injEq, List.map_eq_nil_iff, List.take_eq_nil_iff, hcount, false_or,
    List.drop_eq_nil_iff] at hlast
  rw [readAll_eq hroot hcounts, hpos, List.drop_zero, List.take_of_length_le]
  omega

end Reading

/-!
## Runs
-/

section Step

variable {mt : Mounts} {fs fs' : DfsRamfs} {h : List (Nat × Path)}

theorem nameStep_stat {path : CPath} (hs : nameStep mt fs (NameOp.stat path) = some fs') :
    fs' = fs := by
  rw [nameStep] at hs
  split at hs
  · cases hs
    rfl
  · split at hs
    · cases hs
      rfl
    · rw [Option.map_eq_some_iff] at hs
      obtain ⟨_, _, heq⟩ := hs
      exact heq.symm

theorem Consistent.unlink_step {path : CPath} {memory : PathMemory} {fds : List FdFile}
    (hc : Consistent fs h) (hok : Regular mt fs (NameOp.unlink path memory fds))
    (hs : nameStep mt fs (NameOp.unlink path memory fds) = some fs') :
    Consistent fs' (nameRecord mt fs (NameOp.unlink path memory fds) fs' h) := by
  have hkeep : Consistent fs (h.filter fun g => fs.files.any fun f => f.id = g.1) := by
    rw [List.filter_eq_self.mpr]
    · exact hc
    · intro g hg
      obtain ⟨f, hf, heq⟩ := hc.file_of_name hg
      exact List.any_eq_true.mpr ⟨f, hf, decide_eq_true heq⟩
  rw [nameStep] at hs
  show Consistent fs' (h.filter fun g => fs'.files.any fun f => f.id = g.1)
  split at hs
  · next i name hunlink =>
      split at hs
      · next hplace =>
          subst hplace
          have hhanded := unlink_handed hunlink
          have hspec := handed_spec hhanded
          refine hc.unlink hspec.1 (fun hempty => ?_) hs
          exact hok (hspec.2 hempty ▸ hhanded)
      · cases hs
        exact hkeep
  · cases hs
    exact hkeep

theorem Consistent.rename_step {oldpath newpath : CPath} (hc : Consistent fs h)
    (hok : Regular mt fs (NameOp.rename oldpath newpath))
    (hs : nameStep mt fs (NameOp.rename oldpath newpath) = some fs') :
    Consistent fs' (nameRecord mt fs (NameOp.rename oldpath newpath) fs' h) := by
  rw [nameStep] at hs
  unfold dfsFileRename at hs
  show Consistent fs' (match renamed mt fs oldpath newpath with
    | none => h
    | some (id, name) => h.map fun g => if g.1 = id then (id, name) else g)
  unfold renamed
  -- a path that leads elsewhere leaves the ramfs alone
  have hkept : forall {q : Prop} [Decidable q],
      (if q then none else some (DfsStatus.eio, fs)).map Prod.snd = some fs' -> fs' = fs := by
    intro q _ hmap
    split at hmap
    · cases hmap
    · cases hmap
      rfl
  cases hold : renameArg mt oldpath with
  | none =>
    rw [hold] at hs
    rw [hkept hs]
    exact hc
  | some old =>
    cases hnew : renameArg mt newpath with
    | none =>
      rw [hold, hnew] at hs
      cases old with
      | none =>
        rw [hkept hs]
        exact hc
      | some o =>
        rw [hkept hs]
        exact hc
    | some new =>
      obtain ⟨o, n, rfl, rfl, hrefused⟩ := hok old new hold hnew
      rw [hold, hnew] at hs
      have hsame := hc.rename_refused (renameArg_nonzero hnew) hrefused hs
      have hnone : (match dfsRamfsLookup fs n, dfsRamfsLookup fs o with
          | some none, some (some (RamfsEntry.file f)) => some (f.id, subpath n)
          | _, _ => none) = none := by
        split
        · next hn ho =>
            rcases hrefused with h | h
            · exact absurd hn h
            · rw [h] at ho
              cases ho
        · rfl
      simp only [hnone, hsame]
      exact hc

theorem Consistent.step {op : NameOp} (hc : Consistent fs h) (hok : Regular mt fs op)
    (hs : nameStep mt fs op = some fs') : Consistent fs' (nameRecord mt fs op fs' h) := by
  cases op with
  | create path flags memory =>
    rw [nameStep] at hs
    rw [nameRecord]
    cases hhanded : handed mt path with
    | none =>
      rw [hhanded] at hs
      cases hs
      exact hc
    | some name =>
      simp only [hhanded] at hs
      exact hc.create (handed_spec hhanded).1 (hok name hhanded) hs
  | stat path =>
    rw [nameStep_stat hs]
    exact hc
  | unlink path memory fds => exact hc.unlink_step hok hs
  | rename oldpath newpath => exact hc.rename_step hok hs
  | getdents fd count =>
    cases hs
    exact hc

end Step

/-- In every run in which created names leave room for the terminator, no rename is carried
out and the mount point is not unlinked: every file is found under its last name and no
other, no two files have the same name, no look-up reads past a name, the root is in place,
and a directory read to its end shows every file once. -/
theorem ramfs_names_sound {mt : Mounts} {ops : List NameOp} {x : DfsRamfs × List (Nat × Path)}
    (hrun : Run (Guarded (fun x op => Regular mt x.1 op)
      (Graph (watched (nameStep mt) (nameRecord mt)))) (dfsRamfsCreate, []) ops x) :
    (forall f, f ∈ x.1.files -> exists name, (f.id, name) ∈ x.2 ∧
      (forall path, '\x00' ∉ path ->
        (dfsRamfsLookup x.1 path = some (some (RamfsEntry.file f)) <-> subpath path = name)) ∧
      forall f', f' ∈ x.1.files -> (f'.id, name) ∈ x.2 -> f' = f) ∧
    (forall path, '\x00' ∉ path -> dfsRamfsLookup x.1 path ≠ none) ∧
    x.1.hasRoot = true ∧
    (forall fd counts count, fd.data = RamfsEntry.root -> fd.pos = 0 ->
      (forall c, c ∈ counts -> c / direntSize ≠ 0) ->
      (dfsRamfsGetdents x.1 (readAll x.1 counts fd).2 count).1 = Except.ok [] ->
      (readAll x.1 counts fd).1 = x.1.files.map shown ∧
        (x.1.files.map fun f => (shown f).dName).Nodup) := by
  have hc : Consistent x.1 x.2 := by
    apply hrun.guarded_watched_invariant Consistent
    · exact ⟨rfl, List.Forall₂.nil, nofun, List.nodup_nil, List.nodup_nil, nofun⟩
    · intro fs h op fs' hc hok hs
      exact hc.step hok hs
  refine ⟨fun f hf => ?_, fun path hpath => ?_, hc.hasRoot, fun fd counts count hroot hpos
    hcounts hlast => ⟨readAll_complete hroot hpos hcounts hlast, ?_⟩⟩
  · obtain ⟨g, hg, hid⟩ := hc.name_of_file hf
    have hin : (f.id, g.2) ∈ x.2 := hid ▸ hg
    refine ⟨g.2, hin, fun path hpath => ?_, fun f' hf' hin' => ?_⟩
    · rw [hc.found_iff hf hpath]
      constructor
      · intro h
        exact congrArg Prod.snd (hc.pair_ext h hin (Or.inl rfl))
      · intro h
        rwa [h]
    · have hpair := hc.pair_ext hin' hin (Or.inr rfl)
      exact hc.file_ext hf' hf (congrArg Prod.fst hpair)
  · rcases hc.lookup hpath with ⟨_, h⟩ | ⟨_, h, _⟩ |
      ⟨_, f, _, h, _⟩ <;> rw [h] <;> nofun
  · exact hc.shown_nodup

def rootMounts : Mounts where
  workdir := slash
  table := [mountAt slash 0]
  place := 0
  absolute := rfl
  nonzero := by decide
  normalised := by
    rintro i m ⟨e, he, hm, _⟩
    cases i with
    | zero =>
      cases he
      cases hm
      exact ⟨[], rfl, nofun⟩
    | succ i => cases he
  ramfs := by
    intro m ops hmount
    cases hmount
    rfl

def created : OpenFlags := ⟨false, true, false, false, false⟩

/-- A file is created and found by its name, and a rename onto a name that is taken is
refused. -/
theorem ramfs_names_sound_refused :
    dfsRamfsLookup ⟨[⟨0, strncpy ['a'] 32, none, 0⟩], true, 1⟩ ['/', 'a'] =
      some (some (RamfsEntry.file ⟨0, strncpy ['a'] 32, none, 0⟩)) ∧
    forall path, '\x00' ∉ path ->
      dfsRamfsLookup ⟨[⟨0, strncpy ['a'] 32, none, 0⟩], true, 1⟩ path ≠ none := by
  have hcreate : Run (Guarded (fun x op => Regular rootMounts x.1 op)
      (Graph (watched (nameStep rootMounts) (nameRecord rootMounts)))) (dfsRamfsCreate, [])
      [NameOp.create ⟨['/', 'a'], by decide⟩ created true]
      (⟨[⟨0, strncpy ['a'] 32, none, 0⟩], true, 1⟩, [(0, ['a'])]) := by
    refine Run.snoc Run.nil ⟨?_, rfl⟩
    rintro name ⟨⟩ _ _ _ _
    decide
  have hrename : Run (Guarded (fun x op => Regular rootMounts x.1 op)
      (Graph (watched (nameStep rootMounts) (nameRecord rootMounts)))) (dfsRamfsCreate, [])
      [NameOp.create ⟨['/', 'a'], by decide⟩ created true,
        NameOp.rename ⟨['a'], by decide⟩ ⟨['/', 'a'], by decide⟩]
      (⟨[⟨0, strncpy ['a'] 32, none, 0⟩], true, 1⟩, [(0, ['a'])]) := by
    refine Run.snoc hcreate ⟨?_, rfl⟩
    rintro old new ⟨⟩ ⟨⟩
    exact ⟨['/', 'a'], ['/', 'a'], rfl, rfl, Or.inl (by decide)⟩
  obtain ⟨hfiles, hlookup, _⟩ := ramfs_names_sound hrename
  obtain ⟨name, hin, hfound, _⟩ := hfiles _ List.mem_cons_self
  have hname : name = ['a'] := congrArg Prod.snd (List.mem_singleton.mp hin)
  exact ⟨(hfound ['/', 'a'] (by decide)).mpr hname.symm, hlookup⟩

/-- After a successful rename the file is found under neither name; a name of 32 characters
is read past its end; unlinking the mount point takes the root away. -/
theorem ramfs_names_broken :
    (exists fs, exec (nameStep rootMounts) dfsRamfsCreate
        [NameOp.create ⟨['/', 'a'], by decide⟩ created true,
          NameOp.rename ⟨['/', 'a'], by decide⟩ ⟨['/', 'b'], by decide⟩] = some fs ∧
      fs.files.length = 1 ∧ dfsRamfsLookup fs ['/', 'b'] = some none ∧
      dfsRamfsLookup fs ['/', 'a'] = some none) ∧
    (exists fs, exec (nameStep rootMounts) dfsRamfsCreate
        [NameOp.create ⟨'/' :: List.replicate 32 'a', by decide⟩ created true] = some fs ∧
      dfsRamfsLookup fs ('/' :: List.replicate 32 'a') = none) ∧
    (exists fs, exec (nameStep rootMounts) dfsRamfsCreate
        [NameOp.unlink ⟨slash, by decide⟩ ⟨true, true⟩ []] = some fs ∧
          fs.hasRoot = false) := by
  refine ⟨⟨_, rfl, rfl, ?_, ?_⟩, ⟨_, rfl, ?_⟩, _, rfl, rfl⟩
  · decide
  · decide
  · decide

end Ramfs

end RtThread.Dfs
