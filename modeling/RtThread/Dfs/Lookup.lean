import RtThread.Library.Separated

/-!
# Mounted filesystems and the look-up of a path

`dfs_filesystem_lookup` and `dfs_subdir`.  A path is the text of a C string without its
terminator, so that `strlen` is the length and `strncmp` compares the first characters.
-/

namespace RtThread.Dfs

open Separated

abbrev Path := List Char

def slash : Path := ['/']

/-- `struct dfs_filesystem_operation`: its name, its flags and which methods it has. -/
structure FsOperation where
  name : Path
  flags : Nat
  hasMount : Bool
  hasUnmount : Bool
  hasOpen : Bool
  hasUnlink : Bool
deriving DecidableEq, Repr

structure DfsFilesystem where
  devId : Option Nat
  path : Option Path
  ops : Option FsOperation
deriving DecidableEq, Repr

/-!
## Operations
-/

/-- `strncmp(s, t, n) == 0` -/
def strncmpEq (s t : Path) (n : Nat) : Bool := s.take n = t.take n

/-- One round of the loop of `dfs_filesystem_lookup`: the filesystem found so far and
`prefixlen`. -/
def lookupStep (path : Path) (e : DfsFilesystem) (i : Nat) (acc : Option Nat × Nat) :
    Option Nat × Nat :=
  match e.path, e.ops with
  | some m, some _ =>
    let fspath := m.length
    if fspath < acc.2 ∨ strncmpEq m path fspath = false then acc
    else if fspath > 1 ∧ path.length > fspath ∧ path[fspath]? ≠ some '/' then acc
    else (some i, fspath)
  | _, _ => acc

def lookupLoop (path : Path) : List DfsFilesystem -> Nat -> Option Nat × Nat ->
    Option Nat × Nat
  | [], _, acc => acc
  | e :: rest, i, acc => lookupLoop path rest (i + 1) (lookupStep path e i acc)

/-- `dfs_filesystem_lookup`: the place of the filesystem in the table. -/
def dfsFilesystemLookup (table : List DfsFilesystem) (path : Path) : Option Nat :=
  (lookupLoop path table 0 (none, 0)).1

def dfsSubdir (directory filename : Path) : Option Path :=
  if directory.length = filename.length then none
  else
    let n := directory.length
    if filename[n]? ≠ some '/' ∧ n ≠ 0 then some (filename.drop (n - 1))
    else some (filename.drop n)

/-- The name that a filesystem without `DFS_FS_FLAG_FULLPATH` gets. -/
def nameBelow (mount path : Path) : Path := (dfsSubdir mount path).getD slash

def resolve (table : List DfsFilesystem) (path : Path) : Option (Nat × Path) :=
  (dfsFilesystemLookup table path).bind fun i =>
    (table[i]?.bind DfsFilesystem.path).map fun m => (i, nameBelow m path)

/-!
## What a path means
-/

def IsComponent (c : Path) : Prop := IsName '/' c ∧ c ≠ ['.'] ∧ c ≠ ['.', '.']

/-- Normalised absolute paths: the root, or components with a slash in front of each. -/
def Normalised (p : Path) : Prop :=
  exists cs, p = render '/' cs ∧ forall c, c ∈ cs -> IsComponent c

/-- `m` equals `p` or is an ancestor of `p` at a component boundary. -/
def Ancestor (m p : Path) : Prop :=
  exists cs es, m = render '/' cs ∧ p = render '/' (cs ++ es) ∧
    forall c, c ∈ cs ++ es -> IsComponent c

def joinPath (m r : Path) : Path :=
  if m = slash then r else if r = slash then m else m ++ r

def Mounted (table : List DfsFilesystem) (i : Nat) (m : Path) : Prop :=
  exists e, table[i]? = some e ∧ e.path = some m ∧ e.ops ≠ none

/-- The mounted filesystems have pairwise distinct normalised paths. -/
structure WellMounted (table : List DfsFilesystem) : Prop where
  normalised : forall i m, Mounted table i m -> Normalised m
  distinct : forall i j m, Mounted table i m -> Mounted table j m -> i = j

/-!
## The test of one entry
-/

variable {m p : Path} {table : List DfsFilesystem}

/-- The test of the loop without the comparison with the prefix found so far. -/
def Passes (path m : Path) : Prop :=
  strncmpEq m path m.length = true ∧
    ¬ (m.length > 1 ∧ path.length > m.length ∧ path[m.length]? ≠ some '/')

theorem strncmpEq_length_iff : strncmpEq m p m.length = true <-> exists z, p = m ++ z := by
  unfold strncmpEq
  rw [decide_eq_true_eq, List.take_length]
  constructor
  · intro h
    refine ⟨p.drop m.length, ?_⟩
    have hsplit := List.take_append_drop m.length p
    rw [← h] at hsplit
    exact hsplit.symm
  · rintro ⟨z, rfl⟩
    rw [List.take_left]

theorem boundary_iff {z : Path} :
    ¬ ((m ++ z).length > m.length ∧ (m ++ z)[m.length]? ≠ some '/') <-> AtBoundary '/' z := by
  rw [List.getElem?_append_right (Nat.le_refl _), Nat.sub_self, List.length_append]
  cases z with
  | nil => simp [AtBoundary]
  | cons c z =>
    constructor
    · intro h
      have hc : c = '/' := by
        by_contra hne
        apply h
        refine ⟨?_, ?_⟩
        · rw [List.length_cons]
          omega
        · simpa using hne
      exact Or.inr ⟨z, by rw [hc]⟩
    · rintro (hnil | ⟨rest, hrest⟩)
      · cases hnil
      · rintro ⟨_, hne⟩
        apply hne
        rw [(List.cons.inj hrest).1]
        rfl

theorem isName_of_isComponent {cs : List Path} (hcs : forall c, c ∈ cs -> IsComponent c) :
    forall c, c ∈ cs -> IsName '/' c :=
  fun c hc => (hcs c hc).1

theorem passes_iff (hm : Normalised m) (hp : Normalised p) : Passes p m <-> Ancestor m p := by
  obtain ⟨cs, rfl, hcs⟩ := hm
  obtain ⟨ds, rfl, hds⟩ := hp
  unfold Passes
  rw [strncmpEq_length_iff]
  constructor
  · rintro ⟨⟨z, hz⟩, hnext⟩
    by_cases hroot : cs = []
    · subst hroot
      exact ⟨[], ds, rfl, rfl, by simpa using hds⟩
    · have hlong := two_le_length_body (isName_of_isComponent hcs) hroot
      rw [render_eq_body hroot] at hz hnext
      have hdne : ds ≠ [] := by
        rintro rfl
        have hlen := congrArg List.length hz
        rw [List.length_append] at hlen
        simp only [render, List.length_singleton] at hlen
        omega
      rw [render_eq_body hdne] at hz hnext
      have hboundary : AtBoundary '/' z := by
        rw [← boundary_iff, ← hz]
        exact fun h => hnext ⟨by omega, h⟩
      obtain ⟨es, rfl, _⟩ := body_split (isName_of_isComponent hcs)
        (isName_of_isComponent hds) hboundary hz
      exact ⟨cs, es, rfl, rfl, hds⟩
  · rintro ⟨cs', es, hcs', hes, hall⟩
    have hleft : forall c, c ∈ cs' -> IsComponent c :=
      fun c hc => hall c (List.mem_append_left _ hc)
    obtain rfl := render_injective (isName_of_isComponent hcs) (isName_of_isComponent hleft) hcs'
    rw [hes]
    by_cases hroot : cs = []
    · subst hroot
      refine ⟨?_, by simp [render]⟩
      cases es with
      | nil => exact ⟨[], rfl⟩
      | cons e es => exact ⟨e ++ body '/' es, body_cons e es⟩
    · have hne : cs ++ es ≠ [] := fun h => hroot (List.append_eq_nil_iff.mp h).1
      rw [render_eq_body hroot, render_eq_body hne, body_append]
      refine ⟨⟨_, rfl⟩, ?_⟩
      rintro ⟨_, hnext⟩
      exact boundary_iff.mpr (body_atBoundary es) hnext

/-!
## The loop
-/

/-- The entries passed so far have been searched: nothing passes the test, or a longest one
that does is remembered with its length. -/
def Searched (path : Path) (seen : List DfsFilesystem) (acc : Option Nat × Nat) : Prop :=
  (acc = (none, 0) ∧ forall i m, Mounted seen i m -> ¬ Passes path m) ∨
    (exists i m, acc = (some i, m.length) ∧ Mounted seen i m ∧ Passes path m ∧
      forall j m', Mounted seen j m' -> Passes path m' -> m'.length ≤ m.length)

theorem mounted_snoc {seen : List DfsFilesystem} {e : DfsFilesystem} {i : Nat} :
    Mounted (seen ++ [e]) i m <->
      Mounted seen i m ∨ (i = seen.length ∧ e.path = some m ∧ e.ops ≠ none) := by
  constructor
  · rintro ⟨e', he', hpath, hops⟩
    rcases Nat.lt_or_ge i seen.length with hi | hi
    · rw [List.getElem?_append_left hi] at he'
      exact Or.inl ⟨e', he', hpath, hops⟩
    · rw [List.getElem?_append_right hi, List.getElem?_singleton] at he'
      split at he'
      · cases he'
        exact Or.inr ⟨by omega, hpath, hops⟩
      · cases he'
  · rintro (⟨e', he', hpath, hops⟩ | ⟨rfl, hpath, hops⟩)
    · refine ⟨e', ?_, hpath, hops⟩
      rw [List.getElem?_append_left (List.getElem?_eq_some_iff.mp he').1]
      exact he'
    · refine ⟨e, ?_, hpath, hops⟩
      rw [List.getElem?_append_right (Nat.le_refl _), Nat.sub_self]
      rfl

theorem Searched.skip {path : Path} {seen : List DfsFilesystem} {e : DfsFilesystem}
    {acc : Option Nat × Nat} (hacc : Searched path seen acc)
    (hskip : forall m, e.path = some m -> e.ops ≠ none -> Passes path m ->
      m.length < acc.2) : Searched path (seen ++ [e]) acc := by
  rcases hacc with ⟨rfl, hnone⟩ | ⟨i, m, rfl, hm, hpasses, hlongest⟩
  · refine Or.inl ⟨rfl, fun j m' hm' hpass => ?_⟩
    rcases mounted_snoc.mp hm' with hm' | ⟨_, hpath, hops⟩
    · exact hnone j m' hm' hpass
    · exact absurd (hskip m' hpath hops hpass) (Nat.not_lt_zero _)
  · refine Or.inr ⟨i, m, rfl, mounted_snoc.mpr (Or.inl hm), hpasses, fun j m' hm' hpass => ?_⟩
    rcases mounted_snoc.mp hm' with hm' | ⟨_, hpath, hops⟩
    · exact hlongest j m' hm' hpass
    · exact Nat.le_of_lt (hskip m' hpath hops hpass)

theorem Searched.step {path : Path} {seen : List DfsFilesystem} {e : DfsFilesystem}
    {acc : Option Nat × Nat} (hacc : Searched path seen acc) :
    Searched path (seen ++ [e]) (lookupStep path e seen.length acc) := by
  unfold lookupStep
  split
  · next m ops hpath hops =>
      have hsame : forall m', e.path = some m' -> m' = m := by
        intro m' h
        rw [hpath] at h
        exact (Option.some.inj h).symm
      simp only
      split
      · next hfirst =>
          apply hacc.skip
          intro m' hm' _ hpass
          rw [hsame m' hm'] at hpass ⊢
          rcases hfirst with hless | hdiffers
          · exact hless
          · rw [hpass.1] at hdiffers
            cases hdiffers
      · next hfirst =>
          have hfront : acc.2 ≤ m.length ∧ strncmpEq m path m.length = true := by
            rw [not_or] at hfirst
            exact ⟨Nat.le_of_not_lt hfirst.1, by simpa using hfirst.2⟩
          split
          · next hnext =>
              apply hacc.skip
              intro m' hm' _ hpass
              rw [hsame m' hm'] at hpass
              exact absurd hnext hpass.2
          · next hnext =>
              have hmine : Mounted (seen ++ [e]) seen.length m :=
                mounted_snoc.mpr (Or.inr ⟨rfl, hpath, by rw [hops]; nofun⟩)
              refine Or.inr ⟨seen.length, m, rfl, hmine, ⟨hfront.2, hnext⟩, ?_⟩
              intro j m' hm' hpass
              rcases mounted_snoc.mp hm' with hm' | ⟨_, hpath', _⟩
              · rcases hacc with ⟨_, hnone⟩ | ⟨_, m0, rfl, _, _, hlongest⟩
                · exact absurd hpass (hnone j m' hm')
                · exact (hlongest j m' hm' hpass).trans hfront.1
              · rw [hsame m' hpath']
  · next hempty =>
      apply hacc.skip
      intro m hm hops _
      obtain ⟨ops, hops⟩ := Option.ne_none_iff_exists'.mp hops
      exact absurd hops (hempty m ops hm)

theorem Searched.loop {path : Path} {rest seen : List DfsFilesystem}
    {acc : Option Nat × Nat} (hacc : Searched path seen acc) :
    Searched path (seen ++ rest) (lookupLoop path rest seen.length acc) := by
  induction rest generalizing seen acc with
  | nil =>
    rw [List.append_nil]
    exact hacc
  | cons e rest ih =>
    have hnext := ih (hacc.step (e := e))
    rw [List.length_append, List.length_singleton, List.append_assoc] at hnext
    exact hnext

theorem lookup_spec (table : List DfsFilesystem) (path : Path) :
    match dfsFilesystemLookup table path with
    | none => forall i m, Mounted table i m -> ¬ Passes path m
    | some i => exists m, Mounted table i m ∧ Passes path m ∧
        forall j m', Mounted table j m' -> Passes path m' -> m'.length ≤ m.length := by
  have hstart : Searched path [] (none, 0) := by
    refine Or.inl ⟨rfl, fun i m hm => ?_⟩
    obtain ⟨e, he, _⟩ := hm
    cases he
  have hend := @Searched.loop path table [] (none, 0) hstart
  rw [List.nil_append, List.length_nil] at hend
  unfold dfsFilesystemLookup
  rcases hend with ⟨hacc, hnone⟩ | ⟨i, m, hacc, hm, hpasses, hlongest⟩
  · rw [hacc]
    exact hnone
  · rw [hacc]
    exact ⟨m, hm, hpasses, hlongest⟩

/-!
## Resolution
-/

theorem dfsSubdir_root {c : Char} {rest : Path} (hc : c ≠ '/') :
    dfsSubdir slash ('/' :: c :: rest) = some ('/' :: c :: rest) := by
  unfold dfsSubdir slash
  simp [hc]

theorem nameBelow_render {cs es : List Path} (hall : forall c, c ∈ cs ++ es -> IsComponent c) :
    nameBelow (render '/' cs) (render '/' (cs ++ es)) = render '/' es := by
  have hname := isName_of_isComponent hall
  unfold nameBelow
  by_cases hroot : cs = []
  · subst hroot
    cases es with
    | nil => rfl
    | cons e es =>
      have he := hname e (by simp)
      cases e with
      | nil => exact absurd rfl he.1
      | cons c e =>
        have hc : c ≠ '/' := by
          rintro rfl
          exact he.2 List.mem_cons_self
        have hp : render '/' ([] ++ (c :: e) :: es) = '/' :: c :: (e ++ body '/' es) :=
          body_cons (c :: e) es
        rw [hp, show render '/' [] = slash from rfl, dfsSubdir_root hc, Option.getD_some]
        exact (body_cons (c :: e) es).symm
  · unfold dfsSubdir
    cases es with
    | nil =>
      rw [List.append_nil, if_pos rfl]
      rfl
    | cons e es =>
      have hne : cs ++ e :: es ≠ [] := by simp
      rw [render_eq_body hroot, render_eq_body hne, body_append, body_cons, if_neg (by simp)]
      simp only
      rw [List.getElem?_append_right (Nat.le_refl _), Nat.sub_self]
      simp only [List.getElem?_cons_zero, ne_eq, not_true_eq_false, false_and, if_false,
        List.drop_left, Option.getD_some]
      exact (body_cons e es).symm

theorem joinPath_render {cs es : List Path} (hall : forall c, c ∈ cs ++ es -> IsComponent c) :
    joinPath (render '/' cs) (render '/' es) = render '/' (cs ++ es) := by
  have hname := isName_of_isComponent hall
  have hproper {ds : List Path} (hds : forall c, c ∈ ds -> IsName '/' c) (hne : ds ≠ []) :
      render '/' ds ≠ slash := by
    intro h
    exact hne (render_injective hds (fun c hc => by cases hc) h)
  unfold joinPath
  by_cases hroot : cs = []
  · subst hroot
    exact if_pos rfl
  · rw [if_neg (hproper (fun c hc => hname c (List.mem_append_left _ hc)) hroot)]
    cases es with
    | nil =>
      rw [List.append_nil]
      exact if_pos rfl
    | cons e es =>
      rw [if_neg (hproper (fun c hc => hname c (List.mem_append_right _ hc))
          (List.cons_ne_nil e es)), render_eq_body hroot,
        render_eq_body (List.cons_ne_nil e es),
        render_eq_body (by simp : cs ++ e :: es ≠ []), body_append]

theorem nameBelow_ancestor (h : Ancestor m p) :
    (exists rest, nameBelow m p = '/' :: rest) ∧ joinPath m (nameBelow m p) = p := by
  obtain ⟨cs, es, rfl, rfl, hall⟩ := h
  rw [nameBelow_render hall]
  refine ⟨?_, joinPath_render hall⟩
  cases es with
  | nil => exact ⟨[], rfl⟩
  | cons e es => exact ⟨_, body_cons e es⟩

theorem Ancestor.eq_of_length {m' : Path} (h : Passes p m) (h' : Passes p m')
    (hlength : m'.length = m.length) : m' = m := by
  obtain ⟨z, hz⟩ := strncmpEq_length_iff.mp h.1
  obtain ⟨z', hz'⟩ := strncmpEq_length_iff.mp h'.1
  exact (List.append_inj (hz'.symm.trans hz) hlength).1

/-- The mounted filesystem with the longest path among the ancestors of `p`. -/
structure Nearest (table : List DfsFilesystem) (p : Path) (i : Nat) (m : Path) : Prop where
  mounted : Mounted table i m
  ancestor : Ancestor m p
  longest : forall j m', Mounted table j m' -> Ancestor m' p -> j ≠ i ->
    m'.length < m.length

theorem lookup_nearest (htable : WellMounted table) (hp : Normalised p) :
    match dfsFilesystemLookup table p with
    | none => forall i m, Mounted table i m -> ¬ Ancestor m p
    | some i => exists m, Nearest table p i m := by
  have hspec := lookup_spec table p
  split at hspec
  · intro i m hm hancestor
    exact hspec i m hm ((passes_iff (htable.normalised i m hm) hp).mpr hancestor)
  · next i _ =>
      obtain ⟨m, hm, hpasses, hlongest⟩ := hspec
      refine ⟨m, hm, (passes_iff (htable.normalised i m hm) hp).mp hpasses, ?_⟩
      intro j m' hm' hancestor hne
      have hpasses' := (passes_iff (htable.normalised j m' hm') hp).mpr hancestor
      apply Nat.lt_of_le_of_ne (hlongest j m' hm' hpasses')
      intro hlength
      rw [Ancestor.eq_of_length hpasses hpasses' hlength] at hm'
      exact hne (htable.distinct j i m hm' hm)

theorem resolve_eq_some {i : Nat} {r : Path} (htable : WellMounted table) (hp : Normalised p)
    (hr : resolve table p = some (i, r)) :
    exists m, Nearest table p i m ∧ r = nameBelow m p := by
  unfold resolve at hr
  rw [Option.bind_eq_some_iff] at hr
  obtain ⟨i', hlookup, hr⟩ := hr
  rw [Option.map_eq_some_iff] at hr
  obtain ⟨m, hm, heq⟩ := hr
  cases heq
  have hnearest := lookup_nearest htable hp
  rw [hlookup] at hnearest
  obtain ⟨m', hm'⟩ := hnearest
  obtain ⟨e, he, hpath, _⟩ := hm'.mounted
  rw [he, Option.bind_some, hpath] at hm
  cases hm
  exact ⟨m, hm', rfl⟩

/-- With distinct normalised mount paths and a normalised path: the look-up gives the
filesystem with the longest path among the ancestors, and nothing exactly if there is none;
the name below it starts with a slash and joined to the mount path gives the path; two paths
that resolve are equal exactly if filesystem and remainder are. -/
theorem path_resolution (htable : WellMounted table) (hp : Normalised p) :
    (dfsFilesystemLookup table p = none <-> forall i m, Mounted table i m -> ¬ Ancestor m p) ∧
      (forall i, dfsFilesystemLookup table p = some i ->
        exists m r, Nearest table p i m ∧ resolve table p = some (i, r) ∧
          r = (dfsSubdir m p).getD slash ∧ (exists rest, r = '/' :: rest) ∧
          joinPath m r = p) ∧
      (forall q i r j r', Normalised q -> resolve table p = some (i, r) ->
        resolve table q = some (j, r') -> (p = q <-> i = j ∧ r = r')) := by
  have hnearest := lookup_nearest htable hp
  refine ⟨?_, ?_, ?_⟩
  · constructor
    · intro hnone
      rw [hnone] at hnearest
      exact hnearest
    · intro hnone
      cases hlookup : dfsFilesystemLookup table p with
      | none => rfl
      | some i =>
        rw [hlookup] at hnearest
        obtain ⟨m, hm⟩ := hnearest
        exact absurd hm.ancestor (hnone i m hm.mounted)
  · intro i hlookup
    rw [hlookup] at hnearest
    obtain ⟨m, hm⟩ := hnearest
    obtain ⟨hslash, hjoin⟩ := nameBelow_ancestor hm.ancestor
    refine ⟨m, nameBelow m p, hm, ?_, rfl, hslash, hjoin⟩
    obtain ⟨e, he, hpath, _⟩ := hm.mounted
    unfold resolve
    rw [hlookup, Option.bind_some, he, Option.bind_some, hpath]
    rfl
  · intro q i r j r' hq hr hr'
    constructor
    · rintro rfl
      rw [hr] at hr'
      cases hr'
      exact ⟨rfl, rfl⟩
    · rintro ⟨rfl, rfl⟩
      obtain ⟨m, hm, hname⟩ := resolve_eq_some htable hp hr
      obtain ⟨m', hm', hname'⟩ := resolve_eq_some htable hq hr'
      have hsame : m' = m := by
        obtain ⟨e, he, hpath, _⟩ := hm.mounted
        obtain ⟨e', he', hpath', _⟩ := hm'.mounted
        rw [he] at he'
        cases he'
        rw [hpath] at hpath'
        exact (Option.some.inj hpath').symm
      rw [← (nameBelow_ancestor hm.ancestor).2, ← (nameBelow_ancestor hm'.ancestor).2, hsame,
        ← hname]
      rw [hsame] at hname'
      rw [← hname']

def someOps (flags : Nat) : FsOperation :=
  { name := ['f', 's']
    flags := flags
    hasMount := true
    hasUnmount := true
    hasOpen := true
    hasUnlink := true }

def mountAt (path : Path) (flags : Nat) : DfsFilesystem :=
  { devId := none, path := some path, ops := some (someOps flags) }

def threeMounts : List DfsFilesystem :=
  [mountAt ['/'] 0, mountAt ['/', 'm'] 0, mountAt ['/', 'm', '2'] 0]

theorem threeMounts_mounted {i : Nat} (h : Mounted threeMounts i m) :
    (i = 0 ∧ m = render '/' []) ∨ (i = 1 ∧ m = render '/' [['m']]) ∨
      (i = 2 ∧ m = render '/' [['m', '2']]) := by
  obtain ⟨e, he, hpath, _⟩ := h
  match i with
  | 0 =>
    cases he
    cases hpath
    exact Or.inl ⟨rfl, rfl⟩
  | 1 =>
    cases he
    cases hpath
    exact Or.inr (Or.inl ⟨rfl, rfl⟩)
  | 2 =>
    cases he
    cases hpath
    exact Or.inr (Or.inr ⟨rfl, rfl⟩)
  | i + 3 => cases he

theorem threeMounts_wellMounted : WellMounted threeMounts := by
  constructor
  · intro i m hm
    rcases threeMounts_mounted hm with ⟨_, rfl⟩ | ⟨_, rfl⟩ | ⟨_, rfl⟩
    · exact ⟨_, rfl, by simp⟩
    · exact ⟨_, rfl, by simp [IsComponent, IsName]⟩
    · exact ⟨_, rfl, by simp [IsComponent, IsName]⟩
  · intro i j m hm hm'
    rcases threeMounts_mounted hm with ⟨rfl, rfl⟩ | ⟨rfl, rfl⟩ | ⟨rfl, rfl⟩ <;>
      rcases threeMounts_mounted hm' with ⟨rfl, h⟩ | ⟨rfl, h⟩ | ⟨rfl, h⟩ <;>
      first | rfl | exact absurd h (by decide)

/-- `/m2/a` is below `/m2`, not below `/m`. -/
theorem path_resolution_sibling :
    exists m r, Nearest threeMounts ['/', 'm', '2', '/', 'a'] 2 m ∧
      resolve threeMounts ['/', 'm', '2', '/', 'a'] = some (2, r) ∧ r = ['/', 'a'] := by
  have hp : Normalised ['/', 'm', '2', '/', 'a'] :=
    ⟨[['m', '2'], ['a']], rfl, by simp [IsComponent, IsName]⟩
  obtain ⟨m, r, hnearest, hresolve, _⟩ :=
    (path_resolution threeMounts_wellMounted hp).2.1 2 (by decide)
  refine ⟨m, r, hnearest, hresolve, ?_⟩
  have hvalue : resolve threeMounts ['/', 'm', '2', '/', 'a'] = some (2, ['/', 'a']) := by
    decide
  rw [hresolve] at hvalue
  exact (Prod.mk.inj (Option.some.inj hvalue)).2

end RtThread.Dfs
