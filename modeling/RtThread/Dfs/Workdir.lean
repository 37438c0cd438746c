import RtThread.Dfs.Normalize
import RtThread.Library.CharBuffer
import RtThread.Library.Transition

/-!
# The working directory

`chdir` over the array `working_directory`.  Which directories can be opened may change
from call to call, and so may whether there is memory for a path.
-/

namespace RtThread.Dfs

open Separated CharBuffer Transition

namespace Workdir

structure State where
  workingDirectory : List Char
deriving DecidableEq, Repr

/-- A call of `chdir`: its argument, or null, whether there is memory for the path, and
which normalised paths `opendir` opens at the time. -/
structure Call where
  path : Option CPath
  memory : Bool
  opens : Path -> Bool

/-!
## Operations
-/

def dfsInit (pathMax : Nat) : State :=
  ⟨'/' :: List.replicate (pathMax - 1) '\x00'⟩

/-- `dfs_normalize_path(RT_NULL, filename)`; a relative path reads the array, and there is no
result where that goes past its end. -/
def normalizePath (s : State) (filename : Path) : Option (Option Path) :=
  if filename.head? = some '/' then some (dfsNormalizePath none filename)
  else (content s.workingDirectory).map fun d => dfsNormalizePath (some d) filename

/-- `opendir(name) != RT_NULL` -/
def opendir (s : State) (opens : Path -> Bool) (name : Path) : Option Bool :=
  (normalizePath s name).map fun full => full.any opens

/-- `chdir` with its return value. -/
def chdir (pathMax : Nat) (s : State) (c : Call) : Option (Int × State) :=
  match c.path with
  | none => some (0, s)
  | some path =>
    if path.1.length > pathMax then some (-1, s)
    else
      (normalizePath s path.1).bind fun full =>
        match full with
        | none => some (-1, s)
        | some fullpath =>
          if c.memory then
            (opendir s c.opens fullpath).map fun opened =>
              if opened then (0, ⟨strncpy fullpath pathMax⟩) else (-1, s)
          else some (-1, s)

def step (pathMax : Nat) (s : State) (c : Call) : Option State :=
  (chdir pathMax s c).map Prod.snd

/-- What could be opened when the working directory was set last. -/
def record (pathMax : Nat) (s : State) (c : Call) (_ : State) (h : Option (Path -> Bool)) :
    Option (Path -> Bool) :=
  if c.path.isSome ∧ (chdir pathMax s c).map Prod.fst = some 0 then some c.opens else h

/-!
## What is promised
-/

/-- The array holds a terminated, normalised absolute path. -/
structure Holds (pathMax : Nat) (s : State) (cs : List Path) : Prop where
  length : s.workingDirectory.length = pathMax
  content : content s.workingDirectory = some (render '/' cs)
  component : forall c, c ∈ cs -> IsComponent c
  nonzero : '\x00' ∉ render '/' cs

/-- The working directory is sound: where it was set, it could be opened. -/
def Sound (pathMax : Nat) (x : State × Option (Path -> Bool)) (cs : List Path) : Prop :=
  Holds pathMax x.1 cs ∧
    match x.2 with
    | none => cs = []
    | some opens => opens (render '/' cs) = true

/-- Where the directory can be opened, the path stays inside the root and its normalised
text leaves room for the terminator. -/
def Fits (pathMax : Nat) (s : State) (c : Call) : Prop :=
  forall path text full, c.path = some path -> content s.workingDirectory = some text ->
    dfsNormalizePath (some text) path.1 = some full -> opendir s c.opens full = some true ->
    StaysInside (some text) path.1 ∧ full.length < pathMax

/-!
## Calls
-/

section Calls

variable {pathMax : Nat} {s : State} {c : Call} {cs : List Path} {d full : Path}

theorem normalizePath_eq (hs : content s.workingDirectory = some d) (filename : Path) :
    normalizePath s filename = some (dfsNormalizePath (some d) filename) := by
  unfold normalizePath
  split
  · next habsolute =>
      unfold dfsNormalizePath
      rw [if_pos habsolute, if_pos habsolute]
  · rw [hs]
    rfl

theorem opendir_eq (hs : content s.workingDirectory = some d) (opens : Path -> Bool)
    (hfull : Normalised full) : opendir s opens full = some (opens full) := by
  unfold opendir
  rw [normalizePath_eq hs, normalize_normalised hfull]
  rfl

theorem chdir_cases (hs : content s.workingDirectory = some d) (c : Call) :
    chdir pathMax s c = some (-1, s) ∨ (c.path = none ∧ chdir pathMax s c = some (0, s)) ∨
      exists path full, c.path = some path ∧ dfsNormalizePath (some d) path.1 = some full ∧
        opendir s c.opens full = some true ∧
        chdir pathMax s c = some (0, ⟨strncpy full pathMax⟩) := by
  unfold chdir
  cases hpath : c.path with
  | none => exact Or.inr (Or.inl ⟨rfl, rfl⟩)
  | some path =>
    simp only
    split
    · exact Or.inl rfl
    · rw [normalizePath_eq hs, Option.bind_some]
      cases hfull : dfsNormalizePath (some d) path.1 with
      | none => exact Or.inl rfl
      | some full =>
        simp only
        split
        · have hopen : opendir s c.opens full =
              some ((dfsNormalizePath (some d) full).any c.opens) := by
            unfold opendir
            rw [normalizePath_eq hs]
            rfl
          cases hany : (dfsNormalizePath (some d) full).any c.opens with
          | false =>
            rw [hopen, hany]
            exact Or.inl rfl
          | true =>
            rw [hany] at hopen
            refine Or.inr (Or.inr ⟨path, full, rfl, hfull, hopen, ?_⟩)
            rw [hopen]
            rfl
        · exact Or.inl rfl

theorem head?_workdir (cs : List Path) :
    forall d, some (render '/' cs) = some d -> d.head? = some '/' := by
  rintro d ⟨⟩
  exact head?_render cs

theorem holds_strncpy (hcs : forall c, c ∈ cs -> IsComponent c)
    (hzero : '\x00' ∉ render '/' cs) (hshort : (render '/' cs).length < pathMax) :
    Holds pathMax ⟨strncpy (render '/' cs) pathMax⟩ cs :=
  ⟨length_strncpy, content_strncpy hzero hshort, hcs, hzero⟩

theorem Sound.step {h h' : Option (Path -> Bool)} {s' : State}
    (hx : Sound pathMax (s, h) cs) (hfits : Fits pathMax s c)
    (hstep : watched (Workdir.step pathMax) (record pathMax) (s, h) c = some (s', h')) :
    exists cs', Sound pathMax (s', h') cs' := by
  obtain ⟨hs, hlast⟩ := hx
  obtain ⟨hstep, hrecord⟩ := watched_eq_some hstep
  unfold Workdir.step at hstep
  unfold record at hrecord
  rcases chdir_cases hs.content c with hfail | ⟨hnull, hok⟩ |
    ⟨path, full, hpath, hfull, hopen, hok⟩
  · rw [hfail] at hstep hrecord
    rw [if_neg (by simp)] at hrecord
    cases hstep
    cases hrecord
    exact ⟨cs, hs, hlast⟩
  · rw [hok] at hstep
    rw [hnull, if_neg (by simp)] at hrecord
    cases hstep
    cases hrecord
    exact ⟨cs, hs, hlast⟩
  · rw [hok] at hstep hrecord
    rw [hpath, if_pos ⟨rfl, rfl⟩] at hrecord
    cases hstep
    cases hrecord
    obtain ⟨hinside, hshort⟩ := hfits path _ full hpath hs.content hfull hopen
    have hzero := normalize_nonzero (head?_render cs) hs.nonzero path.2 hfull
    obtain ⟨cs', rfl, hcs'⟩ := normalize_inside (head?_workdir cs) hinside hfull
    rw [opendir_eq hs.content c.opens ⟨cs', rfl, hcs'⟩] at hopen
    exact ⟨cs', holds_strncpy hcs' hzero hshort, Option.some.inj hopen⟩

theorem walk_append (cs ds : List Path) (w : Place) :
    walk (cs ++ ds) w = (walk cs w).bind (walk ds) := by
  induction cs generalizing w with
  | nil => rfl
  | cons c cs ih =>
    rw [List.cons_append, walk, walk]
    split
    · exact ih w
    · split
      · split
        · split
          · exact ih _
          · rfl
        · exact ih _
      · exact ih _

theorem names_body_append {cs : List Path} (hcs : forall c, c ∈ cs -> IsName '/' c)
    (rest : Path) : names '/' (body '/' cs ++ '/' :: rest) = cs ++ names '/' rest := by
  induction cs with
  | nil => exact names_sep rest
  | cons c cs ih =>
    have hc := hcs c List.mem_cons_self
    have hrest := ih fun d hd => hcs d (List.mem_cons_of_mem c hd)
    rw [body_cons, List.cons_append, names_sep, List.append_assoc, List.cons_append]
    cases cs with
    | nil => rw [body_nil, List.nil_append, names_cons hc]; rfl
    | cons d ds =>
      rw [body_cons, List.cons_append, names_sep] at hrest
      rw [body_cons, List.cons_append, names_cons hc, hrest]

theorem relative_resolves (hcs : forall c, c ∈ cs -> IsComponent c) {filename : Path}
    (hrelative : filename.head? ≠ some '/') :
    dfsNormalizePath (some (render '/' cs)) filename =
      (walk (names '/' filename) ⟨true, cs⟩).map fun w => trimEnd w.text := by
  have hnames : names '/' (render '/' cs ++ '/' :: filename) = cs ++ names '/' filename := by
    cases cs with
    | nil => rw [render, List.singleton_append, names_sep, names_sep]; rfl
    | cons c cs => exact names_body_append (isName_of_isComponent hcs) filename
  rw [dfsNormalizePath_eq (head?_workdir cs), fullText, if_neg hrelative, Option.map_some,
    Option.bind_some,
    hnames, walk_append, walk_push hcs]
  rfl

end Calls

/-!
## Runs
-/

theorem sound_init {pathMax : Nat} (hmax : 1 < pathMax) :
    Sound pathMax (dfsInit pathMax, none) [] := by
  have hinit : dfsInit pathMax = ⟨strncpy slash pathMax⟩ := by
    rw [strncpy_of_le (Nat.le_of_lt hmax)]
    rfl
  have hroot : Holds pathMax ⟨strncpy slash pathMax⟩ [] :=
    @holds_strncpy pathMax [] nofun (by decide) hmax
  exact ⟨hinit ▸ hroot, rfl⟩

/-- In every run of calls of `chdir` whose paths, where they can be opened, stay inside the
root and leave room for the terminator: the array holds a terminated normalised absolute
path that could be opened when it was set, every call ends, a failing one changes nothing,
and relative paths start from it. -/
theorem working_directory_invariant {pathMax : Nat} (hmax : 1 < pathMax) {calls : List Call}
    {x : State × Option (Path -> Bool)}
    (hrun : Run (Guarded (fun x c => Fits pathMax x.1 c)
        (Graph (watched (step pathMax) (record pathMax)))) (dfsInit pathMax, none) calls x) :
    exists cs, Sound pathMax x cs ∧
      (forall c, exists r s', chdir pathMax x.1 c = some (r, s') ∧ (r ≠ 0 -> s' = x.1)) ∧
      forall filename, filename.head? ≠ some '/' ->
        normalizePath x.1 filename =
          some ((walk (names '/' filename) ⟨true, cs⟩).map fun w => trimEnd w.text) := by
  have hsound : exists cs, Sound pathMax x cs := by
    refine hrun.invariant (fun x => exists cs, Sound pathMax x cs) ⟨[], sound_init hmax⟩ ?_
    rintro ⟨s, h⟩ c ⟨s', h'⟩ ⟨cs, hx⟩ ⟨hfits, hstep⟩
    exact hx.step hfits hstep
  obtain ⟨cs, hx⟩ := hsound
  refine ⟨cs, hx, fun c => ?_, fun filename hrelative => ?_⟩
  · rcases chdir_cases hx.1.content c with hfail | ⟨_, hok⟩ | ⟨_, _, _, _, _, hok⟩
    · exact ⟨-1, x.1, hfail, fun _ => rfl⟩
    · exact ⟨0, x.1, hok, fun _ => rfl⟩
    · exact ⟨0, _, hok, fun h => absurd rfl h⟩
  · rw [normalizePath_eq hx.1.content, relative_resolves hx.1.component hrelative]

/-- A call with a path of characters, where only one directory can be opened. -/
def callOf (path : Path) (hpath : '\x00' ∉ path) (directory : Path) : Call :=
  ⟨some ⟨path, hpath⟩, true, fun p => p = directory⟩

/-- Into a directory and to its sibling, with slashes and dots in the paths. -/
theorem working_directory_invariant_sibling :
    exists cs, Sound 256 (⟨strncpy ['/', 'b'] 256⟩, some fun p => p = ['/', 'b']) cs ∧
      (forall c, exists r s', chdir 256 ⟨strncpy ['/', 'b'] 256⟩ c = some (r, s') ∧
        (r ≠ 0 -> s' = ⟨strncpy ['/', 'b'] 256⟩)) ∧
      forall filename, filename.head? ≠ some '/' ->
        normalizePath ⟨strncpy ['/', 'b'] 256⟩ filename =
          some ((walk (names '/' filename) ⟨true, cs⟩).map fun w => trimEnd w.text) := by
  have hfirst : Run (Guarded (fun x c => Fits 256 x.1 c)
      (Graph (watched (step 256) (record 256)))) (dfsInit 256, none)
      [callOf ['a'] (by decide) ['/', 'a']]
      (⟨strncpy ['/', 'a'] 256⟩, some fun p => p = ['/', 'a']) := by
    refine Run.snoc Run.nil ⟨?_, rfl⟩
    rintro path text full ⟨⟩ ⟨⟩ ⟨⟩ _
    exact ⟨by rintro t ⟨⟩; decide, by decide⟩
  have hsecond : Run (Guarded (fun x c => Fits 256 x.1 c)
      (Graph (watched (step 256) (record 256)))) (dfsInit 256, none)
      [callOf ['a'] (by decide) ['/', 'a'],
        callOf ['.', '.', '/', '/', 'b', '/'] (by decide) ['/', 'b']]
      (⟨strncpy ['/', 'b'] 256⟩, some fun p => p = ['/', 'b']) := by
    refine Run.snoc hfirst ⟨?_, rfl⟩
    rintro path text full ⟨⟩ ⟨⟩ ⟨⟩ _
    exact ⟨by rintro t ⟨⟩; decide, by decide⟩
  exact working_directory_invariant (by decide) hsecond

/-- From the root, `chdir("..")` leaves an empty text, and a path as long as the array
leaves a text without terminator. -/
theorem chdir_breaks_workdir :
    (exists s, chdir 256 (dfsInit 256) (callOf ['.', '.'] (by decide) slash) = some (0, s) ∧
      content s.workingDirectory = some [] ∧ ¬ Normalised []) ∧
    (exists s, chdir 256 (dfsInit 256) (callOf ('/' :: List.replicate 255 'a')
        (by decide +kernel) ('/' :: List.replicate 255 'a')) = some (0, s) ∧
      content s.workingDirectory = none) := by
  have hempty : ¬ Normalised [] := by
    rintro ⟨cs, hcs, _⟩
    cases cs with
    | nil => cases hcs
    | cons c cs => cases hcs
  refine ⟨⟨_, rfl, by decide, hempty⟩, ⟨'/' :: List.replicate 255 'a'⟩, ?_, ?_⟩
  · decide +kernel
  · decide +kernel

end Workdir

end RtThread.Dfs
