import RtThread.Dfs.Lookup
import Mathlib.Data.List.DropRight

/-!
# Normalising a path

`dfs_normalize_path` copies the components of a path towards its front.  The text that is
written so far is a list; the loop has as much fuel as the path is long.
-/

namespace RtThread.Dfs

open Separated

/-!
## Operations
-/

def skipSlashes (src : Path) : Path := src.dropWhile fun c => c = '/'

/-- `up_one`: one character back, which fails at the start of the buffer, and then back to
behind the slash before. -/
def upOne : Path -> Option Path
  | [] => none
  | c :: dst => some ((c :: dst).dropLast.rdropWhile fun c => c ≠ '/')

def normalizeLoop : Nat -> Path -> Path -> Option Path
  | 0, _, _ => none
  | _ + 1, ['.'], dst => some dst
  | fuel + 1, '.' :: '/' :: rest, dst => normalizeLoop fuel (skipSlashes rest) dst
  | fuel + 1, ['.', '.'], dst => (upOne dst).bind fun dst => normalizeLoop fuel [] dst
  | fuel + 1, '.' :: '.' :: '/' :: rest, dst =>
    (upOne dst).bind fun dst => normalizeLoop fuel (skipSlashes rest) dst
  | fuel + 1, src, dst =>
    let name := src.takeWhile fun c => c ≠ '/'
    match src.dropWhile fun c => c ≠ '/' with
    | [] => some (dst ++ name)
    | _ :: rest => normalizeLoop fuel (skipSlashes rest) (dst ++ name ++ ['/'])

/-- A slash at the end is removed unless it comes first. Where nothing was written the code
looks at the byte in front of the buffer. -/
def trimEnd (dst : Path) : Path :=
  if dst.length > 1 ∧ dst.getLast? = some '/' then dst.dropLast else dst

/-- `dfs_normalize_path(RT_NULL, filename)`, where there is memory for the path.  Without a
working directory a relative path is refused. -/
def dfsNormalizePath (workdir : Option Path) (filename : Path) : Option Path :=
  if filename.head? = some '/' then
    (normalizeLoop (filename.length + 1) filename []).map trimEnd
  else
    workdir.bind fun directory =>
      let fullpath := directory ++ '/' :: filename
      (normalizeLoop (fullpath.length + 1) fullpath []).map trimEnd

/-- `dfs_normalize_path` with its exit where there is no memory. -/
def normalizeIf (memory : Bool) (workdir : Option Path) (filename : Path) : Option Path :=
  if memory then dfsNormalizePath workdir filename else none

theorem normalizeIf_eq_some {memory : Bool} {workdir : Option Path} {filename full : Path}
    (hfull : normalizeIf memory workdir filename = some full) :
    dfsNormalizePath workdir filename = some full := by
  unfold normalizeIf at hfull
  split at hfull
  · exact hfull
  · cases hfull

/-!
## What the loop computes
-/

/-- Where a path has led so far: whether the slash in front is still there, and the names
behind it. -/
structure Place where
  rooted : Bool
  stack : List Path

def walk : List Path -> Place -> Option Place
  | [], w => some w
  | c :: cs, w =>
    if c = ['.'] then walk cs w
    else if c = ['.', '.'] then
      match w.stack with
      | [] => if w.rooted then walk cs ⟨false, []⟩ else none
      | _ :: _ => walk cs { w with stack := w.stack.dropLast }
    else walk cs { w with stack := w.stack ++ [c] }

def trail (cs : List Path) : Path := cs.flatMap fun c => c ++ ['/']

def Place.text (w : Place) : Path := (if w.rooted then ['/'] else []) ++ trail w.stack

def Place.Names (w : Place) : Prop := forall c, c ∈ w.stack -> IsName '/' c

theorem trail_snoc (cs : List Path) (c : Path) : trail (cs ++ [c]) = trail cs ++ c ++ ['/'] := by
  simp [trail]

theorem rdropWhile_name {x c : Path} (hc : '/' ∉ c) (hx : x = [] ∨ x.getLast? = some '/') :
    (x ++ c).rdropWhile (fun c => c ≠ '/') = x := by
  induction c using List.reverseRecOn with
  | nil =>
    rw [List.append_nil]
    rcases hx with rfl | hx
    · rfl
    · obtain ⟨y, rfl⟩ := List.getLast?_eq_some_iff.mp hx
      rw [List.rdropWhile_concat, if_neg (by simp)]
  | append_singleton c a ih =>
    have ha : a ≠ '/' := fun h => hc (h ▸ by simp)
    rw [← List.append_assoc, List.rdropWhile_concat, if_pos (by simpa using ha)]
    exact ih fun h => hc (List.mem_append_left _ h)

theorem Place.text_end (w : Place) : w.text = [] ∨ w.text.getLast? = some '/' := by
  unfold Place.text
  rcases List.eq_nil_or_concat w.stack with hnil | ⟨cs, c, hcs⟩
  · rw [hnil]
    cases w.rooted
    · exact Or.inl rfl
    · exact Or.inr rfl
  · rw [hcs, List.concat_eq_append, trail_snoc]
    right
    rw [← List.append_assoc, List.getLast?_append]
    rfl

theorem upOne_text {w : Place} (hw : w.Names) : upOne w.text =
      match w.stack with
      | [] => if w.rooted then some [] else none
      | _ :: _ => some (Place.text { w with stack := w.stack.dropLast }) := by
  rcases List.eq_nil_or_concat w.stack with hnil | ⟨cs, c, hcs⟩
  · unfold Place.text
    rw [hnil]
    cases w.rooted <;> rfl
  · rw [List.concat_eq_append] at hcs
    have htext : w.text = Place.text { w with stack := cs } ++ c ++ ['/'] := by
      unfold Place.text
      rw [hcs, trail_snoc]
      simp only [List.append_assoc]
    have hmatch : (match w.stack with
        | [] => if w.rooted then some [] else none
        | _ :: _ => some (Place.text { w with stack := w.stack.dropLast })) =
        some (Place.text { w with stack := cs }) := by
      have hdrop : w.stack.dropLast = cs := by rw [hcs, List.dropLast_concat]
      rw [hdrop]
      cases hstack : w.stack with
      | nil => simp [hcs] at hstack
      | cons d ds => rfl
    rw [hmatch]
    have hc : '/' ∉ c := (hw c (by rw [hcs]; simp)).2
    have hshort := rdropWhile_name hc (Place.text_end { w with stack := cs })
    cases hne : w.text with
    | nil =>
      rw [htext] at hne
      simp at hne
    | cons a rest =>
      rw [upOne, ← hne, htext, List.dropLast_concat, hshort]

theorem text_snoc (w : Place) (c : Path) :
    Place.text { w with stack := w.stack ++ [c] } = w.text ++ c ++ ['/'] := by
  unfold Place.text
  rw [trail_snoc]
  simp only [List.append_assoc]

theorem trimEnd_name {x c : Path} (hc : IsName '/' c) :
    trimEnd (x ++ c ++ ['/']) = x ++ c ∧ trimEnd (x ++ c) = x ++ c := by
  have hpos : 0 < c.length := List.length_pos_iff.mpr hc.1
  unfold trimEnd
  constructor
  · have hlong : (x ++ c ++ ['/']).length > 1 := by
      simp only [List.length_append, List.length_singleton]
      omega
    rw [if_pos ⟨hlong, by simp⟩, List.dropLast_concat]
  · rw [if_neg]
    rintro ⟨_, hlast⟩
    rw [List.getLast?_append_of_ne_nil _ hc.1] at hlast
    exact hc.2 (List.mem_of_getLast? hlast)

theorem begins_with_name {src : Path} (hne : src ≠ []) (hsrc : src.head? ≠ some '/') :
    exists c, IsName '/' c ∧ (src = c ∨ exists rest, src = c ++ '/' :: rest) := by
  refine ⟨src.takeWhile fun c => c ≠ '/', ⟨?_, ?_⟩, ?_⟩
  · cases src with
    | nil => exact absurd rfl hne
    | cons a rest =>
      have ha : a ≠ '/' := by simpa using hsrc
      simp [ha]
  · intro hin
    have h := List.mem_takeWhile_imp hin
    simp at h
  · have hsplit := @List.takeWhile_append_dropWhile _ (fun c : Char => c ≠ '/') src
    cases hdrop : src.dropWhile (fun c : Char => c ≠ '/') with
    | nil =>
      rw [hdrop, List.append_nil] at hsplit
      exact Or.inl hsplit.symm
    | cons a rest =>
      have ha : a = '/' := by
        have h := List.head?_dropWhile_not (fun c : Char => c ≠ '/') src
        rw [hdrop] at h
        simpa using h
      rw [hdrop, ha] at hsplit
      exact Or.inr ⟨rest, hsplit.symm⟩

variable {fuel : Nat} {c rest dst : Path}

theorem takeWhile_name (hc : '/' ∉ c) (htail : AtBoundary '/' rest) :
    (c ++ rest).takeWhile (fun a => a ≠ '/') = c ∧
      (c ++ rest).dropWhile (fun a => a ≠ '/') = rest := by
  have hall : forall a, a ∈ c -> decide (a ≠ '/') = true := by
    intro a ha
    rw [decide_eq_true_eq]
    rintro rfl
    exact hc ha
  rw [List.takeWhile_append_of_pos hall, List.dropWhile_append_of_pos hall]
  rcases htail with rfl | ⟨more, rfl⟩
  · simp
  · simp

def afterName (fuel : Nat) (dst : Path) : Path -> Option Path
  | [] => some dst
  | _ :: rest => normalizeLoop fuel (skipSlashes rest) (dst ++ ['/'])

theorem normalizeLoop_copy (hc : IsComponent c) (htail : AtBoundary '/' rest) :
    normalizeLoop (fuel + 1) (c ++ rest) dst = afterName fuel (dst ++ c) rest := by
  have hsame {d z : Path} (hd : '/' ∉ d) (hz : AtBoundary '/' z) (heq : c ++ rest = d ++ z) :
      c = d :=
    (name_split hc.1.2 hd htail hz heq).1
  obtain ⟨htake, hdrop⟩ := takeWhile_name hc.1.2 htail
  generalize hsrc : c ++ rest = src at *
  unfold normalizeLoop
  split
  · next heq => cases heq
  · next heq => exact absurd (@hsame ['.'] _ (by decide) (Or.inl rfl) rfl) hc.2.1
  · next more heq =>
      exact absurd (@hsame ['.'] _ (by decide) (Or.inr ⟨more, rfl⟩) rfl) hc.2.1
  · next heq => exact absurd (@hsame ['.', '.'] _ (by decide) (Or.inl rfl) rfl) hc.2.2
  · next more heq =>
      exact absurd (@hsame ['.', '.'] _ (by decide) (Or.inr ⟨more, rfl⟩) rfl) hc.2.2
  · next hfuel _ _ _ _ =>
      cases hfuel
      simp only [htake, hdrop]
      cases rest with
      | nil => rfl
      | cons a rest => rfl

theorem skipSlashes_spec (rest : Path) :
    (skipSlashes rest).head? ≠ some '/' ∧ (skipSlashes rest).length ≤ rest.length ∧
      names '/' (skipSlashes rest) = names '/' rest := by
  refine ⟨?_, ?_, names_dropWhile rest⟩
  · intro h
    have hnot := List.head?_dropWhile_not (fun c : Char => c = '/') rest
    unfold skipSlashes at h
    rw [h] at hnot
    simp at hnot
  · exact (List.dropWhile_sublist _).length_le

theorem upOne_bind {w : Place} (hw : w.Names) (cs : List Path) (k : Path -> Option Path)
    (hk : forall w' : Place, w'.Names -> (k w'.text).map trimEnd =
      (walk cs w').map fun w => trimEnd w.text) :
    ((upOne w.text).bind k).map trimEnd =
      (walk (['.', '.'] :: cs) w).map fun w => trimEnd w.text := by
  have hstep : walk (['.', '.'] :: cs) w =
      match w.stack with
      | [] => if w.rooted then walk cs ⟨false, []⟩ else none
      | _ :: _ => walk cs { w with stack := w.stack.dropLast } := by
    rw [walk, if_neg (by decide), if_pos rfl]
  rw [hstep, upOne_text hw]
  cases hstack : w.stack with
  | nil =>
    cases hroot : w.rooted with
    | false => rfl
    | true => exact hk ⟨false, []⟩ nofun
  | cons d ds =>
    refine hk { w with stack := (d :: ds).dropLast } ?_
    intro e he
    exact hw e (hstack ▸ List.dropLast_subset _ he)

theorem normalizeLoop_spec {src : Path} {w : Place} (hw : w.Names) (hfuel : src.length < fuel)
    (hsrc : src.head? ≠ some '/') :
    (normalizeLoop fuel src w.text).map trimEnd =
      (walk (names '/' src) w).map fun w => trimEnd w.text := by
  induction fuel generalizing src w with
  | zero => exact absurd hfuel (Nat.not_lt_zero _)
  | succ fuel ih =>
    -- what is left behind the separator is shorter and begins with no slash
    have hnext {more : Path} {w : Place} (hw : w.Names) (hshort : more.length < fuel) :
        (normalizeLoop fuel (skipSlashes more) w.text).map trimEnd =
          (walk (names '/' more) w).map fun w => trimEnd w.text := by
      obtain ⟨hhead, hlength, hnames⟩ := skipSlashes_spec more
      rw [ih hw (by omega) hhead, hnames]
    by_cases hempty : src = []
    · subst hempty
      simp [normalizeLoop, names, namesFrom, walk]
    · obtain ⟨c, hc, hrest⟩ := begins_with_name hempty hsrc
      by_cases hdot : c = ['.']
      · subst hdot
        rcases hrest with rfl | ⟨more, rfl⟩
        · rw [names_name hc]
          simp [normalizeLoop, walk]
        · rw [names_cons hc, walk, if_pos rfl]
          refine hnext hw ?_
          simp at hfuel
          omega
      · by_cases hup : c = ['.', '.']
        · subst hup
          rcases hrest with rfl | ⟨more, rfl⟩
          · rw [names_name hc]
            refine upOne_bind hw [] (fun dst => normalizeLoop fuel [] dst) ?_
            intro w' hw'
            refine ih hw' ?_ (by simp)
            simp at hfuel ⊢
            omega
          · rw [names_cons hc]
            refine upOne_bind hw _ (fun dst => normalizeLoop fuel (skipSlashes more) dst) ?_
            intro w' hw'
            refine hnext hw' ?_
            simp at hfuel
            omega
        · have hcomponent : IsComponent c := ⟨hc, hdot, hup⟩
          have hpush : Place.Names { w with stack := w.stack ++ [c] } := by
            intro d hd
            rcases List.mem_append.mp hd with hd | hd
            · exact hw d hd
            · rw [List.mem_singleton.mp hd]
              exact hc
          have hwalk (cs : List Path) :
              walk (c :: cs) w = walk cs { w with stack := w.stack ++ [c] } := by
            rw [walk, if_neg hdot, if_neg hup]
          rcases hrest with rfl | ⟨more, rfl⟩
          · have hcopy := @normalizeLoop_copy fuel _ [] w.text hcomponent (Or.inl rfl)
            rw [List.append_nil] at hcopy
            rw [hcopy, names_name hc, hwalk, walk, Option.map_some, text_snoc, (trimEnd_name hc).1]
            simp only [afterName, Option.map_some, (trimEnd_name hc).2]
          · rw [normalizeLoop_copy hcomponent (Or.inr ⟨more, rfl⟩), names_cons hc, hwalk]
            simp only [afterName]
            rw [← text_snoc]
            refine hnext hpush ?_
            simp at hfuel
            omega

/-!
## Normalised results
-/

/-- The path that is normalised: absolute as it is, relative behind the working
directory. -/
def fullText (workdir : Option Path) (filename : Path) : Option Path :=
  if filename.head? = some '/' then some filename
  else workdir.map fun directory => directory ++ '/' :: filename

theorem dfsNormalizePath_eq {workdir : Option Path} {filename : Path}
    (hdir : forall d, workdir = some d -> d.head? = some '/') :
    dfsNormalizePath workdir filename = (fullText workdir filename).bind fun full =>
        (walk (names '/' full) ⟨true, []⟩).map fun w => trimEnd w.text := by
  have hroot (full : Path) (hfull : full.head? = some '/') :
      (normalizeLoop (full.length + 1) full []).map trimEnd =
        (walk (names '/' full) ⟨true, []⟩).map fun w => trimEnd w.text := by
    cases full with
    | nil => cases hfull
    | cons a rest =>
      have ha : a = '/' := by simpa using hfull
      subst ha
      obtain ⟨hhead, hlength, hnames⟩ := skipSlashes_spec rest
      have hspec := @normalizeLoop_spec (rest.length + 1) (skipSlashes rest) ⟨true, []⟩ nofun
        (by omega) hhead
      rw [hnames] at hspec
      rw [names_sep, ← hspec]
      rfl
  unfold dfsNormalizePath fullText
  split
  · next habsolute => exact hroot filename habsolute
  · cases hwd : workdir with
    | none => rfl
    | some d =>
      refine hroot (d ++ '/' :: filename) ?_
      rw [List.head?_append, hdir d hwd]
      rfl

theorem walk_components {cs : List Path} {w w' : Place} (hcs : forall c, c ∈ cs -> IsName '/' c)
    (hw : forall c, c ∈ w.stack -> IsComponent c) (hwalk : walk cs w = some w') :
    forall c, c ∈ w'.stack -> IsComponent c := by
  induction cs generalizing w with
  | nil =>
    cases hwalk
    exact hw
  | cons c cs ih =>
    have hrest : forall d, d ∈ cs -> IsName '/' d :=
      fun d hd => hcs d (List.mem_cons_of_mem c hd)
    rw [walk] at hwalk
    split at hwalk
    · exact ih hrest hw hwalk
    · next hdot =>
        split at hwalk
        · split at hwalk
          · split at hwalk
            · exact ih hrest (fun d hd => by cases hd) hwalk
            · cases hwalk
          · refine ih hrest ?_ hwalk
            intro d hd
            exact hw d (List.dropLast_subset _ hd)
        · next hup =>
            refine ih hrest ?_ hwalk
            intro d hd
            rcases List.mem_append.mp hd with hd | hd
            · exact hw d hd
            · rw [List.mem_singleton.mp hd]
              exact ⟨hcs c List.mem_cons_self, hdot, hup⟩

theorem trimEnd_rooted (stack : List Path) (hstack : forall c, c ∈ stack -> IsName '/' c) :
    trimEnd (Place.text ⟨true, stack⟩) = render '/' stack := by
  have hshift (cs : List Path) : '/' :: trail cs = body '/' cs ++ ['/'] := by
    induction cs with
    | nil => rfl
    | cons c cs ih =>
      simp only [trail, List.flatMap_cons, body_cons, List.cons_append, List.append_assoc]
        at ih ⊢
      rw [List.nil_append, ih]
  have htext : Place.text ⟨true, stack⟩ = body '/' stack ++ ['/'] := hshift stack
  rw [htext]
  cases stack with
  | nil => rfl
  | cons c cs =>
    have hlong := two_le_length_body hstack (List.cons_ne_nil c cs)
    unfold trimEnd
    rw [if_pos, List.dropLast_concat]
    · rfl
    · refine ⟨?_, List.getLast?_concat⟩
      rw [List.length_append]
      omega

theorem trimEnd_unrooted (stack : List Path) (hstack : forall c, c ∈ stack -> IsName '/' c) :
    (trimEnd (Place.text ⟨false, stack⟩)).head? ≠ some '/' := by
  have hfirst : (Place.text ⟨false, stack⟩).head? ≠ some '/' := by
    cases stack with
    | nil => exact nofun
    | cons c cs =>
      have hc := hstack c List.mem_cons_self
      cases c with
      | nil => exact absurd rfl hc.1
      | cons a c =>
        intro h
        have ha : a = '/' := by simpa [Place.text, trail] using h
        exact hc.2 (ha ▸ List.mem_cons_self)
  unfold trimEnd
  split
  · intro h
    apply hfirst
    rw [List.head?_dropLast] at h
    split at h
    · exact h
    · cases h
  · exact hfirst

theorem names_isName {src : Path} {cur : Path} (hcur : '/' ∉ cur) :
    forall c, c ∈ namesFrom '/' cur src -> IsName '/' c := by
  induction src generalizing cur with
  | nil =>
    intro c hc
    rw [namesFrom] at hc
    split at hc
    · cases hc
    · next hne =>
        rw [List.mem_singleton.mp hc]
        exact ⟨hne, hcur⟩
  | cons a src ih =>
    intro c hc
    rw [namesFrom] at hc
    split at hc
    · split at hc
      · exact ih (by simp) c hc
      · next hne =>
          rcases List.mem_cons.mp hc with rfl | hc
          · exact ⟨hne, hcur⟩
          · exact ih (by simp) c hc
    · next ha =>
        refine ih ?_ c hc
        intro h
        rcases List.mem_append.mp h with h | h
        · exact hcur h
        · exact ha (List.mem_singleton.mp h).symm

/-- The path never goes above the root: the slash in front is still there at the end. -/
def StaysInside (workdir : Option Path) (filename : Path) : Prop :=
  forall full, fullText workdir filename = some full ->
    (walk (names '/' full) ⟨true, []⟩).any Place.rooted = true

section

variable {workdir : Option Path} {filename full : Path}

theorem normalize_place (hdir : forall d, workdir = some d -> d.head? = some '/')
    (hresult : dfsNormalizePath workdir filename = some full) :
    exists text w, fullText workdir filename = some text ∧
      walk (names '/' text) ⟨true, []⟩ = some w ∧ full = trimEnd w.text ∧
      forall c, c ∈ w.stack -> IsComponent c := by
  rw [dfsNormalizePath_eq hdir, Option.bind_eq_some_iff] at hresult
  obtain ⟨text, htext, hresult⟩ := hresult
  rw [Option.map_eq_some_iff] at hresult
  obtain ⟨w, hwalk, rfl⟩ := hresult
  refine ⟨text, w, htext, hwalk, rfl, ?_⟩
  exact walk_components (names_isName (by simp)) (fun c hc => by cases hc) hwalk

theorem normalize_inside (hdir : forall d, workdir = some d -> d.head? = some '/')
    (hinside : StaysInside workdir filename)
    (hresult : dfsNormalizePath workdir filename = some full) : Normalised full := by
  obtain ⟨text, ⟨rooted, stack⟩, htext, hwalk, rfl, hstack⟩ := normalize_place hdir hresult
  have hrooted := hinside text htext
  rw [hwalk] at hrooted
  have hroot : rooted = true := hrooted
  subst hroot
  exact ⟨stack, trimEnd_rooted stack (isName_of_isComponent hstack), hstack⟩

theorem normalize_outside (hdir : forall d, workdir = some d -> d.head? = some '/')
    (houtside : ¬ StaysInside workdir filename)
    (hresult : dfsNormalizePath workdir filename = some full) : full.head? ≠ some '/' := by
  obtain ⟨text, ⟨rooted, stack⟩, htext, hwalk, rfl, hstack⟩ := normalize_place hdir hresult
  cases rooted with
  | false => exact trimEnd_unrooted stack (isName_of_isComponent hstack)
  | true =>
    exfalso
    apply houtside
    intro text' htext'
    rw [htext] at htext'
    cases htext'
    rw [hwalk]
    rfl

theorem walk_push {cs stack : List Path} (hcs : forall c, c ∈ cs -> IsComponent c) :
    walk cs ⟨true, stack⟩ = some ⟨true, stack ++ cs⟩ := by
  induction cs generalizing stack with
  | nil => simp [walk]
  | cons c cs ih =>
    have hc := hcs c List.mem_cons_self
    rw [walk, if_neg hc.2.1, if_neg hc.2.2]
    rw [ih fun d hd => hcs d (List.mem_cons_of_mem c hd), List.append_assoc]
    rfl

theorem head?_render (cs : List Path) : (render '/' cs).head? = some '/' := by
  cases cs with
  | nil => rfl
  | cons c cs =>
    rfl

theorem normalize_normalised (hfull : Normalised full) :
    dfsNormalizePath workdir full = some full := by
  obtain ⟨cs, rfl, hcs⟩ := hfull
  have hhead := head?_render cs
  have hsame : dfsNormalizePath workdir (render '/' cs) =
      dfsNormalizePath none (render '/' cs) := by
    unfold dfsNormalizePath
    rw [if_pos hhead, if_pos hhead]
  rw [hsame, dfsNormalizePath_eq (by simp)]
  unfold fullText
  rw [if_pos hhead, Option.bind_some, names_render (isName_of_isComponent hcs), walk_push hcs,
    Option.map_some, List.nil_append, trimEnd_rooted cs (isName_of_isComponent hcs)]

end

/-!
## Texts without zeros
-/

abbrev CPath := { p : Path // '\x00' ∉ p }

theorem mem_namesFrom {cur src c : Path} {a : Char} (hc : c ∈ namesFrom '/' cur src)
    (ha : a ∈ c) : a ∈ cur ∨ a ∈ src := by
  induction src generalizing cur with
  | nil =>
    rw [namesFrom_nil] at hc
    split at hc
    · cases hc
    · rw [List.mem_singleton.mp hc] at ha
      exact Or.inl ha
  | cons b src ih =>
    have hlater {cur : Path} (hcur : a ∈ cur -> a ∈ b :: src)
        (hc : c ∈ namesFrom '/' cur src) : a ∈ b :: src := by
      rcases ih hc with h | h
      · exact hcur h
      · exact List.mem_cons_of_mem b h
    rw [namesFrom_cons] at hc
    split at hc
    · split at hc
      · exact Or.inr (hlater (fun h => absurd h List.not_mem_nil) hc)
      · rcases List.mem_cons.mp hc with rfl | hc
        · exact Or.inl ha
        · exact Or.inr (hlater (fun h => absurd h List.not_mem_nil) hc)
    · rcases ih hc with h | h
      · rcases List.mem_append.mp h with h | h
        · exact Or.inl h
        · exact Or.inr (List.mem_singleton.mp h ▸ List.mem_cons_self)
      · exact Or.inr (List.mem_cons_of_mem b h)

theorem mem_walk {cs : List Path} {w w' : Place} {c : Path} (hwalk : walk cs w = some w')
    (hc : c ∈ w'.stack) : c ∈ cs ∨ c ∈ w.stack := by
  induction cs generalizing w with
  | nil =>
    cases hwalk
    exact Or.inr hc
  | cons d cs ih =>
    rw [walk] at hwalk
    split at hwalk
    · exact (ih hwalk).imp_left (List.mem_cons_of_mem d)
    · split at hwalk
      · split at hwalk
        · split at hwalk
          · rcases ih hwalk with h | h
            · exact Or.inl (List.mem_cons_of_mem d h)
            · cases h
          · cases hwalk
        · rcases ih hwalk with h | h
          · exact Or.inl (List.mem_cons_of_mem d h)
          · exact Or.inr (List.dropLast_subset _ h)
      · rcases ih hwalk with h | h
        · exact Or.inl (List.mem_cons_of_mem d h)
        · rcases List.mem_append.mp h with h | h
          · exact Or.inr h
          · exact Or.inl (List.mem_singleton.mp h ▸ List.mem_cons_self)

theorem mem_trail {cs : List Path} {a : Char} (ha : a ≠ '/') (h : a ∈ trail cs) :
    exists c, c ∈ cs ∧ a ∈ c := by
  obtain ⟨c, hc, hin⟩ := List.mem_flatMap.mp h
  rcases List.mem_append.mp hin with h | h
  · exact ⟨c, hc, h⟩
  · exact absurd (List.mem_singleton.mp h) ha

theorem mem_normalize {workdir : Option Path} {filename full : Path} {a : Char}
    (hdir : forall d, workdir = some d -> d.head? = some '/') (ha : a ≠ '/')
    (hresult : dfsNormalizePath workdir filename = some full) (h : a ∈ full) :
    exists text, fullText workdir filename = some text ∧ a ∈ text := by
  obtain ⟨text, w, htext, hwalk, rfl, _⟩ := normalize_place hdir hresult
  refine ⟨text, htext, ?_⟩
  have hwritten : a ∈ w.text := by
    unfold trimEnd at h
    split at h
    · exact List.dropLast_subset _ h
    · exact h
  have htrail : a ∈ trail w.stack := by
    rcases List.mem_append.mp hwritten with h | h
    · split at h
      · exact absurd (List.mem_singleton.mp h) ha
      · cases h
    · exact h
  obtain ⟨c, hc, hin⟩ := mem_trail ha htrail
  rcases mem_walk hwalk hc with hc | hc
  · rcases mem_namesFrom hc hin with h | h
    · cases h
    · exact h
  · cases hc

theorem normalize_nonzero {d path full : Path} (hd : d.head? = some '/')
    (hzero : '\x00' ∉ d) (hpath : '\x00' ∉ path)
    (hresult : dfsNormalizePath (some d) path = some full) : '\x00' ∉ full := by
  intro h
  have hdir : forall e, some d = some e -> e.head? = some '/' := by
    rintro e ⟨⟩
    exact hd
  obtain ⟨text, htext, hin⟩ := mem_normalize hdir (by decide) hresult h
  unfold fullText at htext
  split at htext
  · cases htext
    exact hpath hin
  · cases htext
    rcases List.mem_append.mp hin with h | h
    · exact hzero h
    · rcases List.mem_cons.mp h with h | h
      · cases h
      · exact hpath h

end RtThread.Dfs
