import RtThread.Dfs.Romfs
import Mathlib.Data.Nat.Find

/-!
# What a romfs look-up finds

The search in a directory compares as many characters of a name as the component has, and
takes the first entry whose name begins with the component.  For the exact entry it has to be
the first of these, in every directory on the way.
-/

namespace RtThread.Dfs

open Separated
open Descent

def RomfsDirent.entries (d : RomfsDirent) : List RomfsDirent := d.data.getD []

/-- The entries of a romfs: types and sizes as they are, and names of one directory that are
different from each other. -/
inductive RomfsDirent.Tree : RomfsDirent -> Prop where
  | file {d : RomfsDirent} (htype : d.type = romfsDirentFile) (hsize : d.size < 2 ^ 32 - 1) :
      Tree d
  | dir {d : RomfsDirent} (htype : d.type = romfsDirentDir) (hsize : d.size < 2 ^ 32 - 1)
      (hlength : d.size = d.entries.length) (hnames : (d.entries.map RomfsDirent.name).Nodup)
      (hentries : forall e, e ∈ d.entries -> Tree e) : Tree d

namespace Romfs

def Named : Rule RomfsDirent Path := fun d c i e =>
  d.type = romfsDirentDir ∧ d.entries[i]? = some e ∧ e.name = c

/-- The first entry of a directory whose name begins with the component. -/
def FirstWith : Rule RomfsDirent Path := fun d c i e =>
  d.type = romfsDirentDir ∧ d.entries[i]? = some e ∧ c <+: e.name ∧
    forall j e', j < i -> d.entries[j]? = some e' -> ¬ c <+: e'.name

/-- The look-up ends with the entry that the names of the path lead to, and with its size, or
with the null pointer where they lead to none. -/
def FindsExactly (root : RomfsDirent) (path : Path) : Prop :=
  exists r, dfsRomfsLookup root path = some r ∧
    forall is e n, r = some (is, e, n) <->
      Reaches Named root (names '/' path) is e ∧ n = e.size

/-- The names lead to no entry, neither as they are nor as beginnings of names. -/
def LeadsNowhere (root : RomfsDirent) (cs : List Path) : Prop :=
  (forall is e, ¬ Reaches Named root cs is e) ∧ forall is e, ¬ Reaches FirstWith root cs is e

/-!
## Entries
-/

variable {d e : RomfsDirent} {c path subpathEnd : Path} {i : Nat}

theorem tree_entry (hd : d.Tree) (htype : d.type = romfsDirentDir)
    (he : d.entries[i]? = some e) : e.Tree := by
  cases hd with
  | file hfile _ => exact absurd (hfile.symm.trans htype) (by decide)
  | dir _ _ _ _ hentries => exact hentries e (List.mem_of_getElem? he)

theorem checkDirent_tree (hd : d.Tree) : checkDirent d = 0 := by
  unfold checkDirent
  rw [if_neg]
  cases hd with
  | file htype hsize =>
    rintro (⟨hfile, -⟩ | hmax)
    · exact hfile htype
    · omega
  | dir htype hsize _ _ _ =>
    rintro (⟨-, hdir⟩ | hmax)
    · exact hdir htype
    · omega

theorem named_tree (d : RomfsDirent) (c : Path) (i : Nat) (e : RomfsDirent) (hd : d.Tree)
    (h : Named d c i e) : e.Tree :=
  tree_entry hd h.left h.right.left

theorem named_unique (d : RomfsDirent) (c : Path) (i : Nat) (e : RomfsDirent) (i' : Nat)
    (e' : RomfsDirent) (hd : d.Tree) (h : Named d c i e) (h' : Named d c i' e') :
    i = i' ∧ e = e' := by
  rcases h with ⟨htype, he, hname⟩
  rcases h' with ⟨-, he', hname'⟩
  cases hd with
  | file hfile _ => exact absurd (hfile.symm.trans htype) (by decide)
  | dir _ _ _ hnames _ =>
    have hi := (List.getElem?_eq_some_iff.mp he).1
    have hsame : i = i' := by
      apply (List.getElem?_inj (by rw [List.length_map]; exact hi) hnames).mp
      rw [List.getElem?_map, List.getElem?_map, he, he', Option.map_some, Option.map_some,
        hname, hname']
    subst hsame
    exact ⟨rfl, Option.some.inj (he.symm.trans he')⟩

theorem firstWith_once (d : RomfsDirent) (c : Path) (i : Nat) (e : RomfsDirent) (i' : Nat)
    (e' : RomfsDirent) (h : FirstWith d c i e) (h' : FirstWith d c i' e') :
    i = i' ∧ e = e' := by
  rcases h with ⟨-, he, hprefix, hfirst⟩
  rcases h' with ⟨-, he', hprefix', hfirst'⟩
  rcases Nat.lt_trichotomy i i' with hlt | rfl | hlt
  · exact absurd hprefix (hfirst' i e hlt he)
  · exact ⟨rfl, Option.some.inj (he.symm.trans he')⟩
  · exact absurd hprefix' (hfirst i' e' hlt he')

theorem firstWith_named_child (d : RomfsDirent) (c : Path) (i : Nat) (e e' : RomfsDirent)
    (h : FirstWith d c i e) (h' : Named d c i e') : e = e' :=
  Option.some.inj (h.right.left.symm.trans h'.right.left)

theorem firstWith_of_named (d : RomfsDirent) (c : Path) (i : Nat) (e : RomfsDirent)
    (h : Named d c i e) : exists i' e', FirstWith d c i' e' := by
  rcases h with ⟨htype, he, rfl⟩
  have hsome : exists k, exists e' : RomfsDirent, d.entries[k]? = some e' ∧
      e.name <+: e'.name :=
    ⟨i, e, he, List.prefix_rfl⟩
  classical
  rcases Nat.find_spec hsome with ⟨e', he', hprefix⟩
  refine ⟨Nat.find hsome, e', htype, he', hprefix, ?_⟩
  intro j e'' hj he'' hprefix'
  exact Nat.find_min hsome hj ⟨e'', he'', hprefix'⟩

/-!
## The search
-/

theorem strncmpEq_component {name c : Path} (rest : Path) :
    strncmpEq name (c ++ rest) c.length = true <-> c <+: name := by
  unfold strncmpEq
  rw [decide_eq_true_eq, List.take_left, List.prefix_iff_eq_take]
  exact eq_comm

theorem search_spec {es : List RomfsDirent} {subpath : Path} {length left index : Nat}
    (hes : forall e, e ∈ es -> checkDirent e = 0) (hleft : index + left = es.length) :
    (search es subpath length left index = some Found.nothing ∧
      forall j e, index ≤ j -> es[j]? = some e -> strncmpEq e.name subpath length ≠ true) ∨
    exists i e, search es subpath length left index = some (Found.entry i e) ∧
      es[i]? = some e ∧ strncmpEq e.name subpath length = true ∧
      forall j e', index ≤ j -> j < i -> es[j]? = some e' ->
        strncmpEq e'.name subpath length ≠ true := by
  induction left generalizing index with
  | zero =>
    refine Or.inl ⟨rfl, ?_⟩
    intro j e hj he
    have hlt := (List.getElem?_eq_some_iff.mp he).1
    omega
  | succ left ih =>
    have hlt : index < es.length := by omega
    have hread : es[index]? = some es[index] := List.getElem?_eq_getElem hlt
    have hcheck := hes es[index] (List.getElem_mem hlt)
    have hround : search es subpath length (left + 1) index =
        if strncmpEq es[index].name subpath length then some (Found.entry index es[index])
        else search es subpath length left (index + 1) := by
      rw [search, hread]
      simp only
      rw [if_neg (not_not.mpr hcheck)]
    by_cases hequal : strncmpEq es[index].name subpath length = true
    · refine Or.inr ⟨index, es[index], ?_, hread, hequal, ?_⟩
      · rw [hround, if_pos hequal]
      · intro j e' hj hlt'
        omega
    · have hhere : forall e, es[index]? = some e ->
          strncmpEq e.name subpath length ≠ true := by
        intro e he
        rw [hread] at he
        cases he
        exact hequal
      rw [if_neg hequal] at hround
      rcases @ih (index + 1) (by omega) with
        ⟨hnothing, hnone⟩ | ⟨i, e, hentry, he, heq, hfirst⟩
      · refine Or.inl ⟨hround.trans hnothing, ?_⟩
        intro j e hj he
        rcases Nat.eq_or_lt_of_le hj with rfl | hmore
        · exact hhere e he
        · exact hnone j e hmore he
      · refine Or.inr ⟨i, e, hround.trans hentry, he, heq, ?_⟩
        intro j e' hj hlt' he'
        rcases Nat.eq_or_lt_of_le hj with rfl | hmore
        · exact hhere e' he'
        · exact hfirst j e' hmore hlt' he'

theorem search_component (hd : d.Tree) (htype : d.type = romfsDirentDir) (c rest : Path) :
    (search d.entries (c ++ rest) c.length d.size 0 = some Found.nothing ∧
      forall i e, ¬ FirstWith d c i e) ∨
    exists i e, search d.entries (c ++ rest) c.length d.size 0 = some (Found.entry i e) ∧
      FirstWith d c i e := by
  have hcheck : forall e, e ∈ d.entries -> checkDirent e = 0 := by
    intro e he
    rcases List.getElem?_of_mem he with ⟨i, hi⟩
    exact checkDirent_tree (tree_entry hd htype hi)
  have hsize : 0 + d.size = d.entries.length := by
    cases hd with
    | file hfile _ => exact absurd (hfile.symm.trans htype) (by decide)
    | dir _ _ hlength _ _ => rw [Nat.zero_add, hlength]
  rcases @search_spec d.entries (c ++ rest) c.length _ _ hcheck hsize with
    ⟨hnothing, hnone⟩ | ⟨i, e, hentry, he, hequal, hfirst⟩
  · refine Or.inl ⟨hnothing, ?_⟩
    rintro i e ⟨-, he, hprefix, -⟩
    exact hnone i e (Nat.zero_le _) he ((strncmpEq_component rest).mpr hprefix)
  · refine Or.inr ⟨i, e, hentry, htype, he, (strncmpEq_component rest).mp hequal, ?_⟩
    intro j e' hj he' hprefix
    exact hfirst j e' (Nat.zero_le _) hj he' ((strncmpEq_component rest).mpr hprefix)

/-!
## The descent
-/

theorem nextSubpath_spec (p : Path) :
    ((nextSubpath p).1 = [] ∧ (nextSubpath p).2 = [] ∧ names '/' p = []) ∨
    exists c, IsName '/' c ∧ (nextSubpath p).1 = c ++ (nextSubpath p).2 ∧
      names '/' p = c :: names '/' (nextSubpath p).2 := by
  obtain ⟨hhead, -, hnames⟩ := skipSlashes_spec p
  rw [<- hnames]
  unfold nextSubpath
  simp only
  by_cases hempty : skipSlashes p = []
  · rw [hempty]
    exact Or.inl ⟨rfl, rfl, rfl⟩
  · right
    obtain ⟨c, hc, hrest⟩ := begins_with_name hempty hhead
    refine ⟨c, hc, ?_⟩
    rcases hrest with heq | ⟨rest, heq⟩
    · have hbehind := (@takeWhile_name c [] hc.2 (Or.inl rfl)).2
      rw [List.append_nil] at hbehind
      rw [heq, hbehind, List.append_nil]
      exact ⟨rfl, names_name hc⟩
    · rw [heq, (takeWhile_name hc.2 (Or.inr ⟨rest, rfl⟩)).2]
      exact ⟨rfl, (names_cons hc).trans (by rw [names_sep])⟩

/-- What a result has to be where the first entries are followed. -/
def Follows (d : RomfsDirent) (cs : List Path) (places : List Nat)
    (r : Option (List Nat × RomfsDirent × Nat)) : Prop :=
  forall is e n, r = some (is, e, n) <->
    exists is', is = places ++ is' ∧ Reaches FirstWith d cs is' e ∧ n = e.size

theorem follows_none {cs : List Path} (places : List Nat)
    (h : forall is e, ¬ Reaches FirstWith d cs is e) : Follows d cs places none := by
  intro is e n
  refine iff_of_false nofun ?_
  rintro ⟨is', -, hreaches, -⟩
  exact h is' e hreaches

theorem follows_last {c : Path} (places : List Nat) (h : FirstWith d c i e) :
    Follows d [c] places (some (places ++ [i], e, e.size)) := by
  intro is e' n
  constructor
  · rintro ⟨⟩
    exact ⟨[i], rfl, Reaches.step h (Reaches.here e), rfl⟩
  · rintro ⟨is', rfl, hreaches, rfl⟩
    rcases reaches_cons_iff.mp hreaches with ⟨i1, e1, is1, hpick, rfl, hrest⟩
    rcases reaches_nil_iff.mp hrest with ⟨rfl, rfl⟩
    rcases firstWith_once d c i e i1 e' h hpick with ⟨rfl, rfl⟩
    rfl

theorem follows_step {c : Path} {cs : List Path} {places : List Nat}
    {r : Option (List Nat × RomfsDirent × Nat)} (h : FirstWith d c i e)
    (hrest : Follows e cs (places ++ [i]) r) : Follows d (c :: cs) places r := by
  intro is e' n
  rw [hrest is e' n]
  constructor
  · rintro ⟨is', rfl, hreaches, rfl⟩
    exact ⟨i :: is', (List.append_cons ..).symm, Reaches.step h hreaches, rfl⟩
  · rintro ⟨is', rfl, hreaches, rfl⟩
    rcases reaches_cons_iff.mp hreaches with ⟨i1, e1, is1, hpick, rfl, hmore⟩
    rcases firstWith_once d c i e i1 e1 h hpick with ⟨rfl, rfl⟩
    exact ⟨is1, List.append_cons .., hmore, rfl⟩

theorem descend_spec (hd : d.Tree) (htype : d.type = romfsDirentDir) (c : Path)
    (places : List Nat) :
    exists r, descend d.data d.size (c ++ subpathEnd) subpathEnd places = some r ∧
      Follows d (c :: names '/' subpathEnd) places r := by
  induction hlength : subpathEnd.length using Nat.strongRecOn
    generalizing d c places subpathEnd with
  | ind n ih =>
    subst hlength
    cases hdata : d.data with
    | none =>
      refine ⟨none, by rw [descend], ?_⟩
      apply follows_none
      intro is e hreaches
      rcases reaches_cons_iff.mp hreaches with ⟨i, e', is', ⟨-, he, -⟩, -⟩
      unfold RomfsDirent.entries at he
      rw [hdata] at he
      cases he
    | some es =>
      have hes : d.entries = es := by
        unfold RomfsDirent.entries
        rw [hdata]
        rfl
      have hlen : (c ++ subpathEnd).length - subpathEnd.length = c.length := by
        rw [List.length_append, Nat.add_sub_cancel]
      rw [descend, hlen]
      rcases search_component hd htype c subpathEnd with
        ⟨hnothing, hnone⟩ | ⟨i, e, hentry, hfirst⟩
      · rw [hes] at hnothing
        rw [hnothing]
        refine ⟨none, rfl, follows_none places ?_⟩
        intro is e hreaches
        rcases reaches_cons_iff.mp hreaches with ⟨i, e', is', hpick, -⟩
        exact hnone i e' hpick
      · rw [hes] at hentry
        rw [hentry]
        simp only
        rcases nextSubpath_spec subpathEnd with
          ⟨hend, -, hnames⟩ | ⟨c', hc', hnext, hnames⟩
        · rw [dif_pos hend, hnames]
          exact ⟨_, rfl, follows_last places hfirst⟩
        · have hne : (nextSubpath subpathEnd).1 ≠ [] := by
            rw [hnext]
            exact List.append_ne_nil_of_left_ne_nil hc'.1 _
          rw [dif_neg hne, hnames]
          by_cases hdir : e.type = romfsDirentDir
          · rw [if_pos hdir, hnext]
            have he := tree_entry hd htype hfirst.right.left
            rcases ih _ (nextSubpath_lt hne) he hdir c' (places ++ [i]) rfl with
              ⟨r, hr, hfollows⟩
            exact ⟨r, hr, follows_step hfirst hfollows⟩
          · rw [if_neg hdir]
            refine ⟨none, rfl, follows_step hfirst (follows_none _ ?_)⟩
            intro is e' hreaches
            rcases reaches_cons_iff.mp hreaches with ⟨i1, e1, is1, hpick, -⟩
            exact hdir hpick.left

/-!
## The exact entry
-/

/-- Following first entries is following names when each first entry has the name, or when
both lead nowhere. -/
theorem first_named_iff (hd : d.Tree) (cs : List Path) :
    (forall is e, Reaches FirstWith d cs is e <-> Reaches Named d cs is e) <->
      Along FirstWith Named d cs ∨ LeadsNowhere d cs := by
  constructor
  · intro hsame
    by_cases hleads : exists is e, Reaches FirstWith d cs is e
    · rcases hleads with ⟨is, e, hreaches⟩
      exact Or.inl (hreaches.along_of_both firstWith_once firstWith_named_child
        ((hsame is e).mp hreaches))
    · have hnone : forall is e, ¬ Reaches FirstWith d cs is e :=
        fun is e hreaches => hleads ⟨is, e, hreaches⟩
      exact Or.inr ⟨fun is e hreaches => hnone is e ((hsame is e).mpr hreaches), hnone⟩
  · rintro (halong | ⟨hnamed, hfirst⟩) is e
    · constructor
      · exact fun hreaches => hreaches.along halong
      · exact fun hreaches => hreaches.of_along named_tree named_unique firstWith_of_named hd
          halong
    · exact iff_of_false (hfirst is e) (hnamed is e)

theorem findsExactly_iff_follows {r : Option (List Nat × RomfsDirent × Nat)}
    (hlookup : dfsRomfsLookup d path = some r) (hfollows : Follows d (names '/' path) [] r) :
    FindsExactly d path <-> forall is e, Reaches FirstWith d (names '/' path) is e <->
      Reaches Named d (names '/' path) is e := by
  have hresult : forall is e n, r = some (is, e, n) <->
      Reaches FirstWith d (names '/' path) is e ∧ n = e.size := by
    intro is e n
    rw [hfollows is e n]
    simp only [List.nil_append, exists_eq_left']
  constructor
  · rintro ⟨r', hlookup', hnamed⟩ is e
    obtain rfl : r = r' := Option.some.inj (hlookup.symm.trans hlookup')
    have hboth := (hresult is e e.size).symm.trans (hnamed is e e.size)
    rwa [and_iff_left rfl, and_iff_left rfl] at hboth
  · intro hsame
    refine ⟨r, hlookup, ?_⟩
    intro is e n
    rw [hresult is e n, hsame is e]

/-- The look-up is exact for the root as one slash, and for a path with components when, as
far as they lead, the first entry whose name begins with a component has it as its name, or
when they lead nowhere, also not as beginnings of names. -/
theorem romfs_lookup_exact_iff (root : RomfsDirent) (path : Path) (hroot : root.Tree)
    (htype : root.type = romfsDirentDir) :
    FindsExactly root path <->
      path = ['/'] ∨ names '/' path ≠ [] ∧
        (Along FirstWith Named root (names '/' path) ∨ LeadsNowhere root (names '/' path)) := by
  have hcheck : ¬ checkDirent root ≠ 0 := not_not.mpr (checkDirent_tree hroot)
  by_cases hslash : path = ['/']
  · subst hslash
    refine iff_of_true ?_ (Or.inl rfl)
    refine ⟨some ([], root, root.size), ?_, ?_⟩
    · unfold dfsRomfsLookup
      rw [if_neg hcheck, if_pos rfl]
    · intro is e n
      rw [names_sep]
      constructor
      · rintro ⟨⟩
        exact ⟨Reaches.here root, rfl⟩
      · rintro ⟨hreaches, rfl⟩
        rcases reaches_nil_iff.mp hreaches with ⟨rfl, rfl⟩
        rfl
  · have hlookup : dfsRomfsLookup root path = descend root.data root.size
        (nextSubpath path).1 (nextSubpath path).2 [] := by
      unfold dfsRomfsLookup
      rw [if_neg hcheck, if_neg hslash]
    rw [or_iff_right hslash]
    rcases nextSubpath_spec path with ⟨hnext, hend, hnames⟩ | ⟨c, hc, hnext, hnames⟩
    · -- an empty component is the beginning of every name
      refine iff_of_false ?_ (fun h => h.left hnames)
      rintro ⟨r, hr, hnamed⟩
      rcases @descend_spec root [] hroot htype [] [] with ⟨r', hr', hfollows⟩
      rw [hlookup, hnext, hend] at hr
      obtain rfl : r = r' := Option.some.inj (hr.symm.trans hr')
      rw [hnames] at hnamed
      have hhere := (hnamed [] root root.size).mpr ⟨Reaches.here root, rfl⟩
      rcases (hfollows [] root root.size).mp hhere with ⟨is', heq, hreaches, -⟩
      rcases reaches_cons_iff.mp hreaches with ⟨i, e, is1, -, rfl, -⟩
      cases heq
    · rcases @descend_spec root (nextSubpath path).2 hroot htype c [] with ⟨r, hr, hfollows⟩
      rw [<- hnext] at hr
      rw [<- hnames] at hfollows
      have hne : names '/' path ≠ [] := by
        rw [hnames]
        exact List.cons_ne_nil _ _
      rw [findsExactly_iff_follows (hlookup.trans hr) hfollows, first_named_iff hroot,
        and_iff_right hne]

/-- The files `readme` and `read` in a directory. -/
def readme : RomfsDirent :=
  { type := romfsDirentFile
    name := ['r', 'e', 'a', 'd', 'm', 'e']
    data := none
    size := 5 }

def read : RomfsDirent :=
  { type := romfsDirentFile
    name := ['r', 'e', 'a', 'd']
    data := none
    size := 3 }

def reading : RomfsDirent :=
  { type := romfsDirentDir
    name := ['/']
    data := some [readme, read]
    size := 2 }

theorem reading_tree : reading.Tree := by
  refine RomfsDirent.Tree.dir rfl (by decide) rfl (by decide) ?_
  intro e he
  rcases List.mem_cons.mp he with rfl | he
  · exact RomfsDirent.Tree.file rfl (by decide)
  · rw [List.mem_singleton.mp he]
    exact RomfsDirent.Tree.file rfl (by decide)

/-- `//readme` -/
theorem romfs_lookup_exact_iff_readme :
    FindsExactly reading ['/', '/', 'r', 'e', 'a', 'd', 'm', 'e'] <->
      ['/', '/', 'r', 'e', 'a', 'd', 'm', 'e'] = ['/'] ∨
        names '/' ['/', '/', 'r', 'e', 'a', 'd', 'm', 'e'] ≠ [] ∧
        (Along FirstWith Named reading (names '/' ['/', '/', 'r', 'e', 'a', 'd', 'm', 'e']) ∨
          LeadsNowhere reading (names '/' ['/', '/', 'r', 'e', 'a', 'd', 'm', 'e'])) :=
  romfs_lookup_exact_iff reading ['/', '/', 'r', 'e', 'a', 'd', 'm', 'e'] reading_tree rfl

/-- `/read` finds `readme`. -/
theorem read_finds_readme :
    dfsRomfsLookup reading ['/', 'r', 'e', 'a', 'd'] = some (some ([0], readme, 5)) ∧
      ¬ FindsExactly reading ['/', 'r', 'e', 'a', 'd'] := by
  have hlookup : dfsRomfsLookup reading ['/', 'r', 'e', 'a', 'd'] =
      some (some ([0], readme, 5)) := by
    unfold dfsRomfsLookup
    rw [if_neg (by decide), if_neg (by decide)]
    show descend (some [readme, read]) 2 ['r', 'e', 'a', 'd'] [] [] = _
    rw [descend]
    rfl
  refine ⟨hlookup, ?_⟩
  rintro ⟨r, hr, hexact⟩
  obtain rfl : some ([0], readme, 5) = r := Option.some.inj (hlookup.symm.trans hr)
  rcases (hexact [0] readme 5).mp rfl with ⟨hreaches, -⟩
  rcases reaches_cons_iff.mp hreaches with ⟨i, e, is, hnamed, -, hrest⟩
  rcases reaches_nil_iff.mp hrest with ⟨-, rfl⟩
  have hread : readme.name = ['r', 'e', 'a', 'd'] := hnamed.right.right
  cases hread

end Romfs
end RtThread.Dfs
