import RtThread.Dfs.FdAccount
import Mathlib.Logic.Function.Basic

/-!
# Descriptors used by several threads

Opens, closes, reads and writes of several threads, interleaved between the sections under
`dfs_lock`: `fd_new`, `fd_get` and `fd_put` are single steps, and so is what a call does to
its descriptor between two of them.
-/

namespace RtThread.Dfs.FdThreads

open Fd
open Function (update update_of_ne update_self)
open Transition

/-- How far a thread is in its call. -/
inductive Pc where
  | idle
  /-- `open` behind `fd_new` -/
  | openGet (fd : Nat) (path : Path) (flags : Nat)
  /-- `open` behind `fd_get` -/
  | openFile (fd : Nat) (path : Path) (flags : Nat)
  /-- `open` has failed; `more` is set before the first of the two `fd_put` -/
  | openFailed (fd : Nat) (more : Bool)
  /-- `open` has the file, before its `fd_put` -/
  | openDone (fd : Nat) (path : Path)
  /-- `close` behind `fd_get` -/
  | closeFile (fd : Nat)
  /-- `close` has closed the file; `more` is set before the first of the two `fd_put` -/
  | closed (fd : Nat) (more : Bool)
  /-- `read` or `write` behind `fd_get` -/
  | transferFile (fd : Nat)
  /-- a read, a write or a close that has failed, before its `fd_put` -/
  | putLast (fd : Nat)
deriving DecidableEq, Repr

def Pc.on : Pc -> Option Nat
  | Pc.idle => none
  | Pc.openGet fd _ _ => some fd
  | Pc.openFile fd _ _ => some fd
  | Pc.openFailed fd _ => some fd
  | Pc.openDone fd _ => some fd
  | Pc.closeFile fd => some fd
  | Pc.closed fd _ => some fd
  | Pc.transferFile fd => some fd
  | Pc.putLast fd => some fd

structure State (n : Nat) where
  fds : Fd.State
  pc : Fin n -> Pc

variable {n : Nat}

def State.goTo (x : State n) (t : Fin n) (fds : Fd.State) (pc : Pc) : State n :=
  { fds := fds, pc := Function.update x.pc t pc }

def putSlot (s : Fd.State) (fd : Nat) : Option Fd.State :=
  s.fdTable[fd]?.map fun d => store s fd (fdPut d)

/-- The next step of a call, with the answer of the method that it may call. -/
def advance (s : Fd.State) (a : Answer) : Pc -> Option (Fd.State × Pc)
  | Pc.idle => none
  | Pc.openGet fd path flags =>
    (fdGet s fd).map fun p => (store s p.1 p.2, Pc.openFile p.1 path flags)
  | Pc.openFile fd path flags =>
    s.fdTable[fd]?.map fun d =>
      let (d, result) := Fd.dfsFileOpen s d path flags a
      (store s fd d, if result < 0 then Pc.openFailed fd true else Pc.openDone fd path)
  | Pc.openFailed fd more =>
    (putSlot s fd).map fun s => (s, if more then Pc.openFailed fd false else Pc.idle)
  | Pc.openDone fd _ => (putSlot s fd).map fun s => (s, Pc.idle)
  | Pc.closeFile fd =>
    s.fdTable[fd]?.bind fun d =>
      (dfsFileClose d a).map fun (d, result) =>
        (store s fd d, if result < 0 then Pc.putLast fd else Pc.closed fd true)
  | Pc.closed fd more =>
    (putSlot s fd).map fun s => (s, if more then Pc.closed fd false else Pc.idle)
  | Pc.transferFile fd =>
    s.fdTable[fd]?.bind fun d =>
      (dfsFileTransfer d a).map fun (d, _) => (store s fd d, Pc.putLast fd)
  | Pc.putLast fd => (putSlot s fd).map fun s => (s, Pc.idle)

inductive Label (n : Nat) where
  | openCall (t : Fin n) (path : Path) (flags : Nat)
  | closeCall (t : Fin n) (fd : Int)
  | transferCall (t : Fin n) (fd : Int)
  | advance (t : Fin n) (a : Answer)
deriving DecidableEq, Repr

/-- The first step of a call is `fd_new` or `fd_get`; where it fails, the call returns. -/
def step (x : State n) : Label n -> Option (State n)
  | Label.openCall t path flags =>
    if x.pc t ≠ Pc.idle then none
    else
      match fdNew x.fds with
      | none => some x
      | some (fd, d) => some (x.goTo t (store x.fds fd d) (Pc.openGet fd path flags))
  | Label.closeCall t fd =>
    if x.pc t ≠ Pc.idle then none
    else
      match fdGet x.fds fd with
      | none => some x
      | some (fd, d) => some (x.goTo t (store x.fds fd d) (Pc.closeFile fd))
  | Label.transferCall t fd =>
    if x.pc t ≠ Pc.idle then none
    else
      match fdGet x.fds fd with
      | none => some x
      | some (fd, d) => some (x.goTo t (store x.fds fd d) (Pc.transferFile fd))
  | Label.advance t a =>
    (advance x.fds a (x.pc t)).map fun p => x.goTo t p.1 p.2

/-!
## What is claimed
-/

/-- The descriptors that an open has returned and on which no close was called, each with the
file that was asked for. -/
abbrev Returned := Int -> Option FdFile

def record (x : State n) (l : Label n) (_ : State n) (held : Returned) : Returned :=
  match l with
  | Label.closeCall _ fd => Function.update held fd none
  | Label.advance t _ =>
    match x.pc t with
    | Pc.openDone fd path =>
      Function.update held fd (Dfs.dfsFileOpen x.fds.workdir x.fds.filesystems path)
    | _ => held
  | _ => held

def Shows (d : DfsFd) (file : FdFile) : Prop := d.fs = file.fs ∧ d.path = some file.path

/-- `fd_get` succeeds on every descriptor that was returned, and finds its file. -/
def Valid (s : Fd.State) (held : Returned) : Prop :=
  forall fd file, held fd = some file -> exists m d, fdGet s fd = some (m, d) ∧ Shows d file

def Untouched (x : State n) (fd : Int) : Prop :=
  forall t m, m ∈ (x.pc t).on -> (m : Int) ≠ fd

/-- Calls of several threads at a time are on different descriptors. -/
def Apart (x : State n) : Label n -> Prop
  | Label.closeCall _ fd => Untouched x fd
  | Label.transferCall _ fd => Untouched x fd
  | _ => True

/-- The slot that `fd_new` finds is not one that a call still gives references back to. -/
def Settled (x : State n) : Label n -> Prop
  | Label.openCall _ _ _ => forall p, p ∈ fdNew x.fds -> Untouched x p.1
  | _ => True

instance (x : State n) (fd : Int) : Decidable (Untouched x fd) :=
  inferInstanceAs (Decidable (forall t m, m ∈ (x.pc t).on -> (m : Int) ≠ fd))

instance (x : State n) : (l : Label n) -> Decidable (Apart x l)
  | Label.closeCall _ fd => inferInstanceAs (Decidable (Untouched x fd))
  | Label.transferCall _ fd => inferInstanceAs (Decidable (Untouched x fd))
  | Label.openCall _ _ _ => inferInstanceAs (Decidable True)
  | Label.advance _ _ => inferInstanceAs (Decidable True)

instance (x : State n) : (l : Label n) -> Decidable (Settled x l)
  | Label.openCall _ _ _ =>
    inferInstanceAs (Decidable (forall p, p ∈ fdNew x.fds -> Untouched x p.1))
  | Label.closeCall _ _ => inferInstanceAs (Decidable True)
  | Label.transferCall _ _ => inferInstanceAs (Decidable True)
  | Label.advance _ _ => inferInstanceAs (Decidable True)

structure Initial (x : State n) : Prop where
  table : exists m, x.fds.fdTable = List.replicate m clearFd
  pc : forall t, x.pc t = Pc.idle

/-!
## Slots
-/

structure Single (d : DfsFd) : Prop where
  magic : d.magic = fdMagic
  one : d.refCount = 1

/-- The descriptor was cleared, and its count has come down to `k` since. -/
structure Gone (k : Int) (d : DfsFd) : Prop where
  magic : d.magic ≠ fdMagic
  count : d.refCount = k

def Resting (d : DfsFd) : Prop := Single d ∨ Fd.Free d

def Fits (s : Fd.State) (d : DfsFd) : Pc -> Prop
  | Pc.idle => False
  | Pc.openGet _ _ _ => Single d
  | Pc.openFile _ _ _ => Fresh d
  | Pc.openFailed _ true => Fresh d ∨ Gone 0 d
  | Pc.openFailed _ false => Single d ∨ Gone (-1) d
  | Pc.openDone _ path => Fresh d ∧ exists file,
      Dfs.dfsFileOpen s.workdir s.filesystems path = some file ∧ Shows d file
  | Pc.closeFile _ => Fresh d
  | Pc.closed _ true => Gone 0 d
  | Pc.closed _ false => Gone (-1) d
  | Pc.transferFile _ => Fresh d
  | Pc.putLast _ => Fresh d

def Pc.Transfers : Pc -> Prop
  | Pc.transferFile _ => True
  | Pc.putLast _ => True
  | _ => False

variable {s : Fd.State} {d d' : DfsFd} {a : Answer} {file : FdFile} {fd : Nat}

theorem Single.addRef (h : Single d) : Fresh (addRef d) := by
  refine ⟨h.magic, ?_⟩
  show (d.refCount + 1).bmod (2 ^ 32) = 2
  rw [h.one]
  rfl

theorem fdPut_of_two (h : d.refCount = 2) : fdPut d = { d with refCount := 1 } := by
  unfold fdPut
  rw [h]
  rfl

theorem single_fdPut (h : Fresh d) : Single (fdPut d) := by
  rw [fdPut_of_two h.two]
  exact ⟨h.magic, rfl⟩

theorem Single.fdPut (h : Single d) : fdPut d = clearFd := by
  unfold Fd.fdPut
  rw [h.one]
  rfl

theorem gone_fdPut_zero (h : Gone 0 d) : Gone (-1) (fdPut d) := by
  unfold fdPut
  rw [h.count]
  exact ⟨h.magic, rfl⟩

theorem gone_fdPut_one (h : Gone (-1) d) : Fd.Free (fdPut d) := by
  unfold fdPut
  rw [h.count]
  exact ⟨h.magic, show (-2 : Int) ≤ 0 by decide⟩

theorem gone_clearFd : Gone 0 clearFd := ⟨by decide, rfl⟩

theorem Shows.fdPut (h : Shows d file) (hfresh : Fresh d) : Shows (fdPut d) file := by
  rw [fdPut_of_two hfresh.two]
  exact h

variable {path : Path} {flags : Nat} {r : Int} {s' : Fd.State}

theorem dfsFileOpen_shows (hr : ¬ r < 0) (h : Fd.dfsFileOpen s d path flags a = (d', r)) :
    exists file, Dfs.dfsFileOpen s.workdir s.filesystems path = some file ∧ Shows d' file := by
  unfold Fd.dfsFileOpen at h
  split at h
  · cases h
    exact absurd (by decide) hr
  · split at h
    · cases h
      exact absurd (by decide) hr
    · split at h
      · cases h
        exact absurd (by decide) hr
      · next file hfile =>
          refine ⟨file, hfile, ?_⟩
          split at h
          · next hfailed =>
              cases h
              exact absurd hfailed hr
          · simp only at h
            split at h
            · cases h
              exact ⟨rfl, rfl⟩
            · cases h
              exact ⟨rfl, rfl⟩

/-!
## The invariant
-/

/-- At most one call works on a descriptor, which fits how far the call is; the others rest;
and a returned descriptor has its file. -/
structure Sound (x : State n) (held : Returned) : Prop where
  alone : forall t t' m, (x.pc t).on = some m -> (x.pc t').on = some m -> t = t'
  busy : forall t m, (x.pc t).on = some m ->
    x.fds.first ≤ m ∧ exists d, x.fds.fdTable[m]? = some d ∧ Fits x.fds d (x.pc t)
  rest : forall m d, (forall t, (x.pc t).on ≠ some m) -> x.fds.fdTable[m]? = some d ->
    Resting d
  held : forall fd file, held fd = some file -> exists (m : Nat) (d : DfsFd), (m : Int) = fd ∧
    x.fds.first ≤ m ∧ x.fds.fdTable[m]? = some d ∧ d.magic = fdMagic ∧ Shows d file ∧
    forall t, (x.pc t).on = some m -> (x.pc t).Transfers

variable {x x' : State n} {held held' : Returned} {t : Fin n} {pc pc' : Pc}

theorem goTo_pc_self : (x.goTo t s pc).pc t = pc := update_self _ _ _

theorem goTo_pc_of_ne {t' : Fin n} (hne : t' ≠ t) : (x.goTo t s pc).pc t' = x.pc t' :=
  update_of_ne hne _ _

theorem on_goTo {t' : Fin n} {m : Nat} (h : ((x.goTo t s pc).pc t').on = some m) :
    (t' = t ∧ pc.on = some m) ∨ (t' ≠ t ∧ (x.pc t').on = some m) := by
  rcases eq_or_ne t' t with rfl | hne
  · rw [goTo_pc_self] at h
    exact Or.inl ⟨rfl, h⟩
  · rw [goTo_pc_of_ne hne] at h
    exact Or.inr ⟨hne, h⟩

theorem fits_store (h : Fits s d pc) : Fits (store s fd d') d pc := by
  cases pc with
  | openFailed fd more =>
    cases more with
    | true => exact h
    | false => exact h
  | closed fd more =>
    cases more with
    | true => exact h
    | false => exact h
  | idle => exact h
  | openGet fd path flags => exact h
  | openFile fd path flags => exact h
  | openDone fd path => exact h
  | closeFile fd => exact h
  | transferFile fd => exact h
  | putLast fd => exact h

theorem Sound.move (hsound : Sound x held) (hfirst : x.fds.first ≤ fd)
    (hlt : fd < x.fds.fdTable.length)
    (hother : forall t', t' ≠ t -> (x.pc t').on ≠ some fd)
    (hold : forall m, (x.pc t).on = some m -> m = fd)
    (hnew : (pc.on = some fd ∧ Fits x.fds d pc) ∨ (pc.on = none ∧ Resting d))
    (hheld : forall k : Int, k ≠ fd -> held' k = held k)
    (hfile : forall file, held' fd = some file ->
      d.magic = fdMagic ∧ Shows d file ∧ (pc.on = some fd -> pc.Transfers)) :
    Sound (x.goTo t (store x.fds fd d) pc) held' := by
  have hon {m : Nat} (h : pc.on = some m) : m = fd ∧ Fits x.fds d pc := by
    rcases hnew with ⟨hpc, hfits⟩ | ⟨hpc, _⟩
    · rw [hpc] at h
      exact ⟨(Option.some.inj h).symm, hfits⟩
    · rw [hpc] at h
      cases h
  have hself : (store x.fds fd d).fdTable[fd]? = some d := List.getElem?_set_self hlt
  have helse {m : Nat} (hne : m ≠ fd) : (store x.fds fd d).fdTable[m]? = x.fds.fdTable[m]? :=
    List.getElem?_set_ne (Ne.symm hne)
  refine ⟨?_, ?_, ?_, ?_⟩
  · intro t1 t2 m h1 h2
    rcases on_goTo h1 with ⟨rfl, hpc1⟩ | ⟨hne1, hpc1⟩
    · rcases on_goTo h2 with ⟨rfl, _⟩ | ⟨hne2, hpc2⟩
      · rfl
      · rw [(hon hpc1).1] at hpc2
        exact absurd hpc2 (hother t2 hne2)
    · rcases on_goTo h2 with ⟨rfl, hpc2⟩ | ⟨_, hpc2⟩
      · rw [(hon hpc2).1] at hpc1
        exact absurd hpc1 (hother t1 hne1)
      · exact hsound.alone t1 t2 m hpc1 hpc2
  · intro t1 m h1
    rcases on_goTo h1 with ⟨rfl, hpc1⟩ | ⟨hne, hpc1⟩
    · obtain ⟨rfl, hfits⟩ := hon hpc1
      rw [goTo_pc_self]
      exact ⟨hfirst, d, hself, fits_store hfits⟩
    · have hmfd : m ≠ fd := by
        rintro rfl
        exact hother t1 hne hpc1
      obtain ⟨hm, d1, hd1, hfits⟩ := hsound.busy t1 m hpc1
      rw [goTo_pc_of_ne hne]
      exact ⟨hm, d1, (helse hmfd).trans hd1, fits_store hfits⟩
  · intro m d1 hnone hd1
    change (store x.fds fd d).fdTable[m]? = some d1 at hd1
    rcases eq_or_ne m fd with rfl | hne
    · rw [hself] at hd1
      cases hd1
      rcases hnew with ⟨hpc, _⟩ | ⟨_, hrest⟩
      · have hbusy := hnone t
        rw [goTo_pc_self] at hbusy
        exact absurd hpc hbusy
      · exact hrest
    · rw [helse hne] at hd1
      refine hsound.rest m d1 ?_ hd1
      intro t1 h1
      rcases eq_or_ne t1 t with rfl | hne1
      · exact hne (hold m h1)
      · have hbusy := hnone t1
        rw [goTo_pc_of_ne hne1] at hbusy
        exact hbusy h1
  · intro k file hk
    rcases eq_or_ne k (fd : Int) with rfl | hne
    · obtain ⟨hmagic, hshows, htransfers⟩ := hfile file hk
      refine ⟨fd, d, rfl, hfirst, hself, hmagic, hshows, ?_⟩
      intro t1 h1
      rcases on_goTo h1 with ⟨rfl, hpc1⟩ | ⟨hne1, hpc1⟩
      · rw [goTo_pc_self]
        exact htransfers hpc1
      · exact absurd hpc1 (hother t1 hne1)
    · rw [hheld k hne] at hk
      obtain ⟨m, d1, hm, hfirst1, hd1, hmagic, hshows, htransfers⟩ := hsound.held k file hk
      have hmfd : m ≠ fd := by
        rintro rfl
        exact hne hm.symm
      refine ⟨m, d1, hm, hfirst1, (helse hmfd).trans hd1, hmagic, hshows, ?_⟩
      intro t1 h1
      rcases on_goTo h1 with ⟨rfl, hpc1⟩ | ⟨hne1, hpc1⟩
      · exact absurd (hon hpc1).1 hmfd
      · rw [goTo_pc_of_ne hne1]
        exact htransfers t1 hpc1

/-- What a step leaves behind: a descriptor that fits the rest of the call, or one that rests
behind its end. -/
def Next (s : Fd.State) (fd : Nat) (d : DfsFd) (pc : Pc) : Prop :=
  (pc.on = some fd ∧ Fits s d pc) ∨ (pc.on = none ∧ Resting d)

theorem Sound.proceed {old : Pc} (hsound : Sound x held) (hcase : x.pc t = old)
    (hon : old.on = some fd) (hd : x.fds.fdTable[fd]? = some d)
    (hnew : Fits x.fds d old -> Next x.fds fd d' pc)
    (hkeep : old.Transfers -> Fits x.fds d old -> d'.magic = fdMagic ∧
      (forall file, Shows d file -> Shows d' file) ∧ (pc.on = some fd -> pc.Transfers)) :
    Sound (x.goTo t (store x.fds fd d') pc) held := by
  subst hcase
  obtain ⟨hfirst, d1, hd1, hfits⟩ := hsound.busy t fd hon
  rw [hd] at hd1
  cases hd1
  refine hsound.move hfirst (List.getElem?_eq_some_iff.mp hd).1 ?_ ?_ (hnew hfits)
    (fun _ _ => rfl) ?_
  · intro t' hne hpc'
    exact hne (hsound.alone t' t fd hpc' hon)
  · intro m hm
    exact Option.some.inj (hm.symm.trans hon)
  · intro file hfile
    obtain ⟨m, d1, hm, _, hd1, _, hshows, htransfers⟩ := hsound.held fd file hfile
    obtain rfl : m = fd := by omega
    obtain ⟨hmagic, hsame, hpc'⟩ := hkeep (htransfers t hon) hfits
    rw [hd] at hd1
    cases hd1
    exact ⟨hmagic, hsame file hshows, hpc'⟩

theorem putSlot_some (h : putSlot s fd = some s') :
    exists d, s.fdTable[fd]? = some d ∧ s' = store s fd (fdPut d) := by
  unfold putSlot at h
  rw [Option.map_eq_some_iff] at h
  obtain ⟨d, hd, rfl⟩ := h
  exact ⟨d, hd, rfl⟩

theorem Sound.puts {old : Pc} (hsound : Sound x held)
    (hcase : x.pc t = old) (hon : old.on = some fd)
    (hs : (putSlot x.fds fd).map (fun s => (s, pc)) = some (s', pc'))
    (hnew : forall d, Fits x.fds d old -> Next x.fds fd (fdPut d) pc)
    (hfresh : forall d, old.Transfers -> Fits x.fds d old -> Fresh d ∧ pc = Pc.idle) :
    Sound (x.goTo t s' pc') held := by
  rw [Option.map_eq_some_iff] at hs
  obtain ⟨s1, hput, heq⟩ := hs
  cases heq
  obtain ⟨d, hd, rfl⟩ := putSlot_some hput
  refine hsound.proceed hcase hon hd (hnew d) ?_
  intro htransfers hfits
  obtain ⟨htwo, rfl⟩ := hfresh d htransfers hfits
  exact ⟨(single_fdPut htwo).magic, fun _ hshows => hshows.fdPut htwo, nofun⟩

theorem next_openFile (hfresh : Fresh d) (hopen : Fd.dfsFileOpen s d path flags a = (d', r)) :
    Next s fd d' (if r < 0 then Pc.openFailed fd true else Pc.openDone fd path) := by
  split
  · refine Or.inl ⟨rfl, ?_⟩
    rcases dfsFileOpen_spec hopen with ⟨_, rfl, _⟩ | ⟨_, rfl⟩ | ⟨rfl, _⟩
    · exact Or.inl hfresh
    · exact Or.inr gone_clearFd
    · omega
  · next hr =>
      refine Or.inl ⟨rfl, ?_, dfsFileOpen_shows hr hopen⟩
      rcases dfsFileOpen_spec hopen with ⟨hr', _⟩ | ⟨hr', _⟩ | ⟨_, hmagic, hcount, _⟩
      · exact absurd hr' hr
      · exact absurd hr' hr
      · exact ⟨hmagic.trans hfresh.magic, hcount.trans hfresh.two⟩

theorem next_closeFile (hfresh : Fresh d) (hclose : dfsFileClose d a = some (d', r)) :
    Next s fd d' (if r < 0 then Pc.putLast fd else Pc.closed fd true) := by
  unfold dfsFileClose at hclose
  rw [Option.map_eq_some_iff] at hclose
  obtain ⟨_, _, hclose⟩ := hclose
  split at hclose
  · next hr =>
      cases hclose
      rw [if_pos hr]
      exact Or.inl ⟨rfl, hfresh.answered⟩
  · next hr =>
      cases hclose
      rw [if_neg hr]
      exact Or.inl ⟨rfl, gone_clearFd⟩

theorem next_openFailed {more : Bool} (hfits : Fits s d (Pc.openFailed fd more)) :
    Next s fd (fdPut d) (if more then Pc.openFailed fd false else Pc.idle) := by
  cases more with
  | true =>
    rcases hfits with hfresh | hgone
    · exact Or.inl ⟨rfl, Or.inl (single_fdPut hfresh)⟩
    · exact Or.inl ⟨rfl, Or.inr (gone_fdPut_zero hgone)⟩
  | false =>
    rcases hfits with hsingle | hgone
    · refine Or.inr ⟨rfl, Or.inr ?_⟩
      rw [hsingle.fdPut]
      exact free_clearFd
    · exact Or.inr ⟨rfl, Or.inr (gone_fdPut_one hgone)⟩

theorem next_closed {more : Bool} (hfits : Fits s d (Pc.closed fd more)) :
    Next s fd (fdPut d) (if more then Pc.closed fd false else Pc.idle) := by
  cases more with
  | true => exact Or.inl ⟨rfl, gone_fdPut_zero hfits⟩
  | false => exact Or.inr ⟨rfl, Or.inr (gone_fdPut_one hfits)⟩

theorem Sound.advance (hsound : Sound x held)
    (hreturn : forall fd path, x.pc t ≠ Pc.openDone fd path)
    (hs : advance x.fds a (x.pc t) = some (s', pc)) : Sound (x.goTo t s' pc) held := by
  cases hcase : x.pc t with
  | idle =>
    rw [hcase] at hs
    cases hs
  | openGet fd path flags =>
    rw [hcase, FdThreads.advance, Option.map_eq_some_iff] at hs
    obtain ⟨⟨m, d'⟩, hget, heq⟩ := hs
    cases heq
    obtain ⟨hm, _, d, hd, _, rfl⟩ := fdGet_slot hget
    obtain rfl : m = fd := by omega
    exact hsound.proceed hcase rfl hd (fun hsingle => Or.inl ⟨rfl, Single.addRef hsingle⟩) nofun
  | openFile fd path flags =>
    rw [hcase, FdThreads.advance, Option.map_eq_some_iff] at hs
    obtain ⟨d, hd, heq⟩ := hs
    cases heq
    exact hsound.proceed hcase rfl hd (fun hfresh => next_openFile hfresh rfl) nofun
  | openFailed fd more =>
    rw [hcase] at hs
    exact hsound.puts hcase rfl hs (fun _ => next_openFailed) nofun
  | openDone fd path => exact absurd hcase (hreturn fd path)
  | closeFile fd =>
    rw [hcase, FdThreads.advance, Option.bind_eq_some_iff] at hs
    obtain ⟨d, hd, hs⟩ := hs
    rw [Option.map_eq_some_iff] at hs
    obtain ⟨⟨d', r⟩, hclose, heq⟩ := hs
    cases heq
    exact hsound.proceed hcase rfl hd (fun hfresh => next_closeFile hfresh hclose) nofun
  | closed fd more =>
    rw [hcase] at hs
    exact hsound.puts hcase rfl hs (fun _ => next_closed) nofun
  | transferFile fd =>
    rw [hcase, FdThreads.advance, Option.bind_eq_some_iff] at hs
    obtain ⟨d, hd, hs⟩ := hs
    unfold dfsFileTransfer at hs
    simp only [Option.map_eq_some_iff] at hs
    obtain ⟨_, ⟨_, _, rfl⟩, heq⟩ := hs
    cases heq
    exact hsound.proceed hcase rfl hd (fun hfresh => Or.inl ⟨rfl, Fresh.answered hfresh⟩)
      fun _ hfresh => ⟨hfresh.magic, fun _ hshows => hshows, fun _ => trivial⟩
  | putLast fd =>
    rw [hcase] at hs
    exact hsound.puts hcase rfl hs (fun _ hfresh => Or.inr ⟨rfl, Or.inl (single_fdPut hfresh)⟩)
      fun _ _ hfresh => ⟨hfresh, rfl⟩

theorem Sound.returns (hsound : Sound x held) (hcase : x.pc t = Pc.openDone fd path)
    (hs : FdThreads.advance x.fds a (x.pc t) = some (s', pc)) :
    Sound (x.goTo t s' pc)
      (update held fd (Dfs.dfsFileOpen x.fds.workdir x.fds.filesystems path)) := by
  have hon : (x.pc t).on = some fd := by
    rw [hcase]
    rfl
  rw [hcase, FdThreads.advance, Option.map_eq_some_iff] at hs
  obtain ⟨s1, hput, heq⟩ := hs
  cases heq
  obtain ⟨d, hd, rfl⟩ := putSlot_some hput
  obtain ⟨hfirst, d1, hd1, hfits⟩ := hsound.busy t fd hon
  rw [hd] at hd1
  cases hd1
  rw [hcase] at hfits
  obtain ⟨hfresh, file, hfile, hshows⟩ := hfits
  refine hsound.move hfirst (List.getElem?_eq_some_iff.mp hd).1 ?_ ?_
    (Or.inr ⟨rfl, Or.inl (single_fdPut hfresh)⟩) (fun k hk => update_of_ne hk _ _) ?_
  · intro t' hne hpc'
    exact hne (hsound.alone t' t fd hpc' hon)
  · intro m hm
    exact Option.some.inj (hm.symm.trans hon)
  · intro file' hfile'
    rw [update_self, hfile] at hfile'
    cases hfile'
    exact ⟨(single_fdPut hfresh).magic, hshows.fdPut hfresh, nofun⟩

/-!
## Calls
-/

theorem Sound.single (hsound : Sound x held) (hquiet : Untouched x fd)
    (hd : x.fds.fdTable[fd]? = some d) (hmagic : d.magic = fdMagic) : Single d := by
  rcases hsound.rest fd d (fun t ht => hquiet t fd ht rfl) hd with hsingle | hfree
  · exact hsingle
  · exact absurd hmagic hfree.1

theorem Sound.openCall (hsound : Sound x held)
    (hidle : x.pc t = Pc.idle) (hnew : fdNew x.fds = some (fd, d)) (hquiet : Untouched x fd) :
    Sound (x.goTo t (store x.fds fd d) (Pc.openGet fd path flags)) held := by
  obtain ⟨hfirst, d0, hd0, hcount, rfl⟩ := fdNew_slot hnew
  refine hsound.move hfirst (List.getElem?_eq_some_iff.mp hd0).1 ?_ ?_
    (Or.inl ⟨rfl, rfl, rfl⟩) (fun _ _ => rfl) ?_
  · intro t' _ ht'
    exact hquiet t' fd ht' rfl
  · intro m hm
    rw [hidle] at hm
    cases hm
  · intro file hfile
    -- a returned descriptor has a reference, so `fd_new` does not find it
    obtain ⟨m, d1, hm, _, hd1, hmagic, _⟩ := hsound.held fd file hfile
    obtain rfl : m = fd := by omega
    rw [hd0] at hd1
    cases hd1
    have hone := (hsound.single hquiet hd0 hmagic).one
    omega

theorem Sound.getCall {k : Int} (hsound : Sound x held) (hidle : x.pc t = Pc.idle)
    (hget : fdGet x.fds k = some (fd, d)) (hquiet : Untouched x k)
    (hpc : forall d, Fresh d -> Next x.fds fd d pc)
    (hheld : forall j : Int, j ≠ k -> held' j = held j)
    (hsame : forall file, held' k = some file -> held k = some file ∧ pc.Transfers) :
    Sound (x.goTo t (store x.fds fd d) pc) held' := by
  obtain ⟨rfl, hfirst, d0, hd0, hmagic, rfl⟩ := fdGet_slot hget
  have hfresh := (hsound.single hquiet hd0 hmagic).addRef
  refine hsound.move hfirst (List.getElem?_eq_some_iff.mp hd0).1 ?_ ?_ (hpc _ hfresh) hheld ?_
  · intro t' _ ht'
    exact hquiet t' fd ht' rfl
  · intro m hm
    rw [hidle] at hm
    cases hm
  · intro file hfile
    obtain ⟨hfile, htransfers⟩ := hsame file hfile
    obtain ⟨m, d1, hm, _, hd1, _, hshows, _⟩ := hsound.held fd file hfile
    obtain rfl : m = fd := by omega
    rw [hd0] at hd1
    cases hd1
    exact ⟨hmagic, hshows, fun _ => htransfers⟩

theorem Sound.forget (hsound : Sound x held) (k : Int) : Sound x (update held k none) := by
  refine ⟨hsound.alone, hsound.busy, hsound.rest, ?_⟩
  intro fd file hfile
  rcases eq_or_ne fd k with rfl | hne
  · rw [update_self] at hfile
    cases hfile
  · rw [update_of_ne hne] at hfile
    exact hsound.held fd file hfile

theorem Sound.step {l : Label n} (hsound : Sound x held) (hapart : Apart x l)
    (hsettled : Settled x l) (hs : step x l = some x') : Sound x' (record x l x' held) := by
  cases l with
  | openCall t path flags =>
    rw [FdThreads.step] at hs
    split at hs
    · cases hs
    · next hidle =>
        split at hs
        · cases hs
          exact hsound
        · next hnew =>
            cases hs
            exact hsound.openCall (not_not.mp hidle) hnew (hsettled _ hnew)
  | closeCall t fd =>
    rw [FdThreads.step] at hs
    split at hs
    · cases hs
    · next hidle =>
        split at hs
        · cases hs
          exact hsound.forget fd
        · next hget =>
            cases hs
            refine hsound.getCall (not_not.mp hidle) hget hapart
              (fun _ hfresh => Or.inl ⟨rfl, hfresh⟩)
              (fun j hj => update_of_ne hj _ _) ?_
            intro file hfile
            simp only [record, update_self] at hfile
            cases hfile
  | transferCall t fd =>
    rw [FdThreads.step] at hs
    split at hs
    · cases hs
    · next hidle =>
        split at hs
        · cases hs
          exact hsound
        · next hget =>
            cases hs
            exact hsound.getCall (not_not.mp hidle) hget hapart
              (fun _ hfresh => Or.inl ⟨rfl, hfresh⟩) (fun _ _ => rfl)
              fun _ hfile => ⟨hfile, trivial⟩
  | advance t a =>
    rw [FdThreads.step] at hs
    rw [Option.map_eq_some_iff] at hs
    obtain ⟨⟨s', pc⟩, hadvance, rfl⟩ := hs
    simp only [record]
    split
    · next fd path hcase => exact hsound.returns hcase hadvance
    · next hreturn => exact hsound.advance hreturn hadvance

/-!
## Runs
-/

theorem Initial.sound (hinit : Initial x) : Sound x fun _ => none := by
  obtain ⟨m, htable⟩ := hinit.table
  have hidle (t : Fin n) (m : Nat) : (x.pc t).on ≠ some m := by
    rw [hinit.pc t]
    exact Option.some_ne_none m |>.symm
  refine ⟨?_, ?_, ?_, nofun⟩
  · intro t t' m ht
    exact absurd ht (hidle t m)
  · intro t m ht
    exact absurd ht (hidle t m)
  · intro k d _ hd
    rw [htable, List.getElem?_replicate] at hd
    split at hd
    · cases hd
      exact Or.inr free_clearFd
    · cases hd

theorem Sound.valid (hsound : Sound x held) : Valid x.fds held := by
  intro fd file hfile
  obtain ⟨m, d, rfl, hfirst, hd, hmagic, hshows, _⟩ := hsound.held fd file hfile
  exact ⟨m, addRef d, fdGet_of_slot hfirst hd hmagic, hshows⟩

/-- In every run in which `fd_new` finds no slot that a call still works on, a descriptor
stays valid from its open until close is called on it. -/
theorem descriptor_stays_valid {x0 : State n} {labels : List (Label n)} (hinit : Initial x0)
    (hrun : Run (Guarded (fun (y : State n × Returned) l => Apart y.1 l ∧ Settled y.1 l)
      (Graph (watched FdThreads.step record))) (x0, fun _ => none) labels (x, held)) :
    Valid x.fds held := by
  have hsound : Sound x held := by
    apply hrun.guarded_watched_invariant Sound hinit.sound
    rintro x held l x' hsound ⟨hapart, hsettled⟩ hstep
    exact Sound.step hsound hapart hsettled hstep
  exact hsound.valid

def twoThreads : State 2 := { fds := sampleState, pc := fun _ => Pc.idle }

theorem twoThreads_initial : Initial twoThreads := ⟨⟨2, rfl⟩, fun _ => rfl⟩

def opens (t : Fin 2) (path : Path) : List (Label 2) :=
  [Label.openCall t path 0, Label.advance t (answer 0), Label.advance t (answer 0),
    Label.advance t (answer 0)]

def sampleLabels : List (Label 2) :=
  opens 0 ['/', 'a'] ++ opens 1 ['/', 'b'] ++
    [Label.closeCall 0 0, Label.transferCall 1 1, Label.advance 0 (answer 0),
      Label.advance 1 (answer 3), Label.advance 0 (answer 0), Label.advance 1 (answer 0)]

theorem descriptor_stays_valid_reader :
    exists x held, Run (Guarded
        (fun (y : State 2 × Returned) l => Apart y.1 l ∧ Settled y.1 l)
        (Graph (watched FdThreads.step record)))
      (twoThreads, fun _ => none) sampleLabels (x, held) ∧
      held 1 = some { fs := some 0, path := ['/', 'b'] } ∧ Valid x.fds held := by
  have hexec : (exec (fun (y : State 2 × Returned) l =>
      if Apart y.1 l ∧ Settled y.1 l then watched FdThreads.step record y l else none)
      (twoThreads, fun _ => none) sampleLabels).map (fun y => y.2 1) =
      some (some { fs := some 0, path := ['/', 'b'] }) := by
    decide +kernel
  obtain ⟨⟨x, held⟩, hexec, hheld⟩ := Option.map_eq_some_iff.mp hexec
  have hrun := @guarded_run_of_exec _ _ _ _
    (fun (y : State 2 × Returned) l => Apart y.1 l ∧ Settled y.1 l) _ _ _ hexec
  exact ⟨x, held, hrun, hheld, descriptor_stays_valid twoThreads_initial hrun⟩

/-- The second thread gets the slot that the first has cleared and still has to give back. -/
def lateLabels : List (Label 2) :=
  opens 0 ['/', 'a'] ++ [Label.closeCall 0 0, Label.advance 0 (answer 0)] ++
    opens 1 ['/', 'b'] ++ [Label.advance 0 (answer 0)]

theorem close_disturbs_open :
    ¬ forall (n : Nat) (x0 x : State n) (labels : List (Label n)) (held : Returned),
      Initial x0 ->
      Run (Guarded (fun (y : State n × Returned) l => Apart y.1 l)
        (Graph (watched FdThreads.step record))) (x0, fun _ => none) labels (x, held) ->
      Valid x.fds held := by
  intro hclaim
  have hexec : (exec (fun (y : State 2 × Returned) l =>
      if Apart y.1 l then watched FdThreads.step record y l else none)
      (twoThreads, fun _ => none) lateLabels).map
        (fun y => (y.2 0, (fdGet y.1.fds 0).isSome)) =
      some (some { fs := some 0, path := ['/', 'b'] }, false) := by
    decide +kernel
  obtain ⟨⟨x, held⟩, hexec, hlost⟩ := Option.map_eq_some_iff.mp hexec
  have hrun := @guarded_run_of_exec _ _ _ _
    (fun (y : State 2 × Returned) l => Apart y.1 l) _ _ _ hexec
  rw [Prod.mk.injEq] at hlost
  obtain ⟨m, d, hget, _⟩ := hclaim _ _ _ _ _ twoThreads_initial hrun _ _ hlost.1
  have hnone := hlost.2
  rw [hget] at hnone
  cases hnone

end RtThread.Dfs.FdThreads
