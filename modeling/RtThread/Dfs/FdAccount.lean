import RtThread.Dfs.Fd

/-!
# Conservation of file descriptors

The slots of the table that are in use are counted against the descriptors and directory
streams that the caller holds.
-/

namespace RtThread.Dfs.Fd

open Slots
open Transition

/-- The slots that `fd_new` will not hand out. -/
def occupied (s : State) : Nat := s.fdTable.countP fun d => 0 < d.refCount

/-- The descriptors that the caller holds: those of opens and streams that succeeded, less
those whose close succeeded. -/
def note (live : List Nat) : Op -> Int -> List Nat
  | Op.openFile _ _ _, r => if 0 ≤ r then r.toNat :: live else live
  | Op.opendir _ _ _ _, r => if 0 ≤ r then r.toNat :: live else live
  | Op.close fd _, r => if r = 0 then live.erase fd.toNat else live
  | Op.closedir dir _, r => if r = 0 then live.erase dir.fd.toNat else live
  | _, _ => live

def record (s : State) (op : Op) (_ : State) (live : List Nat) : List Nat :=
  match stepResult s op with
  | some (_, r) => note live op r
  | none => live

def Resolves (s : State) (path : Path) (a : Answer) : Prop :=
  ((normalizeIf a.memory s.workdir path).bind (dfsFilesystemLookup s.filesystems)).isSome

def Opens (s : State) (path : Path) (a : Answer) : Prop :=
  (Dfs.dfsFileOpen s.workdir s.filesystems path).isSome ∧ 0 ≤ a.result

instance (s : State) (path : Path) (a : Answer) : Decidable (Resolves s path a) :=
  inferInstanceAs (Decidable (_ = true))

instance (s : State) (path : Path) (a : Answer) : Decidable (Opens s path a) :=
  inferInstanceAs (Decidable (_ ∧ _))

/-- The path of a directory that is made gets memory and leads to a filesystem, which closes what
it has opened; a directory stream is closed successfully, and the references `lseek` keeps do not
overflow. -/
def Balanced (s : State) : Op -> Prop
  | Op.mkdir path opening closing =>
    forall p, p ∈ fdNew s ->
      Resolves s path opening ∧ (Opens s path opening -> 0 ≤ closing.result)
  | Op.closedir dir a => forall p, p ∈ fdGet s dir.fd -> 0 ≤ a.result
  | Op.lseek fd offset whence _ =>
    forall p, p ∈ fdGet s fd -> seekTarget p.2 offset whence = none ->
      p.2.refCount < 2 ^ 31 - 1
  | _ => True

instance (s : State) : (op : Op) -> Decidable (Balanced s op)
  | Op.mkdir path opening closing =>
    inferInstanceAs (Decidable (forall p, p ∈ fdNew s ->
      Resolves s path opening ∧ (Opens s path opening -> 0 ≤ closing.result)))
  | Op.closedir dir a =>
      inferInstanceAs (Decidable (forall p, p ∈ fdGet s dir.fd -> 0 ≤ a.result))
  | Op.lseek fd offset whence _ =>
    inferInstanceAs (Decidable (forall p, p ∈ fdGet s fd ->
      seekTarget p.2 offset whence = none -> p.2.refCount < 2 ^ 31 - 1))
  | Op.openFile _ _ _ => inferInstanceAs (Decidable True)
  | Op.close _ _ => inferInstanceAs (Decidable True)
  | Op.read _ _ => inferInstanceAs (Decidable True)
  | Op.write _ _ => inferInstanceAs (Decidable True)
  | Op.fstat _ => inferInstanceAs (Decidable True)
  | Op.opendir _ _ _ _ => inferInstanceAs (Decidable True)
  | Op.readdir _ _ _ => inferInstanceAs (Decidable True)

/-!
## Descriptors
-/

structure Used (d : DfsFd) : Prop where
  magic : d.magic = fdMagic
  positive : 1 ≤ d.refCount
  room : d.refCount < 2 ^ 31 - 1
  fs : d.fs ≠ none

/-- A descriptor that a call works on, behind its `fd_get`. -/
structure Held (d : DfsFd) : Prop where
  magic : d.magic = fdMagic
  positive : 2 ≤ d.refCount
  room : d.refCount < 2 ^ 31
  fs : d.fs ≠ none

/-- A descriptor behind `fd_new` and `fd_get`. -/
structure Fresh (d : DfsFd) : Prop where
  magic : d.magic = fdMagic
  two : d.refCount = 2

def Free (d : DfsFd) : Prop := d.magic ≠ fdMagic ∧ d.refCount ≤ 0

variable {s s' : State} {live : List Nat} {d d' : DfsFd} {a : Answer} {n : Nat} {r : Int}

theorem bmod_int {x : Int} (hlow : 0 ≤ x) (hhigh : x < 2 ^ 31) : x.bmod (2 ^ 32) = x := by
  rw [Int.bmod_eq_of_le] <;> omega

theorem Used.addRef (h : Used d) : Held (addRef d) := by
  have hpositive := h.positive
  have hroom := h.room
  have hcount : (Fd.addRef d).refCount = d.refCount + 1 := bmod_int (by omega) (by omega)
  exact ⟨h.magic, by omega, by omega, h.fs⟩

theorem Held.fdPut (h : Held d) : Used (fdPut d) := by
  have hpositive := h.positive
  have hroom := h.room
  have hcount : (d.refCount - 1).bmod (2 ^ 32) = d.refCount - 1 :=
    bmod_int (by omega) (by omega)
  unfold Fd.fdPut
  rw [if_neg (by omega)]
  exact ⟨h.magic, by simp only; omega, by simp only; omega, h.fs⟩

theorem Held.answered (h : Held d) : Held (answered d a) := ⟨h.magic, h.positive, h.room, h.fs⟩

theorem Fresh.answered (h : Fresh d) : Fresh (answered d a) := ⟨h.magic, h.two⟩

theorem Fresh.held (h : Fresh d) (hfs : d.fs ≠ none) : Held d :=
  ⟨h.magic, Int.le_of_eq h.two.symm, by rw [h.two]; decide, hfs⟩

theorem Fresh.fdPut (h : Fresh d) : fdPut (fdPut d) = clearFd := by
  have hone : Fd.fdPut d = { d with refCount := 1 } := by
    unfold Fd.fdPut
    rw [h.two]
    rfl
  rw [hone]
  rfl

theorem free_clearFd : Free clearFd := by
  unfold Free
  decide

theorem free_fdPut : Free (fdPut clearFd) := by
  unfold Free
  decide

theorem free_fdPut_fdPut : Free (fdPut (fdPut clearFd)) := by
  unfold Free
  decide

/-!
## References and files
-/

/-- The descriptors of the table, with the numbers that the caller holds. -/
def Sound (s : State) (live : List Nat) : Prop := Accounted Used Free s.fdTable live

theorem fdNew_fresh (hsound : Sound s live) (h : fdNew s = some (n, d)) :
    n ∉ live ∧ n < s.fdTable.length ∧ Fresh (addRef d) := by
  obtain ⟨_, d0, hd0, hcount, rfl⟩ := fdNew_slot h
  refine ⟨?_, (List.getElem?_eq_some_iff.mp hd0).1, rfl, rfl⟩
  intro hlive
  obtain ⟨d1, hd1, hused⟩ := hsound.used n hlive
  rw [hd0] at hd1
  cases hd1
  have hpositive := hused.positive
  omega

variable {fd : Int} {path : Path} {op : Op}

theorem fdGet_held (hsound : Sound s live) (h : fdGet s fd = some (n, d)) :
    n ∈ live ∧ n = fd.toNat ∧ Held d := by
  obtain ⟨hfd, _, d0, hd0, hmagic, rfl⟩ := fdGet_slot h
  have hlive : n ∈ live := by
    by_contra hfree
    exact (hsound.free n d0 hfree hd0).1 hmagic
  obtain ⟨d1, hd1, hused⟩ := hsound.used n hlive
  rw [hd0] at hd1
  cases hd1
  exact ⟨hlive, by omega, hused.addRef⟩

theorem dfsFileOpen_fs {workdir : Option Path} {table : List DfsFilesystem} {file : FdFile}
    (h : Dfs.dfsFileOpen workdir table path = some file) : file.fs ≠ none := by
  unfold Dfs.dfsFileOpen at h
  simp only [Option.bind_eq_some_iff] at h
  obtain ⟨fullpath, _, i, _, mo, _, h⟩ := h
  split at h
  · cases h
    exact Option.some_ne_none i
  · cases h

theorem dfsFileOpen_spec {flags : Nat} (h : dfsFileOpen s d path flags a = (d', r)) :
    (r < 0 ∧ d' = d ∧ ¬ Resolves s path a) ∨ (r < 0 ∧ d' = clearFd) ∨
      (r = 0 ∧ d'.magic = d.magic ∧ d'.refCount = d.refCount ∧ d'.fs ≠ none ∧
        Opens s path a) := by
  unfold dfsFileOpen at h
  split at h
  · next hnormal =>
      cases h
      refine Or.inl ⟨by decide, rfl, ?_⟩
      unfold Resolves
      rw [hnormal]
      exact Bool.false_ne_true
  · next fullpath hnormal =>
      split at h
      · next hlookup =>
          cases h
          refine Or.inl ⟨by decide, rfl, ?_⟩
          unfold Resolves
          rw [hnormal, Option.bind_some, hlookup]
          exact Bool.false_ne_true
      · split at h
        · cases h
          exact Or.inr (Or.inl ⟨by decide, rfl⟩)
        · next file hfile =>
            split at h
            · next hfailed =>
                cases h
                exact Or.inr (Or.inl ⟨hfailed, rfl⟩)
            · next hopened =>
                have hopens : Opens s path a := ⟨by rw [hfile]; rfl, by omega⟩
                split at h
                · cases h
                  exact Or.inr (Or.inr ⟨rfl, rfl, rfl, dfsFileOpen_fs hfile, hopens⟩)
                · cases h
                  exact Or.inr (Or.inr ⟨rfl, rfl, rfl, dfsFileOpen_fs hfile, hopens⟩)

theorem dfsFileClose_spec (h : Held d) :
    (a.result < 0 ∧ dfsFileClose d a = some (answered d a, a.result)) ∨
      (0 ≤ a.result ∧ dfsFileClose d a = some (clearFd, a.result)) := by
  obtain ⟨i, hfs⟩ := Option.ne_none_iff_exists'.mp h.fs
  unfold dfsFileClose
  rw [hfs, Option.map_some]
  rcases Int.lt_or_le a.result 0 with hfailed | hclosed
  · exact Or.inl ⟨hfailed, by rw [if_pos hfailed]⟩
  · exact Or.inr ⟨hclosed, by rw [if_neg (by omega)]⟩

theorem dfsFileTransfer_spec (h : Held d) :
    dfsFileTransfer d a = some (answered d a, a.result) := by
  obtain ⟨i, hfs⟩ := Option.ne_none_iff_exists'.mp h.fs
  unfold dfsFileTransfer
  rw [hfs, Option.map_some]

theorem dfsFileGetdents_spec (h : Held d) :
    exists d' r, dfsFileGetdents d a = some (d', r) ∧ Held d' := by
  obtain ⟨i, hfs⟩ := Option.ne_none_iff_exists'.mp h.fs
  unfold dfsFileGetdents
  split
  · exact ⟨d, _, rfl, h⟩
  · rw [hfs, Option.map_some]
    exact ⟨_, _, rfl, h.answered⟩

theorem dfsFileLseek_spec (h : Held d) : Held (dfsFileLseek d a).1 := by
  unfold dfsFileLseek
  split
  · exact h
  · simp only
    split
    · exact ⟨h.magic, h.positive, h.room, h.fs⟩
    · exact h.answered

/-!
## Calls

Each call has a result and leaves the table accounted for.
-/

/-- The call ends, and the table fits the numbers that the caller then holds. -/
def Accounts (live : List Nat) (op : Op) (o : Option (State × Int)) : Prop :=
  exists s' r, o = some (s', r) ∧ Sound s' (note live op r)

theorem Sound.openFile {flags : Nat} (hsound : Sound s live) :
    Accounts live (Op.openFile path flags a) (posixOpen s path flags a) := by
  unfold posixOpen
  cases hnew : fdNew s with
  | none => exact ⟨s, -1, rfl, hsound⟩
  | some p =>
    obtain ⟨n, d⟩ := p
    obtain ⟨hfree, hlt, hfresh⟩ := fdNew_fresh hsound hnew
    cases hopen : dfsFileOpen s (addRef d) path flags a with
    | mk d' r =>
      simp only [hopen]
      rcases dfsFileOpen_spec hopen with ⟨hr, rfl, _⟩ | ⟨hr, rfl⟩ |
        ⟨rfl, hmagic, hcount, hfs, _⟩
      · refine ⟨_, -1, if_pos hr, hsound.keep hfree ?_⟩
        rw [hfresh.fdPut]
        exact free_clearFd
      · exact ⟨_, -1, if_pos hr, hsound.keep hfree free_fdPut_fdPut⟩
      · have hheld : Held d' :=
          Fresh.held ⟨hmagic.trans hfresh.magic, hcount.trans hfresh.two⟩ hfs
        exact ⟨_, n, rfl, hsound.take hfree hlt hheld.fdPut⟩

theorem Sound.close (hsound : Sound s live) : Accounts live (Op.close fd a) (close s fd a) := by
  unfold Fd.close
  cases hget : fdGet s fd with
  | none => exact ⟨s, -1, rfl, hsound⟩
  | some p =>
    obtain ⟨n, d⟩ := p
    obtain ⟨hlive, rfl, hheld⟩ := fdGet_held hsound hget
    simp only
    rcases @dfsFileClose_spec d a hheld with ⟨hr, heq⟩ | ⟨hr, heq⟩
    · rw [heq]
      exact ⟨_, -1, congrArg some (if_pos hr), hsound.change hlive hheld.answered.fdPut⟩
    · rw [heq]
      exact ⟨_, 0, congrArg some (if_neg (by omega)), hsound.give free_fdPut_fdPut⟩

theorem Sound.transfer (hsound : Sound s live)
    (hop : forall r, note live op r = live) : Accounts live op (transfer s fd a) := by
  unfold Fd.transfer
  cases hget : fdGet s fd with
  | none => exact ⟨s, -1, rfl, (hop _).symm ▸ hsound⟩
  | some p =>
    obtain ⟨n, d⟩ := p
    obtain ⟨hlive, rfl, hheld⟩ := fdGet_held hsound hget
    simp only [dfsFileTransfer_spec hheld, Option.map_some]
    exact ⟨_, _, rfl, (hop _).symm ▸ hsound.change hlive hheld.answered.fdPut⟩

theorem Sound.lseek {offset whence : Int} (hsound : Sound s live)
    (hok : Balanced s (Op.lseek fd offset whence a)) :
    Accounts live (Op.lseek fd offset whence a) (lseek s fd offset whence a) := by
  unfold Fd.lseek
  cases hget : fdGet s fd with
  | none => exact ⟨s, -1, rfl, hsound⟩
  | some p =>
    obtain ⟨n, d⟩ := p
    obtain ⟨hlive, rfl, hheld⟩ := fdGet_held hsound hget
    simp only
    split
    · next hinvalid =>
        -- the reference stays: the descriptor is as `fd_get` has left it
        have hroom := hok _ hget hinvalid
        have hpositive := hheld.positive
        have hused : Used d := ⟨hheld.magic, by omega, hroom, hheld.fs⟩
        exact ⟨_, -1, rfl, hsound.change hlive hused⟩
    · exact ⟨_, _, rfl, hsound.change hlive (dfsFileLseek_spec hheld).fdPut⟩

theorem Sound.fstat (hsound : Sound s live) : Accounts live (Op.fstat fd) (fstat s fd) := by
  unfold Fd.fstat
  cases hget : fdGet s fd with
  | none => exact ⟨s, -1, rfl, hsound⟩
  | some p =>
    obtain ⟨n, d⟩ := p
    obtain ⟨hlive, rfl, hheld⟩ := fdGet_held hsound hget
    exact ⟨_, 0, rfl, hsound.change hlive hheld.fdPut⟩

theorem Sound.mkdir {opening closing : Answer} (hsound : Sound s live)
    (hok : Balanced s (Op.mkdir path opening closing)) :
    Accounts live (Op.mkdir path opening closing) (mkdir s path opening closing) := by
  unfold Fd.mkdir
  cases hnew : fdNew s with
  | none => exact ⟨s, -1, rfl, hsound⟩
  | some p =>
    obtain ⟨hresolves, hcloses⟩ := hok p hnew
    obtain ⟨n, d⟩ := p
    obtain ⟨hfree, hlt, hfresh⟩ := fdNew_fresh hsound hnew
    cases hopen : dfsFileOpen s (addRef d) path (oDirectory ||| oCreat) opening with
    | mk d' r =>
      simp only [hopen]
      rcases dfsFileOpen_spec hopen with ⟨_, _, hunresolved⟩ | ⟨hr, rfl⟩ |
        ⟨rfl, hmagic, hcount, hfs, hopens⟩
      · exact absurd hresolves hunresolved
      · exact ⟨_, -1, if_pos hr, hsound.keep hfree free_fdPut⟩
      · have hheld : Held d' :=
          Fresh.held ⟨hmagic.trans hfresh.magic, hcount.trans hfresh.two⟩ hfs
        rcases @dfsFileClose_spec d' closing hheld with ⟨hr, _⟩ | ⟨_, heq⟩
        · have hclosed := hcloses hopens
          omega
        · rw [if_neg (Int.lt_irrefl 0), heq]
          exact ⟨_, 0, rfl, hsound.keep hfree free_fdPut⟩

theorem Sound.opendir {name : Path} {opening closing : Answer} {memory : Bool}
    (hsound : Sound s live) :
    Accounts live (Op.opendir name opening closing memory)
      (opendir s name opening closing memory) := by
  unfold Fd.opendir
  cases hnew : fdNew s with
  | none => exact ⟨s, -1, rfl, hsound⟩
  | some p =>
    obtain ⟨n, d⟩ := p
    obtain ⟨hfree, hlt, hfresh⟩ := fdNew_fresh hsound hnew
    cases hopen : dfsFileOpen s (addRef d) name (oRdonly ||| oDirectory) opening with
    | mk d' r =>
      simp only [hopen]
      rcases dfsFileOpen_spec hopen with ⟨hr, rfl, _⟩ | ⟨hr, rfl⟩ |
        ⟨rfl, hmagic, hcount, hfs, _⟩
      · refine ⟨_, -1, if_neg (by omega), hsound.keep hfree ?_⟩
        rw [hfresh.fdPut]
        exact free_clearFd
      · exact ⟨_, -1, if_neg (by omega), hsound.keep hfree free_fdPut_fdPut⟩
      · have hfresh' : Fresh d' := ⟨hmagic.trans hfresh.magic, hcount.trans hfresh.two⟩
        have hheld : Held d' := hfresh'.held hfs
        cases memory with
        | true => exact ⟨_, n, rfl, hsound.take hfree hlt hheld.fdPut⟩
        | false =>
          rcases @dfsFileClose_spec d' closing hheld with ⟨_, heq⟩ | ⟨_, heq⟩
          · rw [heq]
            refine ⟨_, -1, rfl, hsound.keep hfree ?_⟩
            rw [hfresh'.answered.fdPut]
            exact free_clearFd
          · rw [heq]
            exact ⟨_, -1, rfl, hsound.keep hfree free_fdPut_fdPut⟩

theorem Sound.readdir {dir : Dir} {reclen : Nat} (hsound : Sound s live) :
    Accounts live (Op.readdir dir reclen a)
      ((readdir s dir reclen a).map fun p => (p.1.1, p.2)) := by
  unfold Fd.readdir
  cases hget : fdGet s dir.fd with
  | none => exact ⟨s, -1, rfl, hsound⟩
  | some p =>
    obtain ⟨n, d⟩ := p
    obtain ⟨hlive, rfl, hheld⟩ := fdGet_held hsound hget
    obtain ⟨d', r, heq, hheld'⟩ := @dfsFileGetdents_spec d a hheld
    simp only [heq, Option.map_some]
    generalize (if dir.num ≠ 0 then { dir with cur := dir.cur + reclen } else dir) = dir'
    split
    · refine ⟨store s dir.fd.toNat (fdPut d'), if r ≤ 0 then -1 else 0, ?_,
        hsound.change hlive hheld'.fdPut⟩
      split <;> rfl
    · exact ⟨_, _, rfl, hsound.change hlive hheld.fdPut⟩

theorem Sound.closedir {dir : Dir} (hsound : Sound s live) (hok : Balanced s (Op.closedir dir a)) :
    Accounts live (Op.closedir dir a) (closedir s dir a) := by
  unfold Fd.closedir
  cases hget : fdGet s dir.fd with
  | none => exact ⟨s, -1, rfl, hsound⟩
  | some p =>
    have hclosed := hok p hget
    obtain ⟨n, d⟩ := p
    obtain ⟨hlive, rfl, hheld⟩ := fdGet_held hsound hget
    simp only
    rcases @dfsFileClose_spec d a hheld with ⟨hr, _⟩ | ⟨hr, heq⟩
    · omega
    · rw [heq, Option.map_some]
      refine ⟨store s dir.fd.toNat (fdPut (fdPut clearFd)), 0, ?_, hsound.give free_fdPut_fdPut⟩
      rw [if_neg (by omega)]

theorem Sound.step (hsound : Sound s live) (hok : Balanced s op) :
    Accounts live op (stepResult s op) := by
  cases op with
  | openFile path flags a => exact hsound.openFile
  | close fd a => exact hsound.close
  | read fd a => exact hsound.transfer fun _ => rfl
  | write fd a => exact hsound.transfer fun _ => rfl
  | lseek fd offset whence a => exact hsound.lseek hok
  | fstat fd => exact hsound.fstat
  | mkdir path opening closing => exact hsound.mkdir hok
  | opendir name opening closing memory => exact hsound.opendir
  | readdir dir reclen a => exact hsound.readdir
  | closedir dir a => exact hsound.closedir hok

/-!
## Runs
-/

def Initial (s : State) : Prop := exists m, s.fdTable = List.replicate m clearFd

theorem Initial.sound (hinit : Initial s) : Sound s [] := by
  obtain ⟨m, htable⟩ := hinit
  refine ⟨List.nodup_nil, fun n hn => (by cases hn), ?_⟩
  intro n d _ hd
  rw [htable, List.getElem?_replicate] at hd
  split at hd
  · cases hd
    exact free_clearFd
  · cases hd

theorem Sound.occupied (hsound : Sound s live) : occupied s = live.length := by
  refine Accounted.count hsound ?_ ?_
  · intro d hused
    have hpositive := hused.positive
    exact decide_eq_true (by omega)
  · intro d hfree
    have hcount := hfree.2
    exact decide_eq_false (by omega)

theorem note_error (hr : r < 0) : note live op r = live := by
  cases op with
  | openFile path flags a => exact if_neg (by omega)
  | close fd a => exact if_neg (by omega)
  | opendir name opening closing memory => exact if_neg (by omega)
  | closedir dir a => exact if_neg (by omega)
  | read fd a => rfl
  | write fd a => rfl
  | lseek fd offset whence a => rfl
  | fstat fd => rfl
  | mkdir path opening closing => rfl
  | readdir dir reclen a => rfl

/-- In every run of balanced calls as many slots are in use as the caller holds descriptors
and streams, and a failing call uses up none. -/
theorem fd_conservation {s0 : State} {ops : List Op} (hinit : Initial s0)
    (hrun : Run (Guarded (fun (x : State × List Nat) op => Balanced x.1 op)
      (Graph (watched step record))) (s0, []) ops (s, live)) :
    occupied s = live.length ∧
      forall op, Balanced s op -> exists s' r, stepResult s op = some (s', r) ∧
        (r < 0 -> occupied s' = occupied s) := by
  have hsound : Sound s live := by
    apply hrun.guarded_watched_invariant Sound hinit.sound
    intro s live op s' hsound hok hstep
    obtain ⟨s1, r, hresult, hsound'⟩ := Sound.step hsound hok
    change (stepResult s op).map Prod.fst = some s' at hstep
    rw [hresult] at hstep
    cases hstep
    simp only [record, hresult]
    exact hsound'
  refine ⟨hsound.occupied, ?_⟩
  intro op hok
  obtain ⟨s', r, hresult, hsound'⟩ := hsound.step hok
  refine ⟨s', r, hresult, ?_⟩
  intro hr
  rw [note_error hr] at hsound'
  rw [hsound'.occupied, hsound.occupied]

def sampleState : State :=
  { workdir := none
    filesystems :=
      [{ devId := none, path := some slash,
         ops := some { name := ['e', 'l', 'm'], flags := 0, hasMount := true,
                       hasUnmount := true, hasOpen := true, hasUnlink := true } }]
    first := 0
    fdTable := [clearFd, clearFd] }

def answer (result : Int) : Answer := { memory := true, result := result, size := 0, pos := 0 }

def sampleOps : List Op :=
  [Op.mkdir ['/', 'd'] (answer 0) (answer 0), Op.openFile ['/', 'f'] 0 (answer 0),
    Op.opendir ['/', 'd'] (answer 0) (answer 0) true, Op.lseek 0 (-1) 0 (answer 0),
    Op.close 0 (answer 0)]

theorem fd_conservation_stream :
    exists s, Run (Guarded (fun (x : State × List Nat) op => Balanced x.1 op)
        (Graph (watched step record))) (sampleState, []) sampleOps (s, [1]) ∧
      occupied s = 1 := by
  have hexec : (exec (fun x op => if Balanced x.1 op then watched step record x op else none)
      (sampleState, []) sampleOps).map Prod.snd = some [1] := by
    decide +kernel
  obtain ⟨⟨s, live⟩, hexec, hlive⟩ := Option.map_eq_some_iff.mp hexec
  cases hlive
  have hrun := @guarded_run_of_exec _ _ _ _ (fun (x : State × List Nat) op => Balanced x.1 op)
    _ _ _ hexec
  exact ⟨s, hrun, (fd_conservation ⟨2, rfl⟩ hrun).1⟩

/-- A directory that has no filesystem uses up a descriptor, and so does one whose path finds no
memory. -/
theorem mkdir_uses_up_slot :
    (¬ forall (s0 s : State) (ops : List Op) (live : List Nat), Initial s0 ->
      Run (Graph (watched step record)) (s0, []) ops (s, live) ->
        occupied s = live.length) ∧
      exists s,
        step sampleState (Op.mkdir ['/', 'd'] { answer 0 with memory := false } (answer 0)) =
        some s ∧ occupied s = 1 := by
  refine ⟨fun hclaim => ?_, _, rfl, by decide⟩
  have hrun := run_of_exec (show exec (watched step record)
    ({ sampleState with filesystems := [] }, [])
    [Op.mkdir ['/', 'd'] (answer 0) (answer 0)] = some _ from rfl)
  exact absurd (hclaim _ _ _ _ ⟨2, rfl⟩ hrun) (by decide)

end RtThread.Dfs.Fd
