import RtThread.Drivers.Device
import RtThread.Library.Transition
import Mathlib.Data.Int.Basic

/-!
# Reference counts of devices and of the pipes of a portal

Two devices that any users open and close directly, and a portal over them whose methods
open and close them again.  What the methods of the two devices answer is part of the
operation, so that a run covers every behaviour of their drivers.
-/

namespace RtThread.Drivers.Portal

open Kernel
open Function (update update_eq_self update_of_ne update_self)
open Transition

/-- The two pipes of a portal. -/
inductive End where
  | write
  | read
deriving DecidableEq, Repr

abbrev Pipes := End -> RtDevice

/-!
## Operations
-/

def onPipe (pipes : Pipes) (w : End)
    (call : RtDevice × Unit -> Option ((RtDevice × Unit) × RtErr)) : Option (Pipes × RtErr) :=
  (call (pipes w, ())).map fun p => (Function.update pipes w p.1.1, p.2)

def openPipe (a : Answers) (pipes : Pipes) (w : End) (oflag : Nat) : Option (Pipes × RtErr) :=
  onPipe pipes w fun x => rtDeviceOpen (answering a) x oflag

def closePipe (a : Answers) (pipes : Pipes) (w : End) : Option (Pipes × RtErr) :=
  onPipe pipes w fun x => rtDeviceClose (answering a) x

def initPipe (a : Answers) (pipes : Pipes) (w : End) : Option (Pipes × RtErr) :=
  onPipe pipes w fun x => rtDeviceInit (answering a) x

def portalInit (a : End -> Answers) : Method Pipes := fun x =>
  (initPipe (a End.write) x.2 End.write).bind fun p =>
    if p.2 ≠ RtErr.eok then some ((x.1, p.1), p.2)
    else (initPipe (a End.read) p.1 End.read).map fun q => ((x.1, q.1), q.2)

def portalOpen (a : End -> Answers) (oflag : Nat) : Method Pipes := fun x =>
  if oflag = 0 then some (x, RtErr.error)
  else
    (if hasFlag oflag oflagRdonly then openPipe (a End.read) x.2 End.read oflagRdonly
      else some (x.2, RtErr.eok)).bind fun p =>
      if p.2 ≠ RtErr.eok then some ((x.1, p.1), p.2)
      else
        (if hasFlag oflag oflagWronly then openPipe (a End.write) p.1 End.write oflagWronly
          else some (p.1, RtErr.eok)).map fun q => ((x.1, q.1), q.2)

def portalClose (a : End -> Answers) : Method Pipes := fun x =>
  (closePipe (a End.write) x.2 End.write).bind fun p =>
    (closePipe (a End.read) p.1 End.read).map fun q => ((x.1, q.1), RtErr.eok)

def portalDriver (a : End -> Answers) : Driver Pipes :=
  { init := some (portalInit a)
    openDev := some (portalOpen a)
    close := some (portalClose a) }

structure State where
  portal : RtDevice
  pipe : Pipes

inductive Op where
  | openPipe (w : End) (oflag : Nat) (a : Answers)
  | closePipe (w : End) (a : Answers)
  | openPortal (oflag : Nat) (a : End -> Answers)
  | closePortal (a : End -> Answers)

def stepResult (s : State) : Op -> Option (State × RtErr)
  | Op.openPipe w oflag a =>
    (openPipe a s.pipe w oflag).map fun p => ({ s with pipe := p.1 }, p.2)
  | Op.closePipe w a => (closePipe a s.pipe w).map fun p => ({ s with pipe := p.1 }, p.2)
  | Op.openPortal oflag a =>
    (rtDeviceOpen (portalDriver a) (s.portal, s.pipe) oflag).map fun p =>
      (⟨p.1.1, p.1.2⟩, p.2)
  | Op.closePortal a =>
    (rtDeviceClose (portalDriver a) (s.portal, s.pipe)).map fun p => (⟨p.1.1, p.1.2⟩, p.2)

def step (s : State) (op : Op) : Option State := (stepResult s op).map Prod.fst

/-- The devices as `rt_device_register` leaves them. -/
structure Registered (s : State) : Prop where
  portal : s.portal.refCount = 0
  pipe : forall w, (s.pipe w).refCount = 0

/-!
## The account
-/

def uses (w : End) (oflag : Nat) : Bool :=
  match w with
  | End.write => hasFlag oflag oflagWronly
  | End.read => hasFlag oflag oflagRdonly

/-- For each pipe its successful direct opens less its closes, and the flags of the portal's
opens that are not closed yet. -/
structure Account where
  direct : End -> Int
  sessions : List Nat

def emptyAccount : Account := { direct := fun _ => 0, sessions := [] }

def Account.users (a : Account) (w : End) : Int := a.direct w + a.sessions.countP (uses w)

def Account.note (acc : Account) : Op -> RtErr -> Account
  | Op.openPipe w _ _, RtErr.eok =>
    { acc with direct := Function.update acc.direct w (acc.direct w + 1) }
  | Op.closePipe w _, RtErr.eok =>
    { acc with direct := Function.update acc.direct w (acc.direct w - 1) }
  | Op.openPortal oflag _, RtErr.eok => { acc with sessions := oflag :: acc.sessions }
  | Op.closePortal _, RtErr.eok => { acc with sessions := acc.sessions.tail }
  | _, _ => acc

def record (s : State) (op : Op) (_ : State) (acc : Account) : Account :=
  match stepResult s op with
  | some (_, r) => acc.note op r
  | none => acc

/-- No open method, and under a portal no init method, answers `-RT_ENOSYS`, and no close
method fails. A portal is opened only when closed, and with both directions only where the
write pipe can be opened too. When it is closed, the pipes with users are those it has
opened. -/
def Orderly (s : State) (acc : Account) : Op -> Prop
  | Op.openPipe _ _ a => a.openDev ≠ RtErr.enosys
  | Op.closePipe w a => (s.pipe w).refCount = 1 -> a.close = RtErr.eok
  | Op.openPortal oflag a =>
    s.portal.refCount = 0 ∧
      (forall w, (a w).openDev ≠ RtErr.enosys ∧ (a w).init ≠ RtErr.enosys) ∧
      (uses End.read oflag = true -> uses End.write oflag = true ->
        Willing (s.pipe End.write) (a End.write))
  | Op.closePortal a => forall w,
      ((s.pipe w).refCount = 1 -> (a w).close = RtErr.eok) ∧
        ((s.pipe w).refCount ≠ 0 <-> exists oflag, oflag ∈ acc.sessions ∧ uses w oflag = true)

instance decidableForallEnd {P : End -> Prop} [forall w, Decidable (P w)] :
    Decidable (forall w, P w) :=
  decidable_of_iff (P End.write ∧ P End.read)
    ⟨fun h w => match w with | End.write => h.1 | End.read => h.2,
      fun h => ⟨h End.write, h End.read⟩⟩

instance (s : State) (acc : Account) : forall op, Decidable (Orderly s acc op)
  | Op.openPipe _ _ _ => inferInstanceAs (Decidable (_ ≠ _))
  | Op.closePipe _ _ => inferInstanceAs (Decidable (_ -> _))
  | Op.openPortal _ _ => inferInstanceAs (Decidable (_ ∧ _ ∧ _))
  | Op.closePortal _ => inferInstanceAs (Decidable (forall _ : End, _))

/-- The counts are those of the account, and at most one open of the portal is pending. -/
structure Exact (s : State) (acc : Account) : Prop where
  pipe : forall w, (s.pipe w).refCount < 2 ^ 8 ∧ ((s.pipe w).refCount : Int) = acc.users w
  portal : s.portal.refCount = acc.sessions.length
  single : acc.sessions.length ≤ 1

/-!
## Calls on one pipe
-/

variable {a : Answers} {pipes pipes' : Pipes} {w : End} {r : RtErr} {oflag : Nat}

/-- The count of one pipe has changed to `n`, nothing else is known of it, and the other
pipe is as it was. -/
def Counts (pipes pipes' : Pipes) (w : End) (n : Nat) : Prop :=
  (pipes' w).refCount = n ∧ forall w', w' ≠ w -> pipes' w' = pipes w'

theorem openPipe_spec (hopen : a.openDev ≠ RtErr.enosys) (hbyte : (pipes w).refCount < 2 ^ 8)
    (hs : openPipe a pipes w oflag = some (pipes', r)) :
    (r = RtErr.eok ∧ Counts pipes pipes' w ((pipes w).refCount + 1) ∧
        (pipes w).refCount + 1 < 2 ^ 8) ∨
      (r ≠ RtErr.eok ∧ (a.init ≠ RtErr.enosys -> r ≠ RtErr.enosys) ∧
        Counts pipes pipes' w (pipes w).refCount ∧
        (pipes' w).openFlag = (pipes w).openFlag ∧ ¬ Willing (pipes w) a) := by
  unfold openPipe onPipe at hs
  rw [Option.map_eq_some_iff] at hs
  obtain ⟨⟨y, r'⟩, hcall, heq⟩ := hs
  cases heq
  have hothers (w' : End) (hne : w' ≠ w) : update pipes w y.1 w' = pipes w' :=
    update_of_ne hne _ _
  unfold Counts
  rw [update_self]
  rcases open_answering hopen hbyte hcall with
    ⟨hr, hcount, hlt⟩ | ⟨hr, hsys, hcount, hflag, hnot⟩
  · exact Or.inl ⟨hr, ⟨hcount, hothers⟩, hcount ▸ hlt⟩
  · exact Or.inr ⟨hr, hsys, ⟨hcount, hothers⟩, hflag, hnot⟩

theorem closePipe_spec (hclose : (pipes w).refCount = 1 -> a.close = RtErr.eok)
    (hs : closePipe a pipes w = some (pipes', r)) :
    ((pipes w).refCount ≠ 0 ∧ r = RtErr.eok ∧
      Counts pipes pipes' w ((pipes w).refCount - 1)) ∨
      ((pipes w).refCount = 0 ∧ r = RtErr.error ∧ pipes' = pipes) := by
  unfold closePipe onPipe at hs
  rw [Option.map_eq_some_iff] at hs
  obtain ⟨⟨y, r'⟩, hcall, heq⟩ := hs
  cases heq
  rcases close_answering hclose hcall with ⟨hcount, hr, hless⟩ | ⟨hcount, hr, hsame⟩
  · refine Or.inl ⟨hcount, hr, ?_, fun w' hne => update_of_ne hne _ _⟩
    rw [update_self]
    exact hless
  · refine Or.inr ⟨hcount, hr, ?_⟩
    simp only [hsame, update_eq_self]

theorem closePipe_counts (hclose : (pipes w).refCount = 1 -> a.close = RtErr.eok)
    (hs : closePipe a pipes w = some (pipes', r)) :
    Counts pipes pipes' w ((pipes w).refCount - 1) := by
  rcases closePipe_spec hclose hs with ⟨_, _, hcounts⟩ | ⟨hzero, _, rfl⟩
  · exact hcounts
  · exact ⟨by omega, fun _ _ => rfl⟩

theorem initPipe_spec {answers : End -> Answers}
    (hs : initPipe (answers w) pipes w = some (pipes', r)) (w' : End) :
    SameUse (answers w') (pipes w') (pipes' w') := by
  unfold initPipe onPipe at hs
  rw [Option.map_eq_some_iff] at hs
  obtain ⟨⟨y, r'⟩, hcall, heq⟩ := hs
  cases heq
  rcases eq_or_ne w' w with rfl | hne
  · rw [update_self]
    exact init_answering hcall
  · rw [update_of_ne hne]
    exact SameUse.refl

/-!
## The methods of a portal
-/

variable {answers : End -> Answers} {dev dev' : RtDevice}

theorem portalInit_spec (hs : portalInit answers (dev, pipes) = some ((dev', pipes'), r)) :
    dev' = dev ∧ forall w, SameUse (answers w) (pipes w) (pipes' w) := by
  unfold portalInit at hs
  rw [Option.bind_eq_some_iff] at hs
  obtain ⟨⟨pipes1, r1⟩, hwrite, hs⟩ := hs
  have hfirst := initPipe_spec hwrite
  split at hs
  · cases hs
    exact ⟨rfl, hfirst⟩
  · rw [Option.map_eq_some_iff] at hs
    obtain ⟨⟨pipes2, r2⟩, hread, heq⟩ := hs
    cases heq
    have hsecond := initPipe_spec hread
    refine ⟨rfl, fun w => ?_⟩
    exact ⟨(hsecond w).count.trans (hfirst w).count, (hsecond w).flag.trans (hfirst w).flag,
      fun hwilling => (hsecond w).willing ((hfirst w).willing hwilling)⟩

def Opened (pipes pipes' : Pipes) (oflag : Nat) : Prop :=
  forall w, (pipes' w).refCount < 2 ^ 8 ∧
    (pipes' w).refCount = (pipes w).refCount + (uses w oflag).toNat

theorem maybe_open (hopen : a.openDev ≠ RtErr.enosys) (hinit : a.init ≠ RtErr.enosys)
    (hbyte : (pipes w).refCount < 2 ^ 8) {used : Bool}
    (hs : (if used = true then openPipe a pipes w oflag else some (pipes, RtErr.eok)) =
      some (pipes', r)) :
    (r = RtErr.eok ∧ (pipes' w).refCount = (pipes w).refCount + used.toNat ∧
        (pipes' w).refCount < 2 ^ 8 ∧ forall w', w' ≠ w -> pipes' w' = pipes w') ∨
      (r ≠ RtErr.eok ∧ r ≠ RtErr.enosys ∧ used = true ∧
        (forall w, (pipes' w).refCount = (pipes w).refCount) ∧ ¬ Willing (pipes w) a) := by
  cases used with
  | false =>
    cases hs
    exact Or.inl ⟨rfl, rfl, hbyte, fun _ _ => rfl⟩
  | true =>
    rcases openPipe_spec hopen hbyte hs with
      ⟨hr, hcounts, hlt⟩ | ⟨hr, hsys, hcounts, hflag, hnot⟩
    · refine Or.inl ⟨hr, hcounts.1, ?_, hcounts.2⟩
      rw [hcounts.1]
      exact hlt
    · refine Or.inr ⟨hr, hsys hinit, rfl, fun w' => ?_, hnot⟩
      rcases eq_or_ne w' w with rfl | hne
      · exact hcounts.1
      · rw [hcounts.2 w' hne]

theorem portalOpen_spec
    (hopen : forall w, (answers w).openDev ≠ RtErr.enosys ∧ (answers w).init ≠ RtErr.enosys)
    (hbyte : forall w, (pipes w).refCount < 2 ^ 8)
    (hboth : uses End.read oflag = true -> uses End.write oflag = true ->
      Willing (pipes End.write) (answers End.write))
    (hs : portalOpen answers oflag (dev, pipes) = some ((dev', pipes'), r)) :
    dev' = dev ∧ ((r = RtErr.eok ∧ Opened pipes pipes' oflag) ∨
      (r ≠ RtErr.eok ∧ r ≠ RtErr.enosys ∧
        forall w, (pipes' w).refCount = (pipes w).refCount)) := by
  unfold portalOpen at hs
  split at hs
  · cases hs
    exact ⟨rfl, Or.inr ⟨nofun, nofun, fun _ => rfl⟩⟩
  · rw [Option.bind_eq_some_iff] at hs
    obtain ⟨⟨pipes1, r1⟩, hread, hs⟩ := hs
    rcases maybe_open (hopen End.read).1 (hopen End.read).2 (hbyte End.read) hread with
      ⟨hr1, hcount1, hlt1, hother1⟩ | ⟨hr1, hsys1, _, hsame1, _⟩
    · rw [if_neg (by simpa using hr1), Option.map_eq_some_iff] at hs
      obtain ⟨⟨pipes2, r2⟩, hwrite, heq⟩ := hs
      cases heq
      have hw1 : pipes1 End.write = pipes End.write := hother1 End.write nofun
      have hbyte1 : (pipes1 End.write).refCount < 2 ^ 8 := by
        rw [hw1]
        exact hbyte End.write
      refine ⟨rfl, ?_⟩
      rcases maybe_open (hopen End.write).1 (hopen End.write).2 hbyte1 hwrite with
        ⟨hr2, hcount2, hlt2, hother2⟩ | ⟨hr2, hsys2, hused2, hsame2, hnot2⟩
      · refine Or.inl ⟨hr2, fun w => ?_⟩
        cases w with
        | write =>
          rw [hw1] at hcount2
          exact ⟨hlt2, hcount2⟩
        | read =>
          simp only [hother2 End.read nofun]
          exact ⟨hlt1, hcount1⟩
      · -- the write pipe was willing if the read pipe was opened before it
        have hunused : uses End.read oflag = false := by
          cases hread' : uses End.read oflag with
          | false => rfl
          | true =>
            rw [hw1] at hnot2
            exact absurd (hboth hread' hused2) hnot2
        refine Or.inr ⟨hr2, hsys2, fun w => ?_⟩
        rw [hsame2 w]
        cases w with
        | write => rw [hw1]
        | read =>
          rw [hcount1, show hasFlag oflag oflagRdonly = false from hunused]
          rfl
    · rw [if_pos hr1] at hs
      cases hs
      exact ⟨rfl, Or.inr ⟨hr1, hsys1, hsame1⟩⟩

theorem portalClose_spec
    (hclose : forall w, (pipes w).refCount = 1 -> (answers w).close = RtErr.eok)
    (hs : portalClose answers (dev, pipes) = some ((dev', pipes'), r)) :
    dev' = dev ∧ r = RtErr.eok ∧ forall w, (pipes' w).refCount = (pipes w).refCount - 1 := by
  unfold portalClose at hs
  rw [Option.bind_eq_some_iff] at hs
  obtain ⟨⟨pipes1, r1⟩, hwrite, hs⟩ := hs
  rw [Option.map_eq_some_iff] at hs
  obtain ⟨⟨pipes2, r2⟩, hread, heq⟩ := hs
  cases heq
  refine ⟨rfl, rfl, ?_⟩
  obtain ⟨hcount1, hother1⟩ := closePipe_counts (hclose End.write) hwrite
  have hr1 : pipes1 End.read = pipes End.read := hother1 End.read nofun
  have hok2 : (pipes1 End.read).refCount = 1 -> (answers End.read).close = RtErr.eok := by
    rw [hr1]
    exact hclose End.read
  obtain ⟨hcount2, hother2⟩ := closePipe_counts hok2 hread
  intro w
  cases w with
  | write =>
    simp only [hother2 End.write nofun]
    exact hcount1
  | read =>
    simp only [hcount2, hr1]

theorem openPortal_spec
    (hopen : forall w, (answers w).openDev ≠ RtErr.enosys ∧ (answers w).init ≠ RtErr.enosys)
    (hbyte : forall w, (pipes w).refCount < 2 ^ 8)
    (hboth : uses End.read oflag = true -> uses End.write oflag = true ->
      Willing (pipes End.write) (answers End.write)) (hclosed : dev.refCount = 0)
    (hs : rtDeviceOpen (portalDriver answers) (dev, pipes) oflag = some ((dev', pipes'), r)) :
    (r = RtErr.eok ∧ dev'.refCount = 1 ∧ Opened pipes pipes' oflag) ∨
      (r ≠ RtErr.eok ∧ dev'.refCount = 0 ∧ dev'.openFlag = dev.openFlag ∧
        forall w, (pipes' w).refCount = (pipes w).refCount) := by
  unfold rtDeviceOpen at hs
  rw [Option.bind_eq_some_iff] at hs
  obtain ⟨⟨⟨dev1, pipes1⟩, r1⟩, hactive, hs⟩ := hs
  obtain ⟨hcount1, hflag1, hsame1⟩ : dev1.refCount = dev.refCount ∧
    dev1.openFlag = dev.openFlag ∧
        forall w, SameUse (answers w) (pipes w) (pipes1 w) := by
    unfold activate portalDriver at hactive
    split at hactive
    · cases hactive
      exact ⟨rfl, rfl, fun _ => SameUse.refl⟩
    · rw [Option.map_eq_some_iff] at hactive
      obtain ⟨⟨⟨dev2, pipes2⟩, r2⟩, hinit, heq⟩ := hactive
      obtain ⟨rfl, hsame⟩ := portalInit_spec hinit
      split at heq
      · cases heq
        exact ⟨rfl, rfl, hsame⟩
      · cases heq
        exact ⟨rfl, rfl, hsame⟩
  have hquiet (w : End) : (pipes1 w).refCount = (pipes w).refCount := (hsame1 w).count
  rw [hclosed] at hcount1
  split at hs
  · next hr1 =>
      cases hs
      exact Or.inr ⟨hr1, hcount1, hflag1, hquiet⟩
  · split at hs
    · cases hs
      exact Or.inr ⟨nofun, hcount1, hflag1, hquiet⟩
    · simp only [portalDriver, Option.bind_eq_some_iff] at hs
      obtain ⟨⟨⟨dev2, pipes2⟩, r2⟩, hmethod, hs⟩ := hs
      obtain ⟨rfl, hcases⟩ := portalOpen_spec hopen (fun w => by rw [hquiet w]; exact hbyte w)
        (fun hread hwrite => (hsame1 End.write).willing (hboth hread hwrite)) hmethod
      rcases hcases with ⟨rfl, hopened⟩ | ⟨hr2, hsys2, hsame2⟩
      · simp only [countOpen, hcount1] at hs
        cases hs
        refine Or.inl ⟨rfl, rfl, fun w => ?_⟩
        rw [← hquiet w]
        exact hopened w
      · simp only [countOpen, hr2, hsys2, or_self, if_false] at hs
        cases hs
        exact Or.inr ⟨hr2, hcount1, hflag1, fun w => (hsame2 w).trans (hquiet w)⟩

theorem closePortal_spec (hone : dev.refCount ≤ 1)
    (hclose : forall w, (pipes w).refCount = 1 -> (answers w).close = RtErr.eok)
    (hs : rtDeviceClose (portalDriver answers) (dev, pipes) = some ((dev', pipes'), r)) :
    (r = RtErr.eok ∧ dev.refCount = 1 ∧ dev'.refCount = 0 ∧
        forall w, (pipes' w).refCount = (pipes w).refCount - 1) ∨
      (r ≠ RtErr.eok ∧ dev.refCount = 0 ∧ dev' = dev ∧ pipes' = pipes) := by
  unfold rtDeviceClose at hs
  simp only at hs
  split at hs
  · next hzero =>
      cases hs
      exact Or.inr ⟨nofun, hzero, rfl, rfl⟩
  · next hopen =>
      rw [if_neg (by omega)] at hs
      simp only [portalDriver, Option.map_eq_some_iff] at hs
      obtain ⟨⟨⟨dev1, pipes1⟩, r1⟩, hmethod, heq⟩ := hs
      obtain ⟨rfl, rfl, hless⟩ := portalClose_spec hclose hmethod
      simp only [clearOpen, true_or, if_true] at heq
      cases heq
      exact Or.inl ⟨rfl, by omega, by simp only; omega, hless⟩

/-!
## Runs
-/

variable {s s' : State} {acc : Account} {op : Op}

/-- The count and the open flag of the device that an operation is called on. -/
def target (s : State) : Op -> Nat × Nat
  | Op.openPipe w _ _ => ((s.pipe w).refCount, (s.pipe w).openFlag)
  | Op.closePipe w _ => ((s.pipe w).refCount, (s.pipe w).openFlag)
  | Op.openPortal _ _ => (s.portal.refCount, s.portal.openFlag)
  | Op.closePortal _ => (s.portal.refCount, s.portal.openFlag)

theorem note_of_failed (hr : r ≠ RtErr.eok) : acc.note op r = acc := by
  cases op <;> cases r <;> first | exact absurd rfl hr | rfl

theorem Exact.sameCounts (hexact : Exact s acc) (hportal : s'.portal.refCount = s.portal.refCount)
    (hpipe : forall w, (s'.pipe w).refCount = (s.pipe w).refCount) : Exact s' acc := by
  refine ⟨fun w => ?_, ?_, hexact.single⟩
  · rw [hpipe w]
    exact hexact.pipe w
  · rw [hportal]
    exact hexact.portal

theorem Exact.direct {n : Nat} {d : Int} (hexact : Exact s acc)
    (hcounts : Counts s.pipe pipes' w n) (hbyte : n < 2 ^ 8)
    (hn : (n : Int) = (s.pipe w).refCount + d) :
    Exact { s with pipe := pipes' }
      { acc with direct := update acc.direct w (acc.direct w + d) } := by
  refine ⟨fun w' => ?_, hexact.portal, hexact.single⟩
  obtain ⟨hlt, heq⟩ := hexact.pipe w'
  unfold Account.users at heq ⊢
  rcases eq_or_ne w' w with rfl | hne
  · simp only [hcounts.1, update_self]
    exact ⟨hbyte, by omega⟩
  · simp only [hcounts.2 w' hne, update_of_ne hne]
    exact ⟨hlt, heq⟩

theorem Exact.openPipe (hexact : Exact s acc) (hopen : a.openDev ≠ RtErr.enosys)
    (hs : stepResult s (Op.openPipe w oflag a) = some (s', r)) :
    Exact s' (acc.note (Op.openPipe w oflag a) r) ∧ (r ≠ RtErr.eok ->
        target s' (Op.openPipe w oflag a) = target s (Op.openPipe w oflag a)) := by
  simp only [stepResult, Option.map_eq_some_iff] at hs
  obtain ⟨⟨pipes', r'⟩, hcall, heq⟩ := hs
  cases heq
  rcases openPipe_spec hopen (hexact.pipe w).1 hcall with
    ⟨rfl, hcounts, hlt⟩ | ⟨hr, _, hcounts, hflag, _⟩
  · exact ⟨hexact.direct hcounts hlt (by omega), fun hne => absurd rfl hne⟩
  · rw [note_of_failed hr]
    refine ⟨hexact.sameCounts rfl fun w' => ?_, fun _ => ?_⟩
    · rcases eq_or_ne w' w with rfl | hne
      · exact hcounts.1
      · simp only [hcounts.2 w' hne]
    · simp only [target, hcounts.1, hflag]

theorem Exact.closePipe (hexact : Exact s acc)
    (hclose : (s.pipe w).refCount = 1 -> a.close = RtErr.eok)
    (hs : stepResult s (Op.closePipe w a) = some (s', r)) :
    Exact s' (acc.note (Op.closePipe w a) r) ∧
      (r ≠ RtErr.eok -> target s' (Op.closePipe w a) = target s (Op.closePipe w a)) := by
  simp only [stepResult, Option.map_eq_some_iff] at hs
  obtain ⟨⟨pipes', r'⟩, hcall, heq⟩ := hs
  cases heq
  rcases closePipe_spec hclose hcall with ⟨hopen, rfl, hcounts⟩ | ⟨_, rfl, rfl⟩
  · have hlt := (hexact.pipe w).1
    refine ⟨hexact.direct hcounts (by omega) ?_, fun hne => absurd rfl hne⟩
    omega
  · exact ⟨hexact, fun _ => rfl⟩

theorem Exact.openPortal (hexact : Exact s acc) (hok : Orderly s acc (Op.openPortal oflag answers))
    (hs : stepResult s (Op.openPortal oflag answers) = some (s', r)) :
    Exact s' (acc.note (Op.openPortal oflag answers) r) ∧ (r ≠ RtErr.eok ->
        target s' (Op.openPortal oflag answers) = target s (Op.openPortal oflag answers)) := by
  obtain ⟨hclosed, hopen, hboth⟩ := hok
  simp only [stepResult, Option.map_eq_some_iff] at hs
  obtain ⟨⟨⟨dev', pipes'⟩, r'⟩, hcall, heq⟩ := hs
  cases heq
  have hnone : acc.sessions = [] := by
    rw [← List.length_eq_zero_iff, ← hexact.portal]
    exact hclosed
  rcases openPortal_spec hopen (fun w => (hexact.pipe w).1) hboth hclosed hcall with
    ⟨rfl, hone, hopened⟩ | ⟨hr, hzero, hflag, hsame⟩
  · refine ⟨⟨fun w => ?_, ?_, ?_⟩, fun hne => absurd rfl hne⟩
    · obtain ⟨hlt, hcount⟩ := hopened w
      have husers := (hexact.pipe w).2
      unfold Account.users at husers ⊢
      refine ⟨hlt, ?_⟩
      rw [hnone, List.countP_nil] at husers
      simp only [Account.note, hnone, List.countP_singleton, hcount]
      cases hused : uses w oflag with
      | false =>
        rw [Bool.toNat_false]
        simpa using husers
      | true =>
        rw [Bool.toNat_true]
        simpa using husers
    · simp only [Account.note, hnone, hone]
      rfl
    · simp only [Account.note, hnone]
      exact Nat.le_refl 1
  · rw [note_of_failed hr]
    refine ⟨hexact.sameCounts (hzero.trans hclosed.symm) hsame, fun _ => ?_⟩
    simp only [target, hzero, hflag, hclosed]

theorem Exact.closePortal (hexact : Exact s acc) (hok : Orderly s acc (Op.closePortal answers))
    (hs : stepResult s (Op.closePortal answers) = some (s', r)) :
    Exact s' (acc.note (Op.closePortal answers) r) ∧ (r ≠ RtErr.eok ->
        target s' (Op.closePortal answers) = target s (Op.closePortal answers)) := by
  simp only [stepResult, Option.map_eq_some_iff] at hs
  obtain ⟨⟨⟨dev', pipes'⟩, r'⟩, hcall, heq⟩ := hs
  cases heq
  have hsingle : s.portal.refCount ≤ 1 := by
    rw [hexact.portal]
    exact hexact.single
  rcases closePortal_spec hsingle (fun w => (hok w).1) hcall with
    ⟨rfl, hone, hzero, hless⟩ | ⟨hr, _, rfl, rfl⟩
  · rw [hexact.portal, List.length_eq_one_iff] at hone
    obtain ⟨oflag, hsession⟩ := hone
    refine ⟨⟨fun w => ?_, ?_, ?_⟩, fun hne => absurd rfl hne⟩
    · obtain ⟨hlt, husers⟩ := hexact.pipe w
      have hmine := (hok w).2
      unfold Account.users at husers ⊢
      simp only [hsession, List.mem_singleton, exists_eq_left] at hmine
      simp only [hsession, List.countP_singleton] at husers
      simp only [Account.note, hsession, List.tail_cons, List.countP_nil, hless w]
      refine ⟨by omega, ?_⟩
      cases hused : uses w oflag with
      | false =>
        simp only [hused, Bool.false_eq_true, iff_false, not_not, if_false] at hmine husers
        omega
      | true =>
        simp only [hused, iff_true, if_true] at hmine husers
        omega
    · simp only [Account.note, hsession, hzero]
      rfl
    · simp only [Account.note, hsession]
      exact Nat.zero_le 1
  · rw [note_of_failed hr]
    exact ⟨hexact, fun _ => rfl⟩

theorem Exact.step (hexact : Exact s acc) (hok : Orderly s acc op)
    (hs : stepResult s op = some (s', r)) :
    Exact s' (acc.note op r) ∧ (r ≠ RtErr.eok -> target s' op = target s op) := by
  cases op with
  | openPipe w oflag a => exact hexact.openPipe hok hs
  | closePipe w a => exact hexact.closePipe hok hs
  | openPortal oflag answers => exact hexact.openPortal hok hs
  | closePortal answers => exact hexact.closePortal hok hs

theorem Registered.exact (hreg : Registered s) : Exact s emptyAccount := by
  refine ⟨fun w => ?_, hreg.portal, Nat.zero_le 1⟩
  rw [hreg.pipe w]
  exact ⟨by decide, rfl⟩

/-- In every run of orderly steps: the count of each pipe is the number of its open users,
direct ones and the portal, that of the portal the number of its opens not closed, and an
orderly call that fails leaves count and open flag of its device. -/
theorem device_counts_exact {s0 s : State} {acc : Account} {ops : List Op}
    (hreg : Registered s0)
    (hrun : Run (Guarded (fun (x : State × Account) op => Orderly x.1 x.2 op)
      (Graph (watched step record))) (s0, emptyAccount) ops (s, acc)) :
    (forall w, ((s.pipe w).refCount : Int) = acc.users w) ∧
      s.portal.refCount = acc.sessions.length ∧
      (forall op s' r, Orderly s acc op -> stepResult s op = some (s', r) ->
        r ≠ RtErr.eok -> target s' op = target s op) := by
  have hinv : Exact s acc := by
    apply hrun.guarded_watched_invariant Exact hreg.exact
    intro s acc op s' hx hok hstep
    unfold step at hstep
    rw [Option.map_eq_some_iff] at hstep
    obtain ⟨⟨s1, r⟩, hresult, heq⟩ := hstep
    have hnext := (hx.step hok hresult).1
    rw [← heq]
    unfold record
    rw [hresult]
    exact hnext
  refine ⟨fun w => (hinv.pipe w).2, hinv.portal, ?_⟩
  intro op s' r hok hs hr
  exact (hinv.step hok hs).2 hr

def registeredState : State :=
  { portal := { flag := 3, openFlag := 0, refCount := 0 }
    pipe := fun _ => { flag := 3, openFlag := 0, refCount := 0 } }

theorem registeredState_registered : Registered registeredState := ⟨rfl, fun _ => rfl⟩

def agreeing : Answers := ⟨RtErr.eok, RtErr.eok, RtErr.eok⟩

def portalSession : List Op :=
  [Op.openPipe End.read 1 agreeing, Op.openPortal 3 fun _ => agreeing,
    Op.closePortal fun _ => agreeing]

theorem device_counts_exact_session :
    exists s acc, Run (Guarded (fun (x : State × Account) op => Orderly x.1 x.2 op)
        (Graph (watched step record))) (registeredState, emptyAccount) portalSession
        (s, acc) ∧
      (s.pipe End.read).refCount = 1 ∧
      ((s.pipe End.read).refCount : Int) = acc.users End.read := by
  have hexec : (exec (fun (x : State × Account) op =>
      if Orderly x.1 x.2 op then watched step record x op else none)
      (registeredState, emptyAccount) portalSession).map
      (fun x => (x.1.pipe End.read).refCount) = some 1 := by
    decide +kernel
  rw [Option.map_eq_some_iff] at hexec
  obtain ⟨⟨s, acc⟩, hexec, hcount⟩ := hexec
  have hrun := @guarded_run_of_exec _ _ _ _
    (fun (x : State × Account) op => Orderly x.1 x.2 op) _ _ _ hexec
  exact ⟨s, acc, hrun, hcount,
    (device_counts_exact registeredState_registered hrun).1 End.read⟩

/-- A last close whose method fails takes the count away and leaves the device open. A
portal whose write pipe cannot be opened leaves its read pipe open, without a user. -/
theorem failed_calls_change_counts :
    (exists s acc r, Run (Graph (watched step record)) (registeredState, emptyAccount)
        [Op.openPipe End.write 2 agreeing] (s, acc) ∧
      (stepResult s (Op.closePipe End.write ⟨RtErr.eok, RtErr.eok, RtErr.eio⟩)).map
          (fun p => (p.2, target p.1 (Op.closePipe End.write agreeing))) =
        some (RtErr.eio, r) ∧
      target s (Op.closePipe End.write agreeing) = (1, 10) ∧ r = (0, 10)) ∧
    (exists s acc, Run (Graph (watched step record)) (registeredState, emptyAccount)
        [Op.openPortal 3 fun w => ⟨RtErr.eok,
          if w = End.write then RtErr.eio else RtErr.eok, RtErr.eok⟩] (s, acc) ∧
      s.portal.refCount = 0 ∧ (s.pipe End.read).refCount = 1 ∧ acc.users End.read = 0) := by
  constructor
  · have hexec : (exec (watched step record) (registeredState, emptyAccount)
        [Op.openPipe End.write 2 agreeing]).map
        (fun x => ((stepResult x.1
            (Op.closePipe End.write ⟨RtErr.eok, RtErr.eok, RtErr.eio⟩)).map
            (fun p => (p.2, target p.1 (Op.closePipe End.write agreeing))),
          target x.1 (Op.closePipe End.write agreeing))) =
        some (some (RtErr.eio, (0, 10)), (1, 10)) := by
      decide +kernel
    rw [Option.map_eq_some_iff] at hexec
    obtain ⟨⟨s, acc⟩, hexec, heq⟩ := hexec
    rw [Prod.mk.injEq] at heq
    exact ⟨s, acc, (0, 10), run_of_exec hexec, heq.1, heq.2, rfl⟩
  · have hexec : (exec (watched step record) (registeredState, emptyAccount)
        [Op.openPortal 3 fun w => ⟨RtErr.eok,
          if w = End.write then RtErr.eio else RtErr.eok, RtErr.eok⟩]).map
        (fun x => (x.1.portal.refCount, (x.1.pipe End.read).refCount,
          x.2.users End.read)) = some (0, 1, 0) := by
      decide +kernel
    rw [Option.map_eq_some_iff] at hexec
    obtain ⟨⟨s, acc⟩, hexec, heq⟩ := hexec
    simp only [Prod.mk.injEq] at heq
    exact ⟨s, acc, run_of_exec hexec, heq⟩

end RtThread.Drivers.Portal
