import RtThread.Kernel.Thread

/-!
# The generic device layer

`rt_device_init`, `rt_device_open` and `rt_device_close` over the methods of a driver.  A
method sees the device and the driver's data, and may fail; it has no result where an
assertion fails in it.
-/

namespace RtThread.Drivers

open Kernel

/-!
## Flags
-/

def flagStandalone : Nat := 0x008
def flagActivated : Nat := 0x010
def oflagClose : Nat := 0x000
def oflagRdonly : Nat := 0x001
def oflagWronly : Nat := 0x002
def oflagOpen : Nat := 0x008

/-- `flags & mask` as a condition. -/
def hasFlag (flags mask : Nat) : Bool := flags &&& mask ≠ 0

/-!
## Devices and their drivers
-/

/-- `struct rt_device`: what opening and closing read and write. -/
structure RtDevice where
  flag : Nat
  openFlag : Nat
  refCount : Nat
deriving DecidableEq, Repr

universe u

abbrev Method (Data : Type u) := RtDevice × Data -> Option ((RtDevice × Data) × RtErr)

/-- The methods of a driver, each of which may be `RT_NULL`. -/
structure Driver (Data : Type u) where
  init : Option (Method Data)
  openDev : Option (Nat -> Method Data)
  close : Option (Method Data)

section Layer

variable {Data : Type u} (d : Driver Data) (x : RtDevice × Data)

def setActivated : RtDevice × Data :=
  ({ x.1 with flag := x.1.flag ||| flagActivated }, x.2)

def rtDeviceInit : Option ((RtDevice × Data) × RtErr) :=
  match d.init with
  | none => some (x, RtErr.eok)
  | some init =>
    if hasFlag x.1.flag flagActivated then some (x, RtErr.eok)
    else
      (init x).map fun p =>
        if p.2 = RtErr.eok then (setActivated p.1, RtErr.eok) else p

/-- The first part of `rt_device_open`: initialise the device if it is not. -/
def activate : Option ((RtDevice × Data) × RtErr) :=
  if hasFlag x.1.flag flagActivated then some (x, RtErr.eok)
  else
    match d.init with
    | none => some (setActivated x, RtErr.eok)
    | some init =>
      (init x).map fun p =>
        if p.2 = RtErr.eok then (setActivated p.1, RtErr.eok) else p

/-- The last part of `rt_device_open`: the count is a byte, asserted not to wrap around. -/
def countOpen (oflag : Nat) (p : (RtDevice × Data) × RtErr) :
    Option ((RtDevice × Data) × RtErr) :=
  if p.2 = RtErr.eok ∨ p.2 = RtErr.enosys then
    let count := (p.1.1.refCount + 1) % 2 ^ 8
    if count = 0 then none
    else
      some (({ p.1.1 with openFlag := oflag ||| oflagOpen, refCount := count }, p.1.2), p.2)
  else some p

def rtDeviceOpen (oflag : Nat) : Option ((RtDevice × Data) × RtErr) :=
  (activate d x).bind fun p =>
    if p.2 ≠ RtErr.eok then some p
    else if hasFlag p.1.1.flag flagStandalone ∧ hasFlag p.1.1.openFlag oflagOpen then
      some (p.1, RtErr.ebusy)
    else
      match d.openDev with
      | none => countOpen oflag (p.1, RtErr.eok)
      | some openDev => (openDev oflag p.1).bind (countOpen oflag)

/-- The last part of `rt_device_close`. -/
def clearOpen (p : (RtDevice × Data) × RtErr) : (RtDevice × Data) × RtErr :=
  if p.2 = RtErr.eok ∨ p.2 = RtErr.enosys then
    (({ p.1.1 with openFlag := oflagClose }, p.1.2), p.2)
  else p

/-- `rt_device_close`: the count goes down before the method is called. -/
def rtDeviceClose : Option ((RtDevice × Data) × RtErr) :=
  if x.1.refCount = 0 then some (x, RtErr.error)
  else
    let dev := { x.1 with refCount := x.1.refCount - 1 }
    if dev.refCount ≠ 0 then some ((dev, x.2), RtErr.eok)
    else
      match d.close with
      | none => some (clearOpen ((dev, x.2), RtErr.eok))
      | some close => (close (dev, x.2)).map clearOpen

end Layer

/-!
## Drivers that answer and leave the device alone
-/

/-- What the methods of a driver return when they are called. -/
structure Answers where
  init : RtErr
  openDev : RtErr
  close : RtErr
deriving DecidableEq, Repr

/-- A driver of which only the results matter; a missing method is one that returns
`RT_EOK`. -/
def answering (a : Answers) : Driver Unit :=
  { init := some fun x => some (x, a.init)
    openDev := some fun _ x => some (x, a.openDev)
    close := some fun x => some (x, a.close) }

section Answering

variable {a : Answers} {dev : RtDevice} {y : RtDevice × Unit} {r : RtErr} {oflag : Nat}

/-- Nothing keeps this device from being opened: it is or can be initialised, it is not a
stand-alone device that is open, and the method agrees. -/
def Willing (dev : RtDevice) (a : Answers) : Prop :=
  (hasFlag dev.flag flagActivated = false -> a.init = RtErr.eok) ∧
    ¬ (hasFlag dev.flag flagStandalone = true ∧ hasFlag dev.openFlag oflagOpen = true) ∧
    a.openDev = RtErr.eok

instance (dev : RtDevice) (a : Answers) : Decidable (Willing dev a) :=
  inferInstanceAs (Decidable (_ ∧ _ ∧ _))

theorem hasFlag_activated (flag : Nat) : hasFlag (flag ||| flagActivated) flagActivated = true := by
  unfold hasFlag
  rw [Nat.and_or_distrib_right, decide_eq_true_eq]
  intro hzero
  have hbit := (Nat.or_eq_zero_iff.mp hzero).2
  exact absurd hbit (by decide)

theorem hasFlag_standalone (flag : Nat) :
    hasFlag (flag ||| flagActivated) flagStandalone = hasFlag flag flagStandalone := by
  unfold hasFlag
  rw [Nat.and_or_distrib_right, show flagActivated &&& flagStandalone = 0 from rfl, Nat.or_zero]

theorem willing_setActivated (hwilling : Willing dev a) : Willing (setActivated (dev, ())).1 a := by
  refine ⟨?_, ?_, hwilling.2.2⟩
  · intro hactive
    rw [setActivated, hasFlag_activated] at hactive
    cases hactive
  · rw [setActivated, hasFlag_standalone]
    exact hwilling.2.1

/-- What initialising leaves: the count, the open flag and the willingness. -/
structure SameUse (a : Answers) (dev dev' : RtDevice) : Prop where
  count : dev'.refCount = dev.refCount
  flag : dev'.openFlag = dev.openFlag
  willing : Willing dev a -> Willing dev' a

theorem SameUse.refl : SameUse a dev dev := ⟨rfl, rfl, id⟩

theorem sameUse_setActivated : SameUse a dev (setActivated (dev, ())).1 :=
  ⟨rfl, rfl, willing_setActivated⟩

theorem init_answering (hs : rtDeviceInit (answering a) (dev, ()) = some (y, r)) :
    SameUse a dev y.1 := by
  unfold rtDeviceInit answering at hs
  simp only at hs
  split at hs
  · cases hs
    exact SameUse.refl
  · simp only [Option.map_some, Option.some.injEq] at hs
    split at hs
    · cases hs
      exact sameUse_setActivated
    · cases hs
      exact SameUse.refl

theorem activate_answering (hs : activate (answering a) (dev, ()) = some (y, r)) :
    SameUse a dev y.1 ∧ (r = RtErr.eok ∨ r = a.init ∧ ¬ Willing dev a) := by
  unfold activate answering at hs
  simp only [Option.map_some] at hs
  split at hs
  · cases hs
    exact ⟨SameUse.refl, Or.inl rfl⟩
  · next hactive =>
      split at hs
      · cases hs
        exact ⟨sameUse_setActivated, Or.inl rfl⟩
      · next hinit =>
          cases hs
          refine ⟨SameUse.refl, Or.inr ⟨rfl, ?_⟩⟩
          intro hwilling
          exact hinit (hwilling.1 (by simpa using hactive))

theorem open_answering (hopen : a.openDev ≠ RtErr.enosys) (hbyte : dev.refCount < 2 ^ 8)
    (hs : rtDeviceOpen (answering a) (dev, ()) oflag = some (y, r)) :
    (r = RtErr.eok ∧ y.1.refCount = dev.refCount + 1 ∧ y.1.refCount < 2 ^ 8) ∨
      (r ≠ RtErr.eok ∧ (a.init ≠ RtErr.enosys -> r ≠ RtErr.enosys) ∧
        y.1.refCount = dev.refCount ∧ y.1.openFlag = dev.openFlag ∧ ¬ Willing dev a) := by
  unfold rtDeviceOpen at hs
  rw [Option.bind_eq_some_iff] at hs
  obtain ⟨⟨x, r0⟩, hactive, hs⟩ := hs
  obtain ⟨hsame, hinit⟩ := activate_answering hactive
  split at hs
  · next hr0 =>
      cases hs
      rcases hinit with hok | ⟨rfl, hnot⟩
      · exact absurd hok hr0
      · exact Or.inr ⟨hr0, id, hsame.count, hsame.flag, hnot⟩
  · split at hs
    · next hbusy =>
        cases hs
        refine Or.inr ⟨nofun, fun _ => nofun, hsame.count, hsame.flag, ?_⟩
        intro hwilling
        exact (hsame.willing hwilling).2.1 hbusy
    · simp only [answering, Option.bind_some, countOpen, hopen, or_false] at hs
      split at hs
      · split at hs
        · cases hs
        · next hcalled hwrap =>
            cases hs
            refine Or.inl ⟨hcalled, ?_, Nat.mod_lt _ (by decide)⟩
            simp only [hsame.count] at hwrap ⊢
            omega
      · next hrefused =>
          cases hs
          exact Or.inr ⟨hrefused, fun _ => hopen, hsame.count, hsame.flag,
            fun hwilling => hrefused hwilling.2.2⟩

theorem close_count (hs : rtDeviceClose (answering a) (dev, ()) = some (y, r)) :
    y.1.refCount = dev.refCount - 1 := by
  unfold rtDeviceClose answering at hs
  split at hs
  · next hzero =>
      cases hs
      change dev.refCount = 0 at hzero
      show dev.refCount = dev.refCount - 1
      omega
  · simp only at hs
    split at hs
    · cases hs
      rfl
    · rw [Option.map_some, Option.some.injEq] at hs
      unfold clearOpen at hs
      split at hs
      · cases hs
        rfl
      · cases hs
        rfl

theorem close_answering (hclose : dev.refCount = 1 -> a.close = RtErr.eok)
    (hs : rtDeviceClose (answering a) (dev, ()) = some (y, r)) :
    (dev.refCount ≠ 0 ∧ r = RtErr.eok ∧ y.1.refCount = dev.refCount - 1) ∨
      (dev.refCount = 0 ∧ r = RtErr.error ∧ y.1 = dev) := by
  unfold rtDeviceClose answering at hs
  split at hs
  · next hzero =>
      cases hs
      exact Or.inr ⟨hzero, rfl, rfl⟩
  · next hopen =>
      simp only at hs
      split at hs
      · cases hs
        exact Or.inl ⟨hopen, rfl, rfl⟩
      · next hlast =>
          have hone : dev.refCount = 1 := by
            simp only at hopen
            omega
          simp only [hclose hone, Option.map_some, clearOpen, true_or, if_true] at hs
          cases hs
          exact Or.inl ⟨hopen, rfl, rfl⟩

end Answering

end RtThread.Drivers
