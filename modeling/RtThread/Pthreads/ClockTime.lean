import Mathlib.Algebra.Group.Int.Defs
import Mathlib.Algebra.Group.Nat.Defs
import RtThread.Library.Transition
import Mathlib.Data.Nat.GCD.Basic

/-!
# The real-time clock

`clock_time.c`, on a target whose `long`, `time_t` and `rt_tick_t` have 32 bits.  The clock
is a base time, kept in seconds and microseconds; a reading adds the tick to it.
`RT_TICK_PER_SECOND` is a parameter.
-/

namespace RtThread.Pthreads.ClockTime

open Transition

/-- `struct timeval`, the type of `_timevalue`. -/
structure Timeval where
  tvSec : BitVec 32
  tvUsec : BitVec 32
deriving DecidableEq, Repr

structure Timespec where
  tvSec : BitVec 32
  tvNsec : BitVec 32
deriving DecidableEq, Repr

/-- `_timevalue`, and the seconds of the device `rtc` if there is one. -/
structure State where
  timevalue : Timeval
  rtc : Option (BitVec 32)
deriving DecidableEq, Repr

inductive Outcome where
  | ok
  /-- -1, with `EINVAL` -/
  | einval
  /-- -1 because there is no device, although the time has been set -/
  | noRtc
deriving DecidableEq, Repr

def clockRealtime : Int := 0

/-!
## The functions
-/

section Functions

variable (tickPerSecond : Nat)

def microsecondPerTick : BitVec 32 := BitVec.ofNat 32 (1000000 / tickPerSecond)

def nanosecondPerTick : BitVec 32 := BitVec.ofNat 32 (1000000000 / tickPerSecond)

def tickSeconds (tick : BitVec 32) : BitVec 32 := tick / BitVec.ofNat 32 tickPerSecond

def tickPhase (tick : BitVec 32) : BitVec 32 := tick % BitVec.ofNat 32 tickPerSecond

def clockTimeSystemInit (s : State) (tick : BitVec 32) : State :=
  { s with
    timevalue :=
      { tvSec := s.rtc.getD 0 - tickSeconds tickPerSecond tick - 1
        tvUsec := tickPhase tickPerSecond tick * microsecondPerTick tickPerSecond } }

def reading (v : Timeval) (tick : BitVec 32) : Timespec :=
  { tvSec := v.tvSec + tickSeconds tickPerSecond tick
    tvNsec :=
      (v.tvUsec + tickPhase tickPerSecond tick * nanosecondPerTick tickPerSecond) * 1000 }

def clockGettime (s : State) (clockid : Int) (tick : BitVec 32) :
    Except Outcome Timespec :=
  if clockid ≠ clockRealtime then Except.error Outcome.einval
  else Except.ok (reading tickPerSecond s.timevalue tick)

def clockSettime (s : State) (clockid : Int) (tp : Option Timespec) (tick : BitVec 32) :
    State × Outcome :=
  match tp with
  | none => (s, Outcome.einval)
  | some tp =>
    if clockid ≠ clockRealtime then (s, Outcome.einval)
    else
      let second := tp.tvSec
      let timevalue : Timeval :=
        { tvSec := second - tickSeconds tickPerSecond tick - 1
          tvUsec :=
            1000000 - tickPhase tickPerSecond tick * microsecondPerTick tickPerSecond }
      match s.rtc with
      | some _ => ({ timevalue := timevalue, rtc := some second }, Outcome.ok)
      | none => ({ s with timevalue := timevalue }, Outcome.noRtc)

end Functions

/-!
## Histories
-/

/-- The calls that change the clock, each with the tick at which it is made; the device
comes and goes, and its time moves on. -/
inductive Op where
  | systemInit (tick : BitVec 32)
  | settime (clockid : Int) (tp : Option Timespec) (tick : BitVec 32)
  | rtc (seconds : Option (BitVec 32))
deriving DecidableEq, Repr

def step (tickPerSecond : Nat) (s : State) : Op -> Option State
  | Op.systemInit tick => some (clockTimeSystemInit tickPerSecond s tick)
  | Op.settime clockid tp tick => some (clockSettime tickPerSecond s clockid tp tick).1
  | Op.rtc seconds => some { s with rtc := seconds }

def boot : State := { timevalue := ⟨0, 0⟩, rtc := none }

/-- The last time that was set since the clock was initialised, and when. -/
abbrev LastSet := Option (BitVec 32 × Timespec)

def recordSet (_s : State) (op : Op) (_s' : State) (h : LastSet) : LastSet :=
  match op with
  | Op.systemInit _ => none
  | Op.settime clockid (some tp) tick =>
    if clockid = clockRealtime then some (tick, tp) else h
  | _ => h

/-!
## What a clock should do
-/

def Timespec.value (tp : Timespec) : Int := tp.tvSec.toInt * 1000000000 + tp.tvNsec.toInt

/-- The seconds of a reading do not reach the end of `time_t`. -/
def Fits (tickPerSecond : Nat) (v : Timeval) (tick : BitVec 32) : Prop :=
  v.tvSec.toInt + (tick.toNat / tickPerSecond : Nat) < 2147483648

/-- At every tick a reading has less than a second of nanoseconds; readings do not decrease,
and advance by a second in a second's ticks; the time set is read at its tick to within one
tick. -/
structure Regular (tickPerSecond : Nat) (v : Timeval) (h : LastSet) : Prop where
  nsec : forall tick, 0 ≤ (reading tickPerSecond v tick).tvNsec.toInt ∧
    (reading tickPerSecond v tick).tvNsec.toInt < 1000000000
  mono : forall tick tick' : BitVec 32, tick.toNat ≤ tick'.toNat ->
    Fits tickPerSecond v tick' ->
    (reading tickPerSecond v tick).value ≤ (reading tickPerSecond v tick').value
  second : forall tick tick' : BitVec 32, tick'.toNat = tick.toNat + tickPerSecond ->
    Fits tickPerSecond v tick' ->
    (reading tickPerSecond v tick').value = (reading tickPerSecond v tick).value + 1000000000
  kept : forall tick tp, h = some (tick, tp) ->
    ((reading tickPerSecond v tick).value - tp.tvSec.toInt * 1000000000).natAbs ≤
      1000000000 / tickPerSecond

/-!
## The nanoseconds of all phases

The nanoseconds go up by the same amount from each phase to the next, modulo `2^32`.  All of
them can stay below a second only if that amount, taken as a small signed number, adds up
to what 10^12 leaves, and 10^12 lies near `233 * 2^32`.
-/

section Phases

variable {tps a d : Nat}

theorem phase_linear (hall : forall q, q < tps -> (a + q * d) % 4294967296 < 1000000000) (q : Nat)
    (hq : q < tps) :
    (((a + q * d) % 4294967296 : Nat) : Int) = ((a % 4294967296 : Nat) : Int) +
        q * ((((a + d) % 4294967296 : Nat) : Int) - ((a % 4294967296 : Nat) : Int)) := by
  induction q with
  | zero => simp
  | succ q ih =>
    have hbefore := ih (by omega)
    have h0 := hall 0 (by omega)
    have h1 := hall 1 (by omega)
    have hlast := hall q (by omega)
    have hnext := hall (q + 1) hq
    rw [Nat.zero_mul, Nat.add_zero] at h0
    rw [Nat.one_mul] at h1
    rw [Nat.succ_mul, ← Nat.add_assoc] at hnext ⊢
    rw [Int.natCast_add q 1, Int.add_mul, Int.natCast_one, Int.one_mul]
    omega

theorem phases_in_second (htps : tps ∣ 1000000) (hd : tps * d = 1000000000000)
    (hall : forall q, q < tps -> (a + q * d) % 4294967296 < 1000000000) : tps = 1 := by
  have hpos : 0 < tps := Nat.pos_of_dvd_of_pos htps (by decide)
  rcases Nat.lt_or_ge 1 tps with htwo | hone
  · have h0 := hall 0 hpos
    have h1 := hall 1 htwo
    have hlast := hall (tps - 1) (by omega)
    have hline := phase_linear hall (tps - 1) (by omega)
    rw [Nat.zero_mul, Nat.add_zero] at h0
    rw [Nat.one_mul] at h1
    obtain ⟨carry, hcarry⟩ : exists carry : Int, (d : Int) =
        (((a + d) % 4294967296 : Nat) : Int) - ((a % 4294967296 : Nat) : Int) +
          carry * 4294967296 :=
      ⟨((a + d) / 4294967296 : Nat) - (a / 4294967296 : Nat), by omega⟩
    generalize hstep : (((a + d) % 4294967296 : Nat) : Int) - ((a % 4294967296 : Nat) : Int) = delta
        at hcarry hline
    have htotal : (tps : Int) * delta + tps * carry * 4294967296 = 1000000000000 := by
      rw [Int.mul_assoc, ← Int.mul_add, ← hcarry]
      rw [← Int.natCast_mul, hd]
      rfl
    rw [Int.natCast_sub hpos, Int.sub_mul, Int.natCast_one, Int.one_mul] at hline
    have hmul : (tps : Int) * carry = 233 := by omega
    have hdvd : tps ∣ 233 := Int.natCast_dvd_natCast.mp ⟨carry, hmul.symm⟩
    exact Nat.dvd_one.mp (Nat.dvd_gcd hdvd htps)
  · omega

end Phases

/-!
## Readings
-/

section Readings

variable {tps : Nat} {v : Timeval} {tick tick' : BitVec 32}

theorem tps_bounds (htps : tps ∣ 1000000) : 0 < tps ∧ tps ≤ 1000000 :=
  ⟨Nat.pos_of_dvd_of_pos htps (by decide), Nat.le_of_dvd (by decide) htps⟩

theorem tps_toNat (htps : tps ∣ 1000000) : (BitVec.ofNat 32 tps).toNat = tps := by
  have hle := (tps_bounds htps).right
  rw [BitVec.toNat_ofNat]
  exact Nat.mod_eq_of_lt (by omega)

theorem tickSeconds_toNat (htps : tps ∣ 1000000) :
    (tickSeconds tps tick).toNat = tick.toNat / tps := by
  rw [tickSeconds, BitVec.toNat_udiv, tps_toNat htps]

theorem tickPhase_toNat (htps : tps ∣ 1000000) :
    (tickPhase tps tick).toNat = tick.toNat % tps := by
  rw [tickPhase, BitVec.toNat_umod, tps_toNat htps]

theorem toInt_add_of_fits {a b : BitVec 32} (hfits : a.toInt + (b.toNat : Int) < 2147483648) :
    (a + b).toInt = a.toInt + b.toNat := by
  rw [BitVec.toInt_eq_toNat_bmod, BitVec.toNat_add, BitVec.toInt_eq_toNat_cond]
  rw [BitVec.toInt_eq_toNat_cond] at hfits
  split at hfits <;> rw [Int.bmod_eq_emod] <;> split <;> omega

theorem reading_sec (htps : tps ∣ 1000000) (hfits : Fits tps v tick) :
    (reading tps v tick).tvSec.toInt = v.tvSec.toInt + (tick.toNat / tps : Nat) := by
  show (v.tvSec + tickSeconds tps tick).toInt = _
  rw [← tickSeconds_toNat htps]
  unfold Fits at hfits
  rw [← tickSeconds_toNat htps] at hfits
  exact toInt_add_of_fits hfits

theorem reading_nsec (htps : tps ∣ 1000000) : (reading tps v tick).tvNsec.toNat =
      (v.tvUsec.toNat * 1000 + tick.toNat % tps * (1000000000 / tps * 1000)) % 4294967296 := by
  show ((v.tvUsec + tickPhase tps tick * nanosecondPerTick tps) * 1000).toNat = _
  rw [BitVec.toNat_mul, BitVec.toNat_add, BitVec.toNat_mul, tickPhase_toNat htps,
    nanosecondPerTick, BitVec.toNat_ofNat]
  rw [← Nat.mul_assoc, ← Nat.add_mul]
  simp only [Nat.reducePow, Nat.mul_mod_mod, Nat.mod_mul_mod, Nat.add_mod_mod]
  rfl

theorem nsec_range_iff {n : BitVec 32} :
    0 ≤ n.toInt ∧ n.toInt < 1000000000 <-> n.toNat < 1000000000 := by
  rw [BitVec.toInt_eq_toNat_cond]
  have hlt := n.isLt
  split <;> omega

theorem reading_second (htps : tps ∣ 1000000) (hfits : Fits tps v tick')
    (htick : tick'.toNat = tick.toNat + tps) :
    (reading tps v tick').value = (reading tps v tick).value + 1000000000 := by
  have hpos := (tps_bounds htps).left
  have hdiv : tick'.toNat / tps = tick.toNat / tps + 1 := by
    rw [htick, Nat.add_div_right _ hpos]
  have hfits' : Fits tps v tick := by
    unfold Fits at hfits ⊢
    omega
  have hnsec : (reading tps v tick').tvNsec = (reading tps v tick).tvNsec := by
    apply BitVec.eq_of_toNat_eq
    rw [reading_nsec htps, reading_nsec htps, htick, Nat.add_mod_right]
  unfold Timespec.value
  rw [hnsec, reading_sec htps hfits, reading_sec htps hfits', hdiv]
  omega

end Readings

/-!
## Every history
-/

/-- The microseconds of the base time are a whole number of ticks within a second; after
`clock_settime` not zero but perhaps all of the second. -/
def Phased (tps : Nat) (v : Timeval) (h : LastSet) : Prop :=
  exists part, v.tvUsec.toNat = part * (1000000 / tps) ∧
    match h with
    | none => part < tps
    | some _ => 0 < part ∧ part ≤ tps

section Histories

variable {tps : Nat} {s s' : State} {h : LastSet} {tick : BitVec 32}

theorem phase_usec (htps : tps ∣ 1000000) : (tickPhase tps tick * microsecondPerTick tps).toNat =
      tick.toNat % tps * (1000000 / tps) := by
  have hpos := (tps_bounds htps).left
  have hphase := Nat.mod_lt tick.toNat hpos
  have hdiv : tps * (1000000 / tps) = 1000000 := Nat.mul_div_cancel' htps
  have hle : tick.toNat % tps * (1000000 / tps) ≤ tps * (1000000 / tps) :=
    Nat.mul_le_mul_right _ (by omega)
  have hdle : 1000000 / tps ≤ 1000000 := Nat.div_le_self _ _
  rw [BitVec.toNat_mul, tickPhase_toNat htps, microsecondPerTick, BitVec.toNat_ofNat,
    Nat.mul_mod_mod]
  exact Nat.mod_eq_of_lt (by omega)

theorem phase_rest (htps : tps ∣ 1000000) :
    ((1000000 : BitVec 32) - tickPhase tps tick * microsecondPerTick tps).toNat =
      (tps - tick.toNat % tps) * (1000000 / tps) := by
  have hpos := (tps_bounds htps).left
  have hphase := Nat.mod_lt tick.toNat hpos
  have hdiv : tps * (1000000 / tps) = 1000000 := Nat.mul_div_cancel' htps
  have hle : tick.toNat % tps * (1000000 / tps) ≤ tps * (1000000 / tps) :=
    Nat.mul_le_mul_right _ (by omega)
  rw [Nat.sub_mul, hdiv, BitVec.toNat_sub, phase_usec htps]
  have hmillion : (1000000 : BitVec 32).toNat = 1000000 := rfl
  omega

theorem Phased.step {op : Op} (htps : tps ∣ 1000000) (hv : Phased tps s.timevalue h)
    (hs : step tps s op = some s') : Phased tps s'.timevalue (recordSet s op s' h) := by
  have hpos := (tps_bounds htps).left
  cases op with
  | systemInit tick =>
    cases hs
    exact ⟨tick.toNat % tps, phase_usec htps, Nat.mod_lt _ hpos⟩
  | settime clockid tp tick =>
    cases hs
    cases tp with
    | none => exact hv
    | some tp =>
      have hphase := Nat.mod_lt tick.toNat hpos
      by_cases hclock : clockid = clockRealtime
      · simp only [clockSettime, recordSet, hclock, ne_eq, not_true_eq_false, if_false, if_true]
        cases s.rtc with
        | none =>
          exact ⟨tps - tick.toNat % tps, phase_rest htps, by omega, by omega⟩
        | some _ =>
          exact ⟨tps - tick.toNat % tps, phase_rest htps, by omega, by omega⟩
      · simp only [clockSettime, recordSet, ne_eq, hclock, not_false_eq_true, if_true, if_false]
        exact hv
  | rtc seconds =>
    cases hs
    exact hv

theorem Phased.only_if {v : Timeval} (htps : tps ∣ 1000000) (hv : Phased tps v h)
    (hnsec : forall tick, (reading tps v tick).tvNsec.toNat < 1000000000) :
    tps = 1 ∧ h = none := by
  have hpos := (tps_bounds htps).left
  have hle := (tps_bounds htps).right
  have hbillion : tps ∣ 1000000000 := htps.trans (by decide)
  have hphases : forall q, q < tps ->
      (v.tvUsec.toNat * 1000 + q * (1000000000 / tps * 1000)) % 4294967296 < 1000000000 := by
    intro q hq
    have htick : (BitVec.ofNat 32 q).toNat = q := by
      rw [BitVec.toNat_ofNat]
      exact Nat.mod_eq_of_lt (by omega)
    have hread := hnsec (BitVec.ofNat 32 q)
    rw [reading_nsec htps, htick, Nat.mod_eq_of_lt hq] at hread
    exact hread
  have hone : tps = 1 := by
    refine phases_in_second htps ?_ hphases
    rw [← Nat.mul_assoc, Nat.mul_div_cancel' hbillion]
  subst hone
  refine ⟨rfl, ?_⟩
  rcases hv with ⟨part, husec, hpart⟩
  cases h with
  | none => rfl
  | some set =>
    have hzero := hphases 0 (by decide)
    rw [husec] at hzero
    have hpart' : part = 1 := by omega
    subst hpart'
    exact absurd hzero (by decide)

theorem Phased.regular {v : Timeval} (hv : Phased 1 v none) : Regular 1 v none := by
  rcases hv with ⟨part, husec, hpart⟩
  have hzero : forall tick, (reading 1 v tick).tvNsec.toNat = 0 := by
    intro tick
    rw [reading_nsec (by decide), husec, Nat.mod_one]
    have hpart' : part = 0 := by omega
    rw [hpart']
  have hnsec : forall tick, (reading 1 v tick).tvNsec.toInt = 0 := by
    intro tick
    rw [show (reading 1 v tick).tvNsec = 0 from BitVec.eq_of_toNat_eq (hzero tick)]
    rfl
  refine ⟨?_, ?_, ?_, nofun⟩
  · intro tick
    rw [hnsec tick]
    decide
  · intro tick tick' hle hfits
    have hfits' : Fits 1 v tick := by
      unfold Fits at hfits ⊢
      rw [Nat.div_one] at hfits ⊢
      omega
    unfold Timespec.value
    rw [hnsec, hnsec, reading_sec (by decide) hfits, reading_sec (by decide) hfits',
      Nat.div_one, Nat.div_one]
    omega
  · intro tick tick' htick hfits
    exact reading_second (by decide) hfits htick

end Histories

/-- After any history the clock is as it should be exactly if there is one tick per second
and the clock has not been set. -/
theorem clock_regular_iff {tps : Nat} (htps : tps ∣ 1000000) {ops : List Op} {s : State}
    {h : LastSet} (hrun : Run (Graph (watched (step tps) recordSet)) (boot, none) ops (s, h)) :
    Regular tps s.timevalue h <-> tps = 1 ∧ h = none := by
  have hv : Phased tps s.timevalue h := by
    apply hrun.watched_invariant (fun s h => Phased tps s.timevalue h)
    · exact ⟨0, (Nat.zero_mul _).symm, (tps_bounds htps).left⟩
    · exact fun s h op s' hv hs => hv.step htps hs
  constructor
  · intro hregular
    exact hv.only_if htps fun tick => nsec_range_iff.mp (hregular.nsec tick)
  · rintro ⟨rfl, rfl⟩
    exact hv.regular

theorem clock_regular_iff_hundred :
    exists (s : State) (h : LastSet), Run (Graph (watched (step 100) recordSet)) (boot, none)
      [Op.systemInit 7, Op.settime 0 (some ⟨9, 0⟩) 42] (s, h) ∧
      (Regular 100 s.timevalue h <-> 100 = 1 ∧ h = none) :=
  ⟨_, _, run_of_exec rfl, clock_regular_iff (by decide)
    (run_of_exec (rfl : exec (watched (step 100) recordSet) (boot, none)
      [Op.systemInit 7, Op.settime 0 (some ⟨9, 0⟩) 42] = some (_, _)))⟩

/-- With 100 ticks per second, a time set at tick 0 is read at tick 0 with 10^9
nanoseconds. -/
theorem clock_nsec_overflows :
    exists s h, Run (Graph (watched (step 100) recordSet)) (boot, none)
      [Op.systemInit 0, Op.settime 0 (some ⟨9, 0⟩) 0] (s, h) ∧
      (reading 100 s.timevalue 0).tvNsec = 1000000000 ∧ ¬ Regular 100 s.timevalue h := by
  refine ⟨_, _, run_of_exec rfl, by decide, fun hregular => ?_⟩
  exact absurd (hregular.nsec 0).right (by decide)

/-!
## Deadlines
-/

/-- `clock_time_to_tick` at a reading of the clock; the quotient is one of unsigned numbers. -/
def clockTimeToTick (tickPerSecond : Nat) (time : Option Timespec) (tp : Timespec) : BitVec 32 :=
  match time with
  | none => -1
  | some time =>
    let borrow := (time.tvNsec - tp.tvNsec).slt 0
    let nsecond :=
      if borrow then 1000000000 - (tp.tvNsec - time.tvNsec) else time.tvNsec - tp.tvNsec
    let second :=
      if borrow then time.tvSec - tp.tvSec - 1 else time.tvSec - tp.tvSec
    let tick := second * BitVec.ofNat 32 tickPerSecond +
      nsecond * BitVec.ofNat 32 tickPerSecond / 1000000000
    if tick.slt 0 then 0 else tick

/-- The whole ticks from one time to another. -/
def ticksTo (tickPerSecond : Nat) (time tp : Timespec) : Int :=
  (time.value - tp.value) * tickPerSecond / 1000000000

/-- The seconds between two times, and the nanoseconds that remain. -/
def apart (time tp : Timespec) : Int × Int :=
  let second := time.tvSec.toInt - tp.tvSec.toInt
  let nsecond := time.tvNsec.toInt - tp.tvNsec.toInt
  if (time.tvNsec - tp.tvNsec).slt 0 then (second - 1, nsecond + 1000000000)
  else (second, nsecond)

/-- The ticks of the nanoseconds, from the lower 32 bits of their product. -/
def narrowTicks (tickPerSecond : Nat) (nsecond : Int) : Int :=
  nsecond * tickPerSecond % 2 ^ 32 / 1000000000

/-- The lower 32 bits of the product of the nanoseconds are enough for a deadline to come;
another lies at most `2^31` ticks before the reading, or before that by whole turns of 32
bits. -/
def Convertible (tickPerSecond : Nat) (time tp : Timespec) : Prop :=
  let (second, nsecond) := apart time tp
  if 0 < ticksTo tickPerSecond time tp then
    narrowTicks tickPerSecond nsecond % 2 ^ 32 = nsecond * tickPerSecond / 1000000000 % 2 ^ 32
  else exists turns : Int,
    turns * 2 ^ 32 - 2 ^ 31 ≤ second * tickPerSecond + narrowTicks tickPerSecond nsecond ∧
      second * tickPerSecond + narrowTicks tickPerSecond nsecond ≤ turns * 2 ^ 32

section Deadlines

variable {tps : Nat} {time tp : Timespec}

theorem ticksTo_apart : ticksTo tps time tp =
    (apart time tp).1 * tps + (apart time tp).2 * tps / 1000000000 := by
  have hvalue : (time.value - tp.value) * tps =
      (apart time tp).2 * tps + (apart time tp).1 * tps * 1000000000 := by
    unfold apart Timespec.value
    split <;> grind
  rw [ticksTo, hvalue, Int.add_mul_ediv_right _ _ (by decide), Int.add_comm]

theorem ofInt_sub (x y : BitVec 32) : x - y = BitVec.ofInt 32 (x.toInt - y.toInt) := by
  rw [Int.sub_eq_add_neg, BitVec.ofInt_add, BitVec.ofInt_neg, BitVec.ofInt_toInt,
    BitVec.ofInt_toInt, BitVec.sub_eq_add_neg]

theorem second_eq : (if (time.tvNsec - tp.tvNsec).slt 0 then time.tvSec - tp.tvSec - 1
      else time.tvSec - tp.tvSec) = BitVec.ofInt 32 (apart time tp).1 := by
  unfold apart
  split
  · have hone : time.tvSec.toInt - tp.tvSec.toInt - 1 = time.tvSec.toInt - tp.tvSec.toInt + -1 :=
      Int.sub_eq_add_neg
    show _ = BitVec.ofInt 32 (time.tvSec.toInt - tp.tvSec.toInt - 1)
    rw [hone, BitVec.ofInt_add, <- ofInt_sub]
    exact BitVec.sub_eq_add_neg _ _
  · exact ofInt_sub _ _

theorem nsecond_eq : (if (time.tvNsec - tp.tvNsec).slt 0
      then 1000000000 - (tp.tvNsec - time.tvNsec) else time.tvNsec - tp.tvNsec) =
    BitVec.ofInt 32 (apart time tp).2 := by
  unfold apart
  split
  · rw [BitVec.ofInt_add, <- ofInt_sub]
    have hone : (BitVec.ofInt 32 1000000000) = 1000000000 := by decide
    rw [hone]
    generalize time.tvNsec = a
    generalize tp.tvNsec = b
    bv_omega
  · exact ofInt_sub _ _

theorem product_eq (nsecond : Int) : BitVec.ofInt 32 nsecond * BitVec.ofNat 32 tps / 1000000000 =
      BitVec.ofInt 32 (narrowTicks tps nsecond) := by
  have hlow : 0 ≤ nsecond * tps % 2 ^ 32 := Int.emod_nonneg _ (by decide)
  have hhigh : nsecond * tps % 2 ^ 32 < 2 ^ 32 := Int.emod_lt_of_pos _ (by decide)
  rw [<- BitVec.ofInt_natCast, <- BitVec.ofInt_mul]
  apply BitVec.eq_of_toNat_eq
  rw [BitVec.toNat_udiv, BitVec.toNat_ofInt, BitVec.toNat_ofInt, narrowTicks]
  show ((nsecond * tps) % 2 ^ 32).toNat / 1000000000 = _
  omega

theorem sum_toInt (second nsecond : Int) : (BitVec.ofInt 32 second * BitVec.ofNat 32 tps +
        BitVec.ofInt 32 nsecond * BitVec.ofNat 32 tps / 1000000000).toInt =
      (second * tps + narrowTicks tps nsecond).bmod (2 ^ 32) := by
  have htps : BitVec.ofNat 32 tps = BitVec.ofInt 32 tps := (BitVec.ofInt_natCast 32 tps).symm
  rw [product_eq, htps, <- BitVec.ofInt_mul, <- BitVec.ofInt_add, BitVec.toInt_ofInt]

theorem clockTimeToTick_toInt : (clockTimeToTick tps (some time) tp).toInt =
    max 0 (((apart time tp).1 * tps + narrowTicks tps (apart time tp).2).bmod (2 ^ 32)) := by
  unfold clockTimeToTick
  simp only [second_eq, nsecond_eq]
  rw [<- sum_toInt]
  generalize BitVec.ofInt 32 (apart time tp).1 * BitVec.ofNat 32 tps +
    BitVec.ofInt 32 (apart time tp).2 * BitVec.ofNat 32 tps / 1000000000 = tick
  have hzero : (0 : BitVec 32).toInt = 0 := rfl
  rw [BitVec.slt_eq_decide, hzero]
  by_cases hneg : tick.toInt < 0
  · rw [decide_eq_true hneg, if_pos rfl, hzero]
    omega
  · rw [decide_eq_false hneg, if_neg nofun]
    omega

theorem bmod_nonpos_iff (x : Int) :
    x.bmod (2 ^ 32) ≤ 0 <-> exists turns : Int, turns * 2 ^ 32 - 2 ^ 31 ≤ x ∧
      x ≤ turns * 2 ^ 32 := by
  rw [Int.bmod_eq_emod]
  constructor
  · intro h
    refine ⟨(x + 2 ^ 31) / 2 ^ 32, ?_⟩
    split at h <;> omega
  · rintro ⟨turns, hlow, hhigh⟩
    split <;> omega

theorem clockTimeToTick_iff (hahead : ticksTo tps time tp < 2 ^ 31) :
    (clockTimeToTick tps (some time) tp).toInt = max 0 (ticksTo tps time tp) <->
      Convertible tps time tp := by
  have hticks := @ticksTo_apart tps time tp
  unfold Convertible
  rw [clockTimeToTick_toInt]
  simp only [<- bmod_nonpos_iff]
  generalize (apart time tp).1 * (tps : Int) = a at *
  generalize narrowTicks tps (apart time tp).2 = b
  generalize (apart time tp).2 * (tps : Int) / 1000000000 = c at *
  generalize ticksTo tps time tp = n at *
  by_cases hpos : 0 < n
  · have hbmod : (a + b).bmod (2 ^ 32) = n <-> b % 2 ^ 32 = c % 2 ^ 32 := by
      rw [Int.bmod_eq_emod]
      split <;> omega
    rw [if_pos hpos, <- hbmod]
    omega
  · rw [if_neg hpos]
    omega

theorem convertible_iff_fits (hahead : 0 < ticksTo tps time tp) (htps : tps < 2 ^ 31)
    (hlow : 0 ≤ (apart time tp).2) (hhigh : (apart time tp).2 < 1000000000) :
    Convertible tps time tp <-> (apart time tp).2 * tps < 2 ^ 32 := by
  unfold Convertible narrowTicks
  simp only
  rw [if_pos hahead]
  have hmul : (apart time tp).2 * tps ≤ 1000000000 * tps :=
    Int.mul_le_mul_of_nonneg_right (by omega) (by omega)
  have hpos := Int.mul_nonneg hlow (Int.natCast_nonneg tps)
  generalize (apart time tp).2 * (tps : Int) = product at *
  omega

/-- At any reading of the clock and for any deadline up to `2^31` ticks ahead.  If the
deadline is to come and its nanoseconds are within a second, their product has to fit. -/
theorem deadline_ticks_iff (tps : Nat) (v : Timeval) (tick : BitVec 32) (time : Timespec)
    (hahead : ticksTo tps time (reading tps v tick) < 2 ^ 31) :
    ((clockTimeToTick tps (some time) (reading tps v tick)).toInt =
        max 0 (ticksTo tps time (reading tps v tick)) <->
      Convertible tps time (reading tps v tick)) ∧
    (0 < ticksTo tps time (reading tps v tick) -> tps < 2 ^ 31 ->
      0 ≤ (apart time (reading tps v tick)).2 ->
      (apart time (reading tps v tick)).2 < 1000000000 ->
      (Convertible tps time (reading tps v tick) <->
        (apart time (reading tps v tick)).2 * tps < 2 ^ 32)) :=
  ⟨clockTimeToTick_iff hahead, convertible_iff_fits⟩

/-- A quarter of a second at 16 ticks per second. -/
theorem deadline_ticks_iff_quarter :
    ((clockTimeToTick 16 (some ⟨1, 250000000⟩) (reading 16 ⟨1, 0⟩ 0)).toInt =
        max 0 (ticksTo 16 ⟨1, 250000000⟩ (reading 16 ⟨1, 0⟩ 0)) <->
      Convertible 16 ⟨1, 250000000⟩ (reading 16 ⟨1, 0⟩ 0)) ∧
    Convertible 16 ⟨1, 250000000⟩ (reading 16 ⟨1, 0⟩ 0) := by
  have hiff := deadline_ticks_iff 16 ⟨1, 0⟩ 0 ⟨1, 250000000⟩ (by decide)
  exact ⟨hiff.1, (hiff.2 (by decide) (by decide) (by decide) (by decide)).mpr (by decide)⟩

/-- At 100 ticks per second half a second is two ticks instead of 50. -/
theorem half_second_cut_short :
    clockTimeToTick 100 (some ⟨0, 500000000⟩) (reading 100 ⟨0, 0⟩ 0) = 2 ∧
      ticksTo 100 ⟨0, 500000000⟩ (reading 100 ⟨0, 0⟩ 0) = 50 := by
  decide

end Deadlines

end RtThread.Pthreads.ClockTime
