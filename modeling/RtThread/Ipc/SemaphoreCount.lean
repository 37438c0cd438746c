import RtThread.Ipc.Semaphore

/-!
# A semaphore counts its units

Every unit that was put into a semaphore is still in its value or was granted to a take. The
history counts since the semaphore was initialised or reset. The counter has 16 bits, and a
release at its limit with no thread waiting starts it again at zero; the account is off by 65536
for each of these.
-/

namespace RtThread.Ipc.Semaphore

open Kernel
open Function (update update_apply)
open Transition

/-- The initial value, the releases, the takes granted, the threads resumed by a release
that have not returned, and the releases at the limit. -/
structure Ledger where
  initial : Nat
  releases : Nat
  granted : Nat
  handed : List Tid
  overflows : Nat
deriving DecidableEq, Repr

def Ledger.start (value : Nat) : Ledger :=
  { initial := value, releases := 0, granted := 0, handed := [], overflows := 0 }

/-- A release that finds the counter at its limit and no thread waiting. -/
def AtLimit (s : State) : Prop :=
  s.sem.value = 0xffff ∧ s.sem.suspendThread = []

instance (s : State) : Decidable (AtLimit s) :=
  inferInstanceAs (Decidable (_ ∧ _))

def recordCount (s : State) (op : Op) (_s' : State) (h : Ledger) : Ledger :=
  match op, outcomeOf s op with
  | Op.take _ _, some Outcome.taken => { h with granted := h.granted + 1 }
  | Op.takeReturn t, _ => { h with handed := h.handed.erase t }
  | Op.release, some (Outcome.resumed w) =>
    { h with
      releases := h.releases + 1
      granted := h.granted + 1
      handed := w :: h.handed }
  | Op.release, some Outcome.added =>
    { h with
      releases := h.releases + 1
      overflows := h.overflows + if AtLimit s then 1 else 0 }
  | Op.reset value, _ => { Ledger.start value with handed := h.handed }
  | _, _ => h

/-- The invariant of the waiting threads and the account. -/
structure Counted (s : State) (h : Ledger) : Prop where
  waiting : forall t, t ∈ s.sem.suspendThread <->
    (s.thread t).stat = ThreadStat.suspend ∧ s.pc t = Pc.taking
  nodup : s.sem.suspendThread.Nodup
  pending : forall t, (s.thread t).stat = ThreadStat.suspend ->
    (s.thread t).error = RtErr.eok
  handed : forall t, t ∈ h.handed <-> (s.thread t).stat = ThreadStat.ready ∧
    s.pc t = Pc.taking ∧ (s.thread t).error = RtErr.eok
  once : h.handed.Nodup
  small : s.sem.value < 65536
  quiet : 0 < s.sem.value -> s.sem.suspendThread = []
  account : h.initial + h.releases = s.sem.value + h.granted +
    65536 * (h.initial / 65536 + h.overflows)

variable {s s' : State} {h : Ledger} {op : Op} {t : Tid}

/-!
## One step
-/

theorem Counted.take {caller : Option Tid} {time : Int} (hc : Counted s h)
    (hs : step s (Op.take caller time) = some s') :
    Counted s' (recordCount s (Op.take caller time) s' h) := by
  rcases hc with ⟨hwait, hnodup, hpend, hhand, honce, hsmall, hquiet, hacc⟩
  unfold step stepOutcome at hs
  unfold recordCount outcomeOf stepOutcome
  simp only at hs ⊢
  split at hs
  · rename_i hcall
    rw [if_pos hcall]
    unfold rtSemTake at hs ⊢
    simp only at hs ⊢
    split at hs
    · rename_i hpos
      cases hs
      simp only [if_pos hpos, Option.map_some]
      constructor <;> grind -linarith
    · rename_i hzero
      split at hs
      · rename_i htime
        cases hs
        simp only [if_neg hzero, if_pos htime, Option.map_some]
        exact ⟨hwait, hnodup, hpend, hhand, honce, hsmall, hquiet, hacc⟩
      · rename_i htime
        rw [if_neg hzero, if_neg htime]
        cases caller with
        | none => cases hs
        | some t =>
          unfold mayCall at hcall
          rw [Bool.and_eq_true, decide_eq_true_eq, decide_eq_true_eq] at hcall
          simp only [Option.map_map, Option.map_eq_some_iff] at hs
          rcases hs with ⟨v, hv, heq⟩
          cases heq
          have hset : (setError s.thread t RtErr.eok t).stat = ThreadStat.ready :=
            setError_stat.trans hcall.left
          simp only [hv, Option.map_some]
          rcases suspendFor_eq hset hv with ⟨linked, hv⟩
          subst hv
          unfold setError
          constructor <;> grind -linarith [update_apply, mem_suspendInto, nodup_suspendInto]
  · cases hs

theorem Counted.release (hc : Counted s h) :
    Counted (rtSemRelease s).1 (recordCount s Op.release (rtSemRelease s).1 h) := by
  rcases hc with ⟨hwait, hnodup, hpend, hhand, honce, hsmall, hquiet, hacc⟩
  have hcases : s.sem.suspendThread = [] ∨ exists w rest, s.sem.suspendThread = w :: rest := by
    cases s.sem.suspendThread with
    | nil => exact Or.inl rfl
    | cons w rest => exact Or.inr ⟨w, rest, rfl⟩
  unfold recordCount outcomeOf stepOutcome AtLimit
  rcases hcases with hlist | ⟨w, rest, hlist⟩
  · have hrel : rtSemRelease s =
        ({ s with sem := { s.sem with value := (s.sem.value + 1) % 65536 } }, Outcome.added) := by
      unfold rtSemRelease
      simp only [hlist]
      rfl
    simp only [hrel, Option.map_some]
    constructor <;> grind -linarith
  · have hw := (hwait w).mp (by rw [hlist]; exact List.mem_cons_self)
    have hres := listResume_cons (l := rest) hw.left
    have hrel : rtSemRelease s = ({ s with
            thread := update s.thread w { s.thread w with
              stat := ThreadStat.ready, timerLinked := false }
            sem := { s.sem with suspendThread := rest } },
          Outcome.resumed w) := by
      unfold rtSemRelease
      simp only [hlist, hres]
    have herror := hpend w hw.left
    simp only [hrel, Option.map_some]
    constructor <;> grind -linarith [update_apply]

theorem Counted.takeReturn (hc : Counted s h) (hs : step s (Op.takeReturn t) = some s') :
    Counted s' (recordCount s (Op.takeReturn t) s' h) := by
  rcases hc with ⟨hwait, hnodup, hpend, hhand, honce, hsmall, hquiet, hacc⟩
  unfold step stepOutcome at hs
  simp only at hs
  split at hs
  · cases hs
    unfold recordCount Semaphore.takeReturn
    have herase : forall x, x ∈ h.handed.erase t <-> x ∈ h.handed ∧ x ≠ t := by
      intro x
      rw [honce.mem_erase_iff, and_comm]
    have honce' := honce.erase t
    constructor <;> grind -linarith [update_apply]
  · cases hs

theorem Counted.timeout (hc : Counted s h) (hs : step s (Op.timeout t) = some s') :
    Counted s' (recordCount s (Op.timeout t) s' h) := by
  rcases hc with ⟨hwait, hnodup, hpend, hhand, honce, hsmall, hquiet, hacc⟩
  unfold step stepOutcome at hs
  simp only at hs
  split at hs
  · rename_i htimer
    have hsuspend := htimer.right
    cases hs
    unfold recordCount Semaphore.timeout threadTimeout
    constructor <;> grind -linarith [update_apply]
  · cases hs

theorem Counted.reset {value : Nat} (hc : Counted s h) (hs : step s (Op.reset value) = some s') :
    Counted s' (recordCount s (Op.reset value) s' h) := by
  rcases hc with ⟨hwait, hnodup, hpend, hhand, honce, hsmall, hquiet, hacc⟩
  unfold step stepOutcome rtSemReset at hs
  simp only [Option.map_map, Option.map_eq_some_iff] at hs
  rcases hs with ⟨v, hv, heq⟩
  cases heq
  have hthread := listResumeAll_eq hnodup hv
  have hmod := Nat.mod_add_div value 65536
  have hlt := Nat.mod_lt value (show 0 < 65536 by decide)
  unfold recordCount Ledger.start
  constructor <;> grind -linarith

theorem Counted.step (hc : Counted s h) (hs : step s op = some s') :
    Counted s' (recordCount s op s' h) := by
  cases op with
  | take caller time => exact hc.take hs
  | takeReturn t => exact hc.takeReturn hs
  | release =>
    have heq : (rtSemRelease s).1 = s' := Option.some.inj hs
    rw [← heq]
    exact hc.release
  | timeout t => exact hc.timeout hs
  | reset value => exact hc.reset hs

/-!
## Every run
-/

section Runs

variable {value : Nat} {s0 : State} {ops : List Op}

theorem Booted.counted (hboot : Booted value s0) : Counted s0 (Ledger.start value) := by
  rcases hboot with ⟨⟨flag, hsem⟩, hthread, hpc⟩
  have hmod := Nat.mod_add_div value 65536
  have hlt := Nat.mod_lt value (show 0 < 65536 by decide)
  have hvalue : s0.sem.value = value % 65536 := by
    rw [hsem]
    rfl
  have hlist : s0.sem.suspendThread = [] := by
    rw [hsem]
    rfl
  unfold Ledger.start
  constructor <;> grind -linarith

theorem run_counted (hboot : Booted value s0)
    (hrun : Run (Graph (watched step recordCount)) (s0, Ledger.start value) ops
      (s, h)) : Counted s h := by
  apply hrun.watched_invariant Counted
  · exact hboot.counted
  · intro s h op s' hc hstep
    exact hc.step hstep

theorem run_take_returns (hboot : Booted value s0)
    (hrun : Run (Graph (watched step recordCount)) (s0, Ledger.start value) ops (s, h))
    (hready : (s.thread t).stat = ThreadStat.ready) (hpc : s.pc t = Pc.taking) :
    (takeReturn s t).2 = Outcome.returned <-> t ∈ h.handed := by
  have hc := run_counted hboot hrun
  unfold takeReturn
  rw [hc.handed t]
  by_cases herror : (s.thread t).error = RtErr.eok
  · simp [herror, hready, hpc]
  · simp [herror]

/-- Of two threads that wait one is handed a unit, and the other times out. -/
theorem run_take_returns_handed : exists s h, Run (Graph (watched step recordCount))
        (bootState 0 IpcFlag.prio, Ledger.start 0)
        [Op.take (some 0) (-1), Op.take (some 1) 5, Op.release, Op.timeout 1] (s, h) ∧
      h.handed = [0] ∧ (takeReturn s 0).2 = Outcome.returned ∧
      (takeReturn s 1).2 ≠ Outcome.returned := by
  have hexec : (exec (watched step recordCount) (bootState 0 IpcFlag.prio, Ledger.start 0)
      [Op.take (some 0) (-1), Op.take (some 1) 5, Op.release, Op.timeout 1]).map
      (fun x => ((x.1.thread 0).stat, (x.1.thread 1).stat, x.1.pc 0, x.1.pc 1, x.2.handed)) =
        some (ThreadStat.ready, ThreadStat.ready, Pc.taking, Pc.taking, [0]) := by
    decide +kernel
  rw [Option.map_eq_some_iff] at hexec
  rcases hexec with ⟨⟨s, h⟩, hexec, hvalues⟩
  simp only [Prod.mk.injEq] at hvalues
  rcases hvalues with ⟨hready, hready', hpc, hpc', hhanded⟩
  have hrun := run_of_exec hexec
  have hfirst := run_take_returns (bootState_booted 0 _) hrun hready hpc
  have hsecond := run_take_returns (bootState_booted 0 _) hrun hready' hpc'
  rw [hhanded] at hfirst hsecond
  exact ⟨s, h, hrun, hhanded, hfirst.mpr (by decide), fun heq =>
    absurd (hsecond.mp heq) (by decide)⟩

/-- What was put into the semaphore is in its value or was granted, and a
positive value leaves no thread waiting. -/
structure Conserved (s : State) (h : Ledger) : Prop where
  account : h.initial + h.releases = s.sem.value + h.granted
  quiet : 0 < s.sem.value -> forall t,
    ¬ ((s.thread t).stat = ThreadStat.suspend ∧ s.pc t = Pc.taking)

/-- In every run the account is exact as long as the initial value fits the counter and no
release finds it at its limit. -/
theorem semaphore_conservation (hboot : Booted value s0)
    (hrun : Run (Graph (watched step recordCount)) (s0, Ledger.start value) ops
      (s, h)) :
    Conserved s h <-> h.initial < 2 ^ 16 ∧ h.overflows = 0 := by
  have hc := run_counted hboot hrun
  have hacc := hc.account
  constructor
  · intro hcons
    have hexact := hcons.account
    omega
  · rintro ⟨hsmall, hover⟩
    constructor
    · omega
    · intro hpos t hwait
      have hmem := (hc.waiting t).mpr hwait
      rw [hc.quiet hpos] at hmem
      cases hmem

/-- A unit is handed to one of two waiting threads, and the other times out. -/
theorem semaphore_conservation_handed :
    exists s h, Run (Graph (watched step recordCount))
        (bootState 1 IpcFlag.prio, Ledger.start 1)
        [Op.take none 0, Op.take (some 0) (-1), Op.take (some 1) 5, Op.release,
          Op.timeout 1, Op.takeReturn 0, Op.release] (s, h) ∧
      h.releases = 2 ∧ h.granted = 2 ∧ s.sem.value = 1 ∧
      (Conserved s h <-> h.initial < 2 ^ 16 ∧ h.overflows = 0) := by
  have hexec : (exec (watched step recordCount)
      (bootState 1 IpcFlag.prio, Ledger.start 1)
      [Op.take none 0, Op.take (some 0) (-1), Op.take (some 1) 5, Op.release,
        Op.timeout 1, Op.takeReturn 0, Op.release]).map
      (fun x => (x.2.releases, x.2.granted, x.1.sem.value)) = some (2, 2, 1) := by
    decide +kernel
  rw [Option.map_eq_some_iff] at hexec
  rcases hexec with ⟨⟨s, h⟩, hexec, hvalues⟩
  simp only [Prod.mk.injEq] at hvalues
  have hrun := run_of_exec hexec
  exact ⟨s, h, hrun, hvalues.left, hvalues.right.left, hvalues.right.right,
    semaphore_conservation (bootState_booted 1 _) hrun⟩

/-- One release of a semaphore that was initialised to 65535. -/
theorem semaphore_loses_units :
    exists s h, Run (Graph (watched step recordCount))
        (bootState 65535 IpcFlag.fifo, Ledger.start 65535) [Op.release] (s, h) ∧
      h.initial = 65535 ∧ h.releases = 1 ∧ h.granted = 0 ∧ s.sem.value = 0 ∧
      ¬ Conserved s h := by
  refine ⟨_, _, Run.snoc Run.nil rfl, rfl, rfl, rfl, rfl, ?_⟩
  intro hcons
  have hacc := hcons.account
  revert hacc
  decide

end Runs

end RtThread.Ipc.Semaphore
