import RtThread.Ipc.Mutex

/-!
# Mutex ownership

Every thread keeps a ledger of its takes and releases since it became the owner
of a mutex.  The field `hold` of the mutex is the difference of the two, as long
as it does not wrap around: it has eight bits, and nothing stops the owner from
taking the mutex once more when it is 255.
-/

namespace RtThread.Ipc.Mutex

open Kernel
open Function (update_apply)
open Transition

/-!
## The ledger
-/

structure Count where
  takes : Nat
  releases : Nat
deriving DecidableEq, Repr

abbrev Ledger := Tid -> Mid -> Count

def emptyLedger : Ledger := fun _ _ => { takes := 0, releases := 0 }

/-- One step in the ledger.  Becoming the owner is the first successful take; the
owner's further takes and its releases are counted. -/
def record (s : State) (op : Op) (s' : State) (log : Ledger) : Ledger :=
  fun t m =>
    if (s'.mutex m).owner = some t ∧ (s.mutex m).owner ≠ some t then
      { takes := 1, releases := 0 }
    else if (s.mutex m).owner = some t then
      match op with
      | Op.take t' m' _ =>
        if t' = t ∧ m' = m then
          { log t m with takes := (log t m).takes + 1 }
        else log t m
      | Op.release t' m' =>
        if t' = t ∧ m' = m then
          { log t m with releases := (log t m).releases + 1 }
        else log t m
      | _ => log t m
    else log t m

def Inside (log : Ledger) (t : Tid) (m : Mid) : Prop :=
  (log t m).releases < (log t m).takes

/-- The owner does not take a mutex again that it holds 255 times. -/
def HoldFits (s : State) : Op -> Prop
  | Op.take t m _ => (s.mutex m).owner = some t -> (s.mutex m).hold < 255
  | _ => True

instance (s : State) (op : Op) : Decidable (HoldFits s op) :=
  match op with
  | Op.take t m _ => inferInstanceAs (Decidable
      ((s.mutex m).owner = some t -> (s.mutex m).hold < 255))
  | Op.takeReturn _ => isTrue trivial
  | Op.release _ _ => isTrue trivial
  | Op.timeout _ => isTrue trivial

structure Balanced (s : State) (log : Ledger) : Prop where
  held : forall m t, (s.mutex m).owner = some t ->
    0 < (s.mutex m).hold ∧ (s.mutex m).hold < 256 ∧
      (log t m).takes = (log t m).releases + (s.mutex m).hold
  other : forall m t, (s.mutex m).owner ≠ some t ->
    (log t m).takes = (log t m).releases

variable {s s' : State} {op : Op} {t : Tid} {m : Mid} {log : Ledger}

theorem holdInc_of_lt {n : Nat} (hn : n < 255) : holdInc n = n + 1 := by
  unfold holdInc
  omega

theorem holdDec_of_pos {n : Nat} (hpos : 0 < n) (hlt : n < 256) : holdDec n = n - 1 := by
  unfold holdDec
  omega

theorem Balanced.effect (hb : Balanced s log) (hfits : HoldFits s op)
    (he : Effect s op s') : Balanced s' (record s op s' log) := by
  rcases hb with ⟨hheld, hother⟩
  cases he with
  | nested hidle howner =>
    have hlt := hfits howner
    have hinc := holdInc_of_lt hlt
    constructor <;> unfold record <;> grind -linarith [update_apply]
  | acquire hidle hready howner =>
    constructor <;> unfold record <;> grind -linarith [update_apply]
  | refuse hidle howner =>
    constructor <;> unfold record <;> grind -linarith [update_apply]
  | block hidle hready howner hne htime hlinked =>
    constructor <;> unfold record <;> grind -linarith [update_apply]
  | takeReturn hready =>
    constructor <;> unfold record <;> grind -linarith [update_apply]
  | deny hidle howner =>
    constructor <;> unfold record <;> grind -linarith [update_apply]
  | unnest hidle howner hhold =>
    rcases hheld _ _ howner with ⟨hpos, hlt, _⟩
    have hdec := holdDec_of_pos hpos hlt
    constructor <;> unfold record <;> grind -linarith [update_apply]
  | free hidle hready howner hhold hlist =>
    rcases hheld _ _ howner with ⟨hpos, hlt, _⟩
    have hdec := holdDec_of_pos hpos hlt
    constructor <;> unfold record <;> grind -linarith [update_apply]
  | handOver hidle hready howner hhold hlist hne =>
    rcases hheld _ _ howner with ⟨hpos, hlt, _⟩
    have hdec := holdDec_of_pos hpos hlt
    constructor <;> unfold record <;> grind -linarith [update_apply]
  | timeout hstat =>
    constructor <;> unfold record timeout <;> grind -linarith [update_apply]

/-!
## Ownership
-/

/-- The ownership contract in one state, next steps included. -/
structure OwnershipHolds (s : State) (log : Ledger) : Prop where
  value : forall m, (s.mutex m).value = 0 ∨ (s.mutex m).value = 1
  free : forall m, (s.mutex m).value = 1 <-> (s.mutex m).owner = none
  hold : forall m, (s.mutex m).owner = none <-> (s.mutex m).hold = 0
  ends : forall m t op s', step s op = some s' ->
    (s.mutex m).owner = some t -> (s'.mutex m).owner ≠ some t ->
    op = Op.release t m ∧
      (record s op s' log t m).releases = (record s op s' log t m).takes
  exclusive : forall m t u, Inside log t m -> Inside log u m -> t = u

theorem ownership_ends (hc : Consistent s) (hb : Balanced s log)
    (hs : step s op = some s') (howner : (s.mutex m).owner = some t)
    (hlost : (s'.mutex m).owner ≠ some t) :
    op = Op.release t m ∧ (record s op s' log t m).releases = (record s op s' log t m).takes := by
  rcases hb.held m t howner with ⟨hpos, hlt, hdiff⟩
  have hdec := holdDec_of_pos hpos hlt
  have he := step_effect hc hs
  unfold record
  cases he <;> grind -linarith [update_apply, timeout]

theorem Balanced.ownership (hc : Consistent s) (hb : Balanced s log) : OwnershipHolds s log := by
  constructor
  · intro m
    cases howner : (s.mutex m).owner with
    | none => exact Or.inr (hc.owned m howner).left
    | some t => exact Or.inl (hc.taken m t howner).left
  · intro m
    cases howner : (s.mutex m).owner with
    | none => simp [(hc.owned m howner).left]
    | some t => simp [(hc.taken m t howner).left]
  · intro m
    cases howner : (s.mutex m).owner with
    | none => simp [(hc.owned m howner).right.left]
    | some t =>
      have hpos := (hb.held m t howner).left
      simp [Nat.ne_of_gt hpos]
  · intro m t op s' hs howner hlost
    exact ownership_ends hc hb hs howner hlost
  · intro m t u ht hu
    have howns : forall x, Inside log x m -> (s.mutex m).owner = some x := by
      intro x hx
      by_contra hne
      have heq := hb.other m x hne
      unfold Inside at hx
      omega
    have htu := howns t ht
    rw [howns u hu] at htu
    exact (Option.some.inj htu).symm

theorem overflow_breaks (hc : Consistent s) (hb : Balanced s log)
    (hs : step s op = some s') (hover : ¬ HoldFits s op) :
    ¬ OwnershipHolds s' (record s op s' log) := by
  intro hown
  cases op with
  | take t m time =>
    unfold HoldFits at hover
    rw [Classical.not_imp] at hover
    rcases hover with ⟨howner, hfull⟩
    have hlt := (hb.held m t howner).right.left
    have hwrap : holdInc (s.mutex m).hold = 0 := by
      unfold holdInc
      omega
    have hnone := hown.hold m
    cases step_effect hc hs with
    | nested hidle _ => simp [howner, hwrap] at hnone
    | acquire _ _ hfree => simp [howner] at hfree
    | refuse hidle hother => exact hother howner
    | block hidle hready hother hne htime hlinked =>
      rw [howner] at hother
      exact hne (Option.some.inj hother).symm
  | takeReturn t => exact hover trivial
  | release t m => exact hover trivial
  | timeout t => exact hover trivial

/-- In every run in which the counter of nested takes does not overflow; the step at which
it does is the first that breaks the contract. -/
theorem mutex_ownership {s0 s : State} {log : Ledger} {ops : List Op}
    (hboot : Booted s0)
    (hrun : Run (Guarded (fun w op => HoldFits w.1 op)
      (Graph (watched step record))) (s0, emptyLedger) ops (s, log)) :
    OwnershipHolds s log ∧
      forall op s', step s op = some s' ->
        (OwnershipHolds s' (record s op s' log) <-> HoldFits s op) := by
  have hinv : Consistent s ∧ Balanced s log := by
    apply hrun.guarded_watched_invariant (fun s log => Consistent s ∧ Balanced s log)
    · refine ⟨hboot.consistent, ?_, ?_⟩
      · intro m t howner
        rcases hboot.mutex m with ⟨flag, hm⟩
        rw [hm] at howner
        cases howner
      · intro m t _
        rfl
    · rintro s log op s' ⟨hc, hb⟩ hfits hstep
      exact ⟨hc.step hstep, hb.effect hfits (step_effect hc hstep)⟩
  rcases hinv with ⟨hc, hb⟩
  refine ⟨hb.ownership hc, ?_⟩
  intro op s' hs
  constructor
  · intro hown
    by_contra hover
    exact overflow_breaks hc hb hs hover hown
  · intro hfits
    exact (hb.effect hfits (step_effect hc hs)).ownership (hc.step hs)

/-- A nested take, a waiter that times out, one that is handed the mutex. -/
theorem mutex_ownership_hand_over :
    exists s log,
      Run (Guarded (fun w op => HoldFits w.1 op) (Graph (watched step record)))
        (bootState (fun _ => 10) IpcFlag.prio, emptyLedger)
        [Op.take 0 0 0, Op.take 0 0 0, Op.take 1 0 5, Op.take 2 0 (-1),
          Op.timeout 1, Op.takeReturn 1, Op.release 0 0, Op.release 0 0]
        (s, log) ∧
      (s.mutex 0).owner = some 2 ∧ OwnershipHolds s log := by
  have hexec : (exec (fun w op => if HoldFits w.1 op then
        watched step record w op else none)
      (bootState (fun _ => 10) IpcFlag.prio, emptyLedger)
      [Op.take 0 0 0, Op.take 0 0 0, Op.take 1 0 5, Op.take 2 0 (-1),
        Op.timeout 1, Op.takeReturn 1, Op.release 0 0, Op.release 0 0]).map
      (fun w => (w.1.mutex 0).owner) = some (some 2) := by
    decide +kernel
  rw [Option.map_eq_some_iff] at hexec
  rcases hexec with ⟨⟨s, log⟩, hexec, howner⟩
  have hrun := guarded_run_of_exec hexec
  exact ⟨s, log, hrun, howner,
    (mutex_ownership (bootState_booted _ _) hrun).left⟩

def overflowOps : List Op :=
  List.replicate 257 (Op.take 0 0 0) ++ [Op.release 0 0, Op.take 1 0 0]

theorem mutex_hold_overflow :
    exists s log,
      Run (Graph (watched step record))
        (bootState (fun _ => 10) IpcFlag.prio, emptyLedger) overflowOps (s, log) ∧
      Inside log 0 0 ∧ Inside log 1 0 ∧ ¬ OwnershipHolds s log := by
  have hexec : (exec (watched step record)
      (bootState (fun _ => 10) IpcFlag.prio, emptyLedger) overflowOps).map
      (fun w => (w.2 0 0, w.2 1 0)) = some (⟨257, 1⟩, ⟨1, 0⟩) := by
    decide +kernel
  rw [Option.map_eq_some_iff] at hexec
  rcases hexec with ⟨⟨s, log⟩, hexec, hlog⟩
  have hzero : log 0 0 = ⟨257, 1⟩ := congrArg Prod.fst hlog
  have hone : log 1 0 = ⟨1, 0⟩ := congrArg Prod.snd hlog
  have hin0 : Inside log 0 0 := by
    unfold Inside
    rw [hzero]
    decide
  have hin1 : Inside log 1 0 := by
    unfold Inside
    rw [hone]
    decide
  refine ⟨s, log, run_of_exec hexec, hin0, hin1, ?_⟩
  intro hown
  cases hown.exclusive 0 0 1 hin0 hin1

end RtThread.Ipc.Mutex
