import Mathlib.Algebra.GroupWithZero.Nat
import RtThread.Library.Chain
import RtThread.Library.Transition

/-!
# Clean-up handlers

`pthread_cleanup_push`, `pthread_cleanup_pop` and the loop of `pthread_exit` over the records
of a thread.  A handler is a routine with its argument.  Allocations succeed; a call that
reads a record that is not allocated has no result.
-/

namespace RtThread.Pthreads.Cleanup

open Transition
open Function (update_of_ne update_self)

variable {Handler : Type}

/-- `ptd->cleanup`, the allocated records with their links, the address that `rt_malloc`
gives next, and the calls of handlers. -/
structure State (Handler : Type) where
  cleanup : Option Nat
  handler : Nat -> Option Handler
  next : Nat -> Option Nat
  fresh : Nat
  calls : List Handler

def start : State Handler :=
  { cleanup := none, handler := fun _ => none, next := fun _ => none, fresh := 0, calls := [] }

inductive Op (Handler : Type) where
  | push (h : Handler)
  | pop (execute : Int)

def pthreadCleanupPush (s : State Handler) (h : Handler) : State Handler :=
  { s with
    cleanup := some s.fresh
    handler := Function.update s.handler s.fresh (some h)
    next := Function.update s.next s.fresh s.cleanup
    fresh := s.fresh + 1 }

/-- The first record is taken off the list, its handler is called, and it is freed. -/
def callFirst (s : State Handler) (cleanup : Nat) : Option (State Handler) :=
  (s.handler cleanup).map fun h =>
    { s with
      cleanup := s.next cleanup
      calls := s.calls ++ [h]
      handler := Function.update s.handler cleanup none }

def pthreadCleanupPop (s : State Handler) (execute : Int) : Option (State Handler) :=
  if execute ≠ 0 then
    match s.cleanup with
    | none => some s
    | some cleanup => callFirst s cleanup
  else some s

/-- The loop of `pthread_exit`. -/
def exitLoop : Nat -> State Handler -> Option (State Handler)
  | 0, _ => none
  | fuel + 1, s =>
    match s.cleanup with
    | none => some s
    | some cleanup => (callFirst s cleanup).bind (exitLoop fuel)

def step (s : State Handler) : Op Handler -> Option (State Handler)
  | Op.push h => some (pthreadCleanupPush s h)
  | Op.pop execute => pthreadCleanupPop s execute

/-- A stack of handlers and the calls so far; a pop without a push is not nested. -/
def stackStep (x : List Handler × List Handler) :
    Op Handler -> Option (List Handler × List Handler)
  | Op.push h => some (h :: x.1, x.2)
  | Op.pop execute =>
    match x.1 with
    | [] => none
    | h :: rest => some (rest, if execute ≠ 0 then x.2 ++ [h] else x.2)

def Op.left : Op Handler -> Nat
  | Op.push _ => 0
  | Op.pop execute => if execute = 0 then 1 else 0

/-- The calls are those of the stack, at the end those of all that are left on it, and no
record is left. -/
def Obeys (s s' : State Handler) (x : List Handler × List Handler) : Prop :=
  s.calls = x.2 ∧ s'.calls = x.2 ++ x.1 ∧ forall a, s'.handler a = none

/-!
## Records
-/

/-- The records of a thread with their handlers, the last one first. -/
structure Holds (s : State Handler) (l : List (Nat × Handler)) : Prop where
  linked : Chain.Linked s.next s.cleanup (l.map Prod.fst)
  nodup : (l.map Prod.fst).Nodup
  handler : forall r, r ∈ l -> s.handler r.1 = some r.2
  allocated : forall a, s.handler a ≠ none -> a ∈ l.map Prod.fst
  fresh : forall a, a ∈ l.map Prod.fst -> a < s.fresh

variable {s : State Handler} {l rest : List (Nat × Handler)} {h : Handler} {a : Nat}

theorem holds_start : Holds (start : State Handler) [] :=
  ⟨rfl, List.nodup_nil, nofun, fun _ hne => absurd rfl hne, nofun⟩

theorem Holds.push (hs : Holds s l) (h : Handler) :
    Holds (pthreadCleanupPush s h) ((s.fresh, h) :: l) := by
  have hnew : s.fresh ∉ l.map Prod.fst := fun hin => Nat.lt_irrefl _ (hs.fresh _ hin)
  refine ⟨hs.linked.push hnew, List.nodup_cons.mpr ⟨hnew, hs.nodup⟩, ?_, ?_, ?_⟩
  · intro r hr
    rcases List.mem_cons.mp hr with rfl | hr
    · exact update_self _ _ _
    · have hne : r.1 ≠ s.fresh := fun heq => hnew (List.mem_map.mpr ⟨r, hr, heq⟩)
      exact (update_of_ne hne _ _).trans (hs.handler r hr)
  · intro a ha
    by_cases heq : a = s.fresh
    · exact heq ▸ List.mem_cons_self
    · have hold : s.handler a ≠ none := update_of_ne heq _ s.handler ▸ ha
      exact List.mem_cons_of_mem _ (hs.allocated a hold)
  · intro a ha
    rcases List.mem_cons.mp ha with rfl | ha
    · exact Nat.lt_succ_self _
    · exact Nat.lt_succ_of_lt (hs.fresh a ha)

theorem Holds.callFirst (hs : Holds s ((a, h) :: rest)) :
    exists s', callFirst s a = some s' ∧ s'.calls = s.calls ++ [h] ∧ Holds s' rest := by
  have hread : s.handler a = some h := hs.handler _ List.mem_cons_self
  rcases List.nodup_cons.mp hs.nodup with ⟨hout, hnodup⟩
  refine ⟨_, by rw [Cleanup.callFirst, hread, Option.map_some], rfl, ?_⟩
  refine ⟨hs.linked.right, hnodup, ?_, ?_, ?_⟩
  · intro r hr
    have hne : r.1 ≠ a := fun heq => hout (List.mem_map.mpr ⟨r, hr, heq⟩)
    exact (update_of_ne hne _ _).trans (hs.handler r (List.mem_cons_of_mem _ hr))
  · intro b hb
    have hne : b ≠ a := by
      rintro rfl
      exact hb (update_self _ _ _)
    have hold : s.handler b ≠ none := update_of_ne hne _ s.handler ▸ hb
    exact (List.mem_cons.mp (hs.allocated b hold)).resolve_left hne
  · exact fun b hb => hs.fresh b (List.mem_cons_of_mem _ hb)

theorem Holds.exitLoop (hs : Holds s l) :
    exists s', (forall fuel, l.length < fuel -> exitLoop fuel s = some s') ∧
      s'.calls = s.calls ++ l.map Prod.snd ∧ forall a, s'.handler a = none := by
  induction l generalizing s with
  | nil =>
    have hnone : s.cleanup = none := hs.linked
    refine ⟨s, ?_, (List.append_nil _).symm, ?_⟩
    · intro fuel hfuel
      rcases Nat.exists_eq_add_of_lt hfuel with ⟨n, rfl⟩
      rw [Cleanup.exitLoop, hnone]
    · exact fun a => not_not.mp fun hne => nomatch hs.allocated a hne
  | cons r rest ih =>
    rcases r with ⟨a, h⟩
    rcases hs.callFirst with ⟨s1, hcall, hcalls, hrest⟩
    rcases ih hrest with ⟨s', hexit, hcalls', hfreed⟩
    have hfirst : s.cleanup = some a := hs.linked.left
    refine ⟨s', ?_, ?_, hfreed⟩
    · intro fuel hfuel
      cases fuel with
      | zero => exact absurd hfuel (Nat.not_lt_zero _)
      | succ fuel =>
        rw [Cleanup.exitLoop, hfirst]
        show (Cleanup.callFirst s a).bind _ = _
        rw [hcall]
        exact hexit fuel (Nat.lt_of_succ_lt_succ hfuel)
    · rw [hcalls', hcalls, List.append_assoc]
      rfl

/-!
## Sequences
-/

variable {x x' : List Handler × List Handler} {op : Op Handler} {ops : List (Op Handler)}

/-- Beside the stack there is a record for each of the `n` handlers that a pop has left;
without them the two agree. -/
structure Kept (s : State Handler) (l : List (Nat × Handler))
    (x : List Handler × List Handler) (n : Nat) : Prop where
  holds : Holds s l
  deep : x.1.length ≤ l.length
  count : s.calls.length + l.length = x.2.length + x.1.length + n
  agree : n = 0 -> l.map Prod.snd = x.1 ∧ s.calls = x.2

theorem kept_step {n : Nat} (hk : Kept s l x n) (hstep : stackStep x op = some x') :
    exists s' l', step s op = some s' ∧ Kept s' l' x' (n + op.left) := by
  rcases x with ⟨stack, calls⟩
  cases op with
  | push h =>
    cases hstep
    refine ⟨_, _, rfl, hk.holds.push h, Nat.succ_le_succ hk.deep, ?_, ?_⟩
    · have hcount := hk.count
      simp only [Op.left, List.length_cons, pthreadCleanupPush] at hcount ⊢
      omega
    · intro hn
      rcases hk.agree hn with ⟨hstack, hcalls⟩
      exact ⟨congrArg (h :: ·) hstack, hcalls⟩
  | pop execute =>
    cases stack with
    | nil => cases hstep
    | cons h stack =>
      have hdeep : stack.length + 1 ≤ l.length := hk.deep
      have hcount : s.calls.length + l.length = calls.length + (stack.length + 1) + n :=
        hk.count
      by_cases hexec : execute = 0
      · -- the record stays on the list
        rcases Option.some.inj hstep with rfl
        rw [if_neg (not_not.mpr hexec), Op.left, if_pos hexec]
        refine ⟨s, l, if_neg (not_not.mpr hexec), hk.holds, Nat.le_of_succ_le hdeep, ?_, ?_⟩
        · show s.calls.length + l.length = calls.length + stack.length + (n + 1)
          omega
        · exact fun hn => absurd hn (Nat.succ_ne_zero _)
      · rcases Option.some.inj hstep with rfl
        rw [if_pos hexec, Op.left, if_neg hexec]
        cases l with
        | nil => exact absurd hdeep (Nat.not_succ_le_zero _)
        | cons r l =>
          rcases r with ⟨a, h'⟩
          rcases hk.holds.callFirst with ⟨s', hcall, hcalls', hrest⟩
          have hfirst : s.cleanup = some a := hk.holds.linked.left
          refine ⟨s', l, ?_, hrest, Nat.le_of_succ_le_succ hdeep, ?_, ?_⟩
          · show pthreadCleanupPop s execute = some s'
            rw [pthreadCleanupPop, if_pos hexec, hfirst]
            exact hcall
          · simp only [hcalls', List.length_append, List.length_cons,
              List.length_nil] at hcount ⊢
            omega
          · intro hn
            rcases hk.agree hn with ⟨hstack, hcalls⟩
            rcases List.cons.inj hstack with ⟨rfl, htail⟩
            exact ⟨htail, hcalls'.trans (congrArg (· ++ [_]) hcalls)⟩

theorem kept_run {n : Nat} (hk : Kept s l x n) (hrun : exec stackStep x ops = some x') :
    exists s' l', exec step s ops = some s' ∧ Kept s' l' x' (n + (ops.map Op.left).sum) := by
  induction ops generalizing s l x n with
  | nil => exact ⟨s, l, rfl, Option.some.inj hrun ▸ hk⟩
  | cons op ops ih =>
    rw [exec] at hrun
    split at hrun
    · cases hrun
    · next hop =>
        rcases kept_step hk hop with ⟨s1, l1, hstep, hk1⟩
        rcases ih hk1 hrun with ⟨s', l', hexec, hk'⟩
        refine ⟨s', l', ?_, ?_⟩
        · rw [exec, hstep]
          exact hexec
        · rwa [List.map_cons, List.sum_cons, <- Nat.add_assoc]

theorem sum_left_eq_zero :
    (ops.map Op.left).sum = 0 <-> forall execute, Op.pop execute ∈ ops -> execute ≠ 0 := by
  rw [List.sum_eq_zero_iff_forall_eq_nat, List.forall_mem_map]
  constructor
  · intro hleft execute hin heq
    exact absurd (hleft _ hin) (by rw [Op.left, if_pos heq]; exact Nat.one_ne_zero)
  · intro hne op hin
    cases op with
    | push h => rfl
    | pop execute => exact if_neg (hne execute hin)

/-- A nested sequence runs, `pthread_exit` after it ends, and the calls are those of a stack
exactly when no pop has `execute` zero, which leaves its record on the list. -/
theorem cleanup_stack_iff (hnested : exec stackStep ([], []) ops = some x) :
    exists s s' : State Handler, exec step start ops = some s ∧
      (exists n, forall fuel, n ≤ fuel -> exitLoop fuel s = some s') ∧
      (Obeys s s' x <-> forall execute, Op.pop execute ∈ ops -> execute ≠ 0) := by
  have hstart : Kept (start : State Handler) [] ([], []) 0 :=
    ⟨holds_start, Nat.le_refl _, rfl, fun _ => ⟨rfl, rfl⟩⟩
  rcases kept_run hstart hnested with ⟨s, l, hexec, hk⟩
  rcases hk.holds.exitLoop with ⟨s', hexit, hcalls, hfreed⟩
  refine ⟨s, s', hexec, ⟨l.length + 1, hexit⟩, ?_⟩
  rw [<- sum_left_eq_zero]
  constructor
  · rintro ⟨hx, hx', -⟩
    have hsame : l.map Prod.snd = x.1 :=
      List.append_cancel_left (hcalls.symm.trans (hx' ▸ congrArg (· ++ x.1) hx.symm))
    have hlen : l.length = x.1.length := by rw [<- hsame, List.length_map]
    have hcount := hk.count
    rw [hx, hlen] at hcount
    omega
  · intro hnone
    rcases hk.agree ((Nat.zero_add _).trans hnone) with ⟨hstack, hsame⟩
    exact ⟨hsame, by rw [hcalls, hsame, hstack], hfreed⟩

theorem cleanup_stack_iff_nested :
    exists s s' : State Nat, exec step start [Op.push 3, Op.push 5, Op.pop 1] = some s ∧
      (exists n, forall fuel, n ≤ fuel -> exitLoop fuel s = some s') ∧
      (Obeys s s' ([3], [5]) <->
        forall execute, Op.pop execute ∈ [Op.push 3, Op.push 5, Op.pop 1] -> execute ≠ 0) :=
  cleanup_stack_iff rfl

/-- A handler that was popped with `execute` zero is called at the exit. -/
theorem popped_handler_called :
    exec stackStep ([], []) [Op.push 3, Op.pop 0] = some ([], ([] : List Nat)) ∧
      exists s s' : State Nat, exec step start [Op.push 3, Op.pop 0] = some s ∧
        exitLoop 2 s = some s' ∧ s'.calls = [3] ∧ ¬ Obeys s s' ([], []) :=
  ⟨rfl, _, _, rfl, rfl, rfl, fun hobeys => nomatch hobeys.2.1⟩

end RtThread.Pthreads.Cleanup
