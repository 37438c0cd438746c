import RtThread.Mem.MemPool

/-!
# The waiters of a memory pool

A pool counts the threads in its suspend list in a variable of its own.  Waiting
adds to both and a release of a block takes from both; but when the timer of a
waiting thread runs out, `rt_thread_timeout` takes the thread from the list and
does not know the counter.
-/

namespace RtThread.Mem

open Kernel Ipc Transition
open Function (update_of_ne update_self)

namespace MemPool

/-- The counter is right, and the threads of the list are suspended. -/
structure Counted (s : State) : Prop where
  count : s.mp.suspendThreadCount = s.mp.suspendThread.length
  suspended : forall t, t ∈ s.mp.suspendThread ->
    (s.thread t).stat = ThreadStat.suspend
  nodup : s.mp.suspendThread.Nodup

/-- The step is not the timeout of a thread that waits for the pool. -/
def NoWaiterTimeout (s : State) : Op -> Prop
  | Op.timeout t => t ∉ s.mp.suspendThread
  | _ => True

instance (s : State) (op : Op) : Decidable (NoWaiterTimeout s op) :=
  match op with
  | Op.timeout t => inferInstanceAs (Decidable (t ∉ s.mp.suspendThread))
  | Op.alloc _ _ => isTrue trivial
  | Op.allocReturn _ _ => isTrue trivial
  | Op.free _ => isTrue trivial
  | Op.write _ _ => isTrue trivial

section Counted

variable {c : Config} {s s' : State} {o : Outcome} {op : Op} {t : Tid}
  {caller : Option Tid} {time : Int} {v : Threads} {b : Nat}

theorem Booted.counted (hboot : Booted c s) : Counted s := by
  rcases hboot.pool with ⟨m, self, objectSize, start, size, blockSize, hpool, _⟩
  have hmp : s.mp = (rtMpInit c m self objectSize start size blockSize).1 :=
    congrArg Prod.fst hpool
  constructor
  · rw [hmp]
    rfl
  · rw [hmp]
    nofun
  · rw [hmp]
    exact List.nodup_nil

theorem Counted.congr (hc : Counted s) (hlist : s'.mp.suspendThread = s.mp.suspendThread)
    (hcount : s'.mp.suspendThreadCount = s.mp.suspendThreadCount)
    (hstat : forall t, t ∈ s.mp.suspendThread ->
      (s'.thread t).stat = (s.thread t).stat) : Counted s' := by
  refine ⟨by rw [hlist, hcount]; exact hc.count, ?_, by rw [hlist]; exact hc.nodup⟩
  intro t ht
  rw [hlist] at ht
  exact (hstat t ht).trans (hc.suspended t ht)

theorem Counted.suspend (hc : Counted s) (hready : (s.thread t).stat = ThreadStat.ready)
    (hs : suspendFor (setError s.thread t RtErr.eok) t time = some v)
    (hthread : s'.thread = v) (hlist : s'.mp.suspendThread = t :: s.mp.suspendThread)
    (hcount : s'.mp.suspendThreadCount = s.mp.suspendThreadCount + 1) :
    Counted s' := by
  have hnot : t ∉ s.mp.suspendThread := by
    intro ht
    have hsus := hc.suspended t ht
    rw [hready] at hsus
    cases hsus
  have hready' : (setError s.thread t RtErr.eok t).stat = ThreadStat.ready :=
    setError_stat.trans hready
  rcases suspendFor_eq hready' hs with ⟨linked, hv⟩
  refine ⟨by rw [hlist, hcount, hc.count]; rfl, ?_, ?_⟩
  · intro x hx
    rw [hthread, hv]
    rw [hlist, List.mem_cons] at hx
    by_cases hxt : x = t
    · rw [hxt, update_self]
    · rw [update_of_ne hxt]
      unfold setError
      rw [update_of_ne hxt]
      exact hc.suspended x (hx.resolve_left hxt)
  · rw [hlist]
    exact List.nodup_cons.mpr ⟨hnot, hc.nodup⟩

theorem Counted.allocLoop (hc : Counted s)
    (hready : forall t, caller = some t -> (s.thread t).stat = ThreadStat.ready)
    (hs : allocLoop s caller time = some (s', o)) : Counted s' := by
  unfold MemPool.allocLoop at hs
  simp only at hs
  split at hs
  · split at hs
    · cases hs
      exact hc.congr rfl rfl (fun _ _ => rfl)
    · cases caller with
      | none => cases hs
      | some t =>
        simp only [Option.map_eq_some_iff] at hs
        rcases hs with ⟨v, hv, heq⟩
        cases heq
        exact hc.suspend (hready t rfl) hv rfl rfl rfl
  · split at hs
    · cases hs
    · cases hs
      exact hc.congr rfl rfl (fun _ _ => rfl)

theorem Counted.rtMpFree (hc : Counted s) (hs : rtMpFree s b = some s') : Counted s' := by
  unfold MemPool.rtMpFree at hs
  split at hs
  · cases hs
  · simp only at hs
    split at hs
    · rename_i hpos
      rw [hc.count] at hpos
      cases hlist : s.mp.suspendThread with
      | nil =>
        rw [hlist] at hpos
        cases hpos
      | cons t rest =>
        have hstat : (setError s.thread t RtErr.eok t).stat = ThreadStat.suspend :=
          setError_stat.trans (hc.suspended t (by simp [hlist]))
        simp only [resumeFirst, hlist, listResume_cons hstat, Option.map_some] at hs
        cases hs
        have hnodup := hc.nodup
        rw [hlist, List.nodup_cons] at hnodup
        refine ⟨?_, ?_, hnodup.right⟩
        · show s.mp.suspendThreadCount - 1 = rest.length
          rw [hc.count, hlist]
          rfl
        · intro x hx
          have hxt : x ≠ t := by
            rintro rfl
            exact hnodup.left hx
          have herror : setError s.thread t RtErr.eok x = s.thread x :=
            update_of_ne hxt _ _
          have hsus := hc.suspended x (by simp [hlist, show x ∈ rest from hx])
          rw [← herror] at hsus
          exact (congrArg WaitThread.stat (update_of_ne hxt _ _)).trans hsus
    · cases hs
      exact hc.congr rfl rfl (fun _ _ => rfl)

theorem Counted.step (hc : Counted s) (hok : NoWaiterTimeout s op)
    (hs : step s op = some s') : Counted s' := by
  unfold MemPool.step at hs
  rw [Option.map_eq_some_iff] at hs
  rcases hs with ⟨⟨s1, o⟩, hs, heq⟩
  cases heq
  cases op with
  | alloc caller time =>
    simp only [stepOutcome] at hs
    split at hs
    · rename_i hmay
      apply hc.allocLoop ?_ hs
      intro t ht
      subst ht
      simp only [mayCall, Bool.and_eq_true, decide_eq_true_eq] at hmay
      exact hmay.left
    · cases hs
  | allocReturn t delta =>
    simp only [stepOutcome] at hs
    split at hs
    · cases hs
    · split at hs
      · rename_i time _ hready
        unfold MemPool.allocReturn at hs
        simp only at hs
        split at hs
        · cases hs
          exact hc.congr rfl rfl (fun _ _ => rfl)
        · apply hc.allocLoop ?_ hs
          rintro x ⟨⟩
          exact hready
      · cases hs
  | free b =>
    simp only [stepOutcome] at hs
    split at hs
    · rw [Option.map_eq_some_iff] at hs
      rcases hs with ⟨s2, hfree, heq⟩
      cases heq
      exact hc.rtMpFree hfree
    · cases hs
  | timeout t =>
    simp only [stepOutcome] at hs
    split at hs
    · cases hs
      have hnot : t ∉ s.mp.suspendThread := hok
      refine hc.congr (List.erase_of_not_mem hnot) rfl ?_
      intro x hx
      have hxt : x ≠ t := by
        rintro rfl
        exact hnot hx
      exact congrArg WaitThread.stat (update_of_ne hxt _ _)
    · cases hs
  | write addr byte =>
    simp only [stepOutcome] at hs
    split at hs
    · cases hs
      exact hc.congr rfl rfl (fun _ _ => rfl)
    · cases hs

/-- As long as no waiting thread times out, the counter is the length of the suspend list,
and a release that resumes a thread finds one. -/
theorem waiter_count_exact {s0 : State} {ops : List Op} (hboot : Booted c s0)
    (hrun : Run (Guarded NoWaiterTimeout (Graph step)) s0 ops s) :
    s.mp.suspendThreadCount = s.mp.suspendThread.length ∧
      (0 < s.mp.suspendThreadCount -> s.mp.suspendThread ≠ []) := by
  have hc : Counted s := by
    apply hrun.invariant Counted hboot.counted
    intro s a s' hc hs
    exact hc.step hs.left hs.right
  refine ⟨hc.count, ?_⟩
  intro hpos hnil
  rw [hc.count, hnil] at hpos
  cases hpos

def alignFour : Config := ⟨4, four_power⟩

def twoBlocks : State := bootState alignFour 1000 20 1056 32 12

theorem twoBlocks_booted : Booted alignFour twoBlocks :=
  bootState_booted (by decide) (by decide) (by decide) (by decide)

def fullPool : List Op :=
  [Op.alloc (some 0) 0, Op.alloc (some 0) 0, Op.alloc (some 1) 10]

/-- The third thread gets a block. -/
theorem waiter_count_exact_full :
    exists s, exec step twoBlocks (fullPool ++ [Op.free 1056]) = some s ∧
      s.mp.suspendThreadCount = s.mp.suspendThread.length ∧
        (0 < s.mp.suspendThreadCount -> s.mp.suspendThread ≠ []) := by
  have hexact := fun s (hexec : exec (fun s op =>
      if NoWaiterTimeout s op then step s op else none) twoBlocks
      (fullPool ++ [Op.free 1056]) = some s) =>
    waiter_count_exact twoBlocks_booted (guarded_run_of_exec hexec)
  exact ⟨_, rfl, hexact _ rfl⟩

/-- The third thread times out: the counter stays at one with an empty list, and the
next release takes an entry from it. -/
theorem waiter_count_stale :
    exists s, Run (Graph step) twoBlocks (fullPool ++ [Op.timeout 1]) s ∧
      s.mp.suspendThreadCount = 1 ∧ s.mp.suspendThread = [] ∧
      (step s (Op.free 1056)).isSome = true := by
  refine ⟨_, run_of_exec rfl, rfl, rfl, ?_⟩
  decide +kernel

end Counted

end MemPool
end RtThread.Mem
