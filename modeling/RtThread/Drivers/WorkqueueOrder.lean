import RtThread.Drivers.Workqueue

/-!
# The order of the works

The history numbers the calls that queue a work, and has the works that are queued and not
cancelled with the number of their last queuing. A work function is called for the oldest of them.
The worker does not test the list again after it was resumed, so a work has to be there whenever
it is about to take one.
-/

namespace RtThread.Drivers.Workqueue

open Kernel
open Ipc
open Transition

/-- A call of a work function, with the oldest of the queued works at that moment. -/
structure WorkCall where
  work : Work
  oldest : Option (Nat × Work)
deriving DecidableEq, Repr

structure History where
  count : Nat
  queued : List (Nat × Work)
  calls : List WorkCall
deriving DecidableEq, Repr

def noHistory : History := { count := 0, queued := [], calls := [] }

def without (work : Work) (queued : List (Nat × Work)) : List (Nat × Work) :=
  queued.filter fun e => e.2 ≠ work

def recordHistory (s : State) (op : Op) (s' : State) (h : History) : History :=
  match op with
  | Op.dowork _ work =>
    { h with
      count := h.count + 1
      queued := without work h.queued ++ [(h.count, work)] }
  | Op.resume _ => h
  | Op.cancelWork work => { h with queued := without work h.queued }
  | Op.worker =>
    match s.pc, s'.pc with
    | WorkerPc.taking, WorkerPc.running work =>
      { h with
        queued := without work h.queued
        calls := h.calls ++ [⟨work, h.queued.head?⟩] }
    | _, _ => h

/-- The worker is going to take a work without testing the list. -/
def OnItsWay (s : State) : Prop :=
  s.pc = WorkerPc.taking ∨
    s.pc = WorkerPc.asleep ∧ (s.thread s.workThread).stat = ThreadStat.ready

instance (s : State) : Decidable (OnItsWay s) := inferInstanceAs (Decidable (_ ∨ _))

/-- The last work is not cancelled while the worker is on its way, and the worker is resumed
only with work in the list. -/
def KeepsWork (s : State) : Op -> Prop
  | Op.cancelWork work => OnItsWay s -> s.workList ≠ [work]
  | Op.resume _ => (s.thread s.workThread).stat = ThreadStat.suspend -> s.workList ≠ []
  | _ => True

instance (s : State) : (op : Op) -> Decidable (KeepsWork s op)
  | Op.dowork _ _ => inferInstanceAs (Decidable True)
  | Op.resume _ => inferInstanceAs (Decidable (_ -> _))
  | Op.cancelWork _ => inferInstanceAs (Decidable (_ -> _))
  | Op.worker => inferInstanceAs (Decidable True)

/-!
## The history and the list
-/

variable {s s' : State} {op : Op} {h : History}

/-- The list is that of the history, and the numbers grow along the calls and along the
list. -/
structure Queued (s : State) (h : History) : Prop where
  list : h.queued.map Prod.snd = s.workList
  nodup : s.workList.Nodup
  stamps : (h.queued.map Prod.fst).Pairwise (· < ·)
  bound : forall e, e ∈ h.queued -> e.1 < h.count
  called : forall c, c ∈ h.calls -> exists k, c.oldest = some (k, c.work) ∧ k < h.count ∧
    forall e, e ∈ h.queued -> k < e.1
  order : (h.calls.filterMap fun c => c.oldest.map Prod.fst).Pairwise (· < ·)

theorem without_works {queued : List (Nat × Work)}
    (hnodup : (queued.map Prod.snd).Nodup) (work : Work) :
    (without work queued).map Prod.snd = (queued.map Prod.snd).erase work := by
  rw [hnodup.erase_eq_filter]
  unfold without
  rw [List.filter_map]
  congr 1
  apply List.filter_congr
  intro e _
  simp [bne, Bool.beq_eq_decide_eq]

theorem without_sublist (work : Work) (queued : List (Nat × Work)) :
    (without work queued).Sublist queued :=
  List.filter_sublist

theorem Queued.congr (hq : Queued s h) (hlist : s'.workList = s.workList) : Queued s' h := by
  refine ⟨?_, ?_, hq.stamps, hq.bound, hq.called, hq.order⟩
  · rw [hlist]
    exact hq.list
  · rw [hlist]
    exact hq.nodup

theorem Queued.without (hq : Queued s h) (work : Work) :
    Queued { s with workList := s.workList.erase work }
      { h with queued := without work h.queued } := by
  have hnodup : (h.queued.map Prod.snd).Nodup := by
    rw [hq.list]
    exact hq.nodup
  have hsub := without_sublist work h.queued
  refine ⟨?_, hq.nodup.erase work, hq.stamps.sublist (hsub.map _), ?_, ?_, hq.order⟩
  · show (Workqueue.without work h.queued).map Prod.snd = s.workList.erase work
    rw [without_works hnodup, hq.list]
  · intro e he
    exact hq.bound e (hsub.subset he)
  · intro c hc
    rcases hq.called c hc with ⟨k, hk, hlt, hbefore⟩
    exact ⟨k, hk, hlt, fun e he => hbefore e (hsub.subset he)⟩

theorem Queued.dowork (hq : Queued s h) (caller : Option Tid) (work : Work) :
    Queued (rtWorkqueueDowork s caller work) { h with
        count := h.count + 1
        queued := Workqueue.without work h.queued ++ [(h.count, work)] } := by
  have hw := hq.without work
  have hnot : work ∉ s.workList.erase work := hq.nodup.not_mem_erase
  constructor
  · show (Workqueue.without work h.queued ++ [(h.count, work)]).map Prod.snd =
      s.workList.erase work ++ [work]
    rw [List.map_append, hw.list]
    rfl
  · show (s.workList.erase work ++ [work]).Nodup
    rw [List.nodup_append]
    refine ⟨hw.nodup, by simp, ?_⟩
    intro x hx y hy hxy
    rw [List.mem_singleton] at hy
    subst hy hxy
    exact hnot hx
  · show ((Workqueue.without work h.queued ++ [(h.count, work)]).map Prod.fst).Pairwise _
    rw [List.map_append, List.pairwise_append]
    refine ⟨hw.stamps, by simp, ?_⟩
    intro x hx y hy
    rcases List.mem_map.mp hx with ⟨e, he, rfl⟩
    rw [List.map_singleton, List.mem_singleton] at hy
    subst hy
    exact hw.bound e he
  · intro e he
    rcases List.mem_append.mp he with he | he
    · exact Nat.lt_succ_of_lt (hw.bound e he)
    · rw [List.mem_singleton] at he
      subst he
      exact Nat.lt_succ_self _
  · intro c hc
    rcases hw.called c hc with ⟨k, hk, hlt, hbefore⟩
    refine ⟨k, hk, Nat.lt_succ_of_lt hlt, ?_⟩
    intro e he
    rcases List.mem_append.mp he with he | he
    · exact hbefore e he
    · rw [List.mem_singleton] at he
      subst he
      exact hlt
  · exact hq.order

theorem Queued.take {work : Work} {rest : List Work} (hq : Queued s h)
    (hlist : s.workList = work :: rest) (pc : WorkerPc) :
    Queued { s with workList := rest, pc := pc } { h with
        queued := Workqueue.without work h.queued
        calls := h.calls ++ [⟨work, h.queued.head?⟩] } := by
  have hw := hq.without work
  have hrest : s.workList.erase work = rest := by
    rw [hlist, List.erase_cons_head]
  rw [hrest] at hw
  cases hqueued : h.queued with
  | nil =>
    have hempty := hq.list
    rw [hqueued, hlist] at hempty
    cases hempty
  | cons e queued =>
    have hhead := hq.list
    rw [hqueued, hlist, List.map_cons, List.cons.injEq] at hhead
    have hstamps := hq.stamps
    rw [hqueued, List.map_cons, List.pairwise_cons] at hstamps
    have hafter (x : Nat × Work) (hx : x ∈ Workqueue.without work h.queued) : e.1 < x.1 := by
      have hmem := List.mem_filter.mp hx
      rw [hqueued] at hmem
      rcases List.mem_cons.mp hmem.left with heq | hin
      · rw [heq, hhead.left] at hmem
        simp at hmem
      · exact hstamps.left _ (List.mem_map_of_mem hin)
    have hcall : (some e : Option (Nat × Work)) = some (e.1, work) := by
      rw [← hhead.left]
    have hcount : e.1 < h.count := hq.bound e (by rw [hqueued]; exact List.mem_cons_self)
    rw [← hqueued]
    refine ⟨hw.list, hw.nodup, hw.stamps, hw.bound, ?_, ?_⟩
    · intro c hc
      rcases List.mem_append.mp hc with hc | hc
      · exact hw.called c hc
      · rw [List.mem_singleton] at hc
        subst hc
        exact ⟨e.1, by rw [hqueued]; exact hcall, hcount, hafter⟩
    · show List.Pairwise _ (List.filterMap _ (h.calls ++ [WorkCall.mk work h.queued.head?]))
      rw [List.filterMap_append, List.pairwise_append]
      refine ⟨hq.order, by simp [hqueued], ?_⟩
      intro x hx y hy
      rcases List.mem_filterMap.mp hx with ⟨c, hc, hcx⟩
      rcases hq.called c hc with ⟨k, hk, _, hbefore⟩
      rw [hk] at hcx
      cases hcx
      have hy' : y = e.1 := by simpa [hqueued] using hy
      subst hy'
      exact hbefore e (by rw [hqueued]; exact List.mem_cons_self)

/-!
## The worker's way
-/

structure Supplied (s : State) : Prop where
  way : OnItsWay s -> s.workList ≠ []
  stat : (s.thread s.workThread).stat = ThreadStat.ready ∨
    (s.thread s.workThread).stat = ThreadStat.suspend ∧ s.pc = WorkerPc.asleep
  tame : s.pc ≠ WorkerPc.wild

theorem not_onItsWay_of_pc (htaking : s.pc ≠ WorkerPc.taking)
    (hasleep : s.pc ≠ WorkerPc.asleep) : ¬ OnItsWay s := by
  rintro (h | h)
  · exact htaking h
  · exact hasleep h.left

theorem Supplied.worker (hp : Supplied s) (hq : Queued s h)
    (hready : (s.thread s.workThread).stat = ThreadStat.ready)
    (hs : workqueueThreadEntry s = some s') :
    Supplied s' ∧ Queued s' (recordHistory s Op.worker s' h) := by
  unfold workqueueThreadEntry at hs
  split at hs
  · rename_i hpc
    split at hs
    · cases hs
      refine ⟨⟨fun hway => absurd hway (not_onItsWay_of_pc nofun nofun), Or.inl hready,
        nofun⟩, ?_⟩
      simp only [recordHistory, hpc]
      exact hq.congr rfl
    · rename_i hne
      cases hs
      refine ⟨⟨fun _ => hne, Or.inl hready, nofun⟩, ?_⟩
      simp only [recordHistory, hpc]
      exact hq.congr rfl
  · rename_i hpc
    cases hs
    have hstat := suspend_stat hready
    refine ⟨⟨?_, Or.inr ⟨hstat, rfl⟩, nofun⟩, ?_⟩
    · rintro (hway | hway)
      · cases hway
      · have hwoken := hway.right
        rw [hstat] at hwoken
        cases hwoken
    · simp only [recordHistory, hpc]
      exact hq.congr rfl
  · rename_i hpc
    cases hs
    refine ⟨⟨fun _ => hp.way (Or.inr ⟨hpc, hready⟩), Or.inl hready, nofun⟩, ?_⟩
    simp only [recordHistory, hpc]
    exact hq.congr rfl
  · rename_i hpc
    split at hs
    · rename_i hempty
      exact absurd hempty (hp.way (Or.inl hpc))
    · rename_i work rest hlist
      cases hs
      refine ⟨⟨fun hway => absurd hway (not_onItsWay_of_pc nofun nofun), Or.inl hready,
        nofun⟩, ?_⟩
      simp only [recordHistory, hpc]
      exact hq.take hlist (WorkerPc.running work)
  · rename_i work hpc
    cases hs
    refine ⟨⟨fun hway => absurd hway (not_onItsWay_of_pc nofun nofun), Or.inl hready,
      nofun⟩, ?_⟩
    simp only [recordHistory, hpc]
    exact hq.congr rfl
  · cases hs

theorem Supplied.step (hp : Supplied s) (hq : Queued s h) (hok : KeepsWork s op)
    (hs : step s op = some s') :
    Supplied s' ∧ Queued s' (recordHistory s op s' h) := by
  rcases step_cases hs with ⟨caller, work, rfl, hcall, rfl⟩ | ⟨t, rfl, hin, rfl⟩ |
    ⟨work, rfl, rfl⟩ | ⟨rfl, hready, hentry⟩
  · refine ⟨⟨?_, hp.stat, hp.tame⟩, hq.dowork caller work⟩
    intro _
    show s.workList.erase work ++ [work] ≠ []
    simp
  · refine ⟨⟨?_, Or.inl (resume_stat ?_), hp.tame⟩, hq.congr rfl⟩
    · rintro (hway | hway)
      · exact hp.way (Or.inl hway)
      · -- the worker was on its way before, or is resumed now
        rcases hp.stat with hready | hasleep
        · exact hp.way (Or.inr ⟨hway.left, hready⟩)
        · exact hok hasleep.left
    · rcases hp.stat with hready | hasleep
      · exact Or.inr hready
      · exact Or.inl hasleep.left
  · refine ⟨⟨?_, hp.stat, hp.tame⟩, hq.without work⟩
    intro hway
    have hne := hp.way hway
    have hlast := hok hway
    show s.workList.erase work ≠ []
    intro herase
    apply hlast
    rcases List.erase_eq_nil_iff.mp herase with hnil | hone
    · exact absurd hnil hne
    · exact hone
  · exact hp.worker hq hready hentry

/-- Each call was for the oldest work queued and not cancelled then; the calls are in the
order of the queuings, none of which leads to two calls; and no node was taken from the
empty list. -/
structure OrderHolds (s : State) (h : History) : Prop where
  queued : h.queued.map Prod.snd = s.workList
  oldest : forall c, c ∈ h.calls -> exists k, c.oldest = some (k, c.work)
  order : (h.calls.filterMap fun c => c.oldest.map Prod.fst).Pairwise (· < ·)
  tame : s.pc ≠ WorkerPc.wild

/-- In every state of every run in which the worker is not left without work on its
way. -/
theorem workqueue_in_order {s0 s : State} {h : History} {ops : List Op} (hboot : Booted s0)
    (hrun : Run (Guarded (fun x op => KeepsWork x.1 op)
      (Graph (watched step recordHistory))) (s0, noHistory) ops (s, h)) :
    OrderHolds s h := by
  have hinv : Supplied s ∧ Queued s h := by
    apply hrun.guarded_watched_invariant (fun s h => Supplied s ∧ Queued s h)
    · have hpc := hboot.pc
      refine ⟨⟨fun hway => ?_, Or.inl hboot.stat, by rw [hpc]; nofun⟩, ?_⟩
      · exact absurd hway (not_onItsWay_of_pc (by rw [hpc]; nofun) (by rw [hpc]; nofun))
      · refine ⟨hboot.workList.symm, ?_, List.Pairwise.nil, nofun, nofun, List.Pairwise.nil⟩
        rw [hboot.workList]
        exact List.nodup_nil
    · intro s h op s' hx hkeeps hstep
      exact hx.left.step hx.right hkeeps hstep
  refine ⟨hinv.right.list, ?_, hinv.right.order, hinv.left.tame⟩
  intro c hc
  rcases hinv.right.called c hc with ⟨k, hk, _⟩
  exact ⟨k, hk⟩

def threeWorksOps : List Op :=
  [Op.worker, Op.worker, Op.dowork (some 1) 100, Op.dowork (some 2) 200, Op.resume 1,
    Op.dowork (some 1) 300, Op.dowork (some 3) 100, Op.cancelWork 300, Op.worker, Op.worker,
    Op.worker, Op.worker, Op.worker]

theorem workqueue_in_order_three_works :
    exists s h, Run (Guarded (fun x op => KeepsWork x.1 op)
        (Graph (watched step recordHistory))) (bootState, noHistory) threeWorksOps (s, h) ∧
      h.calls.map WorkCall.work = [200, 100] ∧ OrderHolds s h := by
  have hexec : (exec (fun (x : State × History) op =>
      if KeepsWork x.1 op then watched step recordHistory x op else none)
      (bootState, noHistory) threeWorksOps).map (fun x => x.2.calls.map WorkCall.work) =
      some [200, 100] := by
    decide +kernel
  rw [Option.map_eq_some_iff] at hexec
  rcases hexec with ⟨⟨s, h⟩, hexec, hcalls⟩
  have hrun := @guarded_run_of_exec _ _ _ _
    (fun (x : State × History) op => KeepsWork x.1 op) _ _ _ hexec
  exact ⟨s, h, hrun, hcalls, workqueue_in_order bootState_booted hrun⟩

/-- A work is queued and cancelled before its caller resumes the worker, which then takes
the head of the empty list for a work. -/
theorem worker_takes_from_empty_list :
    exists s h, Run (Graph (watched step recordHistory)) (bootState, noHistory)
        [Op.worker, Op.worker, Op.dowork (some 1) 100, Op.cancelWork 100, Op.resume 1,
          Op.worker, Op.worker] (s, h) ∧
      s.workList = [] ∧ s.pc = WorkerPc.wild ∧ ¬ OrderHolds s h := by
  have hexec : (exec (watched step recordHistory) (bootState, noHistory)
      [Op.worker, Op.worker, Op.dowork (some 1) 100, Op.cancelWork 100, Op.resume 1,
        Op.worker, Op.worker]).map (fun x => (x.1.workList, x.1.pc)) =
      some ([], WorkerPc.wild) := by
    decide +kernel
  rw [Option.map_eq_some_iff] at hexec
  rcases hexec with ⟨⟨s, h⟩, hexec, heq⟩
  simp only [Prod.mk.injEq] at heq
  exact ⟨s, h, run_of_exec hexec, heq.left, heq.right, fun hholds => hholds.tame heq.right⟩

end RtThread.Drivers.Workqueue
