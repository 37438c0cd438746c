import RtThread.Kernel.ThreadEnd

/-!
# The clean-up of ended threads

The idle thread takes the defunct threads one by one, and deletes the object of a dynamic thread
only. So a static thread leaves the object container only when the function that ended it detached
the object, which `rt_thread_delete` never does and `rt_thread_exit` does not when there is a
cleanup function.
-/

namespace RtThread.Kernel.ThreadEnd

open Function (comp_apply update update_of_ne update_self)

/-!
## The idle thread
-/

/-- The first thread of `rt_thread_defunct` -/
def defunctThread (s : EndState) : Option Tid :=
  match s.kernel.links.next (Node.head ListHead.defunct) with
  | Node.head _ => none
  | Node.member t => some t

/-- `rt_list_remove` of the `tlist` of a thread -/
def unlinkThread (s : EndState) (t : Tid) : EndState :=
  { s with
    kernel := { s.kernel with links := rtListRemove s.kernel.links (Node.member t) }
    waiting := fun o => (s.waiting o).erase t }

/-- `rt_thread_idle_excute`, with a bound on the rounds of its loop.  The cleanup
function of a thread does not touch these lists. -/
def rtThreadIdleExcute : Nat -> EndState -> Option EndState
  | 0, _ => none
  | fuel + 1, s =>
    match defunctThread s with
    | none => some s
    | some t =>
      if (s.kernel.thread t).systemObject then some (unlinkThread s t)
      else rtThreadIdleExcute fuel (rtObjectDetach (unlinkThread s t) t)

def IdleCall (s s' : EndState) : Prop :=
  exists fuel, rtThreadIdleExcute fuel s = some s'

/-!
## The ways to end
-/

inductive Ending where
  | exit
  | delete
  | detach
deriving DecidableEq, Repr

/-- `rt_thread_exit` is executed by the thread itself. -/
def endThread (cfg : Config) (s : EndState) (t : Tid) : Ending -> Option EndState
  | Ending.exit =>
    if s.kernel.currentThread = some t then rtThreadExit cfg s else none
  | Ending.delete => rtThreadDelete cfg s t
  | Ending.detach => rtThreadDetach cfg s t

def Ending.defunct (e : Ending) (th : Thread) : Bool :=
  match e with
  | Ending.exit => !(th.systemObject && !th.cleanup)
  | Ending.delete => true
  | Ending.detach => th.cleanup

def Ending.detached (e : Ending) (th : Thread) : Bool :=
  match e with
  | Ending.exit => th.systemObject && !th.cleanup
  | Ending.delete => false
  | Ending.detach => true

/-- The thread is in no ready list, suspend list or timer list, not defunct, and not in
the container. -/
structure Traceless (s : EndState) (t : Tid) : Prop where
  tlist : rtListIsempty s.kernel.links (Node.member t) = true
  waiting : forall o, t ∉ s.waiting o
  timer : (s.kernel.thread t).timer.linked = false
  object : rtListIsempty s.container (Node.member t) = true

/-- A static thread in the container is ended by `rt_thread_delete`, or by
`rt_thread_exit` with a cleanup function. -/
structure StaysInContainer (s : EndState) (t : Tid) (e : Ending) : Prop where
  static : (s.kernel.thread t).systemObject = true
  object : rtListIsempty s.container (Node.member t) = false
  ending : e = Ending.delete ∨
    e = Ending.exit ∧ (s.kernel.thread t).cleanup = true

/-!
## What an ending does
-/

/-- The effect of the three functions on the thread that ends. -/
structure Closed (s s' : EndState) (t : Tid) (e : Ending) : Prop where
  links : s'.kernel.links =
    if e.defunct (s.kernel.thread t) then
      rtListInsertAfter (rtListRemove s.kernel.links (Node.member t))
        (Node.head ListHead.defunct) (Node.member t)
    else rtListRemove s.kernel.links (Node.member t)
  thread : s'.kernel.thread = Function.update s.kernel.thread t
    { s.kernel.thread t with
      stat := ThreadStat.close
      timer := rtTimerDetach (s.kernel.thread t).timer }
  waiting : s'.waiting = fun o => (s.waiting o).erase t
  container : s'.container =
    if e.detached (s.kernel.thread t) then rtListRemove s.container (Node.member t)
    else s.container

section Closed

variable {cfg : Config} {s s' : EndState} {k k' : State} {t : Tid}

theorem schedule_links (hs : rtSchedule cfg k = some k') :
    k'.links = k.links ∧ k'.thread = k.thread := by
  unfold rtSchedule at hs
  split at hs
  · split at hs
    · cases hs
    · split at hs
      · cases hs
      · split at hs
        · cases hs
          exact ⟨rfl, rfl⟩
        · cases hs
          exact ⟨rfl, rfl⟩
  · cases hs
    exact ⟨rfl, rfl⟩

theorem exit_detached_iff {th : Thread} : Ending.exit.detached th = true <->
    th.systemObject = true ∧ ¬ th.cleanup = true := by
  simp [Ending.detached]

theorem exit_defunct {th : Thread} : Ending.exit.defunct th = !Ending.exit.detached th := rfl

theorem exit_closed (hcurrent : s.kernel.currentThread = some t)
    (hs : rtThreadExit cfg s = some s') : Closed s s' t Ending.exit := by
  unfold rtThreadExit at hs
  rw [hcurrent] at hs
  simp only [Option.map_eq_some_iff] at hs
  rcases hs with ⟨k', hk, heq⟩
  unfold Kernel.rtThreadExit at hk
  rw [hcurrent] at hk
  simp only at hk
  split at hk
  · cases hk
  · rename_i k1 hrem
    have hlinks := remove_links hrem
    have hthread := remove_thread hrem
    rcases schedule_links hk with ⟨hk1, hk2⟩
    rw [hthread] at hk1 hk2
    subst heq
    by_cases hdetach : (s.kernel.thread t).systemObject = true ∧
        ¬ (s.kernel.thread t).cleanup = true
    · have hflag := exit_detached_iff.mpr hdetach
      have hdefunct : Ending.exit.defunct (s.kernel.thread t) = false := by
        rw [exit_defunct, hflag]
        rfl
      rw [if_pos hdetach]
      rw [if_pos hdetach] at hk1
      constructor
      · rw [hdefunct]
        exact hk1.trans hlinks
      · refine hk2.trans ?_
        show update k1.thread t _ = _
        rw [hthread]
      · rfl
      · rw [hflag]
        rfl
    · have hflag := Bool.eq_false_of_not_eq_true (mt exit_detached_iff.mp hdetach)
      have hdefunct : Ending.exit.defunct (s.kernel.thread t) = true := by
        rw [exit_defunct, hflag]
        rfl
      rw [if_neg hdetach]
      rw [if_neg hdetach] at hk1
      constructor
      · rw [hdefunct]
        refine hk1.trans ?_
        show rtListInsertAfter k1.links _ _ = _
        rw [hlinks]
        rfl
      · refine hk2.trans ?_
        show update k1.thread t _ = _
        rw [hthread]
      · rfl
      · rw [hflag]
        rfl

theorem delete_closed (hs : rtThreadDelete cfg s t = some s') : Closed s s' t Ending.delete := by
  unfold rtThreadDelete removeThread at hs
  simp only [Option.map_map, Option.map_eq_some_iff, comp_apply] at hs
  rcases hs with ⟨k1, hrem, heq⟩
  have hlinks := remove_links hrem
  have hthread := remove_thread hrem
  subst heq
  constructor
  · show rtListInsertAfter k1.links _ _ = _
    rw [hlinks]
    rfl
  · show update k1.thread t _ = _
    rw [hthread]
  · rfl
  · rfl

theorem detach_closed (hs : rtThreadDetach cfg s t = some s') : Closed s s' t Ending.detach := by
  unfold rtThreadDetach removeThread at hs
  simp only [Option.map_map, Option.map_eq_some_iff, comp_apply] at hs
  rcases hs with ⟨k1, hrem, heq⟩
  have hlinks := remove_links hrem
  have hthread := remove_thread hrem
  subst heq
  have hcleanup : ((rtObjectDetach (closeThread { s with
      kernel := k1, waiting := fun o => (s.waiting o).erase t } t) t).kernel.thread
      t).cleanup = (s.kernel.thread t).cleanup := by
    show (update k1.thread t _ t).cleanup = _
    rw [update_self, hthread]
  unfold detachObject
  dsimp only
  rw [hcleanup]
  cases hc : (s.kernel.thread t).cleanup with
  | true =>
    constructor
    · show rtListInsertAfter k1.links _ _ = _
      rw [hlinks]
      simp [Ending.defunct, hc]
    · show update k1.thread t _ = _
      rw [hthread]
    · rfl
    · rfl
  | false =>
    constructor
    · show k1.links = _
      rw [hlinks]
      simp [Ending.defunct, hc]
    · show update k1.thread t _ = _
      rw [hthread]
    · rfl
    · rfl

theorem end_closed {e : Ending} (hs : endThread cfg s t e = some s') : Closed s s' t e := by
  cases e with
  | exit =>
    simp only [endThread] at hs
    split at hs
    · rename_i hcurrent
      exact exit_closed hcurrent hs
    · cases hs
  | delete => exact delete_closed hs
  | detach => exact detach_closed hs

end Closed

/-!
## The lists of the threads
-/

/-- The links represent these lists, and the container holds these threads. -/
structure WellLinked (s : EndState) (lists : ListHead -> List Tid) (objects : List Tid) :
    Prop where
  family : Family s.kernel.links lists
  container : Family s.container fun _ => objects
  waiting : forall o, (s.waiting o).Nodup

/-- The thread has ended: it is linked in the defunct list or nowhere, its timer is not
linked, and a dynamic thread still in the container is defunct. -/
structure Ended (s : EndState) (lists : ListHead -> List Tid) (objects : List Tid)
    (t : Tid) (stays : Prop) : Prop where
  linked : WellLinked s lists objects
  ready : forall p, t ∉ lists (ListHead.ready p)
  waiting : forall o, t ∉ s.waiting o
  timer : (s.kernel.thread t).timer.linked = false
  dynamic : (s.kernel.thread t).systemObject = false -> t ∈ objects ->
    t ∈ lists ListHead.defunct
  static : (s.kernel.thread t).systemObject = true -> (t ∈ objects <-> stays)

section Idle

variable {cfg : Config} {s s' : EndState} {lists : ListHead -> List Tid}
  {objects : List Tid} {t u : Tid} {e : Ending} {stays : Prop}

theorem WellLinked.defunctThread_eq (hs : WellLinked s lists objects) :
    defunctThread s = (lists ListHead.defunct).head? := by
  unfold defunctThread
  cases hl : lists ListHead.defunct with
  | nil =>
    rw [hs.family.next_head_nil hl]
    rfl
  | cons x rest =>
    rw [hs.family.next_head_cons hl]
    rfl

theorem isempty_container_iff (hs : WellLinked s lists objects) :
    rtListIsempty s.container (Node.member t) = true <-> t ∉ objects := by
  unfold rtListIsempty
  rw [beq_iff_eq, hs.container.member_alone_iff t]
  exact ⟨fun h => h (), fun h _ => h⟩

theorem isempty_tlist_iff (hs : WellLinked s lists objects) :
    rtListIsempty s.kernel.links (Node.member t) = true <-> forall h, t ∉ lists h := by
  unfold rtListIsempty
  rw [beq_iff_eq, hs.family.member_alone_iff t]

theorem Ended.traceless_iff (he : Ended s lists objects t stays) (hdone : defunctThread s = none) :
    Traceless s t <-> ¬ ((s.kernel.thread t).systemObject = true ∧ stays) := by
  have hnil : lists ListHead.defunct = [] := by
    rw [he.linked.defunctThread_eq] at hdone
    exact List.head?_eq_none_iff.mp hdone
  have htlist : forall h, t ∉ lists h := by
    intro h
    cases h with
    | ready p => exact he.ready p
    | defunct =>
      rw [hnil]
      exact List.not_mem_nil
  constructor
  · rintro htrace ⟨hstatic, hstays⟩
    exact (isempty_container_iff he.linked).mp htrace.object ((he.static hstatic).mpr hstays)
  · intro hnot
    refine ⟨(isempty_tlist_iff he.linked).mpr htlist, he.waiting, he.timer,
      (isempty_container_iff he.linked).mpr ?_⟩
    intro hin
    cases hkind : (s.kernel.thread t).systemObject with
    | false => exact htlist _ (he.dynamic hkind hin)
    | true => exact hnot ⟨hkind, (he.static hkind).mp hin⟩

theorem WellLinked.mem_erase (hs : WellLinked s lists objects) {x : Tid} :
    x ∈ objects.erase u <-> x ≠ u ∧ x ∈ objects :=
  (hs.container.nodup ()).mem_erase_iff

theorem Closed.family (hs : WellLinked s lists objects) (hc : Closed s s' t e) :
    exists lists', Family s'.kernel.links lists' ∧ (forall p, t ∉ lists' (ListHead.ready p)) ∧
      (e.defunct (s.kernel.thread t) = true -> t ∈ lists' ListHead.defunct) := by
  have hfree := not_mem_erase_all hs.family t
  have hremoved := hs.family.remove t
  rw [hc.links]
  cases hdefunct : e.defunct (s.kernel.thread t) with
  | false =>
    refine ⟨_, hremoved, fun p => hfree _, ?_⟩
    intro htrue
    cases htrue
  | true =>
    refine ⟨_, hremoved.insertAfter hfree, ?_, ?_⟩
    · intro p
      rw [update_of_ne (by simp)]
      exact hfree _
    · intro _
      rw [update_self]
      exact List.mem_cons_self

theorem Ending.defunct_or_detached {th : Thread} (hdynamic : th.systemObject = false)
    (hkept : e.detached th = false) : e.defunct th = true := by
  cases e with
  | exit => simp [Ending.defunct, hdynamic]
  | delete => rfl
  | detach => cases hkept

theorem Closed.ended (hs : WellLinked s lists objects) (hc : Closed s s' t e) :
    exists lists' objects', Ended s' lists' objects' t
      (t ∈ objects ∧ e.detached (s.kernel.thread t) = false) := by
  rcases hc.family hs with ⟨lists', hfamily, hready, hdefunct⟩
  have hself : s'.kernel.thread t = { s.kernel.thread t with
        stat := ThreadStat.close
        timer := rtTimerDetach (s.kernel.thread t).timer } := by
    rw [hc.thread, update_self]
  have hwaiting : forall o, t ∉ s'.waiting o := by
    intro o hin
    rw [hc.waiting, (hs.waiting o).mem_erase_iff] at hin
    exact hin.left rfl
  have hnodup : forall o, (s'.waiting o).Nodup := by
    intro o
    rw [hc.waiting]
    exact (hs.waiting o).erase t
  have htimer : (s'.kernel.thread t).timer.linked = false := by
    rw [hself]
    rfl
  have hcontainer := hc.container
  cases hdetached : e.detached (s.kernel.thread t) with
  | true =>
    rw [hdetached] at hcontainer
    have hobjects : Family s'.container fun _ => objects.erase t := by
      rw [hcontainer]
      exact hs.container.remove t
    have hout : t ∉ objects.erase t := fun hin => (hs.mem_erase.mp hin).left rfl
    refine ⟨lists', objects.erase t, ⟨hfamily, hobjects, hnodup⟩, hready, hwaiting,
      htimer, fun _ hin => absurd hin hout, ?_⟩
    intro _
    simp [hout]
  | false =>
    rw [hdetached] at hcontainer
    have hobjects : Family s'.container fun _ => objects := by
      rw [hcontainer]
      exact hs.container
    refine ⟨lists', objects, ⟨hfamily, hobjects, hnodup⟩, hready, hwaiting, htimer, ?_, ?_⟩
    · intro hdynamic _
      rw [hself] at hdynamic
      exact hdefunct (Ending.defunct_or_detached hdynamic hdetached)
    · intro _
      simp

def idleRound (s : EndState) (u : Tid) : EndState :=
  if (s.kernel.thread u).systemObject then unlinkThread s u
  else rtObjectDetach (unlinkThread s u) u

theorem WellLinked.unlink (hs : WellLinked s lists objects) (u : Tid) :
    WellLinked (unlinkThread s u) (fun h => (lists h).erase u) objects :=
  ⟨hs.family.remove u, hs.container, fun o => (hs.waiting o).erase u⟩

theorem Ended.round (he : Ended s lists objects t stays) (u : Tid) :
    exists objects', Ended (idleRound s u) (fun h => (lists h).erase u) objects' t
      stays := by
  have hlinked := he.linked.unlink u
  have hready : forall p, t ∉ (lists (ListHead.ready p)).erase u :=
    fun p hin => he.ready p (List.mem_of_mem_erase hin)
  have hwaiting : forall o, t ∉ (s.waiting o).erase u :=
    fun o hin => he.waiting o (List.mem_of_mem_erase hin)
  have hdefunct : t ≠ u -> t ∈ lists ListHead.defunct ->
    t ∈ (lists ListHead.defunct).erase u :=
    fun hne hin => (List.mem_erase_of_ne hne).mpr hin
  unfold idleRound
  cases hkind : (s.kernel.thread u).systemObject with
  | true =>
    refine ⟨objects, hlinked, hready, hwaiting, he.timer, ?_, he.static⟩
    intro hdynamic hin
    apply hdefunct _ (he.dynamic hdynamic hin)
    intro heq
    have hdynamic' : (s.kernel.thread t).systemObject = false := hdynamic
    rw [heq, hkind] at hdynamic'
    cases hdynamic'
  | false =>
    have hobjects : WellLinked (rtObjectDetach (unlinkThread s u) u)
        (fun h => (lists h).erase u) (objects.erase u) :=
      ⟨hlinked.family, he.linked.container.remove u, hlinked.waiting⟩
    refine ⟨objects.erase u, hobjects, hready, hwaiting, he.timer, ?_, ?_⟩
    · intro hdynamic hin
      rw [he.linked.mem_erase] at hin
      exact hdefunct hin.left (he.dynamic hdynamic hin.right)
    · intro hstatic
      have hne : t ≠ u := by
        intro heq
        have hstatic' : (s.kernel.thread t).systemObject = true := hstatic
        rw [heq, hkind] at hstatic'
        cases hstatic'
      rw [he.linked.mem_erase, ← he.static hstatic]
      exact ⟨fun hin => hin.right, fun hin => ⟨hne, hin⟩⟩

theorem Ended.idle {fuel : Nat} (he : Ended s lists objects t stays)
    (hs : rtThreadIdleExcute fuel s = some s') :
    exists lists' objects', Ended s' lists' objects' t stays := by
  induction fuel generalizing s lists objects with
  | zero => cases hs
  | succ fuel ih =>
    unfold rtThreadIdleExcute at hs
    cases hfirst : defunctThread s with
    | none =>
      rw [hfirst] at hs
      cases hs
      exact ⟨lists, objects, he⟩
    | some u =>
      simp only [hfirst] at hs
      rcases he.round u with ⟨objects', hround⟩
      unfold idleRound at hround
      cases hkind : (s.kernel.thread u).systemObject with
      | true =>
        simp only [hkind, if_true] at hs hround
        cases hs
        exact ⟨_, objects', hround⟩
      | false =>
        simp only [hkind, Bool.false_eq_true, if_false] at hs hround
        exact ih hround hs

theorem Ended.idleCalls (he : Ended s lists objects t stays)
    (hs : Relation.ReflTransGen IdleCall s s') :
    exists lists' objects', Ended s' lists' objects' t stays := by
  induction hs with
  | refl => exact ⟨lists, objects, he⟩
  | tail _ hcall ih =>
    rcases ih with ⟨lists1, objects1, he1⟩
    rcases hcall with ⟨fuel, hfuel⟩
    exact he1.idle hfuel

theorem idle_thread {fuel : Nat} (hs : rtThreadIdleExcute fuel s = some s') :
    s'.kernel.thread = s.kernel.thread := by
  induction fuel generalizing s with
  | zero => cases hs
  | succ fuel ih =>
    unfold rtThreadIdleExcute at hs
    split at hs
    · cases hs
      rfl
    · split at hs
      · cases hs
        rfl
      · have hrest := ih hs
        exact hrest

theorem idleCalls_thread (hs : Relation.ReflTransGen IdleCall s s') :
    s'.kernel.thread = s.kernel.thread := by
  induction hs with
  | refl => rfl
  | tail _ hcall ih =>
    rcases hcall with ⟨fuel, hfuel⟩
    exact (idle_thread hfuel).trans ih

theorem idle_returns {l : List Tid} {fuel : Nat} (hs : WellLinked s lists objects)
    (hl : lists ListHead.defunct = l) (hfuel : l.length < fuel) :
    exists s' lists' objects', rtThreadIdleExcute fuel s = some s' ∧
      WellLinked s' lists' objects' ∧
      (lists' ListHead.defunct).length ≤ l.length - 1 := by
  induction l generalizing s lists objects fuel with
  | nil =>
    cases fuel with
    | zero => cases hfuel
    | succ fuel =>
      have hnone : defunctThread s = none := by
        rw [hs.defunctThread_eq, hl]
        rfl
      refine ⟨s, lists, objects, ?_, hs, ?_⟩
      · unfold rtThreadIdleExcute
        rw [hnone]
      · rw [hl]
        exact Nat.le_refl 0
  | cons u rest ih =>
    cases fuel with
    | zero => cases hfuel
    | succ fuel =>
      have hfirst : defunctThread s = some u := by
        rw [hs.defunctThread_eq, hl]
        rfl
      have hrest : (lists ListHead.defunct).erase u = rest := by
        rw [hl, List.erase_cons_head]
      have hlinked := hs.unlink u
      unfold rtThreadIdleExcute
      simp only [hfirst]
      cases hkind : (s.kernel.thread u).systemObject with
      | true =>
        refine ⟨_, _, objects, rfl, hlinked, ?_⟩
        rw [hrest]
        exact Nat.le_refl _
      | false =>
        have hobjects : WellLinked (rtObjectDetach (unlinkThread s u) u)
            (fun h => (lists h).erase u) (objects.erase u) :=
          ⟨hlinked.family, hs.container.remove u, hlinked.waiting⟩
        rcases ih hobjects hrest (Nat.lt_of_succ_lt_succ hfuel) with
          ⟨s', lists', objects', heq, hs', hlen⟩
        refine ⟨s', lists', objects', heq, hs', ?_⟩
        exact Nat.le_trans hlen (Nat.sub_le _ _)

theorem idle_empties {n : Nat} (hs : WellLinked s lists objects)
    (hlen : (lists ListHead.defunct).length ≤ n) :
    exists s', Relation.ReflTransGen IdleCall s s' ∧ defunctThread s' = none := by
  induction n generalizing s lists objects with
  | zero =>
    refine ⟨s, Relation.ReflTransGen.refl, ?_⟩
    rw [hs.defunctThread_eq, List.eq_nil_of_length_eq_zero (Nat.le_zero.mp hlen)]
    rfl
  | succ n ih =>
    rcases idle_returns hs rfl (Nat.lt_succ_self _) with
      ⟨s1, lists1, objects1, hcall, hs1, hless⟩
    have hle : (lists1 ListHead.defunct).length ≤ n :=
      Nat.le_trans hless (Nat.sub_le_of_le_add hlen)
    rcases ih hs1 hle with ⟨s', hcalls, hdone⟩
    exact ⟨s', Relation.ReflTransGen.head ⟨_, hcall⟩ hcalls, hdone⟩

theorem staysInContainer_iff (hs : WellLinked s lists objects) :
    StaysInContainer s t e <-> (s.kernel.thread t).systemObject = true ∧
      t ∈ objects ∧ e.detached (s.kernel.thread t) = false := by
  have hobject : rtListIsempty s.container (Node.member t) = false <-> t ∈ objects := by
    rw [← Bool.not_eq_true, isempty_container_iff hs, not_not]
  have hending : (s.kernel.thread t).systemObject = true ->
      ((e = Ending.delete ∨ e = Ending.exit ∧ (s.kernel.thread t).cleanup = true) <->
        e.detached (s.kernel.thread t) = false) := by
    intro hstatic
    cases e with
    | exit => simp [Ending.detached, hstatic]
    | delete => simp [Ending.detached]
    | detach => simp [Ending.detached]
  constructor
  · rintro ⟨hstatic, hin, hway⟩
    exact ⟨hstatic, hobject.mp hin, (hending hstatic).mp hway⟩
  · rintro ⟨hstatic, hin, hkept⟩
    exact ⟨hstatic, hobject.mpr hin, (hending hstatic).mpr hkept⟩

end Idle

/-- A thread in any state ends in any way, in lists of any shape. The idle thread empties
the defunct list, and whenever it is empty the thread is linked nowhere, except for a static
thread in the container that was ended by `rt_thread_delete`, or by `rt_thread_exit` with a
cleanup function. -/
theorem ended_thread_traceless_iff (cfg : Config) {s s' : EndState}
    {lists : ListHead -> List Tid} {objects : List Tid} (hs : WellLinked s lists objects)
    (t : Tid) (e : Ending) (hend : endThread cfg s t e = some s') :
    (exists s'', Relation.ReflTransGen IdleCall s' s'' ∧ defunctThread s'' = none) ∧
    (forall s'', Relation.ReflTransGen IdleCall s' s'' -> defunctThread s'' = none ->
      (Traceless s'' t <-> ¬ StaysInContainer s t e)) := by
  have hclosed := end_closed hend
  rcases hclosed.ended hs with ⟨lists', objects', hended⟩
  constructor
  · exact idle_empties hended.linked (Nat.le_refl _)
  · intro s'' hcalls hdone
    rcases hended.idleCalls hcalls with ⟨lists'', objects'', hended''⟩
    have hkind : (s''.kernel.thread t).systemObject =
        (s.kernel.thread t).systemObject := by
      rw [idleCalls_thread hcalls, hclosed.thread, Function.update_self]
    rw [hended''.traceless_iff hdone, hkind, staysInContainer_iff hs]

def twoThreads (static cleanup : Bool) : State :=
  { bootState with
    thread := fun t =>
      { bootState.thread t with
        systemObject := static
        cleanup := cleanup } }

def bothObjects : Links (Node Unit Tid) :=
  rtListInsertAfter (rtListInsertAfter ⟨id, id⟩ (Node.head ()) (Node.member 0))
    (Node.head ()) (Node.member 1)

def startTwo (static cleanup : Bool) : Option EndState :=
  (Transition.exec (step tableConfig) (twoThreads static cleanup)
    [Op.startup 1, Op.startup 0, Op.schedulerStart]).map fun k =>
      { kernel := k, waiting := fun _ => [], container := bothObjects }

theorem twoThreads_booted (static cleanup : Bool) :
    Booted tableConfig (twoThreads static cleanup) := by
  have hboot := bootState_booted
  constructor
  · exact hboot.links
  · exact hboot.stat
  · exact hboot.priority
  · exact hboot.timer
  · exact hboot.group
  · exact hboot.table
  · exact hboot.current
  · exact hboot.lock

theorem startTwo_linked {static cleanup : Bool} {s : EndState}
    (hs : startTwo static cleanup = some s) :
    exists lists, WellLinked s lists [1, 0] := by
  unfold startTwo at hs
  rw [Option.map_eq_some_iff] at hs
  rcases hs with ⟨k, hk, heq⟩
  subst heq
  have hinv : exists lists, Consistent tableConfig k lists := by
    apply (Transition.run_of_exec hk).invariant
      (fun k => exists lists, Consistent tableConfig k lists)
    · exact ⟨_, (twoThreads_booted static cleanup).consistent⟩
    · rintro k op k' ⟨lists, hc⟩ hs
      exact hc.step hs
  rcases hinv with ⟨lists, hc⟩
  refine ⟨lists, hc.listsOk.family, ?_, fun _ => List.nodup_nil⟩
  -- the container, object by object
  have hempty : Family (⟨id, id⟩ : Links (Node Unit Tid)) fun _ => [] := by
    constructor
    · intro h
      exact LinkRing.ring_nil_iff.mpr ⟨rfl, rfl⟩
    · intro t _
      exact LinkRing.ring_nil_iff.mpr ⟨rfl, rfl⟩
    · intro h h' t hin
      cases hin
  have hone := hempty.insertAfter (h := ()) (t := 0) fun _ hin => nomatch hin
  have htwo := hone.insertAfter (h := ()) (t := 1) (by
    intro h
    simp)
  have hobjects : (update (update (fun _ => []) () [0]) ()
      (1 :: update (fun _ : Unit => ([] : List Tid)) () [0] ())) =
      fun _ => [1, 0] := by
    funext h
    simp
  rw [hobjects] at htwo
  exact htwo

/-- A dynamic thread exits with a cleanup function, and the idle thread deletes it. -/
theorem ended_thread_traceless_iff_dynamic : exists (s s' s'' : EndState)
    (lists : ListHead -> List Tid) (objects : List Tid),
    WellLinked s lists objects ∧ endThread tableConfig s 0 Ending.exit = some s' ∧
    defunctThread s' = some 0 ∧ Relation.ReflTransGen IdleCall s' s'' ∧
    defunctThread s'' = none ∧ Traceless s'' 0 := by
  have hexec : ((startTwo false true).bind fun s =>
      (endThread tableConfig s 0 Ending.exit).map fun s' =>
        (decide ((s.kernel.thread 0).systemObject = false), defunctThread s')) =
      some (true, some 0) := by
    decide +kernel
  rw [Option.bind_eq_some_iff] at hexec
  rcases hexec with ⟨s, hs, hexec⟩
  rw [Option.map_eq_some_iff] at hexec
  rcases hexec with ⟨s', hend, hstate⟩
  simp only [Prod.mk.injEq, decide_eq_true_eq] at hstate
  rcases startTwo_linked hs with ⟨lists, hlinked⟩
  rcases ended_thread_traceless_iff tableConfig hlinked 0 Ending.exit hend with
    ⟨⟨s'', hcalls, hdone⟩, hiff⟩
  refine ⟨s, s', s'', lists, _, hlinked, hend, hstate.right, hcalls, hdone, ?_⟩
  apply (hiff s'' hcalls hdone).mpr
  intro hstays
  have hstatic := hstays.static
  rw [hstate.left] at hstatic
  cases hstatic

/-- A static thread that exits with a cleanup function, or is deleted, stays in the object
container after the defunct list has been emptied. -/
theorem ended_thread_stays :
    ((startTwo true true).bind fun s =>
      (endThread tableConfig s 0 Ending.exit).bind fun s' =>
        (rtThreadIdleExcute 2 s').map fun s'' =>
          (defunctThread s', defunctThread s'',
            rtListIsempty s''.container (Node.member 0))) =
      some (some 0, none, false) ∧
    ((startTwo true false).bind fun s =>
      (endThread tableConfig s 0 Ending.delete).bind fun s' =>
        (rtThreadIdleExcute 2 s').map fun s'' =>
          (defunctThread s', defunctThread s'',
            rtListIsempty s''.container (Node.member 0))) =
      some (some 0, none, false) := by
  constructor
  · decide +kernel
  · decide +kernel

end RtThread.Kernel.ThreadEnd
