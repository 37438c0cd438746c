import RtThread.Kernel.SchedulerSafety

/-!
# The end of a thread

`rt_thread_exit`, `rt_thread_delete`, `rt_thread_detach` and the clean-up by the idle thread. A
thread that ends leaves its ready or suspend list, its timer is detached, and the object is
detached at once or left to the idle thread. The bitmap is cleared with the masks stored in the
thread object, which only the start of a thread and a change of its priority compute.
-/

namespace RtThread.Kernel.ThreadEnd

/-!
## The functions of `thread.c`
-/

/-- The scheduler, the suspend lists of the IPC objects, and the object container. A waiting
thread is linked with its `tlist` in a suspend list only. -/
structure EndState where
  kernel : State
  waiting : Nat -> List Tid
  container : Links (Node Unit Tid)

/-- `rt_schedule_remove_thread`, with the suspend list that the thread may be in. -/
def removeThread (cfg : Config) (s : EndState) (t : Tid) : Option EndState :=
  (rtScheduleRemoveThread cfg s.kernel t).map fun k =>
    { s with kernel := k, waiting := fun o => (s.waiting o).erase t }

/-- `rt_timer_detach` of the thread timer, and the change of the state. -/
def closeThread (s : EndState) (t : Tid) : EndState :=
  let th := s.kernel.thread t
  let th := { th with stat := ThreadStat.close, timer := rtTimerDetach th.timer }
  { s with kernel := s.kernel.setThread t th }

/-- `rt_object_detach` of the thread object -/
def rtObjectDetach (s : EndState) (t : Tid) : EndState :=
  { s with container := rtListRemove s.container (Node.member t) }

/-- The insertion into `rt_thread_defunct`. -/
def insertDefunct (s : EndState) (t : Tid) : EndState :=
  let links :=
    rtListInsertAfter s.kernel.links (Node.head ListHead.defunct) (Node.member t)
  { s with kernel := { s.kernel with links := links } }

/-- The end of `rt_thread_detach`: a thread with a cleanup function becomes defunct. -/
def detachObject (s : EndState) (t : Tid) : EndState :=
  let s := rtObjectDetach s t
  if (s.kernel.thread t).cleanup then insertDefunct s t else s

def rtThreadDetach (cfg : Config) (s : EndState) (t : Tid) : Option EndState :=
  (removeThread cfg s t).map fun s => detachObject (closeThread s t) t

def rtThreadDelete (cfg : Config) (s : EndState) (t : Tid) : Option EndState :=
  (removeThread cfg s t).map fun s => insertDefunct (closeThread s t) t

/-- `rt_thread_exit`, with its effect on the object container. -/
def rtThreadExit (cfg : Config) (s : EndState) : Option EndState :=
  match s.kernel.currentThread with
  | none => none
  | some t =>
    (Kernel.rtThreadExit cfg s.kernel).map fun k =>
      let th := s.kernel.thread t
      let s := { s with kernel := k, waiting := fun o => (s.waiting o).erase t }
      if th.systemObject ∧ ¬ th.cleanup then rtObjectDetach s t else s

/-!
## The bitmap and the masks of a thread
-/

/-- The lists and the bitmap agree, and the listed threads are the ready ones, with the
masks of their priorities; those of others are unknown. -/
structure ReadySet (cfg : Config) (k : State) (lists : ListHead -> List Tid) : Prop where
  listsOk : ReadyLists cfg k lists
  listed : forall p t, t ∈ lists (ListHead.ready p) ->
    (k.thread t).stat = ThreadStat.ready ∧ MasksOf cfg (k.thread t) p
  ready : forall t, (k.thread t).stat = ThreadStat.ready ->
    t ∈ lists (ListHead.ready (k.thread t).currentPriority)

/-- The masks in a thread object select no bit of the bitmap. -/
def MasksIdle (cfg : Config) (k : State) (th : Thread) : Prop :=
  if 32 < cfg.priorityMax then
    th.number < 32 ∧ k.readyTable th.number &&& th.highMask = 0 ∧
      (k.readyTable th.number = 0 -> k.readyPriorityGroup &&& th.numberMask = 0)
  else k.readyPriorityGroup &&& th.numberMask = 0

/-- The masks of the thread are those of its priority, another thread is ready at that
priority, or the masks select nothing. -/
structure EndsCleanly (cfg : Config) (k : State) (t : Tid) : Prop where
  priority : (k.thread t).currentPriority < cfg.priorityMax
  masks : MasksOf cfg (k.thread t) (k.thread t).currentPriority ∨
    (exists u, u ≠ t ∧ (k.thread u).stat = ThreadStat.ready ∧
      (k.thread u).currentPriority = (k.thread t).currentPriority) ∨
    MasksIdle cfg k (k.thread t)

/-- The other threads stay as they are, in the ready lists, the bitmap and the suspend
lists, and an unlocked `rt_schedule` selects the first of them. -/
structure Undisturbed (cfg : Config) (lists : ListHead -> List Tid) (s s' : EndState)
    (t : Tid) : Prop where
  others : forall u, u ≠ t -> s'.kernel.thread u = s.kernel.thread u
  waiting : forall o, s'.waiting o = (s.waiting o).erase t
  linked : exists lists', Family s'.kernel.links lists' ∧
    forall p, lists' (ListHead.ready p) = (lists (ListHead.ready p)).erase t
  bitmap : forall p, p < 256 -> (readyBit cfg s'.kernel p = true <->
    (lists (ListHead.ready p)).erase t ≠ [])
  found : s'.kernel.lockNest = 0 -> forall p u rest,
    (lists (ListHead.ready p)).erase t = u :: rest ->
    (forall q, q < p -> (lists (ListHead.ready q)).erase t = []) ->
    exists k', rtSchedule cfg s'.kernel = some k' ∧ k'.currentThread = some u

section Masks

variable {cfg : Config} {k : State} {th : Thread} {lists : ListHead -> List Tid}

theorem and_not_eq_self {w : Nat} {x m : BitVec w} (hzero : x &&& m = 0) : x &&& ~~~m = x := by
  apply BitVec.eq_of_getLsbD_eq
  intro i hi
  have hbit : (x &&& m).getLsbD i = false := by
    rw [hzero]
    simp
  rw [BitVec.getLsbD_and] at hbit
  rw [BitVec.getLsbD_and, BitVec.getLsbD_not]
  cases hx : x.getLsbD i with
  | false => simp
  | true =>
    rw [hx] at hbit
    simpa [hi] using hbit

theorem MasksIdle.clear_eq (hidle : MasksIdle cfg k th) : clearPriorityMask cfg k th = k := by
  unfold MasksIdle at hidle
  unfold clearPriorityMask
  by_cases hbig : 32 < cfg.priorityMax
  · rw [if_pos hbig] at hidle
    rcases hidle with ⟨_, hbyte, hgroup⟩
    rw [if_pos hbig]
    simp only [and_not_eq_self hbyte, Function.update_eq_self]
    split
    · rename_i hzero
      rw [and_not_eq_self (hgroup hzero)]
    · rfl
  · rw [if_neg hbig] at hidle
    rw [if_neg hbig, and_not_eq_self hidle]

theorem clear_harms (hg : GroupOk cfg k) (hnumber : 32 < cfg.priorityMax -> th.number < 32)
    (hnot : ¬ MasksIdle cfg k th) :
    exists p, p < 256 ∧ readyBit cfg k p = true ∧
      readyBit cfg (clearPriorityMask cfg k th) p = false := by
  unfold MasksIdle at hnot
  by_cases hbig : 32 < cfg.priorityMax
  · rw [if_pos hbig] at hnot
    have hn := hnumber hbig
    by_cases hbyte : k.readyTable th.number &&& th.highMask = 0
    · -- the byte is zero, and the group bit of another byte is cleared
      have hboth : k.readyTable th.number = 0 ∧ k.readyPriorityGroup &&& th.numberMask ≠ 0 := by
        by_contra hcon
        push Not at hcon
        exact hnot ⟨hn, hbyte, hcon⟩
      rcases bits_ne_zero_iff.mp hboth.right with ⟨g, hg32, hbit⟩
      rw [BitVec.getLsbD_and, Bool.and_eq_true] at hbit
      rcases bits_ne_zero_iff.mp ((hg hbig g hg32).mp hbit.left) with ⟨i, hi, htable⟩
      have hdiv : (8 * g + i) / 8 = g := by omega
      have hmod : (8 * g + i) % 8 = i := by omega
      refine ⟨8 * g + i, by omega, ?_, ?_⟩
      · unfold readyBit
        rw [if_pos hbig, hdiv, hmod, hbit.left, htable]
        rfl
      · unfold readyBit clearPriorityMask
        simp only [if_pos hbig, and_not_eq_self hbyte, if_pos hboth.left, hdiv,
          BitVec.getLsbD_and, BitVec.getLsbD_not, hbit.right]
        simp
    · rcases bits_ne_zero_iff.mp hbyte with ⟨i, hi, hbit⟩
      rw [BitVec.getLsbD_and, Bool.and_eq_true] at hbit
      have hne : k.readyTable th.number ≠ 0 := bits_ne_zero_iff.mpr ⟨i, hi, hbit.left⟩
      have hgroup := (hg hbig th.number hn).mpr hne
      have hdiv : (8 * th.number + i) / 8 = th.number := by omega
      have hmod : (8 * th.number + i) % 8 = i := by omega
      refine ⟨8 * th.number + i, by omega, ?_, ?_⟩
      · unfold readyBit
        rw [if_pos hbig, hdiv, hmod, hgroup, hbit.left]
        rfl
      · have hclear : ((clearPriorityMask cfg k th).readyTable th.number).getLsbD i =
            false := by
          unfold clearPriorityMask
          rw [if_pos hbig]
          dsimp only
          split <;> simp [hbit.right]
        unfold readyBit
        rw [if_pos hbig, hdiv, hmod, hclear, Bool.and_false]
  · rw [if_neg hbig] at hnot
    rcases bits_ne_zero_iff.mp hnot with ⟨i, hi, hbit⟩
    rw [BitVec.getLsbD_and, Bool.and_eq_true] at hbit
    refine ⟨i, by omega, ?_, ?_⟩
    · unfold readyBit
      rw [if_neg hbig, hbit.left]
    · unfold readyBit clearPriorityMask
      simp only [if_neg hbig, BitVec.getLsbD_and, BitVec.getLsbD_not, hbit.right]
      simp

end Masks

/-!
## The removal and the other threads
-/

section Removal

variable {cfg : Config} {k k' : State} {lists : ListHead -> List Tid} {t : Tid}

theorem masksOf_number_lt {th : Thread} {p : Nat} (hp : p < cfg.priorityMax)
    (hm : MasksOf cfg th p) (hbig : 32 < cfg.priorityMax) : th.number < 32 := by
  have hmax := cfg.priorityMax_le
  unfold MasksOf at hm
  rw [if_pos hbig] at hm
  rw [hm.left]
  omega

theorem remove_some (hp : (k.thread t).currentPriority < cfg.priorityMax)
    (hindex : rtListIsempty (rtListRemove k.links (Node.member t))
        (Node.head (ListHead.ready (k.thread t).currentPriority)) = true ->
      32 < cfg.priorityMax -> (k.thread t).number < 32) :
    exists k', rtScheduleRemoveThread cfg k t = some k' := by
  unfold rtScheduleRemoveThread
  simp only [if_pos hp]
  split
  · rename_i hempty
    rw [if_neg]
    · exact ⟨_, rfl⟩
    · rintro ⟨hbig, hge⟩
      exact Nat.not_lt.mpr hge (hindex hempty hbig)
  · exact ⟨_, rfl⟩

theorem ReadyLists.removed_same (hl : ReadyLists cfg k lists)
    (hout : forall p, t ∉ lists (ListHead.ready p))
    (hsame : k' = { k with links := rtListRemove k.links (Node.member t) }) :
    ReadyLists cfg k' fun h => (lists h).erase t := by
  subst hsame
  refine hl.removed rfl rfl hl.group ?_
  intro p hp
  rw [List.erase_of_not_mem (hout p)]
  exact hl.bitmap p hp

theorem ReadySet.other_iff (hs : ReadySet cfg k lists) :
    (lists (ListHead.ready (k.thread t).currentPriority)).erase t ≠ [] <->
      exists u, u ≠ t ∧ (k.thread u).stat = ThreadStat.ready ∧
        (k.thread u).currentPriority = (k.thread t).currentPriority := by
  have hnd := hs.listsOk.family.nodup (ListHead.ready (k.thread t).currentPriority)
  constructor
  · intro hne
    rcases List.exists_mem_of_ne_nil _ hne with ⟨u, hu⟩
    rw [hnd.mem_erase_iff] at hu
    exact ⟨u, hu.left, (hs.listed _ u hu.right).left, hs.listsOk.place _ u hu.right⟩
  · rintro ⟨u, hne, hready, hprio⟩
    apply List.ne_nil_of_mem (a := u)
    refine hnd.mem_erase_iff.mpr ⟨hne, ?_⟩
    rw [← hprio]
    exact hs.ready u hready

theorem EndsCleanly.removed (hs : ReadySet cfg k lists) (he : EndsCleanly cfg k t) :
    exists k', rtScheduleRemoveThread cfg k t = some k' ∧
      ReadyLists cfg k' fun h => (lists h).erase t := by
  have hempty := (hs.listsOk.family.remove t).isempty_iff
    (ListHead.ready (k.thread t).currentPriority)
  -- with the right masks, whether the thread is ready or not
  have hright : MasksOf cfg (k.thread t) (k.thread t).currentPriority ->
      exists k', rtScheduleRemoveThread cfg k t = some k' ∧
        ReadyLists cfg k' fun h => (lists h).erase t := by
    intro hmasks
    rcases remove_some he.priority fun _ => masksOf_number_lt he.priority hmasks with ⟨k', hrem⟩
    exact ⟨k', hrem, (remove_lists hs.listsOk hmasks hrem).left⟩
  by_cases hin : exists p, t ∈ lists (ListHead.ready p)
  · rcases hin with ⟨p, hin⟩
    apply hright
    rw [hs.listsOk.place p t hin]
    exact (hs.listed p t hin).right
  · push Not at hin
    rcases he.masks with hmasks | hother | hidle
    · exact hright hmasks
    · have hne := hs.other_iff.mpr hother
      rcases remove_some he.priority (fun htrue => absurd (hempty.mp htrue) hne) with
        ⟨k', hrem⟩
      refine ⟨k', hrem, ?_⟩
      rcases (remove_cases hrem).right with ⟨htrue, _⟩ | ⟨_, heq⟩
      · exact absurd (hempty.mp htrue) hne
      · exact ReadyLists.removed_same hs.listsOk hin heq
    · have hnumber : 32 < cfg.priorityMax -> (k.thread t).number < 32 := by
        intro hbig
        unfold MasksIdle at hidle
        rw [if_pos hbig] at hidle
        exact hidle.left
      rcases remove_some he.priority (fun _ => hnumber) with ⟨k', hrem⟩
      refine ⟨k', hrem, ReadyLists.removed_same hs.listsOk hin ?_⟩
      rcases (remove_cases hrem).right with ⟨_, _, heq⟩ | ⟨_, heq⟩
      · have hidle' : MasksIdle cfg
            { k with links := rtListRemove k.links (Node.member t) } (k.thread t) := hidle
        rw [heq, hidle'.clear_eq]
      · exact heq

theorem EndsCleanly.of_removed (hs : ReadySet cfg k lists)
    (hrem : rtScheduleRemoveThread cfg k t = some k')
    (hbitmap : forall p, p < 256 -> (readyBit cfg k' p = true <->
      (lists (ListHead.ready p)).erase t ≠ [])) : EndsCleanly cfg k t := by
  have hempty := (hs.listsOk.family.remove t).isempty_iff
    (ListHead.ready (k.thread t).currentPriority)
  rcases remove_cases hrem with ⟨hp, hcases⟩
  refine ⟨hp, ?_⟩
  by_cases hin : exists p, t ∈ lists (ListHead.ready p)
  · rcases hin with ⟨p, hin⟩
    apply Or.inl
    rw [hs.listsOk.place p t hin]
    exact (hs.listed p t hin).right
  · push Not at hin
    apply Or.inr
    rcases hcases with ⟨_, hnumber, heq⟩ | ⟨hfalse, _⟩
    · apply Or.inr
      by_contra hnot
      have hgroup : GroupOk cfg
          { k with links := rtListRemove k.links (Node.member t) } := hs.listsOk.group
      rcases clear_harms hgroup hnumber hnot with ⟨p, hp256, hbefore, hafter⟩
      have hlist := (hs.listsOk.bitmap p hp256).mp hbefore
      rw [← List.erase_of_not_mem (hin p)] at hlist
      have hset := (hbitmap p hp256).mpr hlist
      rw [heq, hafter] at hset
      cases hset
    · apply Or.inl
      apply hs.other_iff.mp
      intro hnil
      rw [hempty.mpr hnil] at hfalse
      cases hfalse

/-- What follows the removal: only the control block of the thread, its place in the
defunct list and the container change. -/
structure Finishes (cfg : Config) (t : Tid) (finish : EndState -> EndState) : Prop where
  group : forall s, (finish s).kernel.readyPriorityGroup = s.kernel.readyPriorityGroup
  table : forall s, (finish s).kernel.readyTable = s.kernel.readyTable
  waiting : forall s, (finish s).waiting = s.waiting
  others : forall s u, u ≠ t -> (finish s).kernel.thread u = s.kernel.thread u
  lists : forall (s : EndState) (lists : ListHead -> List Tid),
    ReadyLists cfg s.kernel lists -> (forall h, t ∉ lists h) ->
    exists lists', ReadyLists cfg (finish s).kernel lists' ∧
      forall p, lists' (ListHead.ready p) = lists (ListHead.ready p)

theorem finishes_close (t : Tid) : Finishes cfg t fun s => closeThread s t := by
  constructor
  · exact fun _ => rfl
  · exact fun _ => rfl
  · exact fun _ => rfl
  · intro s u hne
    exact setThread_of_ne s.kernel _ hne
  · intro s lists hl hfree
    exact ⟨lists, hl.setThread (Or.inl hfree), fun _ => rfl⟩

theorem finishes_delete (t : Tid) : Finishes cfg t fun s => insertDefunct (closeThread s t) t := by
  constructor
  · exact fun _ => rfl
  · exact fun _ => rfl
  · exact fun _ => rfl
  · intro s u hne
    exact setThread_of_ne s.kernel _ hne
  · intro s lists hl hfree
    have hclosed : ReadyLists cfg (closeThread s t).kernel lists :=
      hl.setThread (Or.inl hfree)
    exact ⟨_, hclosed.insertDefunct hfree, fun p => Function.update_of_ne (by simp) ..⟩

theorem detachObject_kernel (s : EndState) (t : Tid) :
    (detachObject s t).kernel = (insertDefunct s t).kernel ∨
      (detachObject s t).kernel = s.kernel := by
  unfold detachObject
  dsimp only
  split
  · exact Or.inl rfl
  · exact Or.inr rfl

theorem finishes_detach (t : Tid) : Finishes cfg t fun s => detachObject (closeThread s t) t := by
  have hclose : Finishes cfg t fun s => closeThread s t := finishes_close t
  have hdelete : Finishes cfg t fun s => insertDefunct (closeThread s t) t :=
    finishes_delete t
  constructor
  · intro s
    rcases detachObject_kernel (closeThread s t) t with heq | heq
    · rw [heq]
      exact hdelete.group s
    · rw [heq]
      exact hclose.group s
  · intro s
    rcases detachObject_kernel (closeThread s t) t with heq | heq
    · rw [heq]
      exact hdelete.table s
    · rw [heq]
      exact hclose.table s
  · intro s
    unfold detachObject
    dsimp only
    split <;> rfl
  · intro s u hne
    rcases detachObject_kernel (closeThread s t) t with heq | heq
    · rw [heq]
      exact hdelete.others s u hne
    · rw [heq]
      exact hclose.others s u hne
  · intro s lists hl hfree
    rcases detachObject_kernel (closeThread s t) t with heq | heq
    · rw [heq]
      exact hdelete.lists s lists hl hfree
    · rw [heq]
      exact hclose.lists s lists hl hfree

theorem readyBit_congr (hgroup : k'.readyPriorityGroup = k.readyPriorityGroup)
    (htable : k'.readyTable = k.readyTable) (p : Nat) :
    readyBit cfg k' p = readyBit cfg k p := by
  unfold readyBit
  rw [hgroup, htable]

theorem finished_iff {s : EndState} {finish : EndState -> EndState}
    (hs : ReadySet cfg s.kernel lists) (hf : Finishes cfg t finish) :
    (exists s', (removeThread cfg s t).map finish = some s' ∧
      Undisturbed cfg lists s s' t) <-> EndsCleanly cfg s.kernel t := by
  constructor
  · rintro ⟨s', hs', hsame⟩
    unfold removeThread at hs'
    simp only [Option.map_map, Option.map_eq_some_iff] at hs'
    rcases hs' with ⟨k1, hrem, heq⟩
    subst heq
    apply EndsCleanly.of_removed hs hrem
    intro p hp
    have hbit := hsame.bitmap p hp
    rw [Function.comp_apply, readyBit_congr (hf.group _) (hf.table _)] at hbit
    exact hbit
  · intro he
    rcases he.removed hs with ⟨k1, hrem, hl⟩
    have hfree := not_mem_erase_all hs.listsOk.family t
    have hothers : forall u, u ≠ t -> k1.thread u = s.kernel.thread u := by
      intro u _
      rw [remove_thread hrem]
    let s1 : EndState :=
      { s with kernel := k1, waiting := fun o => (s.waiting o).erase t }
    rcases hf.lists s1 _ hl hfree with ⟨lists', hl', hready⟩
    refine ⟨finish s1, ?_, ?_⟩
    · unfold removeThread
      rw [hrem]
      rfl
    · constructor
      · intro u hne
        exact (hf.others s1 u hne).trans (hothers u hne)
      · intro o
        rw [hf.waiting]
      · exact ⟨lists', hl'.family, hready⟩
      · intro p hp
        rw [hl'.bitmap p hp, hready p]
      · intro hlock p u rest hfirst hmin
        refine hl'.schedule_selects hlock ((hready p).trans hfirst) ?_
        intro q hq
        rw [hready q]
        exact hmin q hq

/-- For a consistent ready set, a thread in any state, with any masks: deleting or detaching
it leaves the other threads alone exactly when its stored masks are those of its priority,
or are not used, or select nothing. -/
theorem delete_undisturbed_iff {s : EndState} (hs : ReadySet cfg s.kernel lists)
    (t : Tid) :
    ((exists s', rtThreadDelete cfg s t = some s' ∧ Undisturbed cfg lists s s' t) <->
      EndsCleanly cfg s.kernel t) ∧
    ((exists s', rtThreadDetach cfg s t = some s' ∧ Undisturbed cfg lists s s' t) <->
      EndsCleanly cfg s.kernel t) :=
  ⟨finished_iff hs (finishes_delete t), finished_iff hs (finishes_detach t)⟩

theorem readySet_of_consistent (hc : Consistent cfg k lists) : ReadySet cfg k lists := by
  constructor
  · exact hc.listsOk
  · intro p t hin
    have hstat := (hc.threadOk t).linked p hin
    refine ⟨hstat, ?_⟩
    have hmasks := (hc.threadOk t).masks (by simp [hstat])
    rw [hc.listsOk.place p t hin] at hmasks
    exact hmasks
  · exact fun t => (hc.threadOk t).ready

end Removal

instance (cfg : Config) (k : State) (th : Thread) : Decidable (MasksIdle cfg k th) :=
  if hbig : 32 < cfg.priorityMax then
    decidable_of_iff
      (th.number < 32 ∧ k.readyTable th.number &&& th.highMask = 0 ∧
        (k.readyTable th.number = 0 -> k.readyPriorityGroup &&& th.numberMask = 0))
      (by unfold MasksIdle; rw [if_pos hbig])
  else
    decidable_of_iff (k.readyPriorityGroup &&& th.numberMask = 0)
      (by unfold MasksIdle; rw [if_neg hbig])

/-- Threads that are not started, of priorities 12 and 40. Thread 1, of priority 40, was
built in the memory of one of priority 12. -/
def reusedMemory : State :=
  { bootState with
    thread := fun t =>
      { bootState.thread t with
        currentPriority := (bootState.thread t).initPriority
        number := if t = 1 then 1 else 0
        highMask := if t = 1 then 0x10 else 0
        numberMask := if t = 1 then 2 else 0 } }

theorem reusedMemory_booted : Booted tableConfig reusedMemory := by
  have hboot := bootState_booted
  constructor
  · exact hboot.links
  · exact hboot.stat
  · exact hboot.priority
  · exact hboot.timer
  · exact hboot.group
  · exact hboot.table
  · exact hboot.current
  · exact hboot.lock

/-- No thread waits, and nothing is known of the container. -/
def noneWaiting (k : State) : EndState :=
  { kernel := k, waiting := fun _ => [], container := ⟨id, id⟩ }

theorem readySet_of_exec {ops : List Op} {k : State}
    (hk : Transition.exec (step tableConfig) reusedMemory ops = some k) :
    exists lists, ReadySet tableConfig (noneWaiting k).kernel lists := by
  have hinv : exists lists, Consistent tableConfig k lists := by
    apply (Transition.run_of_exec hk).invariant
      (fun k => exists lists, Consistent tableConfig k lists)
    · exact ⟨_, reusedMemory_booted.consistent⟩
    · rintro k op k' ⟨lists, hc⟩ hs
      exact hc.step hs
  rcases hinv with ⟨lists, hc⟩
  exact ⟨lists, readySet_of_consistent hc⟩

/-- Thread 3 is deleted and detached before it is started; its masks are zero. -/
theorem delete_undisturbed_iff_zero : exists (s : EndState)
    (lists : ListHead -> List Tid) (s' s'' : EndState),
    ReadySet tableConfig s.kernel lists ∧ EndsCleanly tableConfig s.kernel 3 ∧
    (s.kernel.thread 0).stat = ThreadStat.ready ∧
    rtThreadDelete tableConfig s 3 = some s' ∧ Undisturbed tableConfig lists s s' 3 ∧
    rtThreadDetach tableConfig s 3 = some s'' ∧
    Undisturbed tableConfig lists s s'' 3 := by
  have hexec : (Transition.exec (step tableConfig) reusedMemory
      [Op.startup 0, Op.schedulerStart]).map (fun k =>
        (decide ((k.thread 3).currentPriority < tableConfig.priorityMax),
          decide (MasksIdle tableConfig k (k.thread 3)), (k.thread 0).stat)) =
      some (true, true, ThreadStat.ready) := by
    decide +kernel
  rw [Option.map_eq_some_iff] at hexec
  rcases hexec with ⟨k, hk, hstate⟩
  simp only [Prod.mk.injEq, decide_eq_true_eq] at hstate
  rcases hstate with ⟨hprio, hidle, hready⟩
  rcases readySet_of_exec hk with ⟨lists, hs⟩
  have he : EndsCleanly tableConfig (noneWaiting k).kernel 3 :=
    ⟨hprio, Or.inr (Or.inr hidle)⟩
  have hboth := delete_undisturbed_iff hs 3
  rcases hboth.left.mpr he with ⟨s', hdelete, hsame⟩
  rcases hboth.right.mpr he with ⟨s'', hdetach, hsame'⟩
  exact ⟨noneWaiting k, lists, s', s'', hs, he, hready, hdelete, hsame, hdetach, hsame'⟩

/-- What becomes of thread 0, of priority 12, when another thread ends. -/
def afterEnd (cfg : Config) (s s' : EndState) : ThreadStat × Bool × Bool × Bool :=
  ((s'.kernel.thread 0).stat, readyBit cfg s.kernel 12, readyBit cfg s'.kernel 12,
    (rtSchedule cfg s'.kernel).isSome)

/-- Thread 1 is deleted, or detached, before it is started: its stale masks take thread 0,
which is running, out of the bitmap, and `rt_schedule` finds no thread. -/
theorem delete_disturbs : exists (s : EndState) (lists : ListHead -> List Tid),
    ReadySet tableConfig s.kernel lists ∧
    (s.kernel.thread 1).stat = ThreadStat.init ∧
    (rtThreadDelete tableConfig s 1).map (afterEnd tableConfig s) =
      some (ThreadStat.ready, true, false, false) ∧
    (rtThreadDetach tableConfig s 1).map (afterEnd tableConfig s) =
      some (ThreadStat.ready, true, false, false) ∧
    (forall s', rtThreadDelete tableConfig s 1 = some s' ->
      ¬ Undisturbed tableConfig lists s s' 1) := by
  have hexec : (Transition.exec (step tableConfig) reusedMemory
      [Op.startup 0, Op.schedulerStart]).map (fun k =>
        (decide ((k.thread 1).stat = ThreadStat.init),
          decide ((rtThreadDelete tableConfig (noneWaiting k) 1).map
            (afterEnd tableConfig (noneWaiting k)) =
            some (ThreadStat.ready, true, false, false)),
          decide ((rtThreadDetach tableConfig (noneWaiting k) 1).map
            (afterEnd tableConfig (noneWaiting k)) =
            some (ThreadStat.ready, true, false, false)),
          decide ((k.thread 0).currentPriority = 12))) =
      some (true, true, true, true) := by
    decide +kernel
  rw [Option.map_eq_some_iff] at hexec
  rcases hexec with ⟨k, hk, hstate⟩
  simp only [Prod.mk.injEq, decide_eq_true_eq] at hstate
  rcases hstate with ⟨hinit, hdelete, hdetach, hprio⟩
  rcases readySet_of_exec hk with ⟨lists, hs⟩
  refine ⟨noneWaiting k, lists, hs, hinit, hdelete, hdetach, ?_⟩
  intro s' hs' hsame
  rw [hs', Option.map_some, Option.some.injEq] at hdelete
  simp only [afterEnd, Prod.mk.injEq] at hdelete
  rcases hdelete with ⟨hready, _, hafter, _⟩
  have hsame0 : s'.kernel.thread 0 = k.thread 0 := hsame.others 0 (by decide)
  -- thread 0 is still listed, so its bit would have to be set
  have hin : 0 ∈ lists (ListHead.ready 12) := by
    have hlisted : 0 ∈ lists (ListHead.ready (k.thread 0).currentPriority) := by
      apply hs.ready 0
      rw [hsame0] at hready
      exact hready
    rw [hprio] at hlisted
    exact hlisted
  have hne : (lists (ListHead.ready 12)).erase 1 ≠ [] :=
    List.ne_nil_of_mem ((List.mem_erase_of_ne (by decide)).mpr hin)
  have hbit := (hsame.bitmap 12 (by decide)).mpr hne
  rw [hafter] at hbit
  cases hbit

end RtThread.Kernel.ThreadEnd
