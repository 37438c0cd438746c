import RtThread.Kernel.Thread
import RtThread.Library.Transition

/-!
# The ready set

The bitmap is a redundant encoding of which ready lists are non-empty, in one
word or in a group word over a table of bytes.  This module relates the bitmap,
the ready lists and the thread control blocks, and shows that every scheduler
operation keeps them consistent.
-/

namespace RtThread.Kernel

open Function (update update_of_ne update_self)

/-!
## The bitmap
-/

/-- The bitmap says that priority `p` is ready. -/
def readyBit (cfg : Config) (k : State) (p : Nat) : Bool :=
  if 32 < cfg.priorityMax then
    k.readyPriorityGroup.getLsbD (p / 8) && (k.readyTable (p / 8)).getLsbD (p % 8)
  else k.readyPriorityGroup.getLsbD p

/-- The masks stored in a thread control block are those of priority `p`. -/
def MasksOf (cfg : Config) (th : Thread) (p : Nat) : Prop :=
  if 32 < cfg.priorityMax then
    th.number = p / 8 ∧ th.numberMask = 1#32 <<< (p / 8) ∧
      th.highMask = 1#8 <<< (p % 8)
  else th.numberMask = 1#32 <<< p

/-- With a table, a group bit is set exactly when its byte is non-zero. -/
def GroupOk (cfg : Config) (k : State) : Prop :=
  32 < cfg.priorityMax -> forall g, g < 32 ->
    (k.readyPriorityGroup.getLsbD g = true <-> k.readyTable g ≠ 0)

theorem masksOf_priorityAttribute (cfg : Config) (th : Thread) :
    MasksOf cfg (priorityAttribute cfg th) th.currentPriority := by
  unfold MasksOf priorityAttribute
  split
  · rw [Nat.shiftRight_eq_div_pow]
    exact ⟨rfl, rfl, rfl⟩
  · rfl

theorem getLsbD_one_shiftLeft {w : Nat} (i j : Nat) :
    (1#w <<< i).getLsbD j = (decide (i < w) && decide (i = j)) := by
  rw [← BitVec.twoPow_eq, BitVec.getLsbD_twoPow]

theorem bits_ne_zero_iff {w : Nat} {x : BitVec w} :
    x ≠ 0 <-> exists i, i < w ∧ x.getLsbD i = true := by
  constructor
  · intro hne
    by_contra hno
    apply hne
    apply BitVec.eq_of_getLsbD_eq
    intro i hi
    cases hbit : x.getLsbD i with
    | false => simp
    | true => exact absurd ⟨i, hi, hbit⟩ hno
  · rintro ⟨i, _, hbit⟩ hzero
    rw [hzero] at hbit
    simp at hbit

variable {th : Thread} {p : Nat} {t x : Tid} {h : ListHead}

theorem setPriorityMask_groupOk {cfg : Config} {k : State} (hm : MasksOf cfg th p)
    (hg : GroupOk cfg k) :
    GroupOk cfg (setPriorityMask cfg k th) := by
  intro hbig g hglt
  unfold MasksOf at hm
  rw [if_pos hbig] at hm
  rcases hm with ⟨hnum, hnumMask, hhigh⟩
  unfold setPriorityMask
  rw [if_pos hbig]
  simp only [hnum, hnumMask, hhigh, BitVec.getLsbD_or, getLsbD_one_shiftLeft, Bool.or_eq_true]
  by_cases hgp : g = p / 8
  · subst hgp
    rw [update_self]
    constructor
    · intro _
      rw [bits_ne_zero_iff]
      exists p % 8
      simp [Nat.mod_lt]
    · intro _
      simp [hglt]
  · rw [update_of_ne hgp, ← hg hbig g hglt]
    simp [Ne.symm hgp]

theorem setPriorityMask_readyBit {cfg : Config} {k : State} (hp : p < cfg.priorityMax)
    (hm : MasksOf cfg th p)
    (hg : GroupOk cfg k) (q : Nat) :
    readyBit cfg (setPriorityMask cfg k th) q = (readyBit cfg k q || decide (q = p)) := by
  have hp256 := cfg.priorityMax_le
  unfold MasksOf at hm
  unfold readyBit setPriorityMask
  by_cases hbig : 32 < cfg.priorityMax
  · rw [if_pos hbig] at hm
    rcases hm with ⟨hnum, hnumMask, hhigh⟩
    simp only [if_pos hbig, hnum, hnumMask, hhigh, BitVec.getLsbD_or, getLsbD_one_shiftLeft]
    by_cases hqp : q / 8 = p / 8
    · have hlt : p / 8 < 32 := by lia
      have hgroup := hg hbig (p / 8) hlt
      rw [hqp, update_self, BitVec.getLsbD_or, getLsbD_one_shiftLeft]
      -- a set table bit makes its byte non-zero, and so its group bit set
      cases hbit : (k.readyTable (p / 8)).getLsbD (q % 8) with
      | true =>
        have hset : k.readyPriorityGroup.getLsbD (p / 8) = true := by
          rw [hgroup, bits_ne_zero_iff]
          exact ⟨q % 8, Nat.mod_lt _ (by decide), hbit⟩
        simp [hset]
      | false =>
        have hmod8 : p % 8 < 8 := Nat.mod_lt _ (by decide)
        have hdec : decide (p % 8 = q % 8) = decide (q = p) :=
          decide_eq_decide.mpr (by lia)
        simp [hlt, hmod8, hdec]
    · have hne : q ≠ p := by
        intro heq
        exact hqp (by rw [heq])
      rw [update_of_ne hqp]
      simp [Ne.symm hqp, hne]
  · rw [if_neg hbig] at hm
    have hp32 : p < 32 := by lia
    have hdec : decide (p = q) = decide (q = p) :=
      decide_eq_decide.mpr eq_comm
    simp only [if_neg hbig, hm, BitVec.getLsbD_or, getLsbD_one_shiftLeft]
    simp [hp32, hdec]

theorem clearPriorityMask_readyBit {cfg : Config} {k : State} (hp : p < cfg.priorityMax)
    (hm : MasksOf cfg th p)
    {q : Nat} (hq : q < 256) :
    readyBit cfg (clearPriorityMask cfg k th) q = (readyBit cfg k q && decide (q ≠ p)) := by
  have hp256 := cfg.priorityMax_le
  unfold MasksOf at hm
  unfold readyBit clearPriorityMask
  by_cases hbig : 32 < cfg.priorityMax
  · rw [if_pos hbig] at hm
    rcases hm with ⟨hnum, hnumMask, hhigh⟩
    have hlt : p / 8 < 32 := by lia
    simp only [if_pos hbig, hnum, hnumMask, hhigh]
    by_cases hqp : q / 8 = p / 8
    · have hmod : q % 8 = p % 8 -> q = p := by lia
      have hq8 : q % 8 < 8 := Nat.mod_lt _ (by decide)
      have hp8 : p % 8 < 8 := Nat.mod_lt _ (by decide)
      split
      · rename_i hzero
        dsimp only
        -- the byte became zero: no other priority of its group was ready
        have hbit : (k.readyTable (p / 8) &&& ~~~(1#8 <<< (p % 8))).getLsbD (q % 8) = false := by
          rw [hzero]
          simp
        rw [BitVec.getLsbD_and, BitVec.getLsbD_not, getLsbD_one_shiftLeft] at hbit
        rw [hqp, update_self, hzero]
        cases htable : (k.readyTable (p / 8)).getLsbD (q % 8) with
        | false => simp
        | true =>
          rw [htable] at hbit
          have heq : p % 8 = q % 8 := by
            simpa [hq8, hp8] using hbit
          simp [hmod heq.symm]
      · dsimp only
        rw [hqp, update_self, BitVec.getLsbD_and, BitVec.getLsbD_not, getLsbD_one_shiftLeft]
        have hdec : decide (p % 8 = q % 8) = decide (q = p) :=
          decide_eq_decide.mpr (by lia)
        simp [hq8, hp8, hdec, Bool.and_assoc]
    · have hne : q ≠ p := by
        intro heq
        exact hqp (by rw [heq])
      have hq32 : q / 8 < 32 := by lia
      split
      · dsimp only
        rw [update_of_ne hqp, BitVec.getLsbD_and, BitVec.getLsbD_not, getLsbD_one_shiftLeft]
        simp [hq32, Ne.symm hqp, hne]
      · dsimp only
        rw [update_of_ne hqp]
        simp [hne]
  · rw [if_neg hbig] at hm
    have hp32 : p < 32 := by lia
    simp only [if_neg hbig, hm, BitVec.getLsbD_and, BitVec.getLsbD_not, getLsbD_one_shiftLeft]
    by_cases hq32 : q < 32
    · have hdec : decide (p = q) = decide (q = p) :=
        decide_eq_decide.mpr eq_comm
      simp [hq32, hp32, hdec]
    · rw [BitVec.getLsbD_of_ge _ _ (by lia)]
      simp

theorem clearPriorityMask_groupOk {cfg : Config} {k : State} (hp : p < cfg.priorityMax)
    (hm : MasksOf cfg th p)
    (hg : GroupOk cfg k) : GroupOk cfg (clearPriorityMask cfg k th) := by
  intro hbig g hglt
  have hp256 := cfg.priorityMax_le
  unfold MasksOf at hm
  rw [if_pos hbig] at hm
  rcases hm with ⟨hnum, hnumMask, hhigh⟩
  have hlt : p / 8 < 32 := by lia
  unfold clearPriorityMask
  simp only [if_pos hbig, hnum, hnumMask, hhigh]
  by_cases hgp : g = p / 8
  · subst hgp
    split
    · rename_i hzero
      dsimp only
      rw [update_self, BitVec.getLsbD_and, BitVec.getLsbD_not, getLsbD_one_shiftLeft, hzero]
      simp [hlt]
    · rename_i hzero
      dsimp only
      rw [update_self, hg hbig _ hlt]
      constructor
      · intro _
        exact hzero
      · intro _ hempty
        rw [hempty] at hzero
        simp at hzero
  · split
    · dsimp only
      rw [update_of_ne hgp, ← hg hbig g hglt, BitVec.getLsbD_and,
        BitVec.getLsbD_not, getLsbD_one_shiftLeft]
      simp [hglt, Ne.symm hgp]
    · dsimp only
      rw [update_of_ne hgp]
      exact hg hbig g hglt

/-!
## The invariant

The list part speaks of the links, the bitmap and the priorities of linked
threads; it survives any change to the control block of a thread that is linked
nowhere.  The thread part speaks of one control block at a time.
-/

/-- The links represent these lists, and the bitmap and the priorities of their
members agree with them. -/
structure ReadyLists (cfg : Config) (k : State)
    (lists : ListHead -> List Tid) : Prop where
  family : Family k.links lists
  group : GroupOk cfg k
  bitmap : forall p, p < 256 ->
    (readyBit cfg k p = true <-> lists (ListHead.ready p) ≠ [])
  bounded : forall p, cfg.priorityMax ≤ p -> lists (ListHead.ready p) = []
  place : forall p t, t ∈ lists (ListHead.ready p) ->
    (k.thread t).currentPriority = p

/-- One control block agrees with where its thread is linked. -/
structure ThreadOk (cfg : Config) (lists : ListHead -> List Tid) (t : Tid)
    (th : Thread) : Prop where
  ready : th.stat = ThreadStat.ready ->
    t ∈ lists (ListHead.ready th.currentPriority)
  linked : forall p, t ∈ lists (ListHead.ready p) -> th.stat = ThreadStat.ready
  defunct : t ∈ lists ListHead.defunct -> th.stat = ThreadStat.close
  masks : th.stat ≠ ThreadStat.init -> MasksOf cfg th th.currentPriority
  timer : th.timer.linked = true ->
    th.stat = ThreadStat.suspend ∧ th.timer.activated = true

structure Consistent (cfg : Config) (k : State)
    (lists : ListHead -> List Tid) : Prop where
  listsOk : ReadyLists cfg k lists
  threadOk : forall t, ThreadOk cfg lists t (k.thread t)
  current : forall t, k.currentThread = some t ->
    (k.thread t).stat ≠ ThreadStat.init

variable {cfg : Config} {k k' : State} {lists : ListHead -> List Tid}

theorem ThreadOk.free (hth : ThreadOk cfg lists t th)
    (hready : th.stat ≠ ThreadStat.ready) (hclose : th.stat ≠ ThreadStat.close) :
    forall h, t ∉ lists h := by
  intro h hin
  cases h with
  | ready p => exact hready (hth.linked p hin)
  | defunct => exact hclose (hth.defunct hin)

theorem ThreadOk.congr {lists' : ListHead -> List Tid} (hth : ThreadOk cfg lists t th)
    (hsame : forall h, t ∈ lists' h <-> t ∈ lists h) :
    ThreadOk cfg lists' t th := by
  constructor
  · intro hstat
    exact (hsame _).mpr (hth.ready hstat)
  · intro p hin
    exact hth.linked p ((hsame _).mp hin)
  · intro hin
    exact hth.defunct ((hsame _).mp hin)
  · exact hth.masks
  · exact hth.timer

theorem threadOk_of_free (hfree : forall h, t ∉ lists h) (hready : th.stat ≠ ThreadStat.ready)
    (hmasks : th.stat ≠ ThreadStat.init -> MasksOf cfg th th.currentPriority)
    (htimer : th.timer.linked = true -> th.stat = ThreadStat.suspend ∧
      th.timer.activated = true) :
    ThreadOk cfg lists t th := by
  constructor
  · intro hstat
    exact absurd hstat hready
  · intro p hin
    exact absurd hin (hfree _)
  · intro hin
    exact absurd hin (hfree _)
  · exact hmasks
  · exact htimer

theorem ReadyLists.congr (hl : ReadyLists cfg k lists) (hlinks : k'.links = k.links)
    (hgroup : k'.readyPriorityGroup = k.readyPriorityGroup)
    (htable : k'.readyTable = k.readyTable)
    (hthread : forall p t, t ∈ lists (ListHead.ready p) ->
      (k'.thread t).currentPriority = (k.thread t).currentPriority) :
    ReadyLists cfg k' lists := by
  constructor
  · rw [hlinks]
    exact hl.family
  · unfold GroupOk
    rw [hgroup, htable]
    exact hl.group
  · unfold readyBit
    rw [hgroup, htable]
    exact hl.bitmap
  · exact hl.bounded
  · intro p t hin
    rw [hthread p t hin]
    exact hl.place p t hin

theorem ReadyLists.setThread (hl : ReadyLists cfg k lists) (hprio : (forall h, t ∉ lists h) ∨
      th.currentPriority = (k.thread t).currentPriority) :
    ReadyLists cfg (k.setThread t th) lists := by
  refine hl.congr rfl rfl rfl ?_
  intro p t' hin
  show (update k.thread t th t').currentPriority = _
  by_cases ht : t' = t
  · subst ht
    rw [update_self]
    rcases hprio with hfree | heq
    · exact absurd hin (hfree _)
    · exact heq
  · rw [update_of_ne ht]

/-!
## Insertion and removal
-/

theorem mem_update_append {h' : ListHead} (hne : x ≠ t) :
    x ∈ update lists h (lists h ++ [t]) h' <-> x ∈ lists h' := by
  by_cases hh : h' = h
  · subst hh
    simp [hne]
  · rw [update_of_ne hh]

theorem mem_update_cons {h' : ListHead} (hne : x ≠ t) :
    x ∈ update lists h (t :: lists h) h' <-> x ∈ lists h' := by
  by_cases hh : h' = h
  · subst hh
    simp [hne]
  · rw [update_of_ne hh]

theorem insert_lists (hl : ReadyLists cfg k lists) (hfree : forall h, t ∉ lists h)
    (hmasks : MasksOf cfg (k.thread t) (k.thread t).currentPriority)
    (hins : rtScheduleInsertThread cfg k t = some k') :
    ReadyLists cfg k' (update lists (ListHead.ready (k.thread t).currentPriority)
      (lists (ListHead.ready (k.thread t).currentPriority) ++ [t])) ∧
    k'.thread = update k.thread t { k.thread t with stat := ThreadStat.ready } := by
  unfold rtScheduleInsertThread at hins
  by_cases hp : (k.thread t).currentPriority < cfg.priorityMax
  · rw [if_pos hp] at hins
    cases hins
    have hlinks : forall k0 : State, (setPriorityMask cfg k0 (k.thread t)).links = k0.links := by
      intro k0
      unfold setPriorityMask
      split <;> rfl
    have hthread : forall k0 : State, (setPriorityMask cfg k0 (k.thread t)).thread = k0.thread := by
      intro k0
      unfold setPriorityMask
      split <;> rfl
    constructor
    · constructor
      · rw [hlinks]
        exact hl.family.insertBefore hfree
      · exact setPriorityMask_groupOk hmasks hl.group
      · intro q hq
        rw [setPriorityMask_readyBit hp hmasks]
        · by_cases hqp : q = (k.thread t).currentPriority
          · subst hqp
            simp
          · have hne : ListHead.ready q ≠ ListHead.ready (k.thread t).currentPriority := by
              simpa using hqp
            rw [update_of_ne hne, ← hl.bitmap q hq]
            simp only [hqp, decide_false, Bool.or_false]
            exact Iff.rfl
        · exact hl.group
      · intro q hq
        have hne : ListHead.ready q ≠ ListHead.ready (k.thread t).currentPriority := by
          intro heq
          cases heq
          exact absurd hp (Nat.not_lt.mpr hq)
        rw [update_of_ne hne]
        exact hl.bounded q hq
      · intro q t' hin
        rw [hthread]
        show (update k.thread t _ t').currentPriority = q
        by_cases ht : t' = t
        · subst ht
          rw [update_self]
          by_cases hqp : ListHead.ready q = ListHead.ready (k.thread t').currentPriority
          · cases hqp
            rfl
          · rw [update_of_ne hqp] at hin
            exact absurd hin (hfree _)
        · rw [update_of_ne ht]
          exact hl.place q t' ((mem_update_append ht).mp hin)
    · exact hthread _
  · rw [if_neg hp] at hins
    cases hins

theorem clearPriorityMask_links (k : State) (th : Thread) :
    (clearPriorityMask cfg k th).links = k.links := by
  unfold clearPriorityMask
  split
  · dsimp only
    split <;> rfl
  · rfl

theorem clearPriorityMask_thread (k : State) (th : Thread) :
    (clearPriorityMask cfg k th).thread = k.thread := by
  unfold clearPriorityMask
  split
  · dsimp only
    split <;> rfl
  · rfl

theorem clearPriorityMask_currentThread (k : State) (th : Thread) :
    (clearPriorityMask cfg k th).currentThread = k.currentThread := by
  unfold clearPriorityMask
  split
  · dsimp only
    split <;> rfl
  · rfl

/-- What `rt_schedule_remove_thread` did: it unlinked the thread, and cleared the
masks of the thread when its ready list is empty. -/
theorem remove_cases (hrem : rtScheduleRemoveThread cfg k t = some k') :
    (k.thread t).currentPriority < cfg.priorityMax ∧
      ((rtListIsempty (rtListRemove k.links (Node.member t))
          (Node.head (ListHead.ready (k.thread t).currentPriority)) = true ∧
        (32 < cfg.priorityMax -> (k.thread t).number < 32) ∧
        k' = clearPriorityMask cfg
          { k with links := rtListRemove k.links (Node.member t) } (k.thread t)) ∨
      (rtListIsempty (rtListRemove k.links (Node.member t))
          (Node.head (ListHead.ready (k.thread t).currentPriority)) = false ∧
        k' = { k with links := rtListRemove k.links (Node.member t) })) := by
  unfold rtScheduleRemoveThread at hrem
  simp only at hrem
  split at hrem
  · rename_i hp
    refine ⟨hp, ?_⟩
    split at hrem
    · rename_i hempty
      split at hrem
      · cases hrem
      · rename_i hindex
        push Not at hindex
        exact Or.inl ⟨hempty, hindex, (Option.some.inj hrem).symm⟩
    · rename_i hempty
      exact Or.inr ⟨by simpa using hempty, (Option.some.inj hrem).symm⟩
  · cases hrem

theorem remove_thread (hrem : rtScheduleRemoveThread cfg k t = some k') : k'.thread = k.thread := by
  rcases (remove_cases hrem).right with ⟨_, _, heq⟩ | ⟨_, heq⟩
  · rw [heq, clearPriorityMask_thread]
  · rw [heq]

theorem remove_links (hrem : rtScheduleRemoveThread cfg k t = some k') :
    k'.links = rtListRemove k.links (Node.member t) := by
  rcases (remove_cases hrem).right with ⟨_, _, heq⟩ | ⟨_, heq⟩
  · rw [heq, clearPriorityMask_links]
  · rw [heq]

theorem remove_currentThread (hrem : rtScheduleRemoveThread cfg k t = some k') :
    k'.currentThread = k.currentThread := by
  rcases (remove_cases hrem).right with ⟨_, _, heq⟩ | ⟨_, heq⟩
  · rw [heq, clearPriorityMask_currentThread]
  · rw [heq]

theorem ReadyLists.removed (hl : ReadyLists cfg k lists)
    (hlinks : k'.links = rtListRemove k.links (Node.member t))
    (hthread : k'.thread = k.thread) (hgroup : GroupOk cfg k')
    (hbitmap : forall p, p < 256 -> (readyBit cfg k' p = true <->
      (lists (ListHead.ready p)).erase t ≠ [])) :
    ReadyLists cfg k' (fun h => (lists h).erase t) := by
  constructor
  · rw [hlinks]
    exact hl.family.remove t
  · exact hgroup
  · exact hbitmap
  · intro q hq
    rw [hl.bounded q hq]
    rfl
  · intro q t' hin
    rw [hthread]
    exact hl.place q t' (List.mem_of_mem_erase hin)

theorem remove_lists (hl : ReadyLists cfg k lists)
    (hmasks : MasksOf cfg (k.thread t) (k.thread t).currentPriority)
    (hrem : rtScheduleRemoveThread cfg k t = some k') :
    ReadyLists cfg k' (fun h => (lists h).erase t) ∧ k'.thread = k.thread := by
  have herase : forall q, q ≠ (k.thread t).currentPriority ->
      (lists (ListHead.ready q)).erase t = lists (ListHead.ready q) := by
    intro q hq
    apply List.erase_of_not_mem
    intro hin
    exact hq (hl.place q t hin).symm
  have hempty := (hl.family.remove t).isempty_iff (ListHead.ready (k.thread t).currentPriority)
  have hthread := remove_thread hrem
  have hlinks := remove_links hrem
  refine ⟨?_, hthread⟩
  rcases remove_cases hrem with ⟨hp, ⟨hisempty, _, heq⟩ | ⟨hisempty, heq⟩⟩
  · apply hl.removed hlinks hthread
    · rw [heq]
      exact clearPriorityMask_groupOk hp hmasks hl.group
    · intro q hq
      rw [heq, clearPriorityMask_readyBit hp hmasks hq]
      by_cases hqp : q = (k.thread t).currentPriority
      · subst hqp
        rw [hempty.mp hisempty]
        simp
      · rw [herase q hqp, ← hl.bitmap q hq]
        simp only [hqp, ne_eq, not_false_eq_true, decide_true, Bool.and_true]
        exact Iff.rfl
  · apply hl.removed hlinks hthread
    · rw [heq]
      exact hl.group
    · intro q hq
      rw [heq]
      show readyBit cfg k q = true <-> _
      rw [hl.bitmap q hq]
      by_cases hqp : q = (k.thread t).currentPriority
      · subst hqp
        have hne : (lists (ListHead.ready (k.thread t).currentPriority)).erase t ≠ [] := by
          intro hnil
          rw [hempty.mpr hnil] at hisempty
          cases hisempty
        constructor
        · intro _
          exact hne
        · intro _ hnil
          apply hne
          rw [hnil]
          rfl
      · rw [herase q hqp]

theorem ReadyLists.insertDefunct (hl : ReadyLists cfg k lists) (hfree : forall h, t ∉ lists h) :
    ReadyLists cfg { k with
        links := rtListInsertAfter k.links (Node.head ListHead.defunct) (Node.member t) }
      (update lists ListHead.defunct (t :: lists ListHead.defunct)) := by
  have hready : forall p, update lists ListHead.defunct
      (t :: lists ListHead.defunct) (ListHead.ready p) = lists (ListHead.ready p) := by
    intro p
    exact update_of_ne (by simp) ..
  constructor
  · exact hl.family.insertAfter hfree
  · exact hl.group
  · intro p hp
    exact hl.bitmap p hp
  · intro p hp
    exact hl.bounded p hp
  · intro p x hx
    exact hl.place p x hx

theorem not_mem_erase_all (hf : Family k.links lists) (t : Tid) :
    forall h, t ∉ (lists h).erase t := by
  intro h hin
  exact (List.Nodup.mem_erase_iff (hf.nodup h)).mp hin |>.left rfl

theorem mem_erase_all (hne : x ≠ t) : x ∈ (lists h).erase t <-> x ∈ lists h :=
  List.mem_erase_of_ne hne

end RtThread.Kernel
