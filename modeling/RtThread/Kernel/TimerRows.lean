import RtThread.Kernel.Timer
import RtThread.Library.SkipRows

/-!
# The rows of the timer lists

The pointer structure of the skip lists, whatever the order of the timeouts: every row represents
two lists, and is part of the row below. Removal erases a timer from all rows. Insertion splits
each row where its walk stopped; the walk in the row below starts there.
-/

namespace RtThread.Kernel.Timer

open LinkRing
open Function (update update_eq_self_iff update_of_ne update_self)
open SkipRows

abbrev RowLists := Nat -> TimerList -> List TimerId

structure Wired (c : SkipConfig) (rows : Rows) (lists : RowLists) : Prop where
  family : forall i, i < c.level -> Family (rows i) (lists i)
  below : forall i h, i + 1 < c.level ->
    (lists i h).Sublist (lists (i + 1) h)

theorem SkipConfig.bottom_lt (c : SkipConfig) : c.bottom < c.level :=
  Nat.sub_lt c.level_pos Nat.one_pos

theorem SkipConfig.lt_level_iff (c : SkipConfig) {i : Nat} : i < c.level <-> i ≤ c.bottom := by
  have hpos := c.level_pos
  unfold SkipConfig.bottom
  omega

section Wired

variable {c : SkipConfig} {rows rows' : Rows} {lists : RowLists} {t x : TimerId}
  {h : TimerList}

theorem Wired.sublist_bottom (hw : Wired c rows lists) {i : Nat}
    (hi : i < c.level) (h : TimerList) :
    (lists i h).Sublist (lists c.bottom h) := by
  have hstep : forall k, i + k < c.level -> (lists i h).Sublist (lists (i + k) h) := by
    intro k
    induction k with
    | zero => exact fun _ => List.Sublist.refl _
    | succ k ih =>
      intro hk
      exact (ih (Nat.lt_of_succ_lt hk)).trans (hw.below (i + k) h hk)
  have heq : i + (c.bottom - i) = c.bottom :=
    Nat.add_sub_cancel' (c.lt_level_iff.mp hi)
  have hlast := hstep (c.bottom - i)
  rw [heq] at hlast
  exact hlast c.bottom_lt

theorem Wired.free (hw : Wired c rows lists) (ht : forall h, t ∉ lists c.bottom h)
    {i : Nat} (hi : i < c.level) (h : TimerList) : t ∉ lists i h :=
  fun hin => ht h ((hw.sublist_bottom hi h).subset hin)

theorem Wired.bottomFamily (hw : Wired c rows lists) : Family (rows c.bottom) (lists c.bottom) :=
  hw.family c.bottom c.bottom_lt

theorem Wired.first (hw : Wired c rows lists) (h : TimerList) :
    (skipList c).first rows h = (lists c.bottom h).head? := by
  cases hl : lists c.bottom h with
  | nil =>
    have hnext := hw.bottomFamily.next_head_nil hl
    simp [skipList, hnext]
  | cons t rest =>
    have hnext := hw.bottomFamily.next_head_cons hl
    simp [skipList, hnext]

theorem Wired.linked_iff {s : State Rows} (hw : Wired c s.lists lists) :
    c.Linked s t <-> exists h, t ∈ lists c.bottom h := by
  have halone := hw.bottomFamily.member_alone_iff t
  unfold SkipConfig.Linked rtListIsempty
  rw [beq_eq_false_iff_ne, Ne, halone]
  push Not
  rfl

/-!
## Removal
-/

theorem Wired.remove (hw : Wired c rows lists) (t : TimerId) :
    Wired c ((skipList c).remove rows t) (fun i h => (lists i h).erase t) := by
  constructor
  · intro i hi
    have hrow : (skipList c).remove rows t i = rtListRemove (rows i) (Node.member t) := if_pos hi
    rw [hrow]
    exact (hw.family i hi).remove t
  · intro i h hi
    exact (hw.below i h hi).erase t

theorem Wired.init (hw : Wired c rows lists) (hfree : forall h, t ∉ lists c.bottom h) :
    Wired c ((skipList c).init rows t) lists := by
  constructor
  · intro i hi
    have hrow : (skipList c).init rows t i = rtListInit (rows i) (Node.member t) := if_pos hi
    have hself := ring_nil_iff.mp ((hw.family i hi).alone t (hw.free hfree hi))
    -- the node of an unlinked timer already points at itself
    have hsame : rtListInit (rows i) (Node.member t) = rows i := by
      unfold rtListInit Links.setNext Links.setPrev
      rw [← hself.left, hself.left, update_eq_self_iff.mpr hself.left.symm,
        update_eq_self_iff.mpr hself.right.symm]
    rw [hrow, hsame]
    exact hw.family i hi
  · exact hw.below

end Wired

/-!
## The walk
-/

section Walk

variable (timeout : TimerId -> Tick) (t : TimerId) {h : TimerList}

theorem walkRow_eq {row : Links RowNode} {lists : TimerList -> List TimerId}
    (hf : Family row lists) {xs ys : List TimerId} {fuel : Nat}
    (hl : lists h = xs ++ ys) (hfuel : ys.length < fuel) :
    walkRow row timeout h t fuel (lastNode h xs) = some (lastNode h
        (xs ++ ys.takeWhile fun x => decide (GoesBehind timeout t x))) := by
  induction ys generalizing xs fuel with
  | nil =>
    cases fuel with
    | zero => cases hfuel
    | succ fuel =>
      have hprev := (hf.ring h).prev_head
      rw [hl, List.append_nil] at hprev
      have hstop : lastNode h xs = row.prev (Node.head h) := hprev.symm
      rw [walkRow, if_pos hstop, List.takeWhile_nil, List.append_nil]
  | cons y ys ih =>
    cases fuel with
    | zero => cases hfuel
    | succ fuel =>
      have hring := hf.ring h
      rw [hl, List.map_append] at hring
      -- the last node of the row is behind this one
      have hgo : lastNode h xs ≠ row.prev (Node.head h) := by
        rw [hring.prev_head]
        intro heq
        have hnd := hring.nodup
        rw [← List.cons_append] at hnd
        refine (List.nodup_append.mp hnd).right.right _ (lastNode_mem h xs) _ ?_ heq
        rw [List.getLast_cons (by simp), List.getLast_append_of_ne_nil (by simp)]
        exact List.getLast_mem (by simp)
      have hnext := hf.next_lastNode hl
      simp only [List.map_cons, List.cons_append, List.head_cons] at hnext
      rw [walkRow, if_neg hgo, hnext]
      by_cases hp : GoesBehind timeout t y
      · have hrest := @ih (xs ++ [y]) fuel
          (by rw [hl, List.append_assoc]; rfl) (Nat.lt_of_succ_lt_succ hfuel)
        rw [lastNode_concat] at hrest
        simp only [hp, if_true, List.takeWhile_cons, decide_true, hrest,
          List.append_assoc, List.cons_append, List.nil_append]
      · simp only [hp, if_false, List.takeWhile_cons, decide_false,
          Bool.false_eq_true, List.append_nil]

def RowCut (l xs ys : List TimerId) : Prop :=
  Cut (fun x => decide (GoesBehind timeout t x)) l xs ys

theorem lastNode_congr {xs ys : List TimerId} (hlast : xs.getLast? = ys.getLast?) :
    lastNode h xs = lastNode h ys := by
  unfold lastNode
  apply Option.some.inj
  rw [← List.getLast?_eq_some_getLast, ← List.getLast?_eq_some_getLast,
    List.getLast?_cons, List.getLast?_cons, List.getLast?_map, List.getLast?_map,
    hlast]

variable {c : SkipConfig} {rows : Rows} {lists : RowLists} {fuel : Nat}

theorem Wired.rowHead_cut (hw : Wired c rows lists)
    (hfuel : (lists c.bottom h).length < fuel) (n : Nat) (hn : n ≤ c.level) :
    exists xs ys : Nat -> List TimerId, forall i, i < n ->
      RowCut timeout t (lists i h) (xs i) (ys i) ∧
      rowHead rows timeout h t fuel i = some (lastNode h (xs i)) ∧
      (i + 1 < n -> (xs i).Sublist (xs (i + 1)) ∧ (ys i).Sublist (ys (i + 1))) := by
  induction n with
  | zero => exact ⟨fun _ => [], fun _ => [], fun i hi => absurd hi (Nat.not_lt_zero i)⟩
  | succ n ih =>
    rcases ih (Nat.le_of_succ_le hn) with ⟨xs, ys, hcuts⟩
    have hshort : (lists n h).length < fuel :=
      Nat.lt_of_le_of_lt (hw.sublist_bottom hn h).length_le hfuel
    -- the cut of row `n`, around the cut of the row above if there is one
    have hrow : exists as bs, RowCut timeout t (lists n h) as bs ∧
        rowHead rows timeout h t fuel n = some (lastNode h as) ∧
        (forall i, i + 1 = n -> (xs i).Sublist as ∧ (ys i).Sublist bs) := by
      cases n with
      | zero =>
        have hwalk := walkRow_eq timeout t
          (hw.family 0 hn) (List.nil_append (lists 0 h)).symm hshort
        have hcut : RowCut timeout t ([] ++ lists 0 h) _ _ :=
          cut_takeWhile (by simp)
        exact ⟨_, _, hcut, hwalk, by simp⟩
      | succ n =>
        rcases hcuts n (Nat.lt_succ_self n) with ⟨hcut, hhead, _⟩
        rcases hcut.descend (hw.below n h hn) ((hw.family _ hn).nodup h) with
          ⟨as, bs, hsplit, hlast, hxs, hys⟩
        have hroom : bs.length < fuel := by
          apply Nat.lt_of_le_of_lt _ hshort
          rw [hsplit, List.length_append]
          exact Nat.le_add_left _ _
        have hwalk := walkRow_eq timeout t (hw.family _ hn) hsplit hroom
        rcases hcut.below hlast hxs hys with ⟨hcut', hxs', hys'⟩
        rw [← hsplit] at hcut'
        refine ⟨_, _, hcut', ?_, ?_⟩
        · rw [rowHead, hhead, lastNode_congr hlast.symm]
          exact hwalk
        · intro i hi
          cases hi
          exact ⟨hxs', hys'⟩
    rcases hrow with ⟨as, bs, hcut, hhead, haround⟩
    refine ⟨update xs n as, update ys n bs, ?_⟩
    intro i hi
    rcases Nat.lt_succ_iff_lt_or_eq.mp hi with hlt | heq
    · rcases hcuts i hlt with ⟨hcut', hhead', hnext⟩
      rw [update_of_ne (Nat.ne_of_lt hlt), update_of_ne (Nat.ne_of_lt hlt)]
      refine ⟨hcut', hhead', ?_⟩
      intro _
      by_cases hlast : i + 1 = n
      · rw [hlast, update_self, update_self]
        exact haround i hlast
      · rw [update_of_ne hlast, update_of_ne hlast]
        exact hnext (Nat.lt_of_le_of_ne hlt hlast)
    · subst heq
      rw [update_self, update_self]
      exact ⟨hcut, hhead, fun hlt => absurd hlt (Nat.lt_irrefl _)⟩

end Walk

/-!
## Insertion
-/

/-- The rows with `t` linked behind `n i` in the rows from `k` below `m`. -/
def linkedFrom (rows : Rows) (n : Nat -> RowNode) (t : TimerId) (k m : Nat) : Rows :=
  fun i =>
    if k ≤ i ∧ i < m then rtListInsertAfter (rows i) (n i) (Node.member t)
    else rows i

theorem insertAbove_eq {mask : BitVec 32} {heads : Nat -> Option RowNode}
    {t : TimerId} {n : Nat -> RowNode} {i : Nat} {tstNr : BitVec 32} {rows : Rows}
    (hheads : forall j, j < i -> heads j = some (n j)) :
    exists k, k ≤ i ∧ insertAbove mask heads t i tstNr rows =
      some (linkedFrom rows n t k i) := by
  induction i generalizing tstNr rows with
  | zero =>
    refine ⟨0, Nat.le_refl 0, ?_⟩
    have hnone : linkedFrom rows n t 0 0 = rows := by
      funext j
      simp [linkedFrom]
    rw [insertAbove, hnone]
  | succ i ih =>
    rw [insertAbove]
    split
    · rw [hheads i (Nat.lt_succ_self i)]
      rcases @ih (tstNr >>> ((mask.toNat + 1) / 2)) (insertRow rows i (n i) t)
        (fun j hj => hheads j (Nat.lt_succ_of_lt hj)) with ⟨k, hk, heq⟩
      refine ⟨k, Nat.le_succ_of_le hk, ?_⟩
      refine heq.trans ?_
      congr 1
      funext j
      unfold linkedFrom insertRow
      rcases Nat.lt_trichotomy j i with hlt | heq | hgt
      · rw [update_of_ne (Nat.ne_of_lt hlt)]
        simp [hlt, Nat.lt_succ_of_lt hlt]
      · subst heq
        simp [hk]
      · rw [update_of_ne (Nat.ne_of_gt hgt)]
        simp [Nat.not_lt.mpr (Nat.le_of_lt hgt), Nat.not_lt.mpr hgt]
    · refine ⟨i + 1, Nat.le_refl _, ?_⟩
      congr 1
      funext j
      unfold linkedFrom
      rw [if_neg]
      rintro ⟨hle, hlt⟩
      exact Nat.not_lt.mpr hle hlt

section Insert

variable {timeout : TimerId -> Tick} {h : TimerList} {t : TimerId}
  {c : SkipConfig} {rows : Rows} {lists : RowLists} {fuel : Nat}

/-- What an insertion makes of the lists: each row from `k` downwards is cut and
the timer put in between. -/
structure Inserted (c : SkipConfig) (timeout : TimerId -> Tick) (h : TimerList)
    (t : TimerId) (lists lists' : RowLists) : Prop where
  other : forall i h', h' ≠ h -> lists' i h' = lists i h'
  here : forall i, i < c.level -> lists' i h = lists i h ∨
    exists xs ys, RowCut timeout t (lists i h) xs ys ∧ lists' i h = xs ++ t :: ys
  bottom : exists xs ys, RowCut timeout t (lists c.bottom h) xs ys ∧
    lists' c.bottom h = xs ++ t :: ys

theorem Wired.insert (hw : Wired c rows lists) (timeout : TimerId -> Tick)
    (hfree : forall h, t ∉ lists c.bottom h)
    (hfuel : (lists c.bottom h).length < fuel) (randomNr : BitVec 32) :
    exists rows' lists', (skipList c).insert rows timeout h t randomNr fuel = some rows' ∧
      Wired c rows' lists' ∧ Inserted c timeout h t lists lists' := by
  rcases hw.rowHead_cut timeout t hfuel c.level (Nat.le_refl _) with ⟨xs, ys, hcuts⟩
  have hheads : forall j, j < c.bottom ->
      rowHead rows timeout h t fuel j = some (lastNode h (xs j)) := by
    intro j hj
    exact (hcuts j (Nat.lt_trans hj c.bottom_lt)).right.left
  rcases @insertAbove_eq c.mask _ t (fun j => lastNode h (xs j)) c.bottom randomNr
    (insertRow rows c.bottom (lastNode h (xs c.bottom)) t) hheads with ⟨k, hk, heq⟩
  -- the bottom row and the rows above it in one form
  let rows' := linkedFrom rows (fun j => lastNode h (xs j)) t k c.level
  let lists' : RowLists := fun i =>
    if k ≤ i then update (lists i) h (xs i ++ t :: ys i) else lists i
  have hrows : linkedFrom (insertRow rows c.bottom (lastNode h (xs c.bottom)) t)
      (fun j => lastNode h (xs j)) t k c.bottom = rows' := by
    funext i
    show linkedFrom _ _ t k c.bottom i = linkedFrom _ _ t k c.level i
    unfold linkedFrom insertRow
    rcases Nat.lt_trichotomy i c.bottom with hlt | heq | hgt
    · rw [update_of_ne (Nat.ne_of_lt hlt)]
      simp [hlt, Nat.lt_trans hlt c.bottom_lt]
    · subst heq
      simp [hk, c.bottom_lt]
    · have hout : ¬ i < c.level := by
        rw [c.lt_level_iff]
        exact Nat.not_le.mpr hgt
      rw [update_of_ne (Nat.ne_of_gt hgt)]
      simp [hout, Nat.not_lt.mpr (Nat.le_of_lt hgt)]
  refine ⟨rows', lists', ?_, ?_, ?_⟩
  · unfold skipList
    dsimp only
    rw [(hcuts c.bottom c.bottom_lt).right.left, ← hrows]
    exact heq
  · constructor
    · intro i hi
      have hsplit := (hcuts i hi).left.split
      show Family (linkedFrom _ _ t k c.level i) (if k ≤ i then _ else _)
      unfold linkedFrom
      by_cases hki : k ≤ i
      · rw [if_pos ⟨hki, hi⟩, if_pos hki]
        exact (hw.family i hi).insertAfterLast hsplit (hw.free hfree hi)
      · rw [if_neg fun hboth => hki hboth.left, if_neg hki]
        exact hw.family i hi
    · intro i h' hi
      have hlt := Nat.lt_of_succ_lt hi
      have hnext := (hcuts i hlt).right.right hi
      show ((if k ≤ i then _ else lists i) h').Sublist
        ((if k ≤ i + 1 then _ else lists (i + 1)) h')
      by_cases hh : h' = h
      · subst hh
        by_cases hki : k ≤ i
        · rw [if_pos hki, if_pos (Nat.le_succ_of_le hki), update_self, update_self]
          exact hnext.left.append (hnext.right.cons_cons t)
        · rw [if_neg hki]
          by_cases hki' : k ≤ i + 1
          · rw [if_pos hki', update_self, (hcuts i hlt).left.split]
            exact hnext.left.append (hnext.right.cons t)
          · rw [if_neg hki']
            exact hw.below i h' hi
      · have hsame : forall j, (if k ≤ j then
            update (lists j) h (xs j ++ t :: ys j) else lists j) h' =
            lists j h' := by
          intro j
          by_cases hkj : k ≤ j
          · rw [if_pos hkj, update_of_ne hh]
          · rw [if_neg hkj]
        rw [hsame, hsame]
        exact hw.below i h' hi
  · have hhere : forall i, k ≤ i -> lists' i h = xs i ++ t :: ys i := by
      intro i hki
      show (if k ≤ i then update (lists i) h (xs i ++ t :: ys i) else lists i) h = _
      rw [if_pos hki, update_self]
    constructor
    · intro i h' hh
      show (if k ≤ i then update (lists i) h (xs i ++ t :: ys i) else lists i) h' = _
      by_cases hki : k ≤ i
      · rw [if_pos hki, update_of_ne hh]
      · rw [if_neg hki]
    · intro i hi
      by_cases hki : k ≤ i
      · exact Or.inr ⟨xs i, ys i, (hcuts i hi).left, hhere i hki⟩
      · apply Or.inl
        show (if k ≤ i then update (lists i) h (xs i ++ t :: ys i) else lists i) h = _
        rw [if_neg hki]
    · exact ⟨xs c.bottom, ys c.bottom, (hcuts c.bottom c.bottom_lt).left, hhere c.bottom hk⟩

theorem Inserted.mem_bottom {lists' : RowLists}
    (hi : Inserted c timeout h t lists lists') {x : TimerId} {h' : TimerList} :
    x ∈ lists' c.bottom h' <-> x ∈ lists c.bottom h' ∨ x = t ∧ h' = h := by
  by_cases hh : h' = h
  · subst hh
    rcases hi.bottom with ⟨xs, ys, hcut, heq⟩
    rw [heq, hcut.split]
    simp only [List.mem_append, List.mem_cons, and_true]
    tauto
  · rw [hi.other _ _ hh]
    simp [hh]

theorem Inserted.length_bottom {lists' : RowLists}
    (hi : Inserted c timeout h t lists lists') (h' : TimerList) :
    (lists' c.bottom h').length ≤ (lists c.bottom h').length + 1 := by
  by_cases hh : h' = h
  · subst hh
    rcases hi.bottom with ⟨xs, ys, hcut, heq⟩
    rw [heq, hcut.split]
    simp [Nat.add_assoc]
  · rw [hi.other _ _ hh]
    exact Nat.le_succ _

end Insert

/-!
## The functions of the source on sound rows
-/

/-- The rows are in shape, hold no more timers than were started, and every timer
is in the list of its kind. -/
structure Sound (c : SkipConfig) (s : State Rows) (lists : RowLists) : Prop where
  wired : Wired c s.lists lists
  few : forall h, (lists c.bottom h).length ≤ s.starts
  placed : forall h x, x ∈ lists c.bottom h -> h = (s.timer x).list

section Sound

variable {c : SkipConfig} {s s' : State Rows} {lists : RowLists} {t : TimerId}

theorem Sound.congr (hs : Sound c s lists) (hlists : s'.lists = s.lists)
    (hstarts : s'.starts = s.starts)
    (hkind : forall x, (s'.timer x).list = (s.timer x).list) :
    Sound c s' lists := by
  constructor
  · rw [hlists]
    exact hs.wired
  · rw [hstarts]
    exact hs.few
  · intro h x hx
    rw [hkind x]
    exact hs.placed h x hx

theorem State.setTimer_kind {L : Type} {s : State L} {r : RtTimer}
    (hr : r.list = (s.timer t).list) (x : TimerId) :
    ((s.setTimer t r).timer x).list = (s.timer x).list := by
  rw [State.setTimer_timer]
  by_cases hx : x = t
  · subst hx
    rw [update_self, hr]
  · rw [update_of_ne hx]

theorem Sound.setTimer (hs : Sound c s lists) {r : RtTimer}
    (hr : r.list = (s.timer t).list) : Sound c (s.setTimer t r) lists :=
  hs.congr rfl rfl (State.setTimer_kind hr)

theorem Sound.setActivated (hs : Sound c s lists) (b : Bool) : Sound c (s.setActivated t b) lists :=
  hs.setTimer rfl

theorem Sound.remove (hs : Sound c s lists) (t : TimerId) :
    Sound c (rtTimerRemove (skipList c) s t) (fun i h => (lists i h).erase t) := by
  constructor
  · exact hs.wired.remove t
  · intro h
    exact Nat.le_trans List.length_erase_le (hs.few h)
  · intro h x hx
    exact hs.placed h x (List.mem_of_mem_erase hx)

theorem Sound.mem_erase (hs : Sound c s lists) {i : Nat} (hi : i < c.level)
    {h : TimerList} {x : TimerId} :
    x ∈ (lists i h).erase t <-> x ≠ t ∧ x ∈ lists i h :=
  ((hs.wired.family i hi).nodup h).mem_erase_iff

theorem rtTimerArm_kind {L : Type} {ops : ListOps L} {s : State L} (x : TimerId) :
    ((rtTimerArm ops s t).timer x).list = (s.timer x).list := by
  unfold rtTimerArm
  refine (State.setTimer_kind (by rfl) x).trans ?_
  exact State.setTimer_kind (by rfl) x

theorem Sound.arm (hs : Sound c s lists) (t : TimerId) :
    Sound c (rtTimerArm (skipList c) s t) (fun i h => (lists i h).erase t) :=
  (hs.remove t).congr rfl rfl rtTimerArm_kind

theorem Sound.start (hs : Sound c s lists) (t : TimerId) : exists rows' lists',
      (skipList c).insert (rtTimerArm (skipList c) s t).lists
        (rtTimerArm (skipList c) s t).timeout (s.timer t).list t (s.randomNr + 1)
        (s.starts + 1) = some rows' ∧
      Sound c ((rtTimerArm (skipList c) s t).started t rows') lists' ∧
      Inserted c (rtTimerArm (skipList c) s t).timeout (s.timer t).list t
        (fun i h => (lists i h).erase t) lists' := by
  have harm := hs.arm t
  have hfree : forall h, t ∉ (lists c.bottom h).erase t := by
    intro h hin
    exact ((hs.mem_erase c.bottom_lt).mp hin).left rfl
  have hfuel : ((lists c.bottom (s.timer t).list).erase t).length < s.starts + 1 :=
    Nat.lt_succ_of_le (harm.few _)
  rcases harm.wired.insert (rtTimerArm (skipList c) s t).timeout hfree
    hfuel (s.randomNr + 1) with ⟨rows', lists', heq, hwired, hins⟩
  refine ⟨rows', lists', heq, ?_, hins⟩
  constructor
  · exact hwired
  · intro h
    exact Nat.le_trans (hins.length_bottom h) (Nat.succ_le_succ (harm.few h))
  · intro h x hx
    have hkind : (((rtTimerArm (skipList c) s t).started t rows').timer x).list =
        (s.timer x).list := by
      refine (State.setTimer_kind (by rfl) x).trans ?_
      exact rtTimerArm_kind x
    rw [hkind]
    rcases hins.mem_bottom.mp hx with hold | ⟨hxt, hh⟩
    · exact hs.placed h x (List.mem_of_mem_erase hold)
    · rw [hxt, hh]

end Sound

end RtThread.Kernel.Timer
