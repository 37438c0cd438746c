import RtThread.Finsh.Heap
import RtThread.Library.Chain

/-!
# The lists of the finsh heap

Insertion and removal in a list of headers in the order of their addresses. Removal leaves the
link of the removed header as it was unless it was the first, and insertion at the end does not
set the link of the new header; so a header is inserted correctly only if it does not come last or
its link is null.
-/

namespace RtThread.Finsh

open Chain

structure Relinked (h h' : FinshHeap) (list : ListId) (touched : List Nat) : Prop where
  next : forall c, c ∉ touched -> h'.next c = h.next c
  length : h'.length = h.length
  heads : forall other, other ≠ list -> h'.head other = h.head other

section Relinked

variable {h h1 h2 : FinshHeap} {list other : ListId} {touched touched' l : List Nat}
  {x : Nat} {v : Option Nat}

theorem Relinked.mono (hr : Relinked h h1 list touched)
    (hsub : forall c, c ∈ touched -> c ∈ touched') : Relinked h h1 list touched' :=
  ⟨fun c hc => hr.next c fun hin => hc (hsub c hin), hr.length, hr.heads⟩

theorem Relinked.trans (hr : Relinked h h1 list touched)
    (hr' : Relinked h1 h2 list touched) : Relinked h h2 list touched :=
  ⟨fun c hc => (hr'.next c hc).trans (hr.next c hc), hr'.length.trans hr.length,
    fun other ho => (hr'.heads other ho).trans (hr.heads other ho)⟩

theorem Relinked.linked (hr : Relinked h h1 list touched) (hne : other ≠ list)
    (hl : Linked h.next (h.head other) l) (hout : forall c, c ∈ l -> c ∉ touched) :
    Linked h1.next (h1.head other) l := by
  rw [hr.heads other hne]
  exact hl.congr fun c hc => hr.next c (hout c hc)

theorem relinked_setNext : Relinked h (h.setNext x v) list [x] := by
  refine ⟨?_, rfl, fun other _ => by cases other <;> rfl⟩
  intro c hc
  exact Function.update_of_ne (by simpa using hc) _ _

theorem relinked_setHead : Relinked h (h.setHead list v) list [] := by
  refine ⟨?_, ?_, ?_⟩
  · intro c _
    cases list <;> rfl
  · cases list <;> rfl
  · intro other hne
    cases list with
    | free =>
      cases other with
      | free => exact absurd rfl hne
      | allocate => rfl
    | allocate =>
      cases other with
      | free => rfl
      | allocate => exact absurd rfl hne

@[simp]
theorem head_setHead : (h.setHead list v).head list = v := by
  cases list <;> rfl

@[simp]
theorem head_setNext : (h.setNext x v).head list = h.head list := by
  cases list <;> rfl

@[simp]
theorem next_setHead : (h.setHead list v).next = h.next := by
  cases list <;> rfl

end Relinked

/-!
## Insertion
-/

section Insert

variable {h : FinshHeap} {list : ListId} {x n y fuel : Nat} {l l' : List Nat}

theorem mem_of_head?_append (hhead : some x = (l ++ y :: l').head?) : x ∈ l ++ [y] := by
  cases l with
  | nil =>
    cases hhead
    simp
  | cons z l =>
    cases hhead
    simp

theorem insertPoint_eq (hl : Linked h.next (some n) (l ++ y :: l'))
    (hbefore : forall c, c ∈ l ++ [y] -> c < x) (hafter : forall c, c ∈ l' -> x < c)
    (hfuel : l.length < fuel) : insertPoint h x fuel n = some y := by
  induction l generalizing n fuel with
  | nil =>
    rcases hl with ⟨heq, hrest⟩
    cases heq
    cases fuel with
    | zero => cases hfuel
    | succ fuel =>
      unfold insertPoint
      rw [hrest.head]
      cases l' with
      | nil => rfl
      | cons m l' => exact if_pos (hafter m List.mem_cons_self)
  | cons z l ih =>
    rcases hl with ⟨heq, hrest⟩
    cases heq
    cases fuel with
    | zero => cases hfuel
    | succ fuel =>
      unfold insertPoint
      cases hnext : h.next z with
      | none =>
        rw [hnext] at hrest
        have hnil := hrest.none_iff.mp rfl
        simp at hnil
      | some m =>
        rw [hnext] at hrest
        have hm : m ∈ l ++ [y] := mem_of_head?_append hrest.head
        have hlt := hbefore m (List.mem_cons_of_mem z hm)
        simp only
        rw [if_neg (by omega)]
        exact ih hrest (fun c hc => hbefore c (List.mem_cons_of_mem z hc))
          (Nat.lt_of_succ_lt_succ hfuel)

theorem finshBlockInsert_spec (hl : Linked h.next (h.head list) (l ++ l'))
    (hnodup : (l ++ l').Nodup) (hbefore : forall c, c ∈ l -> c < x)
    (hafter : forall c, c ∈ l' -> x < c) (hlast : l' = [] -> h.next x = none)
    (hfuel : l.length ≤ finshHeapMax) :
    exists h', finshBlockInsert h list x = some h' ∧
      Linked h'.next (h'.head list) (l ++ x :: l') ∧ Relinked h h' list (x :: l) := by
  have hx : x ∉ l ++ l' := by
    rw [List.mem_append]
    rintro (hin | hin)
    · exact Nat.lt_irrefl x (hbefore x hin)
    · exact Nat.lt_irrefl x (hafter x hin)
  unfold finshBlockInsert
  rcases List.eq_nil_or_concat l with hnil | ⟨k, y, hcat⟩
  · subst hnil
    rw [List.nil_append] at hl
    cases l' with
    | nil =>
      have hhead : h.head list = none := hl
      simp only [hhead]
      refine ⟨_, rfl, ?_, relinked_setHead.mono (by simp)⟩
      rw [head_setHead, next_setHead]
      exact ⟨rfl, hlast rfl⟩
    | cons m l' =>
      have hhead : h.head list = some m := hl.left
      simp only [hhead, if_pos (hafter m List.mem_cons_self)]
      refine ⟨_, rfl, ?_, (relinked_setNext.mono (by simp)).trans
        (relinked_setHead.mono (by simp))⟩
      rw [head_setHead, next_setHead, ← hhead]
      exact hl.push (by simpa using hx)
  · rw [List.concat_eq_append] at hcat
    subst hcat
    rw [List.append_assoc, List.singleton_append] at hl hx hnodup
    cases hhead : h.head list with
    | none =>
      have hnil := hl.none_iff.mp hhead
      simp at hnil
    | some n =>
      rw [hhead] at hl
      have hn : n ∈ k ++ [y] := mem_of_head?_append hl.head
      have hlt := hbefore n hn
      have hpoint : insertPoint h x finshHeapMax n = some y :=
        insertPoint_eq hl hbefore hafter (by simp at hfuel; omega)
      simp only [if_neg (show ¬x < n by omega), hpoint]
      have hnext := hl.next_eq
      -- at the end of the list the link of the new header is null already
      have hset : (if h.next y ≠ none then h.setNext x (h.next y) else h) =
          h.setNext x l'.head? := by
        split
        · rw [hnext]
        · rename_i hend
          rw [not_not, hnext, List.head?_eq_none_iff] at hend
          have hnull := hlast hend
          rw [hend]
          unfold FinshHeap.setNext
          rw [List.head?_nil, ← hnull, Function.update_eq_self]
      rw [hset]
      refine ⟨_, rfl, ?_, (relinked_setNext.mono (by simp)).trans
        (relinked_setNext.mono (by simp))⟩
      rw [head_setNext, head_setNext, hhead, List.append_assoc]
      exact hl.insert_behind hnodup hx

end Insert

/-!
## Removal
-/

section Remove

variable {h : FinshHeap} {list : ListId} {x y fuel : Nat} {p : Option Nat}
  {l l' : List Nat}

theorem ne_of_before (hl : Linked h.next p (l ++ y :: x :: l'))
    (hnodup : (l ++ y :: x :: l').Nodup) : p ≠ some x := by
  intro heq
  have hhead := hl.head
  rw [heq] at hhead
  have hx := mem_of_head?_append hhead
  rw [show l ++ y :: x :: l' = l ++ [y] ++ (x :: l') by simp, List.nodup_append] at hnodup
  exact hnodup.right.right x hx x List.mem_cons_self rfl

theorem removeLoop_eq (hl : Linked h.next p (l ++ y :: x :: l'))
    (hnodup : (l ++ y :: x :: l').Nodup) (hfuel : l.length < fuel) :
    removeLoop h x fuel p = some (h.setNext y (h.next x)) := by
  induction l generalizing p fuel with
  | nil =>
    rcases hl with ⟨heq, hnext, _⟩
    subst heq
    cases fuel with
    | zero => cases hfuel
    | succ fuel => exact if_pos hnext
  | cons z l ih =>
    rcases hl with ⟨heq, hrest⟩
    subst heq
    have hne := ne_of_before hrest (List.nodup_cons.mp hnodup).right
    cases fuel with
    | zero => cases hfuel
    | succ fuel =>
      unfold removeLoop
      rw [if_neg hne]
      exact ih hrest (List.nodup_cons.mp hnodup).right (Nat.lt_of_succ_lt_succ hfuel)

theorem findPrev_eq (hl : Linked h.next p (l ++ y :: x :: l'))
    (hnodup : (l ++ y :: x :: l').Nodup) (hfuel : l.length < fuel) :
    findPrev h x fuel p = some (some y) := by
  induction l generalizing p fuel with
  | nil =>
    rcases hl with ⟨heq, hnext, _⟩
    subst heq
    cases fuel with
    | zero => cases hfuel
    | succ fuel => exact if_pos hnext
  | cons z l ih =>
    rcases hl with ⟨heq, hrest⟩
    subst heq
    have hne := ne_of_before hrest (List.nodup_cons.mp hnodup).right
    cases fuel with
    | zero => cases hfuel
    | succ fuel =>
      unfold findPrev
      rw [if_neg hne]
      exact ih hrest (List.nodup_cons.mp hnodup).right (Nat.lt_of_succ_lt_succ hfuel)

theorem finshBlockRemove_spec (hl : Linked h.next (h.head list) (l ++ x :: l'))
    (hnodup : (l ++ x :: l').Nodup) (hfuel : l.length ≤ finshHeapMax) :
    exists h', finshBlockRemove h list x = some h' ∧
      Linked h'.next (h'.head list) (l ++ l') ∧ Relinked h h' list (x :: l) := by
  unfold finshBlockRemove
  rcases List.eq_nil_or_concat l with hnil | ⟨k, y, hcat⟩
  · subst hnil
    rcases hl with ⟨hhead, hrest⟩
    rw [if_pos hhead]
    refine ⟨_, rfl, ?_, (relinked_setHead.mono (by simp)).trans
      (relinked_setNext.mono (by simp))⟩
    rw [head_setNext, head_setHead]
    have hnot := (List.nodup_cons.mp hnodup).left
    unfold FinshHeap.setNext
    rw [next_setHead]
    exact hrest.frame hnot none
  · rw [List.concat_eq_append] at hcat
    subst hcat
    rw [List.append_assoc, List.singleton_append] at hl hnodup
    rw [if_neg (ne_of_before hl hnodup), removeLoop_eq hl hnodup (by simp at hfuel; omega)]
    refine ⟨_, rfl, ?_, relinked_setNext.mono (by simp)⟩
    have hnext : h.next x = l'.head? := by
      rw [show k ++ y :: x :: l' = k ++ [y] ++ x :: l' by simp] at hl
      exact hl.next_eq
    rw [head_setNext, List.append_assoc, hnext]
    have hcut : Linked h.next (h.head list) (k ++ y :: ([x] ++ l')) := hl
    exact hcut.cut hnodup

theorem finshBlockMerge_eq (hl : Linked h.next (h.head list) (l ++ x :: l'))
    (hnodup : (l ++ x :: l').Nodup) (hfuel : l.length ≤ finshHeapMax) :
    finshBlockMerge h list x = some (mergeWith h l.getLast? l'.head? x) := by
  have hnext := hl.next_eq
  unfold finshBlockMerge
  rcases List.eq_nil_or_concat l with hnil | ⟨k, y, hcat⟩
  · subst hnil
    rw [if_pos hl.left, hnext]
    rfl
  · rw [List.concat_eq_append] at hcat
    subst hcat
    rw [List.append_assoc, List.singleton_append] at hl hnodup
    rw [if_neg (ne_of_before hl hnodup), findPrev_eq hl hnodup (by simp at hfuel; omega), hnext]
    simp

end Remove

/-!
## Searches
-/

section Search

variable {h : FinshHeap} {p : Option Nat} {l : List Nat} {fuel : Nat}
  {fits : Nat -> Bool}

theorem firstFit_eq (hl : Linked h.next p l) (hfuel : l.length < fuel) :
    firstFit fits h fuel p = some (l.find? fun x => fits (h.length x)) := by
  induction l generalizing p fuel with
  | nil =>
    have hnone : p = none := hl
    subst hnone
    cases fuel with
    | zero => cases hfuel
    | succ fuel => rfl
  | cons x l ih =>
    rcases hl with ⟨heq, hrest⟩
    subst heq
    cases fuel with
    | zero => cases hfuel
    | succ fuel =>
      unfold firstFit
      rw [List.find?_cons]
      cases hfit : fits (h.length x) with
      | true => rfl
      | false => exact ih hrest (Nat.lt_of_succ_lt_succ hfuel)

end Search

end RtThread.Finsh
