import RtThread.Kernel.ReadySet
import RtThread.Library.Chain

/-!
# The priority queue

`rt_prio_queue_push` and `rt_prio_queue_pop` of `prio_queue.c`, called by any threads. A push
waits in the memory pool, fills the block it gets and links it with the interrupts off; a pop
unlinks a block with the interrupts off, waits on the queue where there is none, and copies and
frees the block afterwards. What the queue is for: for every priority a list of the items that are
pushed and not popped yet, the oldest first.
-/

namespace RtThread.Vbus.PrioQueue

open Kernel Chain Transition
open Function (update update_of_ne update_self)

variable {Item Data Tid : Type} [DecidableEq Item] [DecidableEq Tid]

/-- The lists of `struct rt_prio_queue`, and the `next` pointers of the items. -/
structure RtPrioQueue (Item : Type) where
  bitmap : BitVec 32
  head : Nat -> Option Item
  tail : Nat -> Option Item
  next : Item -> Option Item

def prioMax : Nat := 32

def doPush (que : RtPrioQueue Item) (prio : Nat) (item : Item) : Option (RtPrioQueue Item) :=
  match que.head prio with
  | none =>
    some { que with
      head := Function.update que.head prio (some item)
      bitmap := que.bitmap ||| 1#32 <<< prio
      tail := Function.update que.tail prio (some item) }
  | some _ =>
    match que.tail prio with
    | none => none
    | some last =>
      some { que with
        next := Function.update que.next last (some item)
        tail := Function.update que.tail prio (some item) }

def doPop (que : RtPrioQueue Item) : Option (RtPrioQueue Item × Option Item) :=
  let ffs := rtFfs que.bitmap
  if ffs = 0 then some (que, none)
  else
    match que.head (ffs - 1) with
    | none => none
    | some item =>
      let que := { que with head := Function.update que.head (ffs - 1) (que.next item) }
      if que.next item = none then
        some ({ que with bitmap := que.bitmap &&& ~~~(1#32 <<< (ffs - 1)) }, some item)
      else some (que, some item)

/-!
## The calls
-/

/-- In `rt_mp_alloc`, with a block it has not filled or not linked yet; in the loop of a pop
or suspended in it; with a block it has not copied or not freed yet. -/
inductive Caller (Item Data : Type) where
  | idle
  | allocating (prio : Nat) (data : Data)
  | filling (item : Item) (prio : Nat) (data : Data)
  | linking (item : Item) (prio : Nat)
  | popping (timeout : Int)
  | suspended (timeout : Int)
  | copying (item : Item)
  | freeing (item : Item) (data : Data)

def Caller.holds : Caller Item Data -> Option Item
  | Caller.filling item _ _ => some item
  | Caller.linking item _ => some item
  | Caller.copying item => some item
  | Caller.freeing item _ => some item
  | _ => none

/-- The queue, the bytes of the blocks, the free blocks of the pool, the threads that are
suspended in a pop, and all threads. -/
structure State (Item Data Tid : Type) where
  que : RtPrioQueue Item
  data : Item -> Data
  free : Item -> Bool
  suspendedPopList : List Tid
  threads : Tid -> Caller Item Data

inductive Act (Item Data Tid : Type) where
  | push (t : Tid) (prio : Nat) (data : Data)
  | alloc (t : Tid) (item : Item)
  | allocFail (t : Tid)
  | fill (t : Tid)
  | link (t : Tid)
  | pop (t : Tid) (timeout : Int)
  | unlink (t : Tid)
  | expire (t : Tid)
  | copy (t : Tid)
  | free (t : Tid)

namespace State

def setThread (s : State Item Data Tid) (t : Tid) (c : Caller Item Data) :
    State Item Data Tid :=
  { s with threads := Function.update s.threads t c }

/-- `rt_thread_resume` of the first thread that waits: it goes on with its loop. -/
def resumeFirst (s : State Item Data Tid) : State Item Data Tid :=
  match s.suspendedPopList with
  | [] => s
  | t :: rest =>
    match s.threads t with
    | Caller.suspended timeout =>
      { s with suspendedPopList := rest }.setThread t (Caller.popping timeout)
    | _ => { s with suspendedPopList := rest }

end State

/-- One step.  `link` is the part of a push with the interrupts off, and `unlink` that of a
pop; `expire` is the timer of a suspended thread. -/
def step (s : State Item Data Tid) : Act Item Data Tid -> Option (State Item Data Tid)
  | Act.push t prio data =>
    match s.threads t with
    | Caller.idle =>
      if prioMax ≤ prio then some s else some (s.setThread t (Caller.allocating prio data))
    | _ => none
  | Act.alloc t item =>
    match s.threads t with
    | Caller.allocating prio data =>
      if s.free item = true then
        some ({ s with free := Function.update s.free item false }.setThread t
          (Caller.filling item prio data))
      else none
    | _ => none
  | Act.allocFail t =>
    match s.threads t with
    | Caller.allocating _ _ => some (s.setThread t Caller.idle)
    | _ => none
  | Act.fill t =>
    match s.threads t with
    | Caller.filling item prio data =>
      some ({ s with
        data := Function.update s.data item data
        que := { s.que with next := Function.update s.que.next item none } }.setThread t
          (Caller.linking item prio))
    | _ => none
  | Act.link t =>
    match s.threads t with
    | Caller.linking item prio =>
      (doPush s.que prio item).map fun que =>
        ({ s with que := que }.setThread t Caller.idle).resumeFirst
    | _ => none
  | Act.pop t timeout =>
    match s.threads t with
    | Caller.idle => some (s.setThread t (Caller.popping timeout))
    | _ => none
  | Act.unlink t =>
    match s.threads t with
    | Caller.popping timeout =>
      match doPop s.que with
      | none => none
      | some (que, some item) => some ({ s with que := que }.setThread t (Caller.copying item))
      | some (_, none) =>
        if timeout = 0 then some (s.setThread t Caller.idle)
        else some ({ s with suspendedPopList := s.suspendedPopList ++ [t] }.setThread t
          (Caller.suspended timeout))
    | _ => none
  | Act.expire t =>
    match s.threads t with
    | Caller.suspended timeout =>
      if 0 < timeout then
        some ({ s with suspendedPopList := s.suspendedPopList.erase t }.setThread t
          Caller.idle)
      else none
    | _ => none
  | Act.copy t =>
    match s.threads t with
    | Caller.copying item => some (s.setThread t (Caller.freeing item (s.data item)))
    | _ => none
  | Act.free t =>
    match s.threads t with
    | Caller.freeing item _ =>
      some ({ s with free := Function.update s.free item true }.setThread t Caller.idle)
    | _ => none

/-- `rt_prio_queue_init` over a pool whose free blocks are `free`. -/
def start (data : Item -> Data) (next : Item -> Option Item) (free : Item -> Bool) :
    State Item Data Tid where
  que := ⟨0#32, fun _ => none, fun _ => none, next⟩
  data := data
  free := free
  suspendedPopList := []
  threads := fun _ => Caller.idle

/-!
## The lists of a queue
-/

structure Represents (que : RtPrioQueue Item) (lists : Nat -> List Item) : Prop where
  bits : forall p, que.bitmap.getLsbD p = true <-> lists p ≠ []
  linked : forall p, Linked que.next (que.head p) (lists p)
  last : forall p, lists p ≠ [] -> que.tail p = (lists p).getLast?
  nodup : forall p, (lists p).Nodup
  apart : forall p q x, x ∈ lists p -> x ∈ lists q -> p = q

section Lists

variable {que : RtPrioQueue Item} {lists : Nat -> List Item} {prio : Nat} {item : Item}

omit [DecidableEq Item] in
theorem Represents.head_none (hr : Represents que lists) (p : Nat) :
    que.head p = none <-> que.bitmap.getLsbD p = false := by
  rw [(hr.linked p).none_iff, ← Bool.not_eq_true, hr.bits p, not_not]

theorem Represents.frame (hr : Represents que lists) (hitem : forall p, item ∉ lists p)
    (q : Option Item) :
    Represents { que with next := update que.next item q } lists :=
  ⟨hr.bits, fun p => (hr.linked p).frame (hitem p) q, hr.last, hr.nodup, hr.apart⟩

omit [DecidableEq Item] in
theorem mem_update_append {p : Nat} {x : Item}
    (hx : x ∈ Function.update lists prio (lists prio ++ [item]) p) :
    x ∈ lists p ∨ (x = item ∧ p = prio) := by
  by_cases hp : p = prio
  · subst hp
    rw [Function.update_self, List.mem_append, List.mem_singleton] at hx
    exact hx.imp id fun heq => ⟨heq, rfl⟩
  · rw [Function.update_of_ne hp] at hx
    exact Or.inl hx

omit [DecidableEq Item] in
theorem nodup_update_append (hr : Represents que lists) (hitem : forall p, item ∉ lists p) :
    (forall p, (Function.update lists prio (lists prio ++ [item]) p).Nodup) ∧
      forall p q x, x ∈ Function.update lists prio (lists prio ++ [item]) p ->
        x ∈ Function.update lists prio (lists prio ++ [item]) q -> p = q := by
  constructor
  · intro p
    by_cases hp : p = prio
    · subst hp
      rw [Function.update_self]
      refine (hr.nodup p).append (List.nodup_singleton item) ?_
      intro x hx hx'
      rw [List.mem_singleton] at hx'
      rw [hx'] at hx
      exact hitem p hx
    · rw [Function.update_of_ne hp]
      exact hr.nodup p
  · intro p q x hp hq
    rcases mem_update_append hp with hp | ⟨hx, hp⟩
    · rcases mem_update_append hq with hq | ⟨hx, _⟩
      · exact hr.apart p q x hp hq
      · rw [hx] at hp
        exact absurd hp (hitem p)
    · rcases mem_update_append hq with hq | ⟨_, hq⟩
      · rw [hx] at hq
        exact absurd hq (hitem q)
      · rw [hp, hq]

theorem doPush_spec (hr : Represents que lists) (hprio : prio < 32)
    (hitem : forall p, item ∉ lists p) (hnext : que.next item = none) :
    exists que', doPush que prio item = some que' ∧
      (forall x, (forall p, x ∉ lists p) -> que'.next x = que.next x) ∧
      Represents que' (update lists prio (lists prio ++ [item])) := by
  have hapart : (forall p, (update lists prio (lists prio ++ [item]) p).Nodup) ∧
      forall p q x, x ∈ update lists prio (lists prio ++ [item]) p ->
        x ∈ update lists prio (lists prio ++ [item]) q -> p = q :=
    nodup_update_append hr hitem
  have hlinked := hr.linked prio
  unfold doPush
  cases hhead : que.head prio with
  | none =>
    have hnil : lists prio = [] := hlinked.none_iff.mp hhead
    refine ⟨_, rfl, fun _ _ => rfl, ?_, ?_, ?_, hapart.left, hapart.right⟩
    · intro p
      show (que.bitmap ||| 1#32 <<< prio).getLsbD p = true <-> _
      rw [BitVec.getLsbD_or, getLsbD_one_shiftLeft]
      by_cases hp : p = prio
      · subst hp
        simp [hprio]
      · rw [update_of_ne hp, ← hr.bits p]
        simp [Ne.symm hp]
    · intro p
      show Linked que.next (update que.head prio (some item) p) _
      by_cases hp : p = prio
      · subst hp
        rw [update_self, update_self, hnil]
        exact ⟨rfl, hnext⟩
      · rw [update_of_ne hp, update_of_ne hp]
        exact hr.linked p
    · intro p hne
      show update que.tail prio (some item) p = _
      by_cases hp : p = prio
      · subst hp
        simp
      · rw [update_of_ne hp] at hne
        rw [update_of_ne hp, update_of_ne hp]
        exact hr.last p hne
  | some x =>
    have hne : lists prio ≠ [] := by
      intro hnil
      rw [hlinked.none_iff.mpr hnil] at hhead
      cases hhead
    rcases List.eq_nil_or_concat (lists prio) with hnil | ⟨l, y, hl⟩
    · exact absurd hnil hne
    rw [List.concat_eq_append] at hl
    have htail : que.tail prio = some y := by
      rw [hr.last prio hne, hl]
      simp
    rw [htail]
    refine ⟨_, rfl, ?_, ?_, ?_, ?_, hapart.left, hapart.right⟩
    · intro x hx
      apply update_of_ne
      rintro rfl
      exact hx prio (by rw [hl]; simp)
    · intro p
      by_cases hp : p = prio
      · subst hp
        simp [hr.bits p, hne]
      · rw [update_of_ne hp]
        exact hr.bits p
    · intro p
      show Linked (update que.next y (some item)) (que.head p) _
      by_cases hp : p = prio
      · subst hp
        have hnodup := hr.nodup p
        have hout := hitem p
        rw [hl] at hlinked hnodup hout
        rw [update_self, hl]
        exact hlinked.append hnodup hout hnext
      · rw [update_of_ne hp]
        apply (hr.linked p).frame
        intro hy
        exact hp (hr.apart p prio y hy (by rw [hl]; simp))
    · intro p hne'
      show update que.tail prio (some item) p = _
      by_cases hp : p = prio
      · subst hp
        simp
      · rw [update_of_ne hp] at hne'
        rw [update_of_ne hp, update_of_ne hp]
        exact hr.last p hne'

omit [DecidableEq Item] in
theorem doPop_spec (hr : Represents que lists) :
    ((forall p, lists p = []) ∧ doPop que = some (que, none)) ∨
      exists p item rest que', lists p = item :: rest ∧ (forall q, q < p -> lists q = []) ∧
        doPop que = some (que', some item) ∧ que'.next = que.next ∧
        Represents que' (Function.update lists p rest) := by
  by_cases hzero : que.bitmap = 0
  · left
    constructor
    · intro p
      by_contra hne
      have hbit := (hr.bits p).mpr hne
      rw [hzero] at hbit
      simp at hbit
    · simp [doPop, rtFfs, hzero]
  · right
    rcases rtFfs_spec hzero with ⟨p, hffs, hset, hlow⟩
    have hne := (hr.bits p).mp hset
    rcases List.exists_cons_of_ne_nil hne with ⟨item, rest, hl⟩
    have hlinked := hr.linked p
    rw [hl] at hlinked
    have hprio : p < 32 := BitVec.lt_of_getLsbD hset
    have hrest : Represents { que with
        head := Function.update que.head p (que.next item)
        bitmap := if que.next item = none then que.bitmap &&& ~~~(1#32 <<< p)
          else que.bitmap } (Function.update lists p rest) := by
      have hsub : forall q x, x ∈ Function.update lists p rest q -> x ∈ lists q := by
        intro q x hx
        by_cases hq : q = p
        · subst hq
          rw [Function.update_self] at hx
          rw [hl]
          exact List.mem_cons_of_mem _ hx
        · rwa [Function.update_of_ne hq] at hx
      refine ⟨?_, ?_, ?_, ?_, fun q q' x hq hq' =>
        hr.apart q q' x (hsub q x hq) (hsub q' x hq')⟩
      · intro q
        show (if que.next item = none then que.bitmap &&& ~~~(1#32 <<< p)
          else que.bitmap).getLsbD q = true <-> _
        by_cases hq : q = p
        · subst hq
          rw [Function.update_self]
          by_cases hnull : que.next item = none
          · rw [if_pos hnull, hlinked.right.none_iff.mp hnull, BitVec.getLsbD_and,
              BitVec.getLsbD_not, getLsbD_one_shiftLeft]
            simp [hprio]
          · rw [if_neg hnull]
            exact iff_of_true hset fun hnil => hnull (hlinked.right.none_iff.mpr hnil)
        · rw [Function.update_of_ne hq, ← hr.bits q]
          split
          · rw [BitVec.getLsbD_and, BitVec.getLsbD_not, getLsbD_one_shiftLeft]
            simp only [Ne.symm hq, decide_false, Bool.and_false, Bool.not_false, Bool.and_true,
              Bool.and_eq_true, decide_eq_true_eq]
            exact ⟨fun h => h.left, fun h => ⟨h, BitVec.lt_of_getLsbD h⟩⟩
          · rfl
      · intro q
        show Linked que.next (Function.update que.head p (que.next item) q) _
        by_cases hq : q = p
        · subst hq
          rw [Function.update_self, Function.update_self]
          exact hlinked.right
        · rw [Function.update_of_ne hq, Function.update_of_ne hq]
          exact hr.linked q
      · intro q hq'
        show que.tail q = _
        by_cases hq : q = p
        · subst hq
          rw [Function.update_self] at hq' ⊢
          rw [hr.last q hne, hl, List.getLast?_cons_of_ne_nil hq']
        · rw [Function.update_of_ne hq] at hq' ⊢
          exact hr.last q hq'
      · intro q
        by_cases hq : q = p
        · subst hq
          rw [Function.update_self]
          have hnodup := hr.nodup q
          rw [hl] at hnodup
          exact (List.nodup_cons.mp hnodup).right
        · rw [Function.update_of_ne hq]
          exact hr.nodup q
    refine ⟨p, item, rest, _, hl, ?_, ?_, ?_, hrest⟩
    · intro q hq
      by_contra hne'
      have hbit := hlow q hq
      rw [(hr.bits q).mpr hne'] at hbit
      cases hbit
    · simp only [doPop, hffs, Nat.add_sub_cancel, hlinked.left]
      rw [if_neg (by omega)]
      split <;> rfl
    · rfl

end Lists

/-!
## Runs
-/

/-- How many items were linked, the number of each, and for every priority the items linked
and those unlinked, with their numbers. -/
structure Log (Item Data : Type) where
  count : Nat
  number : Item -> Nat
  pushed : Nat -> List (Nat × Data)
  popped : Nat -> List (Nat × Data)

def Log.empty : Log Item Data := ⟨0, fun _ => 0, fun _ => [], fun _ => []⟩

def unlinked (que : RtPrioQueue Item) : Option (Nat × Item) :=
  match doPop que with
  | some (_, some item) => some (rtFfs que.bitmap - 1, item)
  | _ => none

def record (s : State Item Data Tid) (a : Act Item Data Tid) (_ : State Item Data Tid)
    (log : Log Item Data) : Log Item Data :=
  match a with
  | Act.link t =>
    match s.threads t with
    | Caller.linking item prio =>
      { log with
        count := log.count + 1
        number := Function.update log.number item log.count
        pushed := Function.update log.pushed prio
          (log.pushed prio ++ [(log.count, s.data item)]) }
    | _ => log
  | Act.unlink _ =>
    match unlinked s.que with
    | some (prio, item) =>
      { log with
        popped := Function.update log.popped prio
          (log.popped prio ++ [(log.number item, s.data item)]) }
    | none => log
  | _ => log

def entry (s : State Item Data Tid) (log : Log Item Data) (item : Item) : Nat × Data :=
  (log.number item, s.data item)

structure Owned (s : State Item Data Tid) (lists : Nat -> List Item) : Prop where
  free : forall x, s.free x = true ->
    (forall p, x ∉ lists p) ∧ forall t, (s.threads t).holds ≠ some x
  queued : forall p x t, x ∈ lists p -> (s.threads t).holds ≠ some x
  one : forall t u x, (s.threads t).holds = some x -> (s.threads u).holds = some x -> t = u

def Ready (s : State Item Data Tid) (log : Log Item Data) : Caller Item Data -> Prop
  | Caller.allocating prio _ => prio < prioMax
  | Caller.filling _ prio _ => prio < prioMax
  | Caller.linking item prio => prio < prioMax ∧ s.que.next item = none
  | Caller.copying item => exists p, entry s log item ∈ log.popped p
  | Caller.freeing item data => exists p, (log.number item, data) ∈ log.popped p
  | _ => True

/-- The numbers of the items that were linked are all different. -/
structure Numbered (log : Log Item Data) : Prop where
  below : forall p x, x ∈ log.pushed p -> x.1 < log.count
  nodup : forall p, ((log.pushed p).map Prod.fst).Nodup
  apart : forall p q x y, x ∈ log.pushed p -> y ∈ log.pushed q -> x.1 = y.1 -> p = q

structure Inv (s : State Item Data Tid) (log : Log Item Data) (lists : Nat -> List Item) :
    Prop where
  represents : Represents s.que lists
  owned : Owned s lists
  ready : forall t, Ready s log (s.threads t)
  conserved : forall p, log.pushed p = log.popped p ++ (lists p).map (entry s log)
  numbered : Numbered log

section Steps

variable {s s' : State Item Data Tid} {log log' : Log Item Data} {lists : Nat -> List Item}
  {t : Tid} {c : Caller Item Data} {item : Item} {prio : Nat}

omit [DecidableEq Item] [DecidableEq Tid] in
theorem Ready.other (hr : Ready s log c)
    (hnext : forall x, c.holds = some x -> s'.que.next x = s.que.next x)
    (hdata : forall x, c.holds = some x -> s'.data x = s.data x)
    (hnumber : forall x, c.holds = some x -> log'.number x = log.number x)
    (hpopped : forall p y, y ∈ log.popped p -> y ∈ log'.popped p) : Ready s' log' c := by
  cases c with
  | linking x prio => exact ⟨hr.left, (hnext x rfl).trans hr.right⟩
  | copying x =>
    rcases hr with ⟨p, hp⟩
    refine ⟨p, hpopped p _ ?_⟩
    unfold entry at hp ⊢
    rw [hdata x rfl, hnumber x rfl]
    exact hp
  | freeing x data =>
    rcases hr with ⟨p, hp⟩
    refine ⟨p, hpopped p _ ?_⟩
    rw [hnumber x rfl]
    exact hp
  | _ => exact hr

omit [DecidableEq Item] in
theorem Owned.quiet (ho : Owned s lists) (hfree : s'.free = s.free)
    (hthreads : s'.threads = Function.update s.threads t c)
    (hc : forall x, c.holds = some x -> (s.threads t).holds = some x) : Owned s' lists := by
  have hholds : forall u x, (s'.threads u).holds = some x -> (s.threads u).holds = some x := by
    intro u x hu
    rw [hthreads] at hu
    by_cases hut : u = t
    · subst hut
      rw [Function.update_self] at hu
      exact hc x hu
    · rwa [Function.update_of_ne hut] at hu
  refine ⟨?_, ?_, ?_⟩
  · intro x hx
    rw [hfree] at hx
    exact ⟨(ho.free x hx).left, fun u hu => (ho.free x hx).right u (hholds u x hu)⟩
  · intro p x u hx hu
    exact ho.queued p x u hx (hholds u x hu)
  · intro u v x hu hv
    exact ho.one u v x (hholds u x hu) (hholds v x hv)

omit [DecidableEq Item] in
theorem Inv.quiet (hi : Inv s log lists) (hque : s'.que = s.que) (hdata : s'.data = s.data)
    (hfree : s'.free = s.free) (hthreads : s'.threads = Function.update s.threads t c)
    (hc : forall x, c.holds = some x -> (s.threads t).holds = some x)
    (hready : Ready s log c) : Inv s' log lists := by
  have hsame : forall c, Ready s log c -> Ready s' log c := by
    intro c hr
    exact hr.other (fun _ _ => by rw [hque]) (fun _ _ => by rw [hdata]) (fun _ _ => rfl)
      fun _ _ hy => hy
  refine ⟨hque ▸ hi.represents, hi.owned.quiet hfree hthreads hc, ?_, ?_, hi.numbered⟩
  · intro u
    apply hsame
    rw [hthreads]
    by_cases hut : u = t
    · subst hut
      rw [Function.update_self]
      exact hready
    · rw [Function.update_of_ne hut]
      exact hi.ready u
  · intro p
    rw [hi.conserved p]
    unfold entry
    rw [hdata]

omit [DecidableEq Item] in
theorem Inv.resumeFirst (hi : Inv s log lists) : Inv s.resumeFirst log lists := by
  unfold State.resumeFirst
  split
  · exact hi
  · rename_i u rest _
    split
    · exact hi.quiet rfl rfl rfl rfl (by simp [Caller.holds]) trivial
    · exact hi.quiet (t := u) (c := s.threads u) rfl rfl rfl
        (Function.update_eq_self u s.threads).symm (fun _ h => h) (hi.ready u)

theorem Inv.alloc {data : Data} (hi : Inv s log lists)
    (ht : s.threads t = Caller.allocating prio data) (hfree : s.free item = true) :
    Inv ({ s with free := update s.free item false }.setThread t
      (Caller.filling item prio data)) log lists := by
  have hprio : prio < prioMax := by
    have hready := hi.ready t
    rw [ht] at hready
    exact hready
  have hfresh := hi.owned.free item hfree
  have hholds : forall u x, (update s.threads t (Caller.filling item prio data) u).holds = some x ->
      (s.threads u).holds = some x ∨ (u = t ∧ x = item) := by
    intro u x hu
    by_cases hut : u = t
    · subst hut
      rw [update_self] at hu
      cases hu
      exact Or.inr ⟨rfl, rfl⟩
    · rw [update_of_ne hut] at hu
      exact Or.inl hu
  refine ⟨hi.represents, ⟨?_, ?_, ?_⟩, ?_, hi.conserved, hi.numbered⟩
  · intro x hx
    have hupd : update s.free item false x = true := hx
    have hxi : x ≠ item := by
      rintro rfl
      rw [update_self] at hupd
      cases hupd
    have hx' : s.free x = true := by
      rwa [update_of_ne hxi] at hupd
    refine ⟨(hi.owned.free x hx').left, ?_⟩
    intro u hu
    rcases hholds u x hu with hu | ⟨_, heq⟩
    · exact (hi.owned.free x hx').right u hu
    · exact hxi heq
  · intro p x u hx hu
    rcases hholds u x hu with hu | ⟨_, heq⟩
    · exact hi.owned.queued p x u hx hu
    · rw [heq] at hx
      exact hfresh.left p hx
  · intro u v x hu hv
    rcases hholds u x hu with hu | ⟨hut, heq⟩
    · rcases hholds v x hv with hv | ⟨_, heq⟩
      · exact hi.owned.one u v x hu hv
      · rw [heq] at hu
        exact absurd hu (hfresh.right u)
    · rcases hholds v x hv with hv | ⟨hvt, _⟩
      · rw [heq] at hv
        exact absurd hv (hfresh.right v)
      · rw [hut, hvt]
  · intro u
    show Ready s log (update s.threads t _ u)
    by_cases hut : u = t
    · subst hut
      rw [update_self]
      exact hprio
    · rw [update_of_ne hut]
      exact hi.ready u

theorem Inv.fill {data : Data} (hi : Inv s log lists)
    (ht : s.threads t = Caller.filling item prio data) :
    Inv ({ s with
      data := update s.data item data
      que := { s.que with next := update s.que.next item none } }.setThread t
        (Caller.linking item prio)) log lists := by
  have hprio : prio < prioMax := by
    have hready := hi.ready t
    rw [ht] at hready
    exact hready
  have hholds : (s.threads t).holds = some item := by
    rw [ht]
    rfl
  have hout : forall p, item ∉ lists p :=
    fun p hin => hi.owned.queued p item t hin hholds
  refine ⟨hi.represents.frame hout none, hi.owned.quiet rfl rfl ?_, ?_, ?_, hi.numbered⟩
  · intro x hx
    rw [hholds]
    exact hx
  · intro u
    show Ready _ log (update s.threads t _ u)
    by_cases hut : u = t
    · subst hut
      rw [update_self]
      exact ⟨hprio, update_self ..⟩
    · rw [update_of_ne hut]
      have hne : forall x, (s.threads u).holds = some x -> x ≠ item := by
        rintro x hx rfl
        exact hut (hi.owned.one u t x hx hholds)
      exact (hi.ready u).other (fun x hx => update_of_ne (hne x hx) ..)
        (fun x hx => update_of_ne (hne x hx) ..) (fun _ _ => rfl) fun _ _ hy => hy
  · intro p
    rw [hi.conserved p]
    congr 1
    apply List.map_congr_left
    intro x hx
    have hne : x ≠ item := by
      rintro rfl
      exact hout p hx
    show (log.number x, s.data x) = (log.number x, update s.data item data x)
    rw [update_of_ne hne]

omit [DecidableEq Item] in
theorem holds_of_idle {threads : Tid -> Caller Item Data} {u : Tid}
    (hu : (Function.update threads t Caller.idle u).holds = some item) :
    (threads u).holds = some item ∧ u ≠ t := by
  by_cases hut : u = t
  · subst hut
    rw [Function.update_self] at hu
    cases hu
  · rw [Function.update_of_ne hut] at hu
    exact ⟨hu, hut⟩

theorem Inv.release {data : Data} (hi : Inv s log lists)
    (ht : s.threads t = Caller.freeing item data) :
    Inv ({ s with free := update s.free item true }.setThread t Caller.idle) log
      lists := by
  have hholds : (s.threads t).holds = some item := by
    rw [ht]
    rfl
  have hsub : forall u x, (update s.threads t Caller.idle u).holds = some x ->
      (s.threads u).holds = some x ∧ u ≠ t := fun _ _ => holds_of_idle
  refine ⟨hi.represents, ⟨?_, ?_, ?_⟩, ?_, hi.conserved, hi.numbered⟩
  · intro x hx
    by_cases hxi : x = item
    · subst hxi
      refine ⟨fun p hin => hi.owned.queued p x t hin hholds, ?_⟩
      intro u hu
      rcases hsub u x hu with ⟨hu, hut⟩
      exact hut (hi.owned.one u t x hu hholds)
    · have hupd : update s.free item true x = true := hx
      have hx' : s.free x = true := by
        rwa [update_of_ne hxi] at hupd
      exact ⟨(hi.owned.free x hx').left,
        fun u hu => (hi.owned.free x hx').right u (hsub u x hu).left⟩
  · intro p x u hx hu
    exact hi.owned.queued p x u hx (hsub u x hu).left
  · intro u v x hu hv
    exact hi.owned.one u v x (hsub u x hu).left (hsub v x hv).left
  · intro u
    show Ready s log (update s.threads t _ u)
    by_cases hut : u = t
    · subst hut
      rw [update_self]
      trivial
    · rw [update_of_ne hut]
      exact hi.ready u

omit [DecidableEq Item] in
theorem Numbered.append (hn : Numbered log) (prio : Nat) (data : Data) {number : Item -> Nat} :
    Numbered { log with
      count := log.count + 1
      number := number
      pushed := Function.update log.pushed prio (log.pushed prio ++ [(log.count, data)]) } := by
  have hcases : forall p x, x ∈ Function.update log.pushed prio
      (log.pushed prio ++ [(log.count, data)]) p ->
      x ∈ log.pushed p ∨ (x = (log.count, data) ∧ p = prio) :=
    fun p x hx => mem_update_append hx
  refine ⟨?_, ?_, ?_⟩
  · intro p x hx
    show x.1 < log.count + 1
    rcases hcases p x hx with hx | ⟨heq, _⟩
    · have hlt := hn.below p x hx
      omega
    · rw [heq]
      exact Nat.lt_succ_self _
  · intro p
    show ((Function.update log.pushed prio _ p).map Prod.fst).Nodup
    by_cases hp : p = prio
    · subst hp
      rw [Function.update_self, List.map_append]
      refine (hn.nodup p).append (List.nodup_singleton _) ?_
      intro n hleft hright
      rw [List.mem_map] at hleft
      rcases hleft with ⟨x, hx, rfl⟩
      have hlt := hn.below p x hx
      have heq : x.1 = log.count := by simpa using hright
      omega
    · rw [Function.update_of_ne hp]
      exact hn.nodup p
  · intro p q x y hx hy hxy
    rcases hcases p x hx with hx | ⟨hx, hp⟩
    · rcases hcases q y hy with hy | ⟨hy, _⟩
      · exact hn.apart p q x y hx hy hxy
      · have hlt := hn.below p x hx
        rw [hxy, hy] at hlt
        exact absurd hlt (Nat.lt_irrefl _)
    · rcases hcases q y hy with hy | ⟨_, hq⟩
      · have hlt := hn.below q y hy
        rw [← hxy, hx] at hlt
        exact absurd hlt (Nat.lt_irrefl _)
      · rw [hp, hq]

theorem Inv.link (hi : Inv s log lists) (ht : s.threads t = Caller.linking item prio) :
    exists que, doPush s.que prio item = some que ∧
      Inv (({ s with que := que }.setThread t Caller.idle).resumeFirst) { log with
          count := log.count + 1
          number := update log.number item log.count
          pushed := update log.pushed prio (log.pushed prio ++ [(log.count, s.data item)]) }
        (update lists prio (lists prio ++ [item])) := by
  have hready := hi.ready t
  rw [ht] at hready
  have hholds : (s.threads t).holds = some item := by
    rw [ht]
    rfl
  have hout : forall p, item ∉ lists p :=
    fun p hin => hi.owned.queued p item t hin hholds
  rcases doPush_spec hi.represents hready.left hout hready.right with
    ⟨que, hpush, hnext, hrep⟩
  have hsub : forall u x, (update s.threads t Caller.idle u).holds = some x ->
      (s.threads u).holds = some x ∧ u ≠ t := fun _ _ => holds_of_idle
  have hne : forall u x, (s.threads u).holds = some x -> u ≠ t -> x ≠ item := by
    rintro u x hu hut rfl
    exact hut (hi.owned.one u t x hu hholds)
  refine ⟨que, hpush, Inv.resumeFirst ⟨hrep, ⟨?_, ?_, ?_⟩, ?_, ?_, ?_⟩⟩
  · intro x hx
    have hx' : s.free x = true := hx
    refine ⟨?_, fun u hu => (hi.owned.free x hx').right u (hsub u x hu).left⟩
    intro p hin
    rcases mem_update_append hin with hin | ⟨heq, _⟩
    · exact (hi.owned.free x hx').left p hin
    · rw [heq] at hx'
      exact (hi.owned.free item hx').right t hholds
  · intro p x u hx hu
    rcases hsub u x hu with ⟨hu, hut⟩
    rcases mem_update_append hx with hin | ⟨heq, _⟩
    · exact hi.owned.queued p x u hin hu
    · exact hne u x hu hut heq
  · intro u v x hu hv
    exact hi.owned.one u v x (hsub u x hu).left (hsub v x hv).left
  · intro u
    show Ready _ _ (update s.threads t _ u)
    by_cases hut : u = t
    · subst hut
      rw [update_self]
      trivial
    · rw [update_of_ne hut]
      refine (hi.ready u).other ?_ (fun _ _ => rfl)
        (fun x hx => update_of_ne (hne u x hx hut) ..) fun _ _ hy => hy
      intro x hx
      exact hnext x fun p hin => hi.owned.queued p x u hin hx
  · intro p
    have hsame : (lists p).map (fun x => (update log.number item log.count x,
        s.data x)) = (lists p).map (entry s log) := by
      apply List.map_congr_left
      intro x hx
      have hxi : x ≠ item := by
        rintro rfl
        exact hout p hx
      rw [update_of_ne hxi]
      rfl
    show update log.pushed prio _ p = log.popped p ++ (update lists prio _ p).map (fun x =>
        (update log.number item log.count x, s.data x))
    by_cases hp : p = prio
    · subst hp
      rw [update_self, update_self, List.map_append, hsame, hi.conserved p]
      simp
    · rw [update_of_ne hp, update_of_ne hp, hsame, hi.conserved p]
  · exact hi.numbered.append prio (s.data item)

omit [DecidableEq Item] in
theorem Inv.unlink {rest : List Item} {que : RtPrioQueue Item} {timeout : Int}
    (hi : Inv s log lists) (ht : s.threads t = Caller.popping timeout)
    (hl : lists prio = item :: rest) (hnext : que.next = s.que.next)
    (hrep : Represents que (Function.update lists prio rest)) :
    Inv ({ s with que := que }.setThread t (Caller.copying item)) { log with
        popped := Function.update log.popped prio
          (log.popped prio ++ [(log.number item, s.data item)]) }
      (Function.update lists prio rest) := by
  have hhead : item ∈ lists prio := by
    rw [hl]
    exact List.mem_cons_self
  have hsub : forall p x, x ∈ Function.update lists prio rest p -> x ∈ lists p ∧
    x ≠ item := by
    intro p x hx
    by_cases hp : p = prio
    · subst hp
      rw [Function.update_self] at hx
      have hnodup := hi.represents.nodup p
      rw [hl, List.nodup_cons] at hnodup
      refine ⟨by rw [hl]; exact List.mem_cons_of_mem _ hx, ?_⟩
      rintro rfl
      exact hnodup.left hx
    · rw [Function.update_of_ne hp] at hx
      refine ⟨hx, ?_⟩
      rintro rfl
      exact hp (hi.represents.apart p prio x hx hhead)
  have hholds : forall u x, (Function.update s.threads t (Caller.copying item) u).holds =
      some x -> ((s.threads u).holds = some x ∧ x ≠ item) ∨ (u = t ∧ x = item) := by
    intro u x hu
    by_cases hut : u = t
    · subst hut
      rw [Function.update_self] at hu
      cases hu
      exact Or.inr ⟨rfl, rfl⟩
    · rw [Function.update_of_ne hut] at hu
      refine Or.inl ⟨hu, ?_⟩
      rintro rfl
      exact hi.owned.queued prio x u hhead hu
  have hpopped : forall p y, y ∈ log.popped p -> y ∈ Function.update log.popped prio
        (log.popped prio ++ [(log.number item, s.data item)]) p := by
    intro p y hy
    by_cases hp : p = prio
    · subst hp
      rw [Function.update_self]
      exact List.mem_append_left _ hy
    · rwa [Function.update_of_ne hp]
  refine ⟨hrep, ⟨?_, ?_, ?_⟩, ?_, ?_,
    ⟨hi.numbered.below, hi.numbered.nodup, hi.numbered.apart⟩⟩
  · intro x hx
    have hfree := hi.owned.free x hx
    refine ⟨fun p hin => hfree.left p (hsub p x hin).left, ?_⟩
    intro u hu
    rcases hholds u x hu with ⟨hu, _⟩ | ⟨_, heq⟩
    · exact hfree.right u hu
    · rw [heq] at hfree
      exact hfree.left prio hhead
  · intro p x u hx hu
    rcases hholds u x hu with ⟨hu, _⟩ | ⟨_, heq⟩
    · exact hi.owned.queued p x u (hsub p x hx).left hu
    · exact (hsub p x hx).right heq
  · intro u v x hu hv
    rcases hholds u x hu with ⟨hu, hne⟩ | ⟨hut, heq⟩
    · rcases hholds v x hv with ⟨hv, _⟩ | ⟨_, heq⟩
      · exact hi.owned.one u v x hu hv
      · exact absurd heq hne
    · rcases hholds v x hv with ⟨_, hne⟩ | ⟨hvt, _⟩
      · exact absurd heq hne
      · rw [hut, hvt]
  · intro u
    show Ready _ _ (Function.update s.threads t _ u)
    by_cases hut : u = t
    · subst hut
      rw [Function.update_self]
      refine ⟨prio, ?_⟩
      show (log.number item, s.data item) ∈ Function.update log.popped prio _ prio
      rw [Function.update_self]
      simp
    · rw [Function.update_of_ne hut]
      exact (hi.ready u).other (fun x _ => congrFun hnext x) (fun _ _ => rfl)
        (fun _ _ => rfl) hpopped
  · intro p
    show log.pushed p = Function.update log.popped prio _ p ++
      (Function.update lists prio rest p).map (entry s log)
    by_cases hp : p = prio
    · subst hp
      rw [Function.update_self, Function.update_self, hi.conserved p, hl]
      simp [entry]
    · rw [Function.update_of_ne hp, Function.update_of_ne hp, hi.conserved p]

omit [DecidableEq Item] [DecidableEq Tid] in
theorem Inv.unlinked_cases (hi : Inv s log lists) :
    ((forall p, lists p = []) ∧ doPop s.que = some (s.que, none) ∧ unlinked s.que = none) ∨
      exists p item rest que, lists p = item :: rest ∧ (forall q, q < p -> lists q = []) ∧
        doPop s.que = some (que, some item) ∧ unlinked s.que = some (p, item) ∧
        que.next = s.que.next ∧ Represents que (Function.update lists p rest) := by
  rcases doPop_spec hi.represents with ⟨hnil, hpop⟩ |
    ⟨p, item, rest, que, hl, hlow, hpop, hnext, hrep⟩
  · exact Or.inl ⟨hnil, hpop, by rw [unlinked, hpop]⟩
  · refine Or.inr ⟨p, item, rest, que, hl, hlow, hpop, ?_, hnext, hrep⟩
    -- the lowest bit set is that of the smallest priority with an item
    have hbit : s.que.bitmap.getLsbD p = true :=
      (hi.represents.bits p).mpr (by rw [hl]; simp)
    have hne : s.que.bitmap ≠ 0 := bits_ne_zero_iff.mpr ⟨p, BitVec.lt_of_getLsbD hbit, hbit⟩
    rcases rtFfs_spec hne with ⟨i, hffs, hset, hlowest⟩
    have hip : i = p := by
      rcases Nat.lt_trichotomy i p with hlt | heq | hgt
      · have hempty := hlow i hlt
        exact absurd hempty ((hi.represents.bits i).mp hset)
      · exact heq
      · rw [hlowest p hgt] at hbit
        cases hbit
    rw [unlinked, hpop]
    simp only [hffs, hip, Nat.add_sub_cancel]

theorem step_inv {a : Act Item Data Tid} (hi : Inv s log lists)
    (hstep : step s a = some s') : exists lists', Inv s' (record s a s' log) lists' := by
  cases a with
  | push t prio data =>
    simp only [step] at hstep
    split at hstep
    · split at hstep
      · cases hstep
        exact ⟨lists, hi⟩
      · rename_i hprio
        cases hstep
        exact ⟨lists, hi.quiet rfl rfl rfl rfl (by simp [Caller.holds])
          (Nat.lt_of_not_le hprio)⟩
    · cases hstep
  | alloc t item =>
    simp only [step] at hstep
    split at hstep
    · rename_i prio data ht
      split at hstep
      · rename_i hfree
        cases hstep
        exact ⟨lists, hi.alloc ht hfree⟩
      · cases hstep
    · cases hstep
  | allocFail t =>
    simp only [step] at hstep
    split at hstep
    · cases hstep
      exact ⟨lists, hi.quiet rfl rfl rfl rfl (by simp [Caller.holds]) trivial⟩
    · cases hstep
  | fill t =>
    simp only [step] at hstep
    split at hstep
    · rename_i item prio data ht
      cases hstep
      exact ⟨lists, hi.fill ht⟩
    · cases hstep
  | link t =>
    simp only [step] at hstep
    split at hstep
    · rename_i item prio ht
      rcases hi.link ht with ⟨que, hpush, hinv⟩
      rw [hpush] at hstep
      cases hstep
      simp only [record, ht]
      exact ⟨_, hinv⟩
    · cases hstep
  | pop t timeout =>
    simp only [step] at hstep
    split at hstep
    · cases hstep
      exact ⟨lists, hi.quiet rfl rfl rfl rfl (by simp [Caller.holds]) trivial⟩
    · cases hstep
  | unlink t =>
    simp only [step] at hstep
    split at hstep
    · rename_i timeout ht
      rcases hi.unlinked_cases with ⟨_, hpop, hnone⟩ |
        ⟨p, item, rest, que, hl, _, hpop, hsome, hnext, hrep⟩
      · rw [hpop] at hstep
        simp only [record, hnone]
        simp only at hstep
        split at hstep
        · cases hstep
          exact ⟨lists, hi.quiet rfl rfl rfl rfl (by simp [Caller.holds]) trivial⟩
        · cases hstep
          exact ⟨lists, hi.quiet rfl rfl rfl rfl (by simp [Caller.holds]) trivial⟩
      · rw [hpop] at hstep
        cases hstep
        simp only [record, hsome]
        exact ⟨_, hi.unlink ht hl hnext hrep⟩
    · cases hstep
  | expire t =>
    simp only [step] at hstep
    split at hstep
    · split at hstep
      · cases hstep
        exact ⟨lists, hi.quiet rfl rfl rfl rfl (by simp [Caller.holds]) trivial⟩
      · cases hstep
    · cases hstep
  | copy t =>
    simp only [step] at hstep
    split at hstep
    · rename_i item ht
      cases hstep
      have hready := hi.ready t
      rw [ht] at hready
      exact ⟨lists, hi.quiet rfl rfl rfl rfl (by rw [ht]; exact fun _ h => h) hready⟩
    · cases hstep
  | free t =>
    simp only [step] at hstep
    split at hstep
    · rename_i item data ht
      cases hstep
      exact ⟨lists, hi.release ht⟩
    · cases hstep

end Steps

/-- The lists are described by the bits, the heads and the tails; what was pushed at a
priority is what was popped and then what is in its list; a pop takes the oldest item of the
smallest priority that has one, waits only where there is none, and gives its caller the
bytes it took; and no assertion fails. -/
structure Refines (s : State Item Data Tid) (log : Log Item Data) (lists : Nat -> List Item) :
    Prop where
  bits : forall p, s.que.bitmap.getLsbD p = true <-> s.que.head p ≠ none
  linked : forall p, Linked s.que.next (s.que.head p) (lists p)
  last : forall p, lists p ≠ [] -> s.que.tail p = (lists p).getLast?
  once : forall p, log.pushed p = log.popped p ++ (lists p).map (entry s log)
  numbered : Numbered log
  links : forall t item prio, s.threads t = Caller.linking item prio ->
    exists s', step s (Act.link t) = some s'
  unlinks : forall t timeout, s.threads t = Caller.popping timeout ->
    exists s', step s (Act.unlink t) = some s' ∧
      (((forall p, lists p = []) ∧ s'.threads t =
          if timeout = 0 then Caller.idle else Caller.suspended timeout) ∨
        exists p item rest, lists p = item :: rest ∧ (forall q, q < p -> lists q = []) ∧
          s'.threads t = Caller.copying item)
  copies : forall t item, s.threads t = Caller.copying item ->
    exists p, entry s log item ∈ log.popped p
  returns : forall t item data, s.threads t = Caller.freeing item data ->
    exists p, (log.number item, data) ∈ log.popped p

theorem Inv.refines {s : State Item Data Tid} {log : Log Item Data} {lists : Nat -> List Item}
    (hi : Inv s log lists) : Refines s log lists := by
  refine ⟨?_, hi.represents.linked, hi.represents.last, hi.conserved, hi.numbered, ?_, ?_, ?_,
    ?_⟩
  · intro p
    rw [ne_eq, hi.represents.head_none p, Bool.not_eq_false]
  · intro t item prio ht
    rcases hi.link ht with ⟨que, hpush, _⟩
    simp only [step, ht, hpush]
    exact ⟨_, rfl⟩
  · intro t timeout ht
    rcases hi.unlinked_cases with ⟨hnil, hpop, _⟩ |
      ⟨p, item, rest, que, hl, hlow, hpop, _, _, _⟩
    · simp only [step, ht, hpop]
      split
      · exact ⟨_, rfl, Or.inl ⟨hnil, update_self ..⟩⟩
      · exact ⟨_, rfl, Or.inl ⟨hnil, update_self ..⟩⟩
    · simp only [step, ht, hpop]
      exact ⟨_, rfl, Or.inr ⟨p, item, rest, hl, hlow, update_self ..⟩⟩
  · intro t item ht
    have hready := hi.ready t
    rw [ht] at hready
    exact hready
  · intro t item data ht
    have hready := hi.ready t
    rw [ht] at hready
    exact hready

omit [DecidableEq Item] [DecidableEq Tid] in
theorem start_inv (data : Item -> Data) (next : Item -> Option Item) (free : Item -> Bool) :
    Inv (start data next free : State Item Data Tid) Log.empty fun _ => [] := by
  refine ⟨⟨?_, fun _ => rfl, ?_, fun _ => List.nodup_nil, nofun⟩,
    ⟨fun _ _ => ⟨nofun, nofun⟩, nofun, nofun⟩, fun _ => trivial, fun _ => rfl,
    ⟨nofun, fun _ => List.nodup_nil, nofun⟩⟩
  · intro p
    simp [start]
  · intro p hne
    exact absurd rfl hne

/-- The queue refines its specification, whatever threads push and pop. -/
theorem prio_queue_refines {data : Item -> Data} {next : Item -> Option Item}
    {free : Item -> Bool} {acts : List (Act Item Data Tid)}
    {x : State Item Data Tid × Log Item Data}
    (hrun : Run (Graph (watched step record)) (start data next free, Log.empty) acts x) :
    exists lists, Refines x.1 x.2 lists := by
  have hinv := hrun.watched_invariant (fun s log => exists lists, Inv s log lists)
    ⟨_, start_inv data next free⟩ (by
      rintro s log a s' ⟨lists, hi⟩ hstep
      exact step_inv hi hstep)
  rcases hinv with ⟨lists, hi⟩
  exact ⟨lists, hi.refines⟩

def twoPushes : List (Act (Fin 4) Nat (Fin 3)) :=
  [Act.pop 2 (-1), Act.unlink 2, Act.push 0 5 70, Act.push 1 3 80, Act.alloc 0 2, Act.alloc 1 0,
    Act.fill 0, Act.fill 1, Act.link 1, Act.link 0, Act.unlink 2, Act.copy 2]

theorem prio_queue_refines_two :
    exists x lists, Run (Graph (watched step record))
        (start (fun _ => 0) (fun _ => none) (fun _ => true), Log.empty) twoPushes x ∧
      x.2.popped 3 = [(0, 80)] ∧ x.2.pushed 5 = [(1, 70)] ∧ Refines x.1 x.2 lists := by
  have hexec : ((exec (watched step record)
      (start (fun _ => 0) (fun _ => none) (fun _ => true), Log.empty) twoPushes).map fun x =>
        (x.2.popped 3, x.2.pushed 5)) = some ([(0, 80)], [(1, 70)]) := by
    decide
  rw [Option.map_eq_some_iff] at hexec
  rcases hexec with ⟨x, hexec, hlog⟩
  have hrun := run_of_exec hexec
  rcases prio_queue_refines hrun with ⟨lists, href⟩
  exact ⟨x, lists, hrun, congrArg Prod.fst hlog, congrArg Prod.snd hlog, href⟩

end RtThread.Vbus.PrioQueue
