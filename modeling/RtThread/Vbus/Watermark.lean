import Mathlib.Data.List.Count
import RtThread.Vbus.Ring

/-!
# Flow control of posts

`watermark_queue.h` and the loop of `rt_vbus_post`: a post raises the level of its channel for
every packet before it pushes it, and the out thread lowers the level behind every pop.
Threads wait while the level is above the high mark, and are resumed where it falls to the
low mark.
-/

namespace RtThread.Vbus.Watermark

open Transition

/-- `struct rt_watermark_queue`; its suspended threads are those that wait on its channel. -/
structure Wm where
  level : Nat
  highMark : Nat
  lowMark : Nat

/-- A thread in `rt_vbus_post` for a channel, with a priority, the bytes left and the
timeout: in front of `rt_wm_que_inc`, suspended in it, or in `rt_prio_queue_push`. -/
inductive Poster where
  | idle
  | raising (id prio left : Nat) (timeout : Int)
  | suspended (id prio left : Nat) (timeout : Int)
  | pushing (id prio left : Nat) (timeout : Int)

/-- The queues of all channels, the packets in `_bus_out_que` (priority and channel, in the
order of the pushes), the threads, and the packet popped and not counted yet. -/
structure Posting where
  wm : Nat -> Wm
  queue : List (Nat × Nat)
  threads : List Poster
  popped : Option Nat

inductive Act where
  | post (t id prio size : Nat) (timeout : Int)
  | inc (t : Nat)
  | expire (t : Nat)
  | push (t : Nat)
  | pushFail (t : Nat)
  | pop
  | dec
  | setMark (id low high : Nat)

def prioMax : Nat := 32

def raise (w : Wm) : Wm :=
  let level := (w.level + 1) % 2 ^ 32
  { w with level := if level = 0 then 2 ^ 32 - 1 else level }

def isSuspended (id : Nat) : Poster -> Bool
  | Poster.suspended k _ _ _ => k = id
  | _ => false

def isPushing (id : Nat) : Poster -> Bool
  | Poster.pushing k _ _ _ => k = id
  | _ => false

/-- `rt_thread_resume` of a thread that waits on the channel: it tests the level again. -/
def resume (id : Nat) : Poster -> Poster
  | Poster.suspended k prio left timeout =>
    if k = id then Poster.raising k prio left timeout
    else Poster.suspended k prio left timeout
  | p => p

/-- The loop of `rt_vbus_post`: the next packet, or the end of the call. -/
def nextPacket (id prio left : Nat) (timeout : Int) : Poster :=
  if left = 0 then Poster.idle else Poster.raising id prio left timeout

/-- The packet that `_do_pop` takes: the oldest of the most urgent ones. -/
def mostUrgent (queue : List (Nat × Nat)) : Option (Nat × Nat) :=
  queue.find? fun x => queue.all fun y => x.1 ≤ y.1

namespace Posting

def thread (s : Posting) (t : Nat) : Option Poster := s.threads[t]?

def setThread (s : Posting) (t : Nat) (p : Poster) : Posting :=
  { s with threads := s.threads.set t p }

def setWm (s : Posting) (id : Nat) (w : Wm) : Posting :=
  { s with wm := Function.update s.wm id w }

/-- One round of `rt_wm_que_inc`. -/
def queInc (s : Posting) (t id prio left : Nat) (timeout : Int) : Posting :=
  if (s.wm id).highMark < (s.wm id).level then
    if timeout = 0 then s.setThread t Poster.idle
    else s.setThread t (Poster.suspended id prio left timeout)
  else (s.setWm id (raise (s.wm id))).setThread t (Poster.pushing id prio left timeout)

def queDec (s : Posting) (id : Nat) : Posting :=
  let w := s.wm id
  if w.level = 0 then s
  else
    let s := s.setWm id { w with level := w.level - 1 }
    if w.level - 1 = w.lowMark then { s with threads := s.threads.map (resume id) } else s

end Posting

/-- A post has passed the tests of the channel; `expire` is the timer of a suspended thread. -/
def postStep (s : Posting) : Act -> Option Posting
  | Act.post t id prio size timeout =>
    match s.thread t with
    | some Poster.idle =>
      if id < 32 then some (s.setThread t (nextPacket id prio size timeout)) else none
    | _ => none
  | Act.inc t =>
    match s.thread t with
    | some (Poster.raising id prio left timeout) => some (s.queInc t id prio left timeout)
    | _ => none
  | Act.expire t =>
    match s.thread t with
    | some (Poster.suspended _ _ _ timeout) =>
      if 0 < timeout then some (s.setThread t Poster.idle) else none
    | _ => none
  | Act.push t =>
    match s.thread t with
    | some (Poster.pushing id prio left timeout) =>
      if prio < prioMax then
        some { s.setThread t (nextPacket id prio (left - min left maxPktSz) timeout) with
          queue := s.queue ++ [(prio, id)] }
      else none
    | _ => none
  | Act.pushFail t =>
    match s.thread t with
    | some (Poster.pushing _ _ _ _) => some (s.setThread t Poster.idle)
    | _ => none
  | Act.pop =>
    match s.popped, mostUrgent s.queue with
    | none, some x => some { s with queue := s.queue.erase x, popped := some x.2 }
    | _, _ => none
  | Act.dec => s.popped.map fun id => { s.queDec id with popped := none }
  | Act.setMark id low high =>
    if (0 < id ∧ id < 32) ∧ low ≤ high then
      some (s.setWm id { s.wm id with highMark := high, lowMark := low })
    else none

/-- `rt_vbus_init` with `nr` blocks in a ring, and a number of threads. -/
def start (nr threads : Nat) : Posting where
  wm id := if id = 0 then ⟨0, 2 ^ 32 - 1, 0⟩ else ⟨0, nr * 2 / 3, nr / 3⟩
  queue := []
  threads := List.replicate threads Poster.idle
  popped := none

/-!
## The level
-/

/-- The packets that the level of a channel counts: in the queue, taken by a post and not
pushed yet, or popped and not counted yet. -/
def Posting.load (s : Posting) (id : Nat) : Nat :=
  s.queue.countP (fun x => x.2 = id) + s.threads.countP (isPushing id) +
    if s.popped = some id then 1 else 0

/-- No push fails, the level does not pass the largest number, and marks are not set above the
level of a channel on which threads wait. -/
def Careful (s : Posting) : Act -> Prop
  | Act.inc t => forall id prio left timeout,
      s.thread t = some (Poster.raising id prio left timeout) -> (s.wm id).level + 1 < 2 ^ 32
  | Act.pushFail _ => False
  | Act.setMark id low _ => s.threads.any (isSuspended id) = true -> low < (s.wm id).level
  | _ => True

structure Exact (s : Posting) (id : Nat) : Prop where
  level : (s.wm id).level = s.load id
  marks : (s.wm id).lowMark ≤ (s.wm id).highMark
  waiting : s.threads.any (isSuspended id) = true -> (s.wm id).lowMark < (s.wm id).level

section Threads

variable {threads : List Poster} {t id : Nat} {p p' : Poster}

theorem countP_set_thread (h : threads[t]? = some p) :
    (threads.set t p').countP (isPushing id) + (if isPushing id p then 1 else 0) =
      threads.countP (isPushing id) + if isPushing id p' then 1 else 0 := by
  obtain ⟨hlt, hget⟩ := List.getElem?_eq_some_iff.1 h
  have hle : (if isPushing id p then 1 else 0) ≤ threads.countP (isPushing id) := by
    rw [← hget]
    exact List.boole_getElem_le_countP hlt
  rw [List.countP_set hlt, hget]
  omega

theorem any_of_set (hp : isSuspended id p' = false)
    (h : (threads.set t p').any (isSuspended id) = true) :
    threads.any (isSuspended id) = true := by
  obtain ⟨q, hq, hsusp⟩ := List.any_eq_true.1 h
  rcases List.mem_or_eq_of_mem_set hq with hq | rfl
  · exact List.any_eq_true.2 ⟨q, hq, hsusp⟩
  · rw [hp] at hsusp
    cases hsusp

theorem isPushing_resume (k : Nat) : isPushing id (resume k p) = isPushing id p := by
  cases p with
  | suspended j prio left timeout =>
    rw [resume]
    split <;> rfl
  | _ => rfl

theorem isSuspended_resume (k : Nat) :
    isSuspended id (resume k p) = true -> isSuspended id p = true ∧ id ≠ k := by
  cases p with
  | suspended j prio left timeout =>
    rw [resume]
    split
    · exact nofun
    · rename_i hne
      intro h
      have hj : j = id := of_decide_eq_true h
      exact ⟨h, by rw [← hj]; exact hne⟩
  | _ => exact nofun

theorem countP_resume (k : Nat) :
    (threads.map (resume k)).countP (isPushing id) = threads.countP (isPushing id) := by
  rw [List.countP_map]
  congr 1
  funext q
  exact isPushing_resume k

end Threads

/-!
## The steps keep the level exact
-/

section Steps

variable {s s' : Posting} {t id k : Nat} {p p' : Poster}

theorem isPushing_nextPacket (k prio left : Nat) (timeout : Int) :
    isPushing id (nextPacket k prio left timeout) = false := by
  unfold nextPacket
  split <;> rfl

theorem isSuspended_nextPacket (k prio left : Nat) (timeout : Int) :
    isSuspended id (nextPacket k prio left timeout) = false := by
  unfold nextPacket
  split <;> rfl

theorem load_setThread (ht : s.thread t = some p) :
    (s.setThread t p').load id + (if isPushing id p then 1 else 0) =
      s.load id + if isPushing id p' then 1 else 0 := by
  have hcount := @countP_set_thread s.threads t id p p' ht
  show s.queue.countP _ + (s.threads.set t p').countP _ +
    (if s.popped = some id then 1 else 0) + _ = _
  unfold Posting.load
  omega

theorem wm_setWm_self (w : Wm) : (s.setWm k w).wm k = w := Function.update_self ..

theorem wm_setWm_of_ne (hk : k ≠ id) (w : Wm) : (s.setWm k w).wm id = s.wm id :=
  Function.update_of_ne (Ne.symm hk) ..

theorem exact_of_wm {w : Wm} (hwm : s.wm id = w) (hlevel : w.level = s.load id)
    (hmarks : w.lowMark ≤ w.highMark)
    (hwaiting : s.threads.any (isSuspended id) = true -> w.lowMark < w.level) : Exact s id := by
  subst hwm
  exact ⟨hlevel, hmarks, hwaiting⟩

theorem Exact.elsewhere (h : Exact s id) (hwm : s'.wm id = s.wm id) (hload : s'.load id = s.load id)
    (hany : s'.threads.any (isSuspended id) = true -> s.threads.any (isSuspended id) = true) :
    Exact s' id :=
  exact_of_wm hwm (h.level.trans hload.symm) h.marks fun hw => h.waiting (hany hw)

theorem Exact.setThread (h : Exact s id) (ht : s.thread t = some p)
    (hp : isPushing id p = false) (hp' : isPushing id p' = false)
    (hsusp : isSuspended id p' = false) : Exact (s.setThread t p') id := by
  have hload := @load_setThread s t id p p' ht
  rw [hp, hp'] at hload
  exact h.elsewhere rfl hload (any_of_set hsusp)

variable {prio left : Nat} {timeout : Int}

theorem Exact.suspend (h : Exact s id) (ht : s.thread t = some (Poster.raising k prio left timeout))
    (hhigh : (s.wm k).highMark < (s.wm k).level) :
    Exact (s.setThread t (Poster.suspended k prio left timeout)) id := by
  by_cases hk : k = id
  · subst hk
    refine ⟨?_, h.marks, fun _ => Nat.lt_of_le_of_lt h.marks hhigh⟩
    have hload := @load_setThread s t k _ (Poster.suspended k prio left timeout) ht
    exact h.level.trans hload.symm
  · exact h.setThread ht rfl rfl (decide_eq_false hk)

theorem Exact.raise (h : Exact s id) (ht : s.thread t = some (Poster.raising k prio left timeout))
    (hsmall : (s.wm k).level + 1 < 2 ^ 32) :
    Exact ((s.setWm k (raise (s.wm k))).setThread t (Poster.pushing k prio left timeout)) id := by
  have hload : (s.setThread t (Poster.pushing k prio left timeout)).load id =
      s.load id + if isPushing id (Poster.pushing k prio left timeout) then 1 else 0 :=
    load_setThread ht
  have hany : (s.threads.set t (Poster.pushing k prio left timeout)).any (isSuspended id) =
      true -> s.threads.any (isSuspended id) = true := any_of_set rfl
  by_cases hk : k = id
  · subst hk
    have hraise : Watermark.raise (s.wm k) = { s.wm k with level := (s.wm k).level + 1 } := by
      rw [Watermark.raise, Nat.mod_eq_of_lt hsmall]
      simp
    have hpush : isPushing k (Poster.pushing k prio left timeout) = true := decide_eq_true rfl
    rw [if_pos hpush] at hload
    refine exact_of_wm ((wm_setWm_self _).trans hraise) ?_ ?_ ?_
    · exact (congrArg (· + 1) h.level).trans hload.symm
    · exact h.marks
    · intro hw
      exact Nat.lt_succ_of_lt (h.waiting (hany hw))
  · rw [if_neg (by simpa [isPushing] using hk)] at hload
    exact h.elsewhere (wm_setWm_of_ne hk _) hload hany

theorem Exact.push (h : Exact s id) (ht : s.thread t = some (Poster.pushing k prio left timeout))
    (hp' : isPushing id p' = false) (hsusp : isSuspended id p' = false) :
    Exact { s.setThread t p' with queue := s.queue ++ [(prio, k)] } id := by
  refine h.elsewhere rfl ?_ (any_of_set hsusp)
  have hcount := @countP_set_thread s.threads t id _ p' ht
  have hpushed : isPushing id (Poster.pushing k prio left timeout) = decide (k = id) := rfl
  rw [hp', if_neg Bool.false_ne_true, hpushed] at hcount
  show (s.queue ++ [(prio, k)]).countP _ + (s.threads.set t p').countP _ +
    (if s.popped = some id then 1 else 0) = s.load id
  rw [List.countP_append, List.countP_singleton, Posting.load]
  show _ + (if decide (k = id) = true then 1 else 0) + _ + _ = _
  omega

theorem mem_of_mostUrgent {queue : List (Nat × Nat)} {x : Nat × Nat}
    (h : mostUrgent queue = some x) : x ∈ queue :=
  List.mem_of_find?_eq_some h

theorem Exact.pop (h : Exact s id) {x : Nat × Nat} (hpopped : s.popped = none)
    (hx : mostUrgent s.queue = some x) :
    Exact { s with queue := s.queue.erase x, popped := some x.2 } id where
  level := by
    have hmem := mem_of_mostUrgent hx
    have hpos : x.2 = id -> 0 < s.queue.countP (fun y => y.2 = id) := by
      intro hid
      exact List.countP_pos_iff.2 ⟨x, hmem, decide_eq_true hid⟩
    show (s.wm id).level = (s.queue.erase x).countP _ + s.threads.countP _ +
      (if some x.2 = some id then 1 else 0)
    rw [h.level, Posting.load, hpopped, List.countP_erase]
    simp only [hmem, true_and, decide_eq_true_eq, Option.some.injEq]
    by_cases hid : x.2 = id
    · have := hpos hid
      simp [hid]
      omega
    · simp [hid]
  marks := h.marks
  waiting := h.waiting

theorem Exact.dec (h : Exact s id) (hpopped : s.popped = some k) :
    Exact { s.queDec k with popped := none } id := by
  have hresumed : forall j, (s.threads.map (resume j)).any (isSuspended id) = true ->
      s.threads.any (isSuspended id) = true ∧ id ≠ j := by
    intro j hw
    obtain ⟨q, hq, hsusp⟩ := List.any_eq_true.1 hw
    obtain ⟨q', hq', rfl⟩ := List.mem_map.1 hq
    obtain ⟨hsusp', hne⟩ := isSuspended_resume j hsusp
    exact ⟨List.any_eq_true.2 ⟨q', hq', hsusp'⟩, hne⟩
  have hlevel := h.level
  unfold Posting.queDec
  by_cases hk : k = id
  · subst hk
    rw [Posting.load, hpopped, if_pos rfl] at hlevel
    simp only
    rw [if_neg (by omega)]
    split
    · -- the level reaches the low mark
      refine exact_of_wm (wm_setWm_self _) ?_ ?_ ?_
      · show (s.wm k).level - 1 = s.queue.countP _ + (s.threads.map (resume k)).countP _ + 0
        rw [countP_resume]
        omega
      · exact h.marks
      · intro hw
        exact absurd rfl (hresumed k hw).2
    · rename_i hlow
      refine exact_of_wm (wm_setWm_self _) ?_ ?_ ?_
      · show (s.wm k).level - 1 = s.queue.countP _ + s.threads.countP _ + 0
        omega
      · exact h.marks
      · intro hw
        have hwait := h.waiting hw
        show (s.wm k).lowMark < (s.wm k).level - 1
        omega
  · have hload : s.load id = s.queue.countP (fun x => x.2 = id) +
        s.threads.countP (isPushing id) := by
      rw [Posting.load, hpopped, if_neg (by rintro ⟨⟩; exact hk rfl)]
      rfl
    simp only
    split
    · exact h.elsewhere rfl hload.symm fun hw => hw
    split
    · refine h.elsewhere (wm_setWm_of_ne hk _) ?_ fun hw => (hresumed k hw).1
      show s.queue.countP _ + (s.threads.map (resume k)).countP _ + 0 = _
      rw [countP_resume]
      exact hload.symm
    · exact h.elsewhere (wm_setWm_of_ne hk _) hload.symm fun hw => hw

theorem Exact.setMark (h : Exact s id) {low high : Nat} (hmarks : low ≤ high)
    (hlow : s.threads.any (isSuspended k) = true -> low < (s.wm k).level) :
    Exact (s.setWm k { s.wm k with highMark := high, lowMark := low }) id := by
  by_cases hk : k = id
  · subst hk
    exact exact_of_wm (wm_setWm_self _) h.level hmarks hlow
  · exact h.elsewhere (wm_setWm_of_ne hk _) rfl fun hw => hw

theorem Exact.queInc (h : Exact s id) (ht : s.thread t = some (Poster.raising k prio left timeout))
    (hsmall : (s.wm k).level + 1 < 2 ^ 32) : Exact (s.queInc t k prio left timeout) id := by
  unfold Posting.queInc
  split
  · rename_i hhigh
    split
    · exact h.setThread ht rfl rfl rfl
    · exact h.suspend ht hhigh
  · exact h.raise ht hsmall

theorem step_exact {a : Act} (h : Exact s id) (hok : Careful s a)
    (hs : postStep s a = some s') : Exact s' id := by
  cases a with
  | post t k prio size timeout =>
    simp only [postStep] at hs
    split at hs
    · rename_i ht
      split at hs
      · cases hs
        exact h.setThread ht rfl (isPushing_nextPacket ..) (isSuspended_nextPacket ..)
      · cases hs
    · cases hs
  | inc t =>
    simp only [postStep] at hs
    split at hs
    · rename_i ht
      cases hs
      exact h.queInc ht (hok _ _ _ _ ht)
    · cases hs
  | expire t =>
    simp only [postStep] at hs
    split at hs
    · rename_i ht
      split at hs
      · cases hs
        exact h.setThread ht rfl rfl rfl
      · cases hs
    · cases hs
  | push t =>
    simp only [postStep] at hs
    split at hs
    · rename_i ht
      split at hs
      · cases hs
        exact h.push ht (isPushing_nextPacket ..) (isSuspended_nextPacket ..)
      · cases hs
    · cases hs
  | pushFail t => exact False.elim hok
  | pop =>
    simp only [postStep] at hs
    split at hs
    · rename_i hpopped hx
      cases hs
      exact h.pop hpopped hx
    · cases hs
  | dec =>
    obtain ⟨k, hpopped, rfl⟩ := Option.map_eq_some_iff.1 hs
    exact h.dec hpopped
  | setMark k low high =>
    simp only [postStep] at hs
    split at hs
    · rename_i hmarks
      cases hs
      exact h.setMark hmarks.2 hok
    · cases hs

end Steps

theorem start_exact (nr threads id : Nat) : Exact (start nr threads) id where
  level := by
    have hcount : (List.replicate threads Poster.idle).countP (isPushing id) = 0 :=
      List.countP_eq_zero.2 fun p hp => by
        rw [List.eq_of_mem_replicate hp]
        exact Bool.false_ne_true
    show (if id = 0 then (⟨0, 2 ^ 32 - 1, 0⟩ : Wm) else ⟨0, nr * 2 / 3, nr / 3⟩).level =
      0 + (List.replicate threads Poster.idle).countP (isPushing id) + 0
    rw [hcount]
    split <;> rfl
  marks := by
    show (if id = 0 then (⟨0, 2 ^ 32 - 1, 0⟩ : Wm) else ⟨0, nr * 2 / 3, nr / 3⟩).lowMark ≤
      (if id = 0 then (⟨0, 2 ^ 32 - 1, 0⟩ : Wm) else ⟨0, nr * 2 / 3, nr / 3⟩).highMark
    split
    · exact Nat.zero_le _
    · show nr / 3 ≤ nr * 2 / 3
      omega
  waiting h := by
    obtain ⟨p, hp, hsusp⟩ := List.any_eq_true.1 h
    rw [List.eq_of_mem_replicate hp] at hsusp
    cases hsusp

/-!
## Every run
-/

/-- The level of every channel counts its packets, in the queue or in a post; one that the
out thread has popped is counted until `rt_wm_que_dec`. Nobody waits at the low mark. -/
theorem post_flow_exact {nr threads : Nat} {labels : List Act} {s : Posting}
    (hrun : Run (Guarded Careful (Graph postStep)) (start nr threads) labels s) (id : Nat) :
    (s.wm id).level = s.load id ∧
      (s.popped ≠ some id -> (s.wm id).level =
        s.queue.countP (fun x => x.2 = id) + s.threads.countP (isPushing id)) ∧
      ((s.wm id).level ≤ (s.wm id).lowMark -> s.threads.any (isSuspended id) = false) := by
  have h : Exact s id := by
    apply hrun.invariant (fun s => Exact s id) (start_exact nr threads id)
    intro s a s' h hs
    exact step_exact h hs.1 hs.2
  refine ⟨h.level, ?_, ?_⟩
  · intro hpopped
    rw [h.level, Posting.load, if_neg hpopped]
    rfl
  · intro hlow
    rw [Bool.eq_false_iff]
    intro hwait
    exact absurd (h.waiting hwait) (Nat.not_lt.2 hlow)

/-- One packet is posted on channel 1 and popped. -/
theorem post_flow_exact_popped :
    exists s, Run (Guarded Careful (Graph postStep)) (start 3 1)
        [Act.post 0 1 2 1 0, Act.inc 0, Act.push 0, Act.pop] s ∧
      s.popped = some 1 ∧ (s.wm 1).level = s.load 1 ∧
      ((s.wm 1).level ≤ (s.wm 1).lowMark -> s.threads.any (isSuspended 1) = false) := by
  have hpost : Run (Guarded Careful (Graph postStep)) (start 3 1) [Act.post 0 1 2 1 0] _ :=
    Run.snoc Run.nil ⟨trivial, rfl⟩
  have hinc : Run (Guarded Careful (Graph postStep)) (start 3 1)
      [Act.post 0 1 2 1 0, Act.inc 0] _ :=
    Run.snoc hpost ⟨fun _ _ _ _ h => by cases h; decide, rfl⟩
  have hpush : Run (Guarded Careful (Graph postStep)) (start 3 1)
      [Act.post 0 1 2 1 0, Act.inc 0, Act.push 0] _ := Run.snoc hinc ⟨trivial, rfl⟩
  have hrun : Run (Guarded Careful (Graph postStep)) (start 3 1)
      [Act.post 0 1 2 1 0, Act.inc 0, Act.push 0, Act.pop] _ := Run.snoc hpush ⟨trivial, rfl⟩
  obtain ⟨hlevel, -, hlow⟩ := post_flow_exact hrun 1
  exact ⟨_, hrun, rfl, hlevel, hlow⟩

/-- The push of a post with a priority out of range fails behind `rt_wm_que_inc`. -/
theorem failed_push_keeps_level :
    exists s, Run (Graph postStep) (start 3 1)
        [Act.post 0 1 40 1 0, Act.inc 0, Act.pushFail 0] s ∧
      (s.wm 1).level = 1 ∧ s.queue = [] ∧ s.thread 0 = some Poster.idle ∧ s.popped = none ∧
      s.load 1 = 0 :=
  ⟨_, run_of_exec rfl, rfl, rfl, rfl, rfl, rfl⟩

end RtThread.Vbus.Watermark
