import RtThread.Ipc.MessageQueue
import RtThread.Library.Chain
import Mathlib.Data.List.Forall2
import Mathlib.Data.List.Perm.Subperm

/-!
# The slots of a message queue

At all times the slots are divided among the free list, the queue and the calls
in progress, and the queued slots carry the messages that were linked, in the
order the links made.
-/

namespace RtThread.Ipc.MessageQueue

open Kernel
open Function (update update_apply update_of_ne update_self)
open Chain
open Transition

/-!
## The history of messages
-/

abbrev Message := List Byte

/-- What the links and unlinks make of the queue, which message each receive in progress has
taken, and what the receives have returned. -/
structure History where
  queue : List Message
  taken : Caller -> Option Message
  delivered : List (Option Message × List Byte)

def emptyHistory : History :=
  { queue := [], taken := fun _ => none, delivered := [] }

/-- A message is linked at the tail, an urgent one at the head; a receive takes
the head. -/
def History.note (h : History) (c : Caller) : Outcome -> History
  | Outcome.linked urgent buffer =>
    if urgent then { h with queue := buffer :: h.queue }
    else { h with queue := h.queue ++ [buffer] }
  | Outcome.unlinked =>
    { h with
      queue := h.queue.tail
      taken := Function.update h.taken c h.queue.head? }
  | Outcome.received got =>
    { h with delivered := h.delivered ++ [(h.taken c, got)] }
  | Outcome.reset => { h with queue := [] }
  | _ => h

def Op.caller : Op -> Caller
  | Op.send c _ _ => c
  | Op.recv c _ _ => c
  | Op.go c => c
  | Op.again t _ => Caller.thread t
  | Op.timeout t => Caller.thread t
  | Op.reset => Caller.interrupt 0

def recordMessage (s : State) (op : Op) (_s' : State) (h : History) : History :=
  match outcomeOf s op with
  | none => h
  | some o => h.note op.caller o

/-!
## The invariant
-/

def Pc.slot : Pc -> Option Slot
  | Pc.sending _ msg _ _ => some msg
  | Pc.receiving msg _ _ => some msg
  | _ => none

/-- These bytes start with the message; the length is not stored with it. -/
def Carries (bytes : Nat -> Byte) (m : Message) : Prop :=
  forall (i : Nat) x, m[i]? = some x -> bytes i = x

/-- What was copied agrees with the message as far as both go. -/
def Agrees (m : Message) (got : List Byte) : Prop :=
  forall (i : Nat) x y, m[i]? = some x -> got[i]? = some y -> x = y

def CallOk (mq : RtMessageQueue) (taken : Option Message) : Pc -> Prop
  | Pc.sending urgent msg buffer progress =>
    (forall i x, i + 1 < progress -> buffer[i]? = some x ->
      mq.body msg i = x) ∧
    (urgent = false -> 0 < progress -> mq.next msg = none)
  | Pc.receiving msg _ got =>
    (exists m, taken = some m ∧ Carries (mq.body msg) m) ∧
    forall i y, got[i]? = some y -> mq.body msg i = y
  | _ => True

def Held (pc : Caller -> Pc) (x : Slot) : Prop :=
  exists c, (pc c).slot = some x

/-- The slots are divided among two lists and the calls in progress. -/
structure Divided (maxMsgs : Nat) (pc : Caller -> Pc)
    (free queue : List Slot) : Prop where
  nodup : (free ++ queue).Nodup
  cover : forall x, x < maxMsgs <->
    x ∈ free ∨ x ∈ queue ∨ Held pc x
  apart : forall c x, (pc c).slot = some x -> x ∉ free ∧ x ∉ queue
  once : forall c c' x, (pc c).slot = some x -> (pc c').slot = some x -> c = c'

structure Consistent (mq : RtMessageQueue) (pc : Caller -> Pc) (h : History)
    (free queue : List Slot) : Prop where
  freeChain : Linked mq.next mq.msgQueueFree free
  queueChain : Linked mq.next mq.msgQueueHead queue
  tail : mq.msgQueueTail = queue.getLast?
  divided : Divided mq.maxMsgs pc free queue
  entry : mq.entry = queue.length
  small : mq.maxMsgs < 65536
  contents : List.Forall₂ (fun x m => Carries (mq.body x) m) queue h.queue
  calls : forall c, CallOk mq (h.taken c) (pc c)
  delivered : forall d, d ∈ h.delivered ->
    exists m, d.1 = some m ∧ Agrees m d.2

variable {mq mq' : RtMessageQueue} {pc : Caller -> Pc} {h : History}
  {free queue : List Slot} {c : Caller} {x : Slot} {p : Pc} {n : Nat}

/-!
## Moving slots
-/

theorem held_of_grab (hnone : (pc c).slot = none) (hp : p.slot = some x)
    (y : Slot) : Held (update pc c p) y <-> y = x ∨ Held pc y := by
  constructor
  · intro hy
    rcases hy with ⟨d, hd⟩
    by_cases hdc : d = c
    · subst hdc
      rw [update_self, hp] at hd
      exact Or.inl (Option.some.inj hd).symm
    · rw [update_of_ne hdc] at hd
      exact Or.inr ⟨d, hd⟩
  · intro hy
    rcases hy with heq | ⟨d, hd⟩
    · exists c
      rw [update_self, hp, heq]
    · exists d
      have hdc : d ≠ c := by
        intro heq
        rw [heq, hnone] at hd
        cases hd
      rw [update_of_ne hdc]
      exact hd

theorem held_of_keep (hp : p.slot = (pc c).slot) (y : Slot) :
    Held (update pc c p) y <-> Held pc y := by
  have hslot : forall d, (update pc c p d).slot = (pc d).slot := by
    intro d
    by_cases hdc : d = c
    · subst hdc
      rw [update_self, hp]
    · rw [update_of_ne hdc]
  unfold Held
  simp only [hslot]

theorem held_of_release (honce : forall c c' x, (pc c).slot = some x -> (pc c').slot = some x ->
      c = c')
    (hx : (pc c).slot = some x) (hp : p.slot = none) (y : Slot) :
    Held (update pc c p) y <-> y ≠ x ∧ Held pc y := by
  constructor
  · intro hy
    rcases hy with ⟨d, hd⟩
    by_cases hdc : d = c
    · subst hdc
      rw [update_self, hp] at hd
      cases hd
    · rw [update_of_ne hdc] at hd
      refine ⟨?_, d, hd⟩
      intro heq
      subst heq
      exact hdc (honce d c y hd hx)
  · intro hy
    rcases hy with ⟨hne, d, hd⟩
    exists d
    have hdc : d ≠ c := by
      intro heq
      rw [heq, hx] at hd
      exact hne (Option.some.inj hd).symm
    rw [update_of_ne hdc]
    exact hd

theorem Divided.grab (hd : Divided n pc (x :: free) queue)
    (hnone : (pc c).slot = none) (hp : p.slot = some x) :
    Divided n (update pc c p) free queue := by
  have hheld := held_of_grab hnone hp
  rcases hd with ⟨hnodup, hcover, hapart, honce⟩
  constructor <;> grind -linarith [update_apply]

theorem Divided.unlink (hd : Divided n pc free (x :: queue))
    (hnone : (pc c).slot = none) (hp : p.slot = some x) :
    Divided n (update pc c p) free queue := by
  have hheld := held_of_grab hnone hp
  rcases hd with ⟨hnodup, hcover, hapart, honce⟩
  constructor <;> grind -linarith [update_apply]

theorem Divided.keep (hd : Divided n pc free queue) (hp : p.slot = (pc c).slot) :
    Divided n (update pc c p) free queue := by
  have hheld := held_of_keep hp
  rcases hd with ⟨hnodup, hcover, hapart, honce⟩
  constructor <;> grind -linarith [update_apply]

theorem Divided.putFree (hd : Divided n pc free queue)
    (hx : (pc c).slot = some x) (hp : p.slot = none) :
    Divided n (update pc c p) (x :: free) queue := by
  have hheld := held_of_release hd.once hx hp
  have hin : Held pc x := ⟨c, hx⟩
  rcases hd with ⟨hnodup, hcover, hapart, honce⟩
  constructor <;> grind -linarith [update_apply]

theorem Divided.link {queue' : List Slot} (hd : Divided n pc free queue)
    (hx : (pc c).slot = some x) (hp : p.slot = none)
    (hperm : queue'.Perm (x :: queue)) :
    Divided n (update pc c p) free queue' := by
  have hmem : forall y, y ∈ queue' <-> y = x ∨ y ∈ queue := by
    intro y
    rw [hperm.mem_iff, List.mem_cons]
  have hnodup' : (free ++ queue').Nodup <-> (free ++ x :: queue).Nodup :=
    (hperm.append_left free).nodup_iff
  have hheld := held_of_release hd.once hx hp
  have hin : Held pc x := ⟨c, hx⟩
  rcases hd with ⟨hnodup, hcover, hapart, honce⟩
  constructor <;> grind -linarith [update_apply]

theorem Divided.length_le (hd : Divided n pc free queue) : queue.length ≤ n := by
  have hnodup := (List.nodup_append.mp hd.nodup).right.left
  have hsub : queue ⊆ List.range n := by
    intro y hy
    exact List.mem_range.mpr ((hd.cover y).mpr (Or.inr (Or.inl hy)))
  have hle := (hnodup.subperm hsub).length_le
  rwa [List.length_range] at hle

/-!
## One step
-/

theorem CallOk.frame {taken : Option Message} (hcall : CallOk mq taken p) (hne : p.slot ≠ some x)
    (hbody : forall y, y ≠ x -> mq'.body y = mq.body y)
    (hnext : forall y, p.slot = some y -> mq'.next y = mq.next y) :
    CallOk mq' taken p := by
  cases p with
  | idle => trivial
  | waiting size timeout => trivial
  | sending urgent msg buffer progress =>
    have hmsg : msg ≠ x := by
      intro heq
      exact hne (by rw [heq]; rfl)
    simp only [CallOk, hbody msg hmsg, hnext msg rfl]
    exact hcall
  | receiving msg size got =>
    have hmsg : msg ≠ x := by
      intro heq
      exact hne (by rw [heq]; rfl)
    simp only [CallOk, hbody msg hmsg]
    exact hcall

theorem contents_frame {ms : List Message}
    (hcont : List.Forall₂ (fun y m => Carries (mq.body y) m) queue ms)
    (hbody : forall y, y ∈ queue -> mq'.body y = mq.body y) :
    List.Forall₂ (fun y m => Carries (mq'.body y) m) queue ms := by
  induction hcont with
  | nil => exact List.Forall₂.nil
  | cons hhead _ ih =>
    apply List.Forall₂.cons
    · rw [hbody _ List.mem_cons_self]
      exact hhead
    · exact ih fun y hy => hbody y (List.mem_cons_of_mem _ hy)

theorem Consistent.move (hc : Consistent mq pc h free queue)
    (hslot : (pc c).slot = none) (hp : p.slot = none) :
    Consistent mq (update pc c p) h free queue := by
  refine { hc with divided := hc.divided.keep (hp.trans hslot.symm), calls := ?_ }
  intro d
  by_cases hdc : d = c
  · subst hdc
    rw [update_self]
    cases p with
    | idle => trivial
    | waiting size timeout => trivial
    | sending urgent msg buffer progress => cases hp
    | receiving msg size got => cases hp
  · rw [update_of_ne hdc]
    exact hc.calls d

variable {urgent : Bool} {buffer : Message} {size : Nat}

theorem Consistent.sendGrab (hc : Consistent mq pc h free queue) (hslot : (pc c).slot = none)
    (hfree : mq.msgQueueFree = some x) :
    exists free', Consistent { mq with msgQueueFree := mq.next x }
      (update pc c (Pc.sending urgent x buffer 0)) h free' queue := by
  have hchain := hc.freeChain
  rw [hfree] at hchain
  rcases hchain.cons_of_some with ⟨rest, heq, hrest⟩
  subst heq
  refine ⟨rest, { hc with
    freeChain := hrest
    divided := hc.divided.grab hslot rfl
    calls := ?_ }⟩
  intro d
  by_cases hdc : d = c
  · subst hdc
    rw [update_self]
    constructor
    · intro i y hi
      cases hi
    · intro _ hpos
      cases hpos
  · rw [update_of_ne hdc]
    exact hc.calls d

theorem Consistent.own (hc : Consistent mq pc h free queue)
    (hx : (pc c).slot = some x) (hp : p.slot = some x)
    {next' : Slot -> Option Slot} {body' : Slot -> Nat -> Byte}
    (hnext : forall y, y ≠ x -> next' y = mq.next y)
    (hbody : forall y, y ≠ x -> body' y = mq.body y)
    (hfree : Linked next' mq.msgQueueFree free)
    (hqueue : Linked next' mq.msgQueueHead queue)
    (hcall : CallOk { mq with next := next', body := body' } (h.taken c) p) :
    Consistent { mq with next := next', body := body' } (update pc c p) h free queue := by
  refine { hc with
    freeChain := hfree
    queueChain := hqueue
    divided := hc.divided.keep (hp.trans hx.symm)
    contents := ?_
    calls := ?_ }
  · apply contents_frame hc.contents
    intro y hy
    apply hbody
    intro heq
    subst heq
    exact (hc.divided.apart c y hx).right hy
  · intro d
    by_cases hdc : d = c
    · subst hdc
      rw [update_self]
      exact hcall
    · rw [update_of_ne hdc]
      have hne : (pc d).slot ≠ some x := by
        intro hd
        exact hdc (hc.divided.once d c x hd hx)
      apply (hc.calls d).frame hne hbody
      intro y hy
      apply hnext
      intro heq
      subst heq
      exact hne hy

theorem Consistent.clear (hc : Consistent mq pc h free queue)
    (hpc : pc c = Pc.sending urgent x buffer 0) :
    Consistent (if urgent then mq else { mq with next := update mq.next x none })
      (update pc c (Pc.sending urgent x buffer 1)) h free queue := by
  have hx : (pc c).slot = some x := by
    rw [hpc]
    rfl
  have happart := hc.divided.apart c x hx
  cases urgent with
  | true =>
    apply hc.own hx rfl (fun _ _ => rfl) (fun _ _ => rfl) hc.freeChain hc.queueChain
    constructor
    · intro i y hi
      omega
    · intro hurgent
      cases hurgent
  | false =>
    apply hc.own hx rfl
    · intro y hy
      exact update_of_ne hy ..
    · intro y _
      rfl
    · exact hc.freeChain.frame happart.left none
    · exact hc.queueChain.frame happart.right none
    · constructor
      · intro i y hi
        omega
      · intro _ _
        exact update_self ..

theorem Consistent.fill {i : Nat} {b : Byte} (hc : Consistent mq pc h free queue)
    (hpc : pc c = Pc.sending urgent x buffer (i + 1))
    (hb : buffer[i]? = some b) :
    Consistent { mq with
        body := update mq.body x (update (mq.body x) i b) }
      (update pc c (Pc.sending urgent x buffer (i + 2))) h free
      queue := by
  have hx : (pc c).slot = some x := by
    rw [hpc]
    rfl
  have hcall := hc.calls c
  rw [hpc] at hcall
  rcases hcall with ⟨hcopied, hend⟩
  apply hc.own hx rfl
  · intro y _
    rfl
  · intro y hy
    exact update_of_ne hy ..
  · exact hc.freeChain
  · exact hc.queueChain
  · constructor
    · intro j y hj hy
      simp only [update_self]
      by_cases hij : j = i
      · subst hij
        rw [hb] at hy
        rw [update_self]
        exact Option.some.inj hy
      · rw [update_of_ne hij]
        exact hcopied j y (by omega) hy
    · intro hurgent _
      exact hend hurgent (Nat.succ_pos i)

theorem Consistent.copy {got : List Byte} (hc : Consistent mq pc h free queue)
    (hpc : pc c = Pc.receiving x size got) :
    Consistent mq (update pc c
      (Pc.receiving x size (got ++ [mq.body x got.length]))) h free queue := by
  have hx : (pc c).slot = some x := by
    rw [hpc]
    rfl
  have hcall := hc.calls c
  rw [hpc] at hcall
  rcases hcall with ⟨htaken, hgot⟩
  apply hc.own hx rfl (fun _ _ => rfl) (fun _ _ => rfl) hc.freeChain hc.queueChain
  refine ⟨htaken, ?_⟩
  intro i y hi
  rcases Nat.lt_or_ge i got.length with hlt | hge
  · rw [List.getElem?_append_left hlt] at hi
    exact hgot i y hi
  · rw [List.getElem?_append_right hge] at hi
    have hlast : i - got.length < 1 := (List.getElem?_eq_some_iff.mp hi).choose
    have heq : i = got.length := by omega
    subst heq
    rw [Nat.sub_self] at hi
    exact Option.some.inj hi

theorem Consistent.finish {got : List Byte} (hc : Consistent mq pc h free queue)
    (hpc : pc c = Pc.receiving x size got) :
    Consistent { mq with
        next := update mq.next x mq.msgQueueFree
        msgQueueFree := some x }
      (update pc c Pc.idle)
      (h.note c (Outcome.received got)) (x :: free) queue := by
  have hx : (pc c).slot = some x := by
    rw [hpc]
    rfl
  have hcall := hc.calls c
  rw [hpc] at hcall
  rcases hcall with ⟨⟨m, htaken, hcarries⟩, hgot⟩
  have happart := hc.divided.apart c x hx
  refine { hc with
    freeChain := hc.freeChain.push happart.left
    queueChain := hc.queueChain.frame happart.right _
    divided := hc.divided.putFree hx rfl
    calls := ?_
    delivered := ?_ }
  · intro d
    by_cases hdc : d = c
    · subst hdc
      rw [update_self]
      trivial
    · rw [update_of_ne hdc]
      have hne : (pc d).slot ≠ some x := by
        intro hd
        exact hdc (hc.divided.once d c x hd hx)
      apply (hc.calls d).frame hne
      · intro y _
        rfl
      · intro y hy
        apply update_of_ne
        intro heq
        subst heq
        exact hne hy
  · intro d hd
    rcases List.mem_append.mp hd with hold | hnew
    · exact hc.delivered d hold
    · rw [List.mem_singleton] at hnew
      subst hnew
      refine ⟨m, htaken, ?_⟩
      intro i a b ha hb
      rw [← hcarries i a ha]
      exact hgot i b hb

theorem tail_of_pop {l : List Slot} (hx : x ∉ l) :
    (if (x :: l).getLast? = some x then none else (x :: l).getLast?) = l.getLast? := by
  cases l with
  | nil => simp
  | cons y l =>
    have hne : (x :: y :: l).getLast? ≠ some x := by
      intro hlast
      rw [List.getLast?_cons_cons] at hlast
      exact hx (List.mem_of_getLast? hlast)
    rw [if_neg hne, List.getLast?_cons_cons]

theorem Consistent.unlink (hc : Consistent mq pc h free queue)
    (hslot : (pc c).slot = none) (hhead : mq.msgQueueHead = some x) :
    exists queue', Consistent { mq with
        msgQueueHead := mq.next x
        msgQueueTail := if mq.msgQueueTail = some x then none else mq.msgQueueTail
        entry := (mq.entry + (2 ^ 16 - 1)) % 2 ^ 16 }
      (update pc c (Pc.receiving x size []))
      (h.note c Outcome.unlinked) free queue' := by
  have hchain := hc.queueChain
  rw [hhead] at hchain
  rcases hchain.cons_of_some with ⟨rest, heq, hrest⟩
  subst heq
  have hlen := hc.divided.length_le
  have hsmall := hc.small
  have hentry := hc.entry
  have hnodup := (List.nodup_append.mp hc.divided.nodup).right.left
  rw [List.length_cons] at hlen hentry
  have hdec : (mq.entry + (2 ^ 16 - 1)) % 2 ^ 16 = rest.length := by omega
  rw [hdec]
  -- the queue of the history has the message of this slot first
  have hcont := hc.contents
  cases hms : h.queue with
  | nil =>
    rw [hms] at hcont
    cases hcont
  | cons m ms =>
    rw [hms] at hcont
    rw [List.forall₂_cons] at hcont
    refine ⟨rest, { hc with
      queueChain := hrest
      tail := ?_
      divided := hc.divided.unlink hslot rfl
      entry := rfl
      contents := ?_
      calls := ?_ }⟩
    · rw [hc.tail]
      exact tail_of_pop (List.nodup_cons.mp hnodup).left
    · show List.Forall₂ _ rest h.queue.tail
      rw [hms]
      exact hcont.right
    · intro d
      by_cases hdc : d = c
      · subst hdc
        simp only [update_self]
        refine ⟨⟨m, ?_, hcont.left⟩, ?_⟩
        · show update h.taken d h.queue.head? d = some m
          rw [update_self, hms]
          rfl
        · intro i y hi
          cases hi
      · rw [update_of_ne hdc]
        have htaken : (h.note c Outcome.unlinked).taken d = h.taken d :=
          update_of_ne hdc ..
        rw [htaken]
        exact hc.calls d

theorem CallOk.carries {taken : Option Message} {i : Nat}
    (hcall : CallOk mq taken (Pc.sending urgent x buffer (i + 1)))
    (hend : buffer[i]? = none) : Carries (mq.body x) buffer := by
  intro j y hy
  apply hcall.left j y _ hy
  have hj := (List.getElem?_eq_some_iff.mp hy).choose
  have hi := List.getElem?_eq_none_iff.mp hend
  omega

theorem Consistent.link {mq' : RtMessageQueue} {queue' : List Slot}
    (hc : Consistent mq pc h free queue) (hx : (pc c).slot = some x)
    (hmax : mq'.maxMsgs = mq.maxMsgs) (hbody : mq'.body = mq.body)
    (hfree : Linked mq'.next mq'.msgQueueFree free)
    (hqueue : Linked mq'.next mq'.msgQueueHead queue')
    (htail : mq'.msgQueueTail = queue'.getLast?)
    (hperm : queue'.Perm (x :: queue))
    (hnext : forall y, y ≠ x -> y ∉ queue -> mq'.next y = mq.next y)
    (hentry : mq'.entry = (mq.entry + 1) % 2 ^ 16)
    (hcont : List.Forall₂ (fun y m => Carries (mq.body y) m) queue'
      (h.note c (Outcome.linked urgent buffer)).queue) :
    Consistent mq' (update pc c Pc.idle) (h.note c (Outcome.linked urgent buffer)) free queue' := by
  have hdivided := hc.divided.link hx (p := Pc.idle) rfl hperm
  have hlen := hdivided.length_le
  have hsmall := hc.small
  have hqlen := hperm.length_eq
  rw [List.length_cons] at hqlen
  have htaken : (h.note c (Outcome.linked urgent buffer)).taken = h.taken := by
    unfold History.note
    cases urgent with
    | true => rfl
    | false => rfl
  have hdelivered : (h.note c (Outcome.linked urgent buffer)).delivered =
      h.delivered := by
    unfold History.note
    cases urgent with
    | true => rfl
    | false => rfl
  constructor
  · exact hfree
  · exact hqueue
  · exact htail
  · rw [hmax]
    exact hdivided
  · rw [hentry, hc.entry, Nat.mod_eq_of_lt (by omega), hqlen]
  · rw [hmax]
    exact hsmall
  · rw [hbody]
    exact hcont
  · intro d
    rw [htaken]
    by_cases hdc : d = c
    · subst hdc
      rw [update_self]
      trivial
    · rw [update_of_ne hdc]
      have hne : (pc d).slot ≠ some x := by
        intro hd
        exact hdc (hc.divided.once d c x hd hx)
      apply (hc.calls d).frame hne
      · intro y _
        rw [hbody]
      · intro y hy
        apply hnext y
        · intro heq
          subst heq
          exact hne hy
        · exact (hc.divided.apart d y hy).right
  · rw [hdelivered]
    exact hc.delivered

theorem Consistent.linkFirst (hc : Consistent mq pc h free queue) (hx : (pc c).slot = some x)
    (hcarries : Carries (mq.body x) buffer) (l : List Tid) :
    Consistent { linkFirst mq x with
        entry := (mq.entry + 1) % 2 ^ 16, suspendThread := l }
      (update pc c Pc.idle)
      (h.note c (Outcome.linked true buffer)) free (x :: queue) := by
  have happart := hc.divided.apart c x hx
  apply hc.link hx
  · rfl
  · rfl
  · exact hc.freeChain.frame happart.left _
  · exact hc.queueChain.push happart.right
  · unfold MessageQueue.linkFirst
    dsimp only
    rw [hc.tail]
    cases queue with
    | nil => rfl
    | cons y l =>
      rw [List.getLast?_cons_cons]
      cases hlast : (y :: l).getLast? with
      | none => simp at hlast
      | some z => rfl
  · exact List.Perm.refl _
  · intro y hy _
    exact update_of_ne hy ..
  · rfl
  · exact List.Forall₂.cons hcarries hc.contents

theorem Consistent.linkLast (hc : Consistent mq pc h free queue) (hx : (pc c).slot = some x)
    (hend : mq.next x = none) (hcarries : Carries (mq.body x) buffer)
    (l : List Tid) :
    Consistent { linkLast mq x with
        entry := (mq.entry + 1) % 2 ^ 16, suspendThread := l }
      (update pc c Pc.idle)
      (h.note c (Outcome.linked false buffer)) free (queue ++ [x]) := by
  have happart := hc.divided.apart c x hx
  have hnodup := List.nodup_append.mp hc.divided.nodup
  have hcont : List.Forall₂ (fun y m => Carries (mq.body y) m) (queue ++ [x])
      (h.note c (Outcome.linked false buffer)).queue :=
    List.rel_append hc.contents (List.Forall₂.cons hcarries List.Forall₂.nil)
  have hperm : (queue ++ [x]).Perm (x :: queue) := List.perm_append_singleton x queue
  rcases List.eq_nil_or_concat' queue with hnil | ⟨l', y, hlast⟩
  · -- the first message of the queue
    subst hnil
    have hhead : mq.msgQueueHead = none := hc.queueChain
    have htail : mq.msgQueueTail = none := hc.tail
    apply hc.link hx
    · rfl
    · rfl
    · simp only [MessageQueue.linkLast, htail]
      exact hc.freeChain
    · simp only [MessageQueue.linkLast, htail, hhead]
      exact ⟨rfl, hend⟩
    · rfl
    · exact hperm
    · intro z _ _
      simp only [MessageQueue.linkLast, htail]
    · rfl
    · exact hcont
  · subst hlast
    have htail : mq.msgQueueTail = some y := by
      rw [hc.tail]
      simp
    have hy : y ∉ free := by
      intro hin
      exact hnodup.right.right y hin y (by simp) rfl
    have hchain := hc.queueChain.append hnodup.right.left happart.right hend
    have hsome : exists z, mq.msgQueueHead = some z := by
      cases hhead : mq.msgQueueHead with
      | none =>
        have hempty := (hc.queueChain.none_iff).mp hhead
        simp at hempty
      | some z => exact ⟨z, rfl⟩
    rcases hsome with ⟨z, hz⟩
    apply hc.link hx
    · rfl
    · rfl
    · simp only [MessageQueue.linkLast, htail]
      exact hc.freeChain.frame hy _
    · simp only [MessageQueue.linkLast, htail, hz]
      rw [hz] at hchain
      exact hchain
    · simp [MessageQueue.linkLast]
    · exact hperm
    · intro w _ hw
      simp only [MessageQueue.linkLast, htail]
      apply update_of_ne
      intro heq
      exact hw (by simp [heq])
    · rfl
    · exact hcont

theorem releaseAll_spec {n : Nat} (hn : queue.length ≤ n)
    (hfree : Linked mq.next mq.msgQueueFree free)
    (hqueue : Linked mq.next mq.msgQueueHead queue)
    (htail : mq.msgQueueTail = queue.getLast?)
    (hnodup : (free ++ queue).Nodup) :
    exists next' free', releaseAll n mq = some { mq with
        msgQueueHead := none
        msgQueueTail := none
        next := next'
        msgQueueFree := free' } ∧
      Linked next' free' (queue.reverse ++ free) ∧
      forall y, y ∉ queue -> next' y = mq.next y := by
  induction queue generalizing mq free n with
  | nil =>
    have hhead : mq.msgQueueHead = none := hqueue
    have htail' : mq.msgQueueTail = none := htail
    refine ⟨mq.next, mq.msgQueueFree, ?_, hfree, fun _ _ => rfl⟩
    have hmq : ({ mq with msgQueueHead := none, msgQueueTail := none } : RtMessageQueue) = mq := by
      cases mq
      simp only at hhead htail'
      subst hhead htail'
      rfl
    cases n with
    | zero =>
      unfold releaseAll
      rw [if_pos hhead, hmq]
    | succ n =>
      unfold releaseAll
      rw [hhead]
      exact congrArg some hmq.symm
  | cons x rest ih =>
    rcases hqueue with ⟨hhead, hrest⟩
    have hsplit : (x :: free ++ rest).Nodup :=
      List.perm_middle.nodup_iff.mp hnodup
    have hx : x ∉ free ++ rest := (List.nodup_cons.mp hsplit).left
    rw [List.mem_append, not_or] at hx
    cases n with
    | zero => cases hn
    | succ n =>
      let mq1 : RtMessageQueue := { mq with
        msgQueueHead := mq.next x
        msgQueueTail :=
          if mq.msgQueueTail = some x then none else mq.msgQueueTail
        next := update mq.next x mq.msgQueueFree
        msgQueueFree := some x }
      have hfree1 : Linked mq1.next mq1.msgQueueFree (x :: free) :=
        hfree.push hx.left
      have hrest1 : Linked mq1.next mq1.msgQueueHead rest :=
        hrest.frame hx.right _
      have hround := ih (Nat.le_of_succ_le_succ hn) hfree1 hrest1 ?_ hsplit
      · rcases hround with ⟨next', free', hrun, hlinked, hnext⟩
        refine ⟨next', free', ?_, ?_, ?_⟩
        · unfold releaseAll
          rw [hhead]
          exact hrun
        · rw [List.reverse_cons, List.append_assoc]
          exact hlinked
        · intro y hy
          rw [List.mem_cons, not_or] at hy
          rw [hnext y hy.right]
          exact update_of_ne hy.left ..
      · show (if mq.msgQueueTail = some x then none else mq.msgQueueTail) = _
        rw [htail]
        exact tail_of_pop hx.right

theorem Divided.freeAll (hd : Divided n pc free queue) :
    Divided n pc (queue.reverse ++ free) [] := by
  rcases hd with ⟨hnodup, hcover, hapart, honce⟩
  constructor
  · rw [List.append_nil]
    have hperm : (queue.reverse ++ free).Perm (free ++ queue) :=
      ((List.reverse_perm queue).append_right free).trans List.perm_append_comm
    exact hperm.nodup_iff.mpr hnodup
  · intro y
    rw [hcover y, List.mem_append, List.mem_reverse]
    simp only [List.not_mem_nil, false_or]
    tauto
  · intro d y hy
    rw [List.mem_append, List.mem_reverse]
    have happart := hapart d y hy
    refine ⟨?_, List.not_mem_nil⟩
    rintro (hin | hin)
    · exact happart.right hin
    · exact happart.left hin
  · exact honce

variable {s s' : State} {op : Op} {o : Outcome}

theorem Consistent.reset (hc : Consistent s.mq s.pc h free queue) (hs : reset s = some (s', o)) :
    exists free', Consistent s'.mq s'.pc (h.note c o) free' [] := by
  unfold MessageQueue.reset at hs
  split at hs
  · cases hs
  · rw [Option.map_eq_some_iff] at hs
    rcases hs with ⟨mq1, hrelease, heq⟩
    cases heq
    have hfree : Linked ({ s.mq with suspendThread := [] } :
        RtMessageQueue).next s.mq.msgQueueFree free := hc.freeChain
    rcases releaseAll_spec hc.divided.length_le hfree hc.queueChain hc.tail
      hc.divided.nodup with ⟨next', free', hrun, hlinked, hnext⟩
    have hsame : releaseAll s.mq.maxMsgs { s.mq with suspendThread := [] } = some mq1 := hrelease
    rw [hsame] at hrun
    cases hrun
    refine ⟨queue.reverse ++ free, ?_⟩
    constructor
    · exact hlinked
    · rfl
    · rfl
    · exact hc.divided.freeAll
    · rfl
    · exact hc.small
    · exact List.Forall₂.nil
    · intro d
      apply (hc.calls d).frame (x := s.mq.maxMsgs)
      · intro hslot
        have hlt := (hc.divided.cover _).mpr (Or.inr (Or.inr ⟨d, hslot⟩))
        exact Nat.lt_irrefl _ hlt
      · intro y _
        rfl
      · intro y hy
        exact hnext y (hc.divided.apart d y hy).right
    · exact hc.delivered

theorem Consistent.recvLoop {timeout : Int}
    (hc : Consistent s.mq s.pc h free queue) (hslot : (s.pc c).slot = none)
    (hs : recvLoop s c size timeout = some (s', o)) :
    exists free' queue', Consistent s'.mq s'.pc (h.note c o) free' queue' := by
  unfold MessageQueue.recvLoop at hs
  split at hs
  · cases c with
    | interrupt i => cases hs
    | thread t =>
      simp only at hs
      split at hs
      · cases hs
        exact ⟨free, queue, hc.move hslot rfl⟩
      · rw [Option.map_eq_some_iff] at hs
        rcases hs with ⟨v, _, heq⟩
        cases heq
        have hmove := hc.move (p := Pc.waiting size timeout) hslot rfl
        exact ⟨free, queue, { hmove with }⟩
  · unfold recvUnlink at hs
    split at hs
    · cases hs
    · rename_i msg hhead
      cases hs
      rcases hc.unlink hslot hhead with ⟨queue', hc'⟩
      exact ⟨free, queue', hc'⟩

theorem Consistent.sendStep {progress : Nat} (hc : Consistent s.mq s.pc h free queue)
    (hpc : s.pc c = Pc.sending urgent x buffer progress)
    (hs : sendStep s c urgent x buffer progress = (s', o)) :
    exists free' queue', Consistent s'.mq s'.pc (h.note c o) free' queue' := by
  have hx : (s.pc c).slot = some x := by
    rw [hpc]
    rfl
  cases progress with
  | zero =>
    cases hs
    exact ⟨free, queue, hc.clear hpc⟩
  | succ i =>
    simp only [MessageQueue.sendStep] at hs
    cases hb : buffer[i]? with
    | some b =>
      rw [hb] at hs
      cases hs
      exact ⟨free, queue, hc.fill hpc hb⟩
    | none =>
      rw [hb] at hs
      have hcall := hc.calls c
      rw [hpc] at hcall
      have hcarries := hcall.carries hb
      cases hs
      cases urgent with
      | true =>
        exact ⟨free, x :: queue, hc.linkFirst hx hcarries _⟩
      | false =>
        exact ⟨free, queue ++ [x], hc.linkLast hx (hcall.right rfl (Nat.succ_pos i)) hcarries _⟩

theorem Consistent.step (hc : Consistent s.mq s.pc h free queue) (hs : step s op = some s') :
    exists free' queue', Consistent s'.mq s'.pc (recordMessage s op s' h) free' queue' := by
  unfold MessageQueue.step at hs
  rw [Option.map_eq_some_iff] at hs
  rcases hs with ⟨⟨s1, o⟩, hs, heq⟩
  cases heq
  unfold recordMessage outcomeOf
  rw [hs]
  show exists free' queue', Consistent s1.mq s1.pc (h.note op.caller o) free' queue'
  cases op with
  | send c urgent buffer =>
    unfold stepOutcome MessageQueue.sendGrab at hs
    simp only at hs
    split at hs
    · rename_i hcall
      have hslot : (s.pc c).slot = none := by
        rw [hcall.right]
        rfl
      split at hs
      · cases hs
      · split at hs
        · cases hs
          exact ⟨free, queue, hc⟩
        · split at hs
          · cases hs
            exact ⟨free, queue, hc⟩
          · rename_i msg hfree
            cases hs
            rcases hc.sendGrab hslot hfree with ⟨free', hc'⟩
            exact ⟨free', queue, hc'⟩
    · cases hs
  | recv c size timeout =>
    unfold stepOutcome rtMqRecv at hs
    simp only at hs
    split at hs
    · rename_i hcall
      have hslot : (s.pc c).slot = none := by
        rw [hcall.right]
        rfl
      split at hs
      · cases hs
      · split at hs
        · cases hs
          exact ⟨free, queue, hc⟩
        · exact hc.recvLoop hslot hs
    · cases hs
  | go c =>
    unfold stepOutcome at hs
    simp only at hs
    split at hs
    · split at hs
      · rename_i urgent msg buffer progress hpc
        exact hc.sendStep hpc (Option.some.inj hs)
      · rename_i msg size got hpc
        unfold recvStep at hs
        split at hs
        · cases hs
          exact ⟨free, queue, hc.copy hpc⟩
        · cases hs
          exact ⟨msg :: free, queue, hc.finish hpc⟩
      · cases hs
    · cases hs
  | again t delta =>
    unfold stepOutcome recvAgain at hs
    simp only at hs
    split at hs
    · split at hs
      · rename_i size timeout hpc
        have hslot : (s.pc (Caller.thread t)).slot = none := by
          rw [hpc]
          rfl
        split at hs
        · cases hs
          exact ⟨free, queue, hc.move hslot rfl⟩
        · exact hc.recvLoop hslot hs
      · cases hs
    · cases hs
  | timeout t =>
    unfold stepOutcome at hs
    simp only at hs
    split at hs
    · cases hs
      exact ⟨free, queue, { hc with }⟩
    · cases hs
  | reset =>
    rcases hc.reset hs with ⟨free', hc'⟩
    exact ⟨free', [], hc'⟩

/-!
## Whole runs
-/

theorem initFree_linked (next : Slot -> Option Slot) (n : Nat) :
    Linked (initFree next n).1 (initFree next n).2 (List.range n).reverse := by
  induction n with
  | zero => rfl
  | succ n ih =>
    rw [List.range_succ, List.reverse_append]
    apply ih.push
    simp

theorem Booted.consistent (hboot : Booted s) :
    exists free, Consistent s.mq s.pc emptyHistory free [] := by
  rcases hboot.mq with ⟨memory, alignSize, msgSize, poolSize, flag, hmq⟩
  rw [hmq]
  refine ⟨(List.range (rtMqInit memory alignSize msgSize poolSize flag).maxMsgs).reverse, ?_⟩
  have hheld : forall x, ¬ Held s.pc x := by
    rintro x ⟨c, hc⟩
    rw [hboot.pc c] at hc
    cases hc
  constructor
  · exact initFree_linked _ _
  · rfl
  · rfl
  · constructor
    · rw [List.append_nil, List.nodup_reverse]
      exact List.nodup_range
    · intro x
      rw [List.mem_reverse, List.mem_range]
      simp [hheld]
    · intro c x hx
      exact absurd ⟨c, hx⟩ (hheld x)
    · intro c c' x hx
      exact absurd ⟨c, hx⟩ (hheld x)
  · rfl
  · exact Nat.mod_lt _ (by decide)
  · exact List.Forall₂.nil
  · intro c
    rw [hboot.pc c]
    trivial
  · intro d hd
    cases hd

/-- How the slots of the queue are divided, what its pointers and counter say, which
messages it carries, and what the receives have returned. -/
structure QueueHolds (s : State) (h : History) (free queue : List Slot) :
    Prop where
  freeList : Linked s.mq.next s.mq.msgQueueFree free
  queueList : Linked s.mq.next s.mq.msgQueueHead queue
  divided : Divided s.mq.maxMsgs s.pc free queue
  entry : s.mq.entry = queue.length
  tail : s.mq.msgQueueTail = queue.getLast?
  tailNull : s.mq.msgQueueTail = none <-> queue = []
  messages : List.Forall₂ (fun x m => Carries (s.mq.body x) m) queue h.queue
  received : forall d, d ∈ h.delivered -> exists m, d.1 = some m ∧ Agrees m d.2

def threeSlots : State :=
  { thread := fun _ =>
      { stat := ThreadStat.ready
        currentPriority := 10
        initPriority := 10
        error := RtErr.eok
        timerLinked := false }
    mq := rtMqInit
      { msgSize := 0
        maxMsgs := 0
        entry := 0
        msgQueueHead := none
        msgQueueTail := none
        msgQueueFree := none
        next := fun _ => none
        body := fun _ _ => 0
        flag := IpcFlag.fifo
        suspendThread := [] } 4 3 24 IpcFlag.fifo
    pc := fun _ => Pc.idle }

def overtakenOps : List Op :=
  [Op.send (Caller.thread 0) false [1, 2], Op.go (Caller.thread 0),
    Op.send (Caller.interrupt 0) true [9], Op.go (Caller.interrupt 0),
    Op.go (Caller.interrupt 0), Op.go (Caller.interrupt 0),
    Op.recv (Caller.thread 1) 1 0, Op.go (Caller.thread 0),
    Op.go (Caller.thread 0), Op.go (Caller.thread 0), Op.go (Caller.thread 1),
    Op.go (Caller.thread 1)]

end RtThread.Ipc.MessageQueue
