import RtThread.Ipc.Event

/-!
# Events reach the threads that wait for them

A send offers the bits of the event to the waiting threads in the order of the list: a thread
whose condition is met is given the bits of its mask that are there, and takes them away from the
threads behind it when it asked for that. The history of this module keeps what was asked and
given; the model of the code is compared with it.
-/

namespace RtThread.Ipc.Event

open Kernel
open Function (update update_apply update_eq_self update_of_ne update_self)
open Transition

structure Request where
  mask : BitVec 32
  option : BitVec 8
deriving DecidableEq, Repr

/-- The condition of a request, all of its bits or one of them. -/
def Request.Met (r : Request) (set : BitVec 32) : Prop :=
  if r.option &&& flagAnd ≠ 0 then r.mask &&& set = r.mask
  else r.option &&& flagOr ≠ 0 ∧ r.mask &&& set ≠ 0

instance (r : Request) (set : BitVec 32) : Decidable (r.Met set) :=
  inferInstanceAs (Decidable (if r.option &&& flagAnd ≠ 0 then _ else _ ∧ _))

def Request.leaves (r : Request) (set : BitVec 32) : BitVec 32 :=
  if r.option &&& flagClear ≠ 0 then set &&& ~~~ (r.mask &&& set) else set

/-- Offer a set to the threads of a list, one after the other: what is left at
the end, and what each thread is given. -/
def deliver (asked : Tid -> Request) (set : BitVec 32) :
    List Tid -> BitVec 32 × (Tid -> Option (BitVec 32))
  | [] => (set, fun _ => none)
  | t :: rest =>
    if (asked t).Met set then
      let d := deliver asked ((asked t).leaves set) rest
      (d.1, Function.update d.2 t (some ((asked t).mask &&& set)))
    else deliver asked set rest

/-- The requests of the threads, and what those were given that have not
returned. -/
structure Ledger where
  asked : Tid -> Request
  given : Tid -> Option (BitVec 32)

def noRequests : Ledger :=
  { asked := fun _ => ⟨0, 0⟩, given := fun _ => none }

def recordDelivery (s : State) (op : Op) (_s' : State) (h : Ledger) : Ledger :=
  match op, outcomeOf s op with
  | Op.recv t set option _, some Outcome.waits =>
    { h with asked := Function.update h.asked t ⟨set, option⟩ }
  | Op.send set, some Outcome.sent =>
    let d := deliver h.asked (s.event.set ||| set) s.event.suspendThread
    { h with given := fun t => (d.2 t).or (h.given t) }
  | Op.recvReturn t, _ => { h with given := Function.update h.given t none }
  | _, _ => h

/-!
## Offering a set
-/

section Deliver

variable {asked : Tid -> Request} {set set' : BitVec 32} {l : List Tid} {t : Tid}
  {r : Request}

theorem Request.Met.mono (hsub : set' &&& set = set') (hmet : r.Met set') : r.Met set := by
  have hmask : (r.mask &&& set') &&& set = r.mask &&& set' := by
    rw [BitVec.and_assoc, hsub]
  unfold Request.Met at hmet ⊢
  split
  · rename_i hand
    rw [if_pos hand] at hmet
    rwa [hmet] at hmask
  · rename_i hand
    rw [if_neg hand] at hmet
    refine ⟨hmet.left, ?_⟩
    intro hzero
    apply hmet.right
    rw [← hmask, BitVec.and_assoc, BitVec.and_comm set' set, ← BitVec.and_assoc, hzero]
    exact BitVec.zero_and

theorem Request.leaves_sub : r.leaves set &&& set = r.leaves set := by
  unfold Request.leaves
  split
  · rw [BitVec.and_assoc, BitVec.and_comm _ set, ← BitVec.and_assoc, BitVec.and_self]
  · exact BitVec.and_self

theorem deliver_sub : (deliver asked set l).1 &&& set = (deliver asked set l).1 := by
  induction l generalizing set with
  | nil => exact BitVec.and_self
  | cons x rest ih =>
    unfold deliver
    split
    · have hrest := @ih ((asked x).leaves set)
      show (deliver asked ((asked x).leaves set) rest).1 &&& set = _
      rw [← hrest, BitVec.and_assoc, Request.leaves_sub]
    · exact ih

theorem deliver_mem (hgiven : (deliver asked set l).2 t ≠ none) : t ∈ l := by
  induction l generalizing set with
  | nil => exact absurd rfl hgiven
  | cons x rest ih =>
    unfold deliver at hgiven
    split at hgiven
    · by_cases hx : t = x
      · rw [hx]
        exact List.mem_cons_self
      · simp only [update_of_ne hx] at hgiven
        exact List.mem_cons_of_mem x (ih hgiven)
    · exact List.mem_cons_of_mem x (ih hgiven)

/-- A thread that is given nothing does not have its condition met, neither when
it is looked at nor by what is left at the end. -/
theorem deliver_unmet (hl : l.Nodup) (ht : t ∈ l) (hnone : (deliver asked set l).2 t = none) :
    ¬ (asked t).Met (deliver asked set l).1 := by
  induction l generalizing set with
  | nil => cases ht
  | cons x rest ih =>
    rw [List.nodup_cons] at hl
    unfold deliver at hnone ⊢
    split
    · rename_i hmet
      rw [if_pos hmet] at hnone
      by_cases hx : t = x
      · subst hx
        simp at hnone
      · simp only [update_of_ne hx] at hnone
        have hrest : t ∈ rest := (List.mem_cons.mp ht).resolve_left hx
        exact ih hl.right hrest hnone
    · rename_i hunmet
      rw [if_neg hunmet] at hnone
      rcases List.mem_cons.mp ht with hx | hrest
      · subst hx
        exact fun hmet => hunmet (hmet.mono deliver_sub)
      · exact ih hl.right hrest hnone

end Deliver

/-!
## The walk of a send
-/

section Walk

variable {asked : Tid -> Request} {s s' : State} {l : List Tid} {t : Tid}

theorem visit_met (hset : s.eventSet t = (asked t).mask) (hinfo : s.eventInfo t = (asked t).option)
    (hstat : (s.thread t).stat = ThreadStat.suspend)
    (hmet : (asked t).Met s.event.set) :
    visit s t = { s with
      thread := update s.thread t { s.thread t with
        stat := ThreadStat.ready, timerLinked := false }
      eventSet := update s.eventSet t ((asked t).mask &&& s.event.set)
      event := { s.event with
        set := (asked t).leaves s.event.set
        suspendThread := s.event.suspendThread.erase t } } := by
  have hresume : threadResume s.thread t = update s.thread t
      { s.thread t with stat := ThreadStat.ready, timerLinked := false } := by
    unfold threadResume
    rw [if_neg (by simp [hstat])]
  unfold Request.Met at hmet
  unfold visit wake Request.leaves
  simp only [hset, hinfo, hresume, hstat, if_true, update_self]
  split
  · rename_i hand
    rw [if_pos hand] at hmet
    rw [if_pos hmet, hmet, ← hset, update_eq_self]
  · rename_i hand
    rw [if_neg hand] at hmet
    rw [if_pos hmet.left, if_pos hmet.right]

theorem visit_unmet (hset : s.eventSet t = (asked t).mask)
    (hinfo : s.eventInfo t = (asked t).option)
    (hunmet : ¬ (asked t).Met s.event.set) : visit s t = s := by
  unfold Request.Met at hunmet
  unfold visit
  simp only [hset, hinfo]
  split
  · rename_i hand
    rw [if_pos hand] at hunmet
    rw [if_neg hunmet]
  · rename_i hand
    rw [if_neg hand] at hunmet
    split
    · rename_i hor
      rw [if_neg (fun hset => hunmet ⟨hor, hset⟩)]
    · rfl

/-- The walk over a list of waiting threads does what offering the set to them
says. -/
structure Delivered (s : State) (d : BitVec 32 × (Tid -> Option (BitVec 32)))
    (s' : State) : Prop where
  set : s'.event.set = d.1
  list : forall t, t ∈ s'.event.suspendThread <->
    t ∈ s.event.suspendThread ∧ d.2 t = none
  nodup : s'.event.suspendThread.Nodup
  thread : forall t, s'.thread t =
    if d.2 t = none then s.thread t
    else { s.thread t with stat := ThreadStat.ready, timerLinked := false }
  eventSet : forall t, s'.eventSet t = (d.2 t).getD (s.eventSet t)
  eventInfo : s'.eventInfo = s.eventInfo
  pc : s'.pc = s.pc
  flag : s'.event.flag = s.event.flag

theorem sendLoop_delivered (asked : Tid -> Request) (hl : l.Nodup)
    (hlist : s.event.suspendThread.Nodup)
    (hwait : forall t, t ∈ l -> (s.thread t).stat = ThreadStat.suspend)
    (hasked : forall t, t ∈ l -> s.eventSet t = (asked t).mask ∧
      s.eventInfo t = (asked t).option) :
    Delivered s (deliver asked s.event.set l) (sendLoop s l) := by
  induction l generalizing s with
  | nil =>
    constructor
    · rfl
    · intro t
      exact ⟨fun ht => ⟨ht, rfl⟩, fun ht => ht.left⟩
    · exact hlist
    · intro t
      rfl
    · intro t
      rfl
    · rfl
    · rfl
    · rfl
  | cons x rest ih =>
    rw [List.nodup_cons] at hl
    have hx := hasked x List.mem_cons_self
    have hne : forall t, t ∈ rest -> t ≠ x := by
      intro t ht heq
      exact hl.left (heq ▸ ht)
    unfold sendLoop deliver
    split
    · rename_i hmet
      have hvisit := visit_met hx.left hx.right (hwait x List.mem_cons_self) hmet
      rw [hvisit]
      have hrest := ih (s := { s with
          thread := update s.thread x { s.thread x with
            stat := ThreadStat.ready, timerLinked := false }
          eventSet := update s.eventSet x ((asked x).mask &&& s.event.set)
          event := { s.event with
            set := (asked x).leaves s.event.set
            suspendThread := s.event.suspendThread.erase x } }) hl.right
        (hlist.erase x)
        (by
          intro t ht
          simp only [update_of_ne (hne t ht)]
          exact hwait t (List.mem_cons_of_mem x ht))
        (by
          intro t ht
          simp only [update_of_ne (hne t ht)]
          exact hasked t (List.mem_cons_of_mem x ht))
      simp only at hrest
      have hnone : (deliver asked ((asked x).leaves s.event.set) rest).2 x =
          none := by
        by_contra hgiven
        exact hl.left (deliver_mem hgiven)
      rcases hrest with ⟨hset, hmem, hnodup, hthread, hes, hei, hpc, hflag⟩
      constructor
      · exact hset
      · intro t
        rw [hmem t, hlist.mem_erase_iff]
        by_cases htx : t = x
        · subst htx
          simp
        · simp [htx]
      · exact hnodup
      · intro t
        rw [hthread t]
        by_cases htx : t = x
        · subst htx
          simp [hnone]
        · simp [htx]
      · intro t
        rw [hes t]
        by_cases htx : t = x
        · subst htx
          simp [hnone]
        · simp [htx]
      · exact hei
      · exact hpc
      · exact hflag
    · rename_i hunmet
      rw [visit_unmet hx.left hx.right hunmet]
      exact ih hl.right hlist (fun t ht => hwait t (List.mem_cons_of_mem x ht))
        (fun t ht => hasked t (List.mem_cons_of_mem x ht))

end Walk

/-!
## One step
-/

structure Settled (s : State) (h : Ledger) : Prop where
  waiting : forall t, t ∈ s.event.suspendThread <->
    (s.thread t).stat = ThreadStat.suspend ∧ s.pc t = Pc.receiving
  nodup : s.event.suspendThread.Nodup
  request : forall t, t ∈ s.event.suspendThread ->
    s.eventSet t = (h.asked t).mask ∧ s.eventInfo t = (h.asked t).option
  pending : forall t, t ∈ s.event.suspendThread ->
    (s.thread t).error = RtErr.eok
  unmet : forall t, t ∈ s.event.suspendThread ->
    ¬ (h.asked t).Met s.event.set
  given : forall t, h.given t ≠ none <-> (s.thread t).stat = ThreadStat.ready ∧
    s.pc t = Pc.receiving ∧ (s.thread t).error = RtErr.eok
  bits : forall t recved, h.given t = some recved -> s.eventSet t = recved

section Steps

variable {s s' : State} {h : Ledger} {op : Op} {t : Tid}

theorem Settled.delivered {set : BitVec 32} (hw : Settled s h) (hset : set ≠ 0) :
    Delivered s (deliver h.asked (s.event.set ||| set) s.event.suspendThread)
      (rtEventSend s set).1 := by
  have hd := sendLoop_delivered
    (s := { s with event := { s.event with set := s.event.set ||| set } })
    h.asked hw.nodup hw.nodup (fun t ht => ((hw.waiting t).mp ht).left) hw.request
  unfold rtEventSend
  rw [if_neg hset]
  exact ⟨hd.set, hd.list, hd.nodup, hd.thread, hd.eventSet, hd.eventInfo, hd.pc, hd.flag⟩

theorem Settled.send {set : BitVec 32} (hw : Settled s h) : Settled (rtEventSend s set).1
      (recordDelivery s (Op.send set) (rtEventSend s set).1 h) := by
  unfold recordDelivery outcomeOf stepOutcome
  by_cases hzero : set = 0
  · have hsend : rtEventSend s set = (s, Outcome.fails RtErr.error) := by
      unfold rtEventSend
      rw [if_pos hzero]
    simp only [hsend, Option.map_some]
    exact hw
  · have hd := hw.delivered hzero
    have hsent : (rtEventSend s set).2 = Outcome.sent := by
      unfold rtEventSend
      rw [if_neg hzero]
    simp only [Option.map_some, hsent]
    rcases hw with ⟨hwait, hnodup, hreq, hpend, hunmet, hgiven, hbits⟩
    have hleft := fun t => @deliver_unmet h.asked (s.event.set ||| set)
      s.event.suspendThread t hnodup
    have hin := fun t => @deliver_mem h.asked (s.event.set ||| set) s.event.suspendThread t
    generalize deliver h.asked (s.event.set ||| set) s.event.suspendThread = d
      at hd hleft hin
    generalize (rtEventSend s set).1 = s1 at hd
    rcases hd with ⟨hset, hlist, hnodup', hthread, hes, hei, hpc, _⟩
    constructor <;> grind -linarith

theorem Settled.called {left : BitVec 32} (hw : Settled s h) (e : RtErr)
    (hidle : s.pc t = Pc.idle) (hsub : left &&& s.event.set = left) :
    Settled { s with
      thread := setError s.thread t e
      event := { s.event with set := left } } h := by
  have hnot : s.pc t ≠ Pc.receiving := by
    rw [hidle]
    decide
  constructor
  · intro x
    simp only [setError_stat]
    exact hw.waiting x
  · exact hw.nodup
  · exact hw.request
  · intro x hx
    have hne : x ≠ t := by
      rintro rfl
      exact hnot ((hw.waiting x).mp hx).right
    simp only [setError_of_ne hne]
    exact hw.pending x hx
  · intro x hx hmet
    exact hw.unmet x hx (hmet.mono hsub)
  · intro x
    by_cases hx : x = t
    · subst hx
      rw [hw.given]
      exact ⟨fun hgiven => absurd hgiven.right.left hnot,
        fun hgiven => absurd hgiven.right.left hnot⟩
    · simp only [setError_of_ne hx]
      exact hw.given x
  · exact hw.bits

theorem Settled.suspended {set : BitVec 32} {option : BitVec 8} {v : Threads} {b : Bool}
    (hw : Settled s h) (hidle : s.pc t = Pc.idle)
    (hnew : ¬ Request.Met ⟨set, option⟩ s.event.set) :
    Settled
      { thread := update (setError s.thread t RtErr.eok) t
          { setError s.thread t RtErr.eok t with
            stat := ThreadStat.suspend, timerLinked := b }
        eventSet := update s.eventSet t set
        eventInfo := update s.eventInfo t option
        event := { s.event with
          suspendThread := suspendInto v s.event.flag t s.event.suspendThread }
        pc := update s.pc t Pc.receiving }
      { h with asked := update h.asked t ⟨set, option⟩ } := by
  have hnot : s.pc t ≠ Pc.receiving := by
    rw [hidle]
    decide
  have hout : t ∉ s.event.suspendThread := fun hin => hnot ((hw.waiting t).mp hin).right
  have hnone : h.given t = none := by
    by_contra hgiven
    exact hnot ((hw.given t).mp hgiven).right.left
  have hother : forall x, x ∈ s.event.suspendThread -> x ≠ t := by
    rintro x hx rfl
    exact hout hx
  unfold setError
  constructor
  · intro x
    rw [mem_suspendInto]
    by_cases hx : x = t
    · simp [hx]
    · simp only [hx, false_or, update_of_ne hx]
      exact hw.waiting x
  · exact nodup_suspendInto hw.nodup hout
  · intro x hx
    rcases mem_suspendInto.mp hx with heq | hx
    · simp [heq]
    · simp only [update_of_ne (hother x hx)]
      exact hw.request x hx
  · intro x hx
    rcases mem_suspendInto.mp hx with heq | hx
    · simp [heq]
    · simp only [update_of_ne (hother x hx)]
      exact hw.pending x hx
  · intro x hx
    rcases mem_suspendInto.mp hx with heq | hx
    · simp only [heq, update_self]
      exact hnew
    · simp only [update_of_ne (hother x hx)]
      exact hw.unmet x hx
  · intro x
    by_cases hx : x = t
    · simp [hx, hnone]
    · simp only [update_of_ne hx]
      exact hw.given x
  · intro x recved hgiven
    by_cases hx : x = t
    · rw [hx, hnone] at hgiven
      cases hgiven
    · simp only [update_of_ne hx]
      exact hw.bits x recved hgiven

theorem Settled.recv {set : BitVec 32} {option : BitVec 8} {timeout : Int} (hw : Settled s h)
    (hs : step s (Op.recv t set option timeout) = some s') :
    Settled s' (recordDelivery s (Op.recv t set option timeout) s' h) := by
  unfold step stepOutcome at hs
  unfold recordDelivery outcomeOf stepOutcome
  simp only at hs ⊢
  split at hs
  · rename_i hcall
    rw [if_pos hcall]
    unfold rtEventRecv at hs ⊢
    simp only at hs ⊢
    split at hs
    · rename_i hzero
      cases hs
      simp only [if_pos hzero, Option.map_some]
      exact hw
    · rename_i hzero
      rw [if_neg hzero]
      split at hs
      · cases hs
      · rename_i hoption
        rw [if_neg hoption]
        split at hs
        · rename_i hmet
          cases hs
          simp only [if_pos hmet, Option.map_some]
          -- bits are only taken away from those that wait
          apply hw.called RtErr.eok hcall.right
          split
          · rw [BitVec.and_assoc, BitVec.and_comm _ s.event.set,
              ← BitVec.and_assoc, BitVec.and_self]
          · exact BitVec.and_self
        · rename_i hmet
          rw [if_neg hmet]
          split at hs
          · rename_i htime
            cases hs
            simp only [if_pos htime, Option.map_some]
            rw [setError_setError]
            exact hw.called RtErr.etimeout hcall.right BitVec.and_self
          · rename_i htime
            simp only [Option.map_map, Option.map_eq_some_iff] at hs
            rcases hs with ⟨v, hv, heq⟩
            cases heq
            simp only [if_neg htime, hv, Option.map_some]
            rcases suspendFor_eq (setError_stat.trans hcall.left) hv with ⟨linked, hv⟩
            subst hv
            apply hw.suspended hcall.right
            unfold Request.Met
            simp only
            rw [BitVec.and_comm set]
            split <;> grind -linarith
  · cases hs

theorem Settled.recvReturn (hw : Settled s h) (hs : step s (Op.recvReturn t) = some s') :
    Settled s' (recordDelivery s (Op.recvReturn t) s' h) := by
  rcases hw with ⟨hwait, hnodup, hreq, hpend, hunmet, hgiven, hbits⟩
  unfold step stepOutcome at hs
  simp only at hs
  split at hs
  · cases hs
    unfold recordDelivery Event.recvReturn
    constructor <;> grind -linarith [update_apply]
  · cases hs

theorem Settled.timeout (hw : Settled s h) (hs : step s (Op.timeout t) = some s') :
    Settled s' (recordDelivery s (Op.timeout t) s' h) := by
  rcases hw with ⟨hwait, hnodup, hreq, hpend, hunmet, hgiven, hbits⟩
  unfold step stepOutcome at hs
  simp only at hs
  split at hs
  · rename_i htimer
    have hsuspend := htimer.right
    cases hs
    unfold recordDelivery Event.timeout threadTimeout
    constructor <;> grind -linarith [update_apply]
  · cases hs

theorem Settled.reset (hw : Settled s h) (hs : step s Op.reset = some s') :
    Settled s' (recordDelivery s Op.reset s' h) := by
  rcases hw with ⟨hwait, hnodup, hreq, hpend, hunmet, hgiven, hbits⟩
  unfold step stepOutcome rtEventReset at hs
  simp only [Option.map_map, Option.map_eq_some_iff] at hs
  rcases hs with ⟨v, hv, heq⟩
  cases heq
  have hthread := listResumeAll_eq hnodup hv
  unfold recordDelivery
  constructor <;> grind -linarith

theorem Settled.step (hw : Settled s h) (hs : step s op = some s') :
    Settled s' (recordDelivery s op s' h) := by
  cases op with
  | send set =>
    have heq : (rtEventSend s set).1 = s' := Option.some.inj hs
    rw [← heq]
    exact hw.send
  | recv t set option timeout => exact hw.recv hs
  | recvReturn t => exact hw.recvReturn hs
  | timeout t => exact hw.timeout hs
  | reset => exact hw.reset hs

end Steps

/-!
## Every run
-/

/-- What holds of the waiting threads, of the next send and of the next return in
one state. -/
structure Contract (s : State) (h : Ledger) : Prop where
  asleep : forall t, (s.thread t).stat = ThreadStat.suspend ->
    s.pc t = Pc.receiving -> ¬ (h.asked t).Met s.event.set
  send : forall set, set ≠ 0 ->
    Delivered s (deliver h.asked (s.event.set ||| set) s.event.suspendThread)
      (rtEventSend s set).1
  recved : forall t, (s.thread t).stat = ThreadStat.ready ->
    s.pc t = Pc.receiving -> (recvReturn s t).2 =
      match h.given t with
      | some bits => Outcome.received bits
      | none => Outcome.fails (s.thread t).error

section Runs

variable {s0 s : State} {h : Ledger} {ops : List Op}

theorem Settled.contract (hw : Settled s h) : Contract s h := by
  constructor
  · intro t hstat hpc
    exact hw.unmet t ((hw.waiting t).mpr ⟨hstat, hpc⟩)
  · intro set hset
    exact hw.delivered hset
  · intro t hready hpc
    have hiff := hw.given t
    unfold Event.recvReturn
    cases hgiven : h.given t with
    | none =>
      have herror : (s.thread t).error ≠ RtErr.eok := by
        intro herror
        exact hiff.mpr ⟨hready, hpc, herror⟩ hgiven
      simp only [if_pos herror]
    | some bits =>
      have herror := (hiff.mp (by simp [hgiven])).right.right
      simp only [herror, ne_eq, not_true_eq_false, if_false, hw.bits t bits hgiven]

/-- In every state of every interleaved run. -/
theorem event_delivery (hboot : Booted s0)
    (hrun : Run (Graph (watched step recordDelivery)) (s0, noRequests) ops (s, h)) :
    Contract s h := by
  have hinv : Settled s h := by
    apply hrun.watched_invariant Settled
    · rcases hboot with ⟨hset, hlist, hthread, hpc⟩
      unfold noRequests
      constructor <;> grind -linarith
    · intro s h op s' hx hstep
      exact hx.step hstep
  exact hinv.contract

/-- Of three waiting threads the first takes a bit away from the second. -/
theorem event_delivery_cleared :
    exists s h, Run (Graph (watched step recordDelivery))
        (bootState IpcFlag.fifo, noRequests)
        [Op.recv 0 0x3 0x6 (-1), Op.recv 1 0x1 0x1 (-1), Op.recv 2 0x4 0x2 9,
          Op.send 0x5] (s, h) ∧
      h.given 0 = some 0x1 ∧ h.given 1 = none ∧ h.given 2 = some 0x4 ∧
      s.event.set = 0x4 ∧ Contract s h := by
  have hexec : (exec (watched step recordDelivery)
      (bootState IpcFlag.fifo, noRequests)
      [Op.recv 0 0x3 0x6 (-1), Op.recv 1 0x1 0x1 (-1), Op.recv 2 0x4 0x2 9,
        Op.send 0x5]).map
      (fun x => (x.2.given 0, x.2.given 1, x.2.given 2, x.1.event.set)) =
      some (some 0x1, none, some 0x4, 0x4) := by
    decide +kernel
  rw [Option.map_eq_some_iff] at hexec
  rcases hexec with ⟨⟨s, h⟩, hexec, hvalues⟩
  simp only [Prod.mk.injEq] at hvalues
  rcases hvalues with ⟨hfirst, hsecond, hthird, hset⟩
  have hrun := run_of_exec hexec
  exact ⟨s, h, hrun, hfirst, hsecond, hthird, hset,
    event_delivery (bootState_booted _) hrun⟩

end Runs

end RtThread.Ipc.Event
