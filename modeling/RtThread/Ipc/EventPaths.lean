import RtThread.Ipc.EventDelivery

/-!
# Waiting for an event and asking for it later

A receive that waits gets its bits from the sender, one that comes after the sends takes
them itself.  For a thread that is alone at the event it makes no difference: what it
receives and what it leaves is the same.
-/

namespace RtThread.Ipc.Event

open Kernel
open Function (update update_self)
open Transition

/-- The bits of an event after some sends of which nothing was taken. -/
def offered (set : BitVec 32) (sends : List (BitVec 32)) : BitVec 32 :=
  sends.foldl (fun set more => set ||| more) set

/-- A thread waits alone for the event with the bits `set`. -/
structure Alone (s : State) (t : Tid) (r : Request) (set : BitVec 32) : Prop where
  set : s.event.set = set
  list : s.event.suspendThread = [t]
  stat : (s.thread t).stat = ThreadStat.suspend
  error : (s.thread t).error = RtErr.eok
  pc : s.pc t = Pc.receiving
  mask : s.eventSet t = r.mask
  option : s.eventInfo t = r.option

/-- It has been resumed with the bits `given`. -/
structure Resumed (s : State) (t : Tid) (set given : BitVec 32) : Prop where
  set : s.event.set = set
  stat : (s.thread t).stat = ThreadStat.ready
  error : (s.thread t).error = RtErr.eok
  pc : s.pc t = Pc.receiving
  given : s.eventSet t = given

section Bits

variable {r : Request} {set : BitVec 32}

theorem Request.leaves_eq :
    r.leaves set = if r.option &&& flagClear ≠ 0 then set &&& ~~~ r.mask else set := by
  unfold Request.leaves
  split
  · apply BitVec.eq_of_getLsbD_eq
    intro i hi
    simp only [BitVec.getLsbD_and, BitVec.getLsbD_not, hi, decide_true, Bool.true_and]
    cases r.mask.getLsbD i <;> cases set.getLsbD i <;> rfl
  · rfl

theorem Request.met_iff (hoption : r.option &&& flagAnd ≠ 0 ∨ r.option &&& flagOr ≠ 0) :
    r.Met set <-> (r.option &&& flagAnd ≠ 0 ∧ set &&& r.mask = r.mask) ∨
      (r.option &&& flagAnd = 0 ∧ set &&& r.mask ≠ 0) := by
  unfold Request.Met
  rw [BitVec.and_comm set r.mask]
  by_cases hand : r.option &&& flagAnd = 0
  · have hor := hoption.resolve_left fun hne => hne hand
    rw [if_neg (not_not_intro hand)]
    constructor
    · intro hmet
      exact Or.inr ⟨hand, hmet.right⟩
    · rintro (⟨hne, _⟩ | ⟨_, hset⟩)
      · exact absurd hand hne
      · exact ⟨hor, hset⟩
  · rw [if_pos hand]
    constructor
    · intro hmet
      exact Or.inl ⟨hand, hmet⟩
    · rintro (⟨_, hset⟩ | ⟨heq, _⟩)
      · exact hset
      · exact absurd heq hand

theorem or_none : set ||| 0 = set := BitVec.or_zero

end Bits

/-!
## The sends
-/

section Sends

variable {s : State} {t : Tid} {r : Request} {set more : BitVec 32}
  {sends : List (BitVec 32)}

theorem Alone.send (hw : Alone s t r set) (hunmet : ¬ r.Met (set ||| more)) :
    Alone (rtEventSend s more).1 t r (set ||| more) := by
  rcases hw with ⟨hset, hlist, hstat, herror, hpc, hmask, hoption⟩
  subst hset
  unfold rtEventSend
  by_cases hzero : more = 0
  · rw [if_pos hzero, hzero, or_none]
    exact ⟨rfl, hlist, hstat, herror, hpc, hmask, hoption⟩
  · rw [if_neg hzero]
    simp only [hlist, sendLoop]
    have hvisit := @visit_unmet (fun _ => r)
      { s with event := ⟨s.event.set ||| more, s.event.flag, [t]⟩ } t hmask hoption hunmet
    rw [hvisit]
    exact ⟨rfl, rfl, hstat, herror, hpc, hmask, hoption⟩

theorem Alone.resume (hw : Alone s t r set) (hunmet : ¬ r.Met set) (hmet : r.Met (set ||| more)) :
    Resumed (rtEventSend s more).1 t (r.leaves (set ||| more)) (r.mask &&& (set ||| more)) := by
  rcases hw with ⟨hset, hlist, hstat, herror, hpc, hmask, hoption⟩
  subst hset
  unfold rtEventSend
  have hzero : more ≠ 0 := by
    rintro rfl
    rw [or_none] at hmet
    exact hunmet hmet
  rw [if_neg hzero]
  simp only [hlist, sendLoop]
  have hvisit := @visit_met (fun _ => r)
    { s with event := ⟨s.event.set ||| more, s.event.flag, [t]⟩ } t hmask hoption hstat hmet
  rw [hvisit]
  refine ⟨rfl, ?_, ?_, hpc, ?_⟩
  · simp only [update_self]
  · simpa only [update_self] using herror
  · simp only [update_self]

theorem Alone.send_until (hw : Alone s t r set) (hne : sends ≠ [])
    (hfirst : forall front, front <+: sends -> (r.Met (offered set front) <-> front = sends)) :
    exists s', exec step s (sends.map Op.send) = some s' ∧
      Resumed s' t (r.leaves (offered set sends)) (r.mask &&& offered set sends) := by
  induction sends generalizing s set with
  | nil => exact absurd rfl hne
  | cons more rest ih =>
    have hunmet : ¬ r.Met set := by
      intro hmet
      cases (hfirst [] List.nil_prefix).mp hmet
    have hstep : exec step s ((more :: rest).map Op.send) =
        exec step (rtEventSend s more).1 (rest.map Op.send) := rfl
    rw [hstep]
    cases rest with
    | nil =>
      have hmet : r.Met (set ||| more) := (hfirst [more] (List.prefix_refl _)).mpr rfl
      exact ⟨_, rfl, hw.resume hunmet hmet⟩
    | cons next rest =>
      have hlater : ¬ r.Met (set ||| more) := by
        intro hmet
        have hone : [more] <+: more :: next :: rest := ⟨next :: rest, rfl⟩
        cases (hfirst [more] hone).mp hmet
      apply ih (hw.send hlater) nofun
      intro front hfront
      have hlonger : more :: front <+: more :: next :: rest := by
        rcases hfront with ⟨back, hback⟩
        exact ⟨back, by rw [List.cons_append, hback]⟩
      have hiff : r.Met (offered (set ||| more) front) <->
          more :: front = more :: next :: rest := hfirst (more :: front) hlonger
      exact hiff.trans (List.cons_inj_right more)

theorem exec_sends (hlist : s.event.suspendThread = []) : exec step s (sends.map Op.send) =
      some { s with event := { s.event with set := offered s.event.set sends } } := by
  induction sends generalizing s with
  | nil => rfl
  | cons more rest ih =>
    have hsend : (rtEventSend s more).1 =
        { s with event := { s.event with set := s.event.set ||| more } } := by
      unfold rtEventSend
      by_cases hzero : more = 0
      · rw [if_pos hzero, hzero, or_none]
      · rw [if_neg hzero]
        simp only [hlist, sendLoop]
    have hstep : exec step s ((more :: rest).map Op.send) =
        exec step (rtEventSend s more).1 (rest.map Op.send) := rfl
    have hrest := @ih { s with event := { s.event with set := s.event.set ||| more } } hlist
    rw [hstep, hsend, hrest]
    rfl

end Sends

/-!
## The receiver
-/

section Receiver

variable {s : State} {t : Tid} {mask : BitVec 32} {option : BitVec 8} {timeout : Int}

/-- A thread that could call `rt_event_recv` with a mask, an option and a timeout. -/
structure Receiver (s : State) (t : Tid) (mask : BitVec 32) (option : BitVec 8) : Prop where
  stat : (s.thread t).stat = ThreadStat.ready
  pc : s.pc t = Pc.idle
  mask : mask ≠ 0
  option : option &&& flagAnd ≠ 0 ∨ option &&& flagOr ≠ 0

theorem Receiver.step_eq (hr : Receiver s t mask option) :
    stepOutcome s (Op.recv t mask option timeout) =
      if Request.Met ⟨mask, option⟩ s.event.set then
        some ({ s with
            thread := setError s.thread t RtErr.eok
            event := { s.event with set := Request.leaves ⟨mask, option⟩ s.event.set } },
          Outcome.received (mask &&& s.event.set))
      else if timeout = 0 then
        some ({ s with
            thread := setError (setError s.thread t RtErr.eok) t RtErr.etimeout },
          Outcome.fails RtErr.etimeout)
      else
        (suspendFor (setError s.thread t RtErr.eok) t timeout).map fun v =>
          ({ thread := v
             eventSet := update s.eventSet t mask
             eventInfo := update s.eventInfo t option
             event := { s.event with
               suspendThread := suspendInto v s.event.flag t s.event.suspendThread }
             pc := update s.pc t Pc.receiving }, Outcome.waits) := by
  have hmet := @Request.met_iff ⟨mask, option⟩ s.event.set hr.option
  have hvalid : ¬ (option &&& flagAnd = 0 ∧ option &&& flagOr = 0) :=
    fun hnone => hr.option.elim (fun hne => hne hnone.left) (fun hne => hne hnone.right)
  simp only [stepOutcome, if_pos (And.intro hr.stat hr.pc), rtEventRecv, if_neg hr.mask,
    if_neg hvalid]
  by_cases hcond : Request.Met ⟨mask, option⟩ s.event.set
  · rw [if_pos hcond, if_pos (hmet.mp hcond), Request.leaves_eq, BitVec.and_comm mask]
  · rw [if_neg hcond, if_neg (fun hyes => hcond (hmet.mpr hyes))]

theorem Receiver.waits (hr : Receiver s t mask option) (hlist : s.event.suspendThread = [])
    (hzero : timeout ≠ 0) (htimer : 0 < timeout -> timeout.toNat < rtTickMax / 2)
    (hunmet : ¬ Request.Met ⟨mask, option⟩ s.event.set) :
    exists s', stepOutcome s (Op.recv t mask option timeout) = some (s', Outcome.waits) ∧
      Alone s' t ⟨mask, option⟩ s.event.set := by
  have hready : (setError s.thread t RtErr.eok t).stat = ThreadStat.ready :=
    setError_stat.trans hr.stat
  obtain ⟨v, hv⟩ : exists v, suspendFor (setError s.thread t RtErr.eok) t timeout = some v := by
    unfold suspendFor
    dsimp only
    split
    · rename_i hpos
      rw [if_pos (htimer hpos)]
      exact ⟨_, rfl⟩
    · exact ⟨_, rfl⟩
  rcases suspendFor_eq hready hv with ⟨linked, hveq⟩
  rw [hr.step_eq, if_neg hunmet, if_neg hzero, hv]
  refine ⟨_, rfl, rfl, ?_, ?_, ?_, ?_, ?_, ?_⟩
  · simp only [hlist]
    cases s.event.flag with
    | fifo => rfl
    | prio => rfl
  · simp only [hveq, update_self]
  · simp only [hveq, update_self, setError]
  · simp only [update_self]
  · simp only [update_self]
  · simp only [update_self]

end Receiver

/-- A thread that waits alone at an event until its request is met receives what a thread
receives that asks afterwards, and the event is left with the same bits. -/
theorem event_paths_agree {s : State} {t t' : Tid} {mask : BitVec 32} {option : BitVec 8}
    {timeout timeout' : Int} {sends : List (BitVec 32)} (hlist : s.event.suspendThread = [])
    (hr : Receiver s t mask option) (hr' : Receiver s t' mask option) (hzero : timeout ≠ 0)
    (htimer : 0 < timeout -> timeout.toNat < rtTickMax / 2) (hne : sends ≠ [])
    (hfirst : forall front, front <+: sends ->
      (Request.Met ⟨mask, option⟩ (offered s.event.set front) <-> front = sends)) :
    exists s1 s2 s3 s4 s5 recved,
      stepOutcome s (Op.recv t mask option timeout) = some (s1, Outcome.waits) ∧
      exec step s1 (sends.map Op.send) = some s2 ∧
      stepOutcome s2 (Op.recvReturn t) = some (s3, Outcome.received recved) ∧
      exec step s (sends.map Op.send) = some s4 ∧
      stepOutcome s4 (Op.recv t' mask option timeout') =
        some (s5, Outcome.received recved) ∧
      s3.event.set = s5.event.set := by
  have hunmet : ¬ Request.Met ⟨mask, option⟩ s.event.set := by
    intro hmet
    exact hne ((hfirst [] List.nil_prefix).mp hmet).symm
  have hmet : Request.Met ⟨mask, option⟩ (offered s.event.set sends) :=
    (hfirst sends (List.prefix_refl sends)).mpr rfl
  rcases hr.waits hlist hzero htimer hunmet with ⟨s1, hwait, halone⟩
  rcases halone.send_until hne hfirst with ⟨s2, hsends, hresumed⟩
  have hlate : Receiver
      { s with event := { s.event with set := offered s.event.set sends } } t' mask option :=
    ⟨hr'.stat, hr'.pc, hr'.mask, hr'.option⟩
  have hreturn : stepOutcome s2 (Op.recvReturn t) =
      some ({ s2 with pc := Function.update s2.pc t Pc.idle },
        Outcome.received (mask &&& offered s.event.set sends)) := by
    simp only [stepOutcome, if_pos (And.intro hresumed.stat hresumed.pc), recvReturn,
      hresumed.error, ne_eq, not_true_eq_false, if_false, hresumed.given]
  exact ⟨s1, s2, _, _, _, _, hwait, hsends, hreturn, exec_sends hlist,
    hlate.step_eq.trans (if_pos hmet), hresumed.set⟩

/-- Bit 0 is there; the thread waits for bits 0 and 1, which a send of bits 1 and 4 gives
it after one of bit 2. -/
theorem event_paths_agree_and :
    exists s1 s2 s3 s4 s5 recved,
      stepOutcome { bootState IpcFlag.fifo with event := ⟨0x1, IpcFlag.fifo, []⟩ }
        (Op.recv 7 0x3 0x5 10) = some (s1, Outcome.waits) ∧
      exec step s1 ([0x4, 0x12].map Op.send) = some s2 ∧
      stepOutcome s2 (Op.recvReturn 7) = some (s3, Outcome.received recved) ∧
      exec step { bootState IpcFlag.fifo with event := ⟨0x1, IpcFlag.fifo, []⟩ }
        ([0x4, 0x12].map Op.send) = some s4 ∧
      stepOutcome s4 (Op.recv 8 0x3 0x5 0) = some (s5, Outcome.received recved) ∧
      s3.event.set = s5.event.set := by
  refine event_paths_agree rfl ⟨rfl, rfl, by decide, by decide⟩
    ⟨rfl, rfl, by decide, by decide⟩ (by decide) (by decide) (by decide) ?_
  intro front hfront
  rw [List.prefix_cons_iff] at hfront
  rcases hfront with rfl | ⟨front, rfl, hfront⟩
  · decide
  · rw [List.prefix_cons_iff] at hfront
    rcases hfront with rfl | ⟨front, rfl, hfront⟩
    · decide
    · rw [List.prefix_nil] at hfront
      rw [hfront]
      decide

end RtThread.Ipc.Event
