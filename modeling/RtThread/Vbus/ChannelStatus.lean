import RtThread.Vbus.Link

/-!
# Channels under the requests of other channels

A request that fails after its `ENABLE` or `SET` makes the channel available whose number its
session slot holds.  The slot keeps the number of an earlier session until it gets one of its
own, so that the channel may be any channel, channel 0 included.
-/

namespace RtThread.Vbus

open Transition
open Function (update update_of_ne update_self)

/-- A request that fails in the middle of its handshake finds in its slot the number of a
channel that is not connected, and no acknowledged `SET` comes for a suspended channel. -/
def Undisturbing (l : Link) : Side × Call -> Prop
  | (s, Call.fail i) => ((l s).sess i).st = SessSt.establishing ->
      0 < ((l s).sess i).chnr ∧
        isConnected ((l s).chnStatus ((l s).sess i).chnr.toNat) = false
  | (s, Call.deliver _ _) => forall p, p ∈ (l s.other).out.head? -> isAckSet p ->
      (l s).awaits (cstr (p.drop 2)) -> (l s).chnStatus (ackChnr p) ≠ ChnStatus.suspend
  | _ => True

instance (l : Link) (x : Side × Call) : Decidable (Undisturbing l x) :=
  match x with
  | (_, Call.fail _) => inferInstanceAs (Decidable (_ -> _))
  | (_, Call.deliver _ _) => inferInstanceAs (Decidable (forall p, p ∈ _ -> _))
  | (_, Call.request _ _) | (_, Call.done _) | (_, Call.close _) | (_, Call.warn _)
  | (_, Call.relief _) => isTrue trivial

/-- The step closes the channel here, or is the arrival of a command to suspend, resume or
close it, or of the answer to a close. -/
def Concerns (l : Link) (s : Side) (n : Nat) : Side × Call -> Prop
  | (t, Call.close k) => t = s ∧ k = n
  | (t, Call.deliver _ _) => t = s ∧
      exists c, c ∈ [Cmd.suspend n, Cmd.resume n, Cmd.disable n, Cmd.ackDisable n] ∧
        (l s.other).out.head? = some c.encode
  | _ => False

section Step

variable {l l' : Link} {cs cs' : Side -> List Cmd} {x : Side × Call}

theorem ackChnr_encode {s : Name} {n : Nat} (hn : 0 < n ∧ n < channelNr) :
    ackChnr (Cmd.ackSet s n).encode = n := by
  have hsplit : (Cmd.ackSet s n).encode.drop 2 = s.bytes ++ 0 :: UInt8.ofNat n :: [] := rfl
  obtain ⟨hname, hbyte⟩ := read_named hn.2 hsplit
  rw [ackChnr, hname]
  exact hbyte

theorem awaits_of_addressee {e : Endpoint} {name : List UInt8} {req : Request}
    (h : e.addressee name = some req) : e.awaits name := by
  rw [← sessIdx_lt_iff]
  by_contra hle
  rw [Endpoint.addressee, if_neg hle] at h
  cases h

theorem eq_of_update {f : Nat -> ChnStatus} {n k : Nat} {st : ChnStatus}
    (h : update f n st k ≠ f k) : k = n := by
  by_contra hne
  exact h (update_of_ne hne ..)

theorem StepCases.concerns (hl : Streams l cs) (h : StepCases l cs x l' cs')
    (hok : Undisturbing l x)
    {s : Side} {n : Nat} (hconn : isConnected ((l s).chnStatus n) = true)
    (hchange : (l' s).chnStatus n ≠ (l s).chnStatus n) : Concerns l s n x := by
  have hside : s = x.1 := by
    by_contra hne
    exact hchange (congrFun (h.other_channels hne).chnStatus n)
  cases h with
  | @call t call e' ds heffect hposts =>
    obtain rfl : s = t := hside
    rw [update_self] at hchange
    cases heffect with
    | quiet hcs h =>
      rw [h.chnStatus] at hchange
      exact absurd rfl hchange
    | close hn hst h =>
      rw [h.chnStatus] at hchange
      exact ⟨rfl, (eq_of_update hchange).symm⟩
    | free hn hst h =>
      rw [h.chnStatus] at hchange
      exact ⟨rfl, (eq_of_update hchange).symm⟩
    | @cleanup i k e' hk hst hchnr h =>
      -- the channel in the slot is not connected
      rw [h.chnStatus] at hchange
      obtain rfl := eq_of_update hchange
      have hfree := (hok hst).2
      rw [hchnr, Int.toNat_natCast, hconn] at hfree
      cases hfree
  | @deliver t mem behind c rest e' ds hcs hc heffect hposts =>
    obtain rfl : s = t := hside
    rw [update_self] at hchange
    have hhead : (l s.other).out.head? = some c.encode := by
      rw [hl.out, hcs]
      rfl
    cases heffect with
    | quiet hc hcs h =>
      rw [h.chnStatus] at hchange
      exact absurd rfl hchange
    | offer hfree h =>
      rw [h.chnStatus] at hchange
      obtain rfl := eq_of_update hchange
      rw [hfree] at hconn
      cases hconn
    | accept hreq hname hfree h =>
      rw [h.chnStatus] at hchange
      obtain rfl := eq_of_update hchange
      rw [hfree] at hconn
      cases hconn
    | @accepted name k req e' hreq hname h =>
      rw [h.chnStatus] at hchange
      obtain rfl := eq_of_update hchange
      rw [update_self] at hchange
      have hstr : cstr ((Cmd.ackSet name n).encode.drop 2) = name.bytes :=
        cstr_name name [UInt8.ofNat n]
      have hnot := hok _ hhead ⟨rfl, rfl⟩ (by
        rw [hstr]
        exact awaits_of_addressee hreq)
      rw [ackChnr_encode (hc n rfl)] at hnot
      rcases of_decide_eq_true hconn with hst | hst
      · exact absurd hst.symm hchange
      · exact absurd hst hnot
    | seeClose mem h =>
      rw [h.chnStatus] at hchange
      obtain rfl := eq_of_update hchange
      exact ⟨rfl, _, by simp, hhead⟩
    | seeClosed h =>
      rw [h.chnStatus] at hchange
      obtain rfl := eq_of_update hchange
      exact ⟨rfl, _, by simp, hhead⟩
    | suspend hst h =>
      rw [h.chnStatus] at hchange
      obtain rfl := eq_of_update hchange
      exact ⟨rfl, _, by simp, hhead⟩
    | resume hst h =>
      rw [h.chnStatus] at hchange
      obtain rfl := eq_of_update hchange
      exact ⟨rfl, _, by simp, hhead⟩

end Step

theorem undisturbing_cleanup {l : Link} {x : Side × Call} (hok : Undisturbing l x) (i : Nat)
    (hx : x.2 = Call.fail i) (hst : ((l x.1).sess i).st = SessSt.establishing) :
    0 < ((l x.1).sess i).chnr := by
  obtain ⟨s, call⟩ := x
  obtain rfl : call = Call.fail i := hx
  exact (hok hst).1

/-- As long as no step disturbs a channel, channel 0 stays established at both sides and a
connected channel changes its state only by a step about it. -/
theorem channel_status_undisturbed {labels : List (Side × Call)} {l : Link}
    (hrun : Run (Guarded Undisturbing (Graph linkStep)) Link.init labels l) :
    (forall s, (l s).chnStatus 0 = ChnStatus.established) ∧
      forall x l', Undisturbing l x -> linkStep l x = some l' ->
        forall s n, isConnected ((l s).chnStatus n) = true ->
          (l' s).chnStatus n ≠ (l s).chnStatus n -> Concerns l s n x := by
  obtain ⟨cs, hsound⟩ : exists cs, Sound l cs := by
    apply hrun.invariant (fun l => exists cs, Sound l cs) ⟨_, sound_init⟩
    rintro l x l' ⟨cs, hl⟩ hs
    obtain ⟨cs', hcases⟩ := step_cases hl hs.2
    exact ⟨cs', hcases.sound hl (undisturbing_cleanup hs.1)⟩
  refine ⟨hsound.up, ?_⟩
  intro x l' hok hstep s n hconn hchange
  obtain ⟨cs', hcases⟩ := step_cases hsound hstep
  exact hcases.concerns hsound.toStreams hok hconn hchange

def service : Name := ⟨[120], by decide, by decide⟩

/-- A client asks for a service, and its wait times out: channel 0 is given back. -/
theorem timeout_frees_channel_zero :
    exists l, Run (Graph linkStep) Link.init
      [(Side.a, Call.request true ⟨service, false⟩), (Side.a, Call.fail 0)] l ∧
        (l Side.a).chnStatus 0 = ChnStatus.available := by
  have hstatus : (exec linkStep Link.init
      [(Side.a, Call.request true ⟨service, false⟩), (Side.a, Call.fail 0)]).map
        (fun l => (l Side.a).chnStatus 0) = some ChnStatus.available := by rfl
  obtain ⟨l, hl, hfree⟩ := Option.map_eq_some_iff.1 hstatus
  exact ⟨l, run_of_exec hl, hfree⟩

def opening : List (Side × Call) :=
  [(Side.a, Call.request true ⟨service, true⟩),
    (Side.b, Call.request true ⟨service, false⟩),
    (Side.a, Call.deliver true []), (Side.b, Call.deliver true []),
    (Side.a, Call.deliver true [])]

theorem opening_run :
    (exec (fun l x => if Undisturbing l x then linkStep l x else none) Link.init opening).map
      (fun l => ((l Side.a).chnStatus 1, (l Side.b).chnStatus 1)) =
        some (ChnStatus.established, ChnStatus.established) := by
  rfl

/-- Behind it channel 0 is up and the open channel is safe from other steps. -/
theorem channel_status_undisturbed_opening :
    exists l, Run (Guarded Undisturbing (Graph linkStep)) Link.init opening l ∧
      (l Side.a).chnStatus 1 = ChnStatus.established ∧
      (forall s, (l s).chnStatus 0 = ChnStatus.established) ∧
      forall x l', Undisturbing l x -> linkStep l x = some l' ->
        (l' Side.a).chnStatus 1 ≠ ChnStatus.established -> Concerns l Side.a 1 x := by
  obtain ⟨l, hl, hstatus⟩ := Option.map_eq_some_iff.1 opening_run
  have hopen : (l Side.a).chnStatus 1 = ChnStatus.established := (Prod.mk.inj hstatus).1
  have hrun := guarded_run_of_exec hl
  obtain ⟨hup, hsafe⟩ := channel_status_undisturbed hrun
  refine ⟨l, hrun, hopen, hup, ?_⟩
  intro x l' hok hstep hchange
  apply hsafe x l' hok hstep Side.a 1
  · rw [hopen]
    rfl
  · rw [hopen]
    exact hchange

end RtThread.Vbus
