import RtThread.Vbus.Handshake
import RtThread.Vbus.Link

/-!
# Both sides agree on a connected channel

Each channel of two endpoints follows the protocol of one channel between two parties, as long
as no request fails in the middle of its handshake, no channel is freed while its own close is
not answered, and every answer goes to a request of the right role.
-/

namespace RtThread.Vbus

open Transition
open Function (update update_of_ne update_self)
open Handshake (Party Tok Mode Move Joint)

/-- The packet is a `SET`. -/
def isSet (dp : List UInt8) : Prop := dp.getD 0 0 = cmdSet

instance (dp : List UInt8) : Decidable (isSet dp) := instDecidableEqUInt8 _ _

/-- A request that fails has not sent or answered an `ENABLE` yet, a channel that is being
closed is not freed before the answer to an own close, a `SET` goes to a client and an
acknowledged `SET` to a server. -/
def Orderly (l : Link) : Side × Call -> Prop
  | (s, Call.fail i) => ((l s).sess i).st ≠ SessSt.establishing
  | (s, Call.close n) =>
    (l s).chnStatus n = ChnStatus.closed ∨ (l s).chnStatus n = ChnStatus.closing ->
      (l s).unanswered n = false
  | (s, Call.deliver _ _) => forall p, p ∈ (l s.other).out.head? ->
      (isSet p -> forall req, req ∈ (l s).addressee (cstr (p.drop 1)) -> req.isServer = false) ∧
      (isAckSet p -> forall req, req ∈ (l s).addressee (cstr (p.drop 2)) -> req.isServer = true)
  | _ => True

/-!
## One channel of an endpoint
-/

def modeOf : ChnStatus -> Mode
  | ChnStatus.available => Mode.free
  | ChnStatus.establishing => Mode.offering
  | ChnStatus.established | ChnStatus.suspend => Mode.opened
  | ChnStatus.closed | ChnStatus.closing => Mode.closing

def party (e : Endpoint) (n : Nat) : Party Name :=
  ⟨modeOf (e.chnStatus n), e.unanswered n, (e.completed n).map fun r => (r.name, r.isServer)⟩

def tok (n : Nat) : Cmd -> Option (Tok Name)
  | Cmd.set s k => if k = n then some (Tok.offer s) else none
  | Cmd.ackSet s k => if k = n then some (Tok.accept s) else none
  | Cmd.disable k => if k = n then some Tok.close else none
  | Cmd.ackDisable k => if k = n then some Tok.closed else none
  | _ => none

def word (n : Nat) (cs : List Cmd) : List (Tok Name) :=
  cs.filterMap (tok n)

def MoveOrStay (x : Party Name) (p q : List (Tok Name)) (x' : Party Name)
    (p' q' : List (Tok Name)) : Prop :=
  Move x p q x' p' q' ∨ x' = x ∧ p' = p ∧ q' = q

section Projection

variable {e e' : Endpoint} {n k : Nat} {c : Cmd} {ds rest : List Cmd} {call : Call}
  {p q : List (Tok Name)}

theorem word_cons_of_none (h : tok n c = none) : word n (c :: rest) = word n rest :=
  List.filterMap_cons_none h

theorem word_cons_of_some {t : Tok Name} (h : tok n c = some t) :
    word n (c :: rest) = t :: word n rest :=
  List.filterMap_cons_some h

theorem word_silent (h : forall x, x ∈ ds -> x.silent = true) : word n ds = [] := by
  rw [word, List.filterMap_eq_nil_iff]
  intro x hx
  have hs := h x hx
  cases x <;> first | rfl | cases hs

theorem word_append (cs : List Cmd) : word n (cs ++ ds) = word n cs ++ word n ds :=
  List.filterMap_append

theorem party_of_channels (h : Channels e' e.chnStatus e.completed e.unanswered) :
    party e' n = party e n := by
  rw [party, h.chnStatus, h.completed, h.unanswered]
  rfl

variable {st : ChnStatus}

theorem party_of_ne {o : Option Request} (hne : n ≠ k)
    (h : Channels e' (update e.chnStatus k st) (update e.completed k o)
      e.unanswered) : party e' n = party e n := by
  rw [party, h.chnStatus, h.completed, h.unanswered, update_of_ne hne, update_of_ne hne]
  rfl

theorem party_of_status_ne (hne : n ≠ k)
    (h : Channels e' (update e.chnStatus k st) e.completed e.unanswered) :
    party e' n = party e n := by
  rw [party, h.chnStatus, h.completed, h.unanswered, update_of_ne hne]
  rfl

theorem party_of_status (h : Channels e' (update e.chnStatus n st) e.completed e.unanswered) :
    party e' n = ⟨modeOf st, (party e n).unanswered, (party e n).last⟩ := by
  rw [party, h.chnStatus, h.completed, h.unanswered, update_self]
  rfl

theorem party_of_complete {req : Request}
    (h : Channels e' (update e.chnStatus n ChnStatus.established)
      (update e.completed n (some req)) e.unanswered) :
    party e' n = ⟨Mode.opened, (party e n).unanswered, some (req.name, req.isServer)⟩ := by
  rw [party, h.chnStatus, h.completed, h.unanswered, update_self, update_self]
  rfl

theorem party_eq {m : Mode} (h : modeOf (e.chnStatus n) = m) :
    party e n = ⟨m, (party e n).unanswered, (party e n).last⟩ := by
  rw [← h]
  rfl

theorem stay (hparty : party e' n = party e n) (hc : tok n c = none) (hds : word n ds = []) :
    MoveOrStay (party e n) p (word n (c :: rest)) (party e' n) (p ++ word n ds) (word n rest) := by
  right
  rw [hds, List.append_nil, word_cons_of_none hc]
  exact ⟨hparty, rfl, rfl⟩

theorem tok_of_ne (hne : n ≠ k) (hc : c.chnr = some k) : tok n c = none := by
  cases c <;> cases hc <;> first | rfl | exact if_neg (Ne.symm hne)

theorem word_one_of_ne (hne : n ≠ k) (hc : c.chnr = some k) : word n [c] = [] :=
  (word_cons_of_none (tok_of_ne hne hc)).trans rfl

theorem Effect.move (h : Effect e c e' ds)
    (hset : forall s k req, c = Cmd.set s k -> e.addressee s.bytes = some req ->
      req.isServer = false)
    (hack : forall s k req, c = Cmd.ackSet s k -> e.addressee s.bytes = some req ->
      req.isServer = true) :
    MoveOrStay (party e n) p (word n (c :: rest)) (party e' n) (p ++ word n ds) (word n rest) := by
  cases h with
  | quiet hc hds h =>
    have hparty := @party_of_channels e e' n h
    cases htok : tok n c with
    | none => exact stay hparty htok (word_silent hds)
    | some t =>
      rw [word_cons_of_some htok, word_silent hds, List.append_nil, hparty]
      left
      cases t with
      | offer s => exact Move.refuse
      | accept s => exact Move.ignore
      | close => cases c <;> simp_all [tok, Cmd.closes]
      | closed => cases c <;> simp_all [tok, Cmd.closes]
  | @offer s k e' hfree h =>
    by_cases hk : n = k
    · subst hk
      left
      rw [party_of_status h, party_eq (congrArg modeOf hfree),
        word_cons_of_none (show tok n (Cmd.enable s) = none from rfl)]
      have hword : word n [Cmd.set s n] = [Tok.offer s] :=
        word_cons_of_some (if_pos rfl)
      rw [hword]
      exact Move.offer s
    · exact stay (party_of_status_ne hk h) rfl (word_one_of_ne hk rfl)
  | @accept s k req e' hreq hname hfree h =>
    by_cases hk : n = k
    · subst hk
      left
      have hword : word n [Cmd.ackSet s n] = [Tok.accept s] :=
        word_cons_of_some (if_pos rfl)
      rw [party_of_complete h, party_eq (congrArg modeOf hfree), hword,
        word_cons_of_some (show tok n (Cmd.set s n) = some (Tok.offer s) from if_pos rfl),
        hname, hset s n req rfl hreq]
      exact Move.accept
    · exact stay (party_of_ne hk h) (tok_of_ne hk rfl) (word_one_of_ne hk rfl)
  | @accepted s k req e' hreq hname h =>
    by_cases hk : n = k
    · subst hk
      left
      rw [party_of_complete h, show word n [] = [] from rfl, List.append_nil,
        word_cons_of_some (show tok n (Cmd.ackSet s n) = some (Tok.accept s) from if_pos rfl),
        hname, hack s n req rfl hreq]
      exact Move.accepted
    · exact stay (party_of_ne hk h) (tok_of_ne hk rfl) rfl
  | @seeClose k e' mem h =>
    by_cases hk : n = k
    · subst hk
      left
      rw [party_of_status h,
        word_cons_of_some (show tok n (Cmd.disable n) = some Tok.close from if_pos rfl)]
      cases mem with
      | false =>
        rw [show word n (if false = true then [Cmd.ackDisable n] else []) = [] from rfl,
          List.append_nil]
        exact Move.seeCloseSilent
      | true =>
        have hword : word n [Cmd.ackDisable n] = [Tok.closed] :=
          word_cons_of_some (if_pos rfl)
        rw [if_pos rfl, hword]
        exact Move.seeClose
    · apply stay (party_of_status_ne hk h) (tok_of_ne hk rfl)
      cases mem with
      | false => rfl
      | true => exact word_one_of_ne hk rfl
  | @seeClosed k e' h =>
    by_cases hk : n = k
    · subst hk
      left
      have hparty : party e' n = ⟨Mode.free, false, (party e n).last⟩ := by
        rw [party, h.chnStatus, h.completed, h.unanswered, update_self, update_self]
        rfl
      rw [hparty, show word n [] = [] from rfl, List.append_nil,
        word_cons_of_some (show tok n (Cmd.ackDisable n) = some Tok.closed from if_pos rfl)]
      exact Move.seeClosed
    · have hparty : party e' n = party e n := by
        rw [party, h.chnStatus, h.completed, h.unanswered, update_of_ne hk, update_of_ne hk]
        rfl
      exact stay hparty (tok_of_ne hk rfl) rfl
  | @suspend k e' hst h =>
    by_cases hk : n = k
    · subst hk
      refine stay ?_ rfl rfl
      rw [party_of_status h, party_eq (congrArg modeOf hst)]
      rfl
    · exact stay (party_of_status_ne hk h) rfl rfl
  | @resume k e' hst h =>
    by_cases hk : n = k
    · subst hk
      refine stay ?_ rfl rfl
      rw [party_of_status h, party_eq (congrArg modeOf hst)]
      rfl
    · exact stay (party_of_status_ne hk h) rfl rfl

theorem modeOf_connected (h : isConnected st = true) : modeOf st = Mode.opened := by
  cases st <;> first | rfl | cases h

theorem modeOf_closing (h : st = ChnStatus.closed ∨ st = ChnStatus.closing) :
    modeOf st = Mode.closing := by
  rcases h with rfl | rfl <;> rfl

theorem CallEffect.move (h : CallEffect e call e' ds)
    (hfail : forall i, call = Call.fail i -> (e.sess i).st ≠ SessSt.establishing)
    (hclose : forall k, call = Call.close k ->
      e.chnStatus k = ChnStatus.closed ∨ e.chnStatus k = ChnStatus.closing ->
        e.unanswered k = false) :
    MoveOrStay (party e n) p q (party e' n) (p ++ word n ds) q := by
  cases h with
  | quiet hds h =>
    right
    rw [word_silent hds, List.append_nil]
    exact ⟨party_of_channels h, rfl, rfl⟩
  | @close k e' hk hst h =>
    by_cases hn : n = k
    · subst hn
      left
      have hparty : party e' n = ⟨Mode.closing, true, (party e n).last⟩ := by
        rw [party, h.chnStatus, h.completed, h.unanswered, update_self, update_self]
        rfl
      have hword : word n [Cmd.disable n] = [Tok.close] := word_cons_of_some (if_pos rfl)
      rw [hparty, party_eq (modeOf_connected hst), hword]
      exact Move.close
    · right
      have hparty : party e' n = party e n := by
        rw [party, h.chnStatus, h.completed, h.unanswered, update_of_ne hn, update_of_ne hn]
        rfl
      rw [word_one_of_ne hn rfl, List.append_nil]
      exact ⟨hparty, rfl, rfl⟩
  | @free k e' hk hst h =>
    by_cases hn : n = k
    · subst hn
      left
      have hun : (party e n).unanswered = false := hclose n rfl hst
      rw [party_of_status h, party_eq (modeOf_closing hst), hun,
        show word n [] = [] from rfl, List.append_nil]
      exact Move.free
    · right
      rw [show word n [] = [] from rfl, List.append_nil]
      exact ⟨party_of_status_ne hn h, rfl, rfl⟩
  | cleanup hk hst hchnr h => exact absurd hst (hfail _ rfl)

end Projection

/-!
## The whole link
-/

/-- Every channel of the link is in a state of the protocol. -/
structure Agreeing (l : Link) (cs : Side -> List Cmd) : Prop extends Sound l cs where
  joint : forall s n, 0 < n ->
    Joint (party (l s) n) (party (l s.other) n) (word n (cs s)) (word n (cs s.other))

theorem agreeing_init : Agreeing Link.init fun _ => [] := by
  refine ⟨sound_init, ?_⟩
  intro s n hn
  have hparty : party Endpoint.init n = ⟨Mode.free, false, none⟩ := by
    rw [party, Endpoint.init]
    simp only [if_neg (Nat.ne_of_gt hn)]
    rfl
  show Joint (party Endpoint.init n) (party Endpoint.init n) [] []
  rw [hparty]
  exact Or.inl Handshake.Shape.idle

theorem Joint.moveOrStay {x x' y : Party Name} {p p' q q' : List (Tok Name)}
    (h : Joint x y p q) (hmove : MoveOrStay x p q x' p' q') : Joint x' y p' q' := by
  rcases hmove with hmove | ⟨rfl, rfl, rfl⟩
  · exact h.move hmove
  · exact h

theorem Side.other_other (s : Side) : s.other.other = s := by
  cases s <;> rfl

section Step

variable {l l' : Link} {cs cs' : Side -> List Cmd} {x : Side × Call}

theorem joint_of_side {s : Side}
    (h : forall n, 0 < n -> Joint (party (l s) n) (party (l s.other) n) (word n (cs s))
      (word n (cs s.other))) (t : Side) (n : Nat) (hn : 0 < n) :
    Joint (party (l t) n) (party (l t.other) n) (word n (cs t)) (word n (cs t.other)) := by
  rcases Side.eq_or_other s t with rfl | rfl
  · exact h n hn
  · rw [Side.other_other]
    exact (h n hn).symm

theorem StepCases.agreeing (hl : Agreeing l cs) (h : StepCases l cs x l' cs')
    (hok : Orderly l x) : Agreeing l' cs' := by
  have hsound : Sound l' cs' := by
    apply h.sound hl.toSound
    intro i hx hst
    obtain ⟨s, call⟩ := x
    obtain rfl : call = Call.fail i := hx
    exact absurd hst hok
  refine ⟨hsound, ?_⟩
  cases h with
  | @call s call e' ds heffect hposts =>
    apply joint_of_side (s := s)
    intro n hn
    have hother := s.other_ne
    rw [update_self, update_self, update_of_ne hother, update_of_ne hother, word_append]
    apply Joint.moveOrStay (hl.joint s n hn)
    apply heffect.move
    · rintro i rfl
      exact hok
    · rintro k rfl
      exact hok
  | @deliver s mem behind c rest e' ds hhead hc heffect hposts =>
    apply joint_of_side (s := s)
    intro n hn
    have hother := s.other_ne
    have hout : c.encode ∈ (l s.other).out.head? := by
      rw [hl.out, hhead]
      rfl
    have hroles := hok c.encode hout
    rw [update_self, update_self, update_of_ne hother,
      update_of_ne hother, update_self, update_self, word_append]
    have hparty : party { l s.other with out := rest.map Cmd.encode } n = party (l s.other) n := rfl
    rw [hparty]
    have hjoint := hl.joint s n hn
    rw [hhead] at hjoint
    apply Joint.moveOrStay hjoint
    apply heffect.move
    · rintro t k req rfl hreq
      have hname : cstr ((Cmd.set t k).encode.drop 1) = t.bytes :=
        cstr_name t [UInt8.ofNat k]
      exact hroles.1 rfl req (by rw [hname]; exact hreq)
    · rintro t k req rfl hreq
      have hname : cstr ((Cmd.ackSet t k).encode.drop 2) = t.bytes :=
        cstr_name t [UInt8.ofNat k]
      exact hroles.2 ⟨rfl, rfl⟩ req (by rw [hname]; exact hreq)

end Step

/-- In an orderly run, wherever both sides regard a channel as connected, the requests
completed last on it are for the same service, one as a client and one as a server. -/
theorem handshake_agreement {labels : List (Side × Call)} {l : Link}
    (hrun : Run (Guarded Orderly (Graph linkStep)) Link.init labels l) {n : Nat} (hn : 0 < n)
    (ha : isConnected ((l Side.a).chnStatus n) = true)
    (hb : isConnected ((l Side.b).chnStatus n) = true) :
    exists ra rb, (l Side.a).completed n = some ra ∧ (l Side.b).completed n = some rb ∧
      ra.name = rb.name ∧ ra.isServer = !rb.isServer := by
  obtain ⟨cs, hl⟩ : exists cs, Agreeing l cs := by
    apply hrun.invariant (fun l => exists cs, Agreeing l cs) ⟨_, agreeing_init⟩
    rintro l x l' ⟨cs, hl⟩ hs
    obtain ⟨cs', hcases⟩ := step_cases hl.toSound hs.2
    exact ⟨cs', hcases.agreeing hl hs.1⟩
  obtain ⟨s, r, hlast, hlast'⟩ := (hl.joint Side.a n hn).agree (modeOf_connected ha)
    (modeOf_connected hb)
  obtain ⟨ra, hra, heq⟩ := Option.map_eq_some_iff.1 hlast
  obtain ⟨rb, hrb, heq'⟩ := Option.map_eq_some_iff.1 hlast'
  obtain ⟨hname, hrole⟩ := Prod.mk.inj heq
  obtain ⟨hname', hrole'⟩ := Prod.mk.inj heq'
  refine ⟨ra, rb, hra, hrb, hname.trans hname'.symm, ?_⟩
  rw [hrole, hrole', Bool.not_not]

instance (l : Link) (x : Side × Call) : Decidable (Orderly l x) :=
  match x with
  | (_, Call.fail _) => inferInstanceAs (Decidable (_ ≠ _))
  | (_, Call.close _) => inferInstanceAs (Decidable (_ -> _))
  | (_, Call.deliver _ _) => inferInstanceAs (Decidable (forall p, p ∈ _ -> _))
  | (_, Call.request _ _) | (_, Call.done _) | (_, Call.warn _) | (_, Call.relief _) =>
    isTrue trivial

def printer : Name := ⟨[112], by decide, by decide⟩

theorem other_nul : 0 ∉ ([113] : List UInt8) := by decide

def other : Name := ⟨[113], other_nul, by decide⟩

def served : List (Side × Call) :=
  [(Side.a, Call.request true ⟨printer, true⟩),
    (Side.b, Call.request true ⟨printer, false⟩),
    (Side.a, Call.deliver true []), (Side.b, Call.deliver true []),
    (Side.a, Call.deliver true [])]

theorem served_run :
    (exec (fun l x => if Orderly l x then linkStep l x else none) Link.init served).map
      (fun l => (isConnected ((l Side.a).chnStatus 1), isConnected ((l Side.b).chnStatus 1))) =
        some (true, true) := by
  rfl

theorem handshake_agreement_served :
    exists l, Run (Guarded Orderly (Graph linkStep)) Link.init served l ∧
      exists ra rb, (l Side.a).completed 1 = some ra ∧ (l Side.b).completed 1 = some rb ∧
        ra.name = rb.name ∧ ra.isServer = !rb.isServer := by
  obtain ⟨l, hl, hconn⟩ := Option.map_eq_some_iff.1 served_run
  obtain ⟨ha, hb⟩ := Prod.mk.inj hconn
  have hrun := guarded_run_of_exec hl
  exact ⟨l, hrun, handshake_agreement hrun Nat.one_pos ha hb⟩

/-- Side `b` serves and requests the same service at once; the client sits in the first
slot and takes the answer that was meant for the server. -/
def confused : List (Side × Call) :=
  [(Side.b, Call.request true ⟨other, true⟩), (Side.b, Call.request true ⟨printer, true⟩),
    (Side.a, Call.request true ⟨printer, false⟩), (Side.b, Call.deliver true []),
    (Side.b, Call.fail 0), (Side.b, Call.request true ⟨printer, false⟩),
    (Side.a, Call.deliver true []), (Side.b, Call.deliver true [])]

theorem confused_run : (exec linkStep Link.init confused).map (fun l =>
      (isConnected ((l Side.a).chnStatus 1) && isConnected ((l Side.b).chnStatus 1),
        (l Side.a).completed 1, (l Side.b).completed 1)) =
          some (true, some ⟨printer, false⟩, some ⟨printer, false⟩) := by
  rfl

/-- Both sides are connected on channel 1 as clients. -/
theorem handshake_two_clients :
    exists l, Run (Graph linkStep) Link.init confused l ∧
      isConnected ((l Side.a).chnStatus 1) = true ∧
      isConnected ((l Side.b).chnStatus 1) = true ∧
      (l Side.a).completed 1 = some ⟨printer, false⟩ ∧
      (l Side.b).completed 1 = some ⟨printer, false⟩ := by
  obtain ⟨l, hl, hobs⟩ := Option.map_eq_some_iff.1 confused_run
  obtain ⟨hconn, hreqs⟩ := Prod.mk.inj hobs
  obtain ⟨ha, hb⟩ := Prod.mk.inj hreqs
  rw [Bool.and_eq_true] at hconn
  exact ⟨l, run_of_exec hl, hconn.1, hconn.2, ha, hb⟩

end RtThread.Vbus
