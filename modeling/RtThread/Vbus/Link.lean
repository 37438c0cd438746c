import RtThread.Library.Transition
import RtThread.Vbus.Command

/-!
# Two endpoints

Two sides that run this code, joined by the two streams of channel 0.  A step is a call of one
side, up to where it waits or from there to its end, or the arrival of the next packet.
-/

namespace RtThread.Vbus

open Transition
open Function (update update_of_ne update_self)

inductive Side where
  | a
  | b
  deriving DecidableEq

def Side.other : Side -> Side
  | Side.a => Side.b
  | Side.b => Side.a

/-- Both endpoints; what one has posted and the other has not read is in its `out`. -/
abbrev Link := Side -> Endpoint

/-- `done` and `fail` end the request of a session; `warn` and `relief` are posts of
`rt_vbus_data_push` and `rt_vbus_data_pop`; `deliver` reads the next packet. -/
inductive Call where
  | request (mem : Bool) (req : Request)
  | done (i : Nat)
  | fail (i : Nat)
  | close (n : Nat)
  | warn (n : Nat)
  | relief (n : Nat)
  | deliver (mem : Bool) (behind : List UInt8)

def result {α : Type} : Except Stop (α × Endpoint) -> Option Endpoint
  | Except.ok (_, e) => some e
  | Except.error _ => none

def Endpoint.waits (e : Endpoint) (i : Nat) : Prop :=
  i < sessNr ∧ (e.sess i).st ≠ SessSt.available

instance (e : Endpoint) (i : Nat) : Decidable (e.waits i) := instDecidableAnd

def Endpoint.call (e : Endpoint) : Call -> Option Endpoint
  | Call.request mem req => result (requestChn mem req e)
  | Call.done i =>
    if e.waits i ∧ (e.sess i).cmp = true then result (requestDone i e) else none
  | Call.fail i =>
    if e.waits i then result (requestFail i e) else none
  | Call.close n => result (closeChn n e)
  | Call.warn n =>
    if 0 < n ∧ n < channelNr then result (chn0Post [cmdSuspend, UInt8.ofNat n] e) else none
  | Call.relief n =>
    if 0 < n ∧ n < channelNr then result (chn0Post [cmdResume, UInt8.ofNat n] e) else none
  | Call.deliver _ _ => none

def Endpoint.receive (e : Endpoint) (mem : Bool) (p behind : List UInt8) : Option Endpoint :=
  result (busIn ⟨0, UInt8.ofNat p.length, p ++ behind, mem, false⟩ e)

def linkStep (l : Link) : Side × Call -> Option Link
  | (s, Call.deliver mem behind) =>
    match (l s.other).out with
    | [] => none
    | p :: rest => ((l s).receive mem p behind).map fun e =>
      Function.update (Function.update l s.other { l s.other with out := rest }) s e
  | (s, call) => ((l s).call call).map (Function.update l s)

def Link.init : Link := fun _ => Endpoint.init

/-!
## What a step does to the channels
-/

structure Channels (e : Endpoint) (chnStatus : Nat -> ChnStatus)
    (completed : Nat -> Option Request) (unanswered : Nat -> Bool) : Prop where
  chnStatus : e.chnStatus = chnStatus
  completed : e.completed = completed
  unanswered : e.unanswered = unanswered

/-- Commands that change no channel at the other side for good. -/
def Cmd.silent : Cmd -> Bool
  | Cmd.enable _ | Cmd.nakEnable _ | Cmd.nakSet _ _ | Cmd.suspend _ | Cmd.resume _ => true
  | _ => false

/-- A `DISABLE` or the answer to one is never passed over. -/
def Cmd.closes : Cmd -> Bool
  | Cmd.disable _ | Cmd.ackDisable _ => true
  | _ => false

def Endpoint.addressee (e : Endpoint) (name : List UInt8) : Option Request :=
  let i := e.sessIdx name SessSt.establishing
  if i < sessNr then (e.sess i).req else none

/-- What a command does to the endpoint that takes it in: its channels afterwards, and the
commands it posts. -/
inductive Effect (e : Endpoint) : Cmd -> Endpoint -> List Cmd -> Prop where
  | quiet {c : Cmd} {e' : Endpoint} {cs : List Cmd} (hc : c.closes = false)
      (hcs : forall x, x ∈ cs -> x.silent = true)
      (h : Channels e' e.chnStatus e.completed e.unanswered) : Effect e c e' cs
  | offer {s : Name} {n : Nat} {e' : Endpoint} (hfree : e.chnStatus n = ChnStatus.available)
      (h : Channels e' (Function.update e.chnStatus n ChnStatus.establishing) e.completed
        e.unanswered) : Effect e (Cmd.enable s) e' [Cmd.set s n]
  | accept {s : Name} {n : Nat} {req : Request} {e' : Endpoint}
      (hreq : e.addressee s.bytes = some req) (hname : req.name = s)
      (hfree : e.chnStatus n = ChnStatus.available)
      (h : Channels e' (Function.update e.chnStatus n ChnStatus.established)
        (Function.update e.completed n (some req)) e.unanswered) :
      Effect e (Cmd.set s n) e' [Cmd.ackSet s n]
  | accepted {s : Name} {n : Nat} {req : Request} {e' : Endpoint}
      (hreq : e.addressee s.bytes = some req) (hname : req.name = s)
      (h : Channels e' (Function.update e.chnStatus n ChnStatus.established)
        (Function.update e.completed n (some req)) e.unanswered) :
      Effect e (Cmd.ackSet s n) e' []
  | seeClose {n : Nat} {e' : Endpoint} (mem : Bool)
      (h : Channels e' (Function.update e.chnStatus n ChnStatus.closing) e.completed
        e.unanswered) :
      Effect e (Cmd.disable n) e' (if mem then [Cmd.ackDisable n] else [])
  | seeClosed {n : Nat} {e' : Endpoint}
      (h : Channels e' (Function.update e.chnStatus n ChnStatus.available) e.completed
        (Function.update e.unanswered n false)) : Effect e (Cmd.ackDisable n) e' []
  | suspend {n : Nat} {e' : Endpoint} (hst : e.chnStatus n = ChnStatus.established)
      (h : Channels e' (Function.update e.chnStatus n ChnStatus.suspend) e.completed
        e.unanswered) : Effect e (Cmd.suspend n) e' []
  | resume {n : Nat} {e' : Endpoint} (hst : e.chnStatus n = ChnStatus.suspend)
      (h : Channels e' (Function.update e.chnStatus n ChnStatus.established) e.completed
        e.unanswered) : Effect e (Cmd.resume n) e' []

/-- What a call does. -/
inductive CallEffect (e : Endpoint) : Call -> Endpoint -> List Cmd -> Prop where
  | quiet {call : Call} {e' : Endpoint} {cs : List Cmd}
      (hcs : forall x, x ∈ cs -> x.silent = true)
      (h : Channels e' e.chnStatus e.completed e.unanswered) : CallEffect e call e' cs
  | close {n : Nat} {e' : Endpoint} (hn : 0 < n ∧ n < channelNr)
      (hst : isConnected (e.chnStatus n) = true)
      (h : Channels e' (Function.update e.chnStatus n ChnStatus.closing) e.completed
        (Function.update e.unanswered n true)) : CallEffect e (Call.close n) e' [Cmd.disable n]
  | free {n : Nat} {e' : Endpoint} (hn : 0 < n ∧ n < channelNr)
      (hst : e.chnStatus n = ChnStatus.closed ∨ e.chnStatus n = ChnStatus.closing)
      (h : Channels e' (Function.update e.chnStatus n ChnStatus.available) e.completed
        e.unanswered) : CallEffect e (Call.close n) e' []
  | cleanup {i n : Nat} {e' : Endpoint} (hn : n < channelNr)
      (hst : (e.sess i).st = SessSt.establishing) (hchnr : (e.sess i).chnr = n)
      (h : Channels e' (Function.update e.chnStatus n ChnStatus.available) e.completed
        e.unanswered) : CallEffect e (Call.fail i) e' []

structure Posts (e e' : Endpoint) (cs : List Cmd) : Prop where
  out : e'.out = e.out ++ cs.map Cmd.encode
  ok : forall c, c ∈ cs -> c.Ok

section Effects

variable {e e' : Endpoint} {mem : Bool} {c : Cmd}

theorem Posts.nil (h : e'.out = e.out) : Posts e e' [] :=
  ⟨by rw [h, List.map_nil, List.append_nil], nofun⟩

theorem Posts.one (h : e'.out = e.out ++ [c.encode]) (hc : c.Ok) : Posts e e' [c] where
  out := h
  ok x hx := by
    obtain rfl := List.mem_singleton.1 hx
    exact hc

theorem ok_of_chnr_none (h : c.chnr = none) : c.Ok := by
  intro n hn
  rw [h] at hn
  cases hn

variable {n i : Nat}

theorem ok_of_chnr (h : c.chnr = some n) (hn : 0 < n ∧ n < channelNr) : c.Ok := by
  intro k hk
  obtain rfl := Option.some.inj (h.symm.trans hk)
  exact hn

theorem silent_nil : forall x, x ∈ ([] : List Cmd) -> x.silent = true := nofun

theorem silent_of_eq {x : Cmd} (hx : x.silent = true) : forall y, y ∈ [x] -> y.silent = true := by
  intro y hy
  obtain rfl := List.mem_singleton.1 hy
  exact hx

theorem reply_effect {x : Cmd} (hc : c.closes = false) (hx : x.silent = true) (hok : x.Ok) :
    exists cs, Effect e c (e.reply mem x) cs ∧ Posts e (e.reply mem x) cs := by
  cases mem with
  | false => exact ⟨[], Effect.quiet hc silent_nil ⟨rfl, rfl, rfl⟩, Posts.nil rfl⟩
  | true =>
    exact ⟨[x], Effect.quiet hc (silent_of_eq hx) ⟨rfl, rfl, rfl⟩, Posts.one rfl hok⟩

theorem quiet_effect (hc : c.closes = false) : exists cs, Effect e c e cs ∧ Posts e e cs :=
  ⟨[], Effect.quiet hc silent_nil ⟨rfl, rfl, rfl⟩, Posts.nil rfl⟩

theorem Name.ext_bytes {s t : Name} (h : s.bytes = t.bytes) : s = t := by
  cases s
  cases t
  cases h
  rfl

theorem addressee_of_lt {s : Name} (h : e.sessIdx s.bytes SessSt.establishing ≠ sessNr) :
    exists req, e.addressee s.bytes = some req ∧ req.name = s ∧
      (e.sess (e.sessIdx s.bytes SessSt.establishing)).req = some req := by
  have hlt : e.sessIdx s.bytes SessSt.establishing < sessNr :=
    Nat.lt_of_le_of_ne (sessIdx_le _ _) h
  have hmatch : (e.sess (e.sessIdx s.bytes SessSt.establishing)).matches s.bytes
      SessSt.establishing = true := by
    rcases @firstIdx_spec (fun i => (e.sess i).matches s.bytes SessSt.establishing) sessNr 0
      sessNr (Nat.zero_add _) with ⟨hend, _⟩ | ⟨_, _, hfound⟩
    · exact absurd hend h
    · exact hfound
  obtain ⟨_, hname⟩ := of_decide_eq_true hmatch
  obtain ⟨req, hreq, hbytes⟩ := Option.map_eq_some_iff.1 hname
  refine ⟨req, ?_, Name.ext_bytes hbytes, hreq⟩
  rw [Endpoint.addressee, if_pos hlt, hreq]

theorem complete_channels {req : Request} (hreq : (e.sess i).req = some req) :
    Channels (e.complete i n) (update e.chnStatus n ChnStatus.established)
      (update e.completed n (some req)) e.unanswered :=
  ⟨rfl, by rw [← hreq]; rfl, rfl⟩

theorem handle_effect (h0 : e.chnStatus 0 = ChnStatus.established) (hc : c.Ok) :
    exists cs, Effect e c (e.handle mem c) cs ∧ Posts e (e.handle mem c) cs := by
  cases c with
  | enable s =>
    unfold Endpoint.handle
    simp only
    split
    · exact reply_effect rfl rfl (ok_of_chnr_none rfl)
    · rename_i hne
      rw [not_or] at hne
      obtain ⟨hpos, hlt, hfree⟩ := freeChn_spec h0 hne.2
      split
      · exact ⟨[Cmd.set s e.freeChn], Effect.offer hfree ⟨rfl, rfl, rfl⟩,
          Posts.one rfl (ok_of_chnr rfl ⟨hpos, hlt⟩)⟩
      · exact quiet_effect rfl
  | set s n =>
    unfold Endpoint.handle
    simp only
    split
    · exact quiet_effect rfl
    · rename_i hi
      split
      · exact reply_effect rfl rfl (ok_of_chnr rfl (hc n rfl))
      · rename_i hst
        split
        · obtain ⟨req, hreq, hname, hsess⟩ := addressee_of_lt hi
          exact ⟨[Cmd.ackSet s n], Effect.accept hreq hname (not_not.1 hst)
            (complete_channels hsess), Posts.one rfl (ok_of_chnr rfl (hc n rfl))⟩
        · exact quiet_effect rfl
  | ackSet s n =>
    unfold Endpoint.handle
    simp only
    split
    · exact quiet_effect rfl
    · rename_i hi
      obtain ⟨req, hreq, hname, hsess⟩ := addressee_of_lt hi
      exact ⟨[], Effect.accepted hreq hname (complete_channels hsess), Posts.nil rfl⟩
  | disable n =>
    refine ⟨_, Effect.seeClose mem ?_, ?_⟩
    · cases mem <;> exact ⟨rfl, rfl, rfl⟩
    · cases mem with
      | false => exact Posts.nil rfl
      | true => exact Posts.one rfl (ok_of_chnr rfl (hc n rfl))
  | ackDisable n => exact ⟨[], Effect.seeClosed ⟨rfl, rfl, rfl⟩, Posts.nil rfl⟩
  | suspend n =>
    unfold Endpoint.handle
    simp only
    split
    · rename_i hst
      exact ⟨[], Effect.suspend hst ⟨rfl, rfl, rfl⟩, Posts.nil rfl⟩
    · exact quiet_effect rfl
  | resume n =>
    unfold Endpoint.handle
    simp only
    split
    · rename_i hst
      exact ⟨[], Effect.resume hst ⟨rfl, rfl, rfl⟩, Posts.nil rfl⟩
    · exact quiet_effect rfl
  | nakEnable s =>
    unfold Endpoint.handle
    simp only
    split
    · exact quiet_effect rfl
    · exact ⟨[], Effect.quiet rfl silent_nil ⟨rfl, rfl, rfl⟩, Posts.nil rfl⟩
  | nakSet s n => exact quiet_effect rfl

/-!
## What a call does to the channels
-/

theorem result_of_run {α : Type} {r : Except Stop (α × Endpoint)} {a : α} {e1 : Endpoint}
    (hr : r = Except.ok (a, e1)) (h : result r = some e') : e' = e1 := by
  subst hr
  exact (Option.some.inj h).symm

theorem freeSess_run :
    firstFrom (fun i => do return (← getSess i).st = SessSt.available) sessNr 0 e =
      Except.ok (firstIdx (fun i => (e.sess i).st = SessSt.available) sessNr 0, e) := by
  apply firstFrom_run (Nat.zero_add _)
  intro j hj
  rw [bind_run, getSess_run hj]
  rfl

theorem request_effect (h0 : e.chnStatus 0 = ChnStatus.established) {req : Request}
    (h : result (requestChn mem req e) = some e') :
    exists cs, CallEffect e (Call.request mem req) e' cs ∧ Posts e e' cs := by
  unfold requestChn at h
  rw [bind_run, freeSess_run] at h
  simp only at h
  split at h
  · obtain rfl := result_of_run rfl h
    exact ⟨[], CallEffect.quiet silent_nil ⟨rfl, rfl, rfl⟩, Posts.nil rfl⟩
  rename_i hne
  have hlt : firstIdx (fun i => (e.sess i).st = SessSt.available) sessNr 0 < sessNr := by
    rcases @firstIdx_spec (fun i => (e.sess i).st = SessSt.available) sessNr 0 sessNr
      (Nat.zero_add _) with ⟨hend, _⟩ | ⟨_, hlt, _⟩
    · exact absurd hend hne
    · exact hlt
  rw [bind_run, modifySess_run hlt] at h
  simp only at h
  split at h
  · rw [modifySess_run hlt] at h
    obtain rfl := result_of_run rfl h
    exact ⟨[], CallEffect.quiet silent_nil ⟨rfl, rfl, rfl⟩, Posts.nil rfl⟩
  · split at h
    · rw [bind_run, modifySess_run hlt] at h
      simp only at h
      rw [bind_run, @chn0Post_run ((e.withSess _ _).withSess _ _) h0] at h
      obtain rfl := result_of_run rfl h
      exact ⟨[Cmd.enable req.name], CallEffect.quiet (silent_of_eq rfl) ⟨rfl, rfl, rfl⟩,
        Posts.one rfl (ok_of_chnr_none rfl)⟩
    · obtain rfl := result_of_run rfl h
      exact ⟨[], CallEffect.quiet silent_nil ⟨rfl, rfl, rfl⟩, Posts.nil rfl⟩

theorem done_effect (hi : i < sessNr) (h : result (requestDone i e) = some e') :
    exists cs, CallEffect e (Call.done i) e' cs ∧ Posts e e' cs := by
  unfold requestDone at h
  rw [bind_run, getSess_run hi] at h
  simp only at h
  rw [bind_run, assert] at h
  split at h
  · rename_i hassert
    split at hassert
    · cases hassert
      rw [modifySess_run hi] at h
      obtain rfl := result_of_run rfl h
      exact ⟨[], CallEffect.quiet silent_nil ⟨rfl, rfl, rfl⟩, Posts.nil rfl⟩
    · cases hassert
  · cases h

theorem fail_effect (hi : i < sessNr) (h : result (requestFail i e) = some e') :
    exists cs, CallEffect e (Call.fail i) e' cs ∧ Posts e e' cs := by
  unfold requestFail at h
  rw [bind_run, getSess_run hi] at h
  simp only at h
  split at h
  · rename_i hst
    rw [bind_run] at h
    split at h
    · rename_i e1 hset
      have hrange : 0 ≤ (e.sess i).chnr ∧ (e.sess i).chnr < Table.chnStatus.size := by
        by_contra hout
        rw [setStatus, bind_run, access, if_neg hout] at hset
        cases hset
      obtain ⟨n, hn⟩ := Int.eq_ofNat_of_zero_le hrange.1
      have hlt : n < channelNr := by
        rw [hn] at hrange
        exact Int.ofNat_lt.1 hrange.2
      rw [hn, setStatus_run hlt] at hset
      cases hset
      rw [modifySess_run hi] at h
      obtain rfl := result_of_run rfl h
      exact ⟨[], CallEffect.cleanup hlt hst hn ⟨rfl, rfl, rfl⟩, Posts.nil rfl⟩
    · cases h
  · rw [modifySess_run hi] at h
    obtain rfl := result_of_run rfl h
    exact ⟨[], CallEffect.quiet silent_nil ⟨rfl, rfl, rfl⟩, Posts.nil rfl⟩

theorem close_effect (h0 : e.chnStatus 0 = ChnStatus.established)
    (h : result (closeChn n e) = some e') :
    exists cs, CallEffect e (Call.close n) e' cs ∧ Posts e e' cs := by
  unfold closeChn at h
  rw [bind_run, assert] at h
  split at h
  · rename_i hassert
    split at hassert
    · rename_i hn
      cases hassert
      rw [bind_run, getStatus_run hn.2] at h
      simp only at h
      split at h
      · rename_i hst
        rw [setStatus_run hn.2] at h
        obtain rfl := result_of_run rfl h
        exact ⟨[], CallEffect.free hn hst ⟨rfl, rfl, rfl⟩, Posts.nil rfl⟩
      · split at h
        · rename_i hconn
          rw [bind_run, setStatus_run hn.2] at h
          simp only at h
          have h0' : (e.withStatus n ChnStatus.closing).chnStatus 0 =
              ChnStatus.established := by
            show update e.chnStatus n _ 0 = _
            rw [update_of_ne (Nat.ne_of_lt hn.1), h0]
          rw [bind_run, chn0Post_run h0'] at h
          obtain rfl := result_of_run rfl h
          exact ⟨[Cmd.disable n], CallEffect.close hn hconn ⟨rfl, rfl, rfl⟩,
            Posts.one rfl (ok_of_chnr rfl hn)⟩
        · obtain rfl := result_of_run rfl h
          exact ⟨[], CallEffect.quiet silent_nil ⟨rfl, rfl, rfl⟩, Posts.nil rfl⟩
    · cases hassert
  · cases h

theorem flow_effect (h0 : e.chnStatus 0 = ChnStatus.established) {call : Call}
    (hsilent : c.silent = true) (hc : c.Ok) (h : result (chn0Post c.encode e) = some e') :
    exists cs, CallEffect e call e' cs ∧ Posts e e' cs := by
  rw [chn0Post_run h0] at h
  obtain rfl := result_of_run rfl h
  exact ⟨[c], CallEffect.quiet (silent_of_eq hsilent) ⟨rfl, rfl, rfl⟩, Posts.one rfl hc⟩

theorem call_effect (h0 : e.chnStatus 0 = ChnStatus.established) {call : Call}
    (h : e.call call = some e') : exists cs, CallEffect e call e' cs ∧ Posts e e' cs := by
  cases call with
  | request mem req => exact request_effect h0 h
  | done i =>
    simp only [Endpoint.call] at h
    split at h
    · rename_i hw
      exact done_effect hw.1.1 h
    · cases h
  | fail i =>
    simp only [Endpoint.call] at h
    split at h
    · rename_i hw
      exact fail_effect hw.1 h
    · cases h
  | close n => exact close_effect h0 h
  | warn n =>
    simp only [Endpoint.call] at h
    split at h
    · rename_i hn
      exact @flow_effect _ _ (Cmd.suspend n) h0 _ rfl (ok_of_chnr rfl hn) h
    · cases h
  | relief n =>
    simp only [Endpoint.call] at h
    split at h
    · rename_i hn
      exact @flow_effect _ _ (Cmd.resume n) h0 _ rfl (ok_of_chnr rfl hn) h
    · cases h
  | deliver mem behind => cases h

theorem receive_effect (h0 : e.chnStatus 0 = ChnStatus.established) (hc : c.Ok)
    {behind : List UInt8} (h : e.receive mem c.encode behind = some e') :
    exists cs, Effect e c e' cs ∧ Posts e e' cs := by
  unfold Endpoint.receive at h
  rw [busIn_run h0 hc] at h
  obtain rfl := result_of_run rfl h
  exact handle_effect h0 hc

end Effects

/-!
## Sound links
-/

structure Streams (l : Link) (cs : Side -> List Cmd) : Prop where
  out : forall s, (l s).out = (cs s).map Cmd.encode
  ok : forall s c, c ∈ cs s -> c.Ok

/-- Channel 0 is up, and the streams hold commands of this code. -/
structure Sound (l : Link) (cs : Side -> List Cmd) : Prop extends Streams l cs where
  up : forall s, (l s).chnStatus 0 = ChnStatus.established

theorem sound_init : Sound Link.init fun _ => [] where
  out _ := rfl
  ok _ _ := nofun
  up _ := rfl

/-- The steps of a sound link: a call of one side, or the arrival of a command. -/
inductive StepCases (l : Link) (cs : Side -> List Cmd) :
    Side × Call -> Link -> (Side -> List Cmd) -> Prop where
  | call {s : Side} {call : Call} {e' : Endpoint} {ds : List Cmd}
      (heffect : CallEffect (l s) call e' ds) (hposts : Posts (l s) e' ds) :
      StepCases l cs (s, call) (Function.update l s e') (Function.update cs s (cs s ++ ds))
  | deliver {s : Side} {mem : Bool} {behind : List UInt8} {c : Cmd} {rest : List Cmd}
      {e' : Endpoint} {ds : List Cmd} (hhead : cs s.other = c :: rest) (hc : c.Ok)
      (heffect : Effect (l s) c e' ds) (hposts : Posts (l s) e' ds) :
      StepCases l cs (s, Call.deliver mem behind)
        (Function.update (Function.update l s.other
          { l s.other with out := rest.map Cmd.encode }) s e')
        (Function.update (Function.update cs s.other rest) s (cs s ++ ds))

section Steps

variable {l l' : Link} {cs cs' : Side -> List Cmd} {x : Side × Call}

theorem step_cases (hl : Sound l cs) (h : linkStep l x = some l') :
    exists cs', StepCases l cs x l' cs' := by
  obtain ⟨s, call⟩ := x
  have hlocal : ((l s).call call).map (update l s) = some l' ->
      exists cs', StepCases l cs (s, call) l' cs' := by
    intro h
    obtain ⟨e', hcall, rfl⟩ := Option.map_eq_some_iff.1 h
    obtain ⟨ds, heffect, hposts⟩ := call_effect (hl.up s) hcall
    exact ⟨_, StepCases.call heffect hposts⟩
  cases call with
  | deliver mem behind =>
    simp only [linkStep] at h
    cases hhead : cs s.other with
    | nil =>
      rw [hl.out, hhead] at h
      cases h
    | cons c rest =>
      rw [hl.out, hhead] at h
      obtain ⟨e', hreceive, rfl⟩ := Option.map_eq_some_iff.1 h
      have hc : c.Ok := by
        apply hl.ok s.other
        rw [hhead]
        exact List.mem_cons_self
      obtain ⟨ds, heffect, hposts⟩ := receive_effect (hl.up s) hc hreceive
      exact ⟨_, StepCases.deliver hhead hc heffect hposts⟩
  | _ => exact hlocal h

theorem Side.other_ne (s : Side) : s.other ≠ s := by
  cases s <;> decide

theorem Side.eq_or_other (s t : Side) : t = s ∨ t = s.other := by
  cases s <;> cases t <;> decide

theorem Posts.streams {s : Side} {f : Link} {fs : Side -> List Cmd} {e' : Endpoint}
    {ds : List Cmd} (h : Posts (l s) e' ds) (hl : Streams l cs)
    (hf : forall t, t ≠ s -> (f t).out = (fs t).map Cmd.encode ∧ forall c, c ∈ fs t -> c.Ok) :
    Streams (update f s e') (update fs s (cs s ++ ds)) where
  out t := by
    by_cases ht : t = s
    · subst ht
      rw [update_self, update_self, h.out, hl.out, List.map_append]
    · rw [update_of_ne ht, update_of_ne ht]
      exact (hf t ht).1
  ok t c hc := by
    by_cases ht : t = s
    · subst ht
      rw [update_self] at hc
      rcases List.mem_append.1 hc with hc | hc
      · exact hl.ok t c hc
      · exact h.ok c hc
    · rw [update_of_ne ht] at hc
      exact (hf t ht).2 c hc

theorem StepCases.streams (hl : Streams l cs) (h : StepCases l cs x l' cs') : Streams l' cs' := by
  cases h with
  | call heffect hposts =>
    apply hposts.streams hl
    intro t _
    exact ⟨hl.out t, hl.ok t⟩
  | @deliver s mem behind c rest e' ds hhead hc heffect hposts =>
    apply hposts.streams hl
    intro t ht
    obtain rfl : t = s.other := (Side.eq_or_other s t).resolve_left ht
    rw [update_self, update_self]
    refine ⟨rfl, ?_⟩
    intro d hd
    apply hl.ok s.other
    rw [hhead]
    exact List.mem_cons_of_mem c hd

theorem StepCases.other_channels (h : StepCases l cs x l' cs') {t : Side} (ht : t ≠ x.1) :
    Channels (l' t) (l t).chnStatus (l t).completed (l t).unanswered := by
  cases h with
  | call heffect hposts =>
    rw [update_of_ne ht]
    exact ⟨rfl, rfl, rfl⟩
  | @deliver s mem behind c rest e' cs hhead hc heffect hposts =>
    obtain rfl : t = s.other := (Side.eq_or_other s t).resolve_left ht
    rw [update_of_ne ht, update_self]
    exact ⟨rfl, rfl, rfl⟩

end Steps

/-!
## Channel 0
-/

section Up

variable {e e' : Endpoint} {call : Call} {c : Cmd} {ds : List Cmd}

theorem update_zero {f : Nat -> ChnStatus} {n : Nat} {st : ChnStatus} (hn : 0 < n) :
    update f n st 0 = f 0 :=
  update_of_ne (Nat.ne_of_lt hn) ..

theorem pos_of_available {n : Nat} (h0 : e.chnStatus 0 = ChnStatus.established)
    (h : e.chnStatus n = ChnStatus.available) : 0 < n := by
  rcases Nat.eq_zero_or_pos n with rfl | hpos
  · rw [h0] at h
    cases h
  · exact hpos

theorem CallEffect.up (h0 : e.chnStatus 0 = ChnStatus.established) (h : CallEffect e call e' ds)
    (hok : forall i, call = Call.fail i -> (e.sess i).st = SessSt.establishing ->
      0 < (e.sess i).chnr) : e'.chnStatus 0 = ChnStatus.established := by
  cases h with
  | quiet _ h => rw [h.chnStatus, h0]
  | close hn _ h => rw [h.chnStatus, update_zero hn.1, h0]
  | free hn _ h => rw [h.chnStatus, update_zero hn.1, h0]
  | @cleanup i n _ hn hst hchnr h =>
    have hpos := hok i rfl hst
    rw [h.chnStatus, update_zero (by omega), h0]

theorem Effect.up (h0 : e.chnStatus 0 = ChnStatus.established) (hc : c.Ok)
    (h : Effect e c e' ds) : e'.chnStatus 0 = ChnStatus.established := by
  cases h with
  | quiet _ _ h => rw [h.chnStatus, h0]
  | offer hfree h => rw [h.chnStatus, update_zero (pos_of_available h0 hfree), h0]
  | accept _ _ hfree h => rw [h.chnStatus, update_zero (pos_of_available h0 hfree), h0]
  | accepted _ _ h => rw [h.chnStatus, update_zero (hc _ rfl).1, h0]
  | seeClose _ h => rw [h.chnStatus, update_zero (hc _ rfl).1, h0]
  | seeClosed h => rw [h.chnStatus, update_zero (hc _ rfl).1, h0]
  | suspend _ h => rw [h.chnStatus, update_zero (hc _ rfl).1, h0]
  | resume _ h => rw [h.chnStatus, update_zero (hc _ rfl).1, h0]

theorem StepCases.sound {l l' : Link} {cs cs' : Side -> List Cmd} {x : Side × Call}
    (hl : Sound l cs) (h : StepCases l cs x l' cs')
    (hok : forall i, x.2 = Call.fail i -> ((l x.1).sess i).st = SessSt.establishing ->
      0 < ((l x.1).sess i).chnr) : Sound l' cs' := by
  refine ⟨h.streams hl.toStreams, ?_⟩
  intro t
  by_cases ht : t = x.1
  · subst ht
    cases h with
    | call heffect _ =>
      rw [update_self]
      exact heffect.up (hl.up _) hok
    | deliver _ hc heffect _ =>
      rw [update_self]
      exact heffect.up (hl.up _) hc
  · rw [(h.other_channels ht).chnStatus]
    exact hl.up t

end Up

end RtThread.Vbus
