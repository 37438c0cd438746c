import RtThread.Vbus.Endpoint

/-!
# The tables under any incoming bytes

Which packets make the in thread leave a table.  Everything else stays inside, whatever the
packet says and whatever the tables hold.
-/

namespace RtThread.Vbus

variable {α β : Type} {e e' : Endpoint}

/-!
## Runs of a part of the bus
-/

theorem bind_run {x : Act α} {f : α -> Act β} : (x >>= f) e = match x e with
      | Except.ok (a, e') => f a e'
      | Except.error s => Except.error s := by
  show Except.bind (x e) _ = _
  cases x e <;> rfl

theorem access_run {t : Table} {i : Int} (h : 0 ≤ i ∧ i < t.size) :
    access t i e = Except.ok ((), e) := by
  rw [access, if_pos h]
  rfl

/-- No access outside a table, and a property of the result. -/
structure Inside (x : Act α) (Q : α -> Prop) : Prop where
  stays : forall e t i, x e ≠ Except.error (Stop.outOfRange t i)
  result : forall e a e', x e = Except.ok (a, e') -> Q a

abbrev Stays (x : Act α) : Prop := Inside x fun _ => True

theorem Inside.bind {x : Act α} {f : α -> Act β} {Q : α -> Prop} {R : β -> Prop}
    (hx : Inside x Q) (hf : forall a, Q a -> Inside (f a) R) : Inside (x >>= f) R where
  stays e t i := by
    rw [bind_run]
    split
    · rename_i a e' hrun
      exact (hf a (hx.result e a e' hrun)).stays e' t i
    · rename_i s hrun
      intro h
      cases h
      exact hx.stays e t i hrun
  result e b e' := by
    rw [bind_run]
    split
    · rename_i a e1 hrun
      exact (hf a (hx.result e a e1 hrun)).result e1 b e'
    · exact nofun

theorem Inside.pure {a : α} {Q : α -> Prop} (h : Q a) : Inside (pure a) Q where
  stays _ _ _ := nofun
  result _ _ _ heq := by
    cases heq
    exact h

theorem Inside.ite {c : Prop} [Decidable c] {x y : Act α} {Q : α -> Prop}
    (hx : c -> Inside x Q) (hy : ¬c -> Inside y Q) : Inside (if c then x else y) Q := by
  split
  · rename_i hc
    exact hx hc
  · rename_i hc
    exact hy hc

theorem Stays.then {x : Act α} {f : α -> Act β} {R : β -> Prop} (hx : Stays x)
    (hf : forall a, Inside (f a) R) : Inside (x >>= f) R :=
  hx.bind fun a _ => hf a

theorem stays_pure (a : α) : Stays (pure a) := Inside.pure trivial

theorem stays_get : Stays (get : Act Endpoint) := ⟨fun _ _ _ => nofun, fun _ _ _ _ => trivial⟩

theorem stays_modify (f : Endpoint -> Endpoint) : Stays (modify f : Act PUnit) :=
  ⟨fun _ _ _ => nofun, fun _ _ _ _ => trivial⟩

theorem stays_throw {s : Stop} (h : forall t i, s ≠ Stop.outOfRange t i) :
    Stays (throw s : Act α) :=
  ⟨fun _ t i heq => h t i (Except.error.inj heq), fun _ _ _ _ => trivial⟩

/-!
## The operations
-/

theorem stays_access {t : Table} {i : Int} (h : 0 ≤ i ∧ i < t.size) : Stays (access t i) := by
  rw [access, if_pos h]
  exact stays_pure ()

theorem inside_assert {p : Prop} [Decidable p] : Inside (assert p) fun _ => p := by
  apply Inside.ite
  · intro hp
    exact Inside.pure hp
  · intro _
    exact ⟨fun _ _ _ => nofun, fun _ _ _ => nofun⟩

theorem stays_getStatus {i : Int} (h : 0 ≤ i ∧ i < channelNr) : Stays (getStatus i) :=
  Stays.then (stays_access h) fun _ => stays_get.then fun _ => stays_pure _

theorem stays_setStatus {i : Int} {st : ChnStatus} (h : 0 ≤ i ∧ i < channelNr) :
    Stays (setStatus i st) :=
  Stays.then (stays_access h) fun _ => stays_modify _

theorem sess_index {i : Nat} (h : i < sessNr) : 0 ≤ (i : Int) ∧ (i : Int) < Table.sess.size :=
  ⟨Int.natCast_nonneg i, Int.ofNat_lt.2 h⟩

theorem stays_getSess {i : Nat} (h : i < sessNr) : Stays (getSess i) :=
  Stays.then (stays_access (sess_index h)) fun _ => stays_get.then fun _ => stays_pure _

theorem stays_modifySess {i : Nat} {f : Sess -> Sess} (h : i < sessNr) : Stays (modifySess i f) :=
  Stays.then (stays_access (sess_index h)) fun _ => stays_modify _

theorem stays_chn0Post (data : List UInt8) : Stays (chn0Post data) := by
  apply Stays.then (stays_getStatus (by decide))
  intro st
  cases st
  case established => exact (stays_modify _).then fun _ => stays_pure true
  case suspend => exact stays_throw fun _ _ => nofun
  all_goals exact stays_pure false

theorem stays_echo (mem : Bool) (cmd : UInt8) (dsize : Nat) (dp : List UInt8) :
    Stays (chn0EchoWith mem cmd dsize dp) :=
  Inside.ite (fun _ => stays_chn0Post _) fun _ => stays_pure false

theorem inside_firstFrom {test : Nat -> Act Bool} {left i nr : Nat} (hnr : i + left = nr)
    (htest : forall j, j < nr -> Stays (test j)) :
    Inside (firstFrom test left i) fun k => k ≤ nr := by
  induction left generalizing i with
  | zero => exact Inside.pure (by omega)
  | succ left ih =>
    apply Stays.then (htest i (by omega))
    intro found
    apply Inside.ite
    · intro _
      exact Inside.pure (by omega)
    · intro _
      exact ih (by omega)

theorem inside_sessFind (name : List UInt8) (st : SessSt) :
    Inside (sessFind name st) fun i => i ≤ sessNr :=
  inside_firstFrom (Nat.zero_add _) fun _ hj =>
    (stays_getSess hj).then fun _ => stays_pure _

/-!
## The commands
-/

theorem channel_index {chnr : Nat} (h : ¬(chnr = 0 ∨ channelNr ≤ chnr)) :
    0 ≤ (chnr : Int) ∧ (chnr : Int) < channelNr := by
  rw [not_or, not_le] at h
  exact ⟨Int.natCast_nonneg chnr, Int.ofNat_lt.2 h.2⟩

theorem stays_setWm (chnr : Int) : Stays (setWm chnr) :=
  inside_assert.bind fun _ h => stays_access ⟨Int.le_of_lt h.1, h.2⟩

theorem stays_completeSess {i chnr : Nat} (h : i < sessNr) : Stays (completeSess i chnr) :=
  (stays_modifySess h).then fun _ => stays_modify _

theorem stays_onEnable (mem : Bool) (dp : List UInt8) (dsize : Nat) :
    Stays (onEnable mem dp dsize) := by
  apply (inside_sessFind _ _).bind
  intro i hi
  apply Inside.ite
  · intro _
    exact (stays_echo _ _ _ _).then fun _ => stays_pure ()
  intro hne
  have htest : forall j, j < channelNr ->
      Stays (do return (← getStatus j) = ChnStatus.available : Act Bool) := by
    intro j hj
    exact (stays_getStatus ⟨Int.natCast_nonneg j, Int.ofNat_lt.2 hj⟩).then
      fun _ => stays_pure _
  apply (inside_firstFrom (Nat.zero_add _) htest).bind
  intro chnr hchnr
  apply Inside.ite
  · intro _
    exact (stays_echo _ _ _ _).then fun _ => stays_pure ()
  intro hchn
  apply Inside.ite
  · intro _
    exact stays_pure ()
  intro _
  apply Inside.ite
  · intro _
    exact stays_throw fun _ _ => nofun
  intro _
  apply (stays_setWm _).then
  intro _
  apply (stays_chn0Post _).then
  intro ok
  apply Inside.ite
  · intro _
    apply (stays_modifySess (by omega)).then
    intro _
    exact stays_setStatus ⟨Int.natCast_nonneg chnr, Int.ofNat_lt.2 (by omega)⟩
  · intro _
    exact stays_pure ()

theorem stays_onSet (mem : Bool) (dp : List UInt8) (dsize : Nat) : Stays (onSet mem dp dsize) := by
  apply (inside_sessFind _ _).bind
  intro i hi
  apply Inside.ite
  · intro _
    exact stays_pure ()
  intro hne
  apply Inside.ite
  · intro _
    exact stays_pure ()
  intro hchnr
  apply (stays_getStatus (channel_index hchnr)).then
  intro st
  apply Inside.ite
  · intro _
    exact (stays_echo _ _ _ _).then fun _ => stays_pure ()
  intro _
  apply (stays_setWm _).then
  intro _
  apply (stays_echo _ _ _ _).then
  intro ok
  apply Inside.ite
  · intro _
    apply (stays_modifySess (by omega)).then
    intro _
    apply (stays_setStatus (channel_index hchnr)).then
    intro _
    exact stays_completeSess (by omega)
  · intro _
    exact stays_pure ()

theorem stays_notify {chnr : Nat} (h : ¬(chnr = 0 ∨ channelNr ≤ chnr)) :
    Stays (do vbusIndicate chnr; notifyChn chnr : Act Unit) :=
  (stays_access (channel_index h)).then fun _ => stays_access (channel_index h)

theorem stays_onAckDisable (chnr : Nat) : Stays (onAckDisable chnr) := by
  apply Inside.ite
  · intro _
    exact stays_pure ()
  intro h
  apply (stays_setStatus (channel_index h)).then
  intro _
  exact (stays_modify _).then fun _ => stays_notify h

theorem stays_onDisable (mem : Bool) (dp : List UInt8) (dsize chnr : Nat) :
    Stays (onDisable mem dp dsize chnr) := by
  apply Inside.ite
  · intro _
    exact stays_pure ()
  intro h
  apply (stays_setStatus (channel_index h)).then
  intro _
  exact (stays_echo _ _ _ _).then fun _ => stays_notify h

theorem stays_onSuspend (chnr : Nat) : Stays (onSuspend chnr) := by
  apply Inside.ite
  · intro _
    exact stays_pure ()
  intro h
  apply (stays_getStatus (channel_index h)).then
  intro st
  exact Inside.ite (fun _ => stays_pure ()) fun _ => stays_setStatus (channel_index h)

theorem stays_onResume (chnr : Nat) : Stays (onResume chnr) := by
  apply Inside.ite
  · intro _
    exact stays_pure ()
  intro h
  apply (stays_getStatus (channel_index h)).then
  intro st
  apply Inside.ite
  · intro _
    exact stays_pure ()
  · intro _
    exact (stays_setStatus (channel_index h)).then fun _ => stays_access (channel_index h)

theorem stays_onNakEnable (dp : List UInt8) : Stays (onNakEnable dp) := by
  apply (inside_sessFind _ _).bind
  intro i hi
  apply Inside.ite
  · intro _
    exact stays_pure ()
  · intro hne
    exact stays_modifySess (by omega)

/-!
## The acknowledged channel number

The only command that uses a number from the packet without a check.
-/

def firstIdx (p : Nat -> Bool) : Nat -> Nat -> Nat
  | 0, i => i
  | left + 1, i => if p i then i else firstIdx p left (i + 1)

theorem firstFrom_run {test : Nat -> Act Bool} {p : Nat -> Bool} {left i nr : Nat}
    (hnr : i + left = nr) (htest : forall j, j < nr -> test j e = Except.ok (p j, e)) :
    firstFrom test left i e = Except.ok (firstIdx p left i, e) := by
  induction left generalizing i with
  | zero => rfl
  | succ left ih =>
    show (test i >>= _) e = _
    rw [bind_run, htest i (by omega)]
    simp only [firstIdx]
    split
    · rfl
    · exact ih (by omega)

theorem firstIdx_spec {p : Nat -> Bool} {left i nr : Nat} (hnr : i + left = nr) :
    (firstIdx p left i = nr ∧ forall j, i ≤ j -> j < nr -> p j = false) ∨
      (i ≤ firstIdx p left i ∧ firstIdx p left i < nr ∧ p (firstIdx p left i) = true) := by
  induction left generalizing i with
  | zero =>
    left
    refine ⟨hnr, ?_⟩
    intro j hj hlt
    omega
  | succ left ih =>
    rw [firstIdx]
    split
    · rename_i hp
      exact Or.inr ⟨Nat.le_refl i, by omega, hp⟩
    · rename_i hp
      rcases ih (show i + 1 + left = nr by omega) with ⟨hend, hnone⟩ | ⟨hle, hlt, hfound⟩
      · left
        refine ⟨hend, ?_⟩
        intro j hj hlt
        rcases Nat.eq_or_lt_of_le hj with rfl | hj
        · exact Bool.eq_false_iff.2 hp
        · exact hnone j hj hlt
      · exact Or.inr ⟨by omega, hlt, hfound⟩

theorem getSess_run {i : Nat} (h : i < sessNr) : getSess i e = Except.ok (e.sess i, e) := by
  show (access Table.sess i >>= _) e = _
  rw [bind_run, access_run (sess_index h)]
  rfl

/-- Where `_sess_find` ends. -/
def Endpoint.sessIdx (e : Endpoint) (name : List UInt8) (st : SessSt) : Nat :=
  firstIdx (fun i => (e.sess i).matches name st) sessNr 0

theorem sessFind_run (name : List UInt8) (st : SessSt) :
    sessFind name st e = Except.ok (e.sessIdx name st, e) := by
  apply firstFrom_run (Nat.zero_add _)
  intro j hj
  rw [bind_run, getSess_run hj]
  rfl

def Endpoint.awaits (e : Endpoint) (name : List UInt8) : Prop :=
  exists i, i < sessNr ∧ (e.sess i).matches name SessSt.establishing

instance (e : Endpoint) (name : List UInt8) : Decidable (e.awaits name) :=
  inferInstanceAs (Decidable (exists i, i < sessNr ∧ _))

theorem sessIdx_lt_iff (name : List UInt8) :
    e.sessIdx name SessSt.establishing < sessNr <-> e.awaits name := by
  rcases @firstIdx_spec (fun i => (e.sess i).matches name SessSt.establishing) sessNr 0 sessNr
    (Nat.zero_add _) with ⟨hend, hnone⟩ | ⟨_, hlt, hfound⟩
  · constructor
    · intro h
      exact absurd hend (Nat.ne_of_lt h)
    · rintro ⟨i, hi, hmatch⟩
      exact absurd hmatch (Bool.eq_false_iff.1 (hnone i (Nat.zero_le i) hi))
  · exact ⟨fun _ => ⟨_, hlt, hfound⟩, fun _ => hlt⟩

/-- The channel number behind the name in an acknowledged `SET`. -/
def ackChnr (dp : List UInt8) : Nat :=
  byteAt dp (1 + (cstr (dp.drop 2)).length + 2)

theorem stays_ackSet_tail {i chnr : Nat} (hi : i < sessNr) (hchnr : chnr < channelNr) :
    Stays (do modifySess i fun s => { s with chnr := chnr }
              setStatus chnr ChnStatus.established
              completeSess i chnr : Act Unit) := by
  apply (stays_modifySess hi).then
  intro _
  apply (stays_setStatus ⟨Int.natCast_nonneg chnr, Int.ofNat_lt.2 hchnr⟩).then
  intro _
  exact stays_completeSess hi

theorem onAckSet_stays_iff {dp : List UInt8} :
    (forall t i, onAckSet dp e ≠ Except.error (Stop.outOfRange t i)) <->
      (e.awaits (cstr (dp.drop 2)) -> ackChnr dp < channelNr) := by
  have hrun : onAckSet dp e =
      (if e.sessIdx (cstr (dp.drop 2)) SessSt.establishing = sessNr then pure () else do
        modifySess (e.sessIdx (cstr (dp.drop 2)) SessSt.establishing)
          fun s => { s with chnr := (ackChnr dp : Int) }
        setStatus (ackChnr dp) ChnStatus.established
        completeSess (e.sessIdx (cstr (dp.drop 2)) SessSt.establishing) (ackChnr dp) :
          Act Unit) e := by
    show (sessFind _ _ >>= _) e = _
    rw [bind_run, sessFind_run]
    rfl
  rw [hrun, ← sessIdx_lt_iff]
  generalize hi : e.sessIdx (cstr (dp.drop 2)) SessSt.establishing = i
  split
  · rename_i hend
    subst hend
    refine ⟨fun _ hlt => absurd hlt (Nat.lt_irrefl _), fun _ _ _ => nofun⟩
  · rename_i hne
    have hlt : i < sessNr := by
      have hle : e.sessIdx (cstr (dp.drop 2)) SessSt.establishing ≤ sessNr := by
        exact (inside_sessFind _ _).result e _ e (sessFind_run _ _)
      omega
    constructor
    · intro hstays _
      by_contra hbig
      apply hstays Table.chnStatus (ackChnr dp)
      rw [bind_run, modifySess, bind_run, access_run (sess_index hlt)]
      have hout : ¬(0 ≤ (ackChnr dp : Int) ∧ (ackChnr dp : Int) < Table.chnStatus.size) := by
        intro h
        exact hbig (Int.ofNat_lt.1 h.2)
      show (setStatus (ackChnr dp) _ >>= _) _ = _
      rw [bind_run, setStatus, bind_run, access, if_neg hout]
      rfl
    · intro hsmall
      exact (stays_ackSet_tail hlt (hsmall hlt)).stays e

/-- The channel 0 command is the acknowledgement of a `SET`. -/
def isAckSet (dp : List UInt8) : Prop :=
  dp.getD 0 0 = cmdAck ∧ dp.getD 1 0 = cmdSet

instance (dp : List UInt8) : Decidable (isAckSet dp) := instDecidableAnd

theorem chn0Actor_stays_iff {mem : Bool} {dp : List UInt8} {dsize : Nat} :
    (forall t i, chn0Actor mem dp dsize e ≠ Except.error (Stop.outOfRange t i)) <->
      (isAckSet dp -> e.awaits (cstr (dp.drop 2)) -> ackChnr dp < channelNr) := by
  by_cases hack : isAckSet dp
  · obtain ⟨hcmd, hsub⟩ := hack
    have hactor : chn0Actor mem dp dsize = onAckSet dp := by
      unfold chn0Actor
      simp only [hcmd, hsub]
      rfl
    rw [hactor, onAckSet_stays_iff]
    exact ⟨fun h _ => h, fun h => h ⟨hcmd, hsub⟩⟩
  · have hstays : Stays (chn0Actor mem dp dsize) := by
      apply Inside.ite fun _ => stays_onEnable _ _ _
      intro _
      apply Inside.ite fun _ => stays_onSet _ _ _
      intro _
      apply Inside.ite
      · intro hcmd
        apply Inside.ite fun hsub => absurd ⟨hcmd, hsub⟩ hack
        intro _
        exact Inside.ite (fun _ => stays_onAckDisable _) fun _ => stays_pure ()
      intro _
      apply Inside.ite fun _ => stays_onDisable _ _ _ _
      intro _
      apply Inside.ite fun _ => stays_onSuspend _
      intro _
      apply Inside.ite fun _ => stays_onResume _
      intro _
      apply Inside.ite
      · intro _
        exact Inside.ite (fun _ => stays_onNakEnable _) fun _ => stays_pure ()
      · intro _
        exact stays_pure ()
    exact ⟨fun _ h => absurd h hack, fun _ => hstays.stays e⟩

/-!
## The in thread
-/

/-- A packet for which the in thread stays inside its tables: its channel is not the one
behind the last, and an acknowledged `SET` that channel 0 accepts and a session waits for
has its channel number in range. -/
def Tolerated (e : Endpoint) (p : Incoming) : Prop :=
  p.id.toNat ≠ channelNr ∧
    (p.id = 0 -> isConnected (e.chnStatus 0) -> p.size.toNat ≤ 60 -> isAckSet p.dp ->
      e.awaits (cstr (p.dp.drop 2)) -> ackChnr p.dp < channelNr)

theorem stays_dataPush (id : Nat) (warn : Bool) : Stays (dataPush id warn) := by
  apply inside_assert.bind
  intro _ hid
  have hindex : 0 ≤ (id : Int) ∧ (id : Int) < channelNr :=
    ⟨Int.natCast_nonneg id, Int.ofNat_lt.2 hid.2⟩
  apply Stays.then (stays_access hindex)
  intro _
  apply Stays.then (stays_access hindex)
  intro _
  apply Inside.ite
  · intro _
    exact (stays_chn0Post _).then fun _ => stays_access hindex
  · intro _
    exact stays_pure ()

theorem chnConnected_run {i : Nat} (h : i < channelNr) :
    chnConnected i e = Except.ok (isConnected (e.chnStatus i), e) := by
  show (getStatus i >>= _) e = _
  have hget : getStatus i e = Except.ok (e.chnStatus i, e) := by
    show (access Table.chnStatus i >>= _) e = _
    rw [bind_run, @access_run e Table.chnStatus i ⟨Int.natCast_nonneg i, Int.ofNat_lt.2 h⟩]
    rfl
  rw [bind_run, hget]
  rfl

theorem busIn_stays_iff {p : Incoming} :
    (forall t i, busIn p e ≠ Except.error (Stop.outOfRange t i)) <-> Tolerated e p := by
  unfold busIn
  by_cases hbig : channelNr < p.id.toNat
  · -- the packet is dropped
    rw [if_pos hbig]
    refine ⟨fun _ => ⟨Nat.ne_of_gt hbig, ?_⟩, fun _ _ _ => nofun⟩
    intro hzero
    rw [hzero] at hbig
    exact absurd hbig (by decide)
  rw [if_neg hbig]
  rcases Nat.eq_or_lt_of_le (Nat.le_of_not_lt hbig) with heq | hlt
  · -- the channel behind the last one
    constructor
    · intro hstays
      exfalso
      apply hstays Table.chnStatus p.id.toNat
      have hout : ¬(0 ≤ (p.id.toNat : Int) ∧ (p.id.toNat : Int) < Table.chnStatus.size) := by
        rw [heq]
        decide
      rw [bind_run, chnConnected, bind_run, getStatus, bind_run, access, if_neg hout]
      rfl
    · intro h
      exact absurd heq h.1
  rw [bind_run, chnConnected_run hlt]
  show (forall t i, (if !isConnected (e.chnStatus p.id.toNat) then pure () else _ : Act Unit) e ≠
    Except.error (Stop.outOfRange t i)) <-> _
  by_cases hconn : isConnected (e.chnStatus p.id.toNat) = true
  · rw [if_neg (by rw [hconn]; decide)]
    by_cases hzero : p.id = 0
    · rw [if_pos hzero]
      rw [hzero] at hconn
      by_cases hsize : 60 < p.size.toNat
      · rw [if_pos hsize]
        refine ⟨fun _ => ⟨Nat.ne_of_lt hlt, ?_⟩, fun _ _ _ => nofun⟩
        intro _ _ hle
        exact absurd hsize (Nat.not_lt.2 hle)
      · rw [if_neg hsize, chn0Actor_stays_iff]
        constructor
        · intro h
          exact ⟨Nat.ne_of_lt hlt, fun _ _ _ => h⟩
        · intro h
          exact h.2 hzero hconn (Nat.le_of_not_lt hsize)
    · rw [if_neg hzero]
      refine ⟨fun _ => ⟨Nat.ne_of_lt hlt, fun h => absurd h hzero⟩, fun _ => ?_⟩
      refine Inside.stays (Inside.ite (fun _ => stays_pure ()) fun _ => ?_) e
      apply (stays_dataPush _ _).then
      intro _
      exact stays_access ⟨Int.natCast_nonneg _, Int.ofNat_lt.2 hlt⟩
  · rw [if_pos (by rw [Bool.not_eq_true] at hconn; rw [hconn]; rfl)]
    refine ⟨fun _ => ⟨Nat.ne_of_lt hlt, ?_⟩, fun _ _ _ => nofun⟩
    intro hzero h
    rw [hzero] at hconn
    exact absurd h hconn

theorem busInEntry_cons (turn : (Endpoint -> Endpoint) × Incoming)
    (turns : List ((Endpoint -> Endpoint) × Incoming)) :
    busInEntry (turn :: turns) e = match busIn turn.2 (turn.1 e) with
      | Except.ok (_, e') => busInEntry turns e'
      | Except.error s => Except.error s := by
  show ((modify turn.1 >>= fun _ => busIn turn.2) >>= fun _ => busInEntry turns) e = _
  have hturn : (modify turn.1 >>= fun _ => busIn turn.2 : Act Unit) e =
      busIn turn.2 (turn.1 e) := rfl
  rw [bind_run, hturn]
  cases busIn turn.2 (turn.1 e) <;> rfl

/-- The in thread stays inside its tables exactly as long as every packet it comes to is
tolerated in the state it then finds. -/
theorem bus_in_accesses_in_range (e : Endpoint)
    (turns : List ((Endpoint -> Endpoint) × Incoming)) :
    (forall t i, busInEntry turns e ≠ Except.error (Stop.outOfRange t i)) <->
      forall done turn rest e', turns = done ++ turn :: rest ->
        busInEntry done e = Except.ok ((), e') -> Tolerated (turn.1 e') turn.2 := by
  induction turns generalizing e with
  | nil =>
    refine ⟨fun _ done turn rest e' h => ?_, fun _ _ _ => nofun⟩
    exact absurd h (by simp)
  | cons turn turns ih =>
    rw [busInEntry_cons]
    constructor
    · intro hstays done turn' rest e' heq hdone
      cases done with
      | nil =>
        cases heq
        cases hdone
        rw [← busIn_stays_iff]
        intro t i hfault
        apply hstays t i
        rw [hfault]
      | cons first done =>
        obtain ⟨rfl, hrest⟩ := List.cons.inj heq
        rw [busInEntry_cons] at hdone
        cases hrun : busIn turn.2 (turn.1 e) with
        | error s =>
          rw [hrun] at hdone
          cases hdone
        | ok r =>
          rw [hrun] at hstays hdone
          exact (ih r.2).1 hstays done turn' rest e' hrest hdone
    · intro h
      have hfirst : Tolerated (turn.1 e) turn.2 := h [] turn turns e rfl rfl
      cases hrun : busIn turn.2 (turn.1 e) with
      | error s =>
        intro t i hs
        cases hs
        exact busIn_stays_iff.2 hfirst t i hrun
      | ok r =>
        apply (ih r.2).2
        intro done turn' rest e' heq hdone
        apply h (turn :: done) turn' rest e'
        · rw [heq]
          rfl
        · rw [busInEntry_cons, hrun]
          exact hdone

/-- A packet for channel 32 is looked up behind the table of channels. -/
theorem bus_in_leaves_table :
    busInEntry [(id, ⟨32, 0, [], true, false⟩)] Endpoint.init =
      Except.error (Stop.outOfRange Table.chnStatus 32) := by
  rfl

end RtThread.Vbus
