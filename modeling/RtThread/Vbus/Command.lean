import RtThread.Vbus.TableBounds

/-!
# The commands that the bus itself sends

A packet of channel 0 that this code has built is one of nine commands.  Read back by the
other side, it does what the command says; here as a function on the tables.
-/

namespace RtThread.Vbus

inductive Cmd where
  | enable (s : Name)
  | set (s : Name) (n : Nat)
  | disable (n : Nat)
  | ackSet (s : Name) (n : Nat)
  | ackDisable (n : Nat)
  | nakEnable (s : Name)
  | nakSet (s : Name) (n : Nat)
  | suspend (n : Nat)
  | resume (n : Nat)

namespace Cmd

def encode : Cmd -> List UInt8
  | enable s => cmdEnable :: (s.bytes ++ [0])
  | set s n => cmdSet :: (s.bytes ++ [0, UInt8.ofNat n])
  | disable n => [cmdDisable, UInt8.ofNat n]
  | ackSet s n => cmdAck :: cmdSet :: (s.bytes ++ [0, UInt8.ofNat n])
  | ackDisable n => [cmdAck, cmdDisable, UInt8.ofNat n]
  | nakEnable s => cmdNak :: cmdEnable :: (s.bytes ++ [0])
  | nakSet s n => cmdNak :: cmdSet :: (s.bytes ++ [0, UInt8.ofNat n])
  | suspend n => [cmdSuspend, UInt8.ofNat n]
  | resume n => [cmdResume, UInt8.ofNat n]

def chnr : Cmd -> Option Nat
  | set _ n | disable n | ackSet _ n | ackDisable n | nakSet _ n | suspend n | resume n => some n
  | enable _ | nakEnable _ => none

def Ok (c : Cmd) : Prop :=
  forall n, c.chnr = some n -> 0 < n ∧ n < channelNr

end Cmd

/-!
## Reading a command
-/

section Reading

variable (s : Name) (n : Nat) (more : List UInt8)

theorem cstr_name : cstr (s.bytes ++ 0 :: more) = s.bytes := by
  have hall : forall b, b ∈ s.bytes -> decide (b ≠ 0) = true := by
    intro b hb
    rw [decide_eq_true_eq]
    rintro rfl
    exact s.nul hb
  rw [cstr, List.takeWhile_append_of_pos hall]
  simp

theorem byteAt_name :
    byteAt (s.bytes ++ 0 :: UInt8.ofNat n :: more) (s.bytes.length + 1) = n % 256 := by
  rw [byteAt, List.getD_eq_getElem?_getD, List.getElem?_append_right (Nat.le_add_right _ 1),
    Nat.add_sub_cancel_left]
  exact UInt8.toNat_ofNat'

variable {s n more}

theorem read_named {p : List UInt8} {k : Nat} (hn : n < channelNr)
    (hp : p.drop k = s.bytes ++ 0 :: UInt8.ofNat n :: more) :
    cstr (p.drop k) = s.bytes ∧ byteAt p (1 + s.bytes.length + k) = n := by
  have hdrop : byteAt p (1 + s.bytes.length + k) = byteAt (p.drop k) (s.bytes.length + 1) := by
    rw [byteAt, byteAt, List.getD_eq_getElem?_getD, List.getD_eq_getElem?_getD,
      List.getElem?_drop, Nat.add_comm 1, Nat.add_comm _ k]
  have hsmall : n < 32 := hn
  rw [hdrop, hp]
  exact ⟨cstr_name s _, (byteAt_name s n more).trans (by omega)⟩

end Reading

/-!
## The tables after a command
-/

namespace Endpoint

def post (e : Endpoint) (c : Cmd) : Endpoint :=
  { e with out := e.out ++ [c.encode] }

def reply (e : Endpoint) (mem : Bool) (c : Cmd) : Endpoint :=
  if mem then e.post c else e

def withStatus (e : Endpoint) (n : Nat) (st : ChnStatus) : Endpoint :=
  { e with chnStatus := Function.update e.chnStatus n st }

def withSess (e : Endpoint) (i : Nat) (f : Sess -> Sess) : Endpoint :=
  { e with sess := Function.update e.sess i (f (e.sess i)) }

def freeChn (e : Endpoint) : Nat :=
  firstIdx (fun n => e.chnStatus n = ChnStatus.available) channelNr 0

def complete (e : Endpoint) (i n : Nat) : Endpoint :=
  { (e.withSess i fun s => { s with chnr := n, cmp := true }).withStatus n
      ChnStatus.established with
    completed := Function.update e.completed n (e.sess i).req }

def handle (e : Endpoint) (mem : Bool) : Cmd -> Endpoint
  | Cmd.enable s =>
    let i := e.sessIdx s.bytes SessSt.listening
    let n := e.freeChn
    if i = sessNr ∨ n = channelNr then e.reply mem (Cmd.nakEnable s)
    else if mem then
      ((e.post (Cmd.set s n)).withSess i fun s =>
        { s with st := SessSt.establishing, chnr := n }).withStatus n ChnStatus.establishing
    else e
  | Cmd.set s n =>
    let i := e.sessIdx s.bytes SessSt.establishing
    if i = sessNr then e
    else if e.chnStatus n ≠ ChnStatus.available then e.reply mem (Cmd.nakSet s n)
    else if mem then (e.post (Cmd.ackSet s n)).complete i n
    else e
  | Cmd.ackSet s n =>
    let i := e.sessIdx s.bytes SessSt.establishing
    if i = sessNr then e else e.complete i n
  | Cmd.disable n => (e.withStatus n ChnStatus.closing).reply mem (Cmd.ackDisable n)
  | Cmd.ackDisable n =>
    { e.withStatus n ChnStatus.available with
      unanswered := Function.update e.unanswered n false }
  | Cmd.suspend n =>
    if e.chnStatus n = ChnStatus.established then e.withStatus n ChnStatus.suspend else e
  | Cmd.resume n =>
    if e.chnStatus n = ChnStatus.suspend then e.withStatus n ChnStatus.established else e
  | Cmd.nakEnable s =>
    let i := e.sessIdx s.bytes SessSt.establishing
    if i = sessNr then e else e.withSess i fun s => { s with chnr := eio, cmp := true }
  | Cmd.nakSet _ _ => e

end Endpoint

/-!
## Runs of the operations
-/

section Runs

variable {e : Endpoint} {i n : Nat}

theorem chn_index (h : n < channelNr) : 0 ≤ (n : Int) ∧ (n : Int) < Table.chnStatus.size :=
  ⟨Int.natCast_nonneg n, Int.ofNat_lt.2 h⟩

theorem getStatus_run (h : n < channelNr) : getStatus n e = Except.ok (e.chnStatus n, e) := by
  show (access Table.chnStatus n >>= _) e = _
  rw [bind_run, access_run (chn_index h)]
  rfl

theorem setStatus_run (h : n < channelNr) (st : ChnStatus) :
    setStatus n st e = Except.ok ((), e.withStatus n st) := by
  show (access Table.chnStatus n >>= _) e = _
  rw [bind_run, access_run (chn_index h)]
  rfl

theorem modifySess_run (h : i < sessNr) (f : Sess -> Sess) :
    modifySess i f e = Except.ok ((), e.withSess i f) := by
  show (access Table.sess i >>= _) e = _
  rw [bind_run, access_run (sess_index h)]
  rfl

theorem setWm_run (h : 0 < n ∧ n < channelNr) : setWm n e = Except.ok ((), e) := by
  show (assert (0 < (n : Int) ∧ (n : Int) < channelNr) >>= _) e = _
  have hn : 0 < (n : Int) ∧ (n : Int) < channelNr := ⟨Int.ofNat_lt.2 h.1, Int.ofNat_lt.2 h.2⟩
  rw [bind_run, assert, if_pos hn]
  exact access_run (chn_index h.2)

theorem chn0Post_run (h : e.chnStatus 0 = ChnStatus.established) (data : List UInt8) :
    chn0Post data e = Except.ok (true, { e with out := e.out ++ [data] }) := by
  show (getStatus ((0 : Nat) : Int) >>= _) e = _
  rw [bind_run, getStatus_run (by decide), h]
  rfl

theorem echo_run (h : e.chnStatus 0 = ChnStatus.established) (mem : Bool) (cmd : UInt8)
    {c c' : Cmd} (more : List UInt8) (hc : cmd :: c.encode = c'.encode) :
    chn0EchoWith mem cmd c.encode.length (c.encode ++ more) e =
      Except.ok (mem, e.reply mem c') := by
  unfold chn0EchoWith Endpoint.reply
  cases mem with
  | false => rfl
  | true =>
    rw [if_pos rfl, if_pos rfl, List.take_left' rfl, chn0Post_run h, hc]
    rfl

theorem freeChn_run :
    firstFrom (fun i => do return (← getStatus i) = ChnStatus.available) channelNr 0 e =
      Except.ok (e.freeChn, e) := by
  apply firstFrom_run (Nat.zero_add _)
  intro j hj
  rw [bind_run, getStatus_run hj]
  rfl

theorem sessIdx_le (name : List UInt8) (st : SessSt) : e.sessIdx name st ≤ sessNr :=
  (inside_sessFind name st).result e _ e (sessFind_run name st)

theorem freeChn_spec (h0 : e.chnStatus 0 = ChnStatus.established) (hne : e.freeChn ≠ channelNr) :
    0 < e.freeChn ∧ e.freeChn < channelNr ∧ e.chnStatus e.freeChn = ChnStatus.available := by
  rcases @firstIdx_spec (fun n => e.chnStatus n = ChnStatus.available) channelNr 0 channelNr
    (Nat.zero_add _) with ⟨hend, _⟩ | ⟨_, hlt, hfound⟩
  · exact absurd hend hne
  · have hfree : e.chnStatus e.freeChn = ChnStatus.available := of_decide_eq_true hfound
    refine ⟨Nat.pos_of_ne_zero ?_, hlt, hfree⟩
    intro hzero
    rw [hzero, h0] at hfree
    cases hfree

end Runs

/-!
## Runs of the commands
-/

section Commands

variable {e : Endpoint} {mem : Bool} {s : Name} {n : Nat} {more : List UInt8}

theorem onEnable_run (h0 : e.chnStatus 0 = ChnStatus.established) :
    onEnable mem ((Cmd.enable s).encode ++ more) (Cmd.enable s).encode.length e =
      Except.ok ((), e.handle mem (Cmd.enable s)) := by
  have hname : cstr (((Cmd.enable s).encode ++ more).drop 1) = s.bytes := by
    show cstr ((s.bytes ++ [0]) ++ more) = s.bytes
    rw [List.append_assoc]
    exact cstr_name s more
  have hnak := @echo_run e h0 mem cmdNak (Cmd.enable s) (Cmd.nakEnable s) more rfl
  unfold onEnable Endpoint.handle
  rw [bind_run, sessFind_run, hname]
  simp only
  by_cases hi : e.sessIdx s.bytes SessSt.listening = sessNr
  · rw [if_pos hi, if_pos (Or.inl hi), bind_run, chn0Nak, hnak]
    rfl
  rw [if_neg hi, bind_run, freeChn_run]
  simp only
  by_cases hn : e.freeChn = channelNr
  · rw [if_pos hn, if_pos (Or.inr hn), bind_run, chn0Nak, hnak]
    rfl
  rw [if_neg hn, if_neg (not_or.2 ⟨hi, hn⟩)]
  cases mem with
  | false => rfl
  | true =>
    obtain ⟨hpos, hlt, _⟩ := freeChn_spec h0 hn
    have hle := @sessIdx_le e s.bytes SessSt.listening
    have hdata : cmdSet :: ((((Cmd.enable s).encode ++ more).drop 1).take
        ((Cmd.enable s).encode.length - 1) ++ [UInt8.ofNat e.freeChn]) =
        (Cmd.set s e.freeChn).encode := by
      show cmdSet :: (((s.bytes ++ [0]) ++ more).take (s.bytes ++ [0]).length ++ _) = _
      rw [List.take_left' rfl, List.append_assoc]
      rfl
    rw [if_neg (by decide), if_neg (by simp [Cmd.encode]), if_pos rfl, bind_run,
      setWm_run ⟨hpos, hlt⟩]
    simp only
    rw [bind_run, hdata, chn0Post_run h0]
    simp only
    rw [if_pos trivial, bind_run, modifySess_run (by omega)]
    exact setStatus_run hlt _

theorem complete_run {i : Nat} (hi : i < sessNr) (hn : n < channelNr) :
    (do modifySess i fun s => { s with chnr := (n : Int) }
        setStatus n ChnStatus.established
        completeSess i n : Act Unit) e = Except.ok ((), e.complete i n) := by
  rw [bind_run, modifySess_run hi]
  simp only
  rw [bind_run, setStatus_run hn]
  simp only
  rw [completeSess, bind_run, modifySess_run hi]
  show Except.ok ((), _) = _
  simp [Endpoint.complete, Endpoint.withSess, Endpoint.withStatus]

theorem onSet_run (h0 : e.chnStatus 0 = ChnStatus.established) (hn : 0 < n ∧ n < channelNr) :
    onSet mem ((Cmd.set s n).encode ++ more) (Cmd.set s n).encode.length e =
      Except.ok ((), e.handle mem (Cmd.set s n)) := by
  have hsplit : ((Cmd.set s n).encode ++ more).drop 1 = s.bytes ++ 0 :: UInt8.ofNat n :: more := by
    show (s.bytes ++ [0, UInt8.ofNat n]) ++ more = _
    rw [List.append_assoc]
    rfl
  obtain ⟨hname, hbyte⟩ := read_named hn.2 hsplit
  have hnak := @echo_run e h0 mem cmdNak (Cmd.set s n) (Cmd.nakSet s n) more rfl
  have hack := @echo_run e h0 mem cmdAck (Cmd.set s n) (Cmd.ackSet s n) more rfl
  unfold onSet Endpoint.handle
  simp only [hname, hbyte]
  rw [bind_run, sessFind_run]
  simp only
  by_cases hi : e.sessIdx s.bytes SessSt.establishing = sessNr
  · rw [if_pos hi, if_pos hi]
    rfl
  have hle := @sessIdx_le e s.bytes SessSt.establishing
  rw [if_neg hi, if_neg hi, if_neg (by omega), bind_run, getStatus_run hn.2]
  simp only
  by_cases hst : e.chnStatus n = ChnStatus.available
  · rw [if_neg (not_not.2 hst), if_neg (not_not.2 hst), bind_run, setWm_run hn]
    simp only
    rw [bind_run, chn0Ack, hack]
    cases mem with
    | false => rfl
    | true =>
      show (if true = true then _ else pure () : Act Unit) _ = _
      rw [if_pos rfl, if_pos rfl]
      exact complete_run (by omega) hn.2
  · rw [if_pos hst, if_pos hst, bind_run, chn0Nak, hnak]
    rfl

theorem onAckSet_run (hn : n < channelNr) : onAckSet ((Cmd.ackSet s n).encode ++ more) e =
      Except.ok ((), e.handle mem (Cmd.ackSet s n)) := by
  have hsplit : ((Cmd.ackSet s n).encode ++ more).drop 2 =
      s.bytes ++ 0 :: UInt8.ofNat n :: more := by
    show (s.bytes ++ [0, UInt8.ofNat n]) ++ more = _
    rw [List.append_assoc]
    rfl
  obtain ⟨hname, hbyte⟩ := read_named hn hsplit
  unfold onAckSet Endpoint.handle
  simp only [hname, hbyte]
  rw [bind_run, sessFind_run]
  simp only
  have hle := @sessIdx_le e s.bytes SessSt.establishing
  by_cases hi : e.sessIdx s.bytes SessSt.establishing = sessNr
  · rw [if_pos hi, if_pos hi]
    rfl
  · rw [if_neg hi, if_neg hi]
    exact complete_run (by omega) hn

theorem byteAt_chnr {p : List UInt8} {k : Nat} (hn : 0 < n ∧ n < channelNr)
    (hk : p.getD k 0 = UInt8.ofNat n) : byteAt p k = n := by
  have hsmall : n < 32 := hn.2
  rw [byteAt, hk, UInt8.toNat_ofNat']
  omega

theorem in_range (hn : 0 < n ∧ n < channelNr) : ¬(n = 0 ∨ channelNr ≤ n) := by
  omega

theorem notify_run (hn : 0 < n ∧ n < channelNr) :
    (do vbusIndicate n; notifyChn n : Act Unit) e = Except.ok ((), e) := by
  rw [bind_run, vbusIndicate, @access_run e Table.vbusRxIndi n (chn_index hn.2)]
  exact access_run (chn_index hn.2)

theorem onDisable_run (h0 : e.chnStatus 0 = ChnStatus.established) (hn : 0 < n ∧ n < channelNr) :
    onDisable mem ((Cmd.disable n).encode ++ more) (Cmd.disable n).encode.length n e =
      Except.ok ((), e.handle mem (Cmd.disable n)) := by
  have h0' : (e.withStatus n ChnStatus.closing).chnStatus 0 = ChnStatus.established := by
    show Function.update e.chnStatus n _ 0 = _
    rw [Function.update_of_ne (Nat.ne_of_lt hn.1), h0]
  rw [onDisable, if_neg (in_range hn), bind_run, setStatus_run hn.2]
  simp only
  rw [bind_run, chn0Ack, @echo_run _ h0' mem cmdAck (Cmd.disable n) (Cmd.ackDisable n) more rfl]
  exact notify_run hn

theorem onAckDisable_run (hn : 0 < n ∧ n < channelNr) :
    onAckDisable n e = Except.ok ((), e.handle mem (Cmd.ackDisable n)) := by
  rw [onAckDisable, if_neg (in_range hn), bind_run, setStatus_run hn.2]
  exact notify_run hn

theorem onSuspend_run (hn : 0 < n ∧ n < channelNr) :
    onSuspend n e = Except.ok ((), e.handle mem (Cmd.suspend n)) := by
  rw [onSuspend, if_neg (in_range hn), bind_run, getStatus_run hn.2, Endpoint.handle]
  simp only
  by_cases hst : e.chnStatus n = ChnStatus.established
  · rw [if_neg (not_not.2 hst), if_pos hst]
    exact setStatus_run hn.2 _
  · rw [if_pos hst, if_neg hst]
    rfl

theorem onResume_run (hn : 0 < n ∧ n < channelNr) :
    onResume n e = Except.ok ((), e.handle mem (Cmd.resume n)) := by
  rw [onResume, if_neg (in_range hn), bind_run, getStatus_run hn.2, Endpoint.handle]
  simp only
  by_cases hst : e.chnStatus n = ChnStatus.suspend
  · rw [if_neg (not_not.2 hst), if_pos hst, bind_run, setStatus_run hn.2]
    exact access_run (chn_index hn.2)
  · rw [if_pos hst, if_neg hst]
    rfl

theorem onNakEnable_run : onNakEnable ((Cmd.nakEnable s).encode ++ more) e =
      Except.ok ((), e.handle mem (Cmd.nakEnable s)) := by
  have hname : cstr (((Cmd.nakEnable s).encode ++ more).drop 2) = s.bytes := by
    show cstr ((s.bytes ++ [0]) ++ more) = s.bytes
    rw [List.append_assoc]
    exact cstr_name s more
  unfold onNakEnable Endpoint.handle
  rw [bind_run, sessFind_run, hname]
  simp only
  have hle := @sessIdx_le e s.bytes SessSt.establishing
  by_cases hi : e.sessIdx s.bytes SessSt.establishing = sessNr
  · rw [if_pos hi, if_pos hi]
    rfl
  · rw [if_neg hi, if_neg hi]
    exact modifySess_run (by omega) _

theorem chn0Actor_run (h0 : e.chnStatus 0 = ChnStatus.established) {c : Cmd} (hc : c.Ok) :
    chn0Actor mem (c.encode ++ more) c.encode.length e = Except.ok ((), e.handle mem c) := by
  cases c with
  | enable s => exact onEnable_run h0
  | set s n => exact onSet_run h0 (hc n rfl)
  | disable n =>
    have hbyte : byteAt ((Cmd.disable n).encode ++ more) 1 = n :=
      byteAt_chnr (hc n rfl) rfl
    show onDisable mem _ _ (byteAt _ 1) e = _
    rw [hbyte]
    exact onDisable_run h0 (hc n rfl)
  | ackSet s n => exact onAckSet_run (hc n rfl).2
  | ackDisable n =>
    have hbyte : byteAt ((Cmd.ackDisable n).encode ++ more) 2 = n :=
      byteAt_chnr (hc n rfl) rfl
    show onAckDisable (byteAt _ 2) e = _
    rw [hbyte]
    exact onAckDisable_run (hc n rfl)
  | nakEnable s => exact onNakEnable_run
  | nakSet s n => rfl
  | suspend n =>
    have hbyte : byteAt ((Cmd.suspend n).encode ++ more) 1 = n :=
      byteAt_chnr (hc n rfl) rfl
    show onSuspend (byteAt _ 1) e = _
    rw [hbyte]
    exact onSuspend_run (hc n rfl)
  | resume n =>
    have hbyte : byteAt ((Cmd.resume n).encode ++ more) 1 = n :=
      byteAt_chnr (hc n rfl) rfl
    show onResume (byteAt _ 1) e = _
    rw [hbyte]
    exact onResume_run (hc n rfl)

theorem length_encode_le (c : Cmd) : c.encode.length ≤ 60 := by
  cases c with
  | enable s | set s n | ackSet s n | nakEnable s | nakSet s n =>
    have hshort : s.bytes.length < 16 := s.short
    simp only [Cmd.encode, List.length_cons, List.length_append, List.length_nil]
    omega
  | _ => simp [Cmd.encode]

theorem busIn_run (h0 : e.chnStatus 0 = ChnStatus.established) {c : Cmd} (hc : c.Ok) :
    busIn ⟨0, UInt8.ofNat c.encode.length, c.encode ++ more, mem, false⟩ e =
      Except.ok ((), e.handle mem c) := by
  have hle := length_encode_le c
  have hsize : (UInt8.ofNat c.encode.length).toNat = c.encode.length := by
    rw [UInt8.toNat_ofNat']
    omega
  show (chnConnected ((0 : Nat) : Int) >>= _) e = _
  rw [bind_run, chnConnected_run (by decide), h0]
  show (if 60 < (UInt8.ofNat c.encode.length).toNat then pure () else
    chn0Actor mem _ (UInt8.ofNat c.encode.length).toNat : Act Unit) e = _
  rw [hsize, if_neg (by omega)]
  exact chn0Actor_run h0 hc

end Commands

end RtThread.Vbus
