import RtThread.Utilities.Ymodem

/-!
# What a successful transfer has read and delivered

A run that ends without an error has read noise before the handshake, one header packet,
the packets of the file, two ends of transmission and one final packet, and nothing else.
The packets of the file are delivered one by one as they arrive.
-/

namespace RtThread.Utilities.Ymodem

/-!
## The check sum
-/

/-- The polynomial of the CCITT check sum, without its highest term. -/
def ccittPoly : BitVec 16 := 0x1021

theorem ccittTable_eq : ccittTable =
    (List.range 256).map fun i => Crc.steps ccittPoly 8 (BitVec.ofNat 16 i <<< 8) := by
  decide +kernel

theorem ccittTable_getD (i : BitVec 8) :
    ccittTable.getD i.toNat 0 = Crc.steps ccittPoly 8 (i.setWidth 16 <<< 8) := by
  rw [ccittTable_eq, List.getD_eq_getElem?_getD, List.getElem?_map,
    List.getElem?_range i.isLt, Option.map_some, Option.getD_some, BitVec.ofNat_toNat]

theorem crc16_index (crc : BitVec 16) (b : Byte) :
    (((crc >>> 8) ^^^ b.setWidth 16) &&& 0xff).toNat = (Crc.index crc b).toNat := by
  have hmask : forall y : BitVec 16, (y &&& 0xff).toNat = (y.setWidth 8).toNat := by
    intro y
    rw [BitVec.toNat_and, BitVec.toNat_setWidth]
    exact Nat.and_two_pow_sub_one_eq_mod y.toNat 8
  rw [hmask, BitVec.setWidth_xor, Crc.index]
  congr 2
  rw [BitVec.setWidth_setWidth_of_le b (by decide), BitVec.setWidth_eq]

theorem crc16_eq_remainder (q : List Byte) : crc16 q = Crc.remainder ccittPoly q := by
  unfold crc16 Crc.remainder
  congr 1
  funext crc b
  rw [Crc.feed_eq_table (by decide), crc16_index, ccittTable_getD]

/-- The table gives the remainder by the polynomial, and a message with its check sum behind
it, high byte first, has the remainder zero. -/
theorem crc16_checks (q : List Byte) :
    crc16 q = Crc.remainder ccittPoly q ∧
      crc16 (q ++ [(crc16 q >>> 8).setWidth 8, (crc16 q).setWidth 8]) = 0 := by
  have hlow : (crc16 q).setWidth 8 = ((crc16 q <<< 8) >>> (16 - 8)).setWidth 8 := by
    generalize crc16 q = crc
    apply BitVec.eq_of_getLsbD_eq
    intro i hi
    simp [hi, Nat.lt_of_lt_of_le hi (by decide : 8 ≤ 16), show 8 + i < 16 by omega]
  have hhigh : Crc.feed ccittPoly (crc16 q) ((crc16 q >>> 8).setWidth 8) = crc16 q <<< 8 :=
    Crc.feed_high (by decide)
  have hrest : Crc.feed ccittPoly (crc16 q <<< 8) ((crc16 q).setWidth 8) =
      crc16 q <<< 8 <<< 8 := by
    rw [hlow]
    exact Crc.feed_high (by decide)
  refine ⟨crc16_eq_remainder q, ?_⟩
  rw [crc16_eq_remainder, Crc.remainder, List.foldl_append]
  change Crc.feed _ (Crc.feed _ (Crc.remainder ccittPoly q) _) _ = 0
  rw [<- crc16_eq_remainder, hhigh, hrest, <- BitVec.shiftLeft_add]
  exact BitVec.shiftLeft_eq_zero (Nat.le_refl 16)

/-!
## Packets
-/

structure Packet where
  long : Bool
  seq : Byte
  data : List Byte
  high : Byte
  low : Byte
  size : data.length = if long then 1024 else 128

namespace Packet

def code (p : Packet) : Byte :=
  if p.long then codeStx else codeSoh

def body (p : Packet) : List Byte :=
  p.seq :: ~~~p.seq :: (p.data ++ [p.high, p.low])

def bytes (p : Packet) : List Byte :=
  p.code :: p.body

def Intact (p : Packet) : Prop :=
  (p.high.setWidth 16 <<< 8) ||| p.low.setWidth 16 = Crc.remainder ccittPoly p.data

def Header (p : Packet) : Prop :=
  p.long = false ∧ p.seq = 0 ∧ p.Intact

end Packet

theorem split_body {bytes : List Byte} {n : Nat} (hlength : bytes.length = 2 + n + 2) :
    exists seq cmp data high low,
      bytes = seq :: cmp :: (data ++ [high, low]) ∧ data.length = n := by
  match bytes, hlength with
  | seq :: cmp :: rest, hlength =>
    have hrest : rest.length = n + 2 := by
      simp only [List.length_cons] at hlength
      omega
    have hlast : (rest.drop n).length = 2 := by
      rw [List.length_drop, hrest]
      omega
    obtain ⟨high, low, htwo⟩ := List.length_eq_two.1 hlast
    refine ⟨seq, cmp, rest.take n, high, low, ?_, ?_⟩
    · rw [← htwo, List.take_append_drop]
    · rw [List.length_take, hrest]
      omega

theorem complement_of_sum {a b : Byte} (h : a.toNat + b.toNat = 0xff) : b = ~~~a := by
  apply BitVec.eq_of_toNat_eq
  rw [BitVec.toNat_not]
  omega

/-!
## Reading a part of the receiver backwards
-/

section Inversion

variable {α β : Type} {c : Ctx} {f : α -> Rx β}

theorem bind_eq_some {x : Rx α} {r : β × Ctx} :
    (x >>= f) c = some r <-> exists a c', x c = some (a, c') ∧ f a c' = some r := by
  show (x c).bind (fun r => f r.1 r.2) = some r <-> _
  rw [Option.bind_eq_some_iff]
  constructor
  · rintro ⟨⟨a, c'⟩, hx, hf⟩
    exact ⟨a, c', hx, hf⟩
  · rintro ⟨a, c', hx, hf⟩
    exact ⟨⟨a, c'⟩, hx, hf⟩

theorem bufAt_bind (i : Nat) (f : Byte -> Rx β) : (bufAt i >>= f) c = f (c.buf.getD i 0) c := rfl

theorem bufFrom_bind (i len : Nat) (f : List Byte -> Rx β) :
    (bufFrom i len >>= f) c = f ((c.buf.drop i).take len) c := rfl

theorem recvCrc_bind (i : Nat) (f : BitVec 16 -> Rx β) :
    (recvCrc i >>= f) c = f (((c.buf.getD i 0).setWidth 16 <<< 8) |||
      (c.buf.getD (i + 1) 0).setWidth 16) c := rfl

theorem putchar_bind (code : Byte) (f : Unit -> Rx β) :
    (putchar code >>= f) c = f () { c with sent := c.sent ++ [code] } := rfl

theorem setStage_bind (stage : Stage) (f : Unit -> Rx β) :
    (setStage stage >>= f) c = f () { c with stage } := rfl

theorem get_bind (f : Ctx -> Rx β) : (get >>= f) c = f c c := rfl

theorem chain_eq_some {x : Rx Err} {f : Rx Err} {c c' : Ctx}
    (h : (do let err ← x
             if err ≠ Err.eok then return err
             f : Rx Err) c = some (Err.eok, c')) :
    exists c1, x c = some (Err.eok, c1) ∧ f c1 = some (Err.eok, c') := by
  obtain ⟨err, c1, hx, h⟩ := bind_eq_some.1 h
  split at h
  · rename_i herr
    cases h
    exact absurd rfl herr
  · rename_i herr
    obtain rfl := not_not.1 herr
    exact ⟨c1, hx, h⟩

end Inversion

structure Quiet (c c' : Ctx) : Prop where
  stage : c'.stage = c.stage
  sent : c'.sent = c.sent
  calls : c'.calls = c.calls

theorem Quiet.trans {c c1 c2 : Ctx} (h : Quiet c c1) (h' : Quiet c1 c2) : Quiet c c2 :=
  ⟨h'.stage.trans h.stage, h'.sent.trans h.sent, h'.calls.trans h.calls⟩

theorem store_store (buf a b : List Byte) (i : Nat) :
    store (store buf i a) (i + a.length) b = store buf i (a ++ b) := by
  unfold store
  rw [List.length_append]
  rcases Nat.lt_or_ge buf.length i with hshort | hlong
  · have hdrop : forall k, buf.drop (i + k) = [] := by
      intro k
      exact List.drop_eq_nil_of_le (by omega)
    rw [hdrop, hdrop, List.append_nil, List.append_nil, List.take_of_length_le,
      List.drop_eq_nil_of_le]
    · simp
    · simp
      omega
    · simp
  · have hlength : (buf.take i ++ a).length = i + a.length := by
      rw [List.length_append, List.length_take, Nat.min_eq_left hlong]
    rw [List.take_left' hlength, ← hlength, List.drop_length_add_append, hlength, List.drop_drop]
    simp [Nat.add_assoc]

theorem deviceRead_eq_some {i len n : Nat} {c c' : Ctx} (h : deviceRead i len c = some (n, c')) :
    exists bytes, bytes.length = n ∧ n ≤ len ∧ c'.buf = store c.buf i bytes ∧
      c'.received = c.received ++ bytes ∧ Quiet c c' := by
  unfold deviceRead at h
  split at h
  · split at h
    · rename_i bytes _ _ hle
      cases h
      exact ⟨bytes, rfl, hle, rfl, rfl, rfl, rfl, rfl⟩
    · cases h
  · cases h

theorem semTake_eq_some {ok : Bool} {c c' : Ctx} (h : semTake c = some (ok, c')) :
    c'.buf = c.buf ∧ c'.received = c.received ∧ Quiet c c' := by
  unfold semTake at h
  split at h
  · cases h
    exact ⟨rfl, rfl, rfl, rfl, rfl⟩
  · cases h

/-- What reading one code leaves: a code off the line, or none in time. -/
def CodeRead (c : Ctx) (code : Byte) (c' : Ctx) : Prop :=
  Quiet c c' ∧ ((code = codeNone ∧ c'.received = c.received) ∨
    (c'.received = c.received ++ [code] ∧ exists t, c'.buf = code :: t))

theorem CodeRead.of_one {c c' : Ctx} {code : Byte} {f : Rx Byte}
    (hslow : forall c1, c1.received = c.received -> Quiet c c1 -> f c1 = some (code, c') ->
      CodeRead c code c')
    (h : (do if (← deviceRead 0 1) = 1 then bufAt 0 else f : Rx Byte) c = some (code, c')) :
    CodeRead c code c' := by
  obtain ⟨n, c1, hread, h⟩ := bind_eq_some.1 h
  obtain ⟨bytes, hlength, hle, hbuf, hreceived, hquiet⟩ := deviceRead_eq_some hread
  split at h
  · rename_i hone
    obtain ⟨b, hb⟩ := List.length_eq_one_iff.1 (hlength.trans hone)
    subst hb
    have hhead : c1.buf = b :: c.buf.drop 1 := by
      rw [hbuf]
      rfl
    change some (c1.buf.getD 0 0, c1) = some (code, c') at h
    rw [hhead] at h
    cases h
    exact ⟨hquiet, Or.inr ⟨hreceived, _, hhead⟩⟩
  · have hzero : bytes = [] := List.eq_nil_of_length_eq_zero (by omega)
    subst hzero
    rw [List.append_nil] at hreceived
    exact hslow c1 hreceived hquiet h

theorem readCodeSlow_spec {fuel : Nat} {c c' : Ctx} {code : Byte}
    (h : readCodeSlow fuel c = some (code, c')) : CodeRead c code c' := by
  induction fuel generalizing c with
  | zero => cases h
  | succ fuel ih =>
    obtain ⟨ok, c1, htake, h⟩ := bind_eq_some.1 h
    obtain ⟨_, hreceived, hquiet⟩ := semTake_eq_some htake
    split at h
    · cases h
      exact ⟨hquiet, Or.inl ⟨rfl, hreceived⟩⟩
    · have hread : CodeRead c1 code c' := by
        apply CodeRead.of_one _ h
        intro c2 hreceived2 hquiet2 hslow
        obtain ⟨hq, hcode⟩ := ih hslow
        rw [hreceived2] at hcode
        exact ⟨hquiet2.trans hq, hcode⟩
      obtain ⟨hq, hcode⟩ := hread
      rw [hreceived] at hcode
      exact ⟨hquiet.trans hq, hcode⟩

theorem readCode_spec {fuel : Nat} {c c' : Ctx} {code : Byte}
    (h : readCode fuel c = some (code, c')) : CodeRead c code c' := by
  apply CodeRead.of_one _ h
  intro c1 hreceived hquiet hslow
  obtain ⟨hq, hcode⟩ := readCodeSlow_spec hslow
  rw [hreceived] at hcode
  exact ⟨hquiet.trans hq, hcode⟩

theorem readDataLoop_spec {len fuel readlen n : Nat} {c c' : Ctx}
    (h : readDataLoop len fuel readlen c = some (n, c')) :
    exists bytes, n = readlen + bytes.length ∧ c'.buf = store c.buf (1 + readlen) bytes ∧
      c'.received = c.received ++ bytes ∧ Quiet c c' := by
  induction fuel generalizing readlen c with
  | zero => cases h
  | succ fuel ih =>
    obtain ⟨k, c1, hread, h⟩ := bind_eq_some.1 h
    obtain ⟨bytes, hlength, _, hbuf, hreceived, hquiet⟩ := deviceRead_eq_some hread
    subst hlength
    split at h
    · cases h
      exact ⟨bytes, rfl, hbuf, hreceived, hquiet⟩
    · obtain ⟨ok, c2, htake, h⟩ := bind_eq_some.1 h
      obtain ⟨hbuf2, hreceived2, hquiet2⟩ := semTake_eq_some htake
      split at h
      · obtain ⟨more, hn, hbuf3, hreceived3, hquiet3⟩ := ih h
        refine ⟨bytes ++ more, ?_, ?_, ?_, (hquiet.trans hquiet2).trans hquiet3⟩
        · rw [hn, List.length_append, Nat.add_assoc]
        · rw [hbuf3, hbuf2, hbuf, ← Nat.add_assoc, store_store]
        · rw [hreceived3, hreceived2, hreceived, List.append_assoc]
      · cases h
        refine ⟨bytes, rfl, hbuf2.trans hbuf, hreceived2.trans hreceived, ?_⟩
        exact hquiet.trans hquiet2

theorem readData_spec {fuel len : Nat} {c c' : Ctx} {code : Byte} {t : List Byte}
    (hhead : c.buf = code :: t) (h : readData fuel len c = some (len, c')) :
    exists bytes t', bytes.length = len ∧ c'.buf = code :: (bytes ++ t') ∧
      c'.received = c.received ++ bytes ∧ Quiet c c' := by
  obtain ⟨bytes, hlength, hbuf, hreceived, hquiet⟩ := readDataLoop_spec h
  refine ⟨bytes, t.drop bytes.length, by omega, ?_, hreceived, hquiet⟩
  rw [hbuf, hhead, store, Nat.add_comm 1, Nat.add_comm 1, List.drop_succ_cons]
  rfl

/-!
## The parts of a packet in the buffer
-/

section Buffer

variable {code seq cmp high low : Byte} {data t : List Byte}

def bufferOf (code seq cmp high low : Byte) (data t : List Byte) : List Byte :=
  code :: (seq :: cmp :: (data ++ [high, low]) ++ t)

theorem bufferOf_data :
    ((bufferOf code seq cmp high low data t).drop 3).take data.length = data := by
  show ((data ++ [high, low]) ++ t).take data.length = data
  rw [List.append_assoc, List.take_left']
  rfl

theorem bufferOf_high :
    (bufferOf code seq cmp high low data t).getD (data.length + 3) 0 = high := by
  show ((data ++ [high, low]) ++ t).getD data.length 0 = high
  rw [List.append_assoc, List.getD_eq_getElem?_getD,
    List.getElem?_append_right (Nat.le_refl _), Nat.sub_self]
  rfl

theorem bufferOf_low : (bufferOf code seq cmp high low data t).getD (data.length + 4) 0 = low := by
  show ((data ++ [high, low]) ++ t).getD (data.length + 1) 0 = low
  rw [List.append_assoc, List.getD_eq_getElem?_getD,
    List.getElem?_append_right (Nat.le_add_right _ 1), Nat.add_sub_cancel_left]
  rfl

end Buffer

/-- The packet read last is `p`. -/
structure PacketRead (c : Ctx) (p : Packet) (c' : Ctx) : Prop where
  received : c'.received = c.received ++ p.body
  buf : exists t, c'.buf = bufferOf p.code p.seq (~~~p.seq) p.high p.low p.data t
  quiet : Quiet c c'

theorem packet_of_readData {fuel n : Nat} {c c' : Ctx} {t : List Byte} {long : Bool}
    (hn : n = if long then 1024 else 128)
    (hhead : c.buf = (if long then codeStx else codeSoh) :: t)
    (h : readData fuel (2 + n + 2) c = some (2 + n + 2, c'))
    (hsum : (c'.buf.getD 1 0).toNat + (c'.buf.getD 2 0).toNat = 0xff) :
    exists p, p.long = long ∧ PacketRead c p c' := by
  obtain ⟨bytes, t', hlength, hbuf, hreceived, hquiet⟩ := readData_spec hhead h
  obtain ⟨seq, cmp, data, high, low, rfl, hdata⟩ := split_body hlength
  rw [hbuf] at hsum
  change seq.toNat + cmp.toNat = 0xff at hsum
  obtain rfl := complement_of_sum hsum
  exact ⟨⟨long, seq, data, high, low, hdata.trans hn⟩, rfl, hreceived, ⟨t', hbuf⟩,
    hquiet⟩

section Packet

variable {c c' : Ctx} {p : Packet}

theorem PacketRead.seq_eq (h : PacketRead c p c') : c'.buf.getD 1 0 = p.seq := by
  obtain ⟨t, hbuf⟩ := h.buf
  rw [hbuf]
  rfl

theorem PacketRead.data_eq (h : PacketRead c p c') :
    (c'.buf.drop 3).take p.data.length = p.data := by
  obtain ⟨t, hbuf⟩ := h.buf
  rw [hbuf]
  exact bufferOf_data

theorem PacketRead.intact (h : PacketRead c p c')
    (hcrc : ((c'.buf.getD (p.data.length + 3) 0).setWidth 16 <<< 8) |||
      (c'.buf.getD (p.data.length + 4) 0).setWidth 16 =
        crc16 ((c'.buf.drop 3).take p.data.length)) : p.Intact := by
  rw [h.data_eq, crc16_eq_remainder] at hcrc
  obtain ⟨t, hbuf⟩ := h.buf
  rw [hbuf, bufferOf_high, bufferOf_low] at hcrc
  exact hcrc

theorem readHeader_spec {fuel : Nat} {t : List Byte} (hhead : c.buf = codeSoh :: t)
    (h : readHeader fuel c = some (Err.eok, c')) :
    exists p : Packet, p.Header ∧ PacketRead c p c' := by
  obtain ⟨n, c1, hread, h⟩ := bind_eq_some.1 h
  split at h
  · cases h
  rename_i hn
  obtain rfl := not_not.1 hn
  rw [bufAt_bind, bufAt_bind] at h
  split at h
  · cases h
  rename_i hseq
  rw [recvCrc_bind, bufFrom_bind] at h
  split at h
  · cases h
  rename_i hcrc
  cases h
  have hzero : c'.buf.getD 1 0 = 0 := not_not.1 fun hne => hseq (Or.inl hne)
  have hones : c'.buf.getD 2 0 = 0xff := not_not.1 fun hne => hseq (Or.inr hne)
  obtain ⟨p, hlong, hp⟩ := @packet_of_readData fuel 128 c c' t false rfl hhead hread
    (by rw [hzero, hones]; rfl)
  have hdata : p.data.length = 128 := by
    rw [p.size, hlong]
    rfl
  refine ⟨p, ⟨hlong, ?_, ?_⟩, hp⟩
  · rw [← hp.seq_eq, hzero]
  · apply hp.intact
    rw [hdata]
    exact not_not.1 hcrc

end Packet

/-!
## The packets of the file
-/

/-- The record of the call for a packet and the answer to it. -/
def callOf (x : Packet × Byte) : Call :=
  ⟨x.1.seq, x.1.data, x.2⟩

/-- The calls that a list of packets causes: none without a callback. -/
def callsFor (cb : Callbacks) (blocks : List (Packet × Byte)) : List Call :=
  if cb.onData then blocks.map callOf else []

/-- What goes back for a packet: an acknowledgement, where the callback asks for it. -/
def reply (x : Packet × Byte) : List Byte :=
  if x.2 = codeAck then [codeAck] else []

/-- A packet passed its checks, and the answer to it did not abort the transfer. -/
structure Accepted (cb : Callbacks) (x : Packet × Byte) : Prop where
  intact : x.1.Intact
  answer : x.2 ≠ codeCan
  silent : cb.onData = false -> x.2 = codeAck

theorem callsFor_cons (cb : Callbacks) (x : Packet × Byte) (blocks : List (Packet × Byte)) :
    callsFor cb (x :: blocks) = callsFor cb [x] ++ callsFor cb blocks := by
  unfold callsFor
  split <;> rfl

theorem transData_spec {fuel n : Nat} {cb : Callbacks} {c c' : Ctx} {t : List Byte}
    {long : Bool} {code answer : Byte} (hn : n = if long then 1024 else 128)
    (hhead : c.buf = (if long then codeStx else codeSoh) :: t)
    (h : transData fuel cb n code c = some ((Err.eok, answer), c')) :
    exists p : Packet, p.long = long ∧ c'.received = c.received ++ p.body ∧ c'.sent = c.sent ∧
      ((c.stage = Stage.established ∧ p.seq = 0 ∧ answer = codeNone ∧
          c'.stage = c.stage ∧ c'.calls = c.calls) ∨
        (¬(c.stage = Stage.established ∧ p.seq = 0) ∧ p.Intact ∧
          (cb.onData = false -> answer = codeAck) ∧ c'.stage = Stage.transmitting ∧
          c'.calls = c.calls ++ callsFor cb [(p, answer)])) := by
  obtain ⟨k, c1, hread, h⟩ := bind_eq_some.1 h
  split at h
  · cases h
  rename_i hk
  obtain rfl := not_not.1 hk
  rw [bufAt_bind, bufAt_bind] at h
  split at h
  · cases h
  rename_i hsum
  obtain ⟨p, hlong, hp⟩ := packet_of_readData hn hhead hread (not_not.1 hsum)
  have hdata : p.data.length = n := by
    rw [p.size, hlong, hn]
  rw [get_bind, bufAt_bind, hp.seq_eq, hp.quiet.stage] at h
  split at h
  · rename_i hfirst
    cases h
    exact ⟨p, hlong, hp.received, hp.quiet.sent,
      Or.inl ⟨hfirst.1, hfirst.2, rfl, hp.quiet.stage, hp.quiet.calls⟩⟩
  rename_i hfirst
  rw [setStage_bind, recvCrc_bind, bufFrom_bind] at h
  split at h
  · cases h
  rename_i hcrc
  have hintact : p.Intact := by
    apply hp.intact
    rw [hdata, show n + 3 = 2 + n + 2 - 1 by omega, show n + 4 = 2 + n + 2 - 1 + 1 by omega]
    exact not_not.1 hcrc
  refine ⟨p, hlong, ?_⟩
  split at h
  · rename_i hcb
    obtain ⟨a, c2, hcall, h⟩ := bind_eq_some.1 h
    unfold onDataCall at hcall
    split at hcall
    · cases hcall
      cases h
      refine ⟨hp.received, hp.quiet.sent, Or.inr ⟨hfirst, hintact, ?_, rfl, ?_⟩⟩
      · rw [hcb]
        exact nofun
      · rw [callsFor, if_pos hcb, ← hp.quiet.calls, hp.seq_eq, ← hdata, hp.data_eq]
        rfl
    · cases hcall
  · rename_i hcb
    cases h
    refine ⟨hp.received, hp.quiet.sent, Or.inr ⟨hfirst, hintact, fun _ => rfl, rfl, ?_⟩⟩
    rw [callsFor, if_neg hcb, List.append_nil, ← hp.quiet.calls]

/-- The loop reads packets and one end of transmission. First packets with number zero are
the header again; all others are delivered. -/
structure FileRead (cb : Callbacks) (c : Ctx) (skipped : List Packet)
    (blocks : List (Packet × Byte)) (c' : Ctx) : Prop where
  received : c'.received = c.received ++
    ((skipped ++ blocks.map Prod.fst).flatMap Packet.bytes ++ [codeEot])
  sent : c'.sent = c.sent ++ blocks.flatMap reply
  calls : c'.calls = c.calls ++ callsFor cb blocks
  skipped_zero : forall p, p ∈ skipped -> p.seq = 0
  skipped_stage : c.stage ≠ Stage.established -> skipped = []
  first : c.stage = Stage.established -> forall x, x ∈ blocks.head? -> x.1.seq ≠ 0
  accepted : forall x, x ∈ blocks -> Accepted cb x

section FileRead

variable {cb : Callbacks} {c c1 c' : Ctx} {p : Packet} {skipped : List Packet}
  {blocks : List (Packet × Byte)}

theorem flatMap_bytes_cons (ps : List Packet) (more : List Byte) :
    p.bytes ++ (ps.flatMap Packet.bytes ++ more) = (p :: ps).flatMap Packet.bytes ++ more := by
  rw [List.flatMap_cons, List.append_assoc]

theorem FileRead.skip (hfile : FileRead cb c1 skipped blocks c')
    (hreceived : c1.received = c.received ++ p.bytes) (hsent : c1.sent = c.sent)
    (hcalls : c1.calls = c.calls) (hstage1 : c1.stage = c.stage)
    (hstage : c.stage = Stage.established) (hzero : p.seq = 0) :
    FileRead cb c (p :: skipped) blocks c' where
  received := by
    rw [hfile.received, hreceived, List.append_assoc, flatMap_bytes_cons]
    rfl
  sent := by
    rw [hfile.sent, hsent]
  calls := by
    rw [hfile.calls, hcalls]
  skipped_zero := by
    intro q hq
    rcases List.mem_cons.1 hq with rfl | hq
    · exact hzero
    · exact hfile.skipped_zero q hq
  skipped_stage := fun hne => absurd hstage hne
  first := fun _ => hfile.first (hstage1.trans hstage)
  accepted := hfile.accepted

theorem FileRead.deliver {answer : Byte} (hfile : FileRead cb c1 skipped blocks c')
    (hreceived : c1.received = c.received ++ p.bytes)
    (hsent : c1.sent = c.sent ++ reply (p, answer))
    (hcalls : c1.calls = c.calls ++ callsFor cb [(p, answer)])
    (hstage1 : c1.stage = Stage.transmitting)
    (hfirst : ¬(c.stage = Stage.established ∧ p.seq = 0))
    (haccepted : Accepted cb (p, answer)) :
    FileRead cb c [] ((p, answer) :: blocks) c' where
  received := by
    have hnone := hfile.skipped_stage (by rw [hstage1]; decide)
    rw [hfile.received, hreceived, hnone, List.append_assoc, flatMap_bytes_cons]
    rfl
  sent := by
    rw [hfile.sent, hsent, List.append_assoc]
    rfl
  calls := by
    rw [hfile.calls, hcalls, callsFor_cons cb (p, answer) blocks, List.append_assoc]
  skipped_zero := nofun
  skipped_stage := fun _ => rfl
  first := by
    intro hstage x hx
    cases hx
    exact fun hzero => hfirst ⟨hstage, hzero⟩
  accepted := by
    intro x hx
    rcases List.mem_cons.1 hx with rfl | hx
    · exact haccepted
    · exact hfile.accepted x hx

end FileRead

theorem dataSize_eq_some {code : Byte} {n : Nat} (h : dataSize code = some n) :
    exists long : Bool, n = (if long then 1024 else 128) ∧
      code = if long then codeStx else codeSoh := by
  unfold dataSize at h
  split at h
  · rename_i hcode
    cases h
    exact ⟨false, rfl, hcode⟩
  · split at h
    · rename_i hcode
      cases h
      exact ⟨true, rfl, hcode⟩
    · cases h

theorem code_ne_none (long : Bool) : (if long then codeStx else codeSoh) ≠ codeNone := by
  cases long <;> decide

variable {fuel : Nat}

theorem transLoop_spec {cb : Callbacks} {c c' : Ctx}
    (h : transLoop cb fuel c = some (Err.eok, c')) :
    exists skipped blocks, FileRead cb c skipped blocks c' := by
  induction fuel generalizing c with
  | zero => cases h
  | succ fuel ih =>
    obtain ⟨code, c1, hcode, h⟩ := bind_eq_some.1 h
    obtain ⟨hquiet, hread⟩ := readCode_spec hcode
    cases hsize : dataSize code with
    | none =>
      -- the end of the file
      simp only [hsize] at h
      have heot : code = codeEot := by
        by_contra hne
        rw [if_neg hne] at h
        cases h
      rw [if_pos heot] at h
      cases h
      rcases hread with ⟨hnone, _⟩ | ⟨hreceived, _⟩
      · rw [heot] at hnone
        exact absurd hnone (by decide)
      · refine ⟨[], [], ?_, ?_, ?_, nofun, fun _ => rfl, nofun, nofun⟩
        · rw [hreceived, heot]
          rfl
        · exact hquiet.sent.trans (List.append_nil _).symm
        · rw [hquiet.calls, callsFor]
          split <;> exact (List.append_nil _).symm
    | some n =>
      simp only [hsize] at h
      obtain ⟨long, hn, rfl⟩ := dataSize_eq_some hsize
      rcases hread with ⟨hnone, _⟩ | ⟨hreceived, t, hbuf⟩
      · exact absurd hnone (code_ne_none long)
      obtain ⟨⟨err, answer⟩, c2, hdata, h⟩ := bind_eq_some.1 h
      simp only at h
      split at h
      · rename_i herr
        cases h
        exact absurd rfl herr
      rename_i herr
      obtain rfl := not_not.1 herr
      obtain ⟨p, hlong, hbody, hsent, hcases⟩ := transData_spec hn hbuf hdata
      have hbytes : c2.received = c.received ++ p.bytes := by
        rw [hbody, hreceived, Packet.bytes, Packet.code, hlong, List.append_assoc]
        rfl
      rw [hquiet.sent] at hsent
      rw [hquiet.stage, hquiet.calls] at hcases
      split at h
      · -- the callback aborts
        obtain ⟨_, c3, _, h⟩ := bind_eq_some.1 h
        cases h
      rename_i hcan
      rcases hcases with ⟨hstage, hzero, hnone, hstage2, hcalls⟩ |
        ⟨hnot, hintact, hsilent, hstage2, hcalls⟩
      · -- the header again
        subst hnone
        rw [if_neg (by decide)] at h
        obtain ⟨skipped, blocks, hfile⟩ := ih h
        exact ⟨p :: skipped, blocks, hfile.skip hbytes hsent hcalls hstage2 hstage hzero⟩
      · have haccepted : Accepted cb (p, answer) := ⟨hintact, hcan, hsilent⟩
        split at h
        · rename_i hack
          rw [putchar_bind] at h
          obtain ⟨skipped, blocks, hfile⟩ := ih h
          refine ⟨[], (p, answer) :: blocks,
            hfile.deliver hbytes ?_ hcalls hstage2 hnot haccepted⟩
          rw [reply, if_pos hack, ← hsent]
        · rename_i hack
          obtain ⟨skipped, blocks, hfile⟩ := ih h
          refine ⟨[], (p, answer) :: blocks,
            hfile.deliver hbytes ?_ hcalls hstage2 hnot haccepted⟩
          rw [reply, if_neg hack, List.append_nil, hsent]

/-!
## The whole transfer
-/

theorem handshakeLoop_spec {left : Nat} {c c' : Ctx}
    (h : handshakeLoop fuel left c = some (true, c')) :
    exists noise turns, c'.received = c.received ++ (noise ++ [codeSoh]) ∧
      (forall b, b ∈ noise -> b ≠ codeSoh) ∧
      c'.sent = c.sent ++ List.replicate turns codeC ∧ c'.calls = c.calls ∧
      exists t, c'.buf = codeSoh :: t := by
  induction left generalizing c with
  | zero => cases h
  | succ left ih =>
    change (putchar codeC >>= _) c = _ at h
    rw [putchar_bind] at h
    obtain ⟨code, c1, hcode, h⟩ := bind_eq_some.1 h
    obtain ⟨hquiet, hread⟩ := readCode_spec hcode
    split at h
    · rename_i hsoh
      subst hsoh
      cases h
      rcases hread with ⟨hnone, _⟩ | ⟨hreceived, hbuf⟩
      · exact absurd hnone (by decide)
      · exact ⟨[], 1, hreceived, nofun, hquiet.sent, hquiet.calls, hbuf⟩
    · rename_i hne
      obtain ⟨noise, turns, hreceived, hnoise, hsent, hcalls, hbuf⟩ := ih h
      have hsent' : c'.sent = c.sent ++ List.replicate (turns + 1) codeC := by
        rw [hsent, hquiet.sent, List.append_assoc]
        rfl
      have hcalls' : c'.calls = c.calls := hcalls.trans hquiet.calls
      rcases hread with ⟨_, hsame⟩ | ⟨hmore, _⟩
      · refine ⟨noise, turns + 1, ?_, hnoise, hsent', hcalls', hbuf⟩
        rw [hreceived, hsame]
      · refine ⟨code :: noise, turns + 1, ?_, ?_, hsent', hcalls', hbuf⟩
        · rw [hreceived, hmore, List.append_assoc]
          rfl
        · intro b hb
          rcases List.mem_cons.1 hb with rfl | hb
          · exact hne
          · exact hnoise b hb

theorem callback_quiet {c c' : Ctx} {code : Byte} (h : callback c = some (code, c')) :
    c'.received = c.received ∧ Quiet c c' := by
  unfold callback at h
  split at h
  · cases h
    exact ⟨rfl, rfl, rfl, rfl⟩
  · cases h

theorem bytes_of_header {p : Packet} (hp : p.Header) : p.bytes = codeSoh :: p.body := by
  rw [Packet.bytes, Packet.code, hp.1]
  rfl

theorem doHandshake_spec {cb : Callbacks} {tmSec : Int} {c c' : Ctx}
    (h : doHandshake fuel cb tmSec c = some (Err.eok, c')) :
    exists (noise : List Byte) (turns : Nat) (header : Packet),
      c'.received = c.received ++ (noise ++ header.bytes) ∧
      (forall b, b ∈ noise -> b ≠ codeSoh) ∧ header.Header ∧
      c'.sent = c.sent ++ List.replicate turns codeC ∧ c'.calls = c.calls := by
  change (setStage Stage.establishing >>= _) c = _ at h
  rw [setStage_bind] at h
  obtain ⟨found, c1, hloop, h⟩ := bind_eq_some.1 h
  cases found with
  | false => cases h
  | true =>
    obtain ⟨noise, turns, hreceived1, hnoise, hsent1, hcalls1, t, hbuf1⟩ :=
      handshakeLoop_spec hloop
    change (readHeader fuel >>= _) c1 = _ at h
    obtain ⟨c2, hread, h⟩ := chain_eq_some h
    obtain ⟨header, hheader, hp⟩ := readHeader_spec hbuf1 hread
    have hend : c'.received = c2.received ∧ Quiet c2 c' := by
      split at h
      · obtain ⟨code, c3, hcall, h⟩ := bind_eq_some.1 h
        obtain ⟨hreceived3, hquiet3⟩ := callback_quiet hcall
        split at h
        · cases h
        · cases h
          exact ⟨hreceived3, hquiet3⟩
      · cases h
        exact ⟨rfl, rfl, rfl, rfl⟩
    refine ⟨noise, turns, header, ?_, hnoise, hheader, ?_, ?_⟩
    · rw [hend.1, hp.received, hreceived1, bytes_of_header hheader]
      simp
    · rw [hend.2.sent, hp.quiet.sent, hsent1]
    · rw [hend.2.calls, hp.quiet.calls, hcalls1]

theorem readCode_of_ne {c c' : Ctx} {code : Byte} (hne : code ≠ codeNone)
    (h : readCode fuel c = some (code, c')) :
    c'.received = c.received ++ [code] ∧ Quiet c c' ∧ exists t, c'.buf = code :: t := by
  obtain ⟨hquiet, ⟨hnone, _⟩ | ⟨hreceived, hbuf⟩⟩ := readCode_spec h
  · exact absurd hnone hne
  · exact ⟨hreceived, hquiet, hbuf⟩

/-- What the receiver puts on the line after the first end of transmission. -/
def finReplies : List Byte :=
  [codeNak, codeAck, codeC, codeAck]

theorem finExchange_spec {c c' : Ctx} (h : finExchange fuel c = some (Err.eok, c')) :
    exists final : Packet, c'.received = c.received ++ (codeEot :: final.bytes) ∧
      final.Header ∧ c'.sent = c.sent ++ finReplies ∧ c'.calls = c.calls := by
  change (putchar codeNak >>= _) c = _ at h
  rw [putchar_bind] at h
  obtain ⟨code, c1, hcode1, h⟩ := bind_eq_some.1 h
  split at h
  · cases h
  rename_i heot
  obtain rfl := not_not.1 heot
  obtain ⟨hreceived1, hquiet1, _⟩ := readCode_of_ne (by decide) hcode1
  rw [putchar_bind, putchar_bind] at h
  obtain ⟨code, c2, hcode2, h⟩ := bind_eq_some.1 h
  split at h
  · cases h
  rename_i hsoh
  obtain rfl := not_not.1 hsoh
  obtain ⟨hreceived2, hquiet2, t, hbuf2⟩ := readCode_of_ne (by decide) hcode2
  obtain ⟨c3, hread, h⟩ := chain_eq_some h
  obtain ⟨final, hfinal, hp⟩ := readHeader_spec hbuf2 hread
  cases h
  refine ⟨final, ?_, hfinal, ?_, ?_⟩
  · rw [bytes_of_header hfinal]
    simp [hp.received, hreceived2, hreceived1]
  · simp [hp.quiet.sent, hquiet2.sent, hquiet1.sent, finReplies]
  · simp [hp.quiet.calls, hquiet2.calls, hquiet1.calls]

theorem doFin_spec {cb : Callbacks} {c c' : Ctx} (h : doFin fuel cb c = some (Err.eok, c')) :
    exists final : Packet, c'.received = c.received ++ (codeEot :: final.bytes) ∧
      final.Header ∧ c'.sent = c.sent ++ finReplies ∧ c'.calls = c.calls := by
  change (setStage Stage.finishing >>= _) c = _ at h
  rw [setStage_bind] at h
  simp only at h
  split at h
  · obtain ⟨code, c1, hcall, h⟩ := bind_eq_some.1 h
    obtain ⟨hreceived, hquiet⟩ := callback_quiet hcall
    have hfin := finExchange_spec h
    rw [hreceived, hquiet.sent, hquiet.calls] at hfin
    exact hfin
  · have hfin := finExchange_spec h
    exact hfin

theorem deviceOpen_quiet {c c' : Ctx} {ok : Bool} (h : deviceOpen c = some (ok, c')) :
    c'.received = c.received ∧ Quiet c c' := by
  unfold deviceOpen at h
  split at h
  · cases h
    exact ⟨rfl, rfl, rfl, rfl⟩
  · cases h

theorem malloc_quiet {c c' : Ctx} {ok : Bool} (h : malloc c = some (ok, c')) :
    c'.received = c.received ∧ Quiet c c' := by
  unfold malloc at h
  split at h
  · cases h
    exact ⟨rfl, rfl, rfl, rfl⟩
  · cases h
    exact ⟨rfl, rfl, rfl, rfl⟩
  · cases h

/-- A transfer that ends without an error. Between the header and the ends of transmission
stand the packets of the file: those with number zero before the first other one are the
header again and passed over; every other one is handed to `on_data` once, in the order of
arrival, with the number it carries, and acknowledged where the callback says so. Numbers
are not compared. -/
theorem recv_delivers_packets {fuel : Nat} {cb : Callbacks} {handshakeTimeout : Int}
    {events : List Event} {c : Ctx}
    (h : recvOnDevice fuel cb handshakeTimeout (Ctx.fresh events) = some (Err.eok, c)) :
    exists (noise : List Byte) (turns : Nat) (header final : Packet)
      (skipped : List Packet) (blocks : List (Packet × Byte)),
      c.received = noise ++ header.bytes ++
        (skipped ++ blocks.map Prod.fst).flatMap Packet.bytes ++
        [codeEot, codeEot] ++ final.bytes ∧
      (forall b, b ∈ noise -> b ≠ codeSoh) ∧ header.Header ∧ final.Header ∧
      (forall p, p ∈ skipped -> p.seq = 0) ∧
      (forall x, x ∈ blocks.head? -> x.1.seq ≠ 0) ∧
      (forall x, x ∈ blocks -> Accepted cb x) ∧
      c.calls = (if cb.onData then blocks.map callOf else []) ∧
      c.sent = List.replicate turns codeC ++ [codeAck, codeC] ++ blocks.flatMap reply ++
        [codeNak, codeAck, codeC, codeAck] := by
  obtain ⟨opened, c1, hopen, h⟩ := bind_eq_some.1 h
  obtain ⟨hreceived1, hquiet1⟩ := deviceOpen_quiet hopen
  cases opened with
  | false => cases h
  | true =>
    change (setStage Stage.none >>= _) c1 = _ at h
    rw [setStage_bind] at h
    obtain ⟨ok, c2, halloc, h⟩ := bind_eq_some.1 h
    obtain ⟨hreceived2, hquiet2⟩ := malloc_quiet halloc
    cases ok with
    | false => cases h
    | true =>
      obtain ⟨c3, hshake, h⟩ := chain_eq_some h
      obtain ⟨c4, htrans, hfin⟩ := chain_eq_some h
      obtain ⟨noise, turns, header, hreceived3, hnoise, hheader, hsent3, hcalls3⟩ :=
        doHandshake_spec hshake
      change (putchar codeAck >>= _) c3 = _ at htrans
      rw [putchar_bind, putchar_bind, setStage_bind] at htrans
      obtain ⟨skipped, blocks, hfile⟩ := transLoop_spec htrans
      obtain ⟨final, hreceived5, hfinal, hsent5, hcalls5⟩ := doFin_spec hfin
      have hcalls2 : c2.calls = [] := hquiet2.calls.trans hquiet1.calls
      have hsent2 : c2.sent = [] := hquiet2.sent.trans hquiet1.sent
      have hreceived0 : c2.received = [] := hreceived2.trans hreceived1
      refine ⟨noise, turns, header, final, skipped, blocks, ?_, hnoise, hheader, hfinal,
        hfile.skipped_zero, hfile.first rfl, hfile.accepted, ?_, ?_⟩
      · simp [hreceived5, hfile.received, hreceived3, hreceived0]
      · rw [hcalls5, hfile.calls, hcalls3, hcalls2]
        rfl
      · simp [hsent5, hfile.sent, hsent3, hsent2, finReplies]

def zeroPacket (seq : Byte) : List Event :=
  [Event.read [codeSoh],
    Event.read (seq :: ~~~seq :: (List.replicate 128 0 ++ [0, 0]))]

/-- A sender that repeats its first packet, as it does when the acknowledgement is lost. -/
def repeatedPacket : List Event :=
  [Event.opened true, Event.malloc (some [])] ++ zeroPacket 0 ++
    zeroPacket 1 ++ [Event.answer codeAck] ++ zeroPacket 1 ++ [Event.answer codeAck] ++
    [Event.read [codeEot], Event.read [codeEot]] ++ zeroPacket 0

theorem repeatedPacket_run :
    (recvOnDevice 4 ⟨false, true, false⟩ 1 (Ctx.fresh repeatedPacket)).map
      (fun r => (r.1, r.2.calls.map Call.seq)) = some (Err.eok, [1, 1]) := by
  decide +kernel

/-- The transfer ends well and its only packet has been delivered twice. -/
theorem recv_repeats_block :
    exists c, recvOnDevice 4 ⟨false, true, false⟩ 1 (Ctx.fresh repeatedPacket) =
      some (Err.eok, c) ∧ c.calls.map Call.seq = [1, 1] := by
  obtain ⟨⟨err, c⟩, hrun, heq⟩ := Option.map_eq_some_iff.1 repeatedPacket_run
  obtain ⟨rfl, hseq⟩ := Prod.mk.inj heq
  exact ⟨c, hrun, hseq⟩

/-- Both calls are for packets that passed their checks. -/
theorem recv_delivers_packets_repeated :
    exists c, recvOnDevice 4 ⟨false, true, false⟩ 1 (Ctx.fresh repeatedPacket) =
      some (Err.eok, c) ∧ exists blocks : List (Packet × Byte), blocks.length = 2 ∧
        c.calls = blocks.map callOf ∧
        forall x, x ∈ blocks -> Accepted ⟨false, true, false⟩ x := by
  obtain ⟨⟨err, c⟩, hrun, heq⟩ := Option.map_eq_some_iff.1 repeatedPacket_run
  obtain ⟨rfl, hseq⟩ := Prod.mk.inj heq
  obtain ⟨_, _, _, _, _, blocks, _, _, _, _, _, _, haccepted, hcalls, _⟩ :=
    recv_delivers_packets hrun
  rw [if_pos rfl] at hcalls
  refine ⟨c, hrun, blocks, ?_, hcalls, haccepted⟩
  have hlength := congrArg List.length hseq
  rw [List.length_map, hcalls, List.length_map] at hlength
  exact hlength

end RtThread.Utilities.Ymodem
