import RtThread.Library.Crc

/-!
# The YMODEM receiver

`ymodem.c`: the handshake, the transmission of one file and the final exchange. What the device,
the semaphore, the allocator and the callbacks answer is a list of events; a call for which the
list holds no answer has not returned yet, and neither has the receiver.
-/

namespace RtThread.Utilities.Ymodem

abbrev Byte := BitVec 8

def ccittTable : List (BitVec 16) :=
  [0x0000, 0x1021, 0x2042, 0x3063, 0x4084, 0x50A5, 0x60C6, 0x70E7,
    0x8108, 0x9129, 0xA14A, 0xB16B, 0xC18C, 0xD1AD, 0xE1CE, 0xF1EF,
    0x1231, 0x0210, 0x3273, 0x2252, 0x52B5, 0x4294, 0x72F7, 0x62D6,
    0x9339, 0x8318, 0xB37B, 0xA35A, 0xD3BD, 0xC39C, 0xF3FF, 0xE3DE,
    0x2462, 0x3443, 0x0420, 0x1401, 0x64E6, 0x74C7, 0x44A4, 0x5485,
    0xA56A, 0xB54B, 0x8528, 0x9509, 0xE5EE, 0xF5CF, 0xC5AC, 0xD58D,
    0x3653, 0x2672, 0x1611, 0x0630, 0x76D7, 0x66F6, 0x5695, 0x46B4,
    0xB75B, 0xA77A, 0x9719, 0x8738, 0xF7DF, 0xE7FE, 0xD79D, 0xC7BC,
    0x48C4, 0x58E5, 0x6886, 0x78A7, 0x0840, 0x1861, 0x2802, 0x3823,
    0xC9CC, 0xD9ED, 0xE98E, 0xF9AF, 0x8948, 0x9969, 0xA90A, 0xB92B,
    0x5AF5, 0x4AD4, 0x7AB7, 0x6A96, 0x1A71, 0x0A50, 0x3A33, 0x2A12,
    0xDBFD, 0xCBDC, 0xFBBF, 0xEB9E, 0x9B79, 0x8B58, 0xBB3B, 0xAB1A,
    0x6CA6, 0x7C87, 0x4CE4, 0x5CC5, 0x2C22, 0x3C03, 0x0C60, 0x1C41,
    0xEDAE, 0xFD8F, 0xCDEC, 0xDDCD, 0xAD2A, 0xBD0B, 0x8D68, 0x9D49,
    0x7E97, 0x6EB6, 0x5ED5, 0x4EF4, 0x3E13, 0x2E32, 0x1E51, 0x0E70,
    0xFF9F, 0xEFBE, 0xDFDD, 0xCFFC, 0xBF1B, 0xAF3A, 0x9F59, 0x8F78,
    0x9188, 0x81A9, 0xB1CA, 0xA1EB, 0xD10C, 0xC12D, 0xF14E, 0xE16F,
    0x1080, 0x00A1, 0x30C2, 0x20E3, 0x5004, 0x4025, 0x7046, 0x6067,
    0x83B9, 0x9398, 0xA3FB, 0xB3DA, 0xC33D, 0xD31C, 0xE37F, 0xF35E,
    0x02B1, 0x1290, 0x22F3, 0x32D2, 0x4235, 0x5214, 0x6277, 0x7256,
    0xB5EA, 0xA5CB, 0x95A8, 0x8589, 0xF56E, 0xE54F, 0xD52C, 0xC50D,
    0x34E2, 0x24C3, 0x14A0, 0x0481, 0x7466, 0x6447, 0x5424, 0x4405,
    0xA7DB, 0xB7FA, 0x8799, 0x97B8, 0xE75F, 0xF77E, 0xC71D, 0xD73C,
    0x26D3, 0x36F2, 0x0691, 0x16B0, 0x6657, 0x7676, 0x4615, 0x5634,
    0xD94C, 0xC96D, 0xF90E, 0xE92F, 0x99C8, 0x89E9, 0xB98A, 0xA9AB,
    0x5844, 0x4865, 0x7806, 0x6827, 0x18C0, 0x08E1, 0x3882, 0x28A3,
    0xCB7D, 0xDB5C, 0xEB3F, 0xFB1E, 0x8BF9, 0x9BD8, 0xABBB, 0xBB9A,
    0x4A75, 0x5A54, 0x6A37, 0x7A16, 0x0AF1, 0x1AD0, 0x2AB3, 0x3A92,
    0xFD2E, 0xED0F, 0xDD6C, 0xCD4D, 0xBDAA, 0xAD8B, 0x9DE8, 0x8DC9,
    0x7C26, 0x6C07, 0x5C64, 0x4C45, 0x3CA2, 0x2C83, 0x1CE0, 0x0CC1,
    0xEF1F, 0xFF3E, 0xCF5D, 0xDF7C, 0xAF9B, 0xBFBA, 0x8FD9, 0x9FF8,
    0x6E17, 0x7E36, 0x4E55, 0x5E74, 0x2E93, 0x3EB2, 0x0ED1, 0x1EF0]

def crc16 (q : List Byte) : BitVec 16 :=
  q.foldl (fun crc b =>
    (crc <<< 8) ^^^ ccittTable.getD (((crc >>> 8) ^^^ b.setWidth 16) &&& 0xff).toNat 0) 0

/-!
## Codes, stages and errors

`enum rym_code` is read off the line, so that it may be any byte.
-/

def codeNone : Byte := 0x00
def codeSoh : Byte := 0x01
def codeStx : Byte := 0x02
def codeEot : Byte := 0x04
def codeAck : Byte := 0x06
def codeNak : Byte := 0x15
def codeCan : Byte := 0x18
def codeC : Byte := 0x43

inductive Stage where
  | none
  | establishing
  | established
  | transmitting
  | finishing
  | finished
  deriving DecidableEq

inductive Err where
  | eok
  | tmo
  | code
  | seq
  | crc
  | dsz
  | can
  | enomem
  /-- whatever `rt_device_open` reports -/
  | device
  deriving DecidableEq

def sohPkgSz : Nat := 1 + 2 + 128 + 2

def endSessionSendCanNum : Nat := 0x07

/-!
## The receiver's surroundings
-/

inductive Event where
  /-- `rt_device_read` hands over bytes -/
  | read (bytes : List Byte)
  /-- `rt_sem_take` ends, in time or not -/
  | take (ok : Bool)
  /-- a callback returns a code -/
  | answer (code : Byte)
  | opened (ok : Bool)
  /-- `rt_malloc` returns a block, with what it held, or nothing -/
  | malloc (block : Option (List Byte))
  deriving DecidableEq

/-- A block that `on_data` was called with, with the number in front of it in the buffer and
the code that the callback returned. -/
structure Call where
  seq : Byte
  data : List Byte
  answer : Byte
  deriving DecidableEq

/-- `struct rym_ctx`, the events to come, and what passed so far: the bytes read off the
device, the bytes put on it and the calls of `on_data`. -/
structure Ctx where
  stage : Stage
  buf : List Byte
  events : List Event
  received : List Byte
  sent : List Byte
  calls : List Call
  deriving DecidableEq

structure Callbacks where
  onBegin : Bool
  onData : Bool
  onEnd : Bool

/-- A part of the receiver: no result where it still waits. -/
abbrev Rx := StateT Ctx Option

def store (buf : List Byte) (i : Nat) (bytes : List Byte) : List Byte :=
  buf.take i ++ bytes ++ buf.drop (i + bytes.length)

/-- `rt_device_read(ctx->dev, 0, ctx->buf + i, len)`: at most `len` bytes. -/
def deviceRead (i len : Nat) : Rx Nat := fun c =>
  match c.events with
  | Event.read bytes :: events =>
    if bytes.length ≤ len then
      some (bytes.length, { c with
        buf := store c.buf i bytes, events, received := c.received ++ bytes })
    else none
  | _ => none

def semTake : Rx Bool := fun c =>
  match c.events with
  | Event.take ok :: events => some (ok, { c with events })
  | _ => none

def putchar (code : Byte) : Rx Unit := fun c =>
  some ((), { c with sent := c.sent ++ [code] })

def setStage (stage : Stage) : Rx Unit := fun c =>
  some ((), { c with stage })

def bufAt (i : Nat) : Rx Byte := fun c =>
  some (c.buf.getD i 0, c)

/-- The bytes that a callback or the check sum reads from the buffer. -/
def bufFrom (i len : Nat) : Rx (List Byte) := fun c =>
  some ((c.buf.drop i).take len, c)

/-- `ctx->on_begin` or `ctx->on_end`. -/
def callback : Rx Byte := fun c =>
  match c.events with
  | Event.answer code :: events => some (code, { c with events })
  | _ => none

/-- `ctx->on_data(ctx, ctx->buf + 3, len)` -/
def onDataCall (len : Nat) : Rx Byte := fun c =>
  match c.events with
  | Event.answer code :: events =>
    some (code, { c with
      events
      calls := c.calls ++ [⟨c.buf.getD 1 0, (c.buf.drop 3).take len, code⟩] })
  | _ => none

/-!
## The receiver
-/

/-- The slow path of `_rym_read_code`; fuel bounds the turns of the loop. -/
def readCodeSlow : Nat -> Rx Byte
  | 0 => failure
  | fuel + 1 => do
      if !(← semTake) then return codeNone
      if (← deviceRead 0 1) = 1 then bufAt 0 else readCodeSlow fuel

def readCode (fuel : Nat) : Rx Byte := do
  if (← deviceRead 0 1) = 1 then bufAt 0 else readCodeSlow fuel

def readDataLoop (len : Nat) : Nat -> Nat -> Rx Nat
  | 0, _ => failure
  | fuel + 1, readlen => do
      let readlen := readlen + (← deviceRead (1 + readlen) (len - readlen))
      if readlen ≥ len then return readlen
      if ← semTake then readDataLoop len fuel readlen else return readlen

def readData (fuel len : Nat) : Rx Nat :=
  readDataLoop len fuel 0

/-- `(rt_uint16_t)(buf[i] << 8) | buf[i + 1]` -/
def recvCrc (i : Nat) : Rx (BitVec 16) := do
  let high ← bufAt i
  let low ← bufAt (i + 1)
  return (high.setWidth 16 <<< 8) ||| low.setWidth 16

/-- The loop that sends `C` until a packet starts; whether it did. -/
def handshakeLoop (fuel : Nat) : Nat -> Rx Bool
  | 0 => return false
  | left + 1 => do
      putchar codeC
      if (← readCode fuel) = codeSoh then return true
      handshakeLoop fuel left

/-- The lines that the handshake and the final exchange share: the rest of a packet of 128
bytes with number zero. -/
def readHeader (fuel : Nat) : Rx Err := do
  if (← readData fuel (sohPkgSz - 1)) ≠ sohPkgSz - 1 then return Err.dsz
  if (← bufAt 1) ≠ 0 ∨ (← bufAt 2) ≠ 0xff then return Err.seq
  if (← recvCrc (sohPkgSz - 2)) ≠ crc16 (← bufFrom 3 (sohPkgSz - 5)) then return Err.crc
  return Err.eok

def doHandshake (fuel : Nat) (cb : Callbacks) (tmSec : Int) : Rx Err := do
  setStage Stage.establishing
  if !(← handshakeLoop fuel (tmSec % 2 ^ 32).toNat) then return Err.tmo
  let err ← readHeader fuel
  if err ≠ Err.eok then return err
  if cb.onBegin then
    if (← callback) ≠ codeAck then return Err.can
  return Err.eok

/-- The error of `_rym_trans_data` and the code it leaves for its caller. -/
def transData (fuel : Nat) (cb : Callbacks) (dataSz : Nat) (code : Byte) :
    Rx (Err × Byte) := do
  let tsz := 2 + dataSz + 2
  if (← readData fuel tsz) ≠ tsz then return (Err.dsz, code)
  -- the sum is computed as an `int`
  if (← bufAt 1).toNat + (← bufAt 2).toNat ≠ 0xff then return (Err.seq, code)
  if (← get).stage = Stage.established ∧ (← bufAt 1) = 0 then return (Err.eok, codeNone)
  setStage Stage.transmitting
  if (← recvCrc (tsz - 1)) ≠ crc16 (← bufFrom 3 dataSz) then return (Err.crc, code)
  if cb.onData then
    return (Err.eok, ← onDataCall dataSz)
  return (Err.eok, codeAck)

def dataSize (code : Byte) : Option Nat :=
  if code = codeSoh then some 128 else if code = codeStx then some 1024 else none

def transLoop (cb : Callbacks) : Nat -> Rx Err
  | 0 => failure
  | fuel + 1 => do
      let code ← readCode fuel
      match dataSize code with
      | none => return if code = codeEot then Err.eok else Err.code
      | some dataSz =>
        let (err, code) ← transData fuel cb dataSz code
        if err ≠ Err.eok then return err
        if code = codeCan then
          (List.replicate endSessionSendCanNum codeCan).forM putchar
          return Err.can
        if code = codeAck then putchar codeAck
        transLoop cb fuel

def doTrans (fuel : Nat) (cb : Callbacks) : Rx Err := do
  putchar codeAck
  putchar codeC
  setStage Stage.established
  transLoop cb fuel

/-- `_rym_do_fin` after the callback. -/
def finExchange (fuel : Nat) : Rx Err := do
  putchar codeNak
  if (← readCode fuel) ≠ codeEot then return Err.code
  putchar codeAck
  putchar codeC
  if (← readCode fuel) ≠ codeSoh then return Err.code
  let err ← readHeader fuel
  if err ≠ Err.eok then return err
  setStage Stage.finished
  putchar codeAck
  return Err.eok

def doFin (fuel : Nat) (cb : Callbacks) : Rx Err := do
  setStage Stage.finishing
  if cb.onEnd then
    let _ ← callback
  finExchange fuel

def malloc : Rx Bool := fun c =>
  match c.events with
  | Event.malloc (some block) :: events => some (true, { c with buf := block, events })
  | Event.malloc none :: events => some (false, { c with events })
  | _ => none

def doRecv (fuel : Nat) (cb : Callbacks) (handshakeTimeout : Int) : Rx Err := do
  setStage Stage.none
  if !(← malloc) then return Err.enomem
  let err ← doHandshake fuel cb handshakeTimeout
  if err ≠ Err.eok then return err
  let err ← doTrans fuel cb
  if err ≠ Err.eok then return err
  doFin fuel cb

def deviceOpen : Rx Bool := fun c =>
  match c.events with
  | Event.opened ok :: events => some (ok, { c with events })
  | _ => none

def recvOnDevice (fuel : Nat) (cb : Callbacks) (handshakeTimeout : Int) : Rx Err := do
  if !(← deviceOpen) then return Err.device
  doRecv fuel cb handshakeTimeout

def Ctx.fresh (events : List Event) : Ctx :=
  ⟨Stage.none, [], events, [], [], []⟩

end RtThread.Utilities.Ymodem
