import Mathlib.Data.List.TakeWhile
import Mathlib.Data.UInt
import Mathlib.Logic.Function.Basic

/-!
# One side of the bus

The tables of `vbus.c`, the commands of channel 0 and the calls that open and close a
channel.  Every access to a table of channels or sessions checks its index, so that a run
that would leave a table stops there.  Flow control is configured.
-/

namespace RtThread.Vbus

def channelNr : Nat := 32

def sessNr : Nat := channelNr / 2

inductive ChnStatus where
  | available
  | closed
  | establishing
  | established
  | suspend
  | closing
  deriving DecidableEq, Repr

/-- `enum _vbus_session_st` -/
inductive SessSt where
  | available
  | listening
  | establishing
  deriving DecidableEq, Repr

/-- `RT_VBUS_CHN_NAME_MAX`: "max length of a channel name, including the \0". -/
def chnNameMax : Nat := 16

structure Name where
  bytes : List UInt8
  nul : 0 ∉ bytes
  short : bytes.length < chnNameMax

instance : DecidableEq Name := fun a b =>
  decidable_of_iff (a.bytes = b.bytes)
    ⟨fun h => by cases a; cases b; cases h; rfl, congrArg Name.bytes⟩

structure Request where
  name : Name
  isServer : Bool
  deriving DecidableEq

/-- `struct rt_vbus_conn_session`; `cmp` says whether its completion is done. -/
structure Sess where
  chnr : Int
  st : SessSt
  cmp : Bool
  req : Option Request
  deriving DecidableEq

/-- The tables, the packets posted on channel 0 that the other side has not read, and as
histories the request that completed last on a channel, and whether a `DISABLE` of this side
is not acknowledged yet. -/
structure Endpoint where
  chnStatus : Nat -> ChnStatus
  sess : Nat -> Sess
  out : List (List UInt8)
  completed : Nat -> Option Request
  unanswered : Nat -> Bool

/-- The tables that are indexed by a channel or a session. -/
inductive Table where
  | chnStatus
  | busInAction
  | vbusRxIndi
  | sess
  | chnRecvWm
  | chnSuspendedThreads
  deriving DecidableEq, Repr

def Table.size : Table -> Nat
  | Table.sess => sessNr
  | _ => channelNr

/-- Why a part of the bus does not go on: an index outside its table, a failed assertion, a
copy of `(size_t)-1` bytes, or a post that waits for channel 0. -/
inductive Stop where
  | outOfRange (t : Table) (i : Int)
  | assertion
  | overrun
  | blocked
  deriving DecidableEq, Repr

abbrev Act := StateT Endpoint (Except Stop)

/-!
## Access to the tables
-/

def access (t : Table) (i : Int) : Act Unit :=
  if 0 ≤ i ∧ i < t.size then pure () else throw (Stop.outOfRange t i)

def assert (p : Prop) [Decidable p] : Act Unit :=
  if p then pure () else throw Stop.assertion

def getStatus (i : Int) : Act ChnStatus := do
  access Table.chnStatus i
  return (← get).chnStatus i.toNat

def setStatus (i : Int) (st : ChnStatus) : Act Unit := do
  access Table.chnStatus i
  modify fun e => { e with chnStatus := Function.update e.chnStatus i.toNat st }

def getSess (i : Nat) : Act Sess := do
  access Table.sess i
  return (← get).sess i

def modifySess (i : Nat) (f : Sess -> Sess) : Act Unit := do
  access Table.sess i
  modify fun e => { e with sess := Function.update e.sess i (f (e.sess i)) }

def isConnected (st : ChnStatus) : Bool :=
  st = ChnStatus.established ∨ st = ChnStatus.suspend

def chnConnected (chnr : Int) : Act Bool := do
  return isConnected (← getStatus chnr)

/-- The first index of a loop `for (i = 0; i < nr; i++)` at which a test holds; `nr` if there
is none. -/
def firstFrom (test : Nat -> Act Bool) : Nat -> Nat -> Act Nat
  | 0, i => return i
  | left + 1, i => do
      if ← test i then return i
      firstFrom test left (i + 1)

/-!
## Channel 0
-/

def cmdEnable : UInt8 := 0
def cmdDisable : UInt8 := 1
def cmdSet : UInt8 := 2
def cmdAck : UInt8 := 3
def cmdNak : UInt8 := 4
def cmdSuspend : UInt8 := 5
def cmdResume : UInt8 := 6

/-- `_chn0_post`, waiting for ever: whether the packet was posted. -/
def chn0Post (data : List UInt8) : Act Bool := do
  match ← getStatus 0 with
  | ChnStatus.established =>
    modify fun e => { e with out := e.out ++ [data] }
    return true
  | ChnStatus.suspend => throw Stop.blocked
  | _ => return false

/-- `_chn0_echo_with`; `mem` says whether there is memory for the answer. -/
def chn0EchoWith (mem : Bool) (cmd : UInt8) (dsize : Nat) (dp : List UInt8) : Act Bool :=
  if mem then chn0Post (cmd :: dp.take dsize) else return false

def chn0Nak (mem : Bool) : Nat -> List UInt8 -> Act Bool := chn0EchoWith mem cmdNak

def chn0Ack (mem : Bool) : Nat -> List UInt8 -> Act Bool := chn0EchoWith mem cmdAck

def vbusIndicate (chnr : Int) : Act Unit := access Table.vbusRxIndi chnr

def notifyChn (chnr : Int) : Act Unit := access Table.chnSuspendedThreads chnr

/-- `rt_vbus_set_recv_wm` and `rt_vbus_set_post_wm` -/
def setWm (chnr : Int) : Act Unit := do
  assert (0 < chnr ∧ chnr < channelNr)
  access Table.chnRecvWm chnr

def cstr (dp : List UInt8) : List UInt8 := dp.takeWhile fun b => b ≠ 0

def byteAt (dp : List UInt8) (i : Nat) : Nat := (dp.getD i 0).toNat

/-- A session is in a state, for a service; a session in use has a request. -/
def Sess.matches (s : Sess) (name : List UInt8) (st : SessSt) : Bool :=
  s.st = st ∧ s.req.map (fun req => req.name.bytes) = some name

def sessFind (name : List UInt8) (st : SessSt) : Act Nat :=
  firstFrom (fun i => return (← getSess i).matches name st) sessNr 0

/-- `rt_completion_done(&_sess[i].cmp)` for a session that got a channel. -/
def completeSess (i chnr : Nat) : Act Unit := do
  modifySess i fun s => { s with cmp := true }
  modify fun e => { e with completed := Function.update e.completed chnr (e.sess i).req }

def onEnable (mem : Bool) (dp : List UInt8) (dsize : Nat) : Act Unit := do
  let i ← sessFind (cstr (dp.drop 1)) SessSt.listening
  if i = sessNr then
    let _ ← chn0Nak mem dsize dp
    return
  let chnr ← firstFrom (fun i => return (← getStatus i) = ChnStatus.available) channelNr 0
  if chnr = channelNr then
    let _ ← chn0Nak mem dsize dp
    return
  if !mem then return
  -- `rt_memcpy(resp+1, dp+1, dsize-1)`
  if dsize = 0 then throw Stop.overrun
  else
    setWm chnr
    if ← chn0Post (cmdSet :: ((dp.drop 1).take (dsize - 1) ++ [UInt8.ofNat chnr])) then
      modifySess i fun s => { s with st := SessSt.establishing, chnr := chnr }
      setStatus chnr ChnStatus.establishing

def onSet (mem : Bool) (dp : List UInt8) (dsize : Nat) : Act Unit := do
  let name := cstr (dp.drop 1)
  let i ← sessFind name SessSt.establishing
  if i = sessNr then return
  let chnr := byteAt dp (1 + name.length + 1)
  if chnr = 0 ∨ channelNr ≤ chnr then return
  if (← getStatus chnr) ≠ ChnStatus.available then
    let _ ← chn0Nak mem dsize dp
    return
  setWm chnr
  if ← chn0Ack mem dsize dp then
    modifySess i fun s => { s with chnr := chnr }
    setStatus chnr ChnStatus.established
    completeSess i chnr

def onAckSet (dp : List UInt8) : Act Unit := do
  let name := cstr (dp.drop 2)
  let i ← sessFind name SessSt.establishing
  if i = sessNr then return
  let chnr := byteAt dp (1 + name.length + 2)
  modifySess i fun s => { s with chnr := chnr }
  setStatus chnr ChnStatus.established
  completeSess i chnr

def onAckDisable (chnr : Nat) : Act Unit := do
  if chnr = 0 ∨ channelNr ≤ chnr then return
  setStatus chnr ChnStatus.available
  modify fun e => { e with unanswered := Function.update e.unanswered chnr false }
  vbusIndicate chnr
  notifyChn chnr

def onDisable (mem : Bool) (dp : List UInt8) (dsize chnr : Nat) : Act Unit := do
  if chnr = 0 ∨ channelNr ≤ chnr then return
  setStatus chnr ChnStatus.closing
  let _ ← chn0Ack mem dsize dp
  vbusIndicate chnr
  notifyChn chnr

def onSuspend (chnr : Nat) : Act Unit := do
  if chnr = 0 ∨ channelNr ≤ chnr then return
  if (← getStatus chnr) ≠ ChnStatus.established then return
  setStatus chnr ChnStatus.suspend

def onResume (chnr : Nat) : Act Unit := do
  if chnr = 0 ∨ channelNr ≤ chnr then return
  if (← getStatus chnr) ≠ ChnStatus.suspend then return
  setStatus chnr ChnStatus.established
  access Table.chnSuspendedThreads chnr

/-- `-RT_EIO` -/
def eio : Int := -8

def onNakEnable (dp : List UInt8) : Act Unit := do
  let i ← sessFind (cstr (dp.drop 2)) SessSt.establishing
  if i = sessNr then return
  modifySess i fun s => { s with chnr := eio, cmp := true }

/-- `_chn0_actor`: the bytes from `dp` on are those of the packet and what lies behind. -/
def chn0Actor (mem : Bool) (dp : List UInt8) (dsize : Nat) : Act Unit :=
  let cmd := dp.getD 0 0
  let sub := dp.getD 1 0
  if cmd = cmdEnable then onEnable mem dp dsize
  else if cmd = cmdSet then onSet mem dp dsize
  else if cmd = cmdAck then
    if sub = cmdSet then onAckSet dp
    else if sub = cmdDisable then onAckDisable (byteAt dp 2)
    else return
  else if cmd = cmdDisable then onDisable mem dp dsize (byteAt dp 1)
  else if cmd = cmdSuspend then onSuspend (byteAt dp 1)
  else if cmd = cmdResume then onResume (byteAt dp 1)
  else if cmd = cmdNak then
    if sub = cmdEnable then onNakEnable dp else return
  else return

/-!
## The in thread
-/

/-- A packet at the head of the incoming ring: its block and the bytes from its data on.
`mem` is the answer of the allocator, `warn` whether the level passes the mark at which the
other side is warned. -/
structure Incoming where
  id : UInt8
  size : UInt8
  dp : List UInt8
  mem : Bool
  warn : Bool

def dataPush (id : Nat) (warn : Bool) : Act Unit := do
  assert (0 < id ∧ id < channelNr)
  access Table.busInAction id
  access Table.chnRecvWm id
  if warn then
    let _ ← chn0Post [cmdSuspend, UInt8.ofNat id]
    access Table.chnRecvWm id

/-- One turn of the loop of `_bus_in_entry`. -/
def busIn (p : Incoming) : Act Unit := do
  if channelNr < p.id.toNat then return
  if !(← chnConnected p.id.toNat) then return
  if p.id = 0 then
    if 60 < p.size.toNat then return
    chn0Actor p.mem p.dp p.size.toNat
  else
    if !p.mem then return
    dataPush p.id.toNat p.warn
    vbusIndicate p.id.toNat

/-- `_bus_in_entry` on the packets it finds; other threads may change the tables before each
of them. -/
def busInEntry (turns : List ((Endpoint -> Endpoint) × Incoming)) : Act Unit :=
  turns.forM fun turn => do
    modify turn.1
    busIn turn.2

/-!
## Calls
-/

def requestFail (i : Nat) : Act Unit := do
  let s ← getSess i
  if s.st = SessSt.establishing then
    setStatus s.chnr ChnStatus.available
  modifySess i fun s => { s with st := SessSt.available, req := none }

/-- `rt_vbus_request_chn` up to the wait. -/
def requestChn (mem : Bool) (req : Request) : Act Unit := do
  let i ← firstFrom (fun i => return (← getSess i).st = SessSt.available) sessNr 0
  if i = sessNr then return
  modifySess i fun s => { s with cmp := false, req := some req }
  if req.isServer then
    modifySess i fun s => { s with st := SessSt.listening }
  else if mem then
    modifySess i fun s => { s with st := SessSt.establishing }
    if !(← chn0Post (cmdEnable :: (req.name.bytes ++ [0]))) then requestFail i

def requestDone (i : Nat) : Act Unit := do
  assert ((← getSess i).chnr ≠ 0)
  modifySess i fun s => { s with st := SessSt.available, req := none }

/-- `rt_vbus_close_chn`; the wait for the answer ends at once, since the channel is not
connected any more. -/
def closeChn (chnr : Nat) : Act Unit := do
  assert (0 < chnr ∧ chnr < channelNr)
  let st ← getStatus chnr
  if st = ChnStatus.closed ∨ st = ChnStatus.closing then
    setStatus chnr ChnStatus.available
  else if isConnected st then
    setStatus chnr ChnStatus.closing
    if ← chn0Post [cmdDisable, UInt8.ofNat chnr] then
      modify fun e => { e with unanswered := Function.update e.unanswered chnr true }

def Endpoint.init : Endpoint where
  chnStatus n := if n = 0 then ChnStatus.established else ChnStatus.available
  sess _ := ⟨0, SessSt.available, false, none⟩
  out := []
  completed _ := none
  unanswered _ := false

end RtThread.Vbus
