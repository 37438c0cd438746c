import RtThread.Library.Circular
import RtThread.Library.Transition
import Mathlib.Data.UInt

/-!
# The ring between two sides of the bus

The steps that `_bus_out_entry` and `_bus_in_entry` take on a ring.  The bytes of a packet are
written one at a time in any order; an index is seen by the other side at any time after it
was updated, so that the data written before is there by then.
-/

namespace RtThread.Vbus

open Circular

/-- `sizeof(struct rt_vbus_blk)` -/
def blkSize : Nat := 64

def blkHeadSz : Nat := 4

def maxPktSz : Nat := 252

/-- `struct rt_vbus_pkg` with the bytes it points to. -/
structure Pkg where
  id : UInt8
  prio : UInt8
  data : List UInt8
  nonempty : 0 < data.length
  short : data.length ≤ maxPktSz
deriving DecidableEq, Repr

def len2bnr (len : Nat) : Nat := (len + blkHeadSz + blkSize - 1) / blkSize

/-- Where `_bus_out_entry` is. -/
inductive Writer where
  | idle
  | waiting (pkg : Pkg)
  | writing (pkg : Pkg) (todo : List (Nat × UInt8))

/-- `_bus_in_entry` is at the test of the loop, in front of a packet, with its length, with
its head, copying it, or about to drop it. -/
inductive Reader where
  | idle
  | found
  | sized (size : Nat)
  | headed (id : UInt8) (size : Nat)
  | copying (id : UInt8) (size : Nat) (got : List UInt8)
  | dropping (id : UInt8) (size : Nat) (ok : Bool)

/-- `struct rt_vbus_ring`, the index of either side as the other side sees it, and both
threads. -/
structure Ring where
  blks : Nat -> UInt8
  putIdx : Nat
  getIdx : Nat
  putSeen : Nat
  getSeen : Nat
  writer : Writer
  reader : Reader

/-- A packet as the reader took it off the ring, and whether its channel took it. -/
structure Taken where
  id : UInt8
  size : Nat
  accepted : Bool
  bytes : Option (List UInt8)

/-- The packets that were put into the ring and those that were taken off it. -/
structure Traffic where
  sent : List Pkg
  received : List Taken

/-- `accept` says whether the channel is connected and there is memory for the packet. -/
inductive RingAct where
  | take (pkg : Pkg)
  | space
  | write (k : Nat)
  | publish
  | seeGet
  | seePut
  | check
  | readLen
  | readId
  | accept (ok : Bool)
  | copy
  | release

/-!
## Operations
-/

def busRingSpaceNr (nr : Nat) (getIdx putIdx : Nat) : Int :=
  let delta : Int := (getIdx : Int) - putIdx
  if delta > 0 then delta - 1 else nr + delta - 1

/-- `_ring_add_get_bnr`, and the update of `put_idx`. -/
def addBnr (nr idx bnr : Nat) : Nat :=
  if nr ≤ idx + bnr then idx + bnr - nr else idx + bnr

def tailsz (nr idx len : Nat) : Nat := min ((nr - idx) * blkSize - blkHeadSz) len

/-- What `_bus_out_entry` writes for a packet at `put_idx`. -/
def writes (nr putIdx : Nat) (pkg : Pkg) : List (Nat × UInt8) :=
  let base := putIdx * blkSize
  [(base, pkg.id), (base + 1, pkg.prio), (base + 2, UInt8.ofNat pkg.data.length)] ++
    if nr ≤ putIdx + len2bnr pkg.data.length then
      copyTo (base + blkHeadSz) (pkg.data.take (tailsz nr putIdx pkg.data.length)) ++
        copyTo 0 (pkg.data.drop (tailsz nr putIdx pkg.data.length))
    else copyTo (base + blkHeadSz) pkg.data

/-- Where `_bus_in_entry` reads a byte of the packet at `get_idx`; a packet of channel 0 is
read in place. -/
def readAddr (nr getIdx : Nat) (id : UInt8) (size i : Nat) : Nat :=
  if id ≠ 0 ∧ nr ≤ getIdx + len2bnr size then
    if i < tailsz nr getIdx size then getIdx * blkSize + blkHeadSz + i
    else i - tailsz nr getIdx size
  else getIdx * blkSize + blkHeadSz + i

def ringStep (nr : Nat) (s : Ring) : RingAct -> Option Ring
  | RingAct.take pkg =>
    match s.writer with
    | Writer.idle => some { s with writer := Writer.waiting pkg }
    | _ => none
  | RingAct.space =>
    match s.writer with
    | Writer.waiting pkg =>
      if busRingSpaceNr nr s.getSeen s.putIdx < len2bnr pkg.data.length then some s
      else some { s with writer := Writer.writing pkg (writes nr s.putIdx pkg) }
    | _ => none
  | RingAct.write k =>
    match s.writer with
    | Writer.writing pkg todo =>
      todo[k]?.map fun c =>
        { s with
          blks := Function.update s.blks c.1 c.2
          writer := Writer.writing pkg (todo.eraseIdx k) }
    | _ => none
  | RingAct.publish =>
    match s.writer with
    | Writer.writing pkg [] =>
      some { s with
        putIdx := addBnr nr s.putIdx (len2bnr pkg.data.length)
        writer := Writer.idle }
    | _ => none
  | RingAct.seeGet => some { s with getSeen := s.getIdx }
  | RingAct.seePut => some { s with putSeen := s.putIdx }
  | RingAct.check =>
    match s.reader with
    | Reader.idle =>
      if s.getIdx ≠ s.putSeen then some { s with reader := Reader.found } else some s
    | _ => none
  | RingAct.readLen =>
    match s.reader with
    | Reader.found =>
      some { s with
        reader := Reader.sized (s.blks (s.getIdx * blkSize + 2)).toNat }
    | _ => none
  | RingAct.readId =>
    match s.reader with
    | Reader.sized size =>
      some { s with reader := Reader.headed (s.blks (s.getIdx * blkSize)) size }
    | _ => none
  | RingAct.accept ok =>
    match s.reader with
    | Reader.headed id size =>
      if ok ∧ ¬ (id = 0 ∧ size > 60) then some { s with reader := Reader.copying id size [] }
      else some { s with reader := Reader.dropping id size ok }
    | _ => none
  | RingAct.copy =>
    match s.reader with
    | Reader.copying id size got =>
      if got.length < size then
        some { s with
          reader := Reader.copying id size
            (got ++ [s.blks (readAddr nr s.getIdx id size got.length)]) }
      else none
    | _ => none
  | RingAct.release =>
    match s.reader with
    | Reader.copying _ size got =>
      if got.length < size then none
      else some { s with
        getIdx := addBnr nr s.getIdx (len2bnr size)
        reader := Reader.idle }
    | Reader.dropping _ size _ =>
      some { s with
        getIdx := addBnr nr s.getIdx (len2bnr size)
        reader := Reader.idle }
    | _ => none

def traffic (s : Ring) (a : RingAct) (_ : Ring) (h : Traffic) : Traffic :=
  match a with
  | RingAct.publish =>
    match s.writer with
    | Writer.writing pkg _ => { h with sent := h.sent ++ [pkg] }
    | _ => h
  | RingAct.release =>
    match s.reader with
    | Reader.copying id size got =>
      { h with received := h.received ++ [⟨id, size, true, some got⟩] }
    | Reader.dropping id size ok =>
      { h with received := h.received ++ [⟨id, size, ok, none⟩] }
    | _ => h
  | _ => h

def ringInit : Ring :=
  { blks := fun _ => 0
    putIdx := 0
    getIdx := 0
    putSeen := 0
    getSeen := 0
    writer := Writer.idle
    reader := Reader.idle }

end RtThread.Vbus
