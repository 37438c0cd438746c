import RtThread.Vbus.Ring
import Mathlib.Data.List.Forall2
import Mathlib.Tactic.Ring

/-!
# Packets cross the ring intact

Blocks are counted on without end: the packets in the ring lie one behind the other from the
block that the reader has reached to the one that the writer has reached, which is less than
one round ahead of the block that the writer sees released.
-/

namespace RtThread.Vbus

open Circular Transition

variable {nr B i : Nat} {p : Pkg} {mem : Nat -> UInt8}

/-!
## Packets in blocks
-/

def Pkg.bnr (p : Pkg) : Nat := len2bnr p.data.length

/-- The bytes of a packet from a block on, except the one that is not written. -/
def Pkg.cells (B : Nat) (p : Pkg) : List (Nat × UInt8) :=
  [(B * blkSize, p.id), (B * blkSize + 1, p.prio),
    (B * blkSize + 2, UInt8.ofNat p.data.length)] ++ copyTo (B * blkSize + blkHeadSz) p.data

def blocks (q : List Pkg) : Nat := (q.map Pkg.bnr).sum

def Laid (nr : Nat) (mem : Nat -> UInt8) : Nat -> List Pkg -> Prop
  | _, [] => True
  | B, p :: q => Holds (nr * blkSize) mem (p.cells B) ∧ Laid nr mem (B + p.bnr) q

theorem Pkg.bnr_spec (p : Pkg) :
    0 < p.bnr ∧ p.data.length + 4 ≤ p.bnr * 64 ∧ p.bnr * 64 ≤ p.data.length + 67 := by
  have hpos := p.nonempty
  unfold Pkg.bnr len2bnr blkHeadSz blkSize
  omega

theorem blocks_append (q q' : List Pkg) : blocks (q ++ q') = blocks q + blocks q' := by
  simp [blocks]

theorem blocks_cons (p : Pkg) (q : List Pkg) : blocks (p :: q) = p.bnr + blocks q := by
  simp [blocks]

theorem pos_mod {k : Nat} (hnr : 0 < nr) (hk : k < 64) :
    (B * blkSize + k) % (nr * blkSize) = B % nr * blkSize + k := by
  have hlt := Nat.mod_lt B hnr
  have hround : B * blkSize + k = nr * blkSize * (B / nr) + (B % nr * blkSize + k) := by
    have hB := Nat.div_add_mod B nr
    calc B * blkSize + k = (nr * (B / nr) + B % nr) * blkSize + k := by rw [hB]
      _ = nr * blkSize * (B / nr) + (B % nr * blkSize + k) := by ring
  rw [hround, Nat.mul_add_mod, Nat.mod_eq_of_lt]
  unfold blkSize
  omega

theorem Pkg.cells_within (B : Nat) (p : Pkg) :
    Within (B * blkSize) ((B + p.bnr) * blkSize) (p.cells B) := by
  have hspec := p.bnr_spec
  intro c hc
  unfold Pkg.cells at hc
  unfold blkSize blkHeadSz at *
  simp only [List.cons_append, List.nil_append, List.mem_cons] at hc
  rcases hc with rfl | rfl | rfl | hc
  · simp only
    omega
  · simp only
    omega
  · simp only
    omega
  · have hin := within_copyTo _ _ c hc
    omega

theorem Pkg.mem_cells_iff {c : Nat × UInt8} :
    c ∈ p.cells B <-> c = (B * blkSize, p.id) ∨ c = (B * blkSize + 1, p.prio) ∨
      c = (B * blkSize + 2, UInt8.ofNat p.data.length) ∨
      (B * blkSize + blkHeadSz ≤ c.1 ∧ p.data[c.1 - (B * blkSize + blkHeadSz)]? =
        some c.2) := by
  rw [Pkg.cells, ← mem_copyTo_iff]
  simp only [List.cons_append, List.nil_append, List.mem_cons]

theorem Pkg.cells_unique {c c' : Nat × UInt8} (hc : c ∈ p.cells B) (hc' : c' ∈ p.cells B)
    (heq : c.1 = c'.1) : c = c' := by
  obtain ⟨a, v⟩ := c
  obtain ⟨a', v'⟩ := c'
  simp only at heq
  subst heq
  rw [Pkg.mem_cells_iff] at hc hc'
  refine Prod.ext rfl ?_
  simp only [Prod.mk.injEq, blkHeadSz] at hc hc' ⊢
  rcases hc with ⟨h, hv⟩ | ⟨h, hv⟩ | ⟨h, hv⟩ | ⟨h, hv⟩ <;>
    rcases hc' with ⟨h', hv'⟩ | ⟨h', hv'⟩ | ⟨h', hv'⟩ | ⟨h', hv'⟩ <;>
    first
    | omega
    | exact hv.trans hv'.symm
    | exact Option.some.inj (hv.symm.trans hv')

def placed (nr : Nat) (cells : List (Nat × UInt8)) : List (Nat × UInt8) :=
  cells.map fun c => (c.1 % (nr * blkSize), c.2)

theorem tailsz_spec (hidx : i < nr) (len : Nat) (hlen : len + 4 ≤ nr * 64) :
    tailsz nr i len ≤ len ∧ i * 64 + 4 + tailsz nr i len ≤ nr * 64 ∧
      (tailsz nr i len < len -> i * 64 + 4 + tailsz nr i len = nr * 64) ∧
      len - tailsz nr i len ≤ nr * 64 := by
  have hmul : (nr - i) * 64 = nr * 64 - i * 64 := Nat.sub_mul nr i 64
  unfold tailsz blkSize blkHeadSz
  omega

theorem writes_eq (hnr : 0 < nr) (hroom : p.bnr ≤ nr) :
    writes nr (B % nr) p = placed nr (p.cells B) := by
  have hspec := p.bnr_spec
  have hlt := Nat.mod_lt B hnr
  have hhead : forall k v, k < 64 ->
      (B % nr * blkSize + k, v) = ((B * blkSize + k) % (nr * blkSize), (v : UInt8)) := by
    intro k v hk
    rw [pos_mod hnr hk]
  have hbase := @pos_mod nr B 4 hnr (by omega)
  unfold writes placed Pkg.cells
  simp only [List.map_append, List.map_cons, List.map_nil]
  have hzero := hhead 0 p.id (by omega)
  rw [Nat.add_zero, Nat.add_zero] at hzero
  rw [← hzero, ← hhead 1 p.prio (by omega), ← hhead 2 _ (by omega)]
  congr 1
  split
  · next hwrap =>
      obtain ⟨htail, hfit, hfull, hrest⟩ := tailsz_spec hlt p.data.length (by omega)
      generalize htz : tailsz nr (B % nr) p.data.length = t at *
      have hsplit : copyTo (B * blkSize + blkHeadSz) p.data =
          copyTo (B * blkSize + blkHeadSz) (p.data.take t) ++
            copyTo (B * blkSize + blkHeadSz + t) (p.data.drop t) := by
        conv_lhs => rw [← List.take_append_drop t p.data]
        rw [copyTo_append, List.length_take, Nat.min_eq_left htail]
      rw [hsplit, List.map_append]
      congr 1
      · rw [copyTo_mod]
        · unfold blkHeadSz
          rw [hbase]
        · unfold blkHeadSz
          rw [hbase, List.length_take, Nat.min_eq_left htail]
          exact hfit
      · rcases Nat.lt_or_eq_of_le htail with hlong | hall
        · have hstart : (B * blkSize + blkHeadSz + t) % (nr * blkSize) = 0 := by
            rw [Nat.add_mod, show B * blkSize + blkHeadSz = B * blkSize + 4 from rfl, hbase]
            rw [Nat.add_mod_mod, show B % nr * blkSize + 4 + t = nr * blkSize from hfull hlong]
            exact Nat.mod_self _
          rw [copyTo_mod, hstart]
          rw [hstart, List.length_drop, Nat.zero_add]
          exact hrest
        · rw [hall, List.drop_length]
          rfl
  · next hinside =>
      rw [copyTo_mod]
      · unfold blkHeadSz
        rw [hbase]
      · unfold blkHeadSz
        rw [hbase]
        unfold Pkg.bnr at hspec
        unfold blkSize
        omega

theorem readAddr_eq (hnr : 0 < nr) (hroom : p.bnr ≤ nr) (hi : i < p.data.length)
    (hsmall : p.id = 0 -> p.data.length ≤ 60) :
    readAddr nr (B % nr) p.id p.data.length i = (B * blkSize + blkHeadSz + i) % (nr * blkSize) := by
  have hspec := p.bnr_spec
  have hlt := Nat.mod_lt B hnr
  have hbase := @pos_mod nr B 4 hnr (by omega)
  have hmod : (B * blkSize + blkHeadSz + i) % (nr * blkSize) =
      (B % nr * 64 + 4 + i) % (nr * 64) := by
    rw [Nat.add_mod, show B * blkSize + blkHeadSz = B * blkSize + 4 from rfl, hbase,
      Nat.add_mod_mod]
    rfl
  rw [hmod]
  unfold readAddr
  split
  · obtain ⟨htail, hfit, hfull, hrest⟩ := tailsz_spec hlt p.data.length (by omega)
    generalize htz : tailsz nr (B % nr) p.data.length = t at *
    split
    · next hin =>
        exact (Nat.mod_eq_of_lt (show B % nr * 64 + 4 + i < nr * 64 by omega)).symm
    · next hout =>
        have hend := hfull (by omega)
        rw [Nat.mod_eq_sub_mod (show nr * 64 ≤ B % nr * 64 + 4 + i by omega),
          Nat.mod_eq_of_lt (show B % nr * 64 + 4 + i - nr * 64 < nr * 64 by omega)]
        omega
  · next hinside =>
      have hin : B % nr * 64 + 4 + i < nr * 64 := by
        by_cases hid : p.id = 0
        · have hle := hsmall hid
          omega
        · have hlast : ¬ nr ≤ B % nr + len2bnr p.data.length := fun h => hinside ⟨hid, h⟩
          unfold Pkg.bnr at hspec
          omega
      exact (Nat.mod_eq_of_lt hin).symm

theorem space_eq {Gs P : Nat} (hnr : 0 < nr) (hle : Gs ≤ P) (hlt : P < Gs + nr) :
    busRingSpaceNr nr (Gs % nr) (P % nr) = ((nr - 1 - (P - Gs) : Nat) : Int) := by
  have hgs := Nat.mod_lt Gs hnr
  have hput : P % nr = (Gs % nr + (P - Gs)) % nr := by
    rw [Nat.mod_add_mod, Nat.add_sub_cancel' hle]
  have hwrap := @wrap_eq_mod nr (P - Gs) (Gs % nr) hgs (by omega)
  rw [hput, ← hwrap]
  unfold busRingSpaceNr
  simp only
  split <;> split <;> omega

theorem addBnr_eq {n : Nat} (hnr : 0 < nr) (hn : n ≤ nr) :
    addBnr nr (B % nr) n = (B + n) % nr := by
  rw [addBnr, wrap_eq_mod (Nat.mod_lt B hnr) hn, Nat.mod_add_mod]

/-!
## The invariant
-/

/-- A packet taken off the ring is the one that was put into it; it is taken without its
bytes only where the channel does not take it. -/
structure Carries (t : Taken) (p : Pkg) : Prop where
  id : t.id = p.id
  size : t.size = p.data.length
  bytes : forall b, t.bytes = some b -> b = p.data
  dropped : t.bytes = none -> t.accepted = false ∨ (t.id = 0 ∧ t.size > 60)

/-- What the writer has still to write, beside what is written. -/
def WriterOk (nr : Nat) (mem : Nat -> UInt8) (Gs P : Nat) : Writer -> Prop
  | Writer.writing p todo =>
    P + p.bnr < Gs + nr ∧ (forall c, c ∈ todo -> c ∈ placed nr (p.cells P)) ∧
      forall c, c ∈ placed nr (p.cells P) -> c ∈ todo ∨ mem c.1 = c.2
  | _ => True

def ReaderOk (p : Pkg) : Reader -> Prop
  | Reader.idle => True
  | Reader.found => True
  | Reader.sized size => size = p.data.length
  | Reader.headed id size => id = p.id ∧ size = p.data.length
  | Reader.copying id size got => id = p.id ∧ size = p.data.length ∧
      (p.id = 0 -> p.data.length ≤ 60) ∧ got = p.data.take got.length
  | Reader.dropping id size ok => id = p.id ∧ size = p.data.length ∧
      (ok = false ∨ (p.id = 0 ∧ p.data.length > 60))

/-- The blocks that the reader has reached and that the writer sees released, the packets
that the reader sees, and those behind them. -/
structure Inv (nr : Nat) (s : Ring) (h : Traffic) (G Gs : Nat) (seen rest : List Pkg) : Prop where
  get : s.getIdx = G % nr
  put : s.putIdx = (G + blocks (seen ++ rest)) % nr
  getSeen : s.getSeen = Gs % nr
  putSeen : s.putSeen = (G + blocks seen) % nr
  behind : Gs ≤ G
  room : G + blocks (seen ++ rest) < Gs + nr
  laid : Laid nr s.blks G (seen ++ rest)
  traffic : exists done, h.sent = done ++ (seen ++ rest) ∧ List.Forall₂ Carries h.received done
  writer : WriterOk nr s.blks Gs (G + blocks (seen ++ rest)) s.writer
  reader : s.reader = Reader.idle ∨ exists p more, seen = p :: more ∧ ReaderOk p s.reader

section Steps

variable {s s' : Ring} {h : Traffic} {G Gs : Nat} {seen rest : List Pkg}

theorem Laid.append {q q' : List Pkg} (hq : Laid nr mem B q)
    (hq' : Laid nr mem (B + blocks q) q') : Laid nr mem B (q ++ q') := by
  induction q generalizing B with
  | nil => exact hq'
  | cons p q ih =>
    refine ⟨hq.1, ih hq.2 ?_⟩
    rw [blocks_cons, ← Nat.add_assoc] at hq'
    exact hq'

theorem Laid.update {q : List Pkg} {a lo : Nat} {v : UInt8} (hq : Laid nr mem B q)
    (hlo : lo * blkSize ≤ B * blkSize) (ha : (B + blocks q) * blkSize ≤ a)
    (ha' : a < lo * blkSize + nr * blkSize) :
    Laid nr (Function.update mem (a % (nr * blkSize)) v) B q := by
  induction q generalizing B with
  | nil => trivial
  | cons p q ih =>
    rw [blocks_cons, ← Nat.add_assoc] at ha
    have hgrow : (B + p.bnr) * blkSize ≤ (B + p.bnr + blocks q) * blkSize :=
      Nat.mul_le_mul_right _ (Nat.le_add_right _ _)
    have hin := p.cells_within B
    refine ⟨@Holds.update _ _ (lo * blkSize) a mem _ v hq.1 ?_ ?_ ha' ?_, ih hq.2 ?_ ha⟩
    · intro c hc
      have hc := hin c hc
      omega
    · have hmono : B * blkSize ≤ (B + p.bnr) * blkSize :=
        Nat.mul_le_mul_right _ (Nat.le_add_right _ _)
      omega
    · intro c hc
      have hc := hin c hc
      omega
    · exact hlo.trans (Nat.mul_le_mul_right _ (Nat.le_add_right _ _))

theorem Inv.take (hi : Inv nr s h G Gs seen rest) (pkg : Pkg) :
    Inv nr { s with writer := Writer.waiting pkg } h G Gs seen rest :=
  ⟨hi.get, hi.put, hi.getSeen, hi.putSeen, hi.behind, hi.room, hi.laid, hi.traffic, trivial,
    hi.reader⟩

theorem Inv.space (hnr : 0 < nr) (hi : Inv nr s h G Gs seen rest)
    (hroom : ¬ busRingSpaceNr nr s.getSeen s.putIdx < len2bnr p.data.length) :
    Inv nr { s with writer := Writer.writing p (writes nr s.putIdx p) } h G Gs seen rest := by
  have hbehind := hi.behind
  have hlt := hi.room
  rw [hi.getSeen, hi.put, space_eq hnr (by omega) hlt, Int.ofNat_lt] at hroom
  have hfit : p.bnr ≤ nr - 1 - (G + blocks (seen ++ rest) - Gs) := Nat.le_of_not_lt hroom
  refine ⟨hi.get, hi.put, hi.getSeen, hi.putSeen, hi.behind, hi.room, hi.laid, hi.traffic, ?_,
    hi.reader⟩
  have hwrites : writes nr s.putIdx p = placed nr (p.cells (G + blocks (seen ++ rest))) := by
    rw [hi.put, writes_eq hnr (by omega)]
  rw [hwrites]
  exact ⟨by omega, fun c hc => hc, fun c hc => Or.inl hc⟩

theorem Inv.write {todo : List (Nat × UInt8)} {c : Nat × UInt8} {k : Nat}
    (hi : Inv nr s h G Gs seen rest) (hw : s.writer = Writer.writing p todo)
    (hk : todo[k]? = some c) :
    Inv nr { s with blks := Function.update s.blks c.1 c.2,
                    writer := Writer.writing p (todo.eraseIdx k) } h G Gs seen rest := by
  have hwriter := hi.writer
  rw [hw] at hwriter
  obtain ⟨hroom, hsub, hdone⟩ := hwriter
  obtain ⟨c0, hc0, rfl⟩ := List.mem_map.mp (hsub c (List.mem_of_getElem? hk))
  have hin := p.cells_within (G + blocks (seen ++ rest))
  have hc0in := hin c0 hc0
  have hbehind := hi.behind
  have hend : (G + blocks (seen ++ rest) + p.bnr) * blkSize ≤ G * blkSize + nr * blkSize := by
    rw [← Nat.add_mul]
    exact Nat.mul_le_mul_right _ (by omega)
  have hstart : G * blkSize ≤ (G + blocks (seen ++ rest)) * blkSize :=
    Nat.mul_le_mul_right _ (Nat.le_add_right _ _)
  refine ⟨hi.get, hi.put, hi.getSeen, hi.putSeen, hi.behind, hi.room,
    hi.laid.update (Nat.le_refl _) hc0in.1 (by omega), hi.traffic, ?_, hi.reader⟩
  refine ⟨hroom, fun c hc => hsub c (List.mem_of_mem_eraseIdx hc), ?_⟩
  intro c hc
  obtain ⟨c1, hc1, rfl⟩ := List.mem_map.mp hc
  have hc1in := hin c1 hc1
  by_cases hsame : c1.1 % (nr * blkSize) = c0.1 % (nr * blkSize)
  · -- the byte that was just written
    right
    have heq : c1 = c0 := by
      refine Pkg.cells_unique hc1 hc0 (@pos_eq_of_mod_eq _ (G * blkSize) _ _ ?_ ?_ ?_ ?_ hsame) <;>
        omega
    rw [heq]
    exact Function.update_self _ _ _
  · rcases hdone _ hc with htodo | hmem
    · left
      obtain ⟨j, hj⟩ := List.getElem?_of_mem htodo
      refine List.mem_eraseIdx_iff_getElem?.mpr ⟨j, ?_, hj⟩
      rintro rfl
      rw [hk] at hj
      exact hsame (congrArg Prod.fst (Option.some.inj hj)).symm
    · right
      simp only
      rw [Function.update_of_ne hsame]
      exact hmem

theorem Inv.publish (hnr : 0 < nr) (hi : Inv nr s h G Gs seen rest)
    (hw : s.writer = Writer.writing p []) :
    Inv nr { s with putIdx := addBnr nr s.putIdx (len2bnr p.data.length),
                    writer := Writer.idle }
      { h with sent := h.sent ++ [p] } G Gs seen (rest ++ [p]) := by
  have hwriter := hi.writer
  rw [hw] at hwriter
  obtain ⟨hroom, _, hdone⟩ := hwriter
  have hbehind := hi.behind
  have hblocks : blocks (seen ++ (rest ++ [p])) = blocks (seen ++ rest) + p.bnr := by
    rw [← List.append_assoc, blocks_append, blocks_cons]
    rfl
  have hholds : Holds (nr * blkSize) s.blks (p.cells (G + blocks (seen ++ rest))) := by
    intro c hc
    rcases hdone _ (List.mem_map.mpr ⟨c, hc, rfl⟩) with htodo | hmem
    · cases htodo
    · exact hmem
  refine ⟨hi.get, ?_, hi.getSeen, hi.putSeen, hi.behind, ?_, ?_, ?_, trivial, hi.reader⟩
  · show addBnr nr s.putIdx p.bnr = _
    rw [hi.put, addBnr_eq hnr (by omega), hblocks, Nat.add_assoc]
  · rw [hblocks]
    omega
  · rw [← List.append_assoc]
    exact hi.laid.append ⟨hholds, trivial⟩
  · obtain ⟨done, hsent, hreceived⟩ := hi.traffic
    refine ⟨done, ?_, hreceived⟩
    show h.sent ++ [p] = _
    rw [hsent]
    simp only [List.append_assoc]

theorem Inv.seeGet (hi : Inv nr s h G Gs seen rest) :
    Inv nr { s with getSeen := s.getIdx } h G G seen rest := by
  have hbehind := hi.behind
  have hroom := hi.room
  refine ⟨hi.get, hi.put, hi.get, hi.putSeen, Nat.le_refl _, by omega, hi.laid, hi.traffic, ?_,
    hi.reader⟩
  have hwriter := hi.writer
  show WriterOk nr s.blks G _ s.writer
  cases hw : s.writer with
  | idle => trivial
  | waiting pkg => trivial
  | writing pkg todo =>
    rw [hw] at hwriter
    exact ⟨by have h := hwriter.1; omega, hwriter.2⟩

theorem Inv.seePut (hi : Inv nr s h G Gs seen rest) :
    Inv nr { s with putSeen := s.putIdx } h G Gs (seen ++ rest) [] := by
  have hnil : seen ++ rest ++ [] = seen ++ rest := List.append_nil _
  refine ⟨hi.get, ?_, hi.getSeen, hi.put, hi.behind, ?_, ?_, ?_, ?_, ?_⟩
  · rw [hnil]
    exact hi.put
  · rw [hnil]
    exact hi.room
  · rw [hnil]
    exact hi.laid
  · rw [hnil]
    exact hi.traffic
  · rw [hnil]
    exact hi.writer
  rcases hi.reader with hidle | ⟨p, more, rfl, hp⟩
  · exact Or.inl hidle
  · exact Or.inr ⟨p, more ++ rest, rfl, hp⟩

variable {more : List Pkg}

theorem Inv.setReader {r : Reader} (hi : Inv nr s h G Gs (p :: more) rest)
    (hr : ReaderOk p r) : Inv nr { s with reader := r } h G Gs (p :: more) rest :=
  ⟨hi.get, hi.put, hi.getSeen, hi.putSeen, hi.behind, hi.room, hi.laid, hi.traffic, hi.writer,
    Or.inr ⟨p, more, rfl, hr⟩⟩

theorem Inv.found (hi : Inv nr s h G Gs seen rest) (hne : s.getIdx ≠ s.putSeen) :
    exists p more, seen = p :: more := by
  cases seen with
  | nil =>
    refine absurd ?_ hne
    rw [hi.get, hi.putSeen]
    rfl
  | cons p more => exact ⟨p, more, rfl⟩

theorem Inv.first_fits (hi : Inv nr s h G Gs (p :: more) rest) : p.bnr ≤ nr := by
  have hroom := hi.room
  have hbehind := hi.behind
  rw [List.cons_append, blocks_cons] at hroom
  omega

theorem Inv.readLen (hnr : 0 < nr) (hi : Inv nr s h G Gs (p :: more) rest) :
    (s.blks (s.getIdx * blkSize + 2)).toNat = p.data.length := by
  have hcell := hi.laid.1 _ (Pkg.mem_cells_iff.mpr (Or.inr (Or.inr (Or.inl rfl))))
  rw [pos_mod hnr (by decide)] at hcell
  have hshort := p.short
  unfold maxPktSz at hshort
  rw [hi.get, hcell, UInt8.toNat_ofNat_of_lt' (by
    show p.data.length < 256
    omega)]

theorem Inv.readId (hnr : 0 < nr) (hi : Inv nr s h G Gs (p :: more) rest) :
    s.blks (s.getIdx * blkSize) = p.id := by
  have hcell := hi.laid.1 _ (Pkg.mem_cells_iff.mpr (Or.inl rfl))
  have hmod := @pos_mod nr G 0 hnr (by decide)
  rw [Nat.add_zero, Nat.add_zero] at hmod
  rw [hmod] at hcell
  rw [hi.get]
  exact hcell

theorem Inv.readByte {k : Nat} (hnr : 0 < nr)
    (hi : Inv nr s h G Gs (p :: more) rest) (hsmall : p.id = 0 -> p.data.length ≤ 60)
    (hk : k < p.data.length) :
    p.data[k]? = some (s.blks (readAddr nr s.getIdx p.id p.data.length k)) := by
  rw [hi.get, readAddr_eq hnr hi.first_fits hk hsmall]
  have hget : p.data[k]? = some p.data[k] := List.getElem?_eq_getElem hk
  have hcell := hi.laid.1 (G * blkSize + blkHeadSz + k, p.data[k])
    (Pkg.mem_cells_iff.mpr (Or.inr (Or.inr (Or.inr ⟨Nat.le_add_right _ _, by
      rw [Nat.add_sub_cancel_left]
      exact hget⟩))))
  rw [hget]
  exact congrArg some hcell.symm

theorem Inv.release {t : Taken} (hnr : 0 < nr)
    (hi : Inv nr s h G Gs (p :: more) rest) (ht : Carries t p) :
    Inv nr { s with getIdx := addBnr nr s.getIdx (len2bnr p.data.length),
                    reader := Reader.idle }
      { h with received := h.received ++ [t] } (G + p.bnr) Gs more rest := by
  have hblocks : G + p.bnr + blocks (more ++ rest) = G + blocks (p :: more ++ rest) := by
    rw [List.cons_append, blocks_cons, Nat.add_assoc]
  refine ⟨?_, ?_, hi.getSeen, ?_, ?_, ?_, hi.laid.2, ?_, ?_, Or.inl rfl⟩
  · show addBnr nr s.getIdx p.bnr = _
    rw [hi.get, addBnr_eq hnr hi.first_fits]
  · rw [hblocks]
    exact hi.put
  · show s.putSeen = _
    rw [hi.putSeen, blocks_cons, Nat.add_assoc]
  · exact Nat.le_add_right_of_le hi.behind
  · rw [hblocks]
    exact hi.room
  · obtain ⟨done, hsent, hreceived⟩ := hi.traffic
    refine ⟨done ++ [p], ?_, ?_⟩
    · show h.sent = _
      rw [hsent]
      simp only [List.append_assoc, List.cons_append, List.nil_append]
    · exact List.rel_append hreceived (List.Forall₂.cons ht List.Forall₂.nil)
  · rw [hblocks]
    exact hi.writer

theorem Inv.step {a : RingAct} (hnr : 0 < nr) (hi : Inv nr s h G Gs seen rest)
    (hs : ringStep nr s a = some s') :
    exists G' Gs' seen' rest', Inv nr s' (Vbus.traffic s a s' h) G' Gs' seen' rest' := by
  cases a with
  | take pkg =>
    rw [ringStep] at hs
    split at hs
    · cases hs
      exact ⟨G, Gs, seen, rest, hi.take pkg⟩
    · cases hs
  | space =>
    rw [ringStep] at hs
    split at hs
    · split at hs
      · cases hs
        exact ⟨G, Gs, seen, rest, hi⟩
      · next hroom =>
          cases hs
          exact ⟨G, Gs, seen, rest, hi.space hnr hroom⟩
    · cases hs
  | write k =>
    rw [ringStep] at hs
    split at hs
    · next pkg todo hw =>
        rw [Option.map_eq_some_iff] at hs
        obtain ⟨c, hk, rfl⟩ := hs
        exact ⟨G, Gs, seen, rest, hi.write hw hk⟩
    · cases hs
  | publish =>
    rw [ringStep] at hs
    split at hs
    · next pkg hw =>
        cases hs
        refine ⟨G, Gs, seen, rest ++ [pkg], ?_⟩
        rw [Vbus.traffic, hw]
        exact hi.publish hnr hw
    · cases hs
  | seeGet =>
    cases hs
    exact ⟨G, G, seen, rest, hi.seeGet⟩
  | seePut =>
    cases hs
    exact ⟨G, Gs, seen ++ rest, [], hi.seePut⟩
  | check =>
    rw [ringStep] at hs
    split at hs
    · split at hs
      · next hne =>
          cases hs
          obtain ⟨p, more, rfl⟩ := hi.found hne
          exact ⟨G, Gs, _, rest, hi.setReader trivial⟩
      · cases hs
        exact ⟨G, Gs, seen, rest, hi⟩
    · cases hs
  | readLen =>
    rw [ringStep] at hs
    split at hs
    · next hr =>
        cases hs
        obtain ⟨p, more, rfl, _⟩ := hi.reader.resolve_left (by rw [hr]; nofun)
        exact ⟨G, Gs, _, rest, hi.setReader (hi.readLen hnr)⟩
    · cases hs
  | readId =>
    rw [ringStep] at hs
    split at hs
    · next size hr =>
        cases hs
        obtain ⟨p, more, rfl, hp⟩ := hi.reader.resolve_left (by rw [hr]; nofun)
        rw [hr] at hp
        exact ⟨G, Gs, _, rest, hi.setReader ⟨hi.readId hnr, hp⟩⟩
    · cases hs
  | accept ok =>
    rw [ringStep] at hs
    split at hs
    · next id size hr =>
        obtain ⟨p, more, rfl, hp⟩ := hi.reader.resolve_left (by rw [hr]; nofun)
        rw [hr] at hp
        obtain ⟨rfl, rfl⟩ := hp
        split at hs
        · next hok =>
            cases hs
            refine ⟨G, Gs, _, rest, hi.setReader ⟨rfl, rfl, fun hid => ?_, rfl⟩⟩
            exact Nat.le_of_not_lt fun hbig => hok.2 ⟨hid, hbig⟩
        · next hno =>
            cases hs
            refine ⟨G, Gs, _, rest, hi.setReader ⟨rfl, rfl, ?_⟩⟩
            cases ok with
            | false => exact Or.inl rfl
            | true => exact Or.inr (not_not.mp fun h => hno ⟨rfl, h⟩)
    · cases hs
  | copy =>
    rw [ringStep] at hs
    split at hs
    · next id size got hr =>
        obtain ⟨p, more, rfl, hp⟩ := hi.reader.resolve_left (by rw [hr]; nofun)
        rw [hr] at hp
        obtain ⟨rfl, rfl, hsmall, hgot⟩ := hp
        split at hs
        · next hlt =>
            cases hs
            refine ⟨G, Gs, _, rest, hi.setReader ⟨rfl, rfl, hsmall, ?_⟩⟩
            have hbyte := hi.readByte hnr hsmall hlt
            rw [List.length_append, List.length_singleton, List.take_add_one, hbyte, ← hgot]
            rfl
        · cases hs
    · cases hs
  | release =>
    rw [ringStep] at hs
    split at hs
    · next id size got hr =>
        obtain ⟨p, more, rfl, hp⟩ := hi.reader.resolve_left (by rw [hr]; nofun)
        rw [hr] at hp
        obtain ⟨rfl, rfl, _, hgot⟩ := hp
        split at hs
        · cases hs
        · next hall =>
            cases hs
            rw [Vbus.traffic, hr]
            refine ⟨_, Gs, more, rest, hi.release hnr ⟨rfl, rfl, ?_, nofun⟩⟩
            intro b hb
            rw [← Option.some.inj hb, hgot, List.take_of_length_le (Nat.le_of_not_lt hall)]
    · next id size ok hr =>
        obtain ⟨p, more, rfl, hp⟩ := hi.reader.resolve_left (by rw [hr]; nofun)
        rw [hr] at hp
        obtain ⟨rfl, rfl, hdrop⟩ := hp
        cases hs
        rw [Vbus.traffic, hr]
        exact ⟨_, Gs, more, rest, hi.release hnr ⟨rfl, rfl, nofun, fun _ => hdrop⟩⟩
    · cases hs

end Steps

/-!
## Runs
-/

/-- The blocks between the indices, which the reader has not released. -/
def unreleased (nr : Nat) (s : Ring) : List Nat :=
  (List.range ((s.putIdx + nr - s.getIdx) % nr)).map fun i => (s.getIdx + i) % nr

theorem Inv.occupied {s : Ring} {h : Traffic} {G Gs : Nat} {seen rest : List Pkg}
    (hi : Inv nr s h G Gs seen rest) :
    (s.putIdx + nr - s.getIdx) % nr = blocks (seen ++ rest) := by
  have hroom := hi.room
  have hbehind := hi.behind
  have hnr : 0 < nr := by omega
  have hg := Nat.mod_lt G hnr
  have hput : s.putIdx = (G % nr + blocks (seen ++ rest)) % nr := by
    rw [hi.put, Nat.mod_add_mod]
  have hwrap := @wrap_eq_mod nr (blocks (seen ++ rest)) (G % nr) hg (by omega)
  rw [hi.get, hput, ← hwrap]
  split
  · rw [Nat.mod_eq_of_lt (by omega)]
    omega
  · next hlt =>
      rw [show G % nr + blocks (seen ++ rest) + nr - G % nr = blocks (seen ++ rest) + nr by omega,
        Nat.add_mod_right, Nat.mod_eq_of_lt (by omega)]

theorem Inv.write_apart {s : Ring} {h : Traffic} {G Gs : Nat} {seen rest : List Pkg}
    {todo : List (Nat × UInt8)} {c : Nat × UInt8} (hi : Inv nr s h G Gs seen rest)
    (hw : s.writer = Writer.writing p todo) (hc : c ∈ todo) :
    c.1 / blkSize ∉ unreleased nr s := by
  intro hin
  unfold unreleased at hin
  rw [hi.occupied] at hin
  obtain ⟨i, hi', heq⟩ := List.mem_map.mp hin
  have hilt := List.mem_range.mp hi'
  have hwriter := hi.writer
  rw [hw] at hwriter
  obtain ⟨hroom, hsub, _⟩ := hwriter
  obtain ⟨c0, hc0, rfl⟩ := List.mem_map.mp (hsub c hc)
  have hc0in := p.cells_within _ c0 hc0
  have hbehind := hi.behind
  -- the block of the byte, counted without end
  have hblock : c0.1 % (nr * blkSize) / blkSize = c0.1 / blkSize % nr := by
    rw [Nat.mul_comm nr]
    exact Nat.mod_mul_right_div_self c0.1 blkSize nr
  rw [hi.get, Nat.mod_add_mod] at heq
  simp only at heq
  rw [hblock] at heq
  unfold blkSize at hc0in heq
  have hsame := @pos_eq_of_mod_eq nr G (G + i) (c0.1 / 64) (by omega) (by omega) (by omega)
    (by omega) heq
  omega

/-- Whatever the order of the steps of writer and reader: the packets taken off the ring are
those put into it, in order, each with its channel, length and bytes; the writer writes to
no block that the reader has not released; the indices stay inside the ring, and are equal
only when every packet has been taken off. -/
theorem ring_transports_intact (hnr : 0 < nr) {acts : List RingAct} {x : Ring × Traffic}
    (hrun : Run (Graph (watched (ringStep nr) traffic)) (ringInit, ⟨[], []⟩) acts x) :
    List.Forall₂ Carries x.2.received (x.2.sent.take x.2.received.length) ∧
    x.2.received.length ≤ x.2.sent.length ∧
    (forall p todo c, x.1.writer = Writer.writing p todo -> c ∈ todo ->
      c.1 / blkSize ∉ unreleased nr x.1) ∧
    x.1.putIdx < nr ∧ x.1.getIdx < nr ∧
    (x.1.putIdx = x.1.getIdx <-> x.2.received.length = x.2.sent.length) := by
  have hinv : exists G Gs seen rest, Inv nr x.1 x.2 G Gs seen rest := by
    refine hrun.watched_invariant (fun s h => exists G Gs seen rest, Inv nr s h G Gs seen rest)
      ⟨0, 0, [], [], ?_⟩ ?_
    · exact ⟨(Nat.zero_mod nr).symm, (Nat.zero_mod nr).symm, (Nat.zero_mod nr).symm,
        (Nat.zero_mod nr).symm, Nat.le_refl _, (Nat.zero_add nr).symm ▸ hnr, trivial,
        ⟨[], rfl, List.Forall₂.nil⟩, trivial, Or.inl rfl⟩
    · rintro s h a s' ⟨G, Gs, seen, rest, hi⟩ hs
      exact hi.step hnr hs
  obtain ⟨G, Gs, seen, rest, hi⟩ := hinv
  obtain ⟨done, hsent, hreceived⟩ := hi.traffic
  have hlength := hreceived.length_eq
  refine ⟨?_, ?_, fun p todo c hw hc => hi.write_apart hw hc, ?_, ?_, ?_⟩
  · rw [hsent, hlength, List.take_left']
    · exact hreceived
    · rfl
  · rw [hsent, hlength, List.length_append]
    omega
  · rw [hi.put]
    exact Nat.mod_lt _ hnr
  · rw [hi.get]
    exact Nat.mod_lt _ hnr
  · have hocc := hi.occupied
    have hempty : blocks (seen ++ rest) = 0 <-> seen ++ rest = [] := by
      cases seen ++ rest with
      | nil => exact ⟨fun _ => rfl, fun _ => rfl⟩
      | cons p q =>
        have hp := p.bnr_spec
        rw [blocks_cons]
        refine ⟨fun h => ?_, nofun⟩
        omega
    have hcount : x.2.received.length = x.2.sent.length <-> seen ++ rest = [] := by
      rw [hsent, hlength, List.length_append, ← List.length_eq_zero_iff]
      omega
    have hput : x.1.putIdx < nr := hi.put ▸ Nat.mod_lt _ hnr
    have hget : x.1.getIdx < nr := hi.get ▸ Nat.mod_lt _ hnr
    rw [hcount, ← hempty, ← hocc]
    constructor
    · intro heq
      rw [heq, Nat.add_sub_cancel_left, Nat.mod_self]
    · intro hzero
      rcases Nat.lt_or_ge x.1.putIdx x.1.getIdx with hlt | hle
      · rw [Nat.mod_eq_of_lt (by omega)] at hzero
        omega
      · rw [show x.1.putIdx + nr - x.1.getIdx = x.1.putIdx - x.1.getIdx + nr by omega,
          Nat.add_mod_right, Nat.mod_eq_of_lt (by omega)] at hzero
        omega

/-- The writer puts a packet into the ring, and the reader takes it off. -/
def transfer (pkg : Pkg) : List RingAct :=
  [RingAct.take pkg, RingAct.space] ++ List.replicate (pkg.data.length + 3) (RingAct.write 0) ++
    [RingAct.publish, RingAct.seePut, RingAct.check, RingAct.readLen, RingAct.readId,
      RingAct.accept true] ++ List.replicate pkg.data.length RingAct.copy ++
    [RingAct.release, RingAct.seeGet]

def twoBlocks (id : UInt8) : Pkg :=
  ⟨id, 0, (List.range 61).map UInt8.ofNat, by decide, by decide⟩

def threePackets : List RingAct :=
  [3, 5, 4].flatMap fun id => transfer (twoBlocks id)

/-- In a ring of three blocks three packets of two blocks arrive; the second goes on behind
the last block, and the third starts there. -/
theorem ring_transports_three_packets :
    exists x, exec (watched (ringStep 3) traffic) (ringInit, ⟨[], []⟩) threePackets = some x ∧
      x.1.getIdx = 0 ∧ x.2.received.length = 3 ∧
      List.Forall₂ Carries x.2.received (x.2.sent.take x.2.received.length) := by
  have hlength : (exec (watched (ringStep 3) traffic) (ringInit, ⟨[], []⟩) threePackets).map
      (fun x => (x.1.getIdx, x.2.received.length)) = some (0, 3) := by decide +kernel
  obtain ⟨x, hx, hthree⟩ := Option.map_eq_some_iff.1 hlength
  rw [Prod.mk.injEq] at hthree
  have hpos : 0 < 3 := by decide
  exact ⟨x, hx, hthree.1, hthree.2, (ring_transports_intact hpos (run_of_exec hx)).1⟩

end RtThread.Vbus
