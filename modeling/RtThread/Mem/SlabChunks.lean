import RtThread.Library.Chain
import RtThread.Mem.Slab

/-!
# The chunks of a zone

A zone hands out the chunks of its unused tail first, and then those that came back,
from a chain.  So far handed out are the chunks up to `z_uindex`; those in the chain
and those in use are together exactly these.
-/

namespace RtThread.Mem

open Kernel Chain

namespace Slab

/-!
## Sizes
-/

def chunkSizeOf (zi : Nat) : Nat :=
  if zi < 16 then 8 * (zi + 1)
  else if zi < 24 then 16 * (zi - 7)
  else if zi < 32 then 32 * (zi - 15)
  else if zi < 40 then 64 * (zi - 23)
  else if zi < 48 then 128 * (zi - 31)
  else if zi < 56 then 256 * (zi - 39)
  else if zi < 64 then 512 * (zi - 47)
  else 1024 * (zi - 55)

/-- The rows of eight chunk sizes: the step between the sizes, and what is added to
their multiple of the step for the index. -/
def chunkRows : List (Nat × Nat) :=
  [(16, 7), (32, 15), (64, 23), (128, 31), (256, 39), (512, 47), (1024, 55)]

theorem chunkSizeOf_row : forall row, row ∈ chunkRows -> forall j, j < 17 -> 8 ≤ j ->
    chunkSizeOf (j + row.2) = row.1 * j := by
  decide

theorem roundUp_spec {n align : Nat} (halign : 0 < align) :
    exists j, roundUp n align = align * j ∧ n ≤ align * j ∧ align * j < n + align := by
  have hdiv := Nat.div_add_mod (n + (align - 1)) align
  have hmod := Nat.mod_lt (n + (align - 1)) halign
  refine ⟨(n + (align - 1)) / align, ?_, ?_, ?_⟩
  · unfold roundUp rtAlignDown
    omega
  · omega
  · omega

theorem zoneindex_row {bytes limit : Nat} (row : Nat × Nat) (hrow : row ∈ chunkRows)
    (hlimit : row.1 * 16 ≤ limit) (hlow : row.1 * 8 ≤ bytes) (hhigh : bytes < row.1 * 16) :
    roundUp bytes row.1 / row.1 + row.2 < nzones ∧ bytes ≤ roundUp bytes row.1 ∧
      roundUp bytes row.1 = chunkSizeOf (roundUp bytes row.1 / row.1 + row.2) ∧
      roundUp bytes row.1 ≤ limit := by
  have hpos : 0 < row.1 := by omega
  have hbase : row.2 ≤ 55 := by
    have hall : forall row, row ∈ chunkRows -> row.2 ≤ 55 := by decide
    exact hall row hrow
  rcases @roundUp_spec bytes row.1 hpos with ⟨j, heq, hle, hlt⟩
  have h8 : 8 ≤ j := Nat.le_of_mul_le_mul_left (Nat.le_trans hlow hle) hpos
  have h16 : j < 17 := by
    have hlt17 : row.1 * j < row.1 * 17 := by omega
    exact Nat.lt_of_mul_lt_mul_left hlt17
  have htop : row.1 * j ≤ row.1 * 16 := Nat.mul_le_mul_left row.1 (Nat.lt_succ_iff.mp h16)
  rw [heq, Nat.mul_div_cancel_left j hpos]
  refine ⟨?_, hle, (chunkSizeOf_row row hrow j h16 h8).symm, Nat.le_trans htop hlimit⟩
  unfold nzones
  omega

theorem zoneindex_spec {bytes limit : Nat} (hpos : 0 < bytes) (hlt : bytes < limit)
    (hlimit : limit = 8192 ∨ limit = 16384) :
    (zoneindex bytes).1 < nzones ∧ bytes ≤ (zoneindex bytes).2 ∧
      (zoneindex bytes).2 = chunkSizeOf (zoneindex bytes).1 ∧ (zoneindex bytes).2 ≤ limit := by
  generalize hz : zoneindex bytes = z
  unfold zoneindex at hz
  split_ifs at hz <;> subst hz
  · rcases @roundUp_spec bytes 8 (by decide) with ⟨j, heq, hle, hround⟩
    have hsize : chunkSizeOf (j - 1) = 8 * j := by
      unfold chunkSizeOf
      rw [if_pos (by omega)]
      omega
    show roundUp bytes 8 / 8 - 1 < 72 ∧ bytes ≤ roundUp bytes 8 ∧
      roundUp bytes 8 = chunkSizeOf (roundUp bytes 8 / 8 - 1) ∧ roundUp bytes 8 ≤ limit
    rw [heq, Nat.mul_div_cancel_left j (by decide), hsize]
    omega
  · exact zoneindex_row (16, 7) (by decide) (by omega) (by omega) (by omega)
  · exact zoneindex_row (32, 15) (by decide) (by omega) (by omega) (by omega)
  · exact zoneindex_row (64, 23) (by decide) (by omega) (by omega) (by omega)
  · exact zoneindex_row (128, 31) (by decide) (by omega) (by omega) (by omega)
  · exact zoneindex_row (256, 39) (by decide) (by omega) (by omega) (by omega)
  · exact zoneindex_row (512, 47) (by decide) (by omega) (by omega) (by omega)
  · exact zoneindex_row (1024, 55) (by decide) (by omega) (by omega) (by omega)
  · omega

theorem chunkOffset_spec {zoneSize size : Nat} (hpos : 0 < size) (hsize : 4 * size ≤ zoneSize)
    (hmin : zallocMinZoneSize ≤ zoneSize) :
    sizeofZone ≤ chunkOffset size ∧ chunkOffset size + 2 * size ≤ zoneSize := by
  have hmin : 32768 ≤ zoneSize := hmin
  have hmod : (36 + (size - 1)) % size ≤ size - 1 := by
    have hlt := Nat.mod_lt (36 + (size - 1)) hpos
    omega
  have hbig : 36 ≤ size -> (36 + (size - 1)) % size = 35 := by
    intro hge
    rw [show 36 + (size - 1) = 35 + size from by omega, Nat.add_mod_right,
      Nat.mod_eq_of_lt (by omega)]
  unfold chunkOffset roundUp rtAlignDown sizeofZone minChunkSize
  split_ifs
  · omega
  · omega

theorem chunkSizeOf_pos {zi : Nat} (hzi : zi < nzones) : 0 < chunkSizeOf zi := by
  unfold nzones at hzi
  unfold chunkSizeOf
  split_ifs <;> omega

/-!
## Free chunks and chunks in use
-/

def SlabZone.chunkAt (zone : SlabZone) (i : Nat) : Nat := zone.baseptr + i * zone.chunksize

/-- The header of the zone at `z`, with the chunks in its chain and those in use. -/
structure Chunked (zoneSize : Nat) (zone : SlabZone) (cNext : Nat -> Option Nat) (z : Nat)
    (chain used : List Nat) : Prop where
  index : zone.zoneindex < nzones
  size : zone.chunksize = chunkSizeOf zone.zoneindex
  many : 2 ≤ zone.nmax
  header : z + sizeofZone ≤ zone.baseptr
  room : zone.baseptr + zone.nmax * zone.chunksize ≤ z + zoneSize
  tail : zone.uindex < zone.nmax
  links : Linked cNext zone.freechunk chain
  chunks : (chain ++ used).Perm ((List.range (zone.uindex + 1)).map zone.chunkAt)
  count : zone.nfree = zone.nmax - 1 - zone.uindex + chain.length

section Chunked

variable {zoneSize z c d : Nat} {zone : SlabZone} {cNext cNext' : Nat -> Option Nat}
  {chain used used' : List Nat}

theorem Chunked.pos (hz : Chunked zoneSize zone cNext z chain used) : 0 < zone.chunksize := by
  rw [hz.size]
  exact chunkSizeOf_pos hz.index

theorem Chunked.perm (hz : Chunked zoneSize zone cNext z chain used)
    (hperm : used.Perm used') : Chunked zoneSize zone cNext z chain used' :=
  ⟨hz.index, hz.size, hz.many, hz.header, hz.room, hz.tail, hz.links,
    (hperm.symm.append_left chain).trans hz.chunks, hz.count⟩

theorem Chunked.relink (hz : Chunked zoneSize zone cNext z chain used) (next : Option Nat)
    (magic : Int) :
    Chunked zoneSize { zone with next := next, magic := magic } cNext z chain used :=
  ⟨hz.index, hz.size, hz.many, hz.header, hz.room, hz.tail, hz.links, hz.chunks, hz.count⟩

theorem Chunked.congr (hz : Chunked zoneSize zone cNext z chain used)
    (hsame : forall c, c ∈ chain -> cNext' c = cNext c) :
    Chunked zoneSize zone cNext' z chain used :=
  ⟨hz.index, hz.size, hz.many, hz.header, hz.room, hz.tail, hz.links.congr hsame, hz.chunks,
    hz.count⟩

theorem Chunked.mem (hz : Chunked zoneSize zone cNext z chain used) (hc : c ∈ chain ++ used) :
    exists i, i ≤ zone.uindex ∧ c = zone.chunkAt i := by
  rw [hz.chunks.mem_iff, List.mem_map] at hc
  rcases hc with ⟨i, hi, heq⟩
  exact ⟨i, Nat.lt_succ_iff.mp (List.mem_range.mp hi), heq.symm⟩

theorem Chunked.within (hz : Chunked zoneSize zone cNext z chain used) {i : Nat}
    (hi : i < zone.nmax) :
    z + sizeofZone ≤ zone.chunkAt i ∧ zone.chunkAt i + zone.chunksize ≤ z + zoneSize := by
  have hroom := hz.room
  have hheader := hz.header
  have hnext : (i + 1) * zone.chunksize ≤ zone.nmax * zone.chunksize :=
    Nat.mul_le_mul_right _ hi
  rw [Nat.add_mul, Nat.one_mul] at hnext
  unfold SlabZone.chunkAt
  omega

theorem Chunked.inside (hz : Chunked zoneSize zone cNext z chain used) (hc : c ∈ chain ++ used) :
    z + sizeofZone ≤ c ∧ c + zone.chunksize ≤ z + zoneSize := by
  rcases hz.mem hc with ⟨i, hi, rfl⟩
  exact hz.within (Nat.lt_of_le_of_lt hi hz.tail)

theorem Chunked.lt (hz : Chunked zoneSize zone cNext z chain used) (hc : c ∈ chain ++ used) :
    z ≤ c ∧ c < z + zoneSize := by
  have hin := hz.inside hc
  have hpos := hz.pos
  omega

theorem chunkAt_injective (hpos : 0 < zone.chunksize) : Function.Injective zone.chunkAt := by
  intro i j heq
  unfold SlabZone.chunkAt at heq
  exact Nat.eq_of_mul_eq_mul_right hpos (Nat.add_left_cancel heq)

theorem Chunked.nodup (hz : Chunked zoneSize zone cNext z chain used) : (chain ++ used).Nodup := by
  rw [hz.chunks.nodup_iff]
  exact List.nodup_range.map (chunkAt_injective hz.pos)

theorem Chunked.apart (hz : Chunked zoneSize zone cNext z chain used)
    (hc : c ∈ chain ++ used) (hd : d ∈ chain ++ used) (hne : c ≠ d) :
    c + zone.chunksize ≤ d ∨ d + zone.chunksize ≤ c := by
  rcases hz.mem hc with ⟨i, _, rfl⟩
  rcases hz.mem hd with ⟨j, _, rfl⟩
  unfold SlabZone.chunkAt at *
  rcases Nat.lt_trichotomy i j with hlt | rfl | hlt
  · have hstep := Nat.mul_le_mul_right zone.chunksize (Nat.succ_le_of_lt hlt)
    rw [Nat.succ_mul] at hstep
    omega
  · exact absurd rfl hne
  · have hstep := Nat.mul_le_mul_right zone.chunksize (Nat.succ_le_of_lt hlt)
    rw [Nat.succ_mul] at hstep
    omega

theorem Chunked.nfree_add (hz : Chunked zoneSize zone cNext z chain used) :
    zone.nfree + used.length = zone.nmax := by
  have hlen := hz.chunks.length_eq
  have hcount := hz.count
  have htail := hz.tail
  rw [List.length_append, List.length_map, List.length_range] at hlen
  omega

/-!
## Handing out and taking back
-/

theorem chunked_init {zi size : Nat} {next : Option Nat} (hzi : zi < nzones)
    (hsize : size = chunkSizeOf zi) (hfit : 4 * size ≤ zoneSize)
    (hmin : zallocMinZoneSize ≤ zoneSize) :
    Chunked zoneSize
      { magic := zallocSlabMagic
        nfree := (zoneSize - chunkOffset size) / size - 1
        nmax := (zoneSize - chunkOffset size) / size
        next := next
        baseptr := z + chunkOffset size
        uindex := 0
        chunksize := size
        zoneindex := zi
        freechunk := none } cNext z [] [z + chunkOffset size] := by
  have hpos : 0 < size := hsize ▸ chunkSizeOf_pos hzi
  have hoff := chunkOffset_spec hpos hfit hmin
  have hmany : 2 ≤ (zoneSize - chunkOffset size) / size := by
    rw [Nat.le_div_iff_mul_le hpos]
    omega
  have hroom := Nat.div_mul_le_self (zoneSize - chunkOffset size) size
  refine ⟨hzi, hsize, hmany, ?_, ?_, ?_, rfl, ?_, rfl⟩
  · show z + sizeofZone ≤ z + chunkOffset size
    omega
  · show z + chunkOffset size + (zoneSize - chunkOffset size) / size * size ≤ z + zoneSize
    omega
  · exact Nat.lt_of_lt_of_le Nat.zero_lt_two hmany
  · show [z + chunkOffset size].Perm [z + chunkOffset size + 0 * size]
    rw [Nat.zero_mul, Nat.add_zero]

theorem Chunked.take_tail (hz : Chunked zoneSize zone cNext z chain used)
    (htail : zone.uindex + 1 ≠ zone.nmax) (next : Option Nat) :
    Chunked zoneSize { zone with nfree := zone.nfree - 1, next := next, uindex := zone.uindex + 1 }
      cNext z chain (zone.chunkAt (zone.uindex + 1) :: used) := by
  have hlt := hz.tail
  have hcount := hz.count
  refine ⟨hz.index, hz.size, hz.many, hz.header, hz.room, ?_, hz.links, ?_, ?_⟩
  · show zone.uindex + 1 < zone.nmax
    omega
  · show (chain ++ zone.chunkAt (zone.uindex + 1) :: used).Perm
      ((List.range (zone.uindex + 1 + 1)).map zone.chunkAt)
    rw [List.range_succ, List.map_append]
    have hnew := (hz.chunks.cons (zone.chunkAt (zone.uindex + 1))).trans
      (List.perm_append_singleton _ _).symm
    exact List.perm_middle.trans hnew
  · show zone.nfree - 1 = zone.nmax - 1 - (zone.uindex + 1) + chain.length
    omega

theorem Chunked.take_chain (hz : Chunked zoneSize zone cNext z chain used)
    (htail : zone.uindex + 1 = zone.nmax) (hfree : zone.nfree ≠ 0) (next : Option Nat) :
    exists c rest, chain = c :: rest ∧ zone.freechunk = some c ∧ Chunked zoneSize
        { zone with nfree := zone.nfree - 1, next := next, freechunk := cNext c }
        cNext z rest (c :: used) := by
  have hcount := hz.count
  have hlinks := hz.links
  have hchunks := hz.chunks
  cases chain with
  | nil =>
    rw [List.length_nil] at hcount
    omega
  | cons c rest =>
    rcases hlinks with ⟨hhead, hrest⟩
    refine ⟨c, rest, rfl, hhead, hz.index, hz.size, hz.many, hz.header, hz.room, hz.tail,
      hrest, ?_, ?_⟩
    · exact List.perm_middle.trans hchunks
    · show zone.nfree - 1 = zone.nmax - 1 - zone.uindex + rest.length
      rw [List.length_cons] at hcount
      omega

theorem Chunked.give (hz : Chunked zoneSize zone cNext z chain used)
    (hused : used.Perm (c :: used')) (next : Option Nat) :
    Chunked zoneSize { zone with next := next, freechunk := some c, nfree := zone.nfree + 1 }
      (Function.update cNext c zone.freechunk) z (c :: chain) used' := by
  have hcount := hz.count
  have hc : c ∈ used := hused.mem_iff.mpr List.mem_cons_self
  have hnotin : c ∉ chain := fun hin => (List.nodup_append.mp hz.nodup).2.2 c hin c hc rfl
  refine ⟨hz.index, hz.size, hz.many, hz.header, hz.room, hz.tail, hz.links.push hnotin, ?_, ?_⟩
  · have hback : (c :: chain ++ used').Perm (chain ++ used) :=
      List.perm_middle.symm.trans (hused.symm.append_left chain)
    exact hback.trans hz.chunks
  · show zone.nfree + 1 = zone.nmax - 1 - zone.uindex + (c :: chain).length
    rw [List.length_cons]
    omega

end Chunked

end Slab
end RtThread.Mem
