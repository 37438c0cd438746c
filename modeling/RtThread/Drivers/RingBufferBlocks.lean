import RtThread.Drivers.RingBuffer

/-!
# Blocks of bytes in the ring buffer

Moving an index by a number of bytes wraps around at most once and then flips the
mirror bit.  All functions are moves of the two indices, beside what they copy, so that
a block operation is the same as one operation for each byte.
-/

namespace RtThread.Drivers

open RingBuffer
open Function (update update_of_ne update_self)

variable {rb : RtRingbuffer} {q : List UInt8}

/-!
# Moving the indices
-/

def RtRingbuffer.advanceWrite (rb : RtRingbuffer) (n : Nat) : RtRingbuffer :=
  if rb.writeIndex + n < rb.bufferSize then { rb with writeIndex := rb.writeIndex + n }
  else
    { rb with
      writeMirror := !rb.writeMirror
      writeIndex := rb.writeIndex + n - rb.bufferSize }

def RtRingbuffer.advanceRead (rb : RtRingbuffer) (n : Nat) : RtRingbuffer :=
  if rb.readIndex + n < rb.bufferSize then { rb with readIndex := rb.readIndex + n }
  else
    { rb with
      readMirror := !rb.readMirror
      readIndex := rb.readIndex + n - rb.bufferSize }

@[simp] theorem advanceWrite_bufferPtr (n : Nat) :
    (rb.advanceWrite n).bufferPtr = rb.bufferPtr := by
  unfold RtRingbuffer.advanceWrite
  split <;> rfl

@[simp] theorem advanceWrite_bufferSize (n : Nat) :
    (rb.advanceWrite n).bufferSize = rb.bufferSize := by
  unfold RtRingbuffer.advanceWrite
  split <;> rfl

@[simp] theorem advanceWrite_readIndex (n : Nat) :
    (rb.advanceWrite n).readIndex = rb.readIndex := by
  unfold RtRingbuffer.advanceWrite
  split <;> rfl

@[simp] theorem advanceRead_bufferPtr (n : Nat) : (rb.advanceRead n).bufferPtr = rb.bufferPtr := by
  unfold RtRingbuffer.advanceRead
  split <;> rfl

@[simp] theorem advanceRead_bufferSize (n : Nat) :
    (rb.advanceRead n).bufferSize = rb.bufferSize := by
  unfold RtRingbuffer.advanceRead
  split <;> rfl

@[simp] theorem advanceRead_writeIndex (n : Nat) :
    (rb.advanceRead n).writeIndex = rb.writeIndex := by
  unfold RtRingbuffer.advanceRead
  split <;> rfl

theorem advanceRead_zero (hrb : rb.Wf) : rb.advanceRead 0 = rb := by
  unfold RtRingbuffer.advanceRead
  rw [if_pos (show rb.readIndex + 0 < rb.bufferSize from hrb.read)]
  rfl

theorem advanceWrite_zero (hrb : rb.Wf) : rb.advanceWrite 0 = rb := by
  unfold RtRingbuffer.advanceWrite
  rw [if_pos (show rb.writeIndex + 0 < rb.bufferSize from hrb.write)]
  rfl

theorem advanceRead_add (hrb : rb.Wf) {m n : Nat} (hfit : m + n ≤ rb.bufferSize) :
    (rb.advanceRead m).advanceRead n = rb.advanceRead (m + n) := by
  have hread := hrb.read
  unfold RtRingbuffer.advanceRead
  by_cases hm : rb.readIndex + m < rb.bufferSize
  · simp only [hm, if_true, Nat.add_assoc]
  · rw [if_neg hm, if_neg (show ¬ rb.readIndex + (m + n) < rb.bufferSize by omega)]
    simp only [show rb.readIndex + m - rb.bufferSize + n < rb.bufferSize by omega, if_true]
    congr 1
    omega

theorem advanceWrite_add (hrb : rb.Wf) {m n : Nat} (hfit : m + n ≤ rb.bufferSize) :
    (rb.advanceWrite m).advanceWrite n = rb.advanceWrite (m + n) := by
  have hwrite := hrb.write
  unfold RtRingbuffer.advanceWrite
  by_cases hm : rb.writeIndex + m < rb.bufferSize
  · simp only [hm, if_true, Nat.add_assoc]
  · rw [if_neg hm, if_neg (show ¬ rb.writeIndex + (m + n) < rb.bufferSize by omega)]
    simp only [show rb.writeIndex + m - rb.bufferSize + n < rb.bufferSize by omega, if_true]
    congr 1
    omega

theorem mirror_flip {a b : Bool} : a = !b <-> a ≠ b := by
  cases a <;> cases b <;> decide

theorem RtRingbuffer.Wf.advanceWrite (hrb : rb.Wf) {n : Nat}
    (hfit : rb.used + n ≤ rb.bufferSize) :
    (rb.advanceWrite n).Wf ∧ (rb.advanceWrite n).used = rb.used + n := by
  rcases hrb with ⟨hpos, hlt, hpool, hread, hwrite, hsame, hother⟩
  unfold RtRingbuffer.advanceWrite RtRingbuffer.used at *
  by_cases hm : rb.readMirror = rb.writeMirror
  · have hle := hsame hm
    rw [if_pos hm] at hfit
    by_cases hn : rb.writeIndex + n < rb.bufferSize
    · simp only [hn, if_true, if_pos hm]
      exact ⟨⟨hpos, hlt, hpool, hread, hn, fun _ => by simp only; omega,
        fun h => absurd hm h⟩, by omega⟩
    · have hne : ¬ rb.readMirror = !rb.writeMirror := by
        rw [hm]
        cases rb.writeMirror <;> decide
      simp only [hn, if_false, if_neg hne, if_pos hm]
      exact ⟨⟨hpos, hlt, hpool, hread, by simp only; omega, fun h => absurd h hne,
        fun _ => by simp only; omega⟩, by omega⟩
  · have hle := hother hm
    rw [if_neg hm] at hfit
    have hn : rb.writeIndex + n < rb.bufferSize := by omega
    simp only [hn, if_true, if_neg hm]
    exact ⟨⟨hpos, hlt, hpool, hread, hn, fun h => absurd h hm,
      fun _ => by simp only; omega⟩, by omega⟩

theorem RtRingbuffer.Wf.advanceRead (hrb : rb.Wf) {n : Nat} (hfit : n ≤ rb.used) :
    (rb.advanceRead n).Wf ∧ (rb.advanceRead n).used = rb.used - n := by
  rcases hrb with ⟨hpos, hlt, hpool, hread, hwrite, hsame, hother⟩
  unfold RtRingbuffer.advanceRead RtRingbuffer.used at *
  by_cases hm : rb.readMirror = rb.writeMirror
  · have hle := hsame hm
    rw [if_pos hm] at hfit
    have hn : rb.readIndex + n < rb.bufferSize := by omega
    simp only [hn, if_true, if_pos hm]
    exact ⟨⟨hpos, hlt, hpool, hn, hwrite, fun _ => by simp only; omega,
      fun h => absurd hm h⟩, by omega⟩
  · have hle := hother hm
    rw [if_neg hm] at hfit
    by_cases hn : rb.readIndex + n < rb.bufferSize
    · simp only [hn, if_true, if_neg hm]
      exact ⟨⟨hpos, hlt, hpool, hn, hwrite, fun h => absurd h hm,
        fun _ => by simp only; omega⟩, by omega⟩
    · have heq : (!rb.readMirror) = rb.writeMirror := (mirror_flip.mpr (Ne.symm hm)).symm
      simp only [hn, if_false, if_pos heq, if_neg hm]
      exact ⟨⟨hpos, hlt, hpool, by simp only; omega, hwrite, fun _ => by simp only; omega,
        fun h => absurd heq h⟩, by omega⟩

theorem RtRingbuffer.Wf.pool_update (hrb : rb.Wf) (pool : Nat -> UInt8) :
    RtRingbuffer.Wf { rb with bufferPtr := pool } :=
  ⟨hrb.size_pos, hrb.size_lt, hrb.pool, hrb.read, hrb.write, hrb.same, hrb.other⟩

/-!
# The bytes in the buffer
-/

structure Holds (rb : RtRingbuffer) (q : List UInt8) : Prop where
  wf : rb.Wf
  used : rb.used = q.length
  stores : Stores rb.bufferPtr rb.bufferSize rb.readIndex q

theorem Holds.contents_eq (h : Holds rb q) : rb.contents = q := by
  apply List.ext_getElem?
  intro i
  unfold RtRingbuffer.contents
  rw [List.getElem?_map, h.used]
  by_cases hi : i < q.length
  · rw [List.getElem?_range hi, List.getElem?_eq_getElem hi]
    simp only [Option.map_some, Option.some.injEq]
    exact h.stores.cell i _ (List.getElem?_eq_getElem hi)
  · rw [List.getElem?_eq_none (by simp; omega), List.getElem?_eq_none (by omega)]
    rfl

theorem holds_contents (hrb : rb.Wf) : Holds rb rb.contents := by
  have hlen : rb.contents.length = rb.used := by simp [RtRingbuffer.contents]
  refine ⟨hrb, hlen.symm, ?_, hrb.read, ?_⟩
  · rw [hlen]
    exact hrb.used_le
  · intro i x hx
    unfold RtRingbuffer.contents at hx
    rw [List.getElem?_map] at hx
    rcases Option.map_eq_some_iff.mp hx with ⟨j, hj, hjx⟩
    rw [List.getElem?_range (by
      have := (List.getElem?_eq_some_iff.mp hj).choose
      simpa using this)] at hj
    cases hj
    exact hjx

theorem Holds.push (h : Holds rb q) (hroom : q.length < rb.bufferSize) (ch : UInt8) :
    Holds (RtRingbuffer.advanceWrite
      { rb with bufferPtr := update rb.bufferPtr rb.writeIndex ch } 1)
      (q ++ [ch]) := by
  have hmove := (h.wf.pool_update (update rb.bufferPtr rb.writeIndex ch)).advanceWrite
    (show rb.used + 1 ≤ rb.bufferSize by rw [h.used]; omega)
  refine ⟨hmove.left, ?_, ?_⟩
  · rw [hmove.right, List.length_append]
    exact congrArg (· + 1) h.used
  · simp only [advanceWrite_bufferPtr, advanceWrite_bufferSize, advanceWrite_readIndex]
    rw [h.wf.writeIndex_eq, h.used]
    exact h.stores.push hroom ch

theorem Holds.pop {x : UInt8} (h : Holds rb (x :: q)) :
    rb.bufferPtr rb.readIndex = x ∧ Holds (rb.advanceRead 1) q := by
  have hread := h.wf.read
  have hused : 1 ≤ rb.used := by
    rw [h.used, List.length_cons]
    omega
  have hmove := h.wf.advanceRead hused
  have hindex : (rb.advanceRead 1).readIndex = advance rb.bufferSize rb.readIndex := by
    unfold RtRingbuffer.advanceRead advance
    by_cases hlast : rb.readIndex + 1 < rb.bufferSize
    · rw [if_pos hlast, if_neg (by omega)]
    · rw [if_neg hlast, if_pos (by omega)]
      simp only
      omega
  refine ⟨h.stores.head, hmove.left, ?_, ?_⟩
  · rw [hmove.right, h.used, List.length_cons]
    omega
  · rw [hindex, advanceRead_bufferPtr, advanceRead_bufferSize]
    exact h.stores.pop

/-!
# One byte
-/

theorem rtRingbufferPutchar_full (hrb : rb.Wf) (hfull : rb.used = rb.bufferSize)
    (ch : UInt8) : rtRingbufferPutchar rb ch = some (0, rb) := by
  unfold rtRingbufferPutchar
  rw [rtRingbufferSpaceLen_eq hrb, hfull, Nat.sub_self]
  rfl

theorem rtRingbufferPutchar_room (hrb : rb.Wf) (hroom : rb.used < rb.bufferSize) (ch : UInt8) :
    rtRingbufferPutchar rb ch = some (1, RtRingbuffer.advanceWrite
      { rb with bufferPtr := update rb.bufferPtr rb.writeIndex ch } 1) := by
  have hwrite := hrb.write
  have hlt := hrb.size_lt
  have hstore : rb.writeIndex < rb.poolSize := Nat.lt_of_lt_of_le hwrite hrb.pool
  have hspace : ((rb.bufferSize - rb.used : Nat) : Int) ≠ 0 := by omega
  unfold rtRingbufferPutchar store RtRingbuffer.advanceWrite
  rw [rtRingbufferSpaceLen_eq hrb]
  simp only [hspace, if_false, hstore, if_true, Option.pure_def, Option.bind_eq_bind,
    Option.bind_some]
  by_cases hlast : rb.writeIndex + 1 < rb.bufferSize
  · rw [if_neg (by omega), if_pos hlast]
    rw [show index15 ((rb.writeIndex : Int) + 1) = rb.writeIndex + 1 from
      @index15_of_lt (rb.writeIndex + 1) (by omega)]
  · rw [if_pos (by omega), if_neg hlast]
    rw [show rb.writeIndex + 1 - rb.bufferSize = 0 by omega]

theorem rtRingbufferGetchar_empty (hrb : rb.Wf) (hempty : rb.used = 0) (ch : UInt8) :
    rtRingbufferGetchar rb ch = some (0, ch, rb) := by
  unfold rtRingbufferGetchar
  rw [rtRingbufferDataLen_eq hrb, hempty]
  rfl

theorem rtRingbufferGetchar_data (hrb : rb.Wf) (hdata : 0 < rb.used) (ch : UInt8) :
    rtRingbufferGetchar rb ch = some (1, rb.bufferPtr rb.readIndex, rb.advanceRead 1) := by
  have hread := hrb.read
  have hlt := hrb.size_lt
  have hload : rb.readIndex < rb.poolSize := Nat.lt_of_lt_of_le hread hrb.pool
  unfold rtRingbufferGetchar load RtRingbuffer.advanceRead
  rw [rtRingbufferDataLen_eq hrb]
  simp only [Nat.ne_of_gt hdata, if_false, hload, if_true, Option.pure_def,
    Option.bind_eq_bind, Option.bind_some]
  by_cases hlast : rb.readIndex + 1 < rb.bufferSize
  · rw [if_neg (by omega), if_pos hlast]
    rw [show index15 ((rb.readIndex : Int) + 1) = rb.readIndex + 1 from
      @index15_of_lt (rb.readIndex + 1) (by omega)]
  · rw [if_pos (by omega), if_neg hlast]
    rw [show rb.readIndex + 1 - rb.bufferSize = 0 by omega]

theorem rtRingbufferPutcharForce_room (hrb : rb.Wf) (hroom : rb.used < rb.bufferSize)
    (ch : UInt8) : rtRingbufferPutcharForce rb ch = rtRingbufferPutchar rb ch := by
  have hstate : rtRingbufferStatus rb ≠ RtRingbufferState.full := by
    intro h
    have hfull := (rtRingbufferStatus_full_iff hrb).mp h
    omega
  have hspace : rtRingbufferSpaceLen rb ≠ 0 := by
    rw [rtRingbufferSpaceLen_eq hrb]
    omega
  unfold rtRingbufferPutcharForce rtRingbufferPutchar
  simp only [hstate, hspace, if_false]

theorem rtRingbufferPutcharForce_full (hrb : rb.Wf) (hfull : rb.used = rb.bufferSize) (ch : UInt8) :
    rtRingbufferPutcharForce rb ch = rtRingbufferPutchar (rb.advanceRead 1) ch := by
  have hpos := hrb.size_pos
  have hread := hrb.read
  have hwrite := hrb.write
  have hlt := hrb.size_lt
  have hstate := (rtRingbufferStatus_full_iff hrb).mpr hfull
  have hmove := hrb.advanceRead (show 1 ≤ rb.used by omega)
  have hindex : rb.readIndex = rb.writeIndex := by
    have heq := hrb.writeIndex_eq
    rw [hfull, Nat.add_mod_right, Nat.mod_eq_of_lt hread] at heq
    exact heq.symm
  have hstore : rb.writeIndex < rb.poolSize := Nat.lt_of_lt_of_le hwrite hrb.pool
  rw [rtRingbufferPutchar_room hmove.left (by
    rw [hmove.right, advanceRead_bufferSize]
    omega)]
  unfold rtRingbufferPutcharForce store
  simp only [hstate, hstore, if_true, Option.pure_def, Option.bind_eq_bind,
    Option.bind_some, advanceRead_bufferPtr, advanceRead_writeIndex]
  unfold RtRingbuffer.advanceWrite RtRingbuffer.advanceRead
  rw [hindex]
  by_cases hlast : rb.writeIndex + 1 < rb.bufferSize
  · rw [if_neg (by omega), if_pos hlast]
    simp only [if_pos hlast]
    rw [show index15 ((rb.writeIndex : Int) + 1) = rb.writeIndex + 1 from
      @index15_of_lt (rb.writeIndex + 1) (by omega)]
  · rw [if_pos (by omega), if_neg hlast]
    simp only [if_neg hlast]
    rw [show rb.writeIndex + 1 - rb.bufferSize = 0 by omega]

/-!
# Blocks
-/

def putchars (rb : RtRingbuffer) : List UInt8 -> Option (Nat × RtRingbuffer)
  | [] => some (0, rb)
  | ch :: rest => do
      let (n, rb) <- rtRingbufferPutchar rb ch
      let (m, rb) <- putchars rb rest
      return (n + m, rb)

def getchars (rb : RtRingbuffer) :
    List UInt8 -> Option (Nat × List UInt8 × RtRingbuffer)
  | [] => some (0, [], rb)
  | ch :: rest => do
      let (n, ch, rb) <- rtRingbufferGetchar rb ch
      let (m, rest, rb) <- getchars rb rest
      return (n + m, ch :: rest, rb)

/-- The pool after `n` bytes were written from the write index on. -/
def RtRingbuffer.writeRing (rb : RtRingbuffer) (src : List UInt8) (n : Nat) :
    Nat -> UInt8 :=
  if rb.writeIndex + n < rb.bufferSize then
    writeBlock rb.bufferPtr rb.writeIndex src 0 n
  else
    writeBlock
      (writeBlock rb.bufferPtr rb.writeIndex src 0 (rb.bufferSize - rb.writeIndex))
      0 src (rb.bufferSize - rb.writeIndex) (n - (rb.bufferSize - rb.writeIndex))

/-- The number of bytes that a block of this length can add. -/
def RtRingbuffer.fitting (rb : RtRingbuffer) (length : Nat) : Nat :=
  min length (rb.bufferSize - rb.used)

theorem writeRing_zero (hrb : rb.Wf) (ptr : List UInt8) : rb.writeRing ptr 0 = rb.bufferPtr := by
  have hwrite := hrb.write
  unfold RtRingbuffer.writeRing writeBlock
  rw [if_pos (by omega)]
  funext i
  rw [if_neg (by omega)]

theorem rtRingbufferPut_eq (hrb : rb.Wf) (ptr : List UInt8) :
    rtRingbufferPut rb ptr = some (rb.fitting ptr.length, RtRingbuffer.advanceWrite
        { rb with bufferPtr := rb.writeRing ptr (rb.fitting ptr.length) }
        (rb.fitting ptr.length)) := by
  have hwrite := hrb.write
  have hlt := hrb.size_lt
  have hpool := hrb.pool
  have hused := hrb.used_le
  have hspace : uint16 (rtRingbufferSpaceLen rb) = rb.bufferSize - rb.used := by
    rw [rtRingbufferSpaceLen_eq hrb]
    exact uint16_of_lt (by omega)
  unfold rtRingbufferPut
  simp only [hspace, Option.pure_def, Option.bind_eq_bind]
  by_cases hfull : rb.bufferSize - rb.used = 0
  · have hzero : rb.fitting ptr.length = 0 := by
      unfold RtRingbuffer.fitting
      omega
    rw [if_pos hfull, hzero]
    rw [writeRing_zero hrb, advanceWrite_zero hrb]
  · have hlen : (if rb.bufferSize - rb.used < ptr.length then rb.bufferSize - rb.used
        else ptr.length) = rb.fitting ptr.length := by
      unfold RtRingbuffer.fitting
      split <;> omega
    have hfit : rb.fitting ptr.length ≤ ptr.length := Nat.min_le_left _ _
    have hfit' : rb.fitting ptr.length ≤ rb.bufferSize - rb.used := Nat.min_le_right _ _
    rw [if_neg hfull, hlen]
    generalize rb.fitting ptr.length = n at *
    unfold RtRingbuffer.advanceWrite RtRingbuffer.writeRing copyIn
    by_cases hwrap : rb.writeIndex + n < rb.bufferSize
    · simp only [if_pos (show (rb.bufferSize : Int) - rb.writeIndex > n by omega), hwrap, if_true]
      rw [if_pos (by omega)]
      simp only [Option.bind_some, Int.toNat_zero, Int.toNat_natCast]
      rw [show index15 ((rb.writeIndex : Int) + n) = rb.writeIndex + n from
        @index15_of_lt (rb.writeIndex + n) (by omega)]
    · have hrest : (rb.bufferSize : Int) - rb.writeIndex =
          ((rb.bufferSize - rb.writeIndex : Nat) : Int) := by omega
      have hmore : (n : Int) - ((rb.bufferSize - rb.writeIndex : Nat) : Int) =
          ((n - (rb.bufferSize - rb.writeIndex) : Nat) : Int) := by omega
      simp only [if_neg (show ¬ (rb.bufferSize : Int) - rb.writeIndex > n by omega), hwrap,
        if_false]
      simp only [hrest]
      rw [if_pos (by omega)]
      simp only [Option.bind_some, Int.toNat_zero, Int.toNat_natCast]
      rw [if_pos (by omega)]
      simp only [Option.bind_some, Int.toNat_natCast, hmore]
      rw [index15_of_lt (by omega)]
      rw [show n - (rb.bufferSize - rb.writeIndex) = rb.writeIndex + n - rb.bufferSize by
        omega]

theorem writeRing_apply (hrb : rb.Wf) (src : List UInt8) {n : Nat}
    (hfit : n ≤ rb.bufferSize) (i : Nat) :
    rb.writeRing src n i =
      if rb.writeIndex ≤ i ∧ i < rb.writeIndex + n ∧ i < rb.bufferSize then
        src.getD (i - rb.writeIndex) 0
      else if i + rb.bufferSize < rb.writeIndex + n then
        src.getD (rb.bufferSize - rb.writeIndex + i) 0
      else rb.bufferPtr i := by
  have hwrite := hrb.write
  unfold RtRingbuffer.writeRing
  by_cases hwrap : rb.writeIndex + n < rb.bufferSize
  · rw [if_pos hwrap]
    unfold writeBlock
    by_cases hin : rb.writeIndex ≤ i ∧ i < rb.writeIndex + n
    · rw [if_pos hin, if_pos (by omega), Nat.zero_add]
    · rw [if_neg hin, if_neg (by omega), if_neg (by omega)]
  · rw [if_neg hwrap]
    unfold writeBlock
    by_cases hlow : i + rb.bufferSize < rb.writeIndex + n
    · rw [if_pos (by omega), if_neg (by omega), if_pos hlow, Nat.sub_zero]
    · rw [if_neg (by omega)]
      by_cases hin : rb.writeIndex ≤ i ∧ i < rb.bufferSize
      · rw [if_pos (by omega), if_pos (by omega), Nat.zero_add]
      · rw [if_neg (by omega), if_neg (by omega), if_neg hlow]

theorem writeRing_cons (hrb : rb.Wf) (ch : UInt8) (rest : List UInt8) {n : Nat}
    (hfit : n + 1 ≤ rb.bufferSize) (hroom : rb.used < rb.bufferSize) :
    rb.writeRing (ch :: rest) (n + 1) = (RtRingbuffer.advanceWrite
        { rb with bufferPtr := update rb.bufferPtr rb.writeIndex ch } 1).writeRing
        rest n := by
  have hwrite := hrb.write
  have hpool := hrb.pool_update (update rb.bufferPtr rb.writeIndex ch)
  have hmove := hpool.advanceWrite (show rb.used + 1 ≤ rb.bufferSize from hroom)
  have hcons {i j : Nat} (hij : i = j + 1) : (ch :: rest).getD i 0 = rest.getD j 0 := by
    rw [hij, List.getD_cons_succ]
  funext i
  rw [writeRing_apply hrb _ hfit, writeRing_apply hmove.left _ (by simp; omega)]
  simp only [advanceWrite_bufferPtr, advanceWrite_bufferSize]
  by_cases hi : i = rb.writeIndex
  · subst hi
    rw [if_pos (by omega), Nat.sub_self, List.getD_cons_zero, update_self]
    unfold RtRingbuffer.advanceWrite
    simp only
    split <;> rw [if_neg (by simp only; omega), if_neg (by simp only; omega)]
  · rw [update_of_ne hi]
    unfold RtRingbuffer.advanceWrite
    by_cases hlast : rb.writeIndex + 1 < rb.bufferSize
    · simp only [hlast, if_true]
      by_cases hin : rb.writeIndex < i ∧ i < rb.writeIndex + (n + 1) ∧ i < rb.bufferSize
      · rw [if_pos (by omega), if_pos (by omega)]
        exact hcons (by omega)
      · rw [if_neg (by omega), if_neg (show ¬ (rb.writeIndex + 1 ≤ i ∧
          i < rb.writeIndex + 1 + n ∧ i < rb.bufferSize) by omega)]
        by_cases hlow : i + rb.bufferSize < rb.writeIndex + (n + 1)
        · rw [if_pos hlow, if_pos (by omega)]
          exact hcons (by omega)
        · rw [if_neg hlow, if_neg (by omega)]
    · simp only [hlast, if_false]
      rw [if_neg (by omega)]
      by_cases hlow : i + rb.bufferSize < rb.writeIndex + (n + 1)
      · rw [if_pos hlow, if_pos (by omega)]
        exact hcons (by omega)
      · rw [if_neg hlow, if_neg (by omega), if_neg (by omega)]

theorem putchars_full (hrb : rb.Wf) (hfull : rb.used = rb.bufferSize) (ptr : List UInt8) :
    putchars rb ptr = some (0, rb) := by
  induction ptr with
  | nil => rfl
  | cons ch rest ih =>
    simp only [putchars, rtRingbufferPutchar_full hrb hfull, Option.bind_eq_bind,
      Option.bind_some, ih, Option.pure_def]

theorem rtRingbufferPut_eq_putchars (hrb : rb.Wf) (ptr : List UInt8) :
    rtRingbufferPut rb ptr = putchars rb ptr := by
  induction ptr generalizing rb with
  | nil =>
    have hzero : rb.fitting ([] : List UInt8).length = 0 := Nat.zero_min _
    rw [rtRingbufferPut_eq hrb, hzero, writeRing_zero hrb, advanceWrite_zero hrb]
    rfl
  | cons ch rest ih =>
    have hused := hrb.used_le
    by_cases hfull : rb.used = rb.bufferSize
    · have hzero : rb.fitting (ch :: rest).length = 0 := by
        unfold RtRingbuffer.fitting
        omega
      rw [putchars_full hrb hfull, rtRingbufferPut_eq hrb, hzero, writeRing_zero hrb,
        advanceWrite_zero hrb]
    · have hroom : rb.used < rb.bufferSize := by omega
      have hpool := hrb.pool_update (update rb.bufferPtr rb.writeIndex ch)
      have hmove := hpool.advanceWrite (show rb.used + 1 ≤ rb.bufferSize from hroom)
      have hsucc : rb.fitting (ch :: rest).length = (RtRingbuffer.advanceWrite { rb with
            bufferPtr := update rb.bufferPtr rb.writeIndex ch } 1).fitting
            rest.length + 1 := by
        unfold RtRingbuffer.fitting
        rw [hmove.right, advanceWrite_bufferSize, List.length_cons]
        show _ = min rest.length (rb.bufferSize - (rb.used + 1)) + 1
        omega
      have hfit : rb.fitting (ch :: rest).length ≤ rb.bufferSize - rb.used :=
        Nat.min_le_right _ _
      simp only [putchars, rtRingbufferPutchar_room hrb hroom, Option.bind_eq_bind,
        Option.bind_some, Option.pure_def]
      rw [← ih hmove.left, rtRingbufferPut_eq hmove.left, rtRingbufferPut_eq hrb, hsucc]
      rw [hsucc] at hfit
      generalize RtRingbuffer.fitting _ rest.length = n at hfit ⊢
      simp only [Option.bind_some, Option.some.injEq, Prod.mk.injEq]
      refine ⟨Nat.add_comm n 1, ?_⟩
      rw [writeRing_cons hrb ch rest (show n + 1 ≤ rb.bufferSize by omega) hroom]
      generalize RtRingbuffer.writeRing _ rest n = pool
      rw [Nat.add_comm n 1]
      have hadd := @advanceWrite_add { rb with bufferPtr := pool } (hrb.pool_update pool) 1 n
        (show 1 + n ≤ rb.bufferSize by omega)
      rw [← hadd]
      congr 1
      unfold RtRingbuffer.advanceWrite
      simp only
      split <;> rfl

theorem Holds.getchars (h : Holds rb q) (ptr : List UInt8) :
    getchars rb ptr = some (min ptr.length q.length,
      q.take ptr.length ++ ptr.drop q.length, rb.advanceRead (min ptr.length q.length)) := by
  induction ptr generalizing rb q with
  | nil =>
    simp only [Drivers.getchars, List.length_nil, Nat.zero_min, advanceRead_zero h.wf]
    simp
  | cons ch rest ih =>
    cases q with
    | nil =>
      have hempty := rtRingbufferGetchar_empty h.wf h.used ch
      simp only [Drivers.getchars, hempty, Option.bind_eq_bind, Option.bind_some,
        Option.pure_def, ih h]
      simp [advanceRead_zero h.wf]
    | cons x q =>
      have hpos : 0 < rb.used := by
        rw [h.used]
        exact Nat.succ_pos _
      have hle := h.wf.used_le
      have hpop := h.pop
      rw [h.used, List.length_cons] at hle
      simp only [Drivers.getchars, rtRingbufferGetchar_data h.wf hpos,
        Option.bind_eq_bind, Option.bind_some, Option.pure_def, ih hpop.right, hpop.left]
      rw [advanceRead_add h.wf (by omega)]
      simp only [List.length_cons, List.take_succ_cons, List.drop_succ_cons,
        List.cons_append, Nat.add_min_add_right]
      rw [Nat.add_comm 1]

theorem Holds.readBlock_eq (h : Holds rb q) {n : Nat} (hn : n ≤ q.length)
    (hend : rb.readIndex + n ≤ rb.bufferSize) :
    readBlock rb.bufferPtr rb.readIndex n = q.take n := by
  apply List.ext_getElem?
  intro i
  unfold readBlock
  rw [List.getElem?_map, List.getElem?_take]
  by_cases hi : i < n
  · rw [List.getElem?_range hi, if_pos hi, List.getElem?_eq_getElem (by omega)]
    have hcell := h.stores.cell i _ (List.getElem?_eq_getElem (show i < q.length by omega))
    rw [Nat.mod_eq_of_lt (by omega)] at hcell
    exact congrArg some hcell
  · rw [if_neg hi, List.getElem?_eq_none (by simp; omega)]
    rfl

theorem Holds.readBlock_wrap (h : Holds rb q) {n : Nat} (hn : n ≤ q.length)
    (hend : rb.bufferSize ≤ rb.readIndex + n) :
    readBlock rb.bufferPtr 0 (n - (rb.bufferSize - rb.readIndex)) =
      (q.take n).drop (rb.bufferSize - rb.readIndex) := by
  have hread := h.wf.read
  have hfits := h.stores.fits
  apply List.ext_getElem?
  intro i
  unfold readBlock
  rw [List.getElem?_map, List.getElem?_drop, List.getElem?_take]
  by_cases hi : i < n - (rb.bufferSize - rb.readIndex)
  · rw [List.getElem?_range hi, if_pos (by omega), List.getElem?_eq_getElem (by omega)]
    have hcell := h.stores.cell (rb.bufferSize - rb.readIndex + i) _
      (List.getElem?_eq_getElem (by omega))
    rw [show rb.readIndex + (rb.bufferSize - rb.readIndex + i) = i + rb.bufferSize by omega,
      Nat.add_mod_right, Nat.mod_eq_of_lt (by omega)] at hcell
    rw [Option.map_some, Nat.zero_add, hcell]
  · rw [if_neg (by omega), List.getElem?_eq_none (by simp; omega)]
    rfl

theorem Holds.get_eq_getchars (h : Holds rb q) (ptr : List UInt8) :
    rtRingbufferGet rb ptr = Drivers.getchars rb ptr := by
  have hread := h.wf.read
  have hlt := h.wf.size_lt
  have hpool := h.wf.pool
  have hfits := h.stores.fits
  rw [h.getchars]
  unfold rtRingbufferGet
  simp only [rtRingbufferDataLen_eq h.wf, h.used, Option.pure_def, Option.bind_eq_bind]
  by_cases hempty : q.length = 0
  · rw [List.length_eq_zero_iff] at hempty
    subst hempty
    simp [advanceRead_zero h.wf]
  · have hlen : (if q.length < ptr.length then q.length else ptr.length) =
        min ptr.length q.length := by
      split <;> omega
    have htake : q.take ptr.length = q.take (min ptr.length q.length) := by
      rw [← List.take_take, List.take_length]
    have hdrop : ptr.drop q.length = ptr.drop (min ptr.length q.length) := by
      rcases Nat.le_total ptr.length q.length with hle | hle
      · rw [Nat.min_eq_left hle, List.drop_eq_nil_of_le hle, List.drop_length]
      · rw [Nat.min_eq_right hle]
    have hfit : min ptr.length q.length ≤ ptr.length := Nat.min_le_left _ _
    have hfit' : min ptr.length q.length ≤ q.length := Nat.min_le_right _ _
    rw [if_neg hempty, hlen, htake, hdrop]
    generalize min ptr.length q.length = n at *
    unfold RtRingbuffer.advanceRead copyOut
    by_cases hwrap : rb.readIndex + n < rb.bufferSize
    · simp only [if_pos (show (rb.bufferSize : Int) - rb.readIndex > n by omega), hwrap, if_true]
      rw [if_pos (by omega)]
      simp only [Option.bind_some, Int.toNat_zero, Int.toNat_natCast, Int.zero_add,
        List.take_zero, List.nil_append]
      rw [show index15 ((rb.readIndex : Int) + n) = rb.readIndex + n from
        @index15_of_lt (rb.readIndex + n) (by omega), h.readBlock_eq hfit' (by omega)]
    · have hrest : (rb.bufferSize : Int) - rb.readIndex =
          ((rb.bufferSize - rb.readIndex : Nat) : Int) := by omega
      have hmore : (n : Int) - ((rb.bufferSize - rb.readIndex : Nat) : Int) =
          ((n - (rb.bufferSize - rb.readIndex) : Nat) : Int) := by omega
      have hsum : ((rb.bufferSize - rb.readIndex : Nat) : Int) +
          ((n - (rb.bufferSize - rb.readIndex) : Nat) : Int) = (n : Int) := by omega
      simp only [if_neg (show ¬ (rb.bufferSize : Int) - rb.readIndex > n by omega), hwrap,
        if_false]
      simp only [hrest]
      rw [if_pos (by omega)]
      simp only [Option.bind_some, Int.toNat_zero, Int.toNat_natCast, Int.zero_add,
        List.take_zero, List.nil_append]
      have hfirst := h.readBlock_eq (show rb.bufferSize - rb.readIndex ≤ q.length by omega)
        (by omega)
      rw [hfirst, if_pos (by simp; omega)]
      simp only [Option.bind_some, hmore, hsum, Int.toNat_natCast]
      rw [h.readBlock_wrap hfit' (by omega), index15_of_lt (by omega)]
      rw [show n - (rb.bufferSize - rb.readIndex) = rb.readIndex + n - rb.bufferSize by omega]
      have hlength : (q.take (rb.bufferSize - rb.readIndex)).length =
          rb.bufferSize - rb.readIndex := by
        rw [List.length_take]
        omega
      have hjoin : q.take (rb.bufferSize - rb.readIndex) ++
          (q.take n).drop (rb.bufferSize - rb.readIndex) = q.take n := by
        rw [← List.take_append_drop (rb.bufferSize - rb.readIndex) (q.take n),
          List.take_take, Nat.min_eq_left (by omega)]
        rw [List.drop_append_of_le_length (by rw [hlength])]
        simp
      rw [List.take_left' hlength, hjoin, List.drop_append, hlength, List.drop_drop]
      rw [List.drop_eq_nil_of_le (by rw [hlength]; omega), List.nil_append]
      rw [show rb.bufferSize - rb.readIndex + (n - (rb.bufferSize - rb.readIndex)) = n by
        omega]

theorem Holds.putchars (h : Holds rb q) (ptr : List UInt8) :
    exists rb', putchars rb ptr = some (min ptr.length (rb.bufferSize - q.length), rb') ∧
      Holds rb' (q ++ ptr.take (rb.bufferSize - q.length)) ∧
      rb'.bufferSize = rb.bufferSize := by
  induction ptr generalizing rb q with
  | nil =>
    refine ⟨rb, by simp [Drivers.putchars], ?_, rfl⟩
    simpa using h
  | cons ch rest ih =>
    have hfits := h.stores.fits
    by_cases hfull : q.length = rb.bufferSize
    · refine ⟨rb, ?_, ?_, rfl⟩
      · rw [putchars_full h.wf (by rw [h.used, hfull]), hfull]
        simp
      · rw [hfull]
        simpa using h
    · have hroom : q.length < rb.bufferSize := by omega
      have hpush := h.push hroom ch
      rcases ih hpush with ⟨rb', hput, hholds, hsize⟩
      simp only [advanceWrite_bufferSize, List.length_append, List.length_singleton]
        at hput hholds hsize
      refine ⟨rb', ?_, ?_, hsize⟩
      · simp only [Drivers.putchars, rtRingbufferPutchar_room h.wf
          (show rb.used < rb.bufferSize by rw [h.used]; exact hroom), Option.bind_eq_bind,
          Option.bind_some, Option.pure_def, hput, Option.some.injEq, Prod.mk.injEq,
          and_true, List.length_cons]
        omega
      · rw [show rb.bufferSize - q.length = rb.bufferSize - (q.length + 1) + 1 by omega,
          List.take_succ_cons]
        simpa using hholds

end RtThread.Drivers
