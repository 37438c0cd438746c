import RtThread.Drivers.RingBufferFifo

/-!
# Forced blocks

A forced byte drops the oldest one when the buffer is full.  A forced block that does not
fit is taken as a block of the size of the buffer, written from the write index on, and
both mirror bits flip: the buffer is full of it when the bits differed before, and empty when
they were the same.
-/

namespace RtThread.Drivers

variable {rb : RtRingbuffer} {q : List UInt8}

def newest (size : Nat) (bytes : List UInt8) : List UInt8 := bytes.drop (bytes.length - size)

def putcharsForce (rb : RtRingbuffer) : List UInt8 -> Option RtRingbuffer
  | [] => some rb
  | ch :: rest => do
      let (_, rb) <- rtRingbufferPutcharForce rb ch
      putcharsForce rb rest

/-- The ring buffers that any calls lead to. -/
inductive Reached (pool : Nat -> UInt8) (size align : Nat) : RtRingbuffer -> Prop where
  | init : Reached pool size align (rtRingbufferInit pool size align)
  | step {rb rb' : RtRingbuffer} {op : RingOp} {result : RingResult}
      (h : Reached pool size align rb) (hstep : ringStep rb op = some (result, rb')) :
      Reached pool size align rb'
  | force {rb rb' : RtRingbuffer} {block : Block} {count : Nat}
      (h : Reached pool size align rb)
      (hforce : rtRingbufferPutForce rb block.bytes = some (count, rb')) :
      Reached pool size align rb'

/-- A forced block leaves the newest bytes, reads no others than its own, and leaves what
forcing its bytes one by one leaves. -/
def KeepsNewest (rb : RtRingbuffer) (ptr : List UInt8) : Prop :=
  exists count rb' rb'', rtRingbufferPutForce rb ptr = some (count, rb') ∧
    rb'.contents = newest rb.bufferSize (rb.contents ++ ptr) ∧
    putcharsForce rb ptr = some rb'' ∧ rb'.contents = rb''.contents

/-!
# Newest bytes
-/

theorem length_newest (size : Nat) (bytes : List UInt8) :
    (newest size bytes).length = min bytes.length size := by
  unfold newest
  rw [List.length_drop]
  omega

variable {size : Nat} {ptr : List UInt8}

theorem newest_of_le {bytes : List UInt8} (h : bytes.length ≤ size) :
    newest size bytes = bytes := by
  unfold newest
  rw [Nat.sub_eq_zero_of_le h, List.drop_zero]

theorem newest_append_of_le {bytes more : List UInt8} (h : size ≤ more.length) :
    newest size (bytes ++ more) = newest size more := by
  unfold newest
  rw [List.length_append, Nat.add_sub_assoc h, List.drop_append]
  rw [List.drop_eq_nil_of_le (by omega), List.nil_append, Nat.add_sub_cancel_left]

theorem newest_newest_append (size : Nat) (bytes more : List UInt8) :
    newest size (newest size bytes ++ more) = newest size (bytes ++ more) := by
  unfold newest
  rw [List.length_append, List.length_append, List.length_drop, List.drop_append,
    List.drop_append, List.drop_drop, List.length_drop]
  congr 1
  · congr 1
    omega
  · congr 1
    omega

/-!
# Bytes one by one
-/

theorem Holds.putcharForce_newest (h : Holds rb q) (ch : UInt8) :
    exists count rb', rtRingbufferPutcharForce rb ch = some (count, rb') ∧
      Holds rb' (newest rb.bufferSize (q ++ [ch])) ∧ rb'.bufferSize = rb.bufferSize := by
  have hfits := h.stores.fits
  have hqueue : (fifoStep rb.bufferSize q (RingOp.putcharForce ch)).2 =
      newest rb.bufferSize (q ++ [ch]) := by
    simp only [fifoStep]
    split
    · next hroom =>
        rw [newest_of_le (by rw [List.length_append]; exact hroom)]
    · next hfull =>
        have hpos := h.wf.size_pos
        have hone : q.length + [ch].length - rb.bufferSize = 1 := by
          rw [List.length_singleton]
          omega
        unfold newest
        rw [List.length_append, hone, <- List.drop_one, List.drop_append_of_le_length (by omega)]
  rcases h.putcharForce ch with ⟨rb', hstep, hholds, hsize⟩
  rw [hqueue] at hholds
  rcases Option.map_eq_some_iff.mp hstep with ⟨⟨count, rb1⟩, hput, hresult⟩
  have hsame : rb1 = rb' := congrArg Prod.snd hresult
  subst hsame
  exact ⟨count, rb1, hput, hholds, hsize⟩

theorem Holds.putcharsForce (h : Holds rb q) (ptr : List UInt8) :
    exists rb', putcharsForce rb ptr = some rb' ∧
      Holds rb' (newest rb.bufferSize (q ++ ptr)) := by
  induction ptr generalizing rb q with
  | nil =>
    rw [List.append_nil, newest_of_le h.stores.fits]
    exact ⟨rb, rfl, h⟩
  | cons ch rest ih =>
    rcases h.putcharForce_newest ch with ⟨count, rb1, hstep, hholds, hsize⟩
    rcases ih hholds with ⟨rb', hrun, hholds'⟩
    rw [hsize, newest_newest_append, List.append_assoc] at hholds'
    refine ⟨rb', ?_, hholds'⟩
    rw [Drivers.putcharsForce, hstep]
    exact hrun

/-!
# Blocks
-/

/-- The ring buffer after a forced block that did not fit. -/
def RtRingbuffer.forced (rb : RtRingbuffer) (ptr : List UInt8) : RtRingbuffer :=
  { rb with
    bufferPtr := rb.writeRing ptr rb.bufferSize
    readMirror := if rb.used = 0 then rb.readMirror else !rb.readMirror
    readIndex := rb.writeIndex
    writeMirror := !rb.writeMirror }

theorem RtRingbuffer.Wf.forced_wf (hrb : rb.Wf) (ptr : List UInt8) : (rb.forced ptr).Wf :=
  ⟨hrb.size_pos, hrb.size_lt, hrb.pool, hrb.write, hrb.write, fun _ => Nat.le_refl _,
    fun _ => Nat.le_refl _⟩

theorem uint16_space (hrb : rb.Wf) :
    uint16 (rtRingbufferSpaceLen rb) = rb.bufferSize - rb.used := by
  have hlt := hrb.size_lt
  rw [rtRingbufferSpaceLen_eq hrb]
  exact uint16_of_lt (by omega)

theorem rtRingbufferPutForce_room (hrb : rb.Wf) (hroom : ptr.length ≤ rb.bufferSize - rb.used) :
    rtRingbufferPutForce rb ptr = rtRingbufferPut rb ptr := by
  have hspace := uint16_space hrb
  have hwrite := hrb.write
  have hlt := hrb.size_lt
  have hpool := hrb.pool
  have hlen : ¬ rb.bufferSize - rb.used < ptr.length := Nat.not_lt.mpr hroom
  unfold rtRingbufferPutForce rtRingbufferPut
  simp only [hspace, if_neg hlen]
  by_cases hfull : rb.bufferSize - rb.used = 0
  · have hempty : ptr = [] := List.length_eq_zero_iff.mp (by omega)
    subst hempty
    unfold copyIn
    rw [if_pos hfull, if_pos (by simp; omega), if_pos (by simp; omega)]
    have hblock : writeBlock rb.bufferPtr rb.writeIndex [] 0 0 = rb.bufferPtr := by
      unfold writeBlock
      funext i
      rw [if_neg (by omega)]
    have hindex : index15 rb.writeIndex = rb.writeIndex := index15_of_lt (by omega)
    simp [hblock, hindex]
  · rw [if_neg hfull]

theorem rtRingbufferPutForce_short (hrb : rb.Wf) (hfull : rb.bufferSize - rb.used < ptr.length)
    (hshort : ptr.length < rb.bufferSize) :
    rtRingbufferPutForce rb ptr = none := by
  have hspace := uint16_space hrb
  have hwrite := hrb.write
  have hlt := hrb.size_lt
  have hsize : uint16 rb.bufferSize = rb.bufferSize := uint16_of_lt (by omega)
  have hpool := hrb.pool
  unfold rtRingbufferPutForce
  simp only [hspace, if_pos hfull, hsize]
  rw [if_neg (by omega)]
  unfold copyIn
  by_cases hfirst : (rb.bufferSize : Int) - rb.writeIndex ≤ ptr.length
  · rw [if_pos (by omega)]
    simp only [Option.bind_eq_bind, Option.bind_some]
    rw [if_neg (by omega)]
    rfl
  · rw [if_neg (by omega)]
    rfl

theorem rtRingbufferPutForce_long (hrb : rb.Wf) (hfull : rb.bufferSize - rb.used < ptr.length)
    (hlong : rb.bufferSize ≤ ptr.length) :
    rtRingbufferPutForce rb ptr = some (rb.bufferSize, rb.forced ptr) := by
  have hspace := uint16_space hrb
  have hwrite := hrb.write
  have hlt := hrb.size_lt
  have hused := hrb.used_le
  have hsize : uint16 rb.bufferSize = rb.bufferSize := uint16_of_lt (by omega)
  have hpool := hrb.pool
  have hrest : (rb.bufferSize : Int) - rb.writeIndex =
      ((rb.bufferSize - rb.writeIndex : Nat) : Int) := by omega
  have hmore : (rb.bufferSize : Int) - ((rb.bufferSize - rb.writeIndex : Nat) : Int) =
      (rb.writeIndex : Int) := by omega
  unfold rtRingbufferPutForce
  simp only [hspace, if_pos hfull, hsize]
  rw [if_neg (by omega)]
  unfold copyIn
  simp only [hrest]
  rw [if_pos (by omega)]
  simp only [Option.bind_eq_bind, Option.bind_some, hmore]
  rw [if_pos (by omega)]
  simp only [Option.bind_some, Int.toNat_zero, Int.toNat_natCast]
  have hring : rb.writeRing ptr rb.bufferSize =
      writeBlock (writeBlock rb.bufferPtr rb.writeIndex ptr 0 (rb.bufferSize - rb.writeIndex)) 0
        ptr (rb.bufferSize - rb.writeIndex) rb.writeIndex := by
    unfold RtRingbuffer.writeRing
    rw [if_neg (by omega), Nat.sub_sub_self (Nat.le_of_lt hwrite)]
  rw [<- hring, index15_of_lt (by omega)]
  unfold RtRingbuffer.forced
  by_cases hempty : rb.used = 0
  · have hindex : rb.writeIndex = rb.readIndex := by
      have heq := hrb.writeIndex_eq
      rw [hempty, Nat.add_zero, Nat.mod_eq_of_lt hrb.read] at heq
      exact heq
    rw [if_neg (by omega), if_pos hempty, hindex]
    rfl
  · rw [if_pos (by omega), if_neg hempty]
    rfl

theorem Holds.putBlock (h : Holds rb q) (block : Block) :
    exists count rb', rtRingbufferPut rb block.bytes = some (count, rb') ∧
      Holds rb' (q ++ block.bytes.take (min block.bytes.length (rb.bufferSize - q.length))) ∧
      rb'.bufferSize = rb.bufferSize := by
  rcases h.put block with ⟨rb', hstep, hholds, hsize⟩
  rcases Option.map_eq_some_iff.mp hstep with ⟨⟨count, rb1⟩, hput, hresult⟩
  have hsame : rb1 = rb' := congrArg Prod.snd hresult
  subst hsame
  exact ⟨count, rb1, hput, hholds, hsize⟩

theorem used_of_contents (rb : RtRingbuffer) : rb.contents.length = rb.used := by
  unfold RtRingbuffer.contents
  rw [List.length_map, List.length_range]

theorem forced_contents_same (hdata : rb.contents ≠ [])
    (hmirror : rb.readMirror = rb.writeMirror) : (rb.forced ptr).contents = [] := by
  have hused : rb.used ≠ 0 := by
    rw [<- used_of_contents]
    exact fun h => hdata (List.length_eq_zero_iff.mp h)
  have hsame : (rb.forced ptr).readMirror = (rb.forced ptr).writeMirror := by
    show (if rb.used = 0 then rb.readMirror else !rb.readMirror) = !rb.writeMirror
    rw [if_neg hused, hmirror]
  have hnone : (rb.forced ptr).used = 0 := by
    unfold RtRingbuffer.used
    rw [if_pos hsame]
    exact Nat.sub_self _
  exact List.length_eq_zero_iff.mp ((used_of_contents _).trans hnone)

theorem forced_contents_other (hrb : rb.Wf)
    (hmirror : rb.contents = [] ∨ rb.readMirror ≠ rb.writeMirror)
    (hlong : rb.bufferSize ≤ ptr.length) (hptr : ptr.length < 2 ^ 16) :
    (rb.forced ptr).contents = ptr.take rb.bufferSize := by
  -- the bytes that were there make no difference
  let rb0 := { rb with readIndex := rb.writeIndex, readMirror := rb.writeMirror }
  have hrb0 : RtRingbuffer.Wf rb0 :=
    ⟨hrb.size_pos, hrb.size_lt, hrb.pool, hrb.write, hrb.write, fun _ => Nat.le_refl _,
      fun h => absurd rfl h⟩
  have hnone : RtRingbuffer.used rb0 = 0 := by
    unfold RtRingbuffer.used
    rw [if_pos rfl]
    exact Nat.sub_self _
  have hfit : RtRingbuffer.fitting rb0 ptr.length = rb.bufferSize := by
    unfold RtRingbuffer.fitting
    rw [hnone]
    exact Nat.min_eq_right hlong
  have hholds := holds_contents hrb0
  rw [List.length_eq_zero_iff.mp ((used_of_contents rb0).trans hnone)] at hholds
  rcases hholds.putBlock ⟨ptr, hptr⟩ with ⟨count, rb', hput, hholds', -⟩
  have hsame : rb' = rb.forced ptr := by
    rw [rtRingbufferPut_eq hrb0, hfit] at hput
    cases hput
    have hwrap : ¬ rb.writeIndex + rb.bufferSize < rb.bufferSize := by omega
    have hread : (if rb.used = 0 then rb.readMirror else !rb.readMirror) = rb.writeMirror := by
      by_cases hsame : rb.readMirror = rb.writeMirror
      · have hempty : rb.contents = [] := hmirror.resolve_right (not_not.mpr hsame)
        rw [if_pos (by rw [<- used_of_contents, hempty]; rfl), hsame]
      · have hread := hrb.read
        have hused : rb.used ≠ 0 := by
          unfold RtRingbuffer.used
          rw [if_neg hsame]
          omega
        rw [if_neg hused]
        exact (mirror_flip.mpr (Ne.symm hsame)).symm
    unfold RtRingbuffer.advanceWrite RtRingbuffer.forced
    rw [hread, if_neg hwrap, Nat.add_sub_cancel]
    rfl
  rw [<- hsame, hholds'.contents_eq, List.nil_append, List.length_nil, Nat.sub_zero,
    Nat.min_eq_right hlong]

theorem Reached.wf {pool : Nat -> UInt8} {align : Nat} (halign : 0 < align)
    (hle : align ≤ size) (hmax : size ≤ 32767) (h : Reached pool size align rb) : rb.Wf := by
  induction h with
  | init => exact init_wf pool halign hle hmax
  | @step rb rb' op result h hstep ih =>
    rcases (holds_contents ih).step op with ⟨rb1, hstep1, hholds, -⟩
    rw [hstep] at hstep1
    cases hstep1
    exact hholds.wf
  | @force rb rb' block count h hforce ih =>
    by_cases hroom : block.bytes.length ≤ rb.bufferSize - rb.used
    · rcases (holds_contents ih).putBlock block with ⟨count1, rb1, hput, hholds, -⟩
      rw [rtRingbufferPutForce_room ih hroom, hput] at hforce
      cases hforce
      exact hholds.wf
    · by_cases hshort : block.bytes.length < rb.bufferSize
      · rw [rtRingbufferPutForce_short ih (Nat.lt_of_not_le hroom) hshort] at hforce
        cases hforce
      · rw [rtRingbufferPutForce_long ih (Nat.lt_of_not_le hroom) (Nat.le_of_not_lt hshort)]
          at hforce
        cases hforce
        exact ih.forced_wf block.bytes

/-!
# The claimed contents
-/

theorem keepsNewest_iff_contents (hrb : rb.Wf) (ptr : List UInt8) :
    KeepsNewest rb ptr <-> exists count rb', rtRingbufferPutForce rb ptr = some (count, rb') ∧
      rb'.contents = newest rb.bufferSize (rb.contents ++ ptr) := by
  constructor
  · rintro ⟨count, rb', -, hforce, hcontents, -, -⟩
    exact ⟨count, rb', hforce, hcontents⟩
  · rintro ⟨count, rb', hforce, hcontents⟩
    rcases (holds_contents hrb).putcharsForce ptr with ⟨rb'', hbytes, hholds⟩
    exact ⟨count, rb', rb'', hforce, hcontents, hbytes, hcontents.trans hholds.contents_eq.symm⟩

/-- A forced block keeps the newest bytes exactly when it fits, or is at least as long as
the buffer, the buffer is empty or has different mirror bits, and the block ends as it
begins. -/
theorem putForce_keeps_newest_iff (pool : Nat -> UInt8) (size align : Nat)
    (halign : 0 < align) (hle : align ≤ size) (hmax : size ≤ 32767) (rb : RtRingbuffer)
    (hreached : Reached pool size align rb) (block : Block) :
    KeepsNewest rb block.bytes <->
      rb.contents.length + block.bytes.length ≤ rb.bufferSize ∨
        rb.bufferSize ≤ block.bytes.length ∧
          (rb.contents = [] ∨ rb.readMirror ≠ rb.writeMirror) ∧
          block.bytes.take rb.bufferSize = newest rb.bufferSize block.bytes := by
  have hrb := hreached.wf halign hle hmax
  have hused := used_of_contents rb
  have hle' := hrb.used_le
  have hpos := hrb.size_pos
  rw [keepsNewest_iff_contents hrb]
  by_cases hroom : block.bytes.length ≤ rb.bufferSize - rb.used
  · have hfits : rb.contents.length + block.bytes.length ≤ rb.bufferSize := by omega
    rcases (holds_contents hrb).putBlock block with ⟨count, rb', hput, hholds, -⟩
    refine iff_of_true ⟨count, rb', (rtRingbufferPutForce_room hrb hroom).trans hput, ?_⟩
      (Or.inl hfits)
    rw [hholds.contents_eq, Nat.min_eq_left (by omega), List.take_length, newest_of_le]
    rw [List.length_append]
    exact hfits
  · have hover : ¬ rb.contents.length + block.bytes.length ≤ rb.bufferSize := by omega
    have hfull := Nat.lt_of_not_le hroom
    by_cases hshort : block.bytes.length < rb.bufferSize
    · rw [rtRingbufferPutForce_short hrb hfull hshort]
      constructor
      · rintro ⟨count, rb', h, -⟩
        cases h
      · rintro (h | ⟨h, -⟩)
        · exact absurd h hover
        · omega
    · have hlong := Nat.le_of_not_lt hshort
      rw [rtRingbufferPutForce_long hrb hfull hlong, newest_append_of_le hlong]
      by_cases hmirror : rb.contents = [] ∨ rb.readMirror ≠ rb.writeMirror
      · have hcontents := forced_contents_other hrb hmirror hlong block.bound
        constructor
        · rintro ⟨count, rb', h, hnew⟩
          cases h
          exact Or.inr ⟨hlong, hmirror, hcontents.symm.trans hnew⟩
        · rintro (h | ⟨-, -, hnew⟩)
          · exact absurd h hover
          · exact ⟨_, _, rfl, hcontents.trans hnew⟩
      · rw [not_or, not_not] at hmirror
        have hcontents := @forced_contents_same rb block.bytes hmirror.left hmirror.right
        constructor
        · rintro ⟨count, rb', h, hnew⟩
          cases h
          have hlength := congrArg List.length (hcontents.symm.trans hnew)
          rw [length_newest, List.length_nil] at hlength
          omega
        · rintro (h | ⟨-, h | h, -⟩)
          · exact absurd h hover
          · exact absurd h hmirror.left
          · exact absurd hmirror.right h

/-- The same four bytes twice into an empty buffer of four. -/
theorem putForce_keeps_newest_iff_twice :
    KeepsNewest (rtRingbufferInit (fun _ => 0) 5 4) [1, 2, 3, 4, 1, 2, 3, 4] :=
  (putForce_keeps_newest_iff (fun _ => 0) 5 4 (by decide) (by decide) (by decide) _
    Reached.init ⟨[1, 2, 3, 4, 1, 2, 3, 4], by decide⟩).mpr
    (Or.inr ⟨by decide, Or.inl rfl, by decide⟩)

def halfFull : RtRingbuffer :=
  { rtRingbufferInit (fun _ => 0) 4 4 with
    bufferPtr := (rtRingbufferInit (fun _ => 0) 4 4).writeRing [1, 2] 2
    writeIndex := 2 }

/-- A forced block of four empties it. -/
theorem putForce_empties :
    Reached (fun _ => 0) 4 4 halfFull ∧ halfFull.contents = [1, 2] ∧
      ¬ KeepsNewest halfFull [3, 4, 5, 6] := by
  have hinit := @init_wf (fun _ => 0) 4 4 (by decide) (by decide) (by decide)
  have hreached : Reached (fun _ => 0) 4 4 halfFull := by
    apply @Reached.step _ _ _ _ _ (RingOp.put ⟨[1, 2], by decide⟩) ⟨2, [1, 2]⟩ Reached.init
    rw [ringStep, rtRingbufferPut_eq hinit]
    rfl
  have hwf := hreached.wf (by decide) (by decide) (by decide)
  refine ⟨hreached, by decide, ?_⟩
  rw [keepsNewest_iff_contents hwf, rtRingbufferPutForce_long hwf (by decide) (by decide)]
  rintro ⟨count, rb', h, hnew⟩
  cases h
  rw [forced_contents_same (by decide) rfl] at hnew
  exact absurd hnew (by decide)

end RtThread.Drivers
