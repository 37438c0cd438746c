import RtThread.Drivers.Pipe

/-!
# Who waits at a pipe

A write resumes one suspended reader, however many bytes it brings, and a read one suspended
writer. A resumed reader that leaves bytes behind resumes no other. Readers get on while every
resumed reader takes all the bytes, or has another resumed reader behind it, or nobody else waits;
writers likewise.
-/

namespace RtThread.Drivers.Pipe

open Kernel
open Function (update update_apply update_of_ne update_self)
open Ipc
open Transition

/-- The readers resumed by a write and the writers resumed by a read, which have not run
their loop again. -/
structure Woken where
  readers : List Tid
  writers : List Tid
deriving DecidableEq, Repr

def noneWoken : Woken := { readers := [], writers := [] }

/-- The threads resumed, once the thread of a step runs its loop. -/
def Woken.started (w : Woken) : Op -> Woken
  | Op.again t => { readers := w.readers.erase t, writers := w.writers.erase t }
  | _ => w

/-- A write resumes the first suspended reader, a read that gets bytes the first suspended
writer. -/
def Woken.note (w : Woken) (pipe : RtPipeDevice) : Outcome -> Woken
  | Outcome.written _ =>
    { w with readers := pipe.suspendedReadList.head?.toList ++ w.readers }
  | Outcome.read (_ :: _) =>
    { w with writers := pipe.suspendedWriteList.head?.toList ++ w.writers }
  | _ => w

/-- The bytes written, with who wrote them, the bytes read, and who was resumed. -/
structure History where
  written : List (Option Tid × UInt8)
  read : List UInt8
  woken : Woken
deriving DecidableEq, Repr

def noHistory : History := { written := [], read := [], woken := noneWoken }

def Op.caller : Op -> Option Tid
  | Op.read caller _ => caller
  | Op.write caller _ => caller
  | Op.again t => some t

def History.note (h : History) (op : Op) (pipe : RtPipeDevice) (o : Outcome) : History :=
  let w := (h.woken.started op).note pipe o
  match o with
  | Outcome.waits => { h with woken := w }
  | Outcome.read bytes => { h with read := h.read ++ bytes, woken := w }
  | Outcome.written bytes =>
    { h with written := h.written ++ bytes.map fun b => (op.caller, b), woken := w }

def recordHistory (s : State) (op : Op) (_s' : State) (h : History) : History :=
  match outcomeOf s op with
  | none => h
  | some o => h.note op s.pipe o

/-!
## The condition
-/

/-- The length of a round of a loop that may wait for bytes. -/
def readLength (s : State) : Op -> Option Nat
  | Op.read _ size => if s.pipe.blockRd then some (length16 size) else none
  | Op.again t =>
    match s.pc t with
    | Pc.reading size => some (length16 size)
    | _ => none
  | Op.write _ _ => none

/-- The length of a round of a loop that may wait for room. -/
def writeLength (s : State) : Op -> Option Nat
  | Op.write _ buffer => if s.pipe.blockWr then some (length16 buffer.length) else none
  | Op.again t =>
    match s.pc t with
    | Pc.writing buffer => some (length16 buffer.length)
    | _ => none
  | Op.read _ _ => none

/-- A round of length `n` with `available` bytes or free bytes: it uses them all, or nobody
waits behind it, or another resumed thread is still to run. -/
def Served (available n : Nat) (waiting others : List Tid) : Prop :=
  available ≤ n ∨ (0 < n ∧ waiting = []) ∨ others ≠ []

instance (available n : Nat) (waiting others : List Tid) :
    Decidable (Served available n waiting others) :=
  inferInstanceAs (Decidable (_ ∨ _))

def AllServed (s : State) (w : Woken) (op : Op) : Prop :=
  (forall n, n ∈ readLength s op ->
    Served (rtRingbufferDataLen s.pipe.ringbuffer) n s.pipe.suspendedReadList
      (w.started op).readers) ∧
  forall n, n ∈ writeLength s op ->
    Served (rtRingbufferSpaceLen s.pipe.ringbuffer).toNat n s.pipe.suspendedWriteList
      (w.started op).writers

instance (s : State) (w : Woken) (op : Op) : Decidable (AllServed s w op) :=
  inferInstanceAs (Decidable (_ ∧ _))

/-!
## One step
-/

variable {s s' : State} {w : Woken} {q : List UInt8} {o : Outcome} {op : Op} {t : Tid}

structure Lists (s : State) (w : Woken) : Prop where
  reading : forall t, t ∈ s.pipe.suspendedReadList <->
    (s.thread t).stat = ThreadStat.suspend ∧ (s.pc t).isReading = true
  writing : forall t, t ∈ s.pipe.suspendedWriteList <->
    (s.thread t).stat = ThreadStat.suspend ∧ (s.pc t).isWriting = true
  nodup : s.pipe.suspendedReadList.Nodup ∧ s.pipe.suspendedWriteList.Nodup
  wokenReader : forall t, t ∈ w.readers ->
    (s.thread t).stat = ThreadStat.ready ∧ (s.pc t).isReading = true
  wokenWriter : forall t, t ∈ w.writers ->
    (s.thread t).stat = ThreadStat.ready ∧ (s.pc t).isWriting = true
  wokenOnce : w.readers.Nodup ∧ w.writers.Nodup

/-- Nobody waits for what is there, unless a resumed thread is still to run. -/
structure Waiters (s : State) (w : Woken) (data space : Nat) : Prop where
  lists : Lists s w
  readers : s.pipe.suspendedReadList ≠ [] -> data = 0 ∨ w.readers ≠ []
  writers : s.pipe.suspendedWriteList ≠ [] -> space = 0 ∨ w.writers ≠ []

theorem Pc.one_loop {pc : Pc} (hread : pc.isReading = true) : pc.isWriting = false := by
  cases pc with
  | idle => rfl
  | reading size => rfl
  | writing buffer => cases hread

theorem Lists.withBuffer (hl : Lists s w) (rb : RtRingbuffer) :
    Lists { s with pipe := { s.pipe with ringbuffer := rb } } w :=
  ⟨hl.reading, hl.writing, hl.nodup, hl.wokenReader, hl.wokenWriter, hl.wokenOnce⟩

theorem Lists.resumeReader (hl : Lists s w) (bytes : List UInt8) :
    Lists (rtPipeResumeReader s) (w.note s.pipe (Outcome.written bytes)) ∧
      ((rtPipeResumeReader s).pipe.suspendedReadList ≠ [] ->
        (w.note s.pipe (Outcome.written bytes)).readers ≠ []) := by
  rcases hl with ⟨hread, hwrite, hnodup, hwr, hww, honce⟩
  have hloop := fun t => @Pc.one_loop (s.pc t)
  unfold rtPipeResumeReader Woken.note
  cases hlist : s.pipe.suspendedReadList with
  | nil =>
    simp only [listResume]
    refine ⟨?_, fun h => absurd rfl h⟩
    constructor <;> grind -linarith
  | cons x rest =>
    have hx := (hread x).mp (by rw [hlist]; exact List.mem_cons_self)
    simp only [listResume_cons hx.left]
    refine ⟨?_, by simp⟩
    constructor <;> grind -linarith [update_apply]

theorem Lists.resumeWriter (hl : Lists s w) (b : UInt8) (bytes : List UInt8) :
    Lists (rtPipeResumeWriter s) (w.note s.pipe (Outcome.read (b :: bytes))) ∧
      ((rtPipeResumeWriter s).pipe.suspendedWriteList ≠ [] ->
        (w.note s.pipe (Outcome.read (b :: bytes))).writers ≠ []) := by
  rcases hl with ⟨hread, hwrite, hnodup, hwr, hww, honce⟩
  have hloop := fun t => @Pc.one_loop (s.pc t)
  unfold rtPipeResumeWriter Woken.note
  cases hlist : s.pipe.suspendedWriteList with
  | nil =>
    simp only [listResume]
    refine ⟨?_, fun h => absurd rfl h⟩
    constructor <;> grind -linarith
  | cons x rest =>
    have hx := (hwrite x).mp (by rw [hlist]; exact List.mem_cons_self)
    simp only [listResume_cons hx.left]
    refine ⟨?_, by simp⟩
    constructor <;> grind -linarith [update_apply]

def MayCall (s : State) (t : Tid) : Prop :=
  (s.thread t).stat = ThreadStat.ready ∧ s.pc t = Pc.idle

theorem Lists.suspendReader (hl : Lists s w) (hcall : MayCall s t) (size : Nat) :
    Lists { thread := threadSuspend s.thread t
            pipe := { s.pipe with suspendedReadList := s.pipe.suspendedReadList ++ [t] }
            pc := update s.pc t (Pc.reading size) } w := by
  rcases hl with ⟨hread, hwrite, hnodup, hwr, hww, honce⟩
  rcases hcall with ⟨hready, hidle⟩
  unfold threadSuspend
  rw [if_neg (by simp [hready])]
  constructor <;> grind -linarith [update_apply, Pc.isReading, Pc.isWriting]

theorem Lists.suspendWriter (hl : Lists s w) (hcall : MayCall s t) (buffer : List UInt8) :
    Lists { thread := threadSuspend s.thread t
            pipe := { s.pipe with suspendedWriteList := s.pipe.suspendedWriteList ++ [t] }
            pc := update s.pc t (Pc.writing buffer) } w := by
  rcases hl with ⟨hread, hwrite, hnodup, hwr, hww, honce⟩
  rcases hcall with ⟨hready, hidle⟩
  unfold threadSuspend
  rw [if_neg (by simp [hready])]
  constructor <;> grind -linarith [update_apply, Pc.isReading, Pc.isWriting]

/-- How the bytes in the buffer change in a step with this outcome. -/
def Moved (q q' : List UInt8) : Outcome -> Prop
  | Outcome.waits => q' = q
  | Outcome.read bytes => q = bytes ++ q'
  | Outcome.written bytes => q' = q ++ bytes

def Leaves (s s' : State) (w : Woken) (q : List UInt8) (o : Outcome) : Prop :=
  exists q', Holds s'.pipe.ringbuffer q' ∧
    s'.pipe.ringbuffer.bufferSize = s.pipe.ringbuffer.bufferSize ∧
    s'.pipe.forceWr = s.pipe.forceWr ∧ Moved q q' o ∧
    Waiters s' (w.note s.pipe o) q'.length (s.pipe.ringbuffer.bufferSize - q'.length)

theorem leaves_read {n : Nat} {rb : RtRingbuffer} (hl : Lists s w)
    (hq : Holds rb (q.drop n)) (hsize : rb.bufferSize = s.pipe.ringbuffer.bufferSize)
    (hbytes : q.take n ≠ [])
    (hreaders : s.pipe.suspendedReadList ≠ [] -> q.length ≤ n ∨ w.readers ≠ []) :
    Leaves s (rtPipeResumeWriter { s with pipe := { s.pipe with ringbuffer := rb } }) w q
      (Outcome.read (q.take n)) := by
  refine ⟨q.drop n, hq, hsize, rfl, (List.take_append_drop n q).symm, ?_⟩
  cases htake : q.take n with
  | nil => exact absurd htake hbytes
  | cons b bytes =>
    have hresume := (hl.withBuffer rb).resumeWriter b bytes
    refine ⟨hresume.left, ?_, ?_⟩
    · intro hne
      rcases hreaders hne with hle | hw
      · exact Or.inl (by rw [List.length_drop]; omega)
      · exact Or.inr hw
    · intro hne
      exact Or.inr (hresume.right hne)

theorem leaves_write {bytes : List UInt8} {rb : RtRingbuffer} (hl : Lists s w)
    (hq : Holds rb (q ++ bytes)) (hsize : rb.bufferSize = s.pipe.ringbuffer.bufferSize)
    (hwriters : s.pipe.suspendedWriteList ≠ [] ->
      s.pipe.ringbuffer.bufferSize - q.length ≤ bytes.length ∨ w.writers ≠ []) :
    Leaves s (rtPipeResumeReader { s with pipe := { s.pipe with ringbuffer := rb } }) w q
      (Outcome.written bytes) := by
  have hresume := (hl.withBuffer rb).resumeReader bytes
  refine ⟨q ++ bytes, hq, hsize, rfl, rfl, hresume.left, ?_, ?_⟩
  · intro hne
    exact Or.inr (hresume.right hne)
  · intro hne
    rcases hwriters hne with hle | hw
    · exact Or.inl (by rw [List.length_append]; omega)
    · exact Or.inr hw

theorem Lists.readLoop {size : Nat} (hl : Lists s w) (hq : Holds s.pipe.ringbuffer q)
    (hcall : MayCall s t)
    (hserved : Served q.length (length16 size) s.pipe.suspendedReadList w.readers)
    (hwriters : s.pipe.suspendedWriteList ≠ [] ->
      s.pipe.ringbuffer.bufferSize - q.length = 0 ∨ w.writers ≠ [])
    (hs : readLoop s t size = some (s', o)) : Leaves s s' w q o := by
  rcases getBytes_eq hq size with ⟨rb, hget, hholds, hsize⟩
  simp only [Pipe.readLoop, hget, Option.bind_eq_bind, Option.bind_some] at hs
  split at hs
  · rename_i hnone
    cases hs
    have hsame : q.drop (length16 size) = q := by
      rcases List.take_eq_nil_iff.mp hnone with hzero | hempty
      · rw [hzero, List.drop_zero]
      · rw [hempty, List.drop_nil]
    rw [hsame] at hholds
    refine ⟨q, hholds, hsize, rfl, rfl, (hl.withBuffer rb).suspendReader hcall size, ?_,
      hwriters⟩
    intro _
    rcases List.take_eq_nil_iff.mp hnone with hzero | hempty
    · rcases hserved with hle | ⟨hpos, _⟩ | hw
      · exact Or.inl (by omega)
      · omega
      · exact Or.inr hw
    · exact Or.inl (by rw [hempty]; rfl)
  · rename_i hbytes
    cases hs
    apply leaves_read hl hholds hsize hbytes
    intro hne
    rcases hserved with hle | ⟨_, hnobody⟩ | hw
    · exact Or.inl hle
    · exact absurd hnobody hne
    · exact Or.inr hw

theorem Lists.writeLoop {buffer : List UInt8} (hl : Lists s w)
    (hq : Holds s.pipe.ringbuffer q) (hcall : MayCall s t)
    (hserved : Served (s.pipe.ringbuffer.bufferSize - q.length) (length16 buffer.length)
      s.pipe.suspendedWriteList w.writers)
    (hreaders : s.pipe.suspendedReadList ≠ [] -> q.length = 0 ∨ w.readers ≠ [])
    (hs : writeLoop s t buffer = some (s', o)) : Leaves s s' w q o := by
  have hlen : (buffer.take (length16 buffer.length)).length = length16 buffer.length := by
    rw [List.length_take]
    exact Nat.min_eq_left (Nat.mod_le _ _)
  rcases putBytes_eq hq buffer with ⟨rb, hput, hholds, hsize⟩
  simp only [Pipe.writeLoop, hput, Option.bind_eq_bind, Option.bind_some] at hs
  split at hs
  · rename_i hnone
    cases hs
    rw [hnone, List.append_nil] at hholds
    refine ⟨q, hholds, hsize, rfl, rfl, (hl.withBuffer rb).suspendWriter hcall buffer,
      hreaders, ?_⟩
    intro _
    rcases List.take_eq_nil_iff.mp hnone with hzero | hempty
    · exact Or.inl hzero
    · rw [hempty, List.length_nil] at hlen
      rcases hserved with hle | ⟨hpos, _⟩ | hw
      · exact Or.inl (by omega)
      · omega
      · exact Or.inr hw
  · cases hs
    apply leaves_write hl hholds hsize
    intro hne
    rcases hserved with hle | ⟨_, hnobody⟩ | hw
    · apply Or.inl
      rw [List.length_take, hlen]
      omega
    · exact absurd hnobody hne
    · exact Or.inr hw

theorem Lists.rerun (hl : Lists s w) (hready : (s.thread t).stat = ThreadStat.ready) :
    Lists { s with pc := update s.pc t Pc.idle } (w.started (Op.again t)) := by
  rcases hl with ⟨hread, hwrite, hnodup, hwr, hww, honce⟩
  unfold Woken.started
  have hne {l : List Tid} (hl : l.Nodup) {x : Tid} (hx : x ∈ l.erase t) : x ≠ t := by
    intro heq
    subst heq
    exact hl.not_mem_erase hx
  constructor
  · grind -linarith [update_apply, Pc.isReading]
  · grind -linarith [update_apply, Pc.isWriting]
  · exact hnodup
  · intro x hx
    simp only [update_of_ne (hne honce.left hx)]
    exact hwr x (List.mem_of_mem_erase hx)
  · intro x hx
    simp only [update_of_ne (hne honce.right hx)]
    exact hww x (List.mem_of_mem_erase hx)
  · exact ⟨honce.left.erase t, honce.right.erase t⟩

theorem Waiters.read {caller : Option Tid} {size : Nat}
    (hw : Waiters s w q.length (s.pipe.ringbuffer.bufferSize - q.length))
    (hq : Holds s.pipe.ringbuffer q) (hcall : mayCall s caller = true)
    (hserved : forall n, n ∈ readLength s (Op.read caller size) ->
      Served q.length n s.pipe.suspendedReadList w.readers)
    (hs : rtPipeRead s caller size = some (s', o)) : Leaves s s' w q o := by
  unfold rtPipeRead at hs
  cases hblock : s.pipe.blockRd with
  | false =>
    rcases getBytes_eq hq size with ⟨rb, hget, hholds, hsize⟩
    have htest : (!s.pipe.blockRd) = true := by rw [hblock]; rfl
    simp only [htest, if_true, hget, Option.bind_eq_bind, Option.bind_some] at hs
    split at hs
    · rename_i hnone
      cases hs
      refine ⟨q.drop (length16 size), hholds, hsize, rfl, (List.take_append_drop _ q).symm, ?_⟩
      have hsame : q.drop (length16 size) = q := by
        have happend := List.take_append_drop (length16 size) q
        rwa [hnone] at happend
      rw [hsame, hnone]
      exact ⟨hw.lists.withBuffer rb, hw.readers, hw.writers⟩
    · rename_i hbytes
      cases hs
      apply leaves_read hw.lists hholds hsize hbytes
      intro hne
      rcases hw.readers hne with hzero | hwoken
      · exact Or.inl (by omega)
      · exact Or.inr hwoken
  | true =>
    simp only [hblock, Bool.not_true, Bool.false_eq_true, if_false] at hs
    cases caller with
    | none => cases hs
    | some t =>
      have hmay : MayCall s t := by
        unfold mayCall at hcall
        rwa [Bool.and_eq_true, decide_eq_true_eq, decide_eq_true_eq] at hcall
      exact hw.lists.readLoop hq hmay (hserved _ (by simp [readLength, hblock])) hw.writers hs

theorem Waiters.write {caller : Option Tid} {buffer : List UInt8}
    (hw : Waiters s w q.length (s.pipe.ringbuffer.bufferSize - q.length))
    (hq : Holds s.pipe.ringbuffer q) (hforce : s.pipe.forceWr = false)
    (hcall : mayCall s caller = true)
    (hserved : forall n, n ∈ writeLength s (Op.write caller buffer) ->
      Served (s.pipe.ringbuffer.bufferSize - q.length) n s.pipe.suspendedWriteList w.writers)
    (hs : rtPipeWrite s caller buffer = some (s', o)) : Leaves s s' w q o := by
  unfold rtPipeWrite at hs
  cases hblock : s.pipe.blockWr with
  | false =>
    rcases putBytes_eq hq buffer with ⟨rb, hput, hholds, hsize⟩
    have htest : (s.pipe.forceWr || !s.pipe.blockWr) = true := by rw [hblock]; simp
    have hnoforce : ¬ s.pipe.forceWr = true := by rw [hforce]; nofun
    simp only [htest, if_true, if_neg hnoforce, hput, Option.bind_eq_bind, Option.bind_some] at hs
    cases hs
    apply leaves_write hw.lists hholds hsize
    intro hne
    rcases hw.writers hne with hzero | hwoken
    · exact Or.inl (by omega)
    · exact Or.inr hwoken
  | true =>
    simp only [hblock, hforce, Bool.not_true, Bool.or_false, Bool.false_eq_true, if_false] at hs
    cases caller with
    | none => cases hs
    | some t =>
      have hmay : MayCall s t := by
        unfold mayCall at hcall
        rwa [Bool.and_eq_true, decide_eq_true_eq, decide_eq_true_eq] at hcall
      exact hw.lists.writeLoop hq hmay (hserved _ (by simp [writeLength, hblock])) hw.readers hs

theorem Waiters.again (hw : Waiters s w q.length (s.pipe.ringbuffer.bufferSize - q.length))
    (hq : Holds s.pipe.ringbuffer q) (hready : (s.thread t).stat = ThreadStat.ready)
    (hread : forall n, n ∈ readLength s (Op.again t) ->
      Served q.length n s.pipe.suspendedReadList (w.started (Op.again t)).readers)
    (hwrite : forall n, n ∈ writeLength s (Op.again t) ->
      Served (s.pipe.ringbuffer.bufferSize - q.length) n s.pipe.suspendedWriteList
        (w.started (Op.again t)).writers)
    (hs : again s t = some (s', o)) : Leaves s s' (w.started (Op.again t)) q o := by
  have hlists := hw.lists.rerun hready
  have hmay : MayCall { s with pc := update s.pc t Pc.idle } t :=
    ⟨hready, update_self ..⟩
  unfold Pipe.again at hs
  simp only at hs
  split at hs
  · cases hs
  · rename_i size hpc
    -- a reader was resumed by no read
    have hnot : t ∉ w.writers := by
      intro hin
      have hloop := (hw.lists.wokenWriter t hin).right
      rw [hpc] at hloop
      cases hloop
    have hsame : (w.started (Op.again t)).writers = w.writers :=
      List.erase_of_not_mem hnot
    exact hlists.readLoop hq hmay (hread _ (by simp [readLength, hpc]))
      (by rw [hsame]; exact hw.writers) hs
  · rename_i buffer hpc
    have hnot : t ∉ w.readers := by
      intro hin
      have hloop := (hw.lists.wokenReader t hin).right
      rw [hpc] at hloop
      cases hloop
    have hsame : (w.started (Op.again t)).readers = w.readers :=
      List.erase_of_not_mem hnot
    exact hlists.writeLoop hq hmay (hwrite _ (by simp [writeLength, hpc]))
      (by rw [hsame]; exact hw.readers) hs

theorem Waiters.step (hw : Waiters s w q.length (s.pipe.ringbuffer.bufferSize - q.length))
    (hq : Holds s.pipe.ringbuffer q) (hforce : s.pipe.forceWr = false)
    (hserved : AllServed s w op) (hs : stepOutcome s op = some (s', o)) :
    Leaves s s' (w.started op) q o := by
  have hdata : rtRingbufferDataLen s.pipe.ringbuffer = q.length := by
    rw [rtRingbufferDataLen_eq hq.wf, hq.used]
  have hspace : (rtRingbufferSpaceLen s.pipe.ringbuffer).toNat =
      s.pipe.ringbuffer.bufferSize - q.length := by
    rw [rtRingbufferSpaceLen_eq hq.wf, hq.used, Int.toNat_natCast]
  rcases hserved with ⟨hread, hwrite⟩
  rw [hdata] at hread
  rw [hspace] at hwrite
  cases op with
  | read caller size =>
    simp only [stepOutcome] at hs
    split at hs
    · rename_i hcall
      exact hw.read hq hcall hread hs
    · cases hs
  | write caller buffer =>
    simp only [stepOutcome] at hs
    split at hs
    · rename_i hcall
      exact hw.write hq hforce hcall hwrite hs
    · cases hs
  | again t =>
    simp only [stepOutcome] at hs
    split at hs
    · rename_i hready
      exact hw.again hq hready hread hwrite hs
    · cases hs

/-!
## No lost wake-up
-/

def Watching (s : State) (h : History) : Prop :=
  exists q, Holds s.pipe.ringbuffer q ∧ s.pipe.forceWr = false ∧
    Waiters s h.woken q.length (s.pipe.ringbuffer.bufferSize - q.length) ∧
    h.written.map Prod.snd = h.read ++ q

theorem Watching.step {h : History} (hw : Watching s h) (hserved : AllServed s h.woken op)
    (hs : step s op = some s') : Watching s' (recordHistory s op s' h) := by
  rcases hw with ⟨q, hq, hforce, hwaiters, hbytes⟩
  rcases step_outcome hs with ⟨o, hstep, hout⟩
  rcases hwaiters.step hq hforce hserved hstep with
    ⟨q', hq', hsize, hforce', hmoved, hwaiters'⟩
  unfold recordHistory
  rw [hout]
  refine ⟨q', hq', by rw [hforce', hforce], ?_, ?_⟩
  · rw [hsize]
    cases o <;> exact hwaiters'
  · cases o with
    | waits =>
      cases hmoved
      exact hbytes
    | read bytes =>
      show h.written.map Prod.snd = (h.read ++ bytes) ++ q'
      rw [hbytes, show q = bytes ++ q' from hmoved, List.append_assoc]
    | written bytes =>
      have hnew : (bytes.map fun b => (op.caller, b)).map Prod.snd = bytes := by
        rw [List.map_map]
        exact List.map_id bytes
      show (h.written ++ bytes.map fun b => (op.caller, b)).map Prod.snd = h.read ++ q'
      rw [List.map_append, hnew, hbytes, show q' = q ++ bytes from hmoved, List.append_assoc]

/-- The contract of a pipe in one state.  The bytes read are the first ones written, by
whomever, and the others are in the buffer. -/
structure PipeHolds (s : State) (h : History) : Prop where
  bytes : h.written.map Prod.snd = h.read ++ s.pipe.ringbuffer.contents
  data : rtRingbufferDataLen s.pipe.ringbuffer = s.pipe.ringbuffer.contents.length
  readers : h.woken = noneWoken -> rtRingbufferDataLen s.pipe.ringbuffer ≠ 0 ->
    forall t, (s.thread t).stat = ThreadStat.suspend -> (s.pc t).isReading = false
  writers : h.woken = noneWoken -> rtRingbufferSpaceLen s.pipe.ringbuffer ≠ 0 ->
    forall t, (s.thread t).stat = ThreadStat.suspend -> (s.pc t).isWriting = false

theorem Watching.holds {h : History} (hw : Watching s h) : PipeHolds s h := by
  rcases hw with ⟨q, hq, _, hwaiters, hbytes⟩
  have hdata : rtRingbufferDataLen s.pipe.ringbuffer = q.length := by
    rw [rtRingbufferDataLen_eq hq.wf, hq.used]
  constructor
  · rw [hq.contents_eq]
    exact hbytes
  · rw [hq.contents_eq]
    exact hdata
  · intro hquiet hsome t hstat
    by_contra hreading
    have hin := (hwaiters.lists.reading t).mpr ⟨hstat, by simpa using hreading⟩
    rcases hwaiters.readers (List.ne_nil_of_mem hin) with hzero | hwoken
    · exact hsome (by rw [hdata, hzero])
    · exact hwoken (by rw [hquiet]; rfl)
  · intro hquiet hsome t hstat
    by_contra hwriting
    have hin := (hwaiters.lists.writing t).mpr ⟨hstat, by simpa using hwriting⟩
    rcases hwaiters.writers (List.ne_nil_of_mem hin) with hzero | hwoken
    · apply hsome
      rw [rtRingbufferSpaceLen_eq hq.wf, hq.used, hzero]
      rfl
    · exact hwoken (by rw [hquiet]; rfl)

/-- In every state of every interleaved run in which all are served. -/
theorem pipe_wakes_waiters {s0 s : State} {h : History} {ops : List Op} (hboot : Booted s0)
    (hrun : Run (Guarded (fun x op => AllServed x.1 x.2.woken op)
      (Graph (watched step recordHistory))) (s0, noHistory) ops (s, h)) :
    PipeHolds s h := by
  have hinv : Watching s h := by
    apply hrun.guarded_watched_invariant Watching
    · rcases hboot with ⟨⟨pool, size, align, halign, hle, hmax, hrb⟩, hforce, hlists,
        hthread, hpc⟩
      refine ⟨[], ?_, hforce, ⟨?_, fun h => absurd hlists.left h,
        fun h => absurd hlists.right h⟩, rfl⟩
      · rw [hrb]
        exact init_holds pool halign hle hmax
      · unfold noHistory noneWoken
        constructor <;> grind -linarith [Pc.isReading, Pc.isWriting]
    · intro s h op s' hx hserved hstep
      exact hx.step hserved hstep
  exact hinv.holds

/-- Two readers wait, and a write from an interrupt resumes the first, which takes both
bytes. -/
theorem pipe_wakes_waiters_two_readers :
    exists s h, Run (Guarded (fun x op => AllServed x.1 x.2.woken op)
        (Graph (watched step recordHistory))) (bootState 4 false, noHistory)
        [Op.read (some 1) 2, Op.read (some 2) 1, Op.write none [7, 8], Op.again 1] (s, h) ∧
      h.read = [7, 8] ∧ PipeHolds s h := by
  have hexec : (exec (fun (x : State × History) op =>
      if AllServed x.1 x.2.woken op then watched step recordHistory x op else none)
      (bootState 4 false, noHistory)
      [Op.read (some 1) 2, Op.read (some 2) 1, Op.write none [7, 8], Op.again 1]).map
        (fun x => x.2.read) = some [7, 8] := by
    decide +kernel
  rw [Option.map_eq_some_iff] at hexec
  rcases hexec with ⟨⟨s, h⟩, hexec, hread⟩
  have hrun := @guarded_run_of_exec _ _ _ _
    (fun (x : State × History) op => AllServed x.1 x.2.woken op) _ _ _ hexec
  exact ⟨s, h, hrun, hread,
    pipe_wakes_waiters (bootState_booted (by decide) (by decide) false) hrun⟩

/-- Two readers wait. A write of two bytes resumes the first, which takes one; the second
stays suspended with a byte in the buffer. -/
theorem second_reader_stranded :
    exists s h, Run (Graph (watched step recordHistory)) (bootState 4 true, noHistory)
        [Op.read (some 1) 1, Op.read (some 2) 1, Op.write (some 3) [7, 8], Op.again 1]
        (s, h) ∧
      h.woken = noneWoken ∧ rtRingbufferDataLen s.pipe.ringbuffer = 1 ∧
      (s.thread 2).stat = ThreadStat.suspend ∧ (s.pc 2).isReading = true ∧
      ¬ PipeHolds s h := by
  have hexec : (exec (watched step recordHistory) (bootState 4 true, noHistory)
      [Op.read (some 1) 1, Op.read (some 2) 1, Op.write (some 3) [7, 8], Op.again 1]).map
      (fun x => (x.2.woken, rtRingbufferDataLen x.1.pipe.ringbuffer, (x.1.thread 2).stat,
        (x.1.pc 2).isReading)) = some (noneWoken, 1, ThreadStat.suspend, true) := by
    decide +kernel
  rw [Option.map_eq_some_iff] at hexec
  rcases hexec with ⟨⟨s, h⟩, hexec, heq⟩
  simp only [Prod.mk.injEq] at heq
  rcases heq with ⟨hwoken, hdata, hstat, hpc⟩
  refine ⟨s, h, run_of_exec hexec, hwoken, hdata, hstat, hpc, ?_⟩
  intro hholds
  have hreading := hholds.readers hwoken (by rw [hdata]; decide) 2 hstat
  rw [hpc] at hreading
  cases hreading

end RtThread.Drivers.Pipe
