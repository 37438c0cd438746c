import RtThread.Kernel.Thread
import RtThread.Library.RingBuffer
import RtThread.Library.Transition

/-!
# The receive side of a serial device in interrupt mode

The loop of `_serial_int_rx` and the loop of `rt_hw_serial_isr` on
`RT_SERIAL_EVENT_RX_IND` both take one byte in each round with interrupts disabled, so a
step is one round of either.  Any number of threads may be reading.
-/

namespace RtThread.Drivers.SerialRx

open Kernel
open RingBuffer
open Transition

structure RxFifo where
  buffer : Nat -> UInt8
  putIndex : Nat
  getIndex : Nat

/-- A call of `_serial_int_rx`: how many bytes it still wants and those it has. -/
structure Reader where
  length : Nat
  data : List UInt8
deriving DecidableEq, Repr

structure State where
  bufsz : Nat
  fifo : RxFifo
  reader : Tid -> Option Reader

/-- What a step tells: the byte that a read took, what a read returned, the length that
`rx_indicate` was called with. -/
inductive Outcome where
  | got (ch : UInt8)
  | returned (data : List UInt8)
  | indicated (length : Nat)
  | silent
deriving DecidableEq, Repr

/-!
## Operations
-/

/-- An index is a 16-bit number that goes back to 0 at the buffer size. -/
def bump (bufsz i : Nat) : Nat :=
  let next := (i + 1) % 2 ^ 16
  if next ≥ bufsz then 0 else next

/-- One round of the receive interrupt: store the byte and, where the next position is
the read index, discard the oldest one. -/
def RxFifo.put (f : RxFifo) (bufsz : Nat) (ch : UInt8) : RxFifo :=
  let put := bump bufsz f.putIndex
  { buffer := Function.update f.buffer f.putIndex ch
    putIndex := put
    getIndex := if put = f.getIndex then bump bufsz f.getIndex else f.getIndex }

/-- `rx_length`, by one formula or the other depending on which index is ahead. -/
def rxLength (s : State) : Nat :=
  if s.fifo.putIndex ≥ s.fifo.getIndex then s.fifo.putIndex - s.fifo.getIndex
  else s.bufsz - (s.fifo.getIndex - s.fifo.putIndex)

/-- One round of `_serial_int_rx`. -/
def intRxRound (s : State) (t : Tid) (r : Reader) : State × Outcome :=
  if r.length = 0 then
    ({ s with reader := Function.update s.reader t none }, Outcome.returned r.data)
  else if s.fifo.getIndex ≠ s.fifo.putIndex then
    let ch := s.fifo.buffer s.fifo.getIndex
    ({ s with
        fifo := { s.fifo with getIndex := bump s.bufsz s.fifo.getIndex }
        reader := Function.update s.reader t
          (some { length := r.length - 1, data := r.data ++ [ch] }) }, Outcome.got ch)
  else
    ({ s with reader := Function.update s.reader t none }, Outcome.returned r.data)

inductive Op where
  | receive (ch : UInt8)
  | indicate
  | read (t : Tid) (size : Nat)
  | round (t : Tid)
deriving DecidableEq, Repr

def stepOutcome (s : State) : Op -> Option (State × Outcome)
  | Op.receive ch => some ({ s with fifo := s.fifo.put s.bufsz ch }, Outcome.silent)
  | Op.indicate => some (s, Outcome.indicated (rxLength s))
  | Op.read t size =>
    match s.reader t with
    | none =>
      some ({ s with
          reader := Function.update s.reader t (some { length := size, data := [] }) },
        Outcome.silent)
    | some _ => none
  | Op.round t => (s.reader t).map (intRxRound s t)

def step (s : State) (op : Op) : Option State := (stepOutcome s op).map Prod.fst

/-- The fifo as `rt_serial_open` leaves it; `bufsz` is a field of 16 bits. -/
structure Booted (s : State) : Prop where
  bufsz : s.bufsz < 2 ^ 16
  put : s.fifo.putIndex = 0
  get : s.fifo.getIndex = 0

/-!
## The received bytes and what became of them
-/

inductive Fate where
  | unread
  | read
  | dropped
deriving DecidableEq, Repr

def settle (fate : Fate) : List (UInt8 × Fate) -> List (UInt8 × Fate)
  | [] => []
  | (ch, Fate.unread) :: rest => (ch, fate) :: rest
  | entry :: rest => entry :: settle fate rest

def bytes (fate : Fate) (log : List (UInt8 × Fate)) : List UInt8 :=
  (log.filter fun entry => entry.2 = fate).map Prod.fst

/-- A byte has come in: the oldest unread one is dropped if more than `bufsz - 1` are
outstanding. -/
def arrive (bufsz : Nat) (log : List (UInt8 × Fate)) (ch : UInt8) :
    List (UInt8 × Fate) :=
  let log' := log ++ [(ch, Fate.unread)]
  if bufsz - 1 < (bytes Fate.unread log').length then settle Fate.dropped log' else log'

/-- All received bytes in order, with their fates, and the bytes that reads have taken in
the order in which they took them. -/
structure Account where
  received : List UInt8
  log : List (UInt8 × Fate)
  taken : List UInt8
deriving DecidableEq, Repr

def record (s : State) (op : Op) (_ : State) (a : Account) : Account :=
  match op, stepOutcome s op with
  | Op.receive ch, _ =>
    { a with received := a.received ++ [ch], log := arrive s.bufsz a.log ch }
  | _, some (_, Outcome.got ch) =>
    { a with log := settle Fate.read a.log, taken := a.taken ++ [ch] }
  | _, _ => a

section Fates

variable {old : List (UInt8 × Fate)} {u : List UInt8} {ch : UInt8} {fate : Fate}

def logged (old : List (UInt8 × Fate)) (u : List UInt8) : List (UInt8 × Fate) :=
  old ++ u.map fun ch => (ch, Fate.unread)

def Settled (old : List (UInt8 × Fate)) : Prop :=
  forall entry, entry ∈ old -> entry.2 ≠ Fate.unread

theorem Settled.snoc (hold : Settled old) (hfate : fate ≠ Fate.unread) :
    Settled (old ++ [(ch, fate)]) := by
  intro entry hentry
  rcases List.mem_append.mp hentry with hin | hin
  · exact hold entry hin
  · rw [List.mem_singleton.mp hin]
    exact hfate

theorem settle_logged (hold : Settled old) :
    settle fate (logged old (ch :: u)) = logged (old ++ [(ch, fate)]) u := by
  unfold logged
  induction old with
  | nil => rfl
  | cons entry rest ih =>
    have hrest : Settled rest := fun e he => hold e (List.mem_cons_of_mem _ he)
    have hentry : entry.2 ≠ Fate.unread := hold entry List.mem_cons_self
    obtain ⟨b, f⟩ := entry
    cases f with
    | unread => exact absurd rfl hentry
    | read => simpa [settle] using ih hrest
    | dropped => simpa [settle] using ih hrest

theorem bytes_append (l l' : List (UInt8 × Fate)) :
    bytes fate (l ++ l') = bytes fate l ++ bytes fate l' := by
  simp [bytes]

theorem bytes_map_unread (u : List UInt8) :
    bytes Fate.unread (u.map fun ch => (ch, Fate.unread)) = u := by
  induction u with
  | nil => rfl
  | cons ch u ih =>
    simp only [bytes, List.map_cons, List.filter_cons, decide_true, if_true] at ih ⊢
    rw [ih]

theorem bytes_settled (hold : Settled old) : bytes Fate.unread old = [] := by
  unfold bytes
  rw [List.map_eq_nil_iff, List.filter_eq_nil_iff]
  intro entry hentry
  simpa using hold entry hentry

theorem bytes_unread_logged (hold : Settled old) : bytes Fate.unread (logged old u) = u := by
  unfold logged
  rw [bytes_append, bytes_settled hold, bytes_map_unread, List.nil_append]

theorem bytes_read_logged : bytes Fate.read (logged old u) = bytes Fate.read old := by
  have hnone : bytes Fate.read (u.map fun ch => (ch, Fate.unread)) = [] := by
    unfold bytes
    rw [List.map_eq_nil_iff, List.filter_eq_nil_iff]
    intro entry hentry
    obtain ⟨ch, _, rfl⟩ := List.mem_map.mp hentry
    simp
  unfold logged
  rw [bytes_append, hnone, List.append_nil]

theorem logged_snoc : logged old u ++ [(ch, Fate.unread)] = logged old (u ++ [ch]) := by
  simp [logged]

theorem logged_bytes : (logged old u).map Prod.fst = old.map Prod.fst ++ u := by
  simp [logged, Function.comp_def]

end Fates

/-!
## The fifo holds the unread bytes
-/

/-- How many cells the indices run over: an index is 0 also where there is no buffer. -/
def cells (bufsz : Nat) : Nat := max bufsz 1

/-- The cells from the get index to the put index hold `u`, and one cell stays free. -/
structure Holds (s : State) (u : List UInt8) : Prop where
  bufsz : s.bufsz < 2 ^ 16
  stores : Stores s.fifo.buffer (cells s.bufsz) s.fifo.getIndex u
  put : s.fifo.putIndex = (s.fifo.getIndex + u.length) % cells s.bufsz
  free : u.length < cells s.bufsz

/-- The log is that of the received bytes, what reads took has fate read, and the unread
bytes are those of the fifo. -/
def Represents (s : State) (a : Account) : Prop :=
  exists old u, a.log = logged old u ∧ Settled old ∧ Holds s u ∧
    a.taken = bytes Fate.read old ∧ a.received = old.map Prod.fst ++ u

variable {s s' : State} {a : Account} {o : Outcome} {u : List UInt8} {ch : UInt8}

theorem bump_eq_advance {bufsz i : Nat} (hbufsz : bufsz < 2 ^ 16) (hi : i < cells bufsz) :
    bump bufsz i = advance (cells bufsz) i := by
  unfold cells at *
  unfold bump advance
  have hfits : (i + 1) % 2 ^ 16 = i + 1 := Nat.mod_eq_of_lt (by omega)
  simp only [hfits]
  split <;> split <;> omega

theorem Holds.put_lt (h : Holds s u) : s.fifo.putIndex < cells s.bufsz := by
  rw [h.put]
  exact Nat.mod_lt _ (Nat.zero_lt_of_lt h.free)

theorem Holds.bump_put (h : Holds s u) :
    bump s.bufsz s.fifo.putIndex = (s.fifo.getIndex + (u.length + 1)) % cells s.bufsz := by
  rw [bump_eq_advance h.bufsz h.put_lt, advance_eq_mod h.put_lt, h.put, Nat.mod_add_mod,
    Nat.add_assoc]

theorem Holds.meets (h : Holds s u) :
    bump s.bufsz s.fifo.putIndex = s.fifo.getIndex <-> u.length + 1 = cells s.bufsz := by
  have hget := h.stores.offset
  have hfree := h.free
  rw [h.bump_put]
  constructor
  · intro hmeet
    by_contra hne
    have hapart := @mod_add_ne (cells s.bufsz) s.fifo.getIndex 0 (u.length + 1) (by omega)
      (by omega)
    rw [Nat.add_zero, Nat.mod_eq_of_lt hget] at hapart
    exact hapart hmeet.symm
  · intro hfull
    rw [hfull, Nat.add_mod_right, Nat.mod_eq_of_lt hget]

theorem Holds.receive (h : Holds s u) : Holds { s with fifo := s.fifo.put s.bufsz ch }
      (if s.bufsz - 1 < u.length + 1 then (u ++ [ch]).tail else u ++ [ch]) := by
  have hpush := h.stores.push h.free ch
  rw [← h.put] at hpush
  have hget := h.stores.offset
  have hcells : cells s.bufsz = max s.bufsz 1 := rfl
  have hfree := h.free
  by_cases hfull : u.length + 1 = cells s.bufsz
  · have hdrop : s.bufsz - 1 < u.length + 1 := by omega
    have hmeet := h.meets.mpr hfull
    rw [if_pos hdrop]
    cases hsplit : u ++ [ch] with
    | nil => simp at hsplit
    | cons b rest =>
      rw [hsplit] at hpush
      have hlength : rest.length = u.length := by
        have hsum := congrArg List.length hsplit
        simpa using hsum.symm
      have hadv := bump_eq_advance h.bufsz hget
      refine ⟨h.bufsz, ?_, ?_, ?_⟩
      · simp only [RxFifo.put, hmeet, if_true, hadv, List.tail_cons]
        exact hpush.pop
      · simp only [RxFifo.put, hmeet, if_true, hadv, List.tail_cons, hlength]
        rw [advance_add_mod hget, hfull, Nat.add_mod_right, Nat.mod_eq_of_lt hget]
      · simp only [List.tail_cons, hlength]
        exact h.free
  · have hkeep : ¬ s.bufsz - 1 < u.length + 1 := by omega
    have hapart : ¬ bump s.bufsz s.fifo.putIndex = s.fifo.getIndex := by
      rw [h.meets]
      exact hfull
    rw [if_neg hkeep]
    refine ⟨h.bufsz, ?_, ?_, ?_⟩
    · simp only [RxFifo.put, hapart, if_false]
      exact hpush
    · simp only [RxFifo.put, hapart, if_false, List.length_append, List.length_singleton]
      exact h.bump_put
    · simp only [List.length_append, List.length_singleton]
      omega

theorem Holds.empty_iff (h : Holds s u) : s.fifo.getIndex = s.fifo.putIndex <-> u = [] := by
  have hget := h.stores.offset
  rw [h.put]
  constructor
  · intro heq
    by_contra hne
    have hpos : 0 < u.length := List.length_pos_iff.mpr hne
    have hapart := @mod_add_ne (cells s.bufsz) s.fifo.getIndex 0 u.length hpos h.free
    rw [Nat.add_zero, Nat.mod_eq_of_lt hget] at hapart
    exact hapart heq
  · intro hnil
    rw [hnil, List.length_nil, Nat.add_zero, Nat.mod_eq_of_lt hget]

theorem Holds.take (h : Holds s (ch :: u)) : s.fifo.buffer s.fifo.getIndex = ch ∧
      Holds { s with fifo := { s.fifo with getIndex := bump s.bufsz s.fifo.getIndex } } u := by
  have hget := h.stores.offset
  have hfree := h.free
  rw [List.length_cons] at hfree
  refine ⟨h.stores.head, h.bufsz, ?_, ?_, ?_⟩
  · simp only [bump_eq_advance h.bufsz hget]
    exact h.stores.pop
  · simp only [bump_eq_advance h.bufsz hget]
    rw [advance_add_mod hget]
    exact h.put
  · simp only
    omega

theorem Holds.rxLength (h : Holds s u) : rxLength s = u.length := by
  have hget := h.stores.offset
  have hfree := h.free
  have hput := h.put
  have hcells : cells s.bufsz = max s.bufsz 1 := rfl
  unfold SerialRx.rxLength
  rcases Nat.lt_or_ge (s.fifo.getIndex + u.length) (cells s.bufsz) with hlow | hwrap
  · rw [Nat.mod_eq_of_lt hlow] at hput
    rw [if_pos (by omega)]
    omega
  · rw [Nat.mod_eq_sub_mod hwrap, Nat.mod_eq_of_lt (by omega)] at hput
    rw [if_neg (by omega)]
    omega

theorem Holds.frame (h : Holds s u) (hbufsz : s'.bufsz = s.bufsz) (hfifo : s'.fifo = s.fifo) :
    Holds s' u := by
  refine ⟨?_, ?_, ?_, ?_⟩
  · rw [hbufsz]
    exact h.bufsz
  · rw [hbufsz, hfifo]
    exact h.stores
  · rw [hbufsz, hfifo]
    exact h.put
  · rw [hbufsz]
    exact h.free

/-!
## Steps
-/

theorem Represents.receive (hr : Represents s a) :
    Represents { s with fifo := s.fifo.put s.bufsz ch }
      { a with received := a.received ++ [ch], log := arrive s.bufsz a.log ch } := by
  obtain ⟨old, u, hlog, hold, hholds, htaken, hreceived⟩ := hr
  have hnext := @Holds.receive _ _ ch hholds
  have hlength : (bytes Fate.unread (logged old (u ++ [ch]))).length = u.length + 1 := by
    rw [bytes_unread_logged hold, List.length_append, List.length_singleton]
  unfold arrive
  simp only [hlog, logged_snoc, hlength]
  split at hnext
  · next hdrop =>
      rw [if_pos hdrop]
      cases hsplit : u ++ [ch] with
      | nil => simp at hsplit
      | cons b rest =>
        rw [hsplit, List.tail_cons] at hnext
        refine ⟨old ++ [(b, Fate.dropped)], rest, settle_logged hold,
          hold.snoc (by decide), hnext, ?_, ?_⟩
        · rw [bytes_append, htaken]
          simp [bytes]
        · simp [hreceived, ← hsplit]
  · next hkeep =>
      rw [if_neg hkeep]
      exact ⟨old, u ++ [ch], rfl, hold, hnext, htaken, by simp [hreceived]⟩

theorem Represents.round {t : Tid} {r : Reader} (hr : Represents s a)
    (hs : intRxRound s t r = (s', o)) :
    match o with
    | Outcome.got ch =>
      Represents s' { a with log := settle Fate.read a.log, taken := a.taken ++ [ch] }
    | _ => Represents s' a := by
  obtain ⟨old, u, hlog, hold, hholds, htaken, hreceived⟩ := hr
  have hframe : Represents { s with reader := Function.update s.reader t none } a :=
    ⟨old, u, hlog, hold, hholds.frame rfl rfl, htaken, hreceived⟩
  unfold intRxRound at hs
  split at hs
  · cases hs
    exact hframe
  · split at hs
    · next hdata =>
        cases u with
        | nil => exact absurd (hholds.empty_iff.mpr rfl) hdata
        | cons b rest =>
          obtain ⟨hcell, hrest⟩ := hholds.take
          cases hs
          simp only [hcell]
          refine ⟨old ++ [(b, Fate.read)], rest, ?_, hold.snoc (by decide),
            hrest.frame rfl rfl, ?_, ?_⟩
          · rw [hlog]
            exact settle_logged hold
          · rw [bytes_append, htaken]
            simp [bytes]
          · simp [hreceived]
    · cases hs
      exact hframe

theorem Represents.step {op : Op} (hr : Represents s a) (hs : step s op = some s') :
    Represents s' (record s op s' a) := by
  unfold SerialRx.step at hs
  rw [Option.map_eq_some_iff] at hs
  obtain ⟨⟨s1, o⟩, hs, heq⟩ := hs
  subst heq
  cases op with
  | receive ch =>
    cases hs
    exact hr.receive
  | indicate =>
    cases hs
    exact hr
  | read t size =>
    obtain ⟨old, u, hlog, hold, hholds, htaken, hreceived⟩ := hr
    have hsame : s1.bufsz = s.bufsz ∧ s1.fifo = s.fifo ∧ o = Outcome.silent := by
      simp only [stepOutcome] at hs
      split at hs
      · cases hs
        exact ⟨rfl, rfl, rfl⟩
      · cases hs
    obtain ⟨hbufsz, hfifo, rfl⟩ := hsame
    unfold record
    rw [hs]
    exact ⟨old, u, hlog, hold, hholds.frame hbufsz hfifo, htaken, hreceived⟩
  | round t =>
    unfold record
    rw [hs]
    simp only [stepOutcome, Option.map_eq_some_iff] at hs
    obtain ⟨r, _, hround⟩ := hs
    have hnext := hr.round hround
    cases o with
    | got ch => exact hnext
    | returned data => exact hnext
    | indicated n => exact hnext
    | silent => exact hnext

theorem Booted.represents (hboot : Booted s) : Represents s ⟨[], [], []⟩ := by
  have hcells : 0 < cells s.bufsz := Nat.lt_of_lt_of_le Nat.one_pos (Nat.le_max_right _ _)
  refine ⟨[], [], rfl, ?_, ⟨hboot.bufsz, ?_, ?_, hcells⟩, rfl, rfl⟩
  · intro entry hentry
    cases hentry
  · rw [hboot.get]
    exact Stores.nil _ hcells
  · rw [hboot.get, hboot.put, List.length_nil, Nat.zero_mod]

/-- In every run, for every buffer size: the log lists the received bytes, the bytes that
reads took are those with fate read, in order, no byte was taken or dropped behind an unread
one, at most `bufsz - 1` bytes are unread, `rx_indicate` is called with their number, and
both indices are below `bufsz`, or 0 without a buffer. -/
theorem serial_rx_is_fifo {s0 s : State} {a : Account} {ops : List Op} (hboot : Booted s0)
    (hrun : Run (Graph (watched step record)) (s0, ⟨[], [], []⟩) ops (s, a)) :
    a.log.map Prod.fst = a.received ∧
      a.taken = bytes Fate.read a.log ∧
      (exists old u, a.log = logged old u ∧ Settled old) ∧
      (bytes Fate.unread a.log).length ≤ s.bufsz - 1 ∧
      stepOutcome s Op.indicate =
        some (s, Outcome.indicated (bytes Fate.unread a.log).length) ∧
      s.fifo.putIndex < max s.bufsz 1 ∧ s.fifo.getIndex < max s.bufsz 1 := by
  have hinv : Represents s a := by
    apply hrun.watched_invariant Represents hboot.represents
    intro s a op s' hx hstep
    exact hx.step hstep
  obtain ⟨old, u, hlog, hold, hholds, htaken, hreceived⟩ := hinv
  have hunread : bytes Fate.unread a.log = u := by
    rw [hlog]
    exact bytes_unread_logged hold
  have hfree := hholds.free
  have hcells : cells s.bufsz = max s.bufsz 1 := rfl
  refine ⟨?_, ?_, ⟨old, u, hlog, hold⟩, ?_, ?_, hholds.put_lt, hholds.stores.offset⟩
  · rw [hlog, logged_bytes, hreceived]
  · rw [hlog, bytes_read_logged, htaken]
  · rw [hunread]
    omega
  · rw [hunread, ← hholds.rxLength]
    rfl

/-- A device that was just opened with a buffer of this size. -/
def openState (bufsz : Nat) : State :=
  { bufsz := bufsz
    fifo := { buffer := fun _ => 0, putIndex := 0, getIndex := 0 }
    reader := fun _ => none }

theorem openState_booted {bufsz : Nat} (hbufsz : bufsz < 2 ^ 16) : Booted (openState bufsz) :=
  ⟨hbufsz, rfl, rfl⟩

/-- Two bytes fit into a buffer of three: the third to come in drops the first. -/
theorem serial_rx_is_fifo_overrun :
    exists s a, Run (Graph (watched step record)) (openState 3, ⟨[], [], []⟩)
        [Op.receive 65, Op.read 1 4, Op.receive 66, Op.receive 67, Op.round 1] (s, a) ∧
      a.log = [(65, Fate.dropped), (66, Fate.read), (67, Fate.unread)] ∧ a.taken = [66] ∧
      stepOutcome s Op.indicate =
        some (s, Outcome.indicated (bytes Fate.unread a.log).length) := by
  have hexec : (exec (watched step record) (openState 3, ⟨[], [], []⟩)
      [Op.receive 65, Op.read 1 4, Op.receive 66, Op.receive 67, Op.round 1]).map Prod.snd =
      some ⟨[65, 66, 67], [(65, Fate.dropped), (66, Fate.read), (67, Fate.unread)],
        [66]⟩ := by
    decide +kernel
  rw [Option.map_eq_some_iff] at hexec
  obtain ⟨⟨s, a⟩, hexec, haccount⟩ := hexec
  have hrun := run_of_exec hexec
  have hfifo := serial_rx_is_fifo (openState_booted (by decide)) hrun
  have ha : a = _ := haccount
  refine ⟨s, a, hrun, ?_, ?_, hfifo.2.2.2.2.1⟩
  · rw [ha]
  · rw [ha]

/-- No index is below the size of a buffer of size 0. -/
theorem index_outside_empty_buffer :
    exists s a, Booted (openState 0) ∧
      Run (Graph (watched step record)) (openState 0, ⟨[], [], []⟩) [Op.receive 65] (s, a) ∧
      s.bufsz = 0 ∧ ¬ s.fifo.putIndex < s.bufsz ∧ ¬ s.fifo.getIndex < s.bufsz := by
  have hexec : (exec (watched step record) (openState 0, ⟨[], [], []⟩)
      [Op.receive 65]).map (fun x => x.1.bufsz) = some 0 := by
    decide +kernel
  rw [Option.map_eq_some_iff] at hexec
  obtain ⟨⟨s, a⟩, hexec, hbufsz⟩ := hexec
  have hzero : s.bufsz = 0 := hbufsz
  refine ⟨s, a, openState_booted (by decide), run_of_exec hexec, hzero, ?_, ?_⟩
  · rw [hzero]
    exact Nat.not_lt_zero _
  · rw [hzero]
    exact Nat.not_lt_zero _

end RtThread.Drivers.SerialRx
