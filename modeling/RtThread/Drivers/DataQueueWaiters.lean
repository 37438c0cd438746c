import RtThread.Drivers.DataQueueFifo

/-!
# Who waits at a data queue

A push resumes one suspended pop. A pop resumes a suspended push only when it brings the queue
down to the low-water mark, and then clears the flag that all pushes share, so that a second
suspended push is left without it.
-/

namespace RtThread.Drivers.DataQueue

open Kernel
open Ipc
open Transition

/-- The pops resumed by a push and the pushes resumed by a pop, which have not run their
loop again. -/
structure Woken where
  poppers : List Tid
  pushers : List Tid
deriving DecidableEq, Repr

def noneWoken : Woken := { poppers := [], pushers := [] }

def Woken.rerun (w : Woken) (t : Tid) : Woken :=
  { poppers := w.poppers.erase t, pushers := w.pushers.erase t }

def Woken.note (w : Woken) (dq : RtDataQueue) : Outcome -> Woken
  | Outcome.pushed _ =>
    { w with poppers := dq.suspendedPopList.head?.toList ++ w.poppers }
  | Outcome.popped _ (some true) =>
    { w with pushers := dq.suspendedPushList.head?.toList ++ w.pushers }
  | _ => w

structure History where
  log : Log
  woken : Woken
deriving DecidableEq, Repr

def noHistory : History := { log := emptyLog, woken := noneWoken }

def recordHistory (s : State) (op : Op) (_s' : State) (h : History) : History :=
  let w :=
    match op with
    | Op.again t => h.woken.rerun t
    | _ => h.woken
  match outcomeOf s op with
  | none => { h with woken := w }
  | some o => { log := h.log.note o, woken := w.note s.dq o }

/-- The condition on a step: a push sees the wrap of the indices, and a pop that clears
the flag finds at most one suspended push. -/
def FlagSuffices (s : State) (op : Op) : Prop :=
  (testsPush s op = true -> ¬ s.dq.fullUnseen) ∧
    (testsPop s op = true -> s.dq.getIndex ≠ s.dq.putIndex -> s.dq.waitingLwm = true ->
      s.dq.taken.isLow = true -> s.dq.suspendedPushList.length ≤ 1)

instance (s : State) (op : Op) : Decidable (FlagSuffices s op) :=
  inferInstanceAs (Decidable (_ ∧ _))

/-- The lists and the threads in them, with `n` items stored, up to one pop that is
running its loop and is in no list. -/
structure Waiters (s : State) (w : Woken) (n a : Nat) : Prop where
  popping : forall t, t ∈ s.dq.suspendedPopList <->
    (s.thread t).stat = ThreadStat.suspend ∧ (s.pc t).isPopping = true
  pushing : forall t, t ∈ s.dq.suspendedPushList <->
    (s.thread t).stat = ThreadStat.suspend ∧ (s.pc t).isPushing = true
  nodup : s.dq.suspendedPopList.Nodup ∧ s.dq.suspendedPushList.Nodup
  wokenPopper : forall t, t ∈ w.poppers ->
    (s.thread t).stat = ThreadStat.ready ∧ (s.thread t).error = RtErr.eok ∧
      (s.pc t).isPopping = true
  wokenOnce : w.poppers.Nodup
  error : forall t, (s.thread t).stat = ThreadStat.suspend ->
    (s.thread t).error = RtErr.eok
  timer : forall t, (s.thread t).timerLinked = true ->
    (s.thread t).stat = ThreadStat.suspend
  items : s.dq.suspendedPopList ≠ [] -> n ≤ w.poppers.length + a
  flag : s.dq.suspendedPushList ≠ [] -> s.dq.waitingLwm = true ∧ s.dq.lwm < n

variable {s s' : State} {w : Woken} {n a : Nat} {o : Outcome} {op : Op} {t : Tid}

theorem Pc.one_loop {pc : Pc} (hpop : pc.isPopping = true) : pc.isPushing = false := by
  cases pc with
  | idle => rfl
  | pushing item timeout => cases hpop
  | popping timeout => rfl

/-!
## One step
-/

theorem Waiters.pushItem (hw : Waiters s w n 0) (item : RtDataItem) :
    Waiters (pushItem s item) (w.note s.dq (Outcome.pushed item)) (n + 1) 0 := by
  rcases hw with ⟨hpop, hpush, hnodup, hwoken, honce, herror, htimer, hitems, hflag⟩
  have hloop := fun t => @Pc.one_loop (s.pc t)
  unfold DataQueue.pushItem Woken.note
  cases hlist : s.dq.suspendedPopList with
  | nil =>
    have hres : listResume s.thread s.dq.suspendedPopList = (s.thread, []) := by
      rw [hlist]
      rfl
    simp only [hres]
    constructor <;> grind -linarith
  | cons x rest =>
    -- one more item, and one more pop on its way to it
    have hx := (hpop x).mp (by rw [hlist]; exact List.mem_cons_self)
    have hres := listResume_cons (l := rest) hx.left
    rw [← hlist] at hres
    simp only [hres]
    constructor <;> grind -linarith [Function.update_apply]

theorem Waiters.popItem (hw : Waiters s w n a) (ha : a ≤ 1)
    (hone : s.dq.waitingLwm = true -> s.dq.taken.isLow = true ->
      s.dq.suspendedPushList.length ≤ 1)
    (hlow : s.dq.taken.isLow = false -> s.dq.lwm < n - 1) (item : RtDataItem) :
    Waiters (popItem s) (w.note s.dq (Outcome.popped item
        (if s.dq.waitingLwm then some s.dq.taken.isLow else none))) (n - 1) 0 := by
  rcases hw with ⟨hpop, hpush, hnodup, hwoken, honce, herror, htimer, hitems, hflag⟩
  have hloop := fun t => @Pc.one_loop (s.pc t)
  unfold DataQueue.popItem
  by_cases hmark : s.dq.waitingLwm = true ∧ s.dq.taken.isLow = true
  · have hcond : s.dq.taken.waitingLwm = true ∧ s.dq.taken.isLow = true := hmark
    have hlen := hone hmark.left hmark.right
    simp only [hcond, hmark, and_self, if_true, Woken.note]
    cases hlist : s.dq.suspendedPushList with
    | nil =>
      have hlist' : s.dq.taken.suspendedPushList = [] := hlist
      simp only [hlist', listResume]
      constructor <;> grind -linarith [RtDataQueue.taken]
    | cons x rest =>
      have hx := (hpush x).mp (by rw [hlist]; exact List.mem_cons_self)
      have hlist' : s.dq.taken.suspendedPushList = x :: rest := hlist
      have hrest : rest = [] := by
        rw [hlist, List.length_cons] at hlen
        exact List.length_eq_zero_iff.mp (by omega)
      subst hrest
      simp only [hlist', listResume_cons hx.left]
      constructor <;> grind -linarith [Function.update_apply, RtDataQueue.taken]
  · have hcond : ¬ (s.dq.taken.waitingLwm = true ∧ s.dq.taken.isLow = true) := hmark
    have hnote : w.note s.dq (Outcome.popped item
        (if s.dq.waitingLwm then some s.dq.taken.isLow else none)) = w := by
      unfold Woken.note
      grind -linarith
    simp only [hcond, if_false, hnote]
    constructor <;> grind -linarith [RtDataQueue.taken]

def storedAfter (n : Nat) : Outcome -> Nat
  | Outcome.pushed _ => n + 1
  | Outcome.popped _ _ => n - 1
  | _ => n

/-- The caller of a loop is an interrupt, or a ready thread outside of loops. -/
def MayCall (s : State) (caller : Option Tid) : Prop :=
  forall t, caller = some t ->
    (s.thread t).stat = ThreadStat.ready ∧ s.pc t = Pc.idle

theorem Waiters.pushLoop {caller : Option Tid} {item : RtDataItem} {timeout : Int}
    (hw : Waiters s w n 0) (hcall : MayCall s caller)
    (hfull : s.dq.isFull = true -> s.dq.lwm < n)
    (hs : pushLoop s caller item timeout = some (s', o)) :
    Waiters s' (w.note s.dq o) (storedAfter n o) 0 := by
  unfold DataQueue.pushLoop at hs
  split at hs
  · rename_i htest
    have hlevel := hfull htest
    rcases hw with ⟨hpop, hpush, hnodup, hwoken, honce, herror, htimer, hitems, hflag⟩
    simp only at hs
    split at hs
    · cases hs
      unfold Woken.note storedAfter
      constructor <;> grind -linarith
    · cases caller with
      | none => cases hs
      | some t =>
        rcases hcall t rfl with ⟨hready, hidle⟩
        rw [Option.map_eq_some_iff] at hs
        rcases hs with ⟨v, hv, heq⟩
        cases heq
        have hset : (setError s.thread t RtErr.eok t).stat = ThreadStat.ready :=
          setError_stat.trans hready
        rcases suspendFor_eq hset hv with ⟨linked, hv⟩
        subst hv
        unfold Woken.note setError storedAfter
        constructor <;> grind -linarith [Function.update_apply, Pc.isPushing, Pc.isPopping]
  · cases hs
    exact hw.pushItem item

theorem Waiters.popLoop {caller : Option Tid} {timeout : Int} (hw : Waiters s w n a)
    (ha : a ≤ 1) (hcall : MayCall s caller)
    (hempty : s.dq.getIndex = s.dq.putIndex -> n = 0)
    (hone : s.dq.getIndex ≠ s.dq.putIndex -> s.dq.waitingLwm = true ->
      s.dq.taken.isLow = true -> s.dq.suspendedPushList.length ≤ 1)
    (hlow : s.dq.getIndex ≠ s.dq.putIndex -> s.dq.taken.isLow = false -> s.dq.lwm < n - 1)
    (hs : popLoop s caller timeout = some (s', o)) :
    Waiters s' (w.note s.dq o) (storedAfter n o) 0 := by
  unfold DataQueue.popLoop at hs
  simp only at hs
  split at hs
  · rename_i htest
    have hzero := hempty htest
    rcases hw with ⟨hpop, hpush, hnodup, hwoken, honce, herror, htimer, hitems, hflag⟩
    split at hs
    · cases hs
      unfold Woken.note storedAfter
      constructor <;> grind -linarith
    · cases caller with
      | none => cases hs
      | some t =>
        rcases hcall t rfl with ⟨hready, hidle⟩
        rw [Option.map_eq_some_iff] at hs
        rcases hs with ⟨v, hv, heq⟩
        cases heq
        have hset : (setError s.thread t RtErr.eok t).stat = ThreadStat.ready :=
          setError_stat.trans hready
        rcases suspendFor_eq hset hv with ⟨linked, hv⟩
        subst hv
        unfold Woken.note setError storedAfter
        constructor <;> grind -linarith [Function.update_apply, Pc.isPushing, Pc.isPopping]
  · rename_i hitem
    cases hs
    exact hw.popItem ha (hone hitem) (hlow hitem) _

theorem Waiters.rerun (hw : Waiters s w n 0) (hready : (s.thread t).stat = ThreadStat.ready) :
    Waiters { s with pc := Function.update s.pc t Pc.idle } (w.rerun t) n
      (if t ∈ w.poppers then 1 else 0) := by
  rcases hw with ⟨hpop, hpush, hnodup, hwoken, honce, herror, htimer, hitems, hflag⟩
  unfold Woken.rerun
  constructor
  · grind -linarith [Function.update_apply, Pc.isPopping]
  · grind -linarith [Function.update_apply, Pc.isPushing]
  · exact hnodup
  · intro x hx
    have hne : x ≠ t := by
      intro heq
      subst heq
      exact honce.not_mem_erase hx
    simp only [Function.update_of_ne hne]
    exact hwoken x (List.mem_of_mem_erase hx)
  · exact honce.erase t
  · exact herror
  · exact htimer
  · intro hne
    have hle := hitems hne
    have hlen := length_erase_add w.poppers t
    simp only at hlen ⊢
    omega
  · exact hflag

theorem Waiters.timeout (hw : Waiters s w n 0)
    (hstat : (s.thread t).stat = ThreadStat.suspend) : Waiters (timeout s t) w n 0 := by
  rcases hw with ⟨hpop, hpush, hnodup, hwoken, honce, herror, htimer, hitems, hflag⟩
  unfold DataQueue.timeout threadTimeout
  constructor <;> grind -linarith [Function.update_apply]

/-- What the tests of a step say about the number of items. -/
structure Levels (s : State) (op : Op) (n : Nat) : Prop where
  full : s.dq.isFull = true -> s.dq.lwm < n
  empty : s.dq.getIndex = s.dq.putIndex -> n = 0
  high : s.dq.getIndex ≠ s.dq.putIndex -> s.dq.taken.isLow = false -> s.dq.lwm < n - 1
  one : testsPop s op = true -> s.dq.getIndex ≠ s.dq.putIndex -> s.dq.waitingLwm = true ->
    s.dq.taken.isLow = true -> s.dq.suspendedPushList.length ≤ 1

theorem Waiters.pushRound {caller : Option Tid} {item : RtDataItem} {timeout : Int}
    {s1 : State} (hw : Waiters s1 w n 0) (hdq : s1.dq = s.dq) (hcall : MayCall s1 caller)
    (hl : Levels s op n) (hs : DataQueue.pushLoop s1 caller item timeout = some (s', o)) :
    Waiters s' (w.note s.dq o) (storedAfter n o) 0 := by
  have hnext := hw.pushLoop hcall (by rw [hdq]; exact hl.full) hs
  rwa [hdq] at hnext

theorem Waiters.popRound {caller : Option Tid} {timeout : Int} {s1 : State}
    (hw : Waiters s1 w n a) (ha : a ≤ 1) (hdq : s1.dq = s.dq) (hcall : MayCall s1 caller)
    (hpop : testsPop s op = true) (hl : Levels s op n)
    (hs : DataQueue.popLoop s1 caller timeout = some (s', o)) :
    Waiters s' (w.note s.dq o) (storedAfter n o) 0 := by
  have hnext := hw.popLoop ha hcall (by rw [hdq]; exact hl.empty)
    (by rw [hdq]; exact hl.one hpop) (by rw [hdq]; exact hl.high) hs
  rwa [hdq] at hnext

theorem Waiters.again (hw : Waiters s w n 0)
    (hready : (s.thread t).stat = ThreadStat.ready) (hl : Levels s (Op.again t) n)
    (hs : again s t = some (s', o)) :
    Waiters s' ((w.rerun t).note s.dq o) (storedAfter n o) 0 := by
  have hrerun := hw.rerun hready
  have hcall : MayCall { s with pc := Function.update s.pc t Pc.idle } (some t) := by
    intro x hx
    cases hx
    exact ⟨hready, Function.update_self ..⟩
  unfold DataQueue.again at hs
  simp only at hs
  -- a thread that ends its call with an error was not resumed by a push
  have hfail (e : RtErr) (herror : (s.thread t).error ≠ RtErr.eok)
      (heq : some (({ s with pc := Function.update s.pc t Pc.idle } : State),
        Outcome.fails e) = some (s', o)) :
      Waiters s' ((w.rerun t).note s.dq o) (storedAfter n o) 0 := by
    cases heq
    rw [if_neg (fun hin => herror (hw.wokenPopper t hin).right.left)] at hrerun
    exact hrerun
  split at hs
  · cases hs
  · rename_i item timeout hpc
    split at hs
    · rename_i herror
      exact hfail _ herror hs
    · have hnot : t ∉ w.poppers := by
        intro hin
        have hloop := (hw.wokenPopper t hin).right.right
        rw [hpc] at hloop
        cases hloop
      rw [if_neg hnot] at hrerun
      exact hrerun.pushRound rfl hcall hl hs
  · rename_i timeout hpc
    split at hs
    · rename_i herror
      exact hfail _ herror hs
    · rename_i herror
      refine hrerun.popRound (by split <;> omega) rfl hcall ?_ hl hs
      simpa [testsPop, hpc, Pc.isPopping] using herror

theorem mayCall_spec {caller : Option Tid} (hcall : mayCall s caller = true) :
    MayCall s caller := by
  intro t ht
  subst ht
  unfold mayCall at hcall
  rwa [Bool.and_eq_true, decide_eq_true_eq, decide_eq_true_eq] at hcall

/-- The threads resumed, once the thread of a step runs its loop. -/
def Woken.started (w : Woken) : Op -> Woken
  | Op.again t => w.rerun t
  | _ => w

theorem Waiters.step (hw : Waiters s w n 0) (hl : Levels s op n)
    (hs : stepOutcome s op = some (s', o)) :
    Waiters s' ((w.started op).note s.dq o) (storedAfter n o) 0 := by
  cases op with
  | push caller item timeout =>
    simp only [stepOutcome] at hs
    split at hs
    · rename_i hcall
      exact hw.pushRound rfl (mayCall_spec hcall) hl hs
    · cases hs
  | pop caller timeout =>
    simp only [stepOutcome] at hs
    split at hs
    · rename_i hcall
      exact hw.popRound (Nat.zero_le 1) rfl (mayCall_spec hcall) rfl hl hs
    · cases hs
  | peak =>
    simp only [stepOutcome, rtDataQueuePeak, Option.some.injEq] at hs
    split at hs
    · cases hs
      exact hw
    · cases hs
      exact hw
  | again t =>
    simp only [stepOutcome] at hs
    split at hs
    · rename_i hready
      exact hw.again hready hl hs
    · cases hs
  | timeout t =>
    simp only [stepOutcome] at hs
    split at hs
    · rename_i htimer
      cases hs
      exact hw.timeout htimer.right
    · cases hs

/-!
## Nobody is stranded
-/

structure Watched (s : State) (h : History) : Prop where
  pending : Pending s.dq h.log
  mark : s.dq.lwm < s.dq.size
  waiters : Waiters s h.woken h.log.stored 0

theorem Watched.levels {h : History} (hw : Watched s h) (hok : FlagSuffices s op) :
    Levels s op h.log.stored := by
  have hmark := hw.mark
  rw [← hw.pending.stored_eq.left]
  rcases hw.pending.indices with ⟨hput, hget, hle, hsize, hpos⟩
  refine ⟨?_, ?_, ?_, hok.right⟩
  · intro hfull
    unfold RtDataQueue.isFull at hfull
    rw [decide_eq_true_eq] at hfull
    omega
  · intro hempty
    omega
  · intro hitem hlow
    unfold RtDataQueue.isLow RtDataQueue.taken at hlow
    rw [decide_eq_false_iff_not] at hlow
    simp only at hlow
    omega

theorem note_stored {log : Log} (hp : Pending s.dq log) (o : Outcome) :
    (log.note o).stored = storedAfter log.stored o := by
  have hle : log.popped.length ≤ log.pushed.length := by
    rcases hp with ⟨_, l, _, _, hlog, _⟩
    rw [hlog, List.length_append]
    omega
  cases o with
  | pushed item =>
    simp only [Log.note, Log.stored, storedAfter, List.length_append, List.length_singleton]
    omega
  | popped item low =>
    simp only [Log.note, Log.stored, storedAfter, List.length_append, List.length_singleton]
    omega
  | _ => rfl

theorem step_mark (hs : stepOutcome s op = some (s', o)) :
    s'.dq.lwm = s.dq.lwm ∧ s'.dq.size = s.dq.size := by
  have hslots := step_slots hs
  have hsame (heq : s'.dq.slots = s.dq.slots) : s'.dq.lwm = s.dq.lwm ∧ s'.dq.size = s.dq.size :=
    ⟨congrArg Slots.lwm heq, congrArg Slots.size heq⟩
  cases o with
  | pushed item =>
    exact ⟨congrArg Slots.lwm hslots.right.right, congrArg Slots.size hslots.right.right⟩
  | popped item low =>
    have heq := hslots.right.right.right.right
    exact ⟨congrArg Slots.lwm heq, congrArg Slots.size heq⟩
  | peeked item => exact hsame hslots.right.right.right.right
  | waits => exact hsame hslots.left
  | fails e => exact hsame hslots.left
  | expired => exact hsame hslots.left

theorem Watched.step {h : History} (hw : Watched s h) (hok : FlagSuffices s op)
    (hs : step s op = some s') : Watched s' (recordHistory s op s' h) := by
  rcases step_outcome hs with ⟨o, hstep, hout⟩
  have hrecord : recordHistory s op s' h =
      { log := h.log.note o, woken := (h.woken.started op).note s.dq o } := by
    unfold recordHistory
    rw [hout]
    cases op <;> rfl
  have hmark := step_mark hstep
  rw [hrecord]
  constructor
  · exact hw.pending.step hok.left hstep
  · rw [hmark.left, hmark.right]
    exact hw.mark
  · rw [note_stored hw.pending o]
    exact hw.waiters.step (hw.levels hok) hstep

/-- Once every resumed thread has run, no pop waits at a queue with items, and no push at
one at the low-water mark or below. -/
def NobodyStranded (s : State) (h : History) : Prop :=
  h.woken.poppers = [] -> h.woken.pushers = [] ->
    (h.log.stored ≠ 0 -> forall t, (s.thread t).stat = ThreadStat.suspend ->
      (s.pc t).isPopping = false) ∧
    (h.log.stored ≤ s.dq.lwm -> forall t, (s.thread t).stat = ThreadStat.suspend ->
      (s.pc t).isPushing = false)

/-- In every state of every interleaved run on a queue with its mark below its size, in
which the shared flag suffices. -/
theorem data_queue_strands_nobody {s0 s : State} {h : History} {ops : List Op}
    (hboot : Booted s0) (hmark : s0.dq.lwm < s0.dq.size)
    (hrun : Run (Guarded (fun x op => FlagSuffices x.1 op)
      (Graph (watched step recordHistory))) (s0, noHistory) ops (s, h)) :
    NobodyStranded s h := by
  have hinv : Watched s h := by
    apply hrun.guarded_watched_invariant Watched
    · refine ⟨hboot.pending, hmark, ?_⟩
      rcases hboot with ⟨_, _, _, _, hlists, hthread, hpc⟩
      unfold noHistory noneWoken emptyLog
      constructor <;> grind -linarith [Pc.isPopping, Pc.isPushing]
    · intro s h op s' hx hflag hstep
      exact hx.step hflag hstep
  intro hpoppers _
  have hw := hinv.waiters
  constructor
  · intro hitems t hstat
    by_contra hpop
    have hin := (hw.popping t).mpr ⟨hstat, by simpa using hpop⟩
    have hle := hw.items (List.ne_nil_of_mem hin)
    rw [hpoppers, List.length_nil] at hle
    omega
  · intro hlow t hstat
    by_contra hpush
    have hin := (hw.pushing t).mpr ⟨hstat, by simpa using hpush⟩
    have hlevel := (hw.flag (List.ne_nil_of_mem hin)).right
    omega

/-- A push waits at the full queue and is resumed at the mark. -/
theorem data_queue_strands_nobody_one_push :
    exists s h, Run (Guarded (fun x op => FlagSuffices x.1 op)
        (Graph (watched step recordHistory))) (bootState 2 1, noHistory)
        [Op.pop (some 3) 9, Op.push (some 0) ⟨10, 1⟩ 0, Op.push none ⟨20, 2⟩ 0,
          Op.push (some 1) ⟨30, 3⟩ (-1), Op.again 3, Op.again 1, Op.pop (some 2) 0] (s, h) ∧
      h.log.stored = 1 ∧ NobodyStranded s h := by
  have hexec : (exec (fun (x : State × History) op =>
      if FlagSuffices x.1 op then watched step recordHistory x op else none)
      (bootState 2 1, noHistory)
      [Op.pop (some 3) 9, Op.push (some 0) ⟨10, 1⟩ 0, Op.push none ⟨20, 2⟩ 0,
        Op.push (some 1) ⟨30, 3⟩ (-1), Op.again 3, Op.again 1, Op.pop (some 2) 0]).map
        (fun x => x.2.log.stored) = some 1 := by
    decide +kernel
  rw [Option.map_eq_some_iff] at hexec
  rcases hexec with ⟨⟨s, h⟩, hexec, hstored⟩
  have hrun := @guarded_run_of_exec _ _ _ _
    (fun (x : State × History) op => FlagSuffices x.1 op) _ _ _ hexec
  exact ⟨s, h, hrun, hstored,
    data_queue_strands_nobody (bootState_booted ⟨1, by decide, rfl⟩ 1) (by decide) hrun⟩

/-- Two pushes wait at the full queue. The first fills it again without setting the flag, so
that the next pop resumes nobody. -/
theorem second_push_stranded :
    exists s h, Run (Graph (watched step recordHistory)) (bootState 2 1, noHistory)
        [Op.push (some 0) ⟨10, 1⟩ 0, Op.push (some 0) ⟨20, 2⟩ 0,
          Op.push (some 1) ⟨30, 3⟩ (-1),
          Op.push (some 2) ⟨40, 4⟩ (-1), Op.pop (some 0) 0, Op.again 1, Op.pop (some 0) 0]
        (s, h) ∧
      h.log.stored = 1 ∧ s.dq.lwm = 1 ∧ h.woken = noneWoken ∧
      (s.thread 2).stat = ThreadStat.suspend ∧ (s.pc 2).isPushing = true ∧
      ¬ NobodyStranded s h := by
  have hexec : (exec (watched step recordHistory) (bootState 2 1, noHistory)
      [Op.push (some 0) ⟨10, 1⟩ 0, Op.push (some 0) ⟨20, 2⟩ 0,
        Op.push (some 1) ⟨30, 3⟩ (-1),
        Op.push (some 2) ⟨40, 4⟩ (-1), Op.pop (some 0) 0, Op.again 1, Op.pop (some 0) 0]).map
      (fun x => (x.2.log.stored, x.1.dq.lwm, x.2.woken, (x.1.thread 2).stat,
        (x.1.pc 2).isPushing)) =
      some (1, 1, noneWoken, ThreadStat.suspend, true) := by
    decide +kernel
  rw [Option.map_eq_some_iff] at hexec
  rcases hexec with ⟨⟨s, h⟩, hexec, heq⟩
  simp only [Prod.mk.injEq] at heq
  rcases heq with ⟨hstored, hmark, hwoken, hstat, hpc⟩
  refine ⟨s, h, run_of_exec hexec, hstored, hmark, hwoken, hstat, hpc, ?_⟩
  intro hnobody
  have hpush := (hnobody (by rw [hwoken]; rfl) (by rw [hwoken]; rfl)).right (by omega) 2 hstat
  rw [hpc] at hpush
  cases hpush

end RtThread.Drivers.DataQueue
