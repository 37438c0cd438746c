import Mathlib.Algebra.Group.Nat.Defs
import Mathlib.Data.Fintype.Card
import RtThread.Library.Chain
import RtThread.Library.Transition

/-!
# Flow control of the receiver

`rt_vbus_data_push` and `rt_vbus_data_pop` on one channel, with the commands to suspend and to
resume that they post to the other side. The address of a packet is a multiple of 4 in 32 bits;
the caller of a push has allocated the packet and cleared its link, and a packet is freed behind
its pop.
-/

namespace RtThread.Vbus.ReceiveMarks

open Chain Transition
open Function (update update_self)

/-- The address over 4. -/
abbrev Packet := Fin (2 ^ 30)

inductive Command where
  | suspend
  | resume
deriving DecidableEq

/-- `low_mark` and `high_mark` of the channel. -/
structure Marks where
  low : Nat
  high : Nat
  lt : low < high

/-- `_bus_in_action` and `_chn_recv_wm` of the channel, the links of the packets, the
commands posted, the last first, and the packets pushed and popped. -/
structure Channel where
  head : Option Packet
  tail : Option Packet
  next : Packet -> Option Packet
  level : Nat
  lastWarn : Nat
  sent : List Command
  pushed : List Packet
  popped : List Packet

def start : Channel :=
  { head := none, tail := none, next := fun _ => none, level := 0, lastWarn := 0
    sent := [], pushed := [], popped := [] }

def Channel.undelivered (c : Channel) : List Packet := c.pushed.drop c.popped.length

/-- The list of `rt_vbus_data_push`; no result where the tail is missing. -/
def append (c : Channel) (act : Packet) : Option Channel :=
  let c := { c with pushed := c.pushed ++ [act] }
  match c.head with
  | none => some { c with head := some act, tail := some act }
  | some _ => c.tail.map fun last =>
    { c with next := Function.update c.next last (some act), tail := some act }

/-- `level++`, with its stop at the largest `unsigned int`, and the warning. -/
def raise (m : Marks) (c : Channel) : Channel :=
  let level := (c.level + 1) % 2 ^ 32
  let level := if level = 0 then 2 ^ 32 - 1 else level
  if m.high < level ∧ c.lastWarn < level then
    { c with
      level := level
      sent := Command.suspend :: c.sent
      lastWarn := (level + 100) % 2 ^ 32 }
  else { c with level := level }

def rtVbusDataPush (m : Marks) (c : Channel) (act : Packet) : Option Channel :=
  (append c act).map (raise m)

/-- The list of `rt_vbus_data_pop`. -/
def takeHead (c : Channel) : Channel :=
  match c.head with
  | none => c
  | some act => { c with head := c.next act, popped := c.popped ++ [act] }

def lower (m : Marks) (c : Channel) : Channel :=
  if c.level ≠ 0 then
    if c.level - 1 ≤ m.low ∧ m.low < c.lastWarn then
      { c with level := c.level - 1, sent := Command.resume :: c.sent, lastWarn := 0 }
    else { c with level := c.level - 1 }
  else c

def rtVbusDataPop (m : Marks) (c : Channel) : Channel × Option Packet :=
  (lower m (takeHead c), c.head)

inductive Op where
  | push (act : Packet)
  | pop

/-- A packet that is pushed has been allocated. -/
def step (m : Marks) (c : Channel) : Op -> Option Channel
  | Op.push act =>
    if act ∈ c.undelivered then none
    else rtVbusDataPush m { c with next := Function.update c.next act none } act
  | Op.pop => some (rtVbusDataPop m c).1

/-!
## The list
-/

variable {m : Marks} {c c' : Channel} {l rest : List Packet} {act : Packet} {ops : List Op}

/-- The packets that are not delivered, as the list holds them. -/
structure Queued (c : Channel) (l : List Packet) : Prop where
  linked : Linked c.next c.head l
  nodup : l.Nodup
  tail : l ≠ [] -> c.tail = l.getLast?
  split : c.pushed = c.popped ++ l

theorem Queued.undelivered_eq (hq : Queued c l) : c.undelivered = l := by
  rw [Channel.undelivered, hq.split, List.drop_left]

theorem Queued.append (hq : Queued c l) (hact : act ∉ l) :
    exists c', append { c with next := update c.next act none } act = some c' ∧
      Queued c' (l ++ [act]) ∧ c'.level = c.level ∧ c'.lastWarn = c.lastWarn ∧
      c'.sent = c.sent := by
  have hlinked : Linked (update c.next act none) c.head l := hq.linked.frame hact none
  have hnodup : (l ++ [act]).Nodup := List.nodup_append.mpr ⟨hq.nodup, List.nodup_singleton _,
    fun x hx y hy heq => hact (List.mem_singleton.mp hy ▸ heq ▸ hx)⟩
  have hsplit : c.pushed ++ [act] = c.popped ++ (l ++ [act]) := by
    rw [hq.split, List.append_assoc]
  have hlast : (l ++ [act]).getLast? = some act := List.getLast?_concat
  unfold ReceiveMarks.append
  dsimp only
  rcases List.eq_nil_or_concat' l with rfl | ⟨front, last, rfl⟩
  · have hnone : c.head = none := hq.linked
    rw [hnone]
    refine ⟨_, rfl, ⟨⟨rfl, ?_⟩, hnodup, fun _ => hlast.symm, hsplit⟩, rfl, rfl, rfl⟩
    exact update_self _ _ _
  · have hne : front ++ [last] ≠ [] := List.concat_ne_nil _ _
    have hhead : c.head ≠ none := fun h => hne (hq.linked.none_iff.mp h)
    rcases Option.ne_none_iff_exists'.mp hhead with ⟨first, hfirst⟩
    have htail : c.tail = some last := (hq.tail hne).trans List.getLast?_concat
    rw [hfirst, htail]
    refine ⟨_, rfl, ⟨?_, hnodup, fun _ => hlast.symm, hsplit⟩, rfl, rfl, rfl⟩
    exact hfirst ▸ hlinked.append hq.nodup hact (update_self _ _ _)

theorem Queued.takeHead (hq : Queued c l) : Queued (takeHead c) l.tail := by
  cases l with
  | nil =>
    have hnone : c.head = none := hq.linked
    rw [ReceiveMarks.takeHead, hnone]
    exact hq
  | cons act rest =>
    rcases hq.linked with ⟨hhead, hlinked⟩
    rw [ReceiveMarks.takeHead, hhead]
    refine ⟨hlinked, (List.nodup_cons.mp hq.nodup).2, fun hne => ?_, ?_⟩
    · exact (hq.tail (List.cons_ne_nil _ _)).trans (List.getLast?_cons_of_ne_nil hne)
    · exact hq.split.trans (List.append_cons _ _ _)

/-!
## The marks
-/

/-- The level is the number of packets in the list, and `last_warn` tells whether the other side
is suspended, in which case the level is above the low mark. -/
structure Sound (m : Marks) (c : Channel) (l : List Packet) : Prop where
  queued : Queued c l
  level : c.level = l.length
  warned : (c.lastWarn = 0 ∧ c.sent.head? ≠ some Command.suspend) ∨
    (m.low < c.lastWarn ∧ c.sent.head? = some Command.suspend ∧ m.low < c.level)
  resumed : forall later earlier, c.sent = later ++ Command.resume :: earlier ->
    earlier.head? = some Command.suspend

theorem resumed_cons {cmd : Command} {sent : List Command}
    (hold : forall later earlier, sent = later ++ Command.resume :: earlier ->
      earlier.head? = some Command.suspend)
    (hnew : cmd = Command.resume -> sent.head? = some Command.suspend)
    (later earlier : List Command) (heq : cmd :: sent = later ++ Command.resume :: earlier) :
    earlier.head? = some Command.suspend := by
  cases later with
  | nil =>
    rcases List.cons.inj heq with ⟨hcmd, rfl⟩
    exact hnew hcmd
  | cons cmd' later => exact hold later earlier (List.cons.inj heq).2

theorem Sound.push (hs : Sound m c l) (hact : act ∉ l) :
    exists c', rtVbusDataPush m { c with next := update c.next act none } act = some c' ∧
      Sound m c' (l ++ [act]) := by
  rcases hs.queued.append hact with ⟨c1, happend, hq, hlevel, hwarn, hsent⟩
  rw [rtVbusDataPush, happend]
  refine ⟨raise m c1, rfl, ?_⟩
  have hcard : (l ++ [act]).length ≤ 2 ^ 30 :=
    hq.nodup.length_le_card.trans_eq (Fintype.card_fin _)
  have hlen : c.level + 1 = (l ++ [act]).length := by
    rw [hs.level, List.length_append, List.length_singleton]
  have hnext : (c1.level + 1) % 2 ^ 32 = (l ++ [act]).length := by
    rw [hlevel, hlen]
    exact Nat.mod_eq_of_lt (by omega)
  have hpos : (l ++ [act]).length ≠ 0 := hlen ▸ Nat.succ_ne_zero _
  have hlt := m.lt
  have hwarned := hs.warned
  unfold raise
  rw [hnext, hwarn, hsent]
  dsimp only
  rw [if_neg hpos]
  split
  · next habove =>
      -- the sum is far from the end of 32 bits
      have hsum : ((l ++ [act]).length + 100) % 2 ^ 32 = (l ++ [act]).length + 100 :=
        Nat.mod_eq_of_lt (by omega)
      refine ⟨⟨hq.linked, hq.nodup, hq.tail, hq.split⟩, rfl, Or.inr ⟨?_, rfl, ?_⟩, ?_⟩
      · show m.low < _ % 2 ^ 32
        omega
      · show m.low < (l ++ [act]).length
        omega
      · exact resumed_cons hs.resumed nofun
  · refine ⟨⟨hq.linked, hq.nodup, hq.tail, hq.split⟩, rfl, ?_, hs.resumed⟩
    rcases hwarned with hquiet | ⟨hflag, hlast, hhigh⟩
    · exact Or.inl hquiet
    · refine Or.inr ⟨hflag, hlast, ?_⟩
      show m.low < (l ++ [act]).length
      omega

theorem takeHead_marks (c : Channel) : (takeHead c).level = c.level ∧
    (takeHead c).lastWarn = c.lastWarn ∧ (takeHead c).sent = c.sent := by
  unfold takeHead
  split <;> exact ⟨rfl, rfl, rfl⟩

theorem Sound.pop (hs : Sound m c l) : Sound m (rtVbusDataPop m c).1 l.tail := by
  have hq := hs.queued.takeHead
  rcases takeHead_marks c with ⟨hlevel, hwarn, hsent⟩
  have hlen : c.level - 1 = l.tail.length := by rw [hs.level, List.length_tail]
  show Sound m (lower m (takeHead c)) l.tail
  unfold lower
  rw [hlevel, hwarn, hsent, hlen]
  split
  · split
    · next hlow =>
        rcases hs.warned with ⟨hzero, -⟩ | ⟨-, hlast, -⟩
        · exact absurd hlow.2 (hzero ▸ Nat.not_lt_zero _)
        · refine ⟨⟨hq.linked, hq.nodup, hq.tail, hq.split⟩, rfl, Or.inl ⟨rfl, nofun⟩,
            ?_⟩
          exact resumed_cons hs.resumed fun _ => hlast
    · next hstays =>
        refine ⟨⟨hq.linked, hq.nodup, hq.tail, hq.split⟩, rfl, ?_, ?_⟩
        · rcases hs.warned with ⟨hzero, hlast⟩ | ⟨hflag, hlast, -⟩
          · exact Or.inl ⟨hzero, hlast⟩
          · refine Or.inr ⟨hflag, hlast, ?_⟩
            exact Nat.lt_of_not_le fun hle => hstays ⟨hle, hflag⟩
        · exact hs.resumed
  · next hzero =>
      have hnil : l = [] := List.length_eq_zero_iff.mp (hs.level.symm.trans (not_not.mp hzero))
      refine ⟨hq, ?_, ?_, hsent.symm ▸ hs.resumed⟩
      · rw [hlevel, not_not.mp hzero, hnil]
        rfl
      · rw [hwarn, hsent, hlevel]
        exact hs.warned

theorem Sound.step {op : Op} (hs : Sound m c l) (h : step m c op = some c') :
    exists l', Sound m c' l' := by
  cases op with
  | push act =>
    simp only [ReceiveMarks.step] at h
    split at h
    · cases h
    · next hact =>
        rw [hs.queued.undelivered_eq] at hact
        rcases hs.push hact with ⟨c1, hpush, hs1⟩
        rw [hpush] at h
        exact ⟨_, Option.some.inj h ▸ hs1⟩
  | pop =>
    cases h
    exact ⟨_, hs.pop⟩

theorem Sound.start : Sound m start [] :=
  ⟨⟨rfl, List.nodup_nil, fun hne => absurd rfl hne, rfl⟩, rfl, Or.inl ⟨rfl, nofun⟩,
    fun later earlier heq => absurd heq.symm (by simp [ReceiveMarks.start])⟩

/-- Whatever is pushed and popped: with no more packets than the low mark undelivered, the
last command does not suspend; each resumption follows on a suspension; a push of a new
packet does not fail; and the packets come out in the order they were pushed. -/
theorem receive_flow_control (hrun : Run (Graph (step m)) start ops c) :
    (c.undelivered.length ≤ m.low -> c.sent.head? ≠ some Command.suspend) ∧
    (forall later earlier, c.sent = later ++ Command.resume :: earlier ->
      earlier.head? = some Command.suspend) ∧
    c.pushed = c.popped ++ c.undelivered ∧ (rtVbusDataPop m c).2 = c.undelivered.head? ∧
    (forall act, act ∉ c.undelivered -> (step m c (Op.push act)).isSome) := by
  have hinv : exists l, Sound m c l := by
    apply hrun.invariant (fun c => exists l, Sound m c l) ⟨[], Sound.start⟩
    rintro c op c' ⟨l, hs⟩ h
    exact hs.step h
  rcases hinv with ⟨l, hs⟩
  rw [hs.queued.undelivered_eq]
  refine ⟨fun hfew => ?_, hs.resumed, hs.queued.split, hs.queued.linked.head, fun act hact =>
    ?_⟩
  · rcases hs.warned with ⟨-, hlast⟩ | ⟨-, -, hhigh⟩
    · exact hlast
    · rw [hs.level] at hhigh
      omega
  · rcases hs.push hact with ⟨c', hpush, -⟩
    rw [ReceiveMarks.step, hs.queued.undelivered_eq, if_neg hact, hpush]
    rfl

/-- Three packets suspend the other side with the marks 1 and 2, and two pops resume it. -/
theorem receive_flow_control_three :
    exists c, exec (step ⟨1, 2, by decide⟩) start
        [Op.push 5, Op.push 6, Op.push 7, Op.pop, Op.pop] = some c ∧
      c.sent = [Command.resume, Command.suspend] ∧
      (c.undelivered.length ≤ 1 -> c.sent.head? ≠ some Command.suspend) := by
  have hexec : (exec (step ⟨1, 2, by decide⟩) start
      [Op.push 5, Op.push 6, Op.push 7, Op.pop, Op.pop]).map Channel.sent =
      some [Command.resume, Command.suspend] := by decide +kernel
  rcases Option.map_eq_some_iff.mp hexec with ⟨c, hc, hsent⟩
  exact ⟨c, hc, hsent, (receive_flow_control (run_of_exec hc)).1⟩

end RtThread.Vbus.ReceiveMarks
