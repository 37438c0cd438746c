import RtThread.Mem.MemPoolBlocks
import RtThread.Vbus.PrioQueue

/-!
# Created priority queues

`rt_prio_queue_init` and `rt_prio_queue_create` with the pool that `rt_mp_init` lays out in the
buffer, and `rt_prio_queue_push` on a queue from which nothing is popped. The items lie in the
blocks of the pool; the queue object is a record beside the memory. `RT_ALIGN_SIZE` is 4, as on
every board.
-/

namespace RtThread.Vbus.PrioQueueCreate

open Kernel ByteMemory Ipc Mem MemPool

def config : Mem.Config := ⟨4, Mem.four_power⟩

def started : Threads := (bootState config 0 0 0 0 0).thread

/-- `struct rt_prio_queue`; the memory is part of the pool. -/
structure RtPrioQueue where
  bitmap : BitVec 32
  head : Nat -> Nat
  tail : Nat -> Nat
  itemSz : Nat
  pool : MemPool.State

/-- `sizeof(struct rt_prio_queue)`, the offset of its pool, and `sizeof(struct rt_object)`. -/
structure Layout where
  size : Nat
  pool : Nat
  object : Nat
  inside : pool + 4 ≤ size

variable (l : Layout) (thread : Threads) (pc : Tid -> Pc) (m : Memory)
  {que buf bufsz itemNr itemSz : Nat}

/-- The size of the header of an item is 4 bytes. -/
def rtPrioQueueInit (que buf bufsz itemSz : Nat) : RtPrioQueue :=
  let r := rtMpInit config m (que + l.pool) l.object buf bufsz (add32 4 itemSz)
  { bitmap := 0
    head := fun _ => 0
    tail := fun _ => 0
    itemSz := itemSz
    pool := { mem := r.2, mp := r.1, thread := thread, pc := pc, live := [] } }

def bufSize (itemNr itemSz : Nat) : Nat := itemNr * (4 + itemSz + 4) % 2 ^ 32

/-- `que` is what `rt_malloc` returns. -/
def rtPrioQueueCreate (que itemNr itemSz : Nat) : Option RtPrioQueue :=
  if que = 0 then none
  else some (rtPrioQueueInit l thread pc m que (que + l.size) (bufSize itemNr itemSz) itemSz)

def doPush (q : RtPrioQueue) (prio item : Nat) : Option RtPrioQueue :=
  let tail := Function.update q.tail prio item
  if q.head prio = 0 then
    some { q with
      head := Function.update q.head prio item
      bitmap := q.bitmap ||| 1#32 <<< prio
      tail := tail }
  else if q.tail prio = 0 then none
  else
    some { q with
      pool := { q.pool with mem := writeNumber q.pool.mem (q.tail prio) 4 item }
      tail := tail }

/-- The arguments of a push and its caller. -/
structure Push where
  prio : Nat
  data : Nat -> Byte
  caller : Option Tid
  timeout : Int

/-- `rt_prio_queue_push`; no thread waits in a pop. -/
def rtPrioQueuePush (q : RtPrioQueue) (p : Push) : Option (RtPrioQueue × Outcome) :=
  if PrioQueue.prioMax ≤ p.prio then some (q, Outcome.fails RtErr.error)
  else
    match allocLoop q.pool p.caller p.timeout with
    | none => none
    | some (pool, Outcome.allocated item) =>
      let m : Memory := fun x =>
        if item + 4 ≤ x ∧ x < item + 4 + q.itemSz then p.data (x - (item + 4))
        else pool.mem x
      let pool := { pool with mem := writeNumber m item 4 0 }
      (doPush { q with pool := pool } p.prio item).map fun q => (q, Outcome.allocated item)
    | some (pool, o) => some ({ q with pool := pool }, o)

/-- Push one item after the other; no result where one waits or fails. -/
def pushAll : RtPrioQueue -> List Push -> Option RtPrioQueue
  | q, [] => some q
  | q, p :: rest =>
    match rtPrioQueuePush q p with
    | some (q', Outcome.allocated _) => pushAll q' rest
    | _ => none

def HasCapacity (q : RtPrioQueue) (n : Nat) : Prop :=
  forall ps : List Push, ps.length = n -> (forall p, p ∈ ps -> p.prio < PrioQueue.prioMax) ->
    (pushAll q ps).isSome

/-!
## Pushes
-/

variable {m} {q q' : RtPrioQueue} {p : Push} {mp : RtMempool} {chain : List Nat} {item : Nat}

/-- What the pushes keep: the blocks of the pool, with room for an item each, and the items at
the ends of the lists in them. -/
structure Filled (mp : RtMempool) (q : RtPrioQueue) (chain : List Nat) : Prop where
  conserved : Conserved mp q.pool chain
  room : q.itemSz + 8 ≤ mp.stride
  tail : forall prio, q.head prio ≠ 0 -> exists b, b ∈ q.pool.live ∧ q.tail prio = b + 4

theorem stored_outside {s : MemPool.State} {b n x : Nat} {f : Memory} (hb : b ∈ s.live)
    (hn : 4 + n ≤ s.mp.stride) (hout : x < b + 4 ∨ b + 4 + n ≤ x -> f x = s.mem x)
    (hne : f x ≠ s.mem x) : MayWrite s x := by
  refine Or.inr (Or.inr ⟨b, hb, ?_⟩)
  unfold InPayload
  by_contra hin
  exact hne (hout (by omega))

theorem Filled.doPush {b : Nat} (hf : Filled mp q chain) (hb : b ∈ q.pool.live) (prio : Nat) :
    exists q', doPush q prio (b + 4) = some q' ∧ Filled mp q' chain := by
  have hstride : q.pool.mp.stride = mp.stride := hf.conserved.same.stride_eq
  have htail : forall x, exists b', b' ∈ q.pool.live ∧
      (x = prio ∨ q.head x ≠ 0 -> Function.update q.tail prio (b + 4) x = b' + 4) := by
    intro x
    by_cases hx : x = prio
    · exact ⟨b, hb, fun _ => hx ▸ Function.update_self _ _ _⟩
    · by_cases hhead : q.head x = 0
      · exact ⟨b, hb, fun h => absurd hhead (h.resolve_left hx)⟩
      · rcases hf.tail x hhead with ⟨b', hb', heq⟩
        exact ⟨b', hb', fun _ => (Function.update_of_ne hx _ _).trans heq⟩
  unfold PrioQueueCreate.doPush
  by_cases hhead : q.head prio = 0
  · refine ⟨_, if_pos hhead, hf.conserved, hf.room, fun x hx => ?_⟩
    rcases htail x with ⟨b', hb', heq⟩
    refine ⟨b', hb', heq (or_iff_not_imp_left.mpr fun hne => ?_)⟩
    exact Function.update_of_ne hne _ q.head ▸ hx
  · rcases hf.tail prio hhead with ⟨b1, hb1, heq1⟩
    refine ⟨_, (if_neg hhead).trans (if_neg (heq1 ▸ Nat.succ_ne_zero _)), ?_, hf.room, ?_⟩
    · refine hf.conserved.store fun x hne => stored_outside hb1 (n := 4) ?_ ?_ hne
      · exact hstride ▸ Nat.le_trans (Nat.le_add_left _ _) hf.room
      · exact fun hout => writeNumber_outside (heq1 ▸ hout)
    · intro x hx
      rcases htail x with ⟨b', hb', heq⟩
      exact ⟨b', hb', heq (Or.inr hx)⟩

theorem Filled.push (hf : Filled mp q chain) (hne : chain ≠ [])
    (hprio : p.prio < PrioQueue.prioMax) :
    exists q' item chain', rtPrioQueuePush q p = some (q', Outcome.allocated item) ∧
      Filled mp q' chain' ∧ chain'.length + 1 = chain.length := by
  have hc := hf.conserved
  have hlen : chain.length ≠ 0 := fun heq => hne (List.length_eq_zero_iff.mp heq)
  have hcount : q.pool.mp.blockFreeCount ≠ 0 := hc.count ▸ hlen
  have hlist : q.pool.mp.blockList ≠ 0 := fun heq =>
    hne (hc.linked.none_iff.mp (by rw [heq]; rfl))
  have hstride : q.pool.mp.stride = mp.stride := hc.same.stride_eq
  have halloc : exists pool, allocLoop q.pool p.caller p.timeout =
      some (pool, Outcome.allocated (q.pool.mp.blockList + 4)) ∧
      pool.mp.blockFreeCount = q.pool.mp.blockFreeCount - 1 ∧ pool.mp.stride = mp.stride ∧
      pool.live = q.pool.mp.blockList :: q.pool.live :=
    ⟨_, (if_neg hcount).trans (if_neg hlist), rfl, hstride, rfl⟩
  rcases halloc with ⟨pool, halloc, hfree, hstride', hlive⟩
  rcases hc.allocLoop halloc with ⟨chain', hc'⟩
  have hb : q.pool.mp.blockList ∈ pool.live := hlive ▸ List.mem_cons_self
  have hroom := hf.room
  rw [rtPrioQueuePush, if_neg (Nat.not_le.mpr hprio), halloc]
  dsimp only
  generalize hm : (writeNumber _ _ 4 0 : Memory) = m
  have hstored : Conserved mp { pool with mem := m } chain' := by
    refine hc'.store fun x hne => stored_outside hb (n := 4 + q.itemSz) (by omega) ?_ hne
    intro hout
    rw [<- hm, writeNumber_outside (by omega), if_neg (by omega)]
  have hfilled : Filled mp { q with pool := { pool with mem := m } } chain' := by
    refine ⟨hstored, hf.room, fun prio hprio => ?_⟩
    rcases hf.tail prio hprio with ⟨b, hb, heq⟩
    exact ⟨b, hlive ▸ List.mem_cons_of_mem _ hb, heq⟩
  rcases hfilled.doPush hb p.prio with ⟨q', hpush, hf'⟩
  refine ⟨q', _, chain', congrArg (Option.map _) hpush, hf', ?_⟩
  have hcount' := hc'.count
  rw [hfree, hc.count] at hcount'
  omega

theorem Filled.pushAll {ps : List Push} (hf : Filled mp q chain) (hlen : ps.length ≤ chain.length)
    (hprio : forall p, p ∈ ps -> p.prio < PrioQueue.prioMax) : (pushAll q ps).isSome := by
  induction ps generalizing q chain with
  | nil => rfl
  | cons p rest ih =>
    have hne : chain ≠ [] := List.length_pos_iff.mp (Nat.lt_of_lt_of_le (Nat.succ_pos _) hlen)
    rcases hf.push hne (hprio p List.mem_cons_self) with ⟨q', item, chain', hpush, hf', hlen'⟩
    rw [PrioQueueCreate.pushAll, hpush]
    refine ih hf' ?_ fun p hp => hprio p (List.mem_cons_of_mem _ hp)
    rw [List.length_cons] at hlen
    omega

theorem push_takes (hpush : rtPrioQueuePush q p = some (q', Outcome.allocated item)) :
    q'.pool.mp.blockFreeCount + 1 = q.pool.mp.blockFreeCount := by
  unfold rtPrioQueuePush at hpush
  split at hpush
  · cases hpush
  · split at hpush
    · cases hpush
    · next pool item' halloc =>
        rcases Option.map_eq_some_iff.mp hpush with ⟨q1, hdo, heq⟩
        have hpool : q'.pool.mp = pool.mp := by
          cases heq
          unfold doPush at hdo
          split at hdo
          · cases hdo
            rfl
          · split at hdo
            · cases hdo
            · cases hdo
              rfl
        rw [hpool]
        unfold allocLoop at halloc
        dsimp only at halloc
        split at halloc
        · split at halloc
          · cases halloc
          · cases hcaller : p.caller with
            | none => rw [hcaller] at halloc; cases halloc
            | some t =>
              rw [hcaller] at halloc
              rcases Option.map_eq_some_iff.mp halloc with ⟨v, -, heq⟩
              cases heq
        · next hcount =>
            split at halloc
            · cases halloc
            · cases halloc
              exact Nat.succ_pred_eq_of_ne_zero hcount
    · next _ _ hother _ =>
        cases hpush
        exact (hother _ rfl).elim

theorem pushAll_length {ps : List Push} (hall : (pushAll q ps).isSome) :
    ps.length ≤ q.pool.mp.blockFreeCount := by
  induction ps generalizing q with
  | nil => exact Nat.zero_le _
  | cons p rest ih =>
    unfold pushAll at hall
    split at hall
    · next q' item hpush =>
        have htakes := push_takes hpush
        have hrest := ih hall
        rw [List.length_cons]
        omega
    · cases hall

/-!
## Creation
-/

variable {l thread pc}

theorem linkBlocks_outside {stride k b x : Nat} (hstride : 4 ≤ stride)
    (hx : x < b ∨ b + k * stride ≤ x) : linkBlocks stride k m b x = m x := by
  induction k generalizing m b with
  | zero => rfl
  | succ k ih =>
    rw [Nat.succ_mul] at hx
    exact (ih (by omega)).trans (writeNumber_outside (by omega))

theorem stride_eq (hfits : itemSz + 12 < 2 ^ 32) :
    add32 (rtAlign (add32 4 itemSz) 4) 4 = alignUp (4 + itemSz) 4 + 4 := by
  rw [add32_of_lt (a := 4) (by omega), rtAlign_of_lt (by omega)]
  apply add32_of_lt
  unfold alignUp rtAlignDown
  omega

theorem blocks_iff (hnr : 1 ≤ itemNr) :
    itemNr ≤ rtAlignDown (itemNr * (4 + itemSz + 4)) 4 / (alignUp (4 + itemSz) 4 + 4) <->
      itemSz % 4 = 0 := by
  rw [Nat.le_div_iff_mul_le (Nat.succ_pos _)]
  constructor
  · intro hle
    have hdown := Nat.le_trans hle (rtAlignDown_le _ _)
    have hstride := Nat.le_of_mul_le_mul_left hdown hnr
    unfold alignUp rtAlignDown at hstride
    omega
  · intro haligned
    have hup : alignUp (4 + itemSz) 4 = 4 + itemSz := by
      unfold alignUp rtAlignDown
      omega
    have hmod : itemNr * (4 + itemSz + 4) % 4 = 0 := Nat.mod_eq_zero_of_dvd
      (Nat.dvd_mul_left_of_dvd (Nat.dvd_of_mod_eq_zero (by omega)) _)
    rw [hup, rtAlignDown, hmod]
    exact Nat.le_refl _

theorem init_filled (hself : que + l.pool < 2 ^ 32) (hbuf : 0 < buf) (hend : buf + bufsz ≤ 2 ^ 32)
    (hfits : itemSz + 12 < 2 ^ 32) (hroom : alignUp (4 + itemSz) 4 + 4 ≤ rtAlignDown bufsz 4)
    (hque : 0 < que) :
    exists mp chain, Filled mp (rtPrioQueueInit l thread pc m que buf bufsz itemSz) chain ∧
      chain.length = rtAlignDown bufsz 4 / (alignUp (4 + itemSz) 4 + 4) := by
  have hstride := stride_eq hfits
  have hblock : rtAlign (add32 4 itemSz) 4 = alignUp (4 + itemSz) 4 := by
    rw [add32_of_lt (by omega), rtAlign_of_lt (by omega)]
  have hup : 4 + itemSz ≤ alignUp (4 + itemSz) 4 := le_alignUp (by decide)
  let q := rtPrioQueueInit l thread pc m que buf bufsz itemSz
  have hboot : Booted config { q.pool with
      thread := started
      pc := fun _ => Pc.idle } := by
    refine ⟨⟨m, _, _, _, _, _, rfl, by omega, hself, hbuf, hend, ?_⟩, fun _ => ⟨rfl, rfl⟩,
      fun _ => rfl, rfl⟩
    show rtAlign (add32 4 itemSz) 4 + 4 ≤ rtAlignDown bufsz 4
    rw [hblock]
    exact hroom
  have hc := hboot.conserved
  refine ⟨_, _, ⟨hc.congr SamePool.refl rfl rfl rfl fun _ _ => rfl, ?_,
    fun _ h => absurd rfl h⟩, ?_⟩
  · show itemSz + 8 ≤ add32 (rtAlign (add32 4 itemSz) 4) 4
    omega
  · rw [<- hc.count]
    exact congrArg (rtAlignDown bufsz 4 / ·) hstride

theorem init_writes_inside {x : Nat} (hfits : itemSz + 12 < 2 ^ 32) (hend : buf + bufsz ≤ 2 ^ 32)
    (hpos : 0 < rtAlignDown bufsz 4 / (alignUp (4 + itemSz) 4 + 4))
    (hx : x < buf ∨ buf + bufsz ≤ x) :
    (rtPrioQueueInit l thread pc m que buf bufsz itemSz).pool.mem x = m x := by
  show setHeader (linkBlocks (add32 (rtAlign (add32 4 itemSz) 4) 4)
    (rtAlignDown bufsz 4 / add32 (rtAlign (add32 4 itemSz) 4) 4) m buf) (sub32 (buf +
    rtAlignDown bufsz 4 / add32 (rtAlign (add32 4 itemSz) 4) 4 *
      add32 (rtAlign (add32 4 itemSz) 4) 4) (add32 (rtAlign (add32 4 itemSz) 4) 4)) 0 x = m x
  rw [stride_eq hfits]
  generalize hs : alignUp (4 + itemSz) 4 + 4 = stride at hpos
  have hle := Nat.le_trans (Nat.div_mul_le_self (rtAlignDown bufsz 4) stride) (rtAlignDown_le _ _)
  generalize rtAlignDown bufsz 4 / stride = k at hpos hle
  have hlast : stride ≤ k * stride := Nat.le_mul_of_pos_left _ hpos
  have hsub : sub32 (buf + k * stride) stride = buf + k * stride - stride := by
    unfold sub32
    omega
  rw [hsub, setHeader, writeNumber_outside (by omega), linkBlocks_outside (by omega) (by omega)]

/-- A created queue takes the items it was created for without a wait, and its set-up keeps
to its buffer, exactly when the size of an item is a multiple of 4. -/
theorem create_iff (hnr : 1 ≤ itemNr) (hque : 0 < que)
    (hblock : que + l.size + itemNr * (4 + itemSz + 4) ≤ 2 ^ 32) :
    exists q, rtPrioQueueCreate l thread pc m que itemNr itemSz = some q ∧
      ((HasCapacity q itemNr ∧ forall x,
        x < que + l.size ∨ que + l.size + itemNr * (4 + itemSz + 4) ≤ x ->
          q.pool.mem x = m x) <-> itemSz % 4 = 0) := by
  have hinside := l.inside
  have hitem : 4 + itemSz + 4 ≤ itemNr * (4 + itemSz + 4) := Nat.le_mul_of_pos_left _ hnr
  have hbuf : bufSize itemNr itemSz = itemNr * (4 + itemSz + 4) := Nat.mod_eq_of_lt (by omega)
  have hstride := @stride_eq itemSz (by omega)
  refine ⟨_, if_neg (Nat.ne_of_gt hque), ?_⟩
  rw [hbuf]
  generalize hB : itemNr * (4 + itemSz + 4) = bytes at hblock hitem
  let q := rtPrioQueueInit l thread pc m que (que + l.size) bytes itemSz
  have hfree : q.pool.mp.blockFreeCount =
      rtAlignDown bytes 4 / (alignUp (4 + itemSz) 4 + 4) := congrArg _ hstride
  have hiff := @blocks_iff itemNr itemSz hnr
  rw [hB] at hiff
  constructor
  · rintro ⟨hcap, -⟩
    have hlen := pushAll_length (hcap
      (List.replicate itemNr ⟨0, fun _ => 0, none, 0⟩) List.length_replicate (by
        intro p hp
        rw [List.eq_of_mem_replicate hp]
        decide))
    rw [List.length_replicate, hfree] at hlen
    exact hiff.mp hlen
  · intro haligned
    have htotal := hiff.mpr haligned
    have hpos := Nat.lt_of_lt_of_le hnr htotal
    constructor
    · have hroom : alignUp (4 + itemSz) 4 + 4 ≤ rtAlignDown bytes 4 :=
        Nat.le_of_not_lt fun hlt => absurd (Nat.div_eq_of_lt hlt) (Nat.ne_of_gt hpos)
      have hinit : exists mp chain, Filled mp q chain ∧
          chain.length = rtAlignDown bytes 4 / (alignUp (4 + itemSz) 4 + 4) :=
        init_filled (by omega) (by omega) hblock (by omega) hroom hque
      rcases hinit with ⟨mp, chain, hf, hlen⟩
      exact fun ps hps hprio => hf.pushAll (by rw [hps, hlen]; exact htotal) hprio
    · exact fun x hx => init_writes_inside (by omega) hblock hpos hx

theorem create_iff_two :
    exists q, rtPrioQueueCreate ⟨512, 280, 24, by decide⟩ started (fun _ => Pc.idle)
        (fun _ => 1) 1000 2 4 = some q ∧
      ((HasCapacity q 2 ∧ forall x, x < 1000 + 512 ∨ 1000 + 512 + 2 * (4 + 4 + 4) ≤ x ->
        q.pool.mem x = 1) <-> 4 % 4 = 0) :=
  create_iff (by decide) (by decide) (by decide)

/-- A queue for one item of one byte has no block, and its set-up writes into the queue object
before the buffer. -/
theorem create_one_byte :
    exists q, rtPrioQueueCreate ⟨512, 280, 24, by decide⟩ started (fun _ => Pc.idle)
        (fun _ => 1) 1000 1 1 = some q ∧ q.pool.mp.blockTotalCount = 0 ∧ ¬ HasCapacity q 1 ∧
      q.pool.mem 1500 ≠ 1 := by
  refine ⟨_, rfl, by decide, fun hcap => ?_, by decide⟩
  exact absurd (hcap [⟨0, fun _ => 0, none, 0⟩] rfl (by decide)) (by decide)

end RtThread.Vbus.PrioQueueCreate
