import RtThread.Library.Chain
import RtThread.Mem.MemPoolWaiters

/-!
# The blocks of a memory pool

The free blocks form a chain through their headers, and with the allocated blocks
they are all the blocks of the pool.  A release that resumes a thread where none
waits writes behind the pool object and can hit a header; every other step keeps
the blocks in order.
-/

namespace RtThread.Mem

open Kernel ByteMemory Ipc Transition

namespace MemPool

def blocksFrom (stride : Nat) : Nat -> Nat -> List Nat
  | 0, _ => []
  | k + 1, b => b :: blocksFrom stride k (b + stride)

def RtMempool.blocks (mp : RtMempool) : List Nat :=
  blocksFrom mp.stride mp.blockTotalCount mp.startAddress

def pointer (v : Nat) : Option Nat := if v = 0 then none else some v

def FreeChain (s : State) (chain : List Nat) : Prop :=
  Chain.Linked (fun b => pointer (header s.mem b)) (pointer s.mp.blockList) chain

/-- What `rt_mp_init` fixes. -/
structure SamePool (mp mp' : RtMempool) : Prop where
  self : mp'.self = mp.self
  start : mp'.startAddress = mp.startAddress
  size : mp'.size = mp.size
  blockSize : mp'.blockSize = mp.blockSize
  total : mp'.blockTotalCount = mp.blockTotalCount

/-- The pool lies in the address space, with room for its blocks. -/
structure Laid (mp : RtMempool) : Prop where
  self : mp.self < 2 ^ 32
  start : 0 < mp.startAddress
  fits : mp.startAddress + mp.size ≤ 2 ^ 32
  stride : 4 ≤ mp.stride
  room : mp.blockTotalCount * mp.stride ≤ mp.size

section Blocks

variable {mp mp' : RtMempool} {stride k b x y : Nat} {m : Memory}

theorem mem_blocksFrom : x ∈ blocksFrom stride k b <-> exists i, i < k ∧
    x = b + i * stride := by
  induction k generalizing b with
  | zero => exact ⟨nofun, nofun⟩
  | succ k ih =>
    show x ∈ b :: blocksFrom stride k (b + stride) <-> _
    rw [List.mem_cons, ih]
    constructor
    · rintro (heq | ⟨i, hi, heq⟩)
      · exact ⟨0, k.succ_pos, by simpa using heq⟩
      · exact ⟨i + 1, Nat.succ_lt_succ hi, by rw [heq, Nat.add_mul]; omega⟩
    · rintro ⟨i, hi, heq⟩
      cases i with
      | zero => exact Or.inl (by simpa using heq)
      | succ i =>
        exact Or.inr ⟨i, Nat.lt_of_succ_lt_succ hi, by rw [heq, Nat.add_mul]; omega⟩

theorem blocksFrom_apart : (blocksFrom stride k b).Pairwise fun x y => x + stride ≤ y := by
  induction k generalizing b with
  | zero => exact List.Pairwise.nil
  | succ k ih =>
    refine List.pairwise_cons.mpr ⟨?_, ih⟩
    intro y hy
    rcases mem_blocksFrom.mp hy with ⟨i, _, heq⟩
    omega

theorem SamePool.refl : SamePool mp mp := ⟨rfl, rfl, rfl, rfl, rfl⟩

theorem SamePool.trans {mp2 : RtMempool} (h : SamePool mp mp')
    (h' : SamePool mp' mp2) : SamePool mp mp2 :=
  ⟨h'.self.trans h.self, h'.start.trans h.start, h'.size.trans h.size,
    h'.blockSize.trans h.blockSize, h'.total.trans h.total⟩

theorem SamePool.stride_eq (h : SamePool mp mp') : mp'.stride = mp.stride :=
  congrArg (fun size => add32 size 4) h.blockSize

theorem Laid.inside (hl : Laid mp) (hb : b ∈ mp.blocks) :
    mp.startAddress ≤ b ∧ b + mp.stride ≤ mp.startAddress + mp.size := by
  rcases mem_blocksFrom.mp hb with ⟨i, hi, heq⟩
  have hroom := hl.room
  have hle : (i + 1) * mp.stride ≤ mp.blockTotalCount * mp.stride :=
    Nat.mul_le_mul_right _ hi
  rw [Nat.add_mul] at hle
  omega

theorem blocks_apart (hx : x ∈ mp.blocks) (hy : y ∈ mp.blocks) (hne : x ≠ y) :
    x + mp.stride ≤ y ∨ y + mp.stride ≤ x := by
  have hpair : mp.blocks.Pairwise fun x y => x + mp.stride ≤ y ∨ y + mp.stride ≤ x :=
    blocksFrom_apart.imp Or.inl
  have hsymm : Std.Symm fun x y => x + mp.stride ≤ y ∨ y + mp.stride ≤ x :=
    ⟨fun _ _ h => h.symm⟩
  exact hpair.forall hx hy hne

theorem blocks_nodup (hl : Laid mp) : mp.blocks.Nodup := by
  apply (blocksFrom_apart (k := mp.blockTotalCount) (b := mp.startAddress)).imp
  intro x y hle heq
  have hstride := hl.stride
  omega

theorem header_setHeader {v : Nat} (hv : v < 2 ^ 32) : header (setHeader m b v) b = v := by
  show readNumber (writeNumber m b 4 v) b 4 = v
  rw [readNumber_writeNumber]
  exact Nat.mod_eq_of_lt hv

theorem header_setHeader_of_ne {v : Nat} (hl : Laid mp) (hx : x ∈ mp.blocks)
    (hb : b ∈ mp.blocks) (hne : x ≠ b) : header (setHeader m b v) x = header m x := by
  apply readNumber_writeNumber_apart
  have hapart := blocks_apart hx hb hne
  have hstride := hl.stride
  omega

end Blocks

/-!
## The chain
-/

/-- The free chain and the allocated blocks are the blocks of the pool that was
set up. -/
structure Conserved (mp : RtMempool) (s : State) (chain : List Nat) : Prop where
  same : SamePool mp s.mp
  laid : Laid mp
  linked : FreeChain s chain
  perm : (chain ++ s.live).Perm mp.blocks
  count : s.mp.blockFreeCount = chain.length
  held : forall b, b ∈ s.live -> header s.mem b = mp.self

section Conserved

variable {mp : RtMempool} {s s' : State} {chain : List Nat} {b addr : Nat}
  {o : Outcome} {caller : Option Tid} {time : Int}

theorem Conserved.chain_mem (hc : Conserved mp s chain) (hb : b ∈ chain) :
    b ∈ mp.blocks := hc.perm.mem_iff.mp (by simp [hb])

theorem Conserved.live_mem (hc : Conserved mp s chain) (hb : b ∈ s.live) :
    b ∈ mp.blocks := hc.perm.mem_iff.mp (by simp [hb])

theorem Conserved.nodup (hc : Conserved mp s chain) : (chain ++ s.live).Nodup :=
  hc.perm.nodup_iff.mpr (blocks_nodup hc.laid)

theorem Laid.pointer_block (hl : Laid mp) (hb : b ∈ mp.blocks) :
    pointer b = some b ∧ b < 2 ^ 32 := by
  have hin := hl.inside hb
  have hstart := hl.start
  have hfits := hl.fits
  have hstride := hl.stride
  refine ⟨?_, by omega⟩
  unfold pointer
  rw [if_neg (by omega)]

theorem Conserved.blockList_lt (hc : Conserved mp s chain) : s.mp.blockList < 2 ^ 32 := by
  have hhead := Chain.Linked.head hc.linked
  unfold pointer at hhead
  split at hhead
  · omega
  · have hmem : s.mp.blockList ∈ chain := List.mem_of_mem_head? hhead.symm
    exact (hc.laid.pointer_block (hc.chain_mem hmem)).right

theorem Conserved.congr (hc : Conserved mp s chain) (hsame : SamePool s.mp s'.mp)
    (hlist : s'.mp.blockList = s.mp.blockList)
    (hcount : s'.mp.blockFreeCount = s.mp.blockFreeCount) (hlive : s'.live = s.live)
    (hmem : forall b, b ∈ mp.blocks -> header s'.mem b = header s.mem b) :
    Conserved mp s' chain := by
  refine ⟨hc.same.trans hsame, hc.laid,
    ?_, by rw [hlive]; exact hc.perm, hcount.trans hc.count, ?_⟩
  · unfold FreeChain
    rw [hlist]
    apply Chain.Linked.congr hc.linked
    intro x hx
    simp only [hmem x (hc.chain_mem hx)]
  · intro b hb
    rw [hlive] at hb
    rw [hmem b (hc.live_mem hb)]
    exact hc.held b hb

theorem Conserved.take (hc : Conserved mp s chain) (hlist : s.mp.blockList ≠ 0)
    (hmem : s'.mem = setHeader s.mem s.mp.blockList s.mp.self)
    (hsame : SamePool s.mp s'.mp)
    (hnext : s'.mp.blockList = header s.mem s.mp.blockList)
    (hcount : s'.mp.blockFreeCount = s.mp.blockFreeCount - 1)
    (hlive : s'.live = s.mp.blockList :: s.live) :
    exists chain', Conserved mp s' chain' := by
  have hsome : pointer s.mp.blockList = some s.mp.blockList := if_neg hlist
  have hlinked := hc.linked
  unfold FreeChain at hlinked
  rw [hsome] at hlinked
  rcases hlinked.cons_of_some with ⟨rest, hchain, hrest⟩
  subst hchain
  have hb := hc.chain_mem (List.mem_cons_self (l := rest))
  have hnodup := hc.nodup
  rw [List.cons_append, List.nodup_cons] at hnodup
  have hother : forall x, x ∈ rest ++ s.live -> header s'.mem x = header s.mem x := by
    intro x hx
    rw [hmem]
    apply header_setHeader_of_ne hc.laid (hc.perm.mem_iff.mp (by simp [hx])) hb
    rintro rfl
    exact hnodup.left hx
  refine ⟨rest, ⟨hc.same.trans hsame, hc.laid, ?_, ?_, ?_, ?_⟩⟩
  · unfold FreeChain
    rw [hnext]
    apply hrest.congr
    intro x hx
    simp only [hother x (List.mem_append_left _ hx)]
  · rw [hlive]
    exact List.perm_middle.trans hc.perm
  · rw [hcount, hc.count]
    rfl
  · intro x hx
    rw [hlive, List.mem_cons] at hx
    rcases hx with heq | hx
    · rw [heq, hmem, hc.same.self]
      exact header_setHeader hc.laid.self
    · rw [hother x (List.mem_append_right _ hx)]
      exact hc.held x hx

theorem Conserved.give (hc : Conserved mp s chain) (hb : b ∈ s.live)
    (hmem : s'.mem = setHeader s.mem b s.mp.blockList)
    (hsame : SamePool s.mp s'.mp) (hlist : s'.mp.blockList = b)
    (hcount : s'.mp.blockFreeCount = s.mp.blockFreeCount + 1)
    (hlive : s'.live = s.live.erase b) : Conserved mp s' (b :: chain) := by
  have hblock := hc.live_mem hb
  have hpointer := hc.laid.pointer_block hblock
  have hnodup := List.nodup_append.mp hc.nodup
  have hnew : b ∉ chain := fun hin => hnodup.right.right b hin b hb rfl
  have hother : forall x, x ∈ mp.blocks -> x ≠ b -> header s'.mem x = header s.mem x := by
    intro x hx hne
    rw [hmem]
    exact header_setHeader_of_ne hc.laid hx hblock hne
  refine ⟨hc.same.trans hsame, hc.laid, ?_, ?_, ?_, ?_⟩
  · unfold FreeChain
    rw [hlist]
    refine ⟨hpointer.left, ?_⟩
    simp only [hmem, header_setHeader hc.blockList_lt]
    apply Chain.Linked.congr hc.linked
    intro x hx
    have hne : x ≠ b := by
      rintro rfl
      exact hnew hx
    simp only [header_setHeader_of_ne hc.laid (hc.chain_mem hx) hblock hne]
  · rw [hlive, List.cons_append]
    refine List.Perm.trans ?_ hc.perm
    refine List.perm_middle.symm.trans ?_
    exact (List.perm_cons_erase hb).symm.append_left chain
  · rw [hcount, hc.count]
    rfl
  · intro x hx
    rw [hlive] at hx
    have hne : x ≠ b := by
      rintro rfl
      exact hnodup.right.left.not_mem_erase hx
    have hx' := List.mem_of_mem_erase hx
    rw [hother x (hc.live_mem hx') hne]
    exact hc.held x hx'

end Conserved

/-!
## Initialisation
-/

section Init

variable {stride k b x : Nat} {m : Memory}

theorem linkBlocks_before (hx : x + 4 ≤ b) : header (linkBlocks stride k m b) x = header m x := by
  induction k generalizing m b with
  | zero => rfl
  | succ k ih =>
    refine (ih (by omega)).trans ?_
    exact readNumber_writeNumber_apart (Or.inl hx)

theorem linkBlocks_header {i : Nat} (hstride : 4 ≤ stride) (hi : i < k)
    (hfits : b + k * stride ≤ 2 ^ 32) (hlast : i + 1 < k) :
    header (linkBlocks stride k m b) (b + i * stride) = b + (i + 1) * stride := by
  induction k generalizing m b i with
  | zero => cases hi
  | succ k ih =>
    show header (linkBlocks stride k (setHeader m b (b + stride)) (b + stride)) _ = _
    rw [Nat.add_mul] at hfits
    cases i with
    | zero =>
      have hpos : 0 < k := by omega
      have hroom : stride ≤ k * stride := Nat.le_mul_of_pos_left stride hpos
      rw [Nat.zero_mul, Nat.add_zero, Nat.zero_add, Nat.one_mul, linkBlocks_before (by omega)]
      exact header_setHeader (by omega)
    | succ i =>
      have hih := @ih (b + stride) (setHeader m b (b + stride)) i
        (Nat.lt_of_succ_lt_succ hi) (by omega) (Nat.lt_of_succ_lt_succ hlast)
      rw [show b + (i + 1) * stride = b + stride + i * stride by
        rw [Nat.add_mul]; omega, hih]
      rw [Nat.add_mul (i + 1) 1]
      omega

theorem linked_blocksFrom (hb : 0 < b)
    (hnext : forall i, i < k -> header m (b + i * stride) = b + (i + 1) * stride)
    (hend : header m (b + k * stride) = 0) :
    Chain.Linked (fun b => pointer (header m b)) (pointer b) (blocksFrom stride (k + 1) b) := by
  induction k generalizing b with
  | zero =>
    rw [Nat.zero_mul, Nat.add_zero] at hend
    refine ⟨if_neg (by omega), ?_⟩
    show pointer (header m b) = none
    rw [hend]
    rfl
  | succ k ih =>
    refine ⟨if_neg (by omega), ?_⟩
    have hfirst := hnext 0 k.succ_pos
    rw [Nat.zero_mul, Nat.add_zero, Nat.zero_add, Nat.one_mul] at hfirst
    simp only [hfirst]
    apply ih (by omega)
    · intro i hi
      have hi' := hnext (i + 1) (Nat.succ_lt_succ hi)
      rw [Nat.add_mul i, Nat.add_mul (i + 1)] at hi'
      rw [Nat.add_mul i]
      rw [show b + stride + i * stride = b + (i * stride + 1 * stride) by omega, hi']
      rw [Nat.add_mul i]
      omega
    · rw [Nat.add_mul] at hend
      rw [show b + stride + k * stride = b + (k * stride + 1 * stride) by omega]
      exact hend

end Init

section Boot

variable {c : Config} {s : State}

theorem Booted.laid (hboot : Booted c s) : Laid s.mp ∧ 0 < s.mp.blockTotalCount := by
  rcases hboot.pool with ⟨m, self, objectSize, start, size, blockSize, hpool, _, hself,
    hstart, hfits, hblock⟩
  have hmp : s.mp = (rtMpInit c m self objectSize start size blockSize).1 :=
    congrArg Prod.fst hpool
  have hsize := rtAlignDown_le size c.alignSize
  have hstride : add32 (rtAlign blockSize c.alignSize) 4 = rtAlign blockSize c.alignSize + 4 := by
    by_cases hlt : rtAlign blockSize c.alignSize + 4 < 2 ^ 32
    · exact add32_of_lt hlt
    · omega
  rw [hmp]
  refine ⟨⟨hself, hstart, ?_, ?_, ?_⟩, ?_⟩
  · show start + rtAlignDown size c.alignSize ≤ 2 ^ 32
    omega
  · show 4 ≤ add32 (rtAlign blockSize c.alignSize) 4
    omega
  · exact Nat.div_mul_le_self _ _
  · apply Nat.div_pos
    · rw [hstride]
      exact hblock
    · omega

theorem Booted.conserved (hboot : Booted c s) : Conserved s.mp s s.mp.blocks := by
  have hlaid := hboot.laid
  refine ⟨SamePool.refl, hlaid.left, ?_, ?_, ?_, ?_⟩
  · rcases hboot.pool with ⟨m, self, objectSize, start, size, blockSize, hpool, _⟩
    have hmp : s.mp = (rtMpInit c m self objectSize start size blockSize).1 :=
      congrArg Prod.fst hpool
    have hmem : s.mem = (rtMpInit c m self objectSize start size blockSize).2 :=
      congrArg Prod.snd hpool
    have hlist : s.mp.blockList = s.mp.startAddress := by
      rw [hmp]
      rfl
    have hmem' : s.mem = setHeader (linkBlocks s.mp.stride s.mp.blockTotalCount m s.mp.startAddress)
        (sub32 (s.mp.startAddress + s.mp.blockTotalCount * s.mp.stride) s.mp.stride) 0 := by
      rw [hmem, hmp]
      rfl
    rcases hlaid with ⟨hl, hpos⟩
    have hroom := hl.room
    have hfits := hl.fits
    have hstride := hl.stride
    rcases Nat.exists_eq_succ_of_ne_zero (Nat.ne_of_gt hpos) with ⟨k, hk⟩
    unfold FreeChain RtMempool.blocks
    rw [hk] at hroom
    have hroom' : (k + 1) * s.mp.stride ≤ s.mp.size := hroom
    have hlast : sub32 (s.mp.startAddress + k.succ * s.mp.stride) s.mp.stride =
        s.mp.startAddress + k * s.mp.stride := by
      rw [Nat.succ_mul] at hroom ⊢
      unfold sub32
      omega
    rw [hlist, hmem', hk, hlast]
    apply linked_blocksFrom hl.start
    · intro i hi
      have hle : (i + 1) * s.mp.stride ≤ k * s.mp.stride := Nat.mul_le_mul_right _ hi
      rw [Nat.add_mul] at hle
      have hkeep : header (setHeader (linkBlocks s.mp.stride k.succ m s.mp.startAddress)
          (s.mp.startAddress + k * s.mp.stride) 0)
          (s.mp.startAddress + i * s.mp.stride) =
          header (linkBlocks s.mp.stride k.succ m s.mp.startAddress)
            (s.mp.startAddress + i * s.mp.stride) := by
        apply readNumber_writeNumber_apart
        left
        show _ ≤ s.mp.startAddress + k * s.mp.stride
        omega
      rw [hkeep]
      exact linkBlocks_header hstride (by omega) (by
        show s.mp.startAddress + (k + 1) * s.mp.stride ≤ 2 ^ 32
        omega) (by omega)
    · exact header_setHeader (by decide)
  · rw [hboot.live, List.append_nil]
  · rcases hboot.pool with ⟨m, self, objectSize, start, size, blockSize, hpool, _⟩
    have hmp : s.mp = (rtMpInit c m self objectSize start size blockSize).1 :=
      congrArg Prod.fst hpool
    have hlen : forall k b, (blocksFrom s.mp.stride k b).length = k := by
      intro k
      induction k with
      | zero => exact fun _ => rfl
      | succ k ih => exact fun b => congrArg Nat.succ (ih _)
    unfold RtMempool.blocks
    rw [hlen, hmp]
    rfl
  · rw [hboot.live]
    nofun

end Boot

/-!
## Runs
-/

/-- The step is not a release that resumes a thread where none waits. -/
def ResumesWaiter (s : State) : Op -> Prop
  | Op.free _ => 0 < s.mp.suspendThreadCount -> s.mp.suspendThread ≠ []
  | _ => True

instance (s : State) (op : Op) : Decidable (ResumesWaiter s op) :=
  match op with
  | Op.free _ => inferInstanceAs (Decidable (_ -> _))
  | Op.alloc _ _ => isTrue trivial
  | Op.allocReturn _ _ => isTrue trivial
  | Op.timeout _ => isTrue trivial
  | Op.write _ _ => isTrue trivial

section Runs

variable {c : Config} {mp : RtMempool} {s s' : State} {chain : List Nat} {op : Op}
  {o : Outcome} {caller : Option Tid} {time : Int} {b addr : Nat} {v : Byte}

theorem Conserved.allocLoop (hc : Conserved mp s chain)
    (hs : allocLoop s caller time = some (s', o)) :
    exists chain', Conserved mp s' chain' := by
  unfold MemPool.allocLoop at hs
  simp only at hs
  split at hs
  · split at hs
    · cases hs
      exact ⟨chain, hc.congr SamePool.refl rfl rfl rfl (fun _ _ => rfl)⟩
    · cases caller with
      | none => cases hs
      | some t =>
        simp only [Option.map_eq_some_iff] at hs
        rcases hs with ⟨w, _, heq⟩
        cases heq
        exact ⟨chain, hc.congr ⟨rfl, rfl, rfl, rfl, rfl⟩ rfl rfl rfl (fun _ _ => rfl)⟩
  · split at hs
    · cases hs
    · rename_i hlist
      cases hs
      exact hc.take hlist rfl ⟨rfl, rfl, rfl, rfl, rfl⟩ rfl rfl rfl

theorem Conserved.rtMpFree (hc : Conserved mp s chain) (hb : b ∈ s.live)
    (hok : 0 < s.mp.suspendThreadCount -> s.mp.suspendThread ≠ [])
    (hs : rtMpFree s b = some s') : Conserved mp s' (b :: chain) := by
  unfold MemPool.rtMpFree at hs
  split at hs
  · cases hs
  · simp only at hs
    split at hs
    · rename_i hpos
      cases hlist : s.mp.suspendThread with
      | nil => exact absurd hlist (hok hpos)
      | cons t rest =>
        simp only [resumeFirst, hlist, Option.map_some] at hs
        cases hs
        exact hc.give hb rfl ⟨rfl, rfl, rfl, rfl, rfl⟩ rfl rfl rfl
    · cases hs
      exact hc.give hb rfl ⟨rfl, rfl, rfl, rfl, rfl⟩ rfl rfl rfl

theorem Conserved.store {m : Memory} (hc : Conserved mp s chain)
    (hstored : forall addr, m addr ≠ s.mem addr -> MayWrite s addr) :
    Conserved mp { s with mem := m } chain := by
  refine hc.congr SamePool.refl rfl rfl rfl ?_
  intro x hx
  have hin := hc.laid.inside hx
  have hstride := hc.laid.stride
  apply readNumber_congr
  intro addr hle hlt
  by_contra hne
  have hw := hstored addr hne
  have hout : addr < x ∨ x + 4 ≤ addr := by
    unfold MayWrite InPayload at hw
    rw [hc.same.start, hc.same.size, hc.same.stride_eq] at hw
    rcases hw with hlt | hge | ⟨b, hb, hlo, hhi⟩
    · omega
    · omega
    · by_cases hxb : x = b
      · omega
      · have hapart := blocks_apart hx (hc.live_mem hb) hxb
        omega
  omega

theorem Conserved.write (hc : Conserved mp s chain) (hw : MayWrite s addr) :
    Conserved mp { s with mem := Function.update s.mem addr v } chain := by
  apply hc.store
  intro x hne
  by_cases heq : x = addr
  · exact heq ▸ hw
  · exact absurd (Function.update_of_ne heq _ _) hne

theorem Conserved.step (hc : Conserved mp s chain) (hok : ResumesWaiter s op)
    (hs : step s op = some s') : exists chain', Conserved mp s' chain' := by
  unfold MemPool.step at hs
  rw [Option.map_eq_some_iff] at hs
  rcases hs with ⟨⟨s1, o⟩, hs, heq⟩
  cases heq
  cases op with
  | alloc caller time =>
    simp only [stepOutcome] at hs
    split at hs
    · exact hc.allocLoop hs
    · cases hs
  | allocReturn t delta =>
    simp only [stepOutcome] at hs
    split at hs
    · cases hs
    · split at hs
      · unfold MemPool.allocReturn at hs
        simp only at hs
        split at hs
        · cases hs
          exact ⟨chain, hc.congr SamePool.refl rfl rfl rfl (fun _ _ => rfl)⟩
        · exact hc.allocLoop hs
      · cases hs
  | free b =>
    simp only [stepOutcome] at hs
    split at hs
    · rename_i hb
      rw [Option.map_eq_some_iff] at hs
      rcases hs with ⟨s2, hfree, heq⟩
      cases heq
      exact ⟨b :: chain, hc.rtMpFree hb hok hfree⟩
    · cases hs
  | timeout t =>
    simp only [stepOutcome] at hs
    split at hs
    · cases hs
      have hsame : SamePool s.mp (timeout s t).mp := ⟨rfl, rfl, rfl, rfl, rfl⟩
      exact ⟨chain, hc.congr hsame rfl rfl rfl (fun _ _ => rfl)⟩
    · cases hs
  | write addr v =>
    simp only [stepOutcome] at hs
    split at hs
    · rename_i hw
      cases hs
      exact ⟨chain, hc.write hw⟩
    · cases hs

/-- As long as no release resumes a thread where none waits, the blocks are the free chain
and the allocated blocks, the counter is the length of the chain, and the headers of
allocated blocks lead to the pool. -/
theorem pool_blocks_conserved {s0 : State} {ops : List Op} (hboot : Booted c s0)
    (hrun : Run (Guarded ResumesWaiter (Graph step)) s0 ops s) :
    exists chain, FreeChain s chain ∧ (chain ++ s.live).Perm s0.mp.blocks ∧
      s.mp.blockFreeCount = chain.length ∧
      (forall b, b ∈ s.live -> header s.mem b = s0.mp.self) ∧
      s0.mp.blocks.length = s0.mp.blockTotalCount ∧
      s0.mp.blocks.Pairwise (fun b b' => b + s0.mp.stride ≤ b') ∧
      forall b, b ∈ s0.mp.blocks -> s0.mp.startAddress ≤ b ∧
        b + s0.mp.stride ≤ s0.mp.startAddress + s0.mp.size := by
  have hinv : exists chain, Conserved s0.mp s chain := by
    apply hrun.invariant fun s => exists chain, Conserved s0.mp s chain
    · exact ⟨_, hboot.conserved⟩
    · rintro s a s' ⟨chain, hc⟩ hs
      exact hc.step hs.left hs.right
  rcases hinv with ⟨chain, hc⟩
  refine ⟨chain, hc.linked, hc.perm, hc.count, hc.held, ?_, blocksFrom_apart,
    fun b hb => hc.laid.inside hb⟩
  have hlen := hboot.conserved.count
  rcases hboot.pool with ⟨m, self, objectSize, start, size, blockSize, hpool, _⟩
  have hmp : s0.mp = (rtMpInit c m self objectSize start size blockSize).1 :=
    congrArg Prod.fst hpool
  rw [← hlen, hmp]
  rfl

/-- One of two blocks is freed while a third thread waits for it. -/
theorem pool_blocks_conserved_full :
    exists s, exec step twoBlocks (fullPool ++ [Op.free 1056]) = some s ∧
      exists chain, FreeChain s chain ∧ (chain ++ s.live).Perm twoBlocks.mp.blocks ∧
        s.mp.blockFreeCount = chain.length ∧
        (forall b, b ∈ s.live -> header s.mem b = twoBlocks.mp.self) ∧
        twoBlocks.mp.blocks.length = twoBlocks.mp.blockTotalCount ∧
        twoBlocks.mp.blocks.Pairwise (fun b b' => b + twoBlocks.mp.stride ≤ b') ∧
        forall b, b ∈ twoBlocks.mp.blocks -> twoBlocks.mp.startAddress ≤ b ∧
          b + twoBlocks.mp.stride ≤ twoBlocks.mp.startAddress + twoBlocks.mp.size := by
  have hconserved := fun s (hexec : exec (fun s op =>
      if ResumesWaiter s op then step s op else none) twoBlocks
      (fullPool ++ [Op.free 1056]) = some s) =>
    pool_blocks_conserved twoBlocks_booted (guarded_run_of_exec hexec)
  exact ⟨_, rfl, hconserved _ rfl⟩

/-- After the third thread has timed out, the release of the first block clears the
header of the second one, which is allocated. -/
theorem pool_header_lost :
    exists s, Run (Graph step) twoBlocks (fullPool ++ [Op.timeout 1, Op.free 1056]) s ∧
      1072 ∈ s.live ∧ header s.mem 1072 = 0 ∧ s.mp.self = 1000 := by
  refine ⟨_, run_of_exec rfl, by decide, ?_, rfl⟩
  decide +kernel

end Runs

end MemPool
end RtThread.Mem
