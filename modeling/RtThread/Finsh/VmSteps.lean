import RtThread.Finsh.Compiler

/-!
# Instruction sequences

The machine is at a configuration when its stack, with the top first, its program counter and its
memory are these; what lies above the stack pointer does not matter. Each instruction for 32-bit
data leads from one configuration to another, and a sequence of them in at most as many steps as
it has bytes.
-/

namespace RtThread.Finsh

open ByteMemory

/-- The bytes of a piece of code lie in the text segment from an offset on. -/
def CodeAt (text : Memory) (pc : Nat) (code : List Byte) : Prop :=
  pc + code.length ≤ finshTextMax ∧
    forall i b, code[i]? = some b -> text (pc + i) = b

@[simp]
theorem codeOp_length (op : Op) : (codeOp op).length = 1 := rfl

@[simp]
theorem finshCodeDword_length (x : Nat) : (finshCodeDword x).length = 4 := rfl

section CodeAt

variable {text : Memory} {pc : Nat} {code code' : List Byte} {b : Byte}

theorem codeAt_append : CodeAt text pc (code ++ code') <->
    CodeAt text pc code ∧ CodeAt text (pc + code.length) code' := by
  constructor
  · rintro ⟨hfit, hcode⟩
    rw [List.length_append] at hfit
    refine ⟨⟨by omega, ?_⟩, ⟨by omega, ?_⟩⟩
    · intro i b hb
      have hi := (List.getElem?_eq_some_iff.mp hb).choose
      exact hcode i b (by rw [List.getElem?_append_left hi]; exact hb)
    · intro i b hb
      rw [Nat.add_assoc]
      apply hcode
      rw [List.getElem?_append_right (Nat.le_add_right _ _), Nat.add_sub_cancel_left]
      exact hb
  · rintro ⟨⟨_, hcode⟩, ⟨hfit, hcode'⟩⟩
    refine ⟨by rw [List.length_append]; omega, ?_⟩
    intro i b hb
    rcases Nat.lt_or_ge i code.length with hlt | hge
    · rw [List.getElem?_append_left hlt] at hb
      exact hcode i b hb
    · rw [List.getElem?_append_right hge] at hb
      have hat := hcode' (i - code.length) b hb
      rwa [Nat.add_assoc, Nat.add_sub_cancel' hge] at hat

theorem CodeAt.head (hc : CodeAt text pc (b :: code)) : text pc = b :=
  hc.right 0 b rfl

theorem codeAt_textSegment (hfit : code.length ≤ finshTextMax) :
    CodeAt (textSegment code) 0 code := by
  refine ⟨by omega, ?_⟩
  intro i b hb
  unfold textSegment
  rw [Nat.zero_add, hb]
  rfl

theorem CodeAt.dword {x : Nat} (hc : CodeAt text pc (finshCodeDword x)) :
    readNumber text pc 4 = x % 2 ^ 32 := by
  have hdigits : forall i, i < 4 -> text (pc + i) = BitVec.ofNat 8 (x / 256 ^ i) := by
    intro i hi
    apply hc.right
    unfold finshCodeDword
    match i, hi with
    | 0, _ => simp
    | 1, _ => simp
    | 2, _ => rfl
    | 3, _ => rfl
  exact readNumber_of_digits hdigits

end CodeAt

/-!
## Steps
-/

inductive Steps (target : Target) (text : Memory) : Nat -> Vm -> Vm -> Prop where
  | refl (m : Vm) : Steps target text 0 m m
  | head {n : Nat} {m m1 m2 : Vm} : m.pc < finshTextMax ->
      vmStep target text m = some m1 -> Steps target text n m1 m2 ->
      Steps target text (n + 1) m m2

section Steps

variable {target : Target} {text : Memory} {n k : Nat} {m m1 m2 : Vm}

theorem Steps.trans (hs : Steps target text n m m1) (hs' : Steps target text k m1 m2) :
    Steps target text (n + k) m m2 := by
  induction hs with
  | refl m => simpa using hs'
  | head hpc hstep _ ih =>
    rw [Nat.add_right_comm]
    exact Steps.head hpc hstep (ih hs')

theorem Steps.vmLoop_eq (hs : Steps target text n m m1) (fuel : Nat) :
    vmLoop target text (n + fuel) m = vmLoop target text fuel m1 := by
  induction hs with
  | refl m => rw [Nat.zero_add]
  | head hpc hstep _ ih =>
    rw [Nat.add_right_comm, vmLoop, if_pos hpc, hstep, Option.bind_some]
    exact ih

end Steps

/-- The values on a stack lie in the cells from the bottom up, the top first in the
list. -/
def Cells (stack : Nat -> BitVec 32) : List (BitVec 32) -> Prop
  | [] => True
  | v :: s => stack s.length = v ∧ Cells stack s

theorem Cells.update {stack : Nat -> BitVec 32} {s : List (BitVec 32)} {i : Nat}
    (hs : Cells stack s) (hi : s.length ≤ i) (v : BitVec 32) :
    Cells (Function.update stack i v) s := by
  induction s with
  | nil => trivial
  | cons w s ih =>
    rw [List.length_cons] at hi
    refine ⟨?_, ih hs.right (by omega)⟩
    rw [Function.update_of_ne (by omega)]
    exact hs.left

theorem Cells.push {stack : Nat -> BitVec 32} {s : List (BitVec 32)} (hs : Cells stack s)
    (v : BitVec 32) : Cells (Function.update stack s.length v) (v :: s) :=
  ⟨Function.update_self _ _ _, hs.update (Nat.le_refl _) v⟩

structure Config where
  pc : Nat
  stack : List (BitVec 32)
  mem : Memory

structure Vm.At (m : Vm) (c : Config) : Prop where
  pc : m.pc = c.pc
  sp : m.sp = c.stack.length
  mem : m.mem = c.mem
  cells : Cells m.stack c.stack

/-- From one configuration the machine gets to another, in no more steps than it
moves on in the code. -/
def Reach (target : Target) (text : Memory) (c c' : Config) : Prop :=
  forall m : Vm, m.At c -> exists m' n, n + c.pc ≤ c'.pc ∧ Steps target text n m m' ∧ m'.At c'

section Reach

variable {target : Target} {text : Memory} {c c1 c2 : Config} {pc a x : Nat}
  {s : List (BitVec 32)} {mem : Memory} {u v w : BitVec 32}

theorem Reach.trans (hr : Reach target text c c1) (hr' : Reach target text c1 c2) :
    Reach target text c c2 := by
  intro m hm
  rcases hr m hm with ⟨m1, n, hn, hs, hm1⟩
  rcases hr' m1 hm1 with ⟨m2, k, hk, hs', hm2⟩
  exact ⟨m2, n + k, by omega, hs.trans hs', hm2⟩

theorem reach_step {op : Op} (hc : CodeAt text c.pc (codeOp op))
    (hrun : forall m : Vm, m.At { c with pc := c.pc + 1 } ->
      exists m', opRun target text m op = some m' ∧ m'.At c1)
    (hpc : c.pc < c1.pc) : Reach target text c c1 := by
  intro m hm
  have hmove : Vm.At { m with pc := m.pc + 1 } { c with pc := c.pc + 1 } :=
    ⟨by rw [← hm.pc], hm.sp, hm.mem, hm.cells⟩
  rcases hrun _ hmove with ⟨m', hm', hat⟩
  have hfit := hc.left
  have hbyte : text m.pc = BitVec.ofNat 8 op.code := by
    rw [hm.pc]
    exact hc.head
  have hstep : vmStep target text m = some m' := by
    unfold vmStep
    rw [hbyte, BitVec.toNat_ofNat, Nat.mod_eq_of_lt op.code_lt, opTable_code]
    exact hm'
  refine ⟨m', 1, by omega, Steps.head ?_ hstep (Steps.refl m'), hat⟩
  rw [hm.pc]
  simp only [codeOp, finshCodeByte, List.length_singleton] at hfit
  omega

theorem reach_ld (target : Target) (mem : Memory)
    (hc : CodeAt text pc (codeOp (Op.ld Width.dword) ++ finshCodeDword x))
    (hroom : s.length < finshStackMax) :
    Reach target text ⟨pc, s, mem⟩ ⟨pc + 5, BitVec.ofNat 32 x :: s, mem⟩ := by
  rcases codeAt_append.mp hc with ⟨hop, harg⟩
  refine reach_step hop ?_ (show pc < pc + 5 by omega)
  intro m hm
  have harg' : CodeAt text (pc + 1) (finshCodeDword x) := harg
  have hfit : pc + 1 + 4 ≤ finshTextMax := harg'.left
  have hvalue : BitVec.ofNat 32 (readNumber text (pc + 1) 4) = BitVec.ofNat 32 x := by
    rw [harg'.dword]
    apply BitVec.eq_of_toNat_eq
    simp only [BitVec.toNat_ofNat, Nat.mod_mod]
  have hpc : m.pc = pc + 1 := hm.pc
  have hsp : m.sp = s.length := hm.sp
  refine ⟨⟨Function.update m.stack s.length (BitVec.ofNat 32 x), s.length + 1, pc + 1 + 4,
    m.mem⟩, ?_, ⟨rfl, rfl, hm.mem, hm.cells.push _⟩⟩
  simp only [opRun, fetch, push, Width.bytes, hpc, if_pos hfit, Option.bind_some, hsp,
    if_pos hroom, assign_dword, hvalue]

theorem reach_ldValue (target : Target) (mem : Memory)
    (hc : CodeAt text pc (codeOp (Op.ldValue Width.dword) ++ finshCodeDword a))
    (ha : a < 2 ^ 32) (hroom : s.length < finshStackMax) :
    Reach target text ⟨pc, s, mem⟩ ⟨pc + 5, BitVec.ofNat 32 (readNumber mem a 4) :: s,
      mem⟩ := by
  rcases codeAt_append.mp hc with ⟨hop, harg⟩
  refine reach_step hop ?_ (show pc < pc + 5 by omega)
  intro m hm
  have harg' : CodeAt text (pc + 1) (finshCodeDword a) := harg
  have hfit : pc + 1 + 4 ≤ finshTextMax := harg'.left
  have hvalue : readNumber text (pc + 1) 4 = a := by
    rw [harg'.dword, Nat.mod_eq_of_lt ha]
  have hpc : m.pc = pc + 1 := hm.pc
  have hsp : m.sp = s.length := hm.sp
  have hmem : m.mem = mem := hm.mem
  refine ⟨⟨Function.update m.stack s.length (BitVec.ofNat 32 (readNumber mem a 4)),
    s.length + 1, pc + 1 + 4, m.mem⟩, ?_, ⟨rfl, rfl, hm.mem, hm.cells.push _⟩⟩
  simp only [opRun, fetch, push, Width.bytes, hpc, if_pos hfit, Option.bind_some, hsp,
    if_pos hroom, assign_dword, hvalue, hmem]

theorem reach_bin (target : Target) (mem : Memory) {op : BinOp}
    (hc : CodeAt text pc (codeOp (Op.bin op Width.dword)))
    (hop : intOp op u v = some w) :
    Reach target text ⟨pc, v :: u :: s, mem⟩ ⟨pc + 1, w :: s, mem⟩ := by
  refine reach_step hc ?_ (show pc < pc + 1 by omega)
  intro m hm
  have hsp : m.sp = s.length + 1 + 1 := hm.sp
  have htop : m.stack (s.length + 1) = v := hm.cells.left
  have hnext : m.stack s.length = u := hm.cells.right.left
  refine ⟨⟨Function.update m.stack s.length w, s.length + 1, m.pc, m.mem⟩, ?_,
    ⟨hm.pc, rfl, hm.mem, hm.cells.right.right.push _⟩⟩
  have htwo : 2 ≤ s.length + 1 + 1 := by omega
  simp only [opRun, opBin, hsp, if_pos htwo, Nat.add_sub_cancel,
    show s.length + 1 + 1 - 2 = s.length by omega, htop, hnext, load, hop, Option.map_some,
    assign_dword]

theorem reach_bw (target : Target) (mem : Memory)
    (hc : CodeAt text pc (codeOp (Op.bw Width.dword))) :
    Reach target text ⟨pc, v :: s, mem⟩ ⟨pc + 1, ~~~v :: s, mem⟩ := by
  refine reach_step hc ?_ (show pc < pc + 1 by omega)
  intro m hm
  have hsp : m.sp = s.length + 1 := hm.sp
  have htop : m.stack s.length = v := hm.cells.left
  refine ⟨⟨Function.update m.stack s.length (~~~v), s.length + 1, m.pc, m.mem⟩, ?_,
    ⟨hm.pc, rfl, hm.mem, hm.cells.right.push _⟩⟩
  have hone : 1 ≤ s.length + 1 := by omega
  simp only [opRun, setTop, hsp, if_pos hone, Nat.add_sub_cancel, htop, load, assign_dword]

theorem reach_st (target : Target) (mem : Memory)
    (hc : CodeAt text pc (codeOp (Op.st Width.dword))) :
    Reach target text ⟨pc, v :: u :: s, mem⟩
      ⟨pc + 1, u :: s, writeNumber mem u.toNat 4 v.toNat⟩ := by
  refine reach_step hc ?_ (show pc < pc + 1 by omega)
  intro m hm
  have hsp : m.sp = s.length + 1 + 1 := hm.sp
  have htop : m.stack (s.length + 1) = v := hm.cells.left
  have hnext : m.stack s.length = u := hm.cells.right.left
  have hmem : m.mem = mem := hm.mem
  refine ⟨⟨m.stack, s.length + 1, m.pc, writeNumber mem u.toNat 4 v.toNat⟩, ?_,
    ⟨hm.pc, rfl, rfl, hm.cells.right⟩⟩
  have htwo : 2 ≤ s.length + 1 + 1 := by omega
  simp only [opRun, hsp, if_pos htwo, Nat.add_sub_cancel,
    show s.length + 1 + 1 - 2 = s.length by omega, htop, hnext, hmem, Width.bytes]

theorem reach_ldValueStack (target : Target) (mem : Memory)
    (hc : CodeAt text pc (codeOp (Op.ldValueStack Width.dword))) :
    Reach target text ⟨pc, u :: s, mem⟩
      ⟨pc + 1, BitVec.ofNat 32 (readNumber mem u.toNat 4) :: s, mem⟩ := by
  refine reach_step hc ?_ (show pc < pc + 1 by omega)
  intro m hm
  have hsp : m.sp = s.length + 1 := hm.sp
  have htop : m.stack s.length = u := hm.cells.left
  have hmem : m.mem = mem := hm.mem
  refine ⟨⟨Function.update m.stack s.length (BitVec.ofNat 32 (readNumber mem u.toNat 4)),
    s.length + 1, m.pc, m.mem⟩, ?_, ⟨hm.pc, rfl, hm.mem, hm.cells.right.push _⟩⟩
  have hone : 1 ≤ s.length + 1 := by omega
  simp only [opRun, setTop, hsp, if_pos hone, Nat.add_sub_cancel, htop, assign_dword, hmem,
    Width.bytes]

theorem reach_pop (target : Target) (mem : Memory) (hc : CodeAt text pc (codeOp Op.pop)) :
    Reach target text ⟨pc, v :: s, mem⟩ ⟨pc + 1, s, mem⟩ := by
  refine reach_step hc ?_ (show pc < pc + 1 by omega)
  intro m hm
  have hsp : m.sp = s.length + 1 := hm.sp
  refine ⟨⟨m.stack, s.length, m.pc, m.mem⟩, ?_, ⟨hm.pc, rfl, hm.mem, hm.cells.right⟩⟩
  have hone : 1 ≤ s.length + 1 := by omega
  simp only [opRun, hsp, if_pos hone, Nat.add_sub_cancel]

theorem reach_end (hzero : forall i, pc ≤ i -> i < finshTextMax -> text i = 0)
    (hle : pc ≤ finshTextMax) :
    Reach target text ⟨pc, s, mem⟩ ⟨finshTextMax, s, mem⟩ := by
  induction hk : finshTextMax - pc generalizing pc with
  | zero =>
    have heq : pc = finshTextMax := by omega
    subst heq
    intro m hm
    exact ⟨m, 0, by simp, Steps.refl m, hm⟩
  | succ k ih =>
    have hcode : CodeAt text pc (codeOp Op.noop) := by
      refine ⟨?_, ?_⟩
      · show pc + 1 ≤ finshTextMax
        omega
      · intro i b hb
        have hi := (List.getElem?_eq_some_iff.mp hb).choose
        have hi' : i = 0 := Nat.lt_one_iff.mp hi
        subst hi'
        cases hb
        exact hzero pc (Nat.le_refl _) (by omega)
    have hone : Reach target text ⟨pc, s, mem⟩ ⟨pc + 1, s, mem⟩ :=
      reach_step hcode (fun m hm => ⟨m, rfl, hm⟩) (show pc < pc + 1 by omega)
    exact hone.trans (ih (fun i hi hlt => hzero i (by omega) hlt) (by omega) (by omega))

theorem finshVmRun_of_reach (stack : Nat -> BitVec 32) {mem' : Memory}
    (hr : Reach target text ⟨0, [], mem⟩ ⟨finshTextMax, s, mem'⟩) :
    exists m, finshVmRun target text stack mem = some m ∧ m.At ⟨finshTextMax, s, mem'⟩ := by
  have hstart : Vm.At ⟨stack, 0, 0, mem⟩ ⟨0, [], mem⟩ := ⟨rfl, rfl, rfl, trivial⟩
  rcases hr _ hstart with ⟨m, n, hn, hs, hm⟩
  have hn' : n + 0 ≤ finshTextMax := hn
  refine ⟨m, ?_, hm⟩
  unfold finshVmRun
  rw [show finshTextMax = n + (finshTextMax - n) by omega, hs.vmLoop_eq]
  have hpc : m.pc = finshTextMax := hm.pc
  cases finshTextMax - n with
  | zero =>
    unfold vmLoop
    rw [if_neg (by omega)]
  | succ k =>
    unfold vmLoop
    rw [if_neg (by omega)]

end Reach

end RtThread.Finsh
