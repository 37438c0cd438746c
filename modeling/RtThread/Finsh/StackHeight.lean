import RtThread.Finsh.VmSteps

/-!
# Stack heights

The compiler writes bytes, which the machine reads as instructions with their operands.
How many values an instruction takes from the stack and leaves there is known before it
runs; for a call its operand says it.
-/

namespace RtThread.Finsh

open ByteMemory

/-- The number of bytes behind an instruction that belong to it. -/
def Op.operands : Op -> Nat
  | ld w => w.bytes
  | ldValue _ => 4
  | call => 1
  | _ => 0

structure Instruction where
  op : Op
  operand : List Byte
deriving DecidableEq, Repr

def Instruction.Formed (i : Instruction) : Prop := i.operand.length = i.op.operands

def assemble (is : List Instruction) : List Byte :=
  is.flatMap fun i => codeOp i.op ++ i.operand

/-- The instructions of a piece of code, behind a number of bytes of it. -/
def disassemble : Nat -> List Byte -> List Instruction
  | _, [] => []
  | skip + 1, _ :: code => disassemble skip code
  | 0, b :: code =>
    match opTable[b.toNat]? with
    | none => disassemble 0 code
    | some op => ⟨op, code.take op.operands⟩ :: disassemble op.operands code

section Code

variable {is is' : List Instruction} {i : Instruction} {code : List Byte}

@[simp]
theorem assemble_nil : assemble [] = [] := rfl

@[simp]
theorem assemble_cons : assemble (i :: is) = codeOp i.op ++ i.operand ++ assemble is := rfl

@[simp]
theorem assemble_append : assemble (is ++ is') = assemble is ++ assemble is' :=
  List.flatMap_append

theorem disassemble_skip (k : Nat) (code : List Byte) :
    disassemble k code = disassemble 0 (code.drop k) := by
  induction code generalizing k with
  | nil => cases k <;> rfl
  | cons b code ih =>
    cases k with
    | zero => rfl
    | succ k => exact ih k

theorem disassemble_op (op : Op) (code : List Byte) : disassemble 0 (codeOp op ++ code) =
      ⟨op, code.take op.operands⟩ :: disassemble op.operands code := by
  have hop : opTable[(BitVec.ofNat 8 op.code).toNat]? = some op := by
    rw [BitVec.toNat_ofNat, Nat.mod_eq_of_lt op.code_lt, opTable_code]
  show disassemble 0 (BitVec.ofNat 8 op.code :: code) = _
  rw [disassemble, hop]

theorem disassemble_assemble (hf : forall i, i ∈ is -> i.Formed) (code : List Byte) :
    disassemble 0 (assemble is ++ code) = is ++ disassemble 0 code := by
  induction is with
  | nil => rfl
  | cons i is ih =>
    rcases List.forall_mem_cons.mp hf with ⟨hi, hrest⟩
    have hlen : i.op.operands = i.operand.length := hi.symm
    rw [assemble_cons, List.append_assoc, List.append_assoc, disassemble_op,
      disassemble_skip, hlen, List.take_left, List.drop_left, ih hrest]
    rfl

def Assembles (code : List Byte) (is : List Instruction) : Prop :=
  (forall i, i ∈ is -> i.Formed) ∧ assemble is = code

theorem Assembles.disassemble_eq (ha : Assembles code is) : disassemble 0 code = is := by
  have hread := disassemble_assemble ha.left []
  rw [List.append_nil, ha.right] at hread
  rw [hread]
  exact List.append_nil is

theorem assembles_nil : Assembles [] [] := by
  refine ⟨?_, rfl⟩
  intro i hi
  cases hi

theorem Assembles.append {code' : List Byte} (ha : Assembles code is)
    (ha' : Assembles code' is') : Assembles (code ++ code') (is ++ is') := by
  refine ⟨List.forall_mem_append.mpr ⟨ha.left, ha'.left⟩, ?_⟩
  rw [assemble_append, ha.right, ha'.right]

theorem assembles_instruction (hi : i.Formed) : Assembles (codeOp i.op ++ i.operand) [i] := by
  refine ⟨?_, by simp⟩
  intro j hj
  rw [List.mem_singleton.mp hj]
  exact hi

end Code

/-!
## Heights
-/

/-- The number of values that an instruction takes from the stack. -/
def Instruction.takes (i : Instruction) : Nat :=
  match i.op with
  | Op.noop | Op.ld _ | Op.ldValue _ => 0
  | Op.bw _ | Op.ldValueStack _ | Op.pop => 1
  | Op.bin _ _ | Op.st _ => 2
  | Op.call => (i.operand.headD 0).toNat + 1

/-- The number of values that an instruction leaves there. -/
def Instruction.leaves (i : Instruction) : Nat :=
  match i.op with
  | Op.noop | Op.pop => 0
  | _ => 1

/-- The height of the stack behind an instruction; there is none where the stack is too
low. -/
def Instruction.height (i : Instruction) (h : Nat) : Option Nat :=
  if i.takes ≤ h then some (h - i.takes + i.leaves) else none

/-- The height of the stack behind a row of instructions. -/
def heightAfter : List Instruction -> Nat -> Option Nat
  | [], h => some h
  | i :: is, h => (i.height h).bind (heightAfter is)

theorem heightAfter_append (is is' : List Instruction) (h : Nat) :
    heightAfter (is ++ is') h = (heightAfter is h).bind (heightAfter is') := by
  induction is generalizing h with
  | nil => rfl
  | cons i is ih =>
    show (i.height h).bind (heightAfter (is ++ is')) =
      ((i.height h).bind (heightAfter is)).bind (heightAfter is')
    rw [Option.bind_assoc]
    congr 1
    funext h
    exact ih h

/-- The code takes a number of values from the stack and leaves another, less some that are
lost; it runs where it loses none and the stack is high enough. -/
def Turns (code : List Byte) (lost takes leaves : Nat) : Prop :=
  exists is, Assembles code is ∧
    (forall h h', heightAfter is h = some h' -> h' + takes + lost = h + leaves) ∧
      (lost = 0 -> forall h, takes ≤ h -> (heightAfter is h).isSome)

section Turns

variable {code code' : List Byte} {lost lost' a b c : Nat}

theorem turns_nil : Turns [] 0 0 0 := by
  refine ⟨[], assembles_nil, ?_, fun _ _ _ => rfl⟩
  intro h h' hrun
  cases hrun
  rfl

theorem turns_lost : Turns [] 1 0 1 := by
  refine ⟨[], assembles_nil, ?_, fun hone => absurd hone (by decide)⟩
  intro h h' hrun
  cases hrun
  rfl

theorem turns_instruction {i : Instruction} (hi : i.Formed) :
    Turns (codeOp i.op ++ i.operand) 0 i.takes i.leaves := by
  refine ⟨[i], assembles_instruction hi, ?_, ?_⟩
  · intro h h' hrun
    simp only [heightAfter, Instruction.height] at hrun
    split at hrun
    · cases hrun
      omega
    · cases hrun
  · intro _ h hle
    simp [heightAfter, Instruction.height, hle]

theorem turns_op (op : Op) (hop : op.operands = 0) :
    Turns (codeOp op) 0 (Instruction.takes ⟨op, []⟩) (Instruction.leaves ⟨op, []⟩) := by
  have hi : Instruction.Formed ⟨op, []⟩ := hop.symm
  have hturns := turns_instruction hi
  rwa [List.append_nil] at hturns

theorem Turns.append (ht : Turns code lost a b) (ht' : Turns code' lost' b c) :
    Turns (code ++ code') (lost + lost') a c := by
  rcases ht with ⟨is, his, hmoves, hruns⟩
  rcases ht' with ⟨is', his', hmoves', hruns'⟩
  refine ⟨is ++ is', his.append his', ?_, ?_⟩
  · intro h h' hrun
    rw [heightAfter_append] at hrun
    rcases Option.bind_eq_some_iff.mp hrun with ⟨h1, hfirst, hsecond⟩
    have h1eq := hmoves h h1 hfirst
    have h2eq := hmoves' h1 h' hsecond
    omega
  · intro hlost h hle
    rcases Option.isSome_iff_exists.mp (hruns (by omega) h hle) with ⟨h1, hfirst⟩
    have h1eq := hmoves h h1 hfirst
    rw [heightAfter_append, hfirst]
    exact hruns' (by omega) h1 (by omega)

theorem Turns.above (ht : Turns code lost a b) (k : Nat) : Turns code lost (a + k) (b + k) := by
  rcases ht with ⟨is, his, hmoves, hruns⟩
  refine ⟨is, his, ?_, ?_⟩
  · intro h h' hrun
    have heq := hmoves h h' hrun
    omega
  · intro hlost h hle
    exact hruns hlost h (by omega)

end Turns

end RtThread.Finsh
