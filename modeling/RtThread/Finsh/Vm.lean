import RtThread.Library.ByteMemory

/-!
# The virtual machine of the finsh shell

`finsh_ops.c` and `finsh_vm.c`. A stack cell is a union of 32 bits, of which the instructions for
bytes and words use the low bits. The target is a 32-bit little-endian one, on which the division
of the least number by minus one wraps; whether `char` is signed is a parameter, and so are the
functions that a call reaches. An instruction has no result where it leaves the stack or the text
segment, or where its operation is undefined in C.
-/

namespace RtThread.Finsh

open ByteMemory

def finshStackMax : Nat := 64

def finshTextMax : Nat := 128

inductive Width where
  | byte
  | word
  | dword
deriving DecidableEq, Repr

def Width.bytes : Width -> Nat
  | byte => 1
  | word => 2
  | dword => 4

inductive BinOp where
  | add
  | sub
  | div
  | mod
  | mul
  | and
  | or
  | xor
  | shl
  | shr
deriving DecidableEq, Repr

inductive Op where
  | noop
  | bin (op : BinOp) (w : Width)
  | bw (w : Width)
  | ld (w : Width)
  | ldValue (w : Width)
  | st (w : Width)
  | pop
  | call
  | ldValueStack (w : Width)
deriving DecidableEq, Repr

def Width.code : Width -> Nat
  | byte => 0
  | word => 1
  | dword => 2

/-- The codes of `finsh_ops.h`. -/
def Op.code : Op -> Nat
  | noop => 0x00
  | bin BinOp.add w => 0x01 + w.code
  | bin BinOp.sub w => 0x04 + w.code
  | bin BinOp.div w => 0x07 + w.code
  | bin BinOp.mod w => 0x0A + w.code
  | bin BinOp.mul w => 0x0D + w.code
  | bin BinOp.and w => 0x10 + w.code
  | bin BinOp.or w => 0x13 + w.code
  | bin BinOp.xor w => 0x16 + w.code
  | bw w => 0x19 + w.code
  | bin BinOp.shl w => 0x1C + w.code
  | bin BinOp.shr w => 0x1F + w.code
  | ld w => 0x22 + w.code
  | ldValue w => 0x25 + w.code
  | st w => 0x28 + w.code
  | pop => 0x2B
  | call => 0x2C
  | ldValueStack w => 0x2D + w.code

def widths (op : Width -> Op) : List Op := [op Width.byte, op Width.word, op Width.dword]

def opTable : List Op :=
  [Op.noop] ++ widths (Op.bin BinOp.add) ++ widths (Op.bin BinOp.sub) ++
    widths (Op.bin BinOp.div) ++ widths (Op.bin BinOp.mod) ++
    widths (Op.bin BinOp.mul) ++ widths (Op.bin BinOp.and) ++
    widths (Op.bin BinOp.or) ++ widths (Op.bin BinOp.xor) ++ widths Op.bw ++
    widths (Op.bin BinOp.shl) ++ widths (Op.bin BinOp.shr) ++ widths Op.ld ++
    widths Op.ldValue ++ widths Op.st ++ [Op.pop, Op.call] ++ widths Op.ldValueStack

theorem opTable_code (op : Op) : opTable[op.code]? = some op := by
  cases op with
  | noop => rfl
  | bin op w => cases op <;> cases w <;> rfl
  | bw w => cases w <;> rfl
  | ld w => cases w <;> rfl
  | ldValue w => cases w <;> rfl
  | st w => cases w <;> rfl
  | pop => rfl
  | call => rfl
  | ldValueStack w => cases w <;> rfl

theorem Op.code_lt (op : Op) : op.code < 256 := by
  rcases List.getElem?_eq_some_iff.mp (opTable_code op) with ⟨hlt, _⟩
  exact Nat.lt_trans hlt (by decide)

/-!
## Operations on data
-/

/-- An operator on `int` values. -/
def intOp : BinOp -> BitVec 32 -> BitVec 32 -> Option (BitVec 32)
  | BinOp.add, a, b => some (a + b)
  | BinOp.sub, a, b => some (a - b)
  | BinOp.div, a, b => if b = 0 then none else some (a.sdiv b)
  | BinOp.mod, a, b => if b = 0 then none else some (a.srem b)
  | BinOp.mul, a, b => some (a * b)
  | BinOp.and, a, b => some (a &&& b)
  | BinOp.or, a, b => some (a ||| b)
  | BinOp.xor, a, b => some (a ^^^ b)
  | BinOp.shl, a, b => if b.toNat < 32 then some (a <<< b.toNat) else none
  | BinOp.shr, a, b => if b.toNat < 32 then some (a.sshiftRight b.toNat) else none

/-- The member of a cell for a width, as a value of type `int`. -/
def load (charSigned : Bool) (cell : BitVec 32) : Width -> BitVec 32
  | Width.byte =>
    if charSigned then (cell.setWidth 8).signExtend 32 else (cell.setWidth 8).setWidth 32
  | Width.word => (cell.setWidth 16).signExtend 32
  | Width.dword => cell

def assign (cell value : BitVec 32) (w : Width) : BitVec 32 :=
  BitVec.ofNat 32
    (cell.toNat / 256 ^ w.bytes * 256 ^ w.bytes + value.toNat % 256 ^ w.bytes)

@[simp]
theorem assign_dword (cell value : BitVec 32) : assign cell value Width.dword = value := by
  have hcell : cell.toNat / 256 ^ 4 = 0 := Nat.div_eq_of_lt cell.isLt
  have hvalue : value.toNat % 256 ^ 4 = value.toNat := Nat.mod_eq_of_lt value.isLt
  show BitVec.ofNat 32 (cell.toNat / 256 ^ 4 * 256 ^ 4 + value.toNat % 256 ^ 4) = value
  rw [hcell, hvalue, Nat.zero_mul, Nat.zero_add]
  simp

/-!
## Machine
-/

structure Target where
  charSigned : Bool
  call : Nat -> List (BitVec 32) -> Memory -> BitVec 32 × Memory

/-- The stack with its pointer, the program counter and the memory. -/
structure Vm where
  stack : Nat -> BitVec 32
  sp : Nat
  pc : Nat
  mem : Memory

def fetch (text : Memory) (m : Vm) (n : Nat) : Option (Nat × Vm) :=
  if m.pc + n ≤ finshTextMax then
    some (readNumber text m.pc n, { m with pc := m.pc + n })
  else none

/-- Assign a cell at the stack pointer and move the pointer up. -/
def push (m : Vm) (w : Width) (value : BitVec 32) : Option Vm :=
  if m.sp < finshStackMax then
    some { m with
      stack := Function.update m.stack m.sp (assign (m.stack m.sp) value w)
      sp := m.sp + 1 }
  else none

/-- `OP_BIN_BYTE`, `OP_BIN_WORD` and `OP_BIN_DWORD` -/
def opBin (target : Target) (op : BinOp) (w : Width) (m : Vm) : Option Vm :=
  if 2 ≤ m.sp then
    (intOp op (load target.charSigned (m.stack (m.sp - 2)) w)
      (load target.charSigned (m.stack (m.sp - 1)) w)).map fun value =>
        { m with
          stack := Function.update m.stack (m.sp - 2) (assign (m.stack (m.sp - 2)) value w)
          sp := m.sp - 1 }
  else none

def setTop (m : Vm) (w : Width) (value : BitVec 32) : Vm :=
  { m with
    stack := Function.update m.stack (m.sp - 1) (assign (m.stack (m.sp - 1)) value w) }

def opCall (target : Target) (text : Memory) (m : Vm) : Option Vm :=
  (fetch text m 1).bind fun r =>
    let m := r.2
    let parameters := r.1
    if parameters ≤ 16 ∧ parameters + 1 ≤ m.sp then
      let base := m.sp - parameters
      let args := if parameters = 0 then [0#32]
        else (List.range parameters).map fun i => m.stack (base + i)
      let result := target.call (m.stack (base - 1)).toNat args m.mem
      some { m with
        stack := Function.update m.stack (base - 1) result.1
        sp := base
        mem := result.2 }
    else none

def opRun (target : Target) (text : Memory) (m : Vm) : Op -> Option Vm
  | Op.noop => some m
  | Op.bin op w => opBin target op w m
  | Op.bw w =>
    if 1 ≤ m.sp then
      some (setTop m w (~~~(load target.charSigned (m.stack (m.sp - 1)) w)))
    else none
  | Op.ld w =>
    (fetch text m w.bytes).bind fun r => push r.2 w (BitVec.ofNat 32 r.1)
  | Op.ldValue w =>
    (fetch text m 4).bind fun r =>
      push r.2 w (BitVec.ofNat 32 (readNumber m.mem r.1 w.bytes))
  | Op.ldValueStack w =>
    if 1 ≤ m.sp then
      some (setTop m w
        (BitVec.ofNat 32 (readNumber m.mem (m.stack (m.sp - 1)).toNat w.bytes)))
    else none
  | Op.st w =>
    if 2 ≤ m.sp then
      some { m with
        mem := writeNumber m.mem (m.stack (m.sp - 2)).toNat w.bytes
          (m.stack (m.sp - 1)).toNat
        sp := m.sp - 1 }
    else none
  | Op.pop => if 1 ≤ m.sp then some { m with sp := m.sp - 1 } else none
  | Op.call => opCall target text m

/-- One turn of the loop of `finsh_vm_run`. -/
def vmStep (target : Target) (text : Memory) (m : Vm) : Option Vm :=
  match opTable[(text m.pc).toNat]? with
  | none => none
  | some op => opRun target text { m with pc := m.pc + 1 } op

def vmLoop (target : Target) (text : Memory) : Nat -> Vm -> Option Vm
  | 0, m => if m.pc < finshTextMax then none else some m
  | fuel + 1, m =>
    if m.pc < finshTextMax then
      (vmStep target text m).bind (vmLoop target text fuel)
    else some m

def finshVmRun (target : Target) (text : Memory) (stack : Nat -> BitVec 32)
    (mem : Memory) : Option Vm :=
  vmLoop target text finshTextMax ⟨stack, 0, 0, mem⟩

def finshStackBottom (m : Vm) : BitVec 32 := m.stack 0

end RtThread.Finsh
