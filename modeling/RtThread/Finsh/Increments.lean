import RtThread.Finsh.Correctness

/-!
# Increments of variables

The code of `++v`, `--v`, `v++` and `v--`, for variables of every width. A load assigns the member
of the stack cell that belongs to its width; the prefix operators load 32 bits at the end whatever
the width is. Both read the variable through the pointer to a `finsh_var`, which the node of a
system variable does not have.
-/

namespace RtThread.Finsh

open ByteMemory
open Function (update update_of_ne update_self)

/-!
## Pieces of code
-/

def runTo (target : Target) (text : Memory) (stop : Nat) : Nat -> Vm -> Option Vm
  | 0, m => if m.pc < stop then none else some m
  | fuel + 1, m =>
    if m.pc < stop then
      (vmStep target text m).bind (runTo target text stop fuel)
    else some m

def textAt (pc : Nat) (code : List Byte) : Memory := fun i => textSegment code (i - pc)

def runCode (target : Target) (code : List Byte) (m : Vm) : Option Vm :=
  runTo target (textAt m.pc code) (m.pc + code.length) code.length m

/-- Wherever it lies in a text segment, the code leads from one state to another, in
no more turns of the loop than it has bytes. -/
structure Runs (target : Target) (code : List Byte) (m m' : Vm) : Prop where
  pc : m'.pc = m.pc + code.length
  run : forall (text : Memory) (stop : Nat), CodeAt text m.pc code ->
    m.pc + code.length ≤ stop ->
    exists n, n ≤ code.length ∧ forall fuel,
      runTo target text stop (n + fuel) m = runTo target text stop fuel m'

section Runs

variable {target : Target} {code code' : List Byte} {m m1 m2 : Vm}

theorem Runs.append (hr : Runs target code m m1) (hr' : Runs target code' m1 m2) :
    Runs target (code ++ code') m m2 := by
  constructor
  · rw [hr'.pc, hr.pc, List.length_append, Nat.add_assoc]
  · intro text stop hc hstop
    rw [List.length_append] at hstop ⊢
    rcases codeAt_append.mp hc with ⟨hc, hc'⟩
    rw [← hr.pc] at hc'
    rcases hr.run text stop hc (by omega) with ⟨n, hn, hrun⟩
    rcases hr'.run text stop hc' (by rw [hr.pc]; omega) with ⟨k, hk, hrun'⟩
    refine ⟨n + k, by omega, ?_⟩
    intro fuel
    rw [Nat.add_assoc, hrun, hrun']

theorem codeAt_textAt {pc : Nat} (hfit : pc + code.length ≤ finshTextMax) :
    CodeAt (textAt pc code) pc code := by
  refine ⟨hfit, ?_⟩
  intro i b hb
  unfold textAt textSegment
  rw [Nat.add_sub_cancel_left, hb]
  rfl

theorem Runs.runCode_eq (hr : Runs target code m m1)
    (hfit : m.pc + code.length ≤ finshTextMax) : runCode target code m = some m1 := by
  rcases hr.run _ (m.pc + code.length) (codeAt_textAt hfit) (Nat.le_refl _) with
    ⟨n, hn, hrun⟩
  have hstop := hrun (code.length - n)
  rw [Nat.add_sub_cancel' hn] at hstop
  unfold runCode
  rw [hstop]
  have hpc := hr.pc
  cases code.length - n with
  | zero =>
    unfold runTo
    rw [if_neg (by omega)]
  | succ k =>
    unfold runTo
    rw [if_neg (by omega)]

theorem runs_op {op : Op} {arg : List Byte} (hpc : m1.pc = m.pc + 1 + arg.length)
    (hrun : forall text, CodeAt text (m.pc + 1) arg ->
      opRun target text { m with pc := m.pc + 1 } op = some m1) :
    Runs target (codeOp op ++ arg) m m1 := by
  constructor
  · rw [List.length_append, codeOp_length, hpc, Nat.add_assoc]
  · intro text stop hc hstop
    rw [List.length_append, codeOp_length] at hstop ⊢
    rcases codeAt_append.mp hc with ⟨hop, harg⟩
    refine ⟨1, by omega, ?_⟩
    intro fuel
    have hstep : vmStep target text m = some m1 := by
      have hbyte : text m.pc = BitVec.ofNat 8 op.code := hop.head
      unfold vmStep
      rw [hbyte, BitVec.toNat_ofNat, Nat.mod_eq_of_lt op.code_lt, opTable_code]
      exact hrun text harg
    rw [Nat.add_comm 1 fuel, runTo, if_pos (by omega), hstep]
    rfl

theorem runs_op_nil {op : Op} (hpc : m1.pc = m.pc + 1)
    (hrun : forall text, opRun target text { m with pc := m.pc + 1 } op = some m1) :
    Runs target (codeOp op) m m1 := by
  have hr := @runs_op target m m1 op [] hpc (fun text _ => hrun text)
  rwa [List.append_nil] at hr

end Runs

/-!
## Cells
-/

section Cells

variable {w : Width} {cell cell' value : BitVec 32}

theorem Width.split (w : Width) : w.bytes + (4 - w.bytes) = 4 := by
  cases w <;> rfl

theorem assign_toNat : (assign cell value w).toNat =
    cell.toNat / 256 ^ w.bytes * 256 ^ w.bytes + value.toNat % 256 ^ w.bytes := by
  have hcell := cell.isLt
  unfold assign
  rw [BitVec.toNat_ofNat]
  apply Nat.mod_eq_of_lt
  cases w with
  | byte =>
    simp only [Width.bytes, Nat.pow_one]
    omega
  | word =>
    simp only [Width.bytes, show 256 ^ 2 = 65536 from rfl]
    omega
  | dword =>
    simp only [Width.bytes, show 256 ^ 4 = 4294967296 from rfl]
    omega

theorem assign_mod : (assign cell value w).toNat % 256 ^ w.bytes = value.toNat % 256 ^ w.bytes := by
  rw [assign_toNat, Nat.mul_add_mod_self_right, Nat.mod_mod]

theorem assign_div : (assign cell value w).toNat / 256 ^ w.bytes = cell.toNat / 256 ^ w.bytes := by
  rw [assign_toNat, Nat.add_comm, Nat.add_mul_div_right _ _ (Nat.pow_pos (by decide)),
    Nat.div_eq_of_lt (Nat.mod_lt _ (Nat.pow_pos (by decide))), Nat.zero_add]

theorem cell_eq_iff : cell = cell' <-> cell.toNat % 256 ^ w.bytes = cell'.toNat % 256 ^ w.bytes ∧
      cell.toNat / 256 ^ w.bytes = cell'.toNat / 256 ^ w.bytes := by
  constructor
  · rintro rfl
    exact ⟨rfl, rfl⟩
  · rintro ⟨hmod, hdiv⟩
    apply BitVec.eq_of_toNat_eq
    rw [← Nat.div_add_mod cell.toNat (256 ^ w.bytes), hmod, hdiv, Nat.div_add_mod]

theorem load_mod {charSigned : Bool} :
    (load charSigned cell w).toNat % 256 ^ w.bytes = cell.toNat % 256 ^ w.bytes := by
  have hcell := cell.isLt
  cases w with
  | byte =>
    simp only [load, Width.bytes, Nat.pow_one]
    split
    · rw [BitVec.toNat_signExtend, BitVec.toNat_setWidth, BitVec.toNat_setWidth]
      split <;> omega
    · rw [BitVec.toNat_setWidth, BitVec.toNat_setWidth]
      omega
  | word =>
    simp only [load, Width.bytes, show 256 ^ 2 = 65536 from rfl]
    rw [BitVec.toNat_signExtend, BitVec.toNat_setWidth, BitVec.toNat_setWidth]
    split <;> omega
  | dword => rfl

end Cells

/-!
## Instructions
-/

def codeNumber : Width -> Nat -> List Byte
  | Width.byte => finshCodeByte
  | Width.word => finshCodeWord
  | Width.dword => finshCodeDword

theorem loadOne_eq (w : Width) : loadOne w = codeOp (Op.ld w) ++ codeNumber w 1 := by
  cases w <;> rfl

theorem codeNumber_length (w : Width) (x : Nat) : (codeNumber w x).length = w.bytes := by
  cases w <;> rfl

theorem CodeAt.number {text : Memory} {pc x : Nat} {w : Width}
    (hc : CodeAt text pc (codeNumber w x)) :
    readNumber text pc w.bytes = x % 256 ^ w.bytes := by
  apply readNumber_of_digits
  intro i hi
  apply hc.right
  cases w with
  | byte =>
    have hi' : i = 0 := Nat.lt_one_iff.mp hi
    subst hi'
    simp [codeNumber, finshCodeByte]
  | word =>
    have hi' : i < 2 := hi
    rcases (by omega : i = 0 ∨ i = 1) with rfl | rfl <;> simp [codeNumber, finshCodeWord]
  | dword =>
    have hi' : i < 4 := hi
    rcases (by omega : i = 0 ∨ i = 1 ∨ i = 2 ∨ i = 3) with rfl | rfl | rfl | rfl
    · simp [codeNumber, finshCodeDword]
    · simp [codeNumber, finshCodeDword]
    · rfl
    · rfl

def SameBelow (k : Nat) (m m' : Vm) : Prop := forall i, i < k -> m'.stack i = m.stack i

/-- The machine behind an instruction that has pushed a value. -/
structure Pushed (w : Width) (value : Nat) (m m' : Vm) : Prop where
  sp : m'.sp = m.sp + 1
  mem : m'.mem = m.mem
  below : SameBelow m.sp m m'
  top : m'.stack m.sp = assign (m.stack m.sp) (BitVec.ofNat 32 value) w

section Instructions

variable (target : Target) {m : Vm} {w : Width}

theorem runs_push {op : Op} {arg : List Byte} {value : Nat} (hroom : m.sp < finshStackMax)
    (hrun : forall text, CodeAt text (m.pc + 1) arg ->
      opRun target text { m with pc := m.pc + 1 } op =
        push { m with pc := m.pc + 1 + arg.length } w (BitVec.ofNat 32 value)) :
    exists m', Runs target (codeOp op ++ arg) m m' ∧ Pushed w value m m' := by
  let m' : Vm :=
    { m with
      stack := update m.stack m.sp (assign (m.stack m.sp) (BitVec.ofNat 32 value) w)
      sp := m.sp + 1
      pc := m.pc + 1 + arg.length }
  refine ⟨m', runs_op rfl ?_, rfl, rfl, ?_, update_self _ _ _⟩
  · intro text harg
    rw [hrun text harg]
    exact if_pos hroom
  · intro i hi
    exact update_of_ne (by omega) _ _

theorem runs_ld (hroom : m.sp < finshStackMax) (x : Nat) :
    exists m', Runs target (codeOp (Op.ld w) ++ codeNumber w x) m m' ∧
      Pushed w (x % 256 ^ w.bytes) m m' := by
  apply runs_push target hroom
  intro text harg
  have hfit := harg.left
  rw [codeNumber_length] at hfit ⊢
  simp only [opRun, fetch, if_pos hfit, Option.bind_some, harg.number]

theorem runs_ldValue (hroom : m.sp < finshStackMax) {a : Nat} (ha : a < 2 ^ 32) :
    exists m', Runs target (codeOp (Op.ldValue w) ++ finshCodeDword a) m m' ∧
      Pushed w (readNumber m.mem a w.bytes) m m' := by
  apply runs_push target hroom
  intro text harg
  have hfit : m.pc + 1 + 4 ≤ finshTextMax := harg.left
  simp only [opRun, fetch, if_pos hfit, Option.bind_some, harg.dword, Nat.mod_eq_of_lt ha,
    finshCodeDword_length]

theorem runs_bin {op : BinOp} {k : Nat} {value : BitVec 32} (hsp : m.sp = k + 2)
    (hop : intOp op (load target.charSigned (m.stack k) w)
      (load target.charSigned (m.stack (k + 1)) w) = some value) :
    exists m', Runs target (codeOp (Op.bin op w)) m m' ∧ m'.sp = k + 1 ∧
      m'.mem = m.mem ∧ SameBelow k m m' ∧
      m'.stack k = assign (m.stack k) value w := by
  let m' : Vm :=
    { m with
      stack := update m.stack k (assign (m.stack k) value w)
      sp := k + 1
      pc := m.pc + 1 }
  refine ⟨m', runs_op_nil rfl ?_, rfl, rfl, ?_, update_self _ _ _⟩
  · intro text
    have htwo : 2 ≤ k + 2 := by omega
    simp only [opRun, opBin, hsp, if_pos htwo, Nat.add_sub_cancel,
      show k + 2 - 1 = k + 1 by omega, hop, Option.map_some]
    rfl
  · intro i hi
    exact update_of_ne (by omega) _ _

theorem runs_st {k : Nat} (hsp : m.sp = k + 2) :
    exists m', Runs target (codeOp (Op.st w)) m m' ∧ m'.sp = k + 1 ∧
      m'.mem = writeNumber m.mem (m.stack k).toNat w.bytes (m.stack (k + 1)).toNat ∧
      m'.stack = m.stack := by
  let m' : Vm :=
    { m with
      mem := writeNumber m.mem (m.stack k).toNat w.bytes (m.stack (k + 1)).toNat
      sp := k + 1
      pc := m.pc + 1 }
  refine ⟨m', runs_op_nil rfl ?_, rfl, rfl, rfl⟩
  intro text
  have htwo : 2 ≤ k + 2 := by omega
  simp only [opRun, hsp, if_pos htwo, Nat.add_sub_cancel, show k + 2 - 1 = k + 1 by omega]
  rfl

theorem runs_ldValueStack {k : Nat} (hsp : m.sp = k + 1) :
    exists m', Runs target (codeOp (Op.ldValueStack w)) m m' ∧ m'.sp = k + 1 ∧
      m'.mem = m.mem ∧ SameBelow k m m' ∧
      m'.stack k = assign (m.stack k)
        (BitVec.ofNat 32 (readNumber m.mem (m.stack k).toNat w.bytes)) w := by
  let m' : Vm :=
    { m with
      stack := update m.stack k (assign (m.stack k)
        (BitVec.ofNat 32 (readNumber m.mem (m.stack k).toNat w.bytes)) w)
      sp := k + 1
      pc := m.pc + 1 }
  refine ⟨m', runs_op_nil rfl ?_, rfl, rfl, ?_, update_self _ _ _⟩
  · intro text
    have hone : 1 ≤ k + 1 := by omega
    simp only [opRun, setTop, hsp, if_pos hone, Nat.add_sub_cancel]
    rfl
  · intro i hi
    exact update_of_ne (by omega) _ _

theorem runs_pop {k : Nat} (hsp : m.sp = k + 1) :
    exists m', Runs target (codeOp Op.pop) m m' ∧ m'.sp = k ∧ m'.mem = m.mem ∧
      m'.stack = m.stack := by
  refine ⟨{ m with sp := k, pc := m.pc + 1 }, runs_op_nil rfl ?_, rfl, rfl, rfl⟩
  intro text
  have hone : 1 ≤ k + 1 := by omega
  simp only [opRun, hsp, if_pos hone, Nat.add_sub_cancel]

end Instructions

/-!
## One more or less
-/

def stepNumber (up : Bool) (w : Width) (x : Nat) : Nat :=
  (if up then x + 1 else x + (256 ^ w.bytes - 1)) % 256 ^ w.bytes

section Step

variable (target : Target) {m m1 m2 : Vm} {w : Width} {up : Bool} {k a x y : Nat}

theorem SameBelow.trans (hs : SameBelow k m m1) (hs' : SameBelow k m1 m2) :
    SameBelow k m m2 := fun i hi => (hs' i hi).trans (hs i hi)

theorem SameBelow.mono {j : Nat} (hs : SameBelow k m m1) (hj : j ≤ k) :
    SameBelow j m m1 := fun i hi => hs i (Nat.lt_of_lt_of_le hi hj)

theorem intOp_step (up : Bool) (p q : BitVec 32) :
    intOp (stepOp up) p q = some (if up then p + q else p - q) := by
  cases up <;> rfl

theorem step_mod {p q : BitVec 32} (hp : p.toNat % 256 ^ w.bytes = x)
    (hq : q.toNat % 256 ^ w.bytes = 1) :
    (if up then p + q else p - q).toNat % 256 ^ w.bytes = stepNumber up w x := by
  have hplt := p.isLt
  have hqlt := q.isLt
  unfold stepNumber
  cases up with
  | true =>
    simp only [if_true, BitVec.toNat_add]
    cases w <;> simp only [Width.bytes] at * <;> omega
  | false =>
    simp only [Bool.false_eq_true, if_false, BitVec.toNat_sub]
    cases w <;> simp only [Width.bytes] at * <;> omega

theorem stepNumber_lt : stepNumber up w x < 256 ^ w.bytes :=
  Nat.mod_lt _ (Nat.pow_pos (by decide))

theorem stepNumber_inj (up : Bool) (hx : x < 256 ^ w.bytes) (hy : y < 256 ^ w.bytes) :
    stepNumber up w x = stepNumber up w y <-> x = y := by
  unfold stepNumber
  cases up <;> cases w <;> simp only [Width.bytes, Bool.false_eq_true, if_true, if_false] at *
    <;> omega

theorem stepNumber_mod_ne (up : Bool) (hx : x < 256 ^ w.bytes) :
    stepNumber up w x % 256 ≠ x % 256 := by
  unfold stepNumber
  cases up <;> cases w <;> simp only [Width.bytes, Bool.false_eq_true, if_true, if_false] at *
    <;> omega

theorem runs_storeStep (up : Bool) (hsp : m.sp = k + 1) (hroom : k + 3 ≤ finshStackMax)
    (ha : a < 2 ^ 32) :
    exists m', Runs target (storeStep (stepOp up) w a) m m' ∧ m'.sp = k + 1 ∧
      SameBelow (k + 1) m m' ∧
      m'.mem = writeNumber m.mem (m.stack k).toNat w.bytes
        (stepNumber up w (readNumber m.mem a w.bytes)) := by
  obtain ⟨m1, hr1, hp1⟩ := runs_ldValue target (w := w) (m := m) (by omega) ha
  obtain ⟨m2, hr2, hp2⟩ := runs_ld target (w := w) (m := m1) (by rw [hp1.sp]; omega) 1
  have hsp1 : m1.sp = k + 2 := by rw [hp1.sp, hsp]
  have hsp2 : m2.sp = k + 1 + 2 := by rw [hp2.sp, hsp1]
  have htop1 := hp1.top
  have htop2 := hp2.top
  rw [hsp] at htop1
  rw [hsp1] at htop2
  have hkept : m2.stack (k + 1) = m1.stack (k + 1) := hp2.below _ (by omega)
  obtain ⟨m3, hr3, hsp3, hmem3, hbelow3, htop3⟩ :=
    runs_bin target hsp2 (intOp_step up _ _)
  obtain ⟨m4, hr4, hsp4, hmem4, hstack4⟩ := runs_st target (w := w) hsp3
  have hbelow1 : SameBelow (k + 1) m m1 := hsp ▸ hp1.below
  have hbelow2 : SameBelow (k + 1) m1 m2 := hp2.below.mono (by omega)
  have hbelow : SameBelow (k + 1) m m3 := (hbelow1.trans hbelow2).trans hbelow3
  refine ⟨m4, ?_, hsp4, ?_, ?_⟩
  · unfold storeStep
    rw [loadOne_eq]
    exact ((hr1.append hr2).append hr3).append hr4
  · intro i hi
    rw [hstack4]
    exact hbelow i hi
  · have hx := readNumber_lt m.mem a w.bytes
    have hone : 1 < 256 ^ w.bytes := by cases w <;> decide
    have hvalue : (m3.stack (k + 1)).toNat % 256 ^ w.bytes =
        stepNumber up w (readNumber m.mem a w.bytes) := by
      rw [htop3, assign_mod]
      apply step_mod
      · rw [load_mod, hkept, htop1, assign_mod, BitVec.toNat_ofNat]
        cases w <;> simp only [Width.bytes] at hx ⊢ <;> omega
      · rw [load_mod, htop2, assign_mod, BitVec.toNat_ofNat]
        cases w <;> rfl
    rw [hmem4, hmem3, hp2.mem, hp1.mem, hbelow k (by omega), ← hvalue, writeNumber_mod]

end Step

/-!
## Trees
-/

/-- The node of `++`, `--` before or behind a variable. -/
def stepNode : Bool -> Bool -> NodeType
  | true, true => NodeType.sysPreinc
  | true, false => NodeType.sysPredec
  | false, true => NodeType.sysInc
  | false, false => NodeType.sysDec

def readTree (id : NodeId) : Tree :=
  Tree.node ⟨NodeType.id, 0, id, false, 0⟩ Tree.null Tree.null

def stepTree (pre up : Bool) (id : NodeId) : Tree :=
  Tree.node ⟨stepNode pre up, 0, NodeId.none, false, 0⟩ (readTree id) Tree.null

def exprCode (base : Nat) (vs : List FinshVar) (tree : Tree) : List Byte :=
  (finshCompilerRun base vs tree FinshError.ok).1

def NodeId.type (vs : List FinshVar) : NodeId -> FinshType
  | var index => varType vs index
  | sysvar v => v.type
  | _ => FinshType.unknown

def intWidth : FinshType -> Option Width
  | FinshType.char | FinshType.uchar => some Width.byte
  | FinshType.short | FinshType.ushort => some Width.word
  | FinshType.int | FinshType.uint | FinshType.long | FinshType.ulong => some Width.dword
  | _ => none

def Width.dataType : Width -> Nat
  | byte => dataTypeByte
  | word => dataTypeWord
  | dword => dataTypeDword

section Trees

variable {vs : List FinshVar} {base : Nat} {id : NodeId} {w : Width} {pre up : Bool}

theorem widthOf_dataType (w : Width) : widthOf w.dataType = some w := by
  cases w <;> rfl

theorem intWidth_types {type : FinshType} (hw : intWidth type = some w) :
    dataTypeOf type = some w.dataType ∧ loadWidth type = some w := by
  cases type <;> cases hw <;> exact ⟨rfl, rfl⟩

theorem readTree_checked (hw : intWidth (id.type vs) = some w) (isAddr : Bool)
    (errno : FinshError) :
    finshTypeCheck vs isAddr (readTree id) errno =
      (Tree.node ⟨NodeType.id, w.dataType, id, isAddr, 0⟩ Tree.null Tree.null, errno) := by
  have htypes := intWidth_types hw
  cases id with
  | none => cases hw
  | syscall f => cases hw
  | var index =>
    have hdata : dataTypeOf (varType vs index) = some w.dataType := htypes.left
    simp [readTree, finshTypeCheck, Tree.info, leafType, setAddress, setVarType, hdata]
  | sysvar v =>
    have hdata : dataTypeOf v.type = some w.dataType := htypes.left
    simp [readTree, finshTypeCheck, Tree.info, leafType, setAddress, setVarType, hdata]

theorem compileId_eq (hw : intWidth (id.type vs) = some w) (isAddr : Bool) :
    compileId base vs ⟨NodeType.id, w.dataType, id, isAddr, 0⟩ =
      codeOp (if isAddr then Op.ld Width.dword else Op.ldValue w) ++
        finshCodeDword (id.address base) := by
  have hload := (intWidth_types hw).right
  cases id with
  | none => cases hw
  | syscall f => cases hw
  | var index =>
    have hload' : loadWidth (varType vs index) = some w := hload
    simp only [compileId, loadVariable, hload', NodeId.address]
  | sysvar v =>
    have hload' : loadWidth v.type = some w := hload
    simp only [compileId, loadVariable, hload', NodeId.address]

theorem readTree_code (base : Nat) (hw : intWidth (id.type vs) = some w) :
    exprCode base vs (readTree id) = codeOp (Op.ldValue w) ++ finshCodeDword (id.address base) := by
  unfold exprCode finshCompilerRun
  simp only [readTree_checked hw, compileStatements, finshCompile, compileNode,
    compileId_eq hw, Tree.isNull, Bool.false_eq_true, if_true, if_false, List.append_nil,
    List.nil_append]

theorem stepTree_code (base : Nat) (pre up : Bool) (hw : intWidth (id.type vs) = some w) :
    exprCode base vs (stepTree pre up id) =
      codeOp (if pre then Op.ld Width.dword else Op.ldValue w) ++
        finshCodeDword (id.address base) ++
        if pre then
          storeStep (stepOp up) w (id.entry base + valueOffset) ++
            codeOp (Op.ldValueStack Width.dword)
        else
          codeOp (Op.ld Width.dword) ++ finshCodeDword (id.entry base + valueOffset) ++
            storeStep (stepOp up) w (id.entry base + valueOffset) ++ codeOp Op.pop := by
  have hchild : childAddress ⟨stepNode pre up, 0, NodeId.none, false, 0⟩ false = pre := by
    cases pre <;> cases up <;> rfl
  have hcheck : finshTypeCheck vs false (stepTree pre up id) FinshError.ok =
      (Tree.node ⟨stepNode pre up, w.dataType, NodeId.none, false, 0⟩
        (Tree.node ⟨NodeType.id, w.dataType, id, pre, 0⟩ Tree.null Tree.null) Tree.null,
        FinshError.ok) := by
    unfold stepTree
    rw [finshTypeCheck]
    simp only [hchild, readTree_checked hw, Tree.info, finshTypeCheck, setAddress, Bool.or_false]
  unfold exprCode finshCompilerRun
  rw [hcheck]
  cases pre <;> cases up <;>
    simp only [stepNode, compileStatements, finshCompile, compileNode, compileId_eq hw,
      compilePrestep, compileStep, Tree.info, widthOf_dataType, Tree.isNull, stepOp,
      Bool.false_eq_true, if_true, if_false, List.append_nil, List.nil_append]

end Trees

/-!
## Increments and readings
-/

/-- The machine before a variable is read into a cell with these contents. -/
def Vm.reading (m : Vm) (mem : Memory) (cell : BitVec 32) : Vm :=
  { m with stack := Function.update m.stack m.sp cell, mem := mem }

/-- An increment leaves what a reading leaves after it, for a prefix operator, or before it,
for a postfix one; the variable changes by one and nothing else does. The cell that the
variable is read into holds `cell`, of which a reading assigns only the bytes of its width.
-/
def StepAgrees (target : Target) (base : Nat) (vs : List FinshVar) (pre up : Bool)
    (id : NodeId) (w : Width) (m : Vm) (cell : BitVec 32) : Prop :=
  exists m' m'',
    runCode target (exprCode base vs (stepTree pre up id)) m = some m' ∧
    m'.sp = m.sp + 1 ∧ SameBelow m.sp m m' ∧
    runCode target (exprCode base vs (readTree id))
      (m.reading (if pre then m'.mem else m.mem) cell) = some m'' ∧
    m'.stack m.sp = m''.stack m.sp ∧
    m'.mem = writeNumber m.mem (id.address base) w.bytes
      (stepNumber up w (readNumber m.mem (id.address base) w.bytes))

/-- The increment is about the variable itself. For a system variable it takes the `value`
of the table entry, read as a `finsh_var`. -/
def StepsItself (pre : Bool) (w : Width) (mem : Memory) : NodeId -> Prop
  | NodeId.sysvar v =>
    if pre then
      readNumber mem (v.self + valueOffset) w.bytes = readNumber mem v.var w.bytes
    else v.self + valueOffset = v.var
  | _ => True

/-- The bytes that a reading leaves alone are the bytes behind the variable for a prefix
operator, and the old ones of the cell for a postfix one. -/
def RestAgrees (base : Nat) (pre : Bool) (id : NodeId) (w : Width) (m : Vm)
    (cell : BitVec 32) : Prop :=
  (if pre then readNumber m.mem (id.address base) 4 else (m.stack m.sp).toNat) /
    256 ^ w.bytes = cell.toNat / 256 ^ w.bytes

section Agreement

variable {target : Target} {base : Nat} {vs : List FinshVar} {pre up : Bool}
  {id : NodeId} {w : Width} {m : Vm} {cell : BitVec 32} {mem : Memory} {a b : Nat}

theorem read_result (target : Target) (hw : intWidth (id.type vs) = some w)
    (haddress : id.address base < 2 ^ 32)
    (hfit : m.pc + (exprCode base vs (readTree id)).length ≤ finshTextMax)
    (hroom : m.sp < finshStackMax) (mem : Memory) (cell : BitVec 32) :
    exists m'', runCode target (exprCode base vs (readTree id)) (m.reading mem cell) = some m'' ∧
      m''.stack m.sp =
        assign cell (BitVec.ofNat 32 (readNumber mem (id.address base) w.bytes)) w := by
  obtain ⟨m'', hr, hp⟩ := runs_ldValue target (w := w) (m := m.reading mem cell) hroom haddress
  rw [← readTree_code base hw] at hr
  refine ⟨m'', hr.runCode_eq hfit, ?_⟩
  have htop := hp.top
  rwa [show (m.reading mem cell).stack (m.reading mem cell).sp = cell from
    update_self _ _ _] at htop

theorem step_result (target : Target) (hw : intWidth (id.type vs) = some w)
    (haddress : id.address base < 2 ^ 32) (hentry : id.entry base + valueOffset < 2 ^ 32)
    (hfit : m.pc + (exprCode base vs (stepTree pre up id)).length ≤ finshTextMax)
    (hroom : m.sp + 4 ≤ finshStackMax) :
    exists m', runCode target (exprCode base vs (stepTree pre up id)) m = some m' ∧
      m'.sp = m.sp + 1 ∧ SameBelow m.sp m m' ∧
      m'.mem = writeNumber m.mem
        (if pre then id.address base else id.entry base + valueOffset) w.bytes
        (stepNumber up w (readNumber m.mem (id.entry base + valueOffset) w.bytes)) ∧
      m'.stack m.sp =
        if pre then BitVec.ofNat 32 (readNumber m'.mem (id.address base) 4)
        else assign (m.stack m.sp)
          (BitVec.ofNat 32 (readNumber m.mem (id.address base) w.bytes)) w := by
  cases pre with
  | true =>
    obtain ⟨m1, hr1, hp1⟩ := runs_ld target (w := Width.dword) (m := m) (by omega)
      (id.address base)
    have htop1 : (m1.stack m.sp).toNat = id.address base := by
      rw [hp1.top, assign_dword, BitVec.toNat_ofNat]
      simp only [Width.bytes]
      omega
    obtain ⟨m2, hr2, hsp2, hbelow2, hmem2⟩ := runs_storeStep target (w := w) up
      hp1.sp (by omega) hentry
    obtain ⟨m3, hr3, hsp3, hmem3, hbelow3, htop3⟩ :=
      runs_ldValueStack target (w := Width.dword) hsp2
    have hr := hr1.append (hr2.append hr3)
    have hcode : exprCode base vs (stepTree true up id) = _ :=
      stepTree_code base true up hw
    simp only [if_true] at hcode
    rw [hcode] at hfit ⊢
    refine ⟨m3, hr.runCode_eq hfit, hsp3, ?_, ?_, ?_⟩
    · exact (hp1.below.trans (hbelow2.mono (by omega))).trans hbelow3
    · rw [hmem3, hmem2, hp1.mem, htop1]
      rfl
    · rw [htop3, assign_dword, hmem3, hbelow2 _ (by omega), htop1]
      rfl
  | false =>
    obtain ⟨m1, hr1, hp1⟩ := runs_ldValue target (w := w) (m := m) (by omega) haddress
    obtain ⟨m2, hr2, hp2⟩ := runs_ld target (w := Width.dword) (m := m1)
      (by rw [hp1.sp]; omega) (id.entry base + valueOffset)
    have htop2 : (m2.stack (m.sp + 1)).toNat = id.entry base + valueOffset := by
      have htop := hp2.top
      rw [hp1.sp] at htop
      rw [htop, assign_dword, BitVec.toNat_ofNat]
      simp only [Width.bytes]
      omega
    have hsp2 : m2.sp = m.sp + 1 + 1 := by rw [hp2.sp, hp1.sp]
    obtain ⟨m3, hr3, hsp3, hbelow3, hmem3⟩ := runs_storeStep target (w := w) up
      hsp2 (by omega) hentry
    obtain ⟨m4, hr4, hsp4, hmem4, hstack4⟩ := runs_pop target hsp3
    have hr := hr1.append ((hr2.append hr3).append hr4)
    have hcode : exprCode base vs (stepTree false up id) = _ :=
      stepTree_code base false up hw
    simp only [Bool.false_eq_true, if_false] at hcode
    rw [hcode] at hfit ⊢
    have hbelow2 : SameBelow (m.sp + 1) m1 m2 := hp1.sp ▸ hp2.below
    have hbelow : SameBelow (m.sp + 1) m1 m4 := by
      intro i hi
      rw [hstack4]
      exact (hbelow2.trans (hbelow3.mono (by omega))) i hi
    refine ⟨m4, hr.runCode_eq hfit, hsp4, ?_, ?_, ?_⟩
    · exact hp1.below.trans (hbelow.mono (by omega))
    · rw [hmem4, hmem3, hp2.mem, hp1.mem, htop2]
      rfl
    · rw [hbelow _ (by omega), hp1.top]
      rfl

theorem step_changes :
    writeNumber mem a w.bytes (stepNumber up w (readNumber mem a w.bytes)) a ≠ mem a := by
  intro heq
  have hpos : 0 < w.bytes := by cases w <;> decide
  have hbyte : (mem a).toNat = readNumber mem a w.bytes % 256 := by
    have hlt := (mem a).isLt
    obtain ⟨k, hk⟩ := Nat.exists_eq_add_of_lt hpos
    rw [hk, Nat.zero_add, readNumber]
    omega
  have hne := stepNumber_mod_ne up (readNumber_lt mem a w.bytes)
  rw [← hbyte] at hne
  apply hne
  rw [← heq]
  unfold writeNumber
  rw [if_pos (by omega), Nat.sub_self, Nat.pow_zero, Nat.div_one, BitVec.toNat_ofNat]

theorem step_address_iff : writeNumber mem a w.bytes (stepNumber up w (readNumber mem a w.bytes)) =
      writeNumber mem b w.bytes (stepNumber up w (readNumber mem b w.bytes)) <->
    a = b := by
  constructor
  · intro heq
    rcases Nat.lt_trichotomy a b with hlt | hab | hlt
    · have hbyte := congrFun heq a
      rw [writeNumber_outside (a := b) (by omega)] at hbyte
      exact absurd hbyte step_changes
    · exact hab
    · have hbyte := congrFun heq b
      rw [writeNumber_outside (a := a) (by omega)] at hbyte
      exact absurd hbyte.symm step_changes
  · rintro rfl
    rfl

theorem step_value_iff : writeNumber mem b w.bytes (stepNumber up w (readNumber mem a w.bytes)) =
      writeNumber mem b w.bytes (stepNumber up w (readNumber mem b w.bytes)) <->
    readNumber mem a w.bytes = readNumber mem b w.bytes := by
  rw [← stepNumber_inj up (readNumber_lt mem a w.bytes) (readNumber_lt mem b w.bytes)]
  constructor
  · intro heq
    have hread := congrArg (fun x => readNumber x b w.bytes) heq
    simpa only [readNumber_writeNumber, Nat.mod_eq_of_lt stepNumber_lt] using hread
  · intro heq
    rw [heq]

theorem reload_iff {value : Nat} :
    BitVec.ofNat 32 (readNumber (writeNumber mem a w.bytes value) a 4) =
      assign cell (BitVec.ofNat 32 (readNumber (writeNumber mem a w.bytes value) a w.bytes)) w <->
    readNumber mem a 4 / 256 ^ w.bytes = cell.toNat / 256 ^ w.bytes := by
  generalize hmem : writeNumber mem a w.bytes value = mem'
  have hfour (x : Memory) : (BitVec.ofNat 32 (readNumber x a 4)).toNat = readNumber x a 4 := by
    have hlt := readNumber_lt x a 4
    rw [BitVec.toNat_ofNat]
    exact Nat.mod_eq_of_lt hlt
  have hlow : readNumber mem' a 4 % 256 ^ w.bytes = readNumber mem' a w.bytes := by
    rw [← readNumber_add_mod mem' a w.bytes (4 - w.bytes), w.split]
  have hrest : readNumber mem' a 4 / 256 ^ w.bytes = readNumber mem a 4 / 256 ^ w.bytes := by
    rw [← w.split, readNumber_add_div, readNumber_add_div, ← hmem,
      readNumber_writeNumber_apart (Or.inr (Nat.le_refl _))]
  have hself : (BitVec.ofNat 32 (readNumber mem' a w.bytes)).toNat % 256 ^ w.bytes =
      readNumber mem' a w.bytes := by
    have hlt := readNumber_lt mem' a w.bytes
    rw [BitVec.toNat_ofNat]
    cases w <;> simp only [Width.bytes] at hlt ⊢ <;> omega
  rw [cell_eq_iff (w := w), hfour, assign_mod, assign_div, hlow, hrest, hself]
  exact and_iff_right rfl

theorem assign_rest_iff {cell' value : BitVec 32} : assign cell' value w = assign cell value w <->
      cell'.toNat / 256 ^ w.bytes = cell.toNat / 256 ^ w.bytes := by
  rw [cell_eq_iff (w := w), assign_mod, assign_mod, assign_div, assign_div]
  exact and_iff_right rfl

/-- For an integer variable with any value, on any machine with room on its stack: an
increment agrees with the reading into any cell exactly if it is about the variable itself
and the rest of the cell agrees. -/
theorem increment_agrees_iff (target : Target) (base : Nat) (vs : List FinshVar)
    (pre up : Bool) (id : NodeId) (w : Width) (m : Vm) (cell : BitVec 32)
    (hw : intWidth (id.type vs) = some w) (haddress : id.address base < 2 ^ 32)
    (hentry : id.entry base + valueOffset < 2 ^ 32)
    (hfit : m.pc + (exprCode base vs (stepTree pre up id)).length ≤ finshTextMax)
    (hroom : m.sp + 4 ≤ finshStackMax) :
    StepAgrees target base vs pre up id w m cell <->
      StepsItself pre w m.mem id ∧ RestAgrees base pre id w m cell := by
  have hfit' : m.pc + (exprCode base vs (readTree id)).length ≤ finshTextMax := by
    have hread := congrArg List.length (readTree_code base hw)
    have hstep := congrArg List.length (stepTree_code base pre up hw)
    simp only [List.length_append, codeOp_length, finshCodeDword_length] at hread hstep
    omega
  obtain ⟨m', hrun, hsp, hbelow, hmem, htop⟩ :=
    step_result target hw haddress hentry hfit hroom
  obtain ⟨m'', hread, hcell⟩ := read_result target hw haddress hfit'
    (by omega) (if pre then m'.mem else m.mem) cell
  have hlaw : StepAgrees target base vs pre up id w m cell <->
      m'.stack m.sp = m''.stack m.sp ∧
        m'.mem = writeNumber m.mem (id.address base) w.bytes
          (stepNumber up w (readNumber m.mem (id.address base) w.bytes)) := by
    constructor
    · rintro ⟨n', n'', hrun', _, _, hread', hstack, hmemory⟩
      cases hrun.symm.trans hrun'
      cases hread.symm.trans hread'
      exact ⟨hstack, hmemory⟩
    · rintro ⟨hstack, hmemory⟩
      exact ⟨m', m'', hrun, hsp, hbelow, hread, hstack, hmemory⟩
  have hitself : StepsItself pre w m.mem id <->
      if pre then
        readNumber m.mem (id.entry base + valueOffset) w.bytes =
          readNumber m.mem (id.address base) w.bytes
      else id.entry base + valueOffset = id.address base := by
    cases id with
    | none => cases hw
    | syscall f => cases hw
    | sysvar v => exact Iff.rfl
    | var index => cases pre <;> simp [StepsItself, NodeId.address]
  rw [hlaw, hitself, and_comm]
  unfold RestAgrees
  cases pre with
  | true =>
    simp only [if_true] at hmem htop hcell ⊢
    rw [htop, hcell]
    nth_rewrite 1 [hmem]
    rw [step_value_iff]
    apply and_congr_right
    intro _
    rw [hmem]
    exact reload_iff
  | false =>
    simp only [Bool.false_eq_true, if_false] at hmem htop hcell ⊢
    rw [htop, hcell, hmem, step_address_iff, assign_rest_iff]

end Agreement

def lineStart (address : Nat) (value : Byte) : Vm :=
  ⟨fun _ => 0, 0, 0, fun i => if i = address then value else 0⟩

/-- `++v` for a `char` of the shell that holds -1, on an empty stack. -/
theorem increment_agrees_iff_char :
    StepAgrees sampleTarget 0x20000000 [⟨['v'], FinshType.char, 0⟩] true true
      (NodeId.var 0) Width.byte (lineStart 0x20000014 255) 0 := by
  apply (increment_agrees_iff sampleTarget 0x20000000 [⟨['v'], FinshType.char, 0⟩] true
    true (NodeId.var 0) Width.byte (lineStart 0x20000014 255) 0 rfl (by decide) (by decide)
    (by decide) (by decide)).mpr
  exact ⟨trivial, rfl⟩

/-- `++v` for a system variable of the type `long` that holds five makes it one: the table
entry has a zero where a `finsh_var` has its value. -/
theorem increment_misses_sysvar :
    ¬ StepAgrees sampleTarget 0x20000000 [] true true
      (NodeId.sysvar ⟨0x08001000, FinshType.long, 0x20001000⟩) Width.dword
      (lineStart 0x20001000 5) 0 := by
  rintro ⟨m', m'', hrun, _, _, _, _, hmem⟩
  have hvalue : (runCode sampleTarget (exprCode 0x20000000 []
      (stepTree true true (NodeId.sysvar ⟨0x08001000, FinshType.long, 0x20001000⟩)))
      (lineStart 0x20001000 5)).map (fun m => readNumber m.mem 0x20001000 4) = some 1 := by
    decide +kernel
  rw [hrun, Option.map_some, hmem] at hvalue
  exact absurd hvalue (by decide +kernel)

end RtThread.Finsh
