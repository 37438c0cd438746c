import RtThread.Finsh.VmSteps

/-!
# Correctness of the finsh compiler

Expressions over constants and variables of 32 bits, evaluated from left to right, are the meaning
of the trees that the compiler translates. The code of a tree leaves the value of its expression
on the stack and its effects in the variables; that of a sequence of statements leaves the value
of the last one.
-/

namespace RtThread.Finsh

open ByteMemory
open Function (update update_of_ne update_self)

/-!
## Expressions
-/

/-- Expressions; `up` says whether a variable is increased or decreased. -/
inductive Expr where
  | const (value : Nat)
  | var (x : NodeId)
  | bin (op : BinOp) (a b : Expr)
  | not (a : Expr)
  | assign (x : NodeId) (a : Expr)
  | pre (up : Bool) (index : Nat)
  | post (up : Bool) (index : Nat)
deriving DecidableEq, Repr

abbrev Store := NodeId -> BitVec 32

def stepValue (up : Bool) (v : BitVec 32) : BitVec 32 := if up then v + 1 else v - 1

/-- Evaluation from left to right; there is no result where C leaves it undefined. -/
def Expr.eval : Expr -> Store -> Option (BitVec 32 × Store)
  | const value, st => some (BitVec.ofNat 32 value, st)
  | var x, st => some (st x, st)
  | bin op a b, st =>
    (a.eval st).bind fun ra =>
      (b.eval ra.2).bind fun rb => (intOp op ra.1 rb.1).map fun v => (v, rb.2)
  | not a, st => (a.eval st).map fun r => (~~~r.1, r.2)
  | assign x a, st => (a.eval st).map fun r => (r.1, Function.update r.2 x r.1)
  | pre up index, st =>
    let v := stepValue up (st (NodeId.var index))
    some (v, Function.update st (NodeId.var index) v)
  | post up index, st =>
    let v := st (NodeId.var index)
    some (v, Function.update st (NodeId.var index) (stepValue up v))

/-- A sequence of statements has the value of the last one. -/
def evalStatements : List Expr -> Store -> Option (BitVec 32 × Store)
  | [], _ => none
  | [e], st => e.eval st
  | e :: es, st => (e.eval st).bind fun r => evalStatements es r.2

def Expr.depth : Expr -> Nat
  | const _ => 1
  | var _ => 1
  | bin _ a b => max a.depth (b.depth + 1)
  | not a => a.depth
  | assign _ a => a.depth + 1
  | pre _ _ => 3
  | post _ _ => 4

/-!
## Trees
-/

def LongType (type : FinshType) : Prop := type = FinshType.int ∨ type = FinshType.long

/-- A variable of the shell or a system variable, of type `int` or `long`. -/
def Usable (vs : List FinshVar) (sysvars : List FinshSysvar) : NodeId -> Prop
  | NodeId.var index => index < finshVariableMax ∧ LongType (varType vs index)
  | NodeId.sysvar v => v ∈ sysvars ∧ LongType v.type
  | _ => False

def BinOp.nodeType : BinOp -> NodeType
  | add => NodeType.sysAdd
  | sub => NodeType.sysSub
  | div => NodeType.sysDiv
  | mod => NodeType.sysMod
  | mul => NodeType.sysMul
  | and => NodeType.sysAnd
  | or => NodeType.sysOr
  | xor => NodeType.sysXor
  | shl => NodeType.sysShl
  | shr => NodeType.sysShr

def IdNode (vs : List FinshVar) (sysvars : List FinshSysvar) (info : FinshNode) : Prop :=
  info.nodeType = NodeType.id ∧ Usable vs sysvars info.id ∧ info.address = false

/-- A node with these children stands for an expression.  The data type may be that of
a cast. -/
inductive Represents (vs : List FinshVar) (sysvars : List FinshSysvar) :
    FinshNode -> Tree -> Expr -> Prop where
  | const {info : FinshNode} :
      info.nodeType = NodeType.valueInt ∨ info.nodeType = NodeType.valueLong ->
      Represents vs sysvars info Tree.null (Expr.const info.value)
  | var {info : FinshNode} : IdNode vs sysvars info ->
      Represents vs sysvars info Tree.null (Expr.var info.id)
  | bin {info i1 i2 : FinshNode} {c1 c2 : Tree} {a b : Expr} (op : BinOp) :
      info.nodeType = op.nodeType -> Represents vs sysvars i1 c1 a ->
      Represents vs sysvars i2 c2 b ->
      Represents vs sysvars info (Tree.node i1 c1 (Tree.node i2 c2 Tree.null))
        (Expr.bin op a b)
  | not {info i1 : FinshNode} {c1 : Tree} {a : Expr} :
      info.nodeType = NodeType.sysBitwise -> Represents vs sysvars i1 c1 a ->
      Represents vs sysvars info (Tree.node i1 c1 Tree.null) (Expr.not a)
  | assign {info i1 i2 : FinshNode} {c2 : Tree} {a : Expr} :
      info.nodeType = NodeType.sysAssign -> IdNode vs sysvars i1 ->
      Represents vs sysvars i2 c2 a ->
      Represents vs sysvars info (Tree.node i1 Tree.null (Tree.node i2 c2 Tree.null))
        (Expr.assign i1.id a)
  | pre {info i1 : FinshNode} {index : Nat} (up : Bool) :
      info.nodeType = (if up then NodeType.sysPreinc else NodeType.sysPredec) ->
      IdNode vs sysvars i1 -> i1.id = NodeId.var index ->
      Represents vs sysvars info (Tree.node i1 Tree.null Tree.null) (Expr.pre up index)
  | post {info i1 : FinshNode} {index : Nat} (up : Bool) :
      info.nodeType = (if up then NodeType.sysInc else NodeType.sysDec) ->
      IdNode vs sysvars i1 -> i1.id = NodeId.var index ->
      Represents vs sysvars info (Tree.node i1 Tree.null Tree.null) (Expr.post up index)

/-- A root with its siblings stands for a sequence of statements. -/
inductive Statements (vs : List FinshVar) (sysvars : List FinshSysvar) :
    Tree -> List Expr -> Prop where
  | nil : Statements vs sysvars Tree.null []
  | cons {info : FinshNode} {child sibling : Tree} {e : Expr} {es : List Expr} :
      Represents vs sysvars info child e -> Statements vs sysvars sibling es ->
      Statements vs sysvars (Tree.node info child sibling) (e :: es)

/-!
## Code
-/

def NodeId.address (base : Nat) : NodeId -> Nat
  | sysvar v => v.var
  | id => id.entry base + valueOffset

def stepOp (up : Bool) : BinOp := if up then BinOp.add else BinOp.sub

def Expr.code (base : Nat) : Expr -> List Byte
  | const value => codeOp (Op.ld Width.dword) ++ finshCodeDword value
  | var x => codeOp (Op.ldValue Width.dword) ++ finshCodeDword (x.address base)
  | bin op a b => a.code base ++ b.code base ++ codeOp (Op.bin op Width.dword)
  | not a => a.code base ++ codeOp (Op.bw Width.dword)
  | assign x a =>
    codeOp (Op.ld Width.dword) ++ finshCodeDword (x.address base) ++ a.code base ++
      (codeOp (Op.st Width.dword) ++ codeOp (Op.ldValueStack Width.dword))
  | pre up index =>
    let address := (NodeId.var index).address base
    codeOp (Op.ld Width.dword) ++ finshCodeDword address ++
      (storeStep (stepOp up) Width.dword address ++
        codeOp (Op.ldValueStack Width.dword))
  | post up index =>
    let address := (NodeId.var index).address base
    codeOp (Op.ldValue Width.dword) ++ finshCodeDword address ++
      (codeOp (Op.ld Width.dword) ++ finshCodeDword address ++
        storeStep (stepOp up) Width.dword address ++ codeOp Op.pop)

section Compiled

variable {vs : List FinshVar} {sysvars : List FinshSysvar} {info i : FinshNode}
  {child sibling : Tree} {e : Expr} {errno : FinshError} {base : Nat}

theorem setAddress_false : setAddress info false = info := by
  unfold setAddress
  split
  · rfl
  · simp

theorem dataTypeOf_long {type : FinshType} (hlong : LongType type) :
    dataTypeOf type = some dataTypeDword ∧ loadWidth type = some Width.dword := by
  rcases hlong with heq | heq <;> subst heq <;> exact ⟨rfl, rfl⟩

theorem IdNode.checked (hi : IdNode vs sysvars i) (isAddr : Bool) :
    finshTypeCheck vs isAddr (Tree.node i Tree.null sibling) errno =
      (Tree.node { i with dataType := dataTypeDword, address := isAddr } Tree.null
        (finshTypeCheck vs false sibling errno).1,
        (finshTypeCheck vs false sibling errno).2) := by
  rcases hi with ⟨htype, husable, haddr⟩
  simp only [finshTypeCheck, Tree.info]
  cases hid : i.id with
  | none =>
    rw [hid] at husable
    cases husable
  | syscall f =>
    rw [hid] at husable
    cases husable
  | var index =>
    rw [hid] at husable
    have hset : setAddress i isAddr = { i with address := isAddr } := by
      simp [setAddress, hid, haddr]
    rw [hset]
    simp only [leafType, htype, hid, setVarType, (dataTypeOf_long husable.right).left]
  | sysvar v =>
    rw [hid] at husable
    have hset : setAddress i isAddr = { i with address := isAddr } := by
      simp [setAddress, hid, haddr]
    rw [hset]
    simp only [leafType, htype, hid, setVarType, (dataTypeOf_long husable.right).left]

theorem IdNode.compiled (hi : IdNode vs sysvars i) (isAddr : Bool) :
    compileId base vs { i with dataType := dataTypeDword, address := isAddr } =
      codeOp (if isAddr then Op.ld Width.dword else Op.ldValue Width.dword) ++
        finshCodeDword (i.id.address base) := by
  rcases hi with ⟨_, husable, _⟩
  cases hid : i.id with
  | none =>
    rw [hid] at husable
    cases husable
  | syscall f =>
    rw [hid] at husable
    cases husable
  | var index =>
    rw [hid] at husable
    simp only [compileId, loadVariable, (dataTypeOf_long husable.right).right, NodeId.address]
  | sysvar v =>
    rw [hid] at husable
    simp only [compileId, loadVariable, (dataTypeOf_long husable.right).right, NodeId.address]

theorem finshTypeCheck_parent {first : FinshNode} {c s : Tree} {isAddr : Bool}
    (hc : finshTypeCheck vs (childAddress info isAddr) child errno = (Tree.node first c s, errno)) :
    finshTypeCheck vs isAddr (Tree.node info child sibling) errno =
      (Tree.node { setAddress info isAddr with dataType := first.dataType }
        (Tree.node first c s) (finshTypeCheck vs false sibling errno).1,
        (finshTypeCheck vs false sibling errno).2) := by
  rw [finshTypeCheck]
  simp only [hc, Tree.info]

theorem finshCompile_node {code code' : List Byte}
    (hc : finshCompile base vs child errno = (code, errno))
    (hn : compileNode base vs info child errno = (code', errno)) :
    finshCompile base vs (Tree.node info child sibling) errno =
      (code ++ code' ++ (finshCompile base vs sibling errno).1,
        (finshCompile base vs sibling errno).2) := by
  rw [finshCompile]
  simp only [hc, hn]

theorem IdNode.code (hi : IdNode vs sysvars i) (isAddr : Bool) : finshCompile base vs
        (Tree.node { i with dataType := dataTypeDword, address := isAddr } Tree.null
          sibling) errno =
      (codeOp (if isAddr then Op.ld Width.dword else Op.ldValue Width.dword) ++
        finshCodeDword (i.id.address base) ++ (finshCompile base vs sibling errno).1,
        (finshCompile base vs sibling errno).2) := by
  have hnode : compileNode base vs { i with dataType := dataTypeDword, address := isAddr }
      Tree.null errno =
      (compileId base vs { i with dataType := dataTypeDword, address := isAddr }, errno) := by
    simp only [compileNode, hi.left]
  have hcode := @finshCompile_node vs _ Tree.null sibling errno base _ _ rfl hnode
  rw [hi.compiled] at hcode
  exact hcode

structure Compiled (base : Nat) (vs : List FinshVar) (info : FinshNode) (child : Tree)
    (e : Expr) (info' : FinshNode) (child' : Tree) : Prop where
  dword : info'.dataType = dataTypeDword
  checked : forall sibling errno,
    finshTypeCheck vs false (Tree.node info child sibling) errno =
      (Tree.node info' child' (finshTypeCheck vs false sibling errno).1,
        (finshTypeCheck vs false sibling errno).2)
  code : forall sibling errno,
    finshCompile base vs (Tree.node info' child' sibling) errno =
      (e.code base ++ (finshCompile base vs sibling errno).1,
        (finshCompile base vs sibling errno).2)

theorem compiled_parent (first : FinshNode) (c s : Tree) {code code' : List Byte}
    (hcheck : forall errno, finshTypeCheck vs (childAddress info false) child errno =
      (Tree.node first c s, errno))
    (hdword : first.dataType = dataTypeDword)
    (hchild : forall errno, finshCompile base vs (Tree.node first c s) errno = (code, errno))
    (hnode : forall errno, compileNode base vs { info with dataType := dataTypeDword }
      (Tree.node first c s) errno = (code', errno))
    (hcode : e.code base = code ++ code') :
    Compiled base vs info child e { info with dataType := dataTypeDword }
      (Tree.node first c s) := by
  refine ⟨rfl, ?_, ?_⟩
  · intro sibling errno
    rw [finshTypeCheck_parent (hcheck errno), setAddress_false, hdword]
  · intro sibling errno
    rw [finshCompile_node (hchild errno) (hnode errno), hcode]

theorem Represents.compiled (base : Nat) (hr : Represents vs sysvars info child e) :
    exists info' child', Compiled base vs info child e info' child' := by
  induction hr with
  | @const info htype =>
    refine ⟨{ info with dataType := dataTypeDword }, Tree.null, rfl, ?_, ?_⟩
    · intro sibling errno
      rw [finshTypeCheck]
      simp only [finshTypeCheck, Tree.info, setAddress_false]
      rcases htype with htype | htype <;> simp only [leafType, htype]
    · intro sibling errno
      rw [finshCompile]
      rcases htype with htype | htype <;> simp only [compileNode, htype] <;> rfl
  | @var info hid =>
    exact ⟨_, Tree.null, rfl, fun sibling errno => hid.checked false,
      fun sibling errno => hid.code false⟩
  | @bin info i1 i2 c1 c2 a b op htype _ _ iha ihb =>
    rcases iha with ⟨i1', c1', ha⟩
    rcases ihb with ⟨i2', c2', hb⟩
    have hchild : childAddress info false = false := by
      unfold childAddress
      cases op <;> simp only [htype, BinOp.nodeType]
    refine ⟨_, _, compiled_parent i1' c1' (Tree.node i2' c2' Tree.null) ?_ ha.dword ?_ ?_ rfl⟩
    · intro errno
      rw [hchild, ha.checked, hb.checked]
      rfl
    · intro errno
      rw [ha.code, hb.code]
      simp only [finshCompile, List.append_nil]
    · intro errno
      cases op <;> simp only [compileNode, htype, BinOp.nodeType] <;> rfl
  | @not info i1 c1 a htype _ iha =>
    rcases iha with ⟨i1', c1', ha⟩
    have hchild : childAddress info false = false := by simp only [childAddress, htype]
    refine ⟨_, _, compiled_parent i1' c1' Tree.null ?_ ha.dword ?_ ?_ rfl⟩
    · intro errno
      rw [hchild, ha.checked]
      rfl
    · intro errno
      rw [ha.code]
      simp only [finshCompile, List.append_nil]
    · intro errno
      simp only [compileNode, htype]
      rfl
  | @assign info i1 i2 c2 a htype hid _ iha =>
    rcases iha with ⟨i2', c2', ha⟩
    have hchild : childAddress info false = true := by simp only [childAddress, htype]
    refine ⟨_, _, compiled_parent { i1 with dataType := dataTypeDword, address := true }
      Tree.null (Tree.node i2' c2' Tree.null) ?_ rfl ?_ ?_ rfl⟩
    · intro errno
      rw [hchild, hid.checked, ha.checked]
      rfl
    · intro errno
      rw [hid.code, ha.code]
      simp only [finshCompile, List.append_nil, if_true]
    · intro errno
      simp only [compileNode, htype, compileAssign, Tree.info, hid.left]
      rfl
  | @pre info i1 index up htype hid hvar =>
    have hchild : childAddress info false = true := by
      cases up <;> simp [childAddress, htype]
    refine ⟨_, _, compiled_parent { i1 with dataType := dataTypeDword, address := true }
      Tree.null Tree.null ?_ rfl ?_ ?_ rfl⟩
    · intro errno
      rw [hchild, hid.checked]
      rfl
    · intro errno
      rw [hid.code, hvar]
      simp only [finshCompile, List.append_nil, if_true]
    · intro errno
      cases up <;> simp only [compileNode, htype, compilePrestep, Tree.info, hid.left, hvar,
          Bool.false_eq_true, if_false, if_true] <;> rfl
  | @post info i1 index up htype hid hvar =>
    have hchild : childAddress info false = false := by
      cases up <;> simp [childAddress, htype]
    refine ⟨_, _, compiled_parent { i1 with dataType := dataTypeDword, address := false }
      Tree.null Tree.null ?_ rfl ?_ ?_ rfl⟩
    · intro errno
      rw [hchild, hid.checked]
      rfl
    · intro errno
      rw [hid.code, hvar]
      simp only [finshCompile, List.append_nil, Bool.false_eq_true, if_false]
    · intro errno
      cases up <;> simp only [compileNode, htype, compileStep, Tree.info, hid.left, hvar,
          Bool.false_eq_true, if_false, if_true] <;> rfl

end Compiled

/-!
## Variables in memory
-/

def Known (sysvars : List FinshSysvar) : NodeId -> Prop
  | NodeId.var index => index < finshVariableMax
  | NodeId.sysvar v => v ∈ sysvars
  | _ => False

/-- The table of variables and the system variables lie in memory and do not
overlap. -/
structure Placed (base : Nat) (sysvars : List FinshSysvar) : Prop where
  table : base + sizeofVar * finshVariableMax ≤ 2 ^ 32
  bounded : forall v, v ∈ sysvars -> v.var + 4 ≤ 2 ^ 32
  outside : forall v, v ∈ sysvars ->
    v.var + 4 ≤ base ∨ base + sizeofVar * finshVariableMax ≤ v.var
  apart : forall v w, v ∈ sysvars -> w ∈ sysvars -> v ≠ w ->
    v.var + 4 ≤ w.var ∨ w.var + 4 ≤ v.var

def Agrees (base : Nat) (sysvars : List FinshSysvar) (st : Store) (mem : Memory) : Prop :=
  forall x, Known sysvars x -> BitVec.ofNat 32 (readNumber mem (x.address base) 4) = st x

def Expr.Over (known : NodeId -> Prop) : Expr -> Prop
  | const _ => True
  | var x => known x
  | bin _ a b => a.Over known ∧ b.Over known
  | not a => a.Over known
  | assign x a => known x ∧ a.Over known
  | pre _ index => known (NodeId.var index)
  | post _ index => known (NodeId.var index)

section Execution

variable {base : Nat} {vs : List FinshVar} {sysvars : List FinshSysvar} {x y : NodeId}
  {st st' : Store} {mem : Memory} {v : BitVec 32} {target : Target} {text : Memory}
  {pc : Nat} {s : List (BitVec 32)}

theorem Usable.known (hu : Usable vs sysvars x) : Known sysvars x := by
  cases x with
  | none => cases hu
  | var index => exact hu.left
  | sysvar v => exact hu.left
  | syscall f => cases hu

theorem Represents.over {info : FinshNode} {child : Tree} {e : Expr}
    (hr : Represents vs sysvars info child e) : e.Over (Known sysvars) := by
  induction hr with
  | const _ => trivial
  | var hid => exact hid.right.left.known
  | bin op _ _ _ iha ihb => exact ⟨iha, ihb⟩
  | not _ _ iha => exact iha
  | assign _ hid _ iha => exact ⟨hid.right.left.known, iha⟩
  | pre up _ hid hvar =>
    have hknown := hid.right.left.known
    rw [hvar] at hknown
    exact hknown
  | post up _ hid hvar =>
    have hknown := hid.right.left.known
    rw [hvar] at hknown
    exact hknown

theorem Placed.bound (hp : Placed base sysvars) (hx : Known sysvars x) :
    x.address base + 4 ≤ 2 ^ 32 := by
  cases x with
  | none => cases hx
  | syscall f => cases hx
  | sysvar v => exact hp.bounded v hx
  | var index =>
    have htable := hp.table
    have hindex : index < finshVariableMax := hx
    simp only [NodeId.address, NodeId.entry, sizeofVar, valueOffset, finshVariableMax]
      at htable hindex ⊢
    omega

theorem Placed.address_apart (hp : Placed base sysvars) (hx : Known sysvars x)
    (hy : Known sysvars y) (hne : x ≠ y) :
    x.address base + 4 ≤ y.address base ∨ y.address base + 4 ≤ x.address base := by
  have hinside : forall index, index < finshVariableMax ->
    base ≤ (NodeId.var index).address base ∧
        (NodeId.var index).address base + 4 ≤ base + sizeofVar * finshVariableMax := by
    intro index hindex
    simp only [NodeId.address, NodeId.entry, sizeofVar, valueOffset, finshVariableMax]
      at hindex ⊢
    omega
  cases x with
  | none => cases hx
  | syscall f => cases hx
  | sysvar v =>
    cases y with
    | none => cases hy
    | syscall f => cases hy
    | sysvar w => exact hp.apart v w hx hy (fun heq => hne (congrArg NodeId.sysvar heq))
    | var index =>
      have hin := hinside index hy
      have hout := hp.outside v hx
      show v.var + 4 ≤ _ ∨ _ ≤ v.var
      omega
  | var index =>
    cases y with
    | none => cases hy
    | syscall f => cases hy
    | sysvar w =>
      have hin := hinside index hx
      have hout := hp.outside w hy
      show _ ≤ w.var ∨ w.var + 4 ≤ _
      omega
    | var index' =>
      have hdiff : index ≠ index' := fun heq => hne (congrArg NodeId.var heq)
      simp only [NodeId.address, NodeId.entry, sizeofVar, valueOffset]
      omega

theorem Agrees.store (hp : Placed base sysvars) (ha : Agrees base sysvars st mem)
    (hx : Known sysvars x) (v : BitVec 32) :
    Agrees base sysvars (update st x v) (writeNumber mem (x.address base) 4 v.toNat) := by
  intro y hy
  by_cases hyx : y = x
  · subst hyx
    rw [readNumber_writeNumber, update_self]
    have hlt : v.toNat % 256 ^ 4 = v.toNat := Nat.mod_eq_of_lt v.isLt
    rw [hlt]
    simp
  · rw [readNumber_writeNumber_apart, update_of_ne hyx]
    · exact ha y hy
    · exact (hp.address_apart hx hy (Ne.symm hyx)).symm

theorem Placed.toNat_address (hp : Placed base sysvars) (hx : Known sysvars x) :
    (BitVec.ofNat 32 (x.address base)).toNat = x.address base := by
  have hbound := hp.bound hx
  rw [BitVec.toNat_ofNat]
  exact Nat.mod_eq_of_lt (by omega)

theorem intOp_stepOp (up : Bool) (v : BitVec 32) :
    intOp (stepOp up) v (BitVec.ofNat 32 1) = some (stepValue up v) := by
  cases up <;> rfl

theorem reach_storeStep (target : Target) {up : Bool} (hp : Placed base sysvars)
    (hx : Known sysvars x)
    (ha : Agrees base sysvars st mem)
    (hc : CodeAt text pc (storeStep (stepOp up) Width.dword (x.address base)))
    (hroom : s.length + 3 ≤ finshStackMax) :
    Reach target text ⟨pc, BitVec.ofNat 32 (x.address base) :: s, mem⟩
      ⟨pc + 12, BitVec.ofNat 32 (x.address base) :: s,
        writeNumber mem (x.address base) 4 (stepValue up (st x)).toNat⟩ := by
  unfold storeStep loadOne at hc
  rcases codeAt_append.mp hc with ⟨hc, hst⟩
  rcases codeAt_append.mp hc with ⟨hc, hbin⟩
  rcases codeAt_append.mp hc with ⟨hload, hone⟩
  have hbound := hp.bound hx
  have hr1 := reach_ldValue target mem (s := BitVec.ofNat 32 (x.address base) :: s) hload (by omega)
    (by rw [List.length_cons]; omega)
  rw [ha x hx] at hr1
  have hr2 := reach_ld target mem (s := st x :: BitVec.ofNat 32 (x.address base) :: s) hone
    (by rw [List.length_cons, List.length_cons]; omega)
  have hr3 := reach_bin target mem
    (s := BitVec.ofNat 32 (x.address base) :: s) hbin (intOp_stepOp up (st x))
  have hr4 := reach_st target mem (s := s) (v := stepValue up (st x))
    (u := BitVec.ofNat 32 (x.address base)) hst
  rw [hp.toNat_address hx] at hr4
  exact ((hr1.trans hr2).trans hr3).trans hr4

theorem Expr.reach {e : Expr} (target : Target) (hp : Placed base sysvars)
    (hover : e.Over (Known sysvars))
    (hc : CodeAt text pc (e.code base)) (hroom : s.length + e.depth ≤ finshStackMax)
    (ha : Agrees base sysvars st mem) (he : e.eval st = some (v, st')) :
    exists mem', Reach target text ⟨pc, s, mem⟩
      ⟨pc + (e.code base).length, v :: s, mem'⟩ ∧ Agrees base sysvars st' mem' := by
  induction e generalizing pc s st st' mem v with
  | const value =>
    cases he
    exact ⟨mem, reach_ld target mem hc hroom, ha⟩
  | var x =>
    cases he
    have hbound := hp.bound hover
    have hr := reach_ldValue target mem hc (by omega) hroom
    rw [ha x hover] at hr
    exact ⟨mem, hr, ha⟩
  | bin op a b iha ihb =>
    simp only [eval, Option.bind_eq_some_iff, Option.map_eq_some_iff] at he
    rcases he with ⟨⟨va, st1⟩, hea, ⟨vb, st2⟩, heb, w, hop, heq⟩
    cases heq
    rcases codeAt_append.mp hc with ⟨hc, hcop⟩
    rcases codeAt_append.mp hc with ⟨hca, hcb⟩
    simp only [depth] at hroom
    rcases iha hover.left hca (s := s) (by omega) ha hea with ⟨mem1, hr1, ha1⟩
    rcases ihb hover.right hcb (s := va :: s) (by rw [List.length_cons]; omega) ha1 heb
      with ⟨mem2, hr2, ha2⟩
    refine ⟨mem2, ?_, ha2⟩
    rw [List.length_append, ← Nat.add_assoc] at hcop
    have hr := (hr1.trans hr2).trans (reach_bin target mem2 hcop hop)
    simpa [code, Nat.add_assoc] using hr
  | not a iha =>
    simp only [eval, Option.map_eq_some_iff] at he
    rcases he with ⟨⟨va, st1⟩, hea, heq⟩
    cases heq
    rcases codeAt_append.mp hc with ⟨hca, hcop⟩
    rcases iha hover hca (s := s) hroom ha hea with ⟨mem1, hr1, ha1⟩
    refine ⟨mem1, ?_, ha1⟩
    have hr := hr1.trans (reach_bw target mem1 hcop)
    simpa [code, Nat.add_assoc] using hr
  | assign x a iha =>
    simp only [eval, Option.map_eq_some_iff] at he
    rcases he with ⟨⟨va, st1⟩, hea, heq⟩
    cases heq
    rcases codeAt_append.mp hc with ⟨hc, hc2⟩
    rcases codeAt_append.mp hc with ⟨hc1, hca⟩
    rcases codeAt_append.mp hc2 with ⟨hst, hld⟩
    simp only [depth] at hroom
    have hr1 := reach_ld target mem (s := s) hc1 (by omega)
    rcases iha hover.right hca (s := BitVec.ofNat 32 (x.address base) :: s)
      (by rw [List.length_cons]; omega) ha hea with ⟨mem1, hr2, ha1⟩
    rw [List.length_append, ← Nat.add_assoc] at hst hld
    have hr3 := reach_st target mem1 (s := s) (v := va) (u := BitVec.ofNat 32 (x.address base)) hst
    have hr4 := reach_ldValueStack target (writeNumber mem1 (x.address base) 4 va.toNat) (s := s)
      (u := BitVec.ofNat 32 (x.address base)) hld
    rw [hp.toNat_address hover.left] at hr3 hr4
    have hstored := ha1.store hp hover.left va
    rw [hstored x hover.left, update_self] at hr4
    refine ⟨_, ?_, hstored⟩
    have hr := ((hr1.trans hr2).trans hr3).trans hr4
    have hpc : pc + (code base (assign x a)).length = pc + 5 + (code base a).length + 1 + 1 := by
      simp only [code, List.length_append, codeOp_length, finshCodeDword_length]
      omega
    rw [hpc]
    exact hr
  | pre up index =>
    cases he
    rcases codeAt_append.mp hc with ⟨hc1, hc2⟩
    rcases codeAt_append.mp hc2 with ⟨hstep, hld⟩
    have hr1 := reach_ld target mem (s := s) hc1 (by simp only [depth] at hroom; omega)
    have hr2 := reach_storeStep target (s := s) hp hover ha hstep hroom
    have hr3 := reach_ldValueStack target (writeNumber mem ((NodeId.var index).address base) 4
        (stepValue up (st (NodeId.var index))).toNat) (s := s)
      (u := BitVec.ofNat 32 ((NodeId.var index).address base)) hld
    have hstored := ha.store hp hover (stepValue up (st (NodeId.var index)))
    rw [hp.toNat_address hover, hstored _ hover, update_self] at hr3
    refine ⟨_, ?_, hstored⟩
    exact (hr1.trans hr2).trans hr3
  | post up index =>
    cases he
    rcases codeAt_append.mp hc with ⟨hc1, hc2⟩
    rcases codeAt_append.mp hc2 with ⟨hc2, hpop⟩
    rcases codeAt_append.mp hc2 with ⟨hc2, hstep⟩
    have hbound := hp.bound hover
    simp only [depth] at hroom
    have hr1 := reach_ldValue target mem (s := s) hc1 (by omega) (by omega)
    rw [ha _ hover] at hr1
    have hr2 := reach_ld target mem
      (s := st (NodeId.var index) :: s) hc2 (by rw [List.length_cons]; omega)
    have hr3 := reach_storeStep target (s := st (NodeId.var index) :: s) hp
      hover ha hstep (by rw [List.length_cons]; omega)
    have hr4 := reach_pop target (writeNumber mem ((NodeId.var index).address base) 4
        (stepValue up (st (NodeId.var index))).toNat) (s := st (NodeId.var index) :: s)
      (v := BitVec.ofNat 32 ((NodeId.var index).address base)) hpop
    refine ⟨_, ?_, ha.store hp hover (stepValue up (st (NodeId.var index)))⟩
    exact ((hr1.trans hr2).trans hr3).trans hr4

/-!
## Statements
-/

/-- The code of a sequence of statements, of which all but the last are popped. -/
def statementsCode (base : Nat) : List Expr -> List Byte
  | [] => []
  | [e] => e.code base
  | e :: es => e.code base ++ codeOp Op.pop ++ statementsCode base es

variable {es : List Expr}

theorem Statements.checked (base : Nat) {root : Tree} (hs : Statements vs sysvars root es)
    (errno : FinshError) :
    exists root', finshTypeCheck vs false root errno = (root', errno) ∧
      compileStatements base vs root' errno = (statementsCode base es, errno) ∧
      (root'.isNull = true <-> es = []) := by
  induction hs with
  | nil => exact ⟨Tree.null, rfl, rfl, by simp [Tree.isNull]⟩
  | @cons info child sibling e es hr _ ih =>
    rcases hr.compiled base with ⟨info', child', hcompiled⟩
    rcases ih with ⟨sibling', hcheck, hcode, hnull⟩
    refine ⟨Tree.node info' child' sibling', ?_, ?_, by simp [Tree.isNull]⟩
    · rw [hcompiled.checked, hcheck]
    · have hfirst : finshCompile base vs (Tree.node info' child' Tree.null) errno =
          (e.code base, errno) := by
        rw [hcompiled.code]
        simp only [finshCompile, List.append_nil]
      rw [compileStatements]
      simp only [hfirst, hcode]
      cases es with
      | nil => simp [hnull.mpr rfl, statementsCode]
      | cons e' es =>
        have hsibling : sibling'.isNull = false := by
          rw [Bool.eq_false_iff, ne_eq, hnull]
          simp
        simp [hsibling, statementsCode]

theorem statements_reach (target : Target) (hp : Placed base sysvars)
    (hover : forall e, e ∈ es -> e.Over (Known sysvars))
    (hroom : forall e, e ∈ es -> e.depth ≤ finshStackMax)
    (hc : CodeAt text pc (statementsCode base es)) (ha : Agrees base sysvars st mem)
    (he : evalStatements es st = some (v, st')) :
    exists mem', Reach target text ⟨pc, [], mem⟩
      ⟨pc + (statementsCode base es).length, [v], mem'⟩ ∧ Agrees base sysvars st' mem' := by
  induction es generalizing pc st mem with
  | nil => cases he
  | cons e es ih =>
    have hfirst := hover e List.mem_cons_self
    have hdepth : ([] : List (BitVec 32)).length + e.depth ≤ finshStackMax := by
      simpa using hroom e List.mem_cons_self
    cases es with
    | nil => exact e.reach target hp hfirst hc hdepth ha he
    | cons e' es =>
      simp only [evalStatements, Option.bind_eq_some_iff] at he
      rcases he with ⟨⟨v1, st1⟩, he1, he2⟩
      rcases codeAt_append.mp hc with ⟨hc1, hc2⟩
      rcases codeAt_append.mp hc1 with ⟨hc1, hpop⟩
      rcases e.reach target hp hfirst hc1 hdepth ha he1 with ⟨mem1, hr1, ha1⟩
      have hr2 := reach_pop target mem1 (s := []) (v := v1) hpop
      rw [List.length_append, codeOp_length, ← Nat.add_assoc] at hc2
      rcases ih (fun d hd => hover d (List.mem_cons_of_mem e hd))
        (fun d hd => hroom d (List.mem_cons_of_mem e hd)) hc2 ha1 he2 with
        ⟨mem2, hr3, ha2⟩
      refine ⟨mem2, ?_, ha2⟩
      have hpc : pc + (statementsCode base (e :: e' :: es)).length =
          pc + (e.code base).length + 1 + (statementsCode base (e' :: es)).length := by
        simp only [statementsCode, List.length_append, codeOp_length]
        omega
      rw [hpc]
      exact (hr1.trans hr2).trans hr3

theorem Statements.over {root : Tree} (hs : Statements vs sysvars root es) :
    forall e, e ∈ es -> e.Over (Known sysvars) := by
  induction hs with
  | nil => simp
  | cons hr _ ih =>
    intro e he
    rcases List.mem_cons.mp he with heq | he
    · exact heq ▸ hr.over
    · exact ih e he

/-- The code of a sequence of statements runs to its end, with the value of the last at the
bottom of the stack and the effects of all in the variables. -/
theorem finsh_compiler_correct {root : Tree} {es : List Expr} {stack : Nat -> BitVec 32}
    (hp : Placed base sysvars) (hs : Statements vs sysvars root es)
    (hfit : (finshCompilerRun base vs root FinshError.ok).1.length ≤ finshTextMax)
    (hroom : forall e, e ∈ es -> e.depth ≤ finshStackMax)
    (ha : Agrees base sysvars st mem) (he : evalStatements es st = some (v, st')) :
    (finshCompilerRun base vs root FinshError.ok).2 = FinshError.ok ∧
      exists m, finshVmRun target
          (textSegment (finshCompilerRun base vs root FinshError.ok).1) stack mem = some m ∧
        finshStackBottom m = v ∧ Agrees base sysvars st' m.mem := by
  rcases hs.checked base FinshError.ok with ⟨root', hcheck, hcode, _⟩
  have hrun : finshCompilerRun base vs root FinshError.ok =
      (statementsCode base es, FinshError.ok) := by
    unfold finshCompilerRun
    simp only [hcheck, hcode]
  rw [hrun] at hfit ⊢
  refine ⟨rfl, ?_⟩
  have hlen : (statementsCode base es).length ≤ finshTextMax := hfit
  have hat := codeAt_textSegment hlen
  rcases statements_reach target hp hs.over hroom hat ha he with
    ⟨mem', hr, ha'⟩
  have hzero : forall i, 0 + (statementsCode base es).length ≤ i -> i < finshTextMax ->
      textSegment (statementsCode base es) i = 0 := by
    intro i hi _
    unfold textSegment
    rw [List.getElem?_eq_none (by omega)]
    rfl
  have hend := hr.trans (reach_end hzero (by omega))
  rcases finshVmRun_of_reach stack hend with ⟨m, hvm, hm⟩
  refine ⟨m, hvm, ?_, ?_⟩
  · exact hm.cells.left
  · rw [hm.mem]
    exact ha'

def sampleTree : Tree :=
  let a : FinshNode := ⟨NodeType.id, 0, NodeId.var 0, false, 0⟩
  let const := fun value => FinshNode.mk NodeType.valueInt 0 NodeId.none false value
  let sys := fun type => FinshNode.mk type 0 NodeId.none false 0
  Tree.node (sys NodeType.sysAssign)
    (Tree.node a Tree.null (Tree.node (const 3) Tree.null Tree.null))
    (Tree.node (sys NodeType.sysAdd)
      (Tree.node (sys NodeType.sysInc) (Tree.node a Tree.null Tree.null)
        (Tree.node (const 4) Tree.null Tree.null))
      Tree.null)

def sampleVariables : List FinshVar := [⟨['a'], FinshType.int, 0⟩]

def sampleTarget : Target := ⟨false, fun _ _ mem => (0, mem)⟩

theorem sampleTree_statements : Statements sampleVariables [] sampleTree
    [Expr.assign (NodeId.var 0) (Expr.const 3),
      Expr.bin BinOp.add (Expr.post true 0) (Expr.const 4)] := by
  have hid : IdNode sampleVariables [] ⟨NodeType.id, 0, NodeId.var 0, false, 0⟩ :=
    ⟨rfl, ⟨by decide, Or.inl rfl⟩, rfl⟩
  refine Statements.cons ?_ (Statements.cons ?_ Statements.nil)
  · exact Represents.assign rfl hid (Represents.const (Or.inl rfl))
  · exact Represents.bin BinOp.add rfl (Represents.post true rfl hid rfl)
      (Represents.const (Or.inl rfl))

/-- The sample line has the value seven and leaves four in the variable. -/
theorem finsh_compiler_correct_sample :
    (finshCompilerRun 0x20000000 sampleVariables sampleTree FinshError.ok).2 =
        FinshError.ok ∧
      exists m, finshVmRun sampleTarget
          (textSegment (finshCompilerRun 0x20000000 sampleVariables sampleTree
            FinshError.ok).1) (fun _ => 0) (fun _ => 0) = some m ∧
        finshStackBottom m = 7 ∧
        Agrees 0x20000000 [] (Function.update (fun _ => 0) (NodeId.var 0) 4) m.mem := by
  have hplaced : Placed 0x20000000 [] :=
    ⟨by decide, by simp, by simp, by simp⟩
  have hagree : Agrees 0x20000000 [] (fun _ => 0) (fun _ => 0) := fun _ _ => rfl
  have heval : evalStatements [Expr.assign (NodeId.var 0) (Expr.const 3),
      Expr.bin BinOp.add (Expr.post true 0) (Expr.const 4)] (fun _ => 0) =
      some (7, Function.update (fun _ => 0) (NodeId.var 0) 4) := by
    simp only [evalStatements, Expr.eval, Option.map_some, Option.bind_some,
      Function.update_self, Function.update_idem]
    rfl
  exact finsh_compiler_correct hplaced sampleTree_statements (by decide) (by decide) hagree
    heval

end Execution

end RtThread.Finsh
