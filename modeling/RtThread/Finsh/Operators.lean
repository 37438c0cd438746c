import RtThread.Finsh.ParserBuilds
import RtThread.Finsh.StackHeight
import RtThread.Finsh.TextSegment

/-!
# Operators without code

An operator emits its instruction for one of three widths only, which it inherits from
the leftmost name or constant below it.  A call has no width, since the name of a function
has none, and so an operator over a call is dropped without an error.
-/

namespace RtThread.Finsh

open ByteMemory

/-!
## Contributions
-/

def operatorOf : NodeType -> Option (Width -> Op)
  | NodeType.sysAdd => some (Op.bin BinOp.add)
  | NodeType.sysSub => some (Op.bin BinOp.sub)
  | NodeType.sysMul => some (Op.bin BinOp.mul)
  | NodeType.sysDiv => some (Op.bin BinOp.div)
  | NodeType.sysMod => some (Op.bin BinOp.mod)
  | NodeType.sysAnd => some (Op.bin BinOp.and)
  | NodeType.sysOr => some (Op.bin BinOp.or)
  | NodeType.sysXor => some (Op.bin BinOp.xor)
  | NodeType.sysShl => some (Op.bin BinOp.shl)
  | NodeType.sysShr => some (Op.bin BinOp.shr)
  | NodeType.sysBitwise => some Op.bw
  | NodeType.sysAssign => some Op.st
  | NodeType.sysPreinc | NodeType.sysInc => some (Op.bin BinOp.add)
  | NodeType.sysPredec | NodeType.sysDec => some (Op.bin BinOp.sub)
  | NodeType.sysGetvalue => some Op.ldValueStack
  | _ => none

def emits (op : Width -> Op) (code : List Byte) : Bool :=
  (disassemble 0 code).any fun i => i.op ∈ widths op

/-- An operand that is loaded by its address, or one behind a pointer, whose value is
not loaded. -/
def addressed (base : Nat) (vs : List FinshVar) : Tree -> Bool
  | Tree.null => false
  | Tree.node first _ _ =>
    match first.nodeType with
    | NodeType.id => emits Op.ld (compileId base vs first)
    | NodeType.sysGetvalue => true
    | _ => false

/-- Has a node of a checked tree contributed its instruction? An address is the load of its
operand by address; the value behind a pointer is not loaded where its address is asked for.
-/
def contributes (base : Nat) (vs : List FinshVar) (info : FinshNode) (child : Tree) : Bool :=
  match operatorOf info.nodeType with
  | some op => emits op (compileNode base vs info child FinshError.ok).1 ||
      (info.nodeType = NodeType.sysGetvalue && info.address)
  | none => info.nodeType ≠ NodeType.sysGetaddr || addressed base vs child

def allContribute (base : Nat) (vs : List FinshVar) : Tree -> Bool
  | Tree.null => true
  | Tree.node info child sibling =>
    contributes base vs info child && allContribute base vs child &&
      allContribute base vs sibling

def oneValueEach (base : Nat) (vs : List FinshVar) : Tree -> Bool
  | Tree.null => true
  | Tree.node info child sibling =>
    (heightAfter (disassemble 0
      (finshCompile base vs (Tree.node info child Tree.null) FinshError.ok).1) 0 = some 1) &&
      oneValueEach base vs sibling

def OperatorsKept (base : Nat) (vs : List FinshVar) (root : Tree) : Prop :=
  (finshCompilerRun base vs root FinshError.ok).2 ≠ FinshError.ok ∨
    (allContribute base vs (finshTypeCheck vs false root FinshError.ok).1 = true ∧
      oneValueEach base vs (finshTypeCheck vs false root FinshError.ok).1 = true)

instance (base : Nat) (vs : List FinshVar) (root : Tree) :
    Decidable (OperatorsKept base vs root) :=
  inferInstanceAs (Decidable (_ ∨ _))

/-!
## Types
-/

/-- Does some node with its children satisfy a predicate? -/
def Tree.any (p : FinshNode -> Tree -> Bool) : Tree -> Bool
  | Tree.null => false
  | Tree.node info child sibling => p info child || child.any p || sibling.any p

def unknownId (vs : List FinshVar) (info : FinshNode) : Bool :=
  info.nodeType = NodeType.id &&
    match info.id with
    | NodeId.var index => (dataTypeOf (varType vs index)).isNone
    | NodeId.sysvar sysvar => (dataTypeOf sysvar.type).isNone
    | _ => false

def typed (dataType : Nat) : Bool := (widthOf dataType).isSome

/-- A name or a pointer that is assigned to and has no width. -/
def untypedTarget (vs : List FinshVar) (info : FinshNode) : Tree -> Bool
  | Tree.null => false
  | Tree.node first c _ =>
    info.nodeType = NodeType.sysAssign &&
      match first.nodeType with
      | NodeType.id => !typed (checkedType vs first c)
      | NodeType.sysGetvalue => !typed (checkedType vs first c % 0x10)
      | _ => false

/-- Is there a name of an unknown type, or an assignment without a width? -/
def reported (vs : List FinshVar) (root : Tree) : Bool :=
  root.any fun info child => unknownId vs info || untypedTarget vs info child

def loads (vs : List FinshVar) : NodeId -> Bool
  | NodeId.none => false
  | NodeId.var index => (loadWidth (varType vs index)).isSome
  | NodeId.sysvar sysvar => (loadWidth sysvar.type).isSome
  | NodeId.syscall _ => true

def isName : Tree -> Bool
  | Tree.null => false
  | Tree.node first _ _ => first.nodeType = NodeType.id

/-- The target of an assignment is a name or a pointer with a width. -/
def assignable (dataType : Nat) : Tree -> Bool
  | Tree.null => false
  | Tree.node first _ _ =>
    match first.nodeType with
    | NodeType.id => typed dataType
    | NodeType.sysGetvalue => typed (dataType % 0x10)
    | _ => false

/-- The operand of the operator for addresses has an address. -/
def located (vs : List FinshVar) : Tree -> Bool
  | Tree.null => false
  | Tree.node first _ _ =>
    match first.nodeType with
    | NodeType.id => loads vs first.id
    | NodeType.sysGetvalue => true
    | _ => false

/-- Does a node have what its instruction needs: a name a type, an operator a width, and an
assignment, increment or address an operand that has one? -/
def works (vs : List FinshVar) (info : FinshNode) (dataType : Nat) (child : Tree) : Bool :=
  match info.nodeType with
  | NodeType.id => loads vs info.id
  | NodeType.sysAdd | NodeType.sysSub | NodeType.sysMul | NodeType.sysDiv
  | NodeType.sysMod | NodeType.sysAnd | NodeType.sysOr | NodeType.sysXor
  | NodeType.sysBitwise | NodeType.sysShl | NodeType.sysShr => typed dataType
  | NodeType.sysAssign => assignable dataType child
  | NodeType.sysPreinc | NodeType.sysPredec | NodeType.sysInc | NodeType.sysDec =>
    isName child && typed dataType
  | NodeType.sysGetvalue => info.address || typed dataType
  | NodeType.sysGetaddr => located vs child
  | _ => true

def clean (vs : List FinshVar) : Bool -> Tree -> Bool
  | _, Tree.null => true
  | isAddr, Tree.node info child sibling =>
    works vs (setAddress info isAddr) (checkedType vs info child) child &&
      clean vs (childAddress info isAddr) child && clean vs false sibling

/-!
## Reports
-/

theorem Tree.any_or (p q : FinshNode -> Tree -> Bool) (t : Tree) :
    (t.any fun info child => p info child || q info child) = (t.any p || t.any q) := by
  induction t with
  | null => rfl
  | node info child sibling ihc ihs =>
    simp only [Tree.any, ihc, ihs]
    cases p info child <;> cases q info child <;> cases child.any p <;>
      cases child.any q <;> cases sibling.any p <;> rfl

section Reports

variable {base : Nat} {vs : List FinshVar} {info : FinshNode} {t child sibling : Tree}
  {errno : FinshError} {isAddr : Bool}

theorem setAddress_nodeType : (setAddress info isAddr).nodeType = info.nodeType := by
  unfold setAddress
  split <;> rfl

theorem setAddress_id : (setAddress info isAddr).id = info.id := by
  unfold setAddress
  split <;> rfl

theorem setVarType_errno {type : FinshType} : (setVarType info type errno).2 ≠ FinshError.ok <->
    errno ≠ FinshError.ok ∨ (dataTypeOf type).isNone = true := by
  unfold setVarType
  cases dataTypeOf type <;> simp

theorem leafType_errno : (leafType vs info errno).2 ≠ FinshError.ok <->
    errno ≠ FinshError.ok ∨ unknownId vs info = true := by
  unfold leafType unknownId
  cases info.nodeType with
  | id =>
    cases info.id with
    | var index => simpa using setVarType_errno
    | sysvar sysvar => simpa using setVarType_errno
    | none => simp
    | syscall f => simp
  | _ => simp

theorem unknownId_setAddress : unknownId vs (setAddress info isAddr) = unknownId vs info := by
  unfold unknownId
  rw [setAddress_nodeType, setAddress_id]

theorem unknownId_of_child {first : FinshNode} {c s : Tree}
    (harity : Arity info (countSiblings (Tree.node first c s))) : unknownId vs info = false := by
  unfold unknownId
  cases hkind : info.nodeType with
  | id =>
    unfold Arity at harity
    rw [hkind] at harity
    cases harity.left
  | _ => rfl

theorem finshTypeCheck_errno (ht : t.Built) :
    (finshTypeCheck vs isAddr t errno).2 ≠ FinshError.ok <->
      errno ≠ FinshError.ok ∨ t.any (fun info _ => unknownId vs info) = true := by
  induction t generalizing isAddr errno with
  | null => simp [finshTypeCheck, Tree.any]
  | node info child sibling ihc ihs =>
    rcases ht with ⟨harity, hchild, hsibling⟩
    cases child with
    | null =>
      have hsib := @ihs errno false hsibling
      simp only [finshTypeCheck, Tree.info, Tree.any, leafType_errno, hsib,
        unknownId_setAddress, Bool.or_eq_true]
      grind
    | node first c s =>
      have hc := @ihc errno (childAddress info isAddr) hchild
      have hsib := @ihs (finshTypeCheck vs (childAddress info isAddr) (Tree.node first c s) errno).2
        false hsibling
      have hnot : unknownId vs info = false := unknownId_of_child harity
      have hfirst : exists first', (finshTypeCheck vs (childAddress info isAddr)
          (Tree.node first c s) errno).1.info = some first' := by
        rw [finshTypeCheck_node]
        exact ⟨_, rfl⟩
      rcases hfirst with ⟨first', hfirst⟩
      rw [finshTypeCheck]
      simp only [hfirst]
      rw [hsib, hc, Tree.any.eq_2 _ info]
      simp only [hnot, Bool.false_or, Bool.or_eq_true]
      exact or_assoc

theorem compileStore_errno {dataType : Nat} : (compileStore dataType errno).2 ≠ FinshError.ok <->
      errno ≠ FinshError.ok ∨ typed dataType = false := by
  unfold compileStore typed
  cases widthOf dataType <;> simp

theorem compileAssign_errno {t' : Tree} (hkind : info.nodeType = NodeType.sysAssign)
    (hfirst : SameFirst (checkedType vs info child) child t') :
    (compileAssign t' errno).2 ≠ FinshError.ok <->
      errno ≠ FinshError.ok ∨ untypedTarget vs info child = true := by
  cases child with
  | null =>
    cases t' with
    | null => simp [compileAssign, Tree.info, untypedTarget]
    | node first' c' s' => cases hfirst
  | node first c s =>
    cases t' with
    | null => cases hfirst
    | node first' c' s' =>
      have htype : first'.dataType = checkedType vs first c := hfirst.right
      simp only [compileAssign, Tree.info, hfirst.left, htype, untypedTarget, hkind]
      cases first.nodeType with
      | id => simpa using compileStore_errno
      | sysGetvalue => simpa using compileStore_errno
      | _ => simp

theorem compileNode_errno {t' : Tree} (harity : Arity info (countSiblings child))
    (hfirst : SameFirst (checkedType vs info child) child t') (dataType : Nat) :
    (compileNode base vs { setAddress info isAddr with dataType := dataType } t' errno).2 ≠
        FinshError.ok <->
      errno ≠ FinshError.ok ∨ untypedTarget vs info child = true := by
  have hother : info.nodeType ≠ NodeType.sysAssign -> untypedTarget vs info child = false := by
    intro hne
    cases child with
    | null => rfl
    | node first c s => simp [untypedTarget, hne]
  unfold compileNode
  simp only [setAddress_nodeType]
  cases hkind : info.nodeType with
  | sysAssign => exact compileAssign_errno hkind hfirst
  | sysCast =>
    unfold Arity at harity
    rw [hkind] at harity
    cases harity
  | _ =>
    rw [hother (by rw [hkind]; decide)]
    simp

theorem finshCompile_errno (ht : t.Built) (errno' : FinshError) :
    (finshCompile base vs (finshTypeCheck vs isAddr t errno).1 errno').2 ≠ FinshError.ok <->
      errno' ≠ FinshError.ok ∨ t.any (untypedTarget vs) = true := by
  induction t generalizing isAddr errno errno' with
  | null => simp [finshTypeCheck, finshCompile, Tree.any]
  | node info child sibling ihc ihs =>
    rcases ht with ⟨harity, hchild, hsibling⟩
    rw [finshTypeCheck_node, finshCompile]
    simp only
    rw [ihs hsibling, compileNode_errno harity sameFirst_checked, ihc hchild, Tree.any.eq_2 _ info]
    simp only [Bool.or_eq_true]
    tauto

theorem compileStatements_errno (errno : FinshError) :
    (compileStatements base vs t errno).2 = (finshCompile base vs t errno).2 := by
  induction t generalizing errno with
  | null => rfl
  | node info child sibling _ ihs =>
    rw [compileStatements, finshCompile]
    simp only [finshCompile]
    rw [ihs]

theorem finshCompilerRun_errno (ht : t.Built) :
    (finshCompilerRun base vs t FinshError.ok).2 ≠ FinshError.ok <-> reported vs t = true := by
  unfold finshCompilerRun reported
  simp only
  rw [compileStatements_errno, finshCompile_errno ht, finshTypeCheck_errno ht,
    Tree.any_or (fun info _ => unknownId vs info) (untypedTarget vs)]
  simp

end Reports

/-!
## Stack
-/

def missingId (vs : List FinshVar) (info : FinshNode) : Nat :=
  if info.nodeType = NodeType.id ∧ loads vs info.id = false then 1 else 0

/-- The values that the names of a tree do not put on the stack. -/
def missing (vs : List FinshVar) : Tree -> Nat
  | Tree.null => 0
  | Tree.node info child sibling => missing vs child + missingId vs info + missing vs sibling

section Stack

variable {base : Nat} {vs : List FinshVar} {info : FinshNode} {t child sibling t' : Tree}
  {errno : FinshError} {isAddr : Bool} {d : Nat}

theorem turns_ldDword (x : Nat) : Turns (codeOp (Op.ld Width.dword) ++ finshCodeDword x) 0 0 1 :=
  @turns_instruction ⟨Op.ld Width.dword, finshCodeDword x⟩ rfl

theorem turns_ldValue (w : Width) (x : Nat) :
    Turns (codeOp (Op.ldValue w) ++ finshCodeDword x) 0 0 1 :=
  @turns_instruction ⟨Op.ldValue w, finshCodeDword x⟩ rfl

theorem turns_loadOne (w : Width) : Turns (loadOne w) 0 0 1 := by
  cases w with
  | byte => exact @turns_instruction ⟨Op.ld Width.byte, finshCodeByte 1⟩ rfl
  | word => exact @turns_instruction ⟨Op.ld Width.word, finshCodeWord 1⟩ rfl
  | dword => exact turns_ldDword 1

theorem turns_storeStep (op : BinOp) (w : Width) (address : Nat) :
    Turns (storeStep op w address) 0 1 1 :=
  ((((turns_ldValue w address).above 1).append ((turns_loadOne w).above 2)).append
    ((turns_op (Op.bin op w) rfl).above 1)).append (turns_op (Op.st w) rfl)

theorem turns_compileOp {op : Width -> Op} {a b : Nat} (htyped : typed info.dataType = true)
    (hop : forall w, Turns (codeOp (op w)) 0 a b) : Turns (compileOp op info) 0 a b := by
  unfold compileOp
  unfold typed at htyped
  cases hw : widthOf info.dataType with
  | none =>
    rw [hw] at htyped
    cases htyped
  | some w => exact hop w

theorem turns_compileStore (htyped : typed d = true) : Turns (compileStore d errno).1 0 2 1 := by
  unfold compileStore
  unfold typed at htyped
  cases hw : widthOf d with
  | none =>
    rw [hw] at htyped
    cases htyped
  | some w => exact (turns_op (Op.st w) rfl).append (turns_op (Op.ldValueStack w) rfl)

theorem turns_compileId (hid : info.id ≠ NodeId.none) :
    Turns (compileId base vs info) (if loads vs info.id = false then 1 else 0) 0 1 := by
  have hvariable : forall type address, Turns (loadVariable info type address)
      (if (loadWidth type).isSome = false then 1 else 0) 0 1 := by
    intro type address
    unfold loadVariable
    cases loadWidth type with
    | none => exact turns_lost
    | some w =>
      simp only
      split
      · exact turns_ldDword address
      · exact turns_ldValue w address
  unfold compileId
  cases hcase : info.id with
  | none => exact absurd hcase hid
  | var index => exact hvariable _ _
  | sysvar sysvar => exact hvariable _ _
  | syscall f => exact turns_ldDword f.func

/-- The operand of a step: a name, if the width is known. -/
def namedOperand (base : Nat) (info : FinshNode) (child : Tree) : Option (Width × Nat) :=
  match child.info with
  | none => none
  | some first =>
    match first.nodeType, widthOf info.dataType with
    | NodeType.id, some w => some (w, first.id.entry base + valueOffset)
    | _, _ => none

theorem compilePrestep_eq (op : BinOp) : compilePrestep base op info t' =
    match namedOperand base info t' with
    | none => []
    | some (w, address) => storeStep op w address ++ codeOp (Op.ldValueStack Width.dword) := by
  unfold compilePrestep namedOperand
  cases t'.info with
  | none => rfl
  | some first =>
    dsimp only
    cases widthOf info.dataType with
    | none => cases first.nodeType <;> rfl
    | some w => cases first.nodeType <;> rfl

theorem compileStep_eq (op : BinOp) : compileStep base op info t' =
    match namedOperand base info t' with
    | none => []
    | some (w, address) => codeOp (Op.ld Width.dword) ++ finshCodeDword address ++
        storeStep op w address ++ codeOp Op.pop := by
  unfold compileStep namedOperand
  cases t'.info with
  | none => rfl
  | some first =>
    dsimp only
    cases widthOf info.dataType with
    | none => cases first.nodeType <;> rfl
    | some w => cases first.nodeType <;> rfl

theorem namedOperand_isSome (hfirst : SameFirst d child t') (hd : info.dataType = d) :
    (namedOperand base info t').isSome = (isName child && typed d) := by
  cases child with
  | null =>
    cases t' with
    | null => rfl
    | node first' c' s' => cases hfirst
  | node first c s =>
    cases t' with
    | null => cases hfirst
    | node first' c' s' =>
      simp only [namedOperand, Tree.info, hfirst.left, hd, isName, typed]
      cases widthOf d with
      | none => cases first.nodeType <;> rfl
      | some w => cases first.nodeType <;> rfl

theorem namedOperand_of_name (hfirst : SameFirst d child t') (hname : isName child = true)
    (htyped : typed d = true) (hd : info.dataType = d) :
    exists w address, namedOperand base info t' = some (w, address) := by
  have hsome : (namedOperand base info t').isSome = true := by
    rw [namedOperand_isSome hfirst hd, hname, htyped]
    rfl
  rcases Option.isSome_iff_exists.mp hsome with ⟨⟨w, address⟩, hnamed⟩
  exact ⟨w, address, hnamed⟩

theorem turns_compilePrestep (op : BinOp) (hfirst : SameFirst d child t')
    (hname : isName child = true) (htyped : typed d = true) (hd : info.dataType = d) :
    Turns (compilePrestep base op info t') 0 1 1 := by
  rcases @namedOperand_of_name base info child t' d hfirst hname htyped hd with
    ⟨w, address, hnamed⟩
  rw [compilePrestep_eq, hnamed]
  exact (turns_storeStep op w address).append (turns_op (Op.ldValueStack Width.dword) rfl)

theorem turns_compileStep (op : BinOp) (hfirst : SameFirst d child t')
    (hname : isName child = true) (htyped : typed d = true) (hd : info.dataType = d) :
    Turns (compileStep base op info t') 0 1 1 := by
  rcases @namedOperand_of_name base info child t' d hfirst hname htyped hd with
    ⟨w, address, hnamed⟩
  rw [compileStep_eq, hnamed]
  exact (((turns_ldDword address).above 1).append
    ((turns_storeStep op w address).above 1)).append ((turns_op Op.pop rfl).above 1)

theorem turns_compileAssign (hfirst : SameFirst d child t')
    (hassign : assignable d child = true) : Turns (compileAssign t' errno).1 0 2 1 := by
  cases child with
  | null => cases hassign
  | node first c s =>
    cases t' with
    | null => cases hfirst
    | node first' c' s' =>
      simp only [compileAssign, Tree.info, hfirst.left, hfirst.right]
      simp only [assignable] at hassign
      cases hkind : first.nodeType with
      | id =>
        rw [hkind] at hassign
        exact turns_compileStore hassign
      | sysGetvalue =>
        rw [hkind] at hassign
        exact turns_compileStore hassign
      | _ =>
        rw [hkind] at hassign
        cases hassign

theorem turns_compileFunc (hone : 1 ≤ countSiblings t')
    (hcount : countSiblings t' ≤ finshNodeMax + 1) :
    Turns (compileFunc t') 0 (countSiblings t') 1 := by
  cases t' with
  | null => cases hone
  | node first c s =>
    have hturns := @turns_instruction ⟨Op.call, finshCodeByte (countSiblings s)⟩ rfl
    have hparameters : (BitVec.ofNat 8 (countSiblings s)).toNat = countSiblings s := by
      rw [BitVec.toNat_ofNat]
      apply Nat.mod_eq_of_lt
      have hmax : finshNodeMax = 16 := rfl
      simp only [countSiblings] at hcount
      omega
    have htakes : Instruction.takes ⟨Op.call, finshCodeByte (countSiblings s)⟩ =
        countSiblings s + 1 := congrArg (fun n => n + 1) hparameters
    rw [htakes] at hturns
    exact hturns

theorem turns_compileNode (harity : Arity info (countSiblings child))
    (hfirst : SameFirst d child t') (hcount : countSiblings t' = countSiblings child)
    (hworks : info.nodeType ≠ NodeType.id -> works vs (setAddress info isAddr) d child = true) :
    Turns (compileNode base vs { setAddress info isAddr with dataType := d } t' errno).1
      (missingId vs info) (countSiblings child) 1 := by
  have hnone : info.nodeType ≠ NodeType.id -> missingId vs info = 0 := by
    intro hne
    exact if_neg fun hboth => hne hboth.left
  unfold Arity at harity
  unfold works at hworks
  unfold compileNode
  simp only [setAddress_nodeType] at hworks ⊢
  cases hkind : info.nodeType with
  | id =>
    rw [hkind] at harity
    have hid : ({ setAddress info isAddr with dataType := d } : FinshNode).id = info.id :=
      setAddress_id
    have hturns := @turns_compileId base vs { setAddress info isAddr with dataType := d }
      (by rw [hid]; exact harity.right)
    rw [hid] at hturns
    have hmissing : missingId vs info = if loads vs info.id = false then 1 else 0 := by
      simp only [missingId, hkind, true_and]
    rw [harity.left, hmissing]
    exact hturns
  | valueChar =>
    rw [hkind] at harity
    rw [hnone (by rw [hkind]; decide), harity]
    exact @turns_instruction ⟨Op.ld Width.byte, finshCodeByte _⟩ rfl
  | valueInt | valueLong | valueString | valueNull =>
    rw [hkind] at harity
    rw [hnone (by rw [hkind]; decide), harity]
    exact turns_ldDword _
  | sysAdd | sysSub | sysMul | sysDiv | sysMod | sysAnd | sysOr | sysXor | sysShl | sysShr =>
    rw [hkind] at harity hworks
    rw [hnone (by rw [hkind]; decide), harity]
    exact turns_compileOp (hworks (by decide)) fun w => turns_op _ rfl
  | sysBitwise =>
    rw [hkind] at harity hworks
    rw [hnone (by rw [hkind]; decide), harity]
    exact turns_compileOp (hworks (by decide)) fun w => turns_op _ rfl
  | sysFunc =>
    rw [hkind] at harity
    rw [hnone (by rw [hkind]; decide), ← hcount]
    rw [← hcount] at harity
    exact turns_compileFunc harity.left harity.right
  | sysAssign =>
    rw [hkind] at harity hworks
    rw [hnone (by rw [hkind]; decide), harity]
    exact turns_compileAssign hfirst (hworks (by decide))
  | sysCast | sysNull =>
    rw [hkind] at harity
    cases harity
  | sysPreinc | sysPredec =>
    rw [hkind] at harity hworks
    rw [hnone (by rw [hkind]; decide), harity]
    rcases Bool.and_eq_true_iff.mp (hworks (by decide)) with ⟨hname, htyped⟩
    exact turns_compilePrestep _ hfirst hname htyped rfl
  | sysInc | sysDec =>
    rw [hkind] at harity hworks
    rw [hnone (by rw [hkind]; decide), harity]
    rcases Bool.and_eq_true_iff.mp (hworks (by decide)) with ⟨hname, htyped⟩
    exact turns_compileStep _ hfirst hname htyped rfl
  | sysGetvalue =>
    rw [hkind] at harity hworks
    rw [hnone (by rw [hkind]; decide), harity]
    simp only [compileGetvalue]
    split
    · exact turns_nil.above 1
    · rename_i haddress
      have htyped : typed d = true := by simpa [haddress] using hworks (by decide)
      exact turns_compileOp htyped fun w => turns_op _ rfl
  | sysGetaddr =>
    rw [hkind] at harity
    rw [hnone (by rw [hkind]; decide), harity]
    exact turns_nil.above 1

end Stack

/-!
## Instructions
-/

section Emits

variable {base : Nat} {vs : List FinshVar} {info : FinshNode} {t child sibling t' : Tree}
  {errno : FinshError} {isAddr : Bool} {d : Nat} {op : Width -> Op}

theorem mem_widths (op : Width -> Op) (w : Width) : op w ∈ widths op := by
  cases w <;> simp [widths]

theorem emits_op (w : Width) (code : List Byte) : emits op (codeOp (op w) ++ code) = true := by
  unfold emits
  rw [disassemble_op, List.any_cons, decide_eq_true (mem_widths op w), Bool.true_or]

theorem emits_append {code code' : List Byte} {lost a b : Nat} (ht : Turns code lost a b)
    (hemits : emits op code' = true) : emits op (code ++ code') = true := by
  rcases ht with ⟨is, ⟨hformed, rfl⟩, _⟩
  unfold emits at hemits ⊢
  rw [disassemble_assemble hformed, List.any_append, hemits, Bool.or_true]

theorem emits_compileOp : emits op (compileOp op info) = typed info.dataType := by
  unfold compileOp typed
  cases widthOf info.dataType with
  | none => rfl
  | some w => exact emits_op w []

theorem emits_compileStore : emits Op.st (compileStore d errno).1 = typed d := by
  unfold compileStore typed
  cases widthOf d with
  | none => rfl
  | some w => exact emits_op w _

theorem emits_storeStep (op : BinOp) (w : Width) (address : Nat) (code : List Byte) :
    emits (Op.bin op) (storeStep op w address ++ code) = true := by
  unfold storeStep
  rw [List.append_assoc, List.append_assoc, List.append_assoc (codeOp _ ++ _)]
  exact emits_append (turns_ldValue w address) (emits_append (turns_loadOne w) (emits_op w _))

theorem emits_compilePrestep (op : BinOp) (hfirst : SameFirst d child t') (hd : info.dataType = d) :
    emits (Op.bin op) (compilePrestep base op info t') = (isName child && typed d) := by
  rw [← @namedOperand_isSome base info child t' d hfirst hd, compilePrestep_eq]
  cases namedOperand base info t' with
  | none => rfl
  | some operand => exact emits_storeStep op operand.1 operand.2 _

theorem emits_compileStep (op : BinOp) (hfirst : SameFirst d child t') (hd : info.dataType = d) :
    emits (Op.bin op) (compileStep base op info t') = (isName child && typed d) := by
  rw [← @namedOperand_isSome base info child t' d hfirst hd, compileStep_eq]
  cases namedOperand base info t' with
  | none => rfl
  | some operand =>
    dsimp only
    rw [List.append_assoc]
    exact emits_append (turns_ldDword operand.2) (emits_storeStep op operand.1 operand.2 _)

theorem emits_compileAssign (hfirst : SameFirst d child t') :
    emits Op.st (compileAssign t' errno).1 = assignable d child := by
  cases child with
  | null =>
    cases t' with
    | null => rfl
    | node first' c' s' => cases hfirst
  | node first c s =>
    cases t' with
    | null => cases hfirst
    | node first' c' s' =>
      simp only [compileAssign, Tree.info, hfirst.left, hfirst.right, assignable]
      cases first.nodeType with
      | id => exact emits_compileStore
      | sysGetvalue => exact emits_compileStore
      | _ => rfl

theorem emits_compileId (hid : info.id ≠ NodeId.none) :
    emits Op.ld (compileId base vs { setAddress info true with dataType := d }) =
      loads vs info.id := by
  have hvariable : forall (i : FinshNode) type address, i.address = true ->
      emits Op.ld (loadVariable i type address) = (loadWidth type).isSome := by
    intro i type address haddr
    unfold loadVariable
    cases loadWidth type with
    | none => rfl
    | some w =>
      simp only [haddr, if_true]
      exact emits_op Width.dword _
  rcases info with ⟨nodeType, dataType, id, address, value⟩
  cases id with
  | none => exact absurd rfl hid
  | syscall f => exact emits_op Width.dword _
  | var index => exact hvariable _ _ _ (Bool.or_true address)
  | sysvar sysvar => exact hvariable _ _ _ (Bool.or_true address)

theorem addressed_checked (hchild : child.Built) :
    addressed base vs (finshTypeCheck vs true child errno).1 = located vs child := by
  cases child with
  | null => rfl
  | node first c s =>
    rw [finshTypeCheck_node]
    simp only [addressed, located, setAddress_nodeType]
    cases hkind : first.nodeType with
    | id =>
      have harity : countSiblings c = 0 ∧ first.id ≠ NodeId.none := by
        have hfirst := hchild.left
        unfold Arity at hfirst
        rwa [hkind] at hfirst
      have hemits := @emits_compileId base vs first (checkedType vs first c) harity.right
      have hkind' : (setAddress first true).nodeType = NodeType.id := by
        rw [setAddress_nodeType, hkind]
      rw [← hemits]
      rfl
    | _ => rfl

theorem contributes_iff (harity : Arity info (countSiblings child)) (hchild : child.Built)
    (hd : d = checkedType vs info child) :
    contributes base vs { setAddress info isAddr with dataType := d }
        (finshTypeCheck vs (childAddress info isAddr) child errno).1 = true <->
      (info.nodeType ≠ NodeType.id -> works vs (setAddress info isAddr) d child = true) := by
  have hfirst : SameFirst d child (finshTypeCheck vs (childAddress info isAddr) child errno).1 := by
    rw [hd]
    exact sameFirst_checked
  unfold Arity at harity
  unfold contributes works
  simp only [setAddress_nodeType]
  cases hkind : info.nodeType with
  | id | valueChar | valueInt | valueLong | valueString | valueNull | sysFunc =>
    simp [operatorOf]
  | sysAdd | sysSub | sysMul | sysDiv | sysMod | sysAnd | sysOr | sysXor | sysShl | sysShr
  | sysBitwise =>
    simp [operatorOf, compileNode, emits_compileOp]
  | sysAssign =>
    simp [operatorOf, compileNode, emits_compileAssign hfirst]
  | sysPreinc | sysPredec =>
    simp [operatorOf, compileNode, emits_compilePrestep _ hfirst]
  | sysInc | sysDec =>
    simp [operatorOf, compileNode, emits_compileStep _ hfirst]
  | sysGetvalue =>
    simp only [operatorOf, compileNode, compileGetvalue]
    cases (setAddress info isAddr).address <;> simp [emits_compileOp]
  | sysGetaddr =>
    have hchildAddress : childAddress info isAddr = true := by
      unfold childAddress
      rw [hkind]
    rw [hchildAddress]
    simp [operatorOf, addressed_checked hchild]
  | sysCast | sysNull =>
    rw [hkind] at harity
    cases harity

end Emits

/-!
## Lines
-/

section Lines

variable {base : Nat} {vs : List FinshVar} {info : FinshNode} {t child sibling : Tree}
  {errno : FinshError} {isAddr : Bool}

theorem countSiblings_checked :
    countSiblings (finshTypeCheck vs isAddr t errno).1 = countSiblings t := by
  induction t generalizing isAddr errno with
  | null => rfl
  | node info child sibling _ ihs =>
    rw [finshTypeCheck_node]
    exact congrArg (fun n => n + 1) ihs

theorem allContribute_node : allContribute base vs
        (finshTypeCheck vs isAddr (Tree.node info child sibling) errno).1 = true <->
      contributes base vs { setAddress info isAddr with dataType := checkedType vs info child }
          (finshTypeCheck vs (childAddress info isAddr) child errno).1 = true ∧
        allContribute base vs (finshTypeCheck vs (childAddress info isAddr) child errno).1 =
          true ∧
        allContribute base vs (finshTypeCheck vs false sibling
          (finshTypeCheck vs (childAddress info isAddr) child errno).2).1 = true := by
  rw [finshTypeCheck_node]
  simp only [allContribute, Bool.and_eq_true, and_assoc]

theorem turns_finshCompile (ht : t.Built)
    (hall : allContribute base vs (finshTypeCheck vs isAddr t errno).1 = true)
    (errno' : FinshError) :
    Turns (finshCompile base vs (finshTypeCheck vs isAddr t errno).1 errno').1
      (missing vs t) 0 (countSiblings t) := by
  induction t generalizing isAddr errno errno' with
  | null => exact turns_nil
  | node info child sibling ihc ihs =>
    rcases ht with ⟨harity, hchild, hsibling⟩
    rcases allContribute_node.mp hall with ⟨hnode, hallc, halls⟩
    rw [finshTypeCheck_node, finshCompile]
    have hworks := (contributes_iff harity hchild rfl).mp hnode
    have hown := @turns_compileNode base vs info child
      (finshTypeCheck vs (childAddress info isAddr) child errno).1
      (finshCompile base vs (finshTypeCheck vs (childAddress info isAddr) child errno).1
        errno').2 isAddr (checkedType vs info child) harity sameFirst_checked
      countSiblings_checked hworks
    exact ((ihc hchild hallc errno').append hown).append ((ihs hsibling halls _).above 1)

theorem works_iff (harity : Arity info (countSiblings child)) (hchild : child.Built) :
    works vs (setAddress info isAddr) (checkedType vs info child) child = true <->
      contributes base vs { setAddress info isAddr with dataType := checkedType vs info child }
          (finshTypeCheck vs (childAddress info isAddr) child errno).1 = true ∧
        missingId vs info = 0 := by
  rw [contributes_iff harity hchild rfl]
  unfold missingId
  by_cases hkind : info.nodeType = NodeType.id
  · have hworks : works vs (setAddress info isAddr) (checkedType vs info child) child =
        loads vs info.id := by
      unfold works
      rw [setAddress_nodeType, hkind, setAddress_id]
    rw [hworks]
    cases loads vs info.id <;> simp [hkind]
  · simp [hkind]

theorem clean_iff (ht : t.Built) : clean vs isAddr t = true <->
      allContribute base vs (finshTypeCheck vs isAddr t errno).1 = true ∧ missing vs t = 0 := by
  induction t generalizing isAddr errno with
  | null => exact ⟨fun _ => ⟨rfl, rfl⟩, fun _ => rfl⟩
  | node info child sibling ihc ihs =>
    rcases ht with ⟨harity, hchild, hsibling⟩
    rw [allContribute_node]
    simp only [clean, missing, Bool.and_eq_true, Nat.add_eq_zero_iff]
    rw [@works_iff base vs info child errno isAddr harity hchild,
      @ihc errno (childAddress info isAddr) hchild,
      @ihs (finshTypeCheck vs (childAddress info isAddr) child errno).2 false hsibling]
    tauto

theorem heightAfter_statement {lost : Nat} {code : List Byte} (ht : Turns code lost 0 1) :
    heightAfter (disassemble 0 code) 0 = some 1 <-> lost = 0 := by
  rcases ht with ⟨is, his, hmoves, hruns⟩
  rw [his.disassemble_eq]
  constructor
  · intro hone
    have heq := hmoves 0 1 hone
    omega
  · intro hlost
    rcases Option.isSome_iff_exists.mp (hruns hlost 0 (Nat.le_refl _)) with ⟨h', hrun⟩
    have heq := hmoves 0 h' hrun
    rw [hrun]
    congr 1
    omega

theorem oneValueEach_iff (ht : t.Built)
    (hall : allContribute base vs (finshTypeCheck vs false t errno).1 = true) :
    oneValueEach base vs (finshTypeCheck vs false t errno).1 = true <-> missing vs t = 0 := by
  induction t generalizing errno with
  | null => exact ⟨fun _ => rfl, fun _ => rfl⟩
  | node info child sibling _ ihs =>
    rcases ht with ⟨harity, hchild, hsibling⟩
    rcases allContribute_node.mp hall with ⟨hnode, hallc, halls⟩
    have hone : (Tree.node info child Tree.null).Built := ⟨harity, hchild, trivial⟩
    have hallone := (@allContribute_node base vs info child Tree.null errno false).mpr
      ⟨hnode, hallc, rfl⟩
    have hturns := turns_finshCompile hone hallone FinshError.ok
    rw [finshTypeCheck_node] at hturns ⊢
    simp only [finshTypeCheck] at hturns
    simp only [oneValueEach, Bool.and_eq_true, decide_eq_true_eq]
    rw [heightAfter_statement hturns, ihs hsibling halls]
    simp only [missing]
    omega

theorem operatorsKept_iff {root : Tree} (hroot : root.Built) :
    OperatorsKept base vs root <-> reported vs root = true ∨ clean vs false root = true := by
  unfold OperatorsKept
  rw [finshCompilerRun_errno hroot, @clean_iff base vs root FinshError.ok false hroot]
  refine or_congr_right (and_congr_right fun hall => ?_)
  exact oneValueEach_iff hroot hall

end Lines

def sumLine : Parser (List Token) :=
  startLine [⟨TokenType.identifier, ['a'], 0, FinshError.ok⟩, plain TokenType.inc,
      plain TokenType.add, ⟨TokenType.valueInt, [], 4, FinshError.ok⟩,
      plain TokenType.semicolon]
    { finshInit 4096 with
      globalVariable := ⟨['a'], FinshType.int, 0⟩ ::
        List.replicate 7 ⟨[], FinshType.unknown, 0⟩ }

def callLine : Parser (List Token) :=
  startLine [⟨TokenType.identifier, ['f'], 0, FinshError.ok⟩, plain TokenType.leftParen,
      ⟨TokenType.valueInt, [], 1, FinshError.ok⟩, plain TokenType.rightParen,
      plain TokenType.add, ⟨TokenType.valueInt, [], 2, FinshError.ok⟩,
      plain TokenType.semicolon]
    (finshInit 4096)

def callSymbols : Symbols :=
  ⟨fun _ => none, fun name => if name = ['f'] then some ⟨0x08010000, 0x08000101⟩ else none⟩

end RtThread.Finsh
