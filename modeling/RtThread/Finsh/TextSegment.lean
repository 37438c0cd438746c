import RtThread.Finsh.Compiler
import RtThread.Finsh.Parser

/-!
# The size of the code of a line

Every node adds a number of bytes that depends on its kind and its data type only.
The number of nodes is bounded, but not the sum of these sizes: the code of a line may
be longer than the text segment.
-/

namespace RtThread.Finsh

open ByteMemory

/-- The data type that the type check gives to a node: that of its leftmost
descendant. -/
def checkedType (vs : List FinshVar) : FinshNode -> Tree -> Nat
  | info, Tree.null => (leafType vs info FinshError.ok).1.dataType
  | _, Tree.node info child _ => checkedType vs info child

/-- The bytes of a node for an operator of its data type. -/
def opSize (dataType : Nat) : Nat := if (widthOf dataType).isSome then 1 else 0

def loadSize (type : FinshType) : Nat := if (loadWidth type).isSome then 5 else 0

/-- The bytes that an increment adds to those of the variable, besides the constant. -/
def stepSize (fixed : Nat) (dataType : Nat) : Nat :=
  match widthOf dataType with
  | some Width.byte => fixed + 2
  | some Width.word => fixed + 3
  | some Width.dword => fixed + 5
  | none => 0

/-- The bytes of an increment, for the first child of its node. -/
def incSize (fixed dataType : Nat) : Tree -> Nat
  | Tree.null => 0
  | Tree.node first _ _ =>
    if first.nodeType = NodeType.id then stepSize fixed dataType else 0

/-- The bytes of an assignment, for the first child of its node. -/
def assignSize (dataType : Nat) : Tree -> Nat
  | Tree.null => 0
  | Tree.node first _ _ =>
    match first.nodeType with
    | NodeType.id => 2 * opSize dataType
    | NodeType.sysGetvalue => 2 * opSize (dataType % 0x10)
    | _ => 0

/-- The bytes of a node by its kind, with the data type that it is checked to have, and
with that of its first child. -/
def nodeSize (vs : List FinshVar) (info : FinshNode) (dataType : Nat) (child : Tree) : Nat :=
  match info.nodeType with
  | NodeType.id =>
    match info.id with
    | NodeId.syscall _ => 5
    | NodeId.sysvar v => loadSize v.type
    | NodeId.var index => loadSize (varType vs index)
    | NodeId.none => 0
  | NodeType.valueChar => 2
  | NodeType.valueInt | NodeType.valueLong | NodeType.valueNull
  | NodeType.valueString => 5
  | NodeType.sysAdd | NodeType.sysSub | NodeType.sysMul | NodeType.sysDiv
  | NodeType.sysMod | NodeType.sysAnd | NodeType.sysOr | NodeType.sysXor
  | NodeType.sysBitwise | NodeType.sysShl | NodeType.sysShr => opSize dataType
  | NodeType.sysFunc => if child.isNull then 0 else 2
  | NodeType.sysAssign => assignSize dataType child
  | NodeType.sysPreinc | NodeType.sysPredec => incSize 8 dataType child
  | NodeType.sysInc | NodeType.sysDec => incSize 13 dataType child
  | NodeType.sysNull => 4
  | NodeType.sysGetvalue => if info.address then 0 else opSize dataType
  | NodeType.sysGetaddr => 0
  | NodeType.sysCast => 0

/-- The bytes of a tree; whether a node is an address is passed down as the type check
does. -/
def treeSize (vs : List FinshVar) : Bool -> Tree -> Nat
  | _, Tree.null => 0
  | isAddr, Tree.node info child sibling =>
    treeSize vs (childAddress info isAddr) child +
      nodeSize vs (setAddress info isAddr) (checkedType vs info child) child +
      treeSize vs false sibling

/-- The bytes of a line, with one between two statements. -/
def lineSize (vs : List FinshVar) (root : Tree) : Nat :=
  treeSize vs false root + (countSiblings root - 1)

section Size

variable {vs : List FinshVar} {info first : FinshNode} {child sibling t c s : Tree}
  {errno : FinshError} {isAddr : Bool} {base : Nat}

theorem leafType_eq : leafType vs info errno =
    ({ info with dataType := (leafType vs info FinshError.ok).1.dataType },
      (leafType vs info errno).2) := by
  rcases info with ⟨nodeType, dataType, id, address, value⟩
  cases nodeType with
  | id =>
    cases id with
    | none => rfl
    | syscall f => rfl
    | var index =>
      simp only [leafType, setVarType]
      cases dataTypeOf (varType vs index) <;> rfl
    | sysvar v =>
      simp only [leafType, setVarType]
      cases dataTypeOf v.type <;> rfl
  | _ => rfl

theorem leafType_setAddress : (leafType vs (setAddress info isAddr) FinshError.ok).1.dataType =
      (leafType vs info FinshError.ok).1.dataType := by
  rcases info with ⟨nodeType, dataType, id, address, value⟩
  cases nodeType with
  | id =>
    cases id with
    | none => rfl
    | syscall f => rfl
    | var index =>
      simp only [leafType, setAddress, setVarType]
      cases dataTypeOf (varType vs index) <;> rfl
    | sysvar v =>
      simp only [leafType, setAddress, setVarType]
      cases dataTypeOf v.type <;> rfl
  | _ => cases id <;> rfl

theorem finshTypeCheck_node : (finshTypeCheck vs isAddr (Tree.node info child sibling) errno).1 =
      Tree.node { setAddress info isAddr with dataType := checkedType vs info child }
        (finshTypeCheck vs (childAddress info isAddr) child errno).1
        (finshTypeCheck vs false sibling
          (finshTypeCheck vs (childAddress info isAddr) child errno).2).1 := by
  induction child generalizing info isAddr sibling errno with
  | null =>
    simp only [finshTypeCheck, Tree.info, checkedType]
    rw [leafType_eq, leafType_setAddress]
  | node i c s ihc ihs =>
    have hchild := @ihc i s errno (childAddress info isAddr)
    rw [finshTypeCheck]
    simp only [hchild, Tree.info, checkedType]

def SameFirst (dataType : Nat) : Tree -> Tree -> Prop
  | Tree.null, Tree.null => True
  | Tree.node first _ _, Tree.node first' _ _ =>
    first'.nodeType = first.nodeType ∧ first'.dataType = dataType
  | _, _ => False

theorem sameFirst_checked : SameFirst (checkedType vs info child) child
      (finshTypeCheck vs isAddr child errno).1 := by
  cases child with
  | null => trivial
  | node first c s =>
    rw [finshTypeCheck_node]
    refine ⟨?_, rfl⟩
    show (setAddress first isAddr).nodeType = first.nodeType
    unfold setAddress
    split <;> rfl

theorem compileOp_length {op : Width -> Op} :
    (compileOp op info).length = opSize info.dataType := by
  unfold compileOp opSize
  cases widthOf info.dataType <;> rfl

theorem loadVariable_length {type : FinshType} {address : Nat} :
    (loadVariable info type address).length = loadSize type := by
  unfold loadVariable loadSize
  cases loadWidth type <;> rfl

theorem compileStore_length {dataType : Nat} :
    (compileStore dataType errno).1.length = 2 * opSize dataType := by
  unfold compileStore opSize
  cases widthOf dataType <;> rfl

variable {d : Nat} {t' : Tree}

theorem compilePrestep_length (i : FinshNode) {op : BinOp} (hfirst : SameFirst d t t')
    (hd : i.dataType = d) :
    (compilePrestep base op i t').length = incSize 8 d t := by
  cases t with
  | null =>
    cases t' with
    | null => rfl
    | node first' c' s' => cases hfirst
  | node first c s =>
    cases t' with
    | null => cases hfirst
    | node first' c' s' =>
      simp only [compilePrestep, Tree.info, hfirst.left, hd, incSize, stepSize]
      cases hw : widthOf d with
      | none => cases first.nodeType <;> rfl
      | some w => cases w <;> cases first.nodeType <;> rfl

theorem compileStep_length (i : FinshNode) {op : BinOp} (hfirst : SameFirst d t t')
    (hd : i.dataType = d) :
    (compileStep base op i t').length = incSize 13 d t := by
  cases t with
  | null =>
    cases t' with
    | null => rfl
    | node first' c' s' => cases hfirst
  | node first c s =>
    cases t' with
    | null => cases hfirst
    | node first' c' s' =>
      simp only [compileStep, Tree.info, hfirst.left, hd, incSize, stepSize]
      cases hw : widthOf d with
      | none => cases first.nodeType <;> rfl
      | some w => cases w <;> cases first.nodeType <;> rfl

theorem compileAssign_length (hfirst : SameFirst d t t') :
    (compileAssign t' errno).1.length = assignSize d t := by
  cases t with
  | null =>
    cases t' with
    | null => rfl
    | node first' c' s' => cases hfirst
  | node first c s =>
    cases t' with
    | null => cases hfirst
    | node first' c' s' =>
      simp only [compileAssign, Tree.info, hfirst.left, hfirst.right, assignSize]
      cases first.nodeType with
      | id => exact compileStore_length
      | sysGetvalue => exact compileStore_length
      | _ => rfl

theorem compileFunc_length (hfirst : SameFirst d t t') :
    (compileFunc t').length = if t.isNull then 0 else 2 := by
  cases t with
  | null =>
    cases t' with
    | null => rfl
    | node first' c' s' => cases hfirst
  | node first c s =>
    cases t' with
    | null => cases hfirst
    | node first' c' s' => rfl

theorem compileNode_length (hfirst : SameFirst d t t') :
    (compileNode base vs { info with dataType := d } t' errno).1.length = nodeSize vs info d t := by
  cases hkind : info.nodeType with
  | id =>
    simp only [compileNode, nodeSize, hkind, compileId]
    cases info.id with
    | none => rfl
    | syscall f => rfl
    | var index => exact loadVariable_length
    | sysvar v => exact loadVariable_length
  | sysFunc =>
    simp only [compileNode, nodeSize, hkind]
    exact compileFunc_length hfirst
  | sysAssign =>
    simp only [compileNode, nodeSize, hkind]
    exact compileAssign_length hfirst
  | sysPreinc | sysPredec =>
    simp only [compileNode, nodeSize, hkind]
    exact compilePrestep_length { info with dataType := d } hfirst rfl
  | sysInc | sysDec =>
    simp only [compileNode, nodeSize, hkind]
    exact compileStep_length { info with dataType := d } hfirst rfl
  | sysGetvalue =>
    simp only [compileNode, nodeSize, hkind, compileGetvalue]
    split
    · rfl
    · exact compileOp_length
  | sysAdd | sysSub | sysMul | sysDiv | sysMod | sysAnd | sysOr | sysXor | sysBitwise
  | sysShl | sysShr =>
    simp only [compileNode, nodeSize, hkind]
    exact compileOp_length
  | valueChar | valueInt | valueLong | valueString | valueNull | sysCast | sysGetaddr
  | sysNull =>
    simp only [compileNode, nodeSize, hkind]
    rfl

theorem finshCompile_length (errno' : FinshError) :
    (finshCompile base vs (finshTypeCheck vs isAddr t errno).1 errno').1.length =
      treeSize vs isAddr t := by
  induction t generalizing isAddr errno errno' with
  | null => rfl
  | node info child sibling ihc ihs =>
    rw [finshTypeCheck_node, finshCompile]
    simp only [List.length_append, treeSize]
    rw [ihc, ihs, compileNode_length sameFirst_checked]

theorem compileStatements_length (errno' : FinshError) :
    (compileStatements base vs (finshTypeCheck vs false t errno).1 errno').1.length =
      lineSize vs t := by
  unfold lineSize
  induction t generalizing errno errno' with
  | null => rfl
  | node info child sibling _ ihs =>
    have hone := @finshCompile_length vs (Tree.node info child Tree.null) errno false base errno'
    rw [finshTypeCheck_node] at hone ⊢
    simp only [finshTypeCheck, treeSize, Nat.add_zero] at hone
    rw [compileStatements]
    simp only [List.length_append, hone, ihs, treeSize, countSiblings]
    cases sibling with
    | null => simp [finshTypeCheck, Tree.isNull, treeSize, countSiblings]
    | node i c s =>
      rw [finshTypeCheck_node]
      simp only [Tree.isNull, Bool.false_eq_true, if_false, countSiblings]
      have hpop : (codeOp Op.pop).length = 1 := rfl
      rw [hpop]
      omega

end Size

/-!
## Lines
-/

/-- The offsets in the text segment that code is written to. -/
def textWrites (code : List Byte) : List Nat := List.range code.length

/-- For every line that is parsed without an error, the compiler writes inside the text
segment if and only if the sizes of the nodes leave room. -/
theorem text_writes_inside_iff {σ : Type} {next : σ -> Token × σ} {env : Symbols}
    {fuel base : Nat} {p p' : Parser σ} {root : Tree}
    (_hrun : finshParserRun next env fuel p = some (root, p'))
    (hok : p'.shell.errno = FinshError.ok) :
    (forall i, i ∈ textWrites (finshCompilerRun base p'.shell.globalVariable root
        p'.shell.errno).1 -> i < finshTextMax) <->
      lineSize p'.shell.globalVariable root ≤ finshTextMax := by
  have hlen : (finshCompilerRun base p'.shell.globalVariable root p'.shell.errno).1.length =
      lineSize p'.shell.globalVariable root := by
    rw [hok]
    exact compileStatements_length _
  unfold textWrites
  rw [hlen]
  simp only [List.mem_range]
  constructor
  · intro hin
    by_contra hlong
    exact Nat.lt_irrefl _ (hin finshTextMax (Nat.lt_of_not_le hlong))
  · intro hle i hi
    exact Nat.lt_of_lt_of_le hi hle

/-- The tokens of `a++;`. -/
def incTokens : List Token :=
  [⟨TokenType.identifier, ['a'], 0, FinshError.ok⟩, plain TokenType.inc,
    plain TokenType.semicolon]

/-- A line that consists of this statement a number of times, when `a` is declared as an
integer. -/
def incLine (n : Nat) : Parser (List Token) :=
  startLine (List.replicate n incTokens).flatten
    { finshInit 4096 with
      globalVariable := ⟨['a'], FinshType.int, 0⟩ ::
        List.replicate 7 ⟨[], FinshType.unknown, 0⟩ }

def noSymbols : Symbols := ⟨fun _ => none, fun _ => none⟩

/-- Five increments fit. -/
theorem text_writes_inside_five :
    exists root p', finshParserRun listSource noSymbols 40 (incLine 5) = some (root, p') ∧
      ((forall i, i ∈ textWrites (finshCompilerRun 0x20000000 p'.shell.globalVariable root
        p'.shell.errno).1 -> i < finshTextMax) <->
          lineSize p'.shell.globalVariable root ≤ finshTextMax) := by
  have hparsed : (finshParserRun listSource noSymbols 40 (incLine 5)).any
      (fun r => r.2.shell.errno = FinshError.ok) = true := by
    decide +kernel
  rcases (Option.any_eq_true _ _).mp hparsed with ⟨⟨root, p'⟩, hrun, hok⟩
  exact ⟨root, p', hrun, text_writes_inside_iff hrun (of_decide_eq_true hok)⟩

/-- Eight increments are parsed without an error, and their code leaves the text
segment. -/
theorem text_segment_overrun :
    exists root p', finshParserRun listSource noSymbols 40 (incLine 8) = some (root, p') ∧
      p'.shell.errno = FinshError.ok ∧
      128 ∈ textWrites (finshCompilerRun 0x20000000 p'.shell.globalVariable root
        p'.shell.errno).1 := by
  have hparsed : (finshParserRun listSource noSymbols 40 (incLine 8)).any
      (fun r => r.2.shell.errno = FinshError.ok ∧ 128 ∈ textWrites (finshCompilerRun
        0x20000000 r.2.shell.globalVariable r.1 r.2.shell.errno).1) = true := by
    decide +kernel
  rcases (Option.any_eq_true _ _).mp hparsed with ⟨⟨root, p'⟩, hrun, hover⟩
  exact ⟨root, p', hrun, of_decide_eq_true hover⟩

end RtThread.Finsh
