import RtThread.Finsh.Node
import RtThread.Finsh.Vm

/-!
# The compiler of the finsh shell

`finsh_compiler.c`. The type check writes the data type and the address flag of every node; the
compiler emits the code of the children, of the node and of its siblings. Code is the list of
bytes written to the text segment. A node keeps the address of its table entry in a union, which
the increments always read as that of a variable.
-/

namespace RtThread.Finsh

open ByteMemory

def dataTypeVoid : Nat := 0x00

def dataTypeByte : Nat := 0x01

def dataTypeWord : Nat := 0x02

def dataTypeDword : Nat := 0x03

def sizeofVar : Nat := 24

def valueOffset : Nat := 20

/-- The entry that the union `id` points to, with `global_variable` at `base`. -/
def NodeId.entry (base : Nat) : NodeId -> Nat
  | none => 0
  | var index => base + sizeofVar * index
  | sysvar v => v.self
  | syscall f => f.self

/-- The type of an entry of `global_variable`. -/
def varType (vs : List FinshVar) (index : Nat) : FinshType :=
  (vs[index]?.map FinshVar.type).getD FinshType.unknown

/-!
## Type check
-/

def dataTypeOf : FinshType -> Option Nat
  | FinshType.void => some dataTypeVoid
  | FinshType.char | FinshType.uchar => some dataTypeByte
  | FinshType.short | FinshType.ushort => some dataTypeWord
  | FinshType.int | FinshType.uint | FinshType.long | FinshType.ulong => some dataTypeDword
  | FinshType.charp | FinshType.voidp | FinshType.shortp | FinshType.intp
  | FinshType.longp => some dataTypeDword
  | FinshType.unknown => none

def setVarType (info : FinshNode) (type : FinshType) (errno : FinshError) :
    FinshNode × FinshError :=
  match dataTypeOf type with
  | some dataType => ({ info with dataType := dataType }, errno)
  | none => (info, FinshError.unknownType)

def leafType (vs : List FinshVar) (info : FinshNode) (errno : FinshError) :
    FinshNode × FinshError :=
  match info.nodeType with
  | NodeType.id =>
    match info.id with
    | NodeId.var index => setVarType info (varType vs index) errno
    | NodeId.sysvar sysvar => setVarType info sysvar.type errno
    | _ => (info, errno)
  | NodeType.valueChar => ({ info with dataType := dataTypeByte }, errno)
  | NodeType.valueInt | NodeType.valueLong | NodeType.valueString | NodeType.valueNull =>
    ({ info with dataType := dataTypeDword }, errno)
  | _ => (info, errno)

def childAddress (info : FinshNode) (isAddr : Bool) : Bool :=
  match info.nodeType with
  | NodeType.sysAssign | NodeType.sysPreinc | NodeType.sysPredec
  | NodeType.sysGetaddr => true
  | NodeType.sysGetvalue => if isAddr then false else isAddr
  | _ => isAddr

def setAddress (info : FinshNode) (isAddr : Bool) : FinshNode :=
  match info.id with
  | NodeId.syscall _ => info
  | _ => { info with address := info.address || isAddr }

def finshTypeCheck (vs : List FinshVar) : Bool -> Tree -> FinshError -> Tree × FinshError
  | _, Tree.null, errno => (Tree.null, errno)
  | isAddr, Tree.node info child sibling, errno =>
    let c := finshTypeCheck vs (childAddress info isAddr) child errno
    let s := finshTypeCheck vs false sibling c.2
    let info := setAddress info isAddr
    match c.1.info with
    | some first => (Tree.node { info with dataType := first.dataType } c.1 s.1, s.2)
    | none =>
      let n := leafType vs info s.2
      (Tree.node n.1 c.1 s.1, n.2)

/-!
## Code
-/

def finshCodeByte (x : Nat) : List Byte := [BitVec.ofNat 8 x]

def finshCodeWord (x : Nat) : List Byte := [BitVec.ofNat 8 x, BitVec.ofNat 8 (x / 256)]

def finshCodeDword (x : Nat) : List Byte :=
  [BitVec.ofNat 8 x, BitVec.ofNat 8 (x / 256), BitVec.ofNat 8 (x / 256 ^ 2),
    BitVec.ofNat 8 (x / 256 ^ 3)]

def codeOp (op : Op) : List Byte := finshCodeByte op.code

def widthOf (dataType : Nat) : Option Width :=
  if dataType = dataTypeByte then some Width.byte
  else if dataType = dataTypeWord then some Width.word
  else if dataType = dataTypeDword then some Width.dword
  else none

def loadWidth : FinshType -> Option Width
  | FinshType.char | FinshType.uchar => some Width.byte
  | FinshType.short | FinshType.ushort => some Width.word
  | FinshType.int | FinshType.uint | FinshType.long | FinshType.ulong
  | FinshType.charp | FinshType.shortp | FinshType.intp | FinshType.longp =>
    some Width.dword
  | _ => none

def loadVariable (info : FinshNode) (type : FinshType) (address : Nat) : List Byte :=
  match loadWidth type with
  | none => []
  | some w =>
    codeOp (if info.address then Op.ld Width.dword else Op.ldValue w) ++
      finshCodeDword address

/-- `FINSH_NODE_ID` -/
def compileId (base : Nat) (vs : List FinshVar) (info : FinshNode) : List Byte :=
  match info.id with
  | NodeId.syscall syscall => codeOp (Op.ld Width.dword) ++ finshCodeDword syscall.func
  | NodeId.sysvar sysvar => loadVariable info sysvar.type sysvar.var
  | NodeId.var index =>
    loadVariable info (varType vs index) (info.id.entry base + valueOffset)
  | NodeId.none => []

def compileOp (op : Width -> Op) (info : FinshNode) : List Byte :=
  match widthOf info.dataType with
  | none => []
  | some w => codeOp (op w)

def countSiblings : Tree -> Nat
  | Tree.null => 0
  | Tree.node _ _ sibling => countSiblings sibling + 1

/-- `FINSH_NODE_SYS_FUNC` -/
def compileFunc : Tree -> List Byte
  | Tree.null => []
  | Tree.node _ _ sibling => codeOp Op.call ++ finshCodeByte (countSiblings sibling)

def compileStore (dataType : Nat) (errno : FinshError) : List Byte × FinshError :=
  match widthOf dataType with
  | some w => (codeOp (Op.st w) ++ codeOp (Op.ldValueStack w), errno)
  | none => ([], FinshError.unknownType)

/-- `FINSH_NODE_SYS_ASSIGN` -/
def compileAssign (child : Tree) (errno : FinshError) : List Byte × FinshError :=
  match child.info with
  | none => ([], errno)
  | some first =>
    match first.nodeType with
    | NodeType.id => compileStore first.dataType errno
    | NodeType.sysGetvalue => compileStore (first.dataType % 0x10) errno
    | _ => ([], errno)

def loadOne : Width -> List Byte
  | Width.byte => codeOp (Op.ld Width.byte) ++ finshCodeByte 1
  | Width.word => codeOp (Op.ld Width.word) ++ finshCodeWord 1
  | Width.dword => codeOp (Op.ld Width.dword) ++ finshCodeDword 1

/-- The value of a variable plus or minus one, stored at the address below it. -/
def storeStep (op : BinOp) (w : Width) (address : Nat) : List Byte :=
  codeOp (Op.ldValue w) ++ finshCodeDword address ++ loadOne w ++ codeOp (Op.bin op w) ++
    codeOp (Op.st w)

/-- `FINSH_NODE_SYS_PREINC` and `FINSH_NODE_SYS_PREDEC` -/
def compilePrestep (base : Nat) (op : BinOp) (info : FinshNode) (child : Tree) :
    List Byte :=
  match child.info with
  | none => []
  | some first =>
    match first.nodeType, widthOf info.dataType with
    | NodeType.id, some w =>
      storeStep op w (first.id.entry base + valueOffset) ++
        codeOp (Op.ldValueStack Width.dword)
    | _, _ => []

/-- `FINSH_NODE_SYS_INC` and `FINSH_NODE_SYS_DEC` -/
def compileStep (base : Nat) (op : BinOp) (info : FinshNode) (child : Tree) : List Byte :=
  match child.info with
  | none => []
  | some first =>
    match first.nodeType, widthOf info.dataType with
    | NodeType.id, some w =>
      let address := first.id.entry base + valueOffset
      codeOp (Op.ld Width.dword) ++ finshCodeDword address ++ storeStep op w address ++
        codeOp Op.pop
    | _, _ => []

/-- `FINSH_NODE_SYS_GETVALUE` -/
def compileGetvalue (info : FinshNode) : List Byte :=
  if info.address then [] else compileOp Op.ldValueStack info

def compileNode (base : Nat) (vs : List FinshVar) (info : FinshNode) (child : Tree)
    (errno : FinshError) : List Byte × FinshError :=
  match info.nodeType with
  | NodeType.id => (compileId base vs info, errno)
  | NodeType.valueChar => (codeOp (Op.ld Width.byte) ++ finshCodeByte info.value, errno)
  | NodeType.valueInt | NodeType.valueLong =>
    (codeOp (Op.ld Width.dword) ++ finshCodeDword info.value, errno)
  | NodeType.valueNull | NodeType.valueString =>
    (codeOp (Op.ld Width.dword) ++ finshCodeDword info.value, errno)
  | NodeType.sysAdd => (compileOp (Op.bin BinOp.add) info, errno)
  | NodeType.sysSub => (compileOp (Op.bin BinOp.sub) info, errno)
  | NodeType.sysMul => (compileOp (Op.bin BinOp.mul) info, errno)
  | NodeType.sysDiv => (compileOp (Op.bin BinOp.div) info, errno)
  | NodeType.sysMod => (compileOp (Op.bin BinOp.mod) info, errno)
  | NodeType.sysAnd => (compileOp (Op.bin BinOp.and) info, errno)
  | NodeType.sysOr => (compileOp (Op.bin BinOp.or) info, errno)
  | NodeType.sysXor => (compileOp (Op.bin BinOp.xor) info, errno)
  | NodeType.sysBitwise => (compileOp Op.bw info, errno)
  | NodeType.sysShl => (compileOp (Op.bin BinOp.shl) info, errno)
  | NodeType.sysShr => (compileOp (Op.bin BinOp.shr) info, errno)
  | NodeType.sysFunc => (compileFunc child, errno)
  | NodeType.sysAssign => compileAssign child errno
  | NodeType.sysPreinc => (compilePrestep base BinOp.add info child, errno)
  | NodeType.sysPredec => (compilePrestep base BinOp.sub info child, errno)
  | NodeType.sysInc => (compileStep base BinOp.add info child, errno)
  | NodeType.sysDec => (compileStep base BinOp.sub info child, errno)
  | NodeType.sysNull => (finshCodeDword 0, errno)
  | NodeType.sysGetvalue => (compileGetvalue info, errno)
  | NodeType.sysGetaddr => ([], errno)
  | NodeType.sysCast => ([], FinshError.unknownNode)

def finshCompile (base : Nat) (vs : List FinshVar) :
    Tree -> FinshError -> List Byte × FinshError
  | Tree.null, errno => ([], errno)
  | Tree.node info child sibling, errno =>
    let c := finshCompile base vs child errno
    let n := compileNode base vs info child c.2
    let s := finshCompile base vs sibling n.2
    (c.1 ++ n.1 ++ s.1, s.2)

/-- The loop of `finsh_compiler_run` over the statements. -/
def compileStatements (base : Nat) (vs : List FinshVar) :
    Tree -> FinshError -> List Byte × FinshError
  | Tree.null, errno => ([], errno)
  | Tree.node info child sibling, errno =>
    let n := finshCompile base vs (Tree.node info child Tree.null) errno
    let s := compileStatements base vs sibling n.2
    (n.1 ++ (if sibling.isNull then [] else codeOp Op.pop) ++ s.1, s.2)

/-- `finsh_compiler_run`: the bytes that are written to the text segment from its
beginning on, and the error code. -/
def finshCompilerRun (base : Nat) (vs : List FinshVar) (node : Tree)
    (errno : FinshError) : List Byte × FinshError :=
  let checked := finshTypeCheck vs false node errno
  compileStatements base vs checked.1 checked.2

def textSegment (code : List Byte) : Memory := fun i => code[i]?.getD 0

end RtThread.Finsh
