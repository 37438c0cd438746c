import RtThread.Finsh.Heap
import Mathlib.Data.List.Basic

/-!
# Nodes and variables of the finsh shell

`finsh_node.c`, `finsh_var.c` and `finsh_error.c`. A syntax tree is given by the first child and
the next sibling of each node; a null pointer is the empty tree. Of the node table only the number
of used entries matters, since nodes are released all at once. The exported system variables and
functions belong to the build, so looking a name up in them is a parameter.
-/

namespace RtThread.Finsh

def finshNameMax : Nat := 16

def finshNodeMax : Nat := 16

def finshStringMax : Nat := 128

def finshVariableMax : Nat := 8

inductive FinshType where
  | unknown
  | void
  | voidp
  | char
  | uchar
  | charp
  | short
  | ushort
  | shortp
  | int
  | uint
  | intp
  | long
  | ulong
  | longp
deriving DecidableEq, Repr

def FinshType.code : FinshType -> Nat
  | unknown => 0
  | void => 1
  | voidp => 2
  | char => 3
  | uchar => 4
  | charp => 5
  | short => 6
  | ushort => 7
  | shortp => 8
  | int => 9
  | uint => 10
  | intp => 11
  | long => 12
  | ulong => 13
  | longp => 14

/-- The `FINSH_ERROR` codes. -/
inductive FinshError where
  | ok
  | invalidToken
  | expectType
  | unknownType
  | variableExist
  | expectOperator
  | memoryFull
  | unknownOp
  | unknownNode
  | expectChar
  | unexpectEnd
  | unknownToken
  | noFloat
  | unknownSymbol
  | nullNode
deriving DecidableEq, Repr

/-- The `FINSH_NODE` codes. -/
inductive NodeType where
  | id
  | valueChar
  | valueInt
  | valueLong
  | valueString
  | valueNull
  | sysAdd
  | sysSub
  | sysMul
  | sysDiv
  | sysMod
  | sysAnd
  | sysOr
  | sysXor
  | sysBitwise
  | sysShl
  | sysShr
  | sysFunc
  | sysAssign
  | sysCast
  | sysPreinc
  | sysPredec
  | sysInc
  | sysDec
  | sysGetvalue
  | sysGetaddr
  | sysNull
deriving DecidableEq, Repr

/-- `struct finsh_sysvar` at the address `self`, with the address of the variable. -/
structure FinshSysvar where
  self : Nat
  type : FinshType
  var : Nat
deriving DecidableEq, Repr

/-- `struct finsh_syscall` at the address `self`. -/
structure FinshSyscall where
  self : Nat
  func : Nat
deriving DecidableEq, Repr

/-- The union `id` of a node, as its `idtype` says; a variable is an index into
`global_variable`. -/
inductive NodeId where
  | none
  | var (index : Nat)
  | sysvar (sysvar : FinshSysvar)
  | syscall (syscall : FinshSyscall)
deriving DecidableEq, Repr

/-- `struct finsh_node` without its links.  `address` is the flag
`FINSH_IDTYPE_ADDRESS`. -/
structure FinshNode where
  nodeType : NodeType
  dataType : Nat
  id : NodeId
  address : Bool
  value : Nat
deriving DecidableEq, Repr

/-- A node with its first child and its next sibling. -/
inductive Tree where
  | null
  | node (info : FinshNode) (child sibling : Tree)
deriving DecidableEq, Repr

namespace Tree

def info : Tree -> Option FinshNode
  | null => none
  | node info _ _ => some info

def isNull : Tree -> Bool
  | null => true
  | node _ _ _ => false

def setSibling : Tree -> Tree -> Tree
  | null, _ => null
  | node info child _, sibling => node info child sibling

def setDataType : Tree -> Nat -> Tree
  | null, _ => null
  | node info child sibling, dataType =>
    node { info with dataType := dataType } child sibling

end Tree

structure FinshVar where
  name : List Char
  type : FinshType
  value : Nat
deriving DecidableEq, Repr

structure Symbols where
  sysvarLookup : List Char -> Option FinshSysvar
  syscallLookup : List Char -> Option FinshSyscall

/-- `global_variable`, the number of nodes in `global_node_table`, `global_errno` and
the heap. -/
structure Shell where
  globalVariable : List FinshVar
  nodes : Nat
  errno : FinshError
  heap : FinshHeap

/-- `finsh_init`, with the heap at the address `heap`. -/
def finshInit (heap : Nat) : Shell :=
  { globalVariable := List.replicate finshVariableMax ⟨[], FinshType.unknown, 0⟩
    nodes := 0
    errno := FinshError.ok
    heap := finshHeapInit heap }

def finshFlush (s : Shell) : Shell := { s with nodes := 0, errno := FinshError.ok }

def finshErrorSet (s : Shell) (type : FinshError) : Shell := { s with errno := type }

/-!
## Variables
-/

/-- `strncmp(a, b, FINSH_NAME_MAX) == 0` -/
def sameName (a b : List Char) : Bool := a.take finshNameMax = b.take finshNameMax

def finshVarLookup (s : Shell) (name : List Char) : Option Nat :=
  s.globalVariable.findIdx? fun v => sameName v.name name

/-- `finsh_var_insert`; no result stands for a negative one. -/
def finshVarInsert (s : Shell) (name : List Char) (type : FinshType) : Option Shell :=
  if s.globalVariable.any fun v => sameName v.name name then none
  else
    match s.globalVariable.findIdx? fun v => v.type = FinshType.unknown with
    | none => none
    | some empty =>
      some { s with
        globalVariable := s.globalVariable.modify empty fun v =>
          { v with name := name.take finshNameMax, type := type } }

def held (s : Shell) (ptr : Nat) : Bool :=
  s.globalVariable.any fun v => v.type ≠ FinshType.unknown ∧ v.value = ptr

/-!
## Nodes
-/

def finshNodeAllocate (s : Shell) (type : NodeType) : Option FinshNode × Shell :=
  if s.nodes < finshNodeMax then
    (some ⟨type, 0, NodeId.none, false, 0⟩, { s with nodes := s.nodes + 1 })
  else (none, s)

/-- A new node that is filled in, or an error when the table is full. -/
def finshNodeNew (s : Shell) (type : NodeType) (fill : FinshNode -> FinshNode) :
    Tree × Shell :=
  match finshNodeAllocate s type with
  | (none, s) => (Tree.null, finshErrorSet s FinshError.memoryFull)
  | (some node, s) => (Tree.node (fill node) Tree.null Tree.null, s)

/-- The symbol that `finsh_node_new_id` finds. -/
def finshLookup (env : Symbols) (s : Shell) (name : List Char) : Option NodeId :=
  match finshVarLookup s name with
  | some index => some (NodeId.var index)
  | none =>
    match env.sysvarLookup name with
    | some sysvar => some (NodeId.sysvar sysvar)
    | none => (env.syscallLookup name).map NodeId.syscall

def finshNodeNewId (env : Symbols) (s : Shell) (name : List Char) : Tree × Shell :=
  match finshLookup env s name with
  | some id => finshNodeNew s NodeType.id fun node => { node with id := id }
  | none => (Tree.null, finshErrorSet s FinshError.unknownSymbol)

def finshNodeNewChar (s : Shell) (c : Nat) : Tree × Shell :=
  finshNodeNew s NodeType.valueChar fun node => { node with value := c }

def finshNodeNewInt (s : Shell) (i : Nat) : Tree × Shell :=
  finshNodeNew s NodeType.valueInt fun node => { node with value := i }

def finshNodeNewLong (s : Shell) (l : Nat) : Tree × Shell :=
  finshNodeNew s NodeType.valueLong fun node => { node with value := l }

def finshNodeNewPtr (s : Shell) (ptr : Nat) : Tree × Shell :=
  finshNodeNew s NodeType.valueNull fun node => { node with value := ptr }

/-- `finsh_node_new_string`, without the bytes of the string.  The copy through the null pointer
of a full heap has no result. -/
def finshNodeNewString (s : Shell) (string : List Char) : Option (Tree × Shell) :=
  match finshNodeAllocate s NodeType.valueString with
  | (none, s) => some (Tree.null, finshErrorSet s FinshError.memoryFull)
  | (some node, s) =>
    match finshHeapAllocate (held s) s.heap (string.length + 1) with
    | some (some ptr, h) =>
      some (Tree.node { node with value := ptr } Tree.null Tree.null, { s with heap := h })
    | _ => none

theorem newString_cases {s s' : Shell} {string : List Char} {t : Tree}
    (hnew : finshNodeNewString s string = some (t, s')) :
    (t = Tree.null ∧ s' = finshErrorSet s FinshError.memoryFull) ∨
      (s.nodes < finshNodeMax ∧ exists ptr h,
        t = Tree.node ⟨NodeType.valueString, 0, NodeId.none, false, ptr⟩ Tree.null Tree.null ∧
        s' = { s with nodes := s.nodes + 1, heap := h }) := by
  unfold finshNodeNewString finshNodeAllocate at hnew
  by_cases hroom : s.nodes < finshNodeMax
  · simp only [if_pos hroom] at hnew
    split at hnew
    · cases hnew
      exact Or.inr ⟨hroom, _, _, rfl, rfl⟩
    · cases hnew
  · simp only [if_neg hroom] at hnew
    cases hnew
    exact Or.inl ⟨rfl, rfl⟩

/-- Memory for strings, one after the other: the heap behind them, if there is enough. -/
def serveStrings (held : Nat -> Bool) : FinshHeap -> List (List Char) -> Option FinshHeap
  | h, [] => some h
  | h, string :: strings =>
    match finshHeapAllocate held h (string.length + 1) with
    | some (some _, h) => serveStrings held h strings
    | _ => none

theorem serveStrings_append (held : Nat -> Bool) (h : FinshHeap) (as bs : List (List Char)) :
    serveStrings held h (as ++ bs) =
      (serveStrings held h as).bind fun h => serveStrings held h bs := by
  induction as generalizing h with
  | nil => rfl
  | cons a as ih =>
    simp only [List.cons_append, serveStrings]
    split
    · exact ih _
    · rfl

end RtThread.Finsh
