import RtThread.Finsh.Node
import Mathlib.Control.Basic

/-!
# The parser of the finsh shell

`finsh_parser.c`. Tokens come from any source with a state: a line stands for its tokens and for
the errors that reading them sets. A token is put back by a flag. Loops, recursion and the heap's
call for a string are bounded by fuel; there is no result when it runs out, or where the
parser writes through a null pointer or reads a name that has no end.
-/

namespace RtThread.Finsh

inductive TokenType where
  | leftParen
  | rightParen
  | comma
  | semicolon
  | mul
  | add
  | inc
  | sub
  | dec
  | div
  | mod
  | assign
  | and
  | or
  | xor
  | bitwise
  | shl
  | shr
  | comments
  | void
  | char
  | short
  | int
  | long
  | unsigned
  | valueChar
  | valueInt
  | valueLong
  | valueString
  | valueNull
  | identifier
  | bad
  | eof
deriving DecidableEq, Repr

/-- A token with the contents of `string` and `value`, and the error that reading it
set, if any. -/
structure Token where
  type : TokenType
  string : List Char
  value : Nat
  error : FinshError
deriving DecidableEq, Repr

def plain (type : TokenType) : Token := ⟨type, [], 0, FinshError.ok⟩

/-- `struct finsh_parser` without the root, and the data of the shell. -/
structure Parser (σ : Type) where
  source : σ
  current : Token
  replay : Bool
  shell : Shell

abbrev ParserM (σ : Type) := StateT (Parser σ) Option

section Parser

variable {σ : Type} (next : σ -> Token × σ) (env : Symbols)

def nextToken : ParserM σ TokenType := fun p =>
  if p.replay then some (p.current.type, { p with replay := false })
  else
    let r := next p.source
    let shell := if r.1.error = FinshError.ok then p.shell
      else finshErrorSet p.shell r.1.error
    some (r.1.type, { p with source := r.2, current := r.1, shell := shell })

def tokenReplay : ParserM σ Unit := fun p => some ((), { p with replay := true })

def errorSet (type : FinshError) : ParserM σ Unit := fun p =>
  some ((), { p with shell := finshErrorSet p.shell type })

def outOfFuel {α : Type} : ParserM σ α := fun _ => none

def currentToken : ParserM σ Token := fun p => some (p.current, p)

def checkToken (token type : TokenType) : ParserM σ Unit :=
  if token = type then pure ()
  else do
    errorSet FinshError.invalidToken
    tokenReplay

def matchToken (type : TokenType) : ParserM σ Unit := do
  let token <- nextToken next
  checkToken token type

def newNode (new : Shell -> Tree × Shell) : ParserM σ Tree := fun p =>
  let r := new p.shell
  some (r.1, { p with shell := r.2 })

def newString (string : List Char) : ParserM σ Tree := fun p =>
  (finshNodeNewString p.shell string).map fun r => (r.1, { p with shell := r.2 })

/-- `finsh_node_new_id` on the parser's buffer.  A name that fills the buffer has no end in it:
it can be looked up among the variables, where it is read no further, but nowhere else. -/
def newId (id : List Char) : ParserM σ Tree := fun p =>
  if (finshVarLookup p.shell id).isNone ∧ finshNameMax ≤ id.length then none
  else newNode (fun s => finshNodeNewId env s id) p

/-- `make_sys_node` on the shell. -/
def makeNode (type : NodeType) (node1 node2 : Tree) (s : Shell) : Tree × Shell :=
  match finshNodeAllocate s type with
  | (none, s) => (Tree.null, finshErrorSet s FinshError.nullNode)
  | (some info, s) =>
    if node1.isNull then
      (Tree.node info Tree.null Tree.null, finshErrorSet s FinshError.nullNode)
    else (Tree.node info (node1.setSibling node2) Tree.null, s)

def makeSysNode (type : NodeType) (node1 node2 : Tree) : ParserM σ Tree :=
  newNode (makeNode type node1 node2)

/-!
## Types and identifiers
-/

/-- The types that `is_base_type` accepts. -/
def baseType : TokenType -> Option FinshType
  | TokenType.void => some FinshType.void
  | TokenType.char => some FinshType.char
  | TokenType.short => some FinshType.short
  | TokenType.int => some FinshType.int
  | TokenType.long => some FinshType.long
  | _ => none

def unsignedType : TokenType -> Option FinshType
  | TokenType.char => some FinshType.uchar
  | TokenType.short => some FinshType.ushort
  | TokenType.int => some FinshType.uint
  | TokenType.long => some FinshType.ulong
  | _ => none

def pointerType : FinshType -> FinshType
  | FinshType.void => FinshType.voidp
  | FinshType.char | FinshType.uchar => FinshType.charp
  | FinshType.short | FinshType.ushort => FinshType.shortp
  | FinshType.int | FinshType.uint => FinshType.intp
  | FinshType.long | FinshType.ulong => FinshType.longp
  | _ => FinshType.voidp

/-- The end of `proc_type`, which looks for a pointer. -/
def procPointer (type : FinshType) : ParserM σ FinshType := do
  let token <- nextToken next
  if token = TokenType.mul then pure (pointerType type)
  else do
    tokenReplay
    pure type

/-- The exit of `proc_type` with an error. -/
def unknownType : ParserM σ FinshType := do
  tokenReplay
  errorSet FinshError.unknownType
  pure FinshType.unknown

/-- `proc_type` behind `unsigned` -/
def procUnsigned : ParserM σ FinshType := do
  let token <- nextToken next
  match baseType token with
  | some _ =>
    match unsignedType token with
    | some type => procPointer next type
    | none => unknownType
  | none => do
      tokenReplay
      errorSet FinshError.expectType
      procPointer next FinshType.unknown

def procType : ParserM σ FinshType := do
  let token <- nextToken next
  match baseType token with
  | some type => procPointer next type
  | none => if token = TokenType.unsigned then procUnsigned next else unknownType

/-- The name as `strncpy` leaves it in the buffer. -/
def procIdentifier : ParserM σ (List Char) := do
  matchToken next TokenType.identifier
  let token <- currentToken
  pure (token.string.take finshNameMax)

/-!
## Expressions

The functions for expressions take the function for assignments, to which they return
in parentheses and parameter lists.
-/

def binaryLoop (op : TokenType -> Option NodeType) (operand : ParserM σ Tree) :
    Nat -> Tree -> ParserM σ Tree
  | 0, _ => outOfFuel
  | fuel + 1, left => do
      let token <- nextToken next
      match op token with
      | none => do
          tokenReplay
          pure left
      | some type => do
          let right <- operand
          if right.isNull then do
            errorSet FinshError.expectOperator
            binaryLoop op operand fuel left
          else do
            let left <- makeSysNode type left right
            binaryLoop op operand fuel left

def procBinary (op : TokenType -> Option NodeType) (operand : ParserM σ Tree)
    (fuel : Nat) : ParserM σ Tree := do
  let left <- operand
  binaryLoop next op operand fuel left

def orOp : TokenType -> Option NodeType
  | TokenType.or => some NodeType.sysOr
  | _ => none

def xorOp : TokenType -> Option NodeType
  | TokenType.xor => some NodeType.sysXor
  | _ => none

def andOp : TokenType -> Option NodeType
  | TokenType.and => some NodeType.sysAnd
  | _ => none

def shiftOp : TokenType -> Option NodeType
  | TokenType.shl => some NodeType.sysShl
  | TokenType.shr => some NodeType.sysShr
  | _ => none

def additiveOp : TokenType -> Option NodeType
  | TokenType.sub => some NodeType.sysSub
  | TokenType.add => some NodeType.sysAdd
  | _ => none

def multiplicativeOp : TokenType -> Option NodeType
  | TokenType.mul => some NodeType.sysMul
  | TokenType.div => some NodeType.sysDiv
  | TokenType.mod => some NodeType.sysMod
  | _ => none

def paramLoop (assign : ParserM σ Tree) : Nat -> ParserM σ Tree
  | 0 => outOfFuel
  | fuel + 1 => do
      let token <- nextToken next
      if token = TokenType.comma then do
        let param <- assign
        if param.isNull then do
          errorSet FinshError.expectOperator
          paramLoop assign fuel
        else do
          let rest <- paramLoop assign fuel
          pure (param.setSibling rest)
      else do
        tokenReplay
        pure Tree.null

def procParamList (assign : ParserM σ Tree) (fuel : Nat) : ParserM σ Tree := do
  let param <- assign
  if param.isNull then pure Tree.null
  else do
    let rest <- paramLoop next assign fuel
    pure (param.setSibling rest)

def procPrimaryExpr (assign : ParserM σ Tree) : ParserM σ Tree := do
  let token <- nextToken next
  let current <- currentToken
  match token with
  | TokenType.identifier => do
      tokenReplay
      let id <- procIdentifier next
      newId env id
  | TokenType.leftParen => do
      let expr <- assign
      matchToken next TokenType.rightParen
      pure expr
  | TokenType.valueInt => newNode fun s => finshNodeNewInt s current.value
  | TokenType.valueLong => newNode fun s => finshNodeNewLong s current.value
  | TokenType.valueChar => newNode fun s => finshNodeNewChar s current.value
  | TokenType.valueString => newString current.string
  | TokenType.valueNull => newNode fun s => finshNodeNewPtr s 0
  | _ => do
      errorSet FinshError.invalidToken
      pure Tree.null

/-- The parameters of a call, behind the left parenthesis. -/
def procParams (assign : ParserM σ Tree) (fuel : Nat) : ParserM σ Tree := do
  let token <- nextToken next
  if token = TokenType.rightParen then pure Tree.null
  else do
    tokenReplay
    let params <- procParamList next assign fuel
    matchToken next TokenType.rightParen
    pure params

def postfixLoop (assign : ParserM σ Tree) : Nat -> Tree -> ParserM σ Tree
  | 0, _ => outOfFuel
  | fuel + 1, expr => do
      let token <- nextToken next
      match token with
      | TokenType.inc => do
          let expr <- makeSysNode NodeType.sysInc expr Tree.null
          postfixLoop assign fuel expr
      | TokenType.dec => do
          let expr <- makeSysNode NodeType.sysDec expr Tree.null
          postfixLoop assign fuel expr
      | TokenType.leftParen => do
          let params <- procParams next assign fuel
          let expr <- makeSysNode NodeType.sysFunc expr params
          postfixLoop assign fuel expr
      | _ => do
          tokenReplay
          pure expr

def procPostfixExpr (assign : ParserM σ Tree) (fuel : Nat) : ParserM σ Tree := do
  let expr <- procPrimaryExpr next env assign
  postfixLoop next assign fuel expr

/-- `proc_unary_expr`, with the functions for casts and postfix expressions. -/
def procUnaryExpr (cast postfixExpr : ParserM σ Tree) : ParserM σ Tree := do
  let token <- nextToken next
  match token with
  | TokenType.add => cast
  | TokenType.inc => do
      let expr <- cast
      makeSysNode NodeType.sysPreinc expr Tree.null
  | TokenType.sub => do
      let expr <- cast
      let zero <- newNode fun s => finshNodeNewLong s 0
      makeSysNode NodeType.sysSub zero expr
  | TokenType.dec => do
      let expr <- cast
      makeSysNode NodeType.sysPredec expr Tree.null
  | TokenType.bitwise => do
      let expr <- cast
      makeSysNode NodeType.sysBitwise expr Tree.null
  | TokenType.mul => do
      let expr <- cast
      makeSysNode NodeType.sysGetvalue expr Tree.null
  | TokenType.and => do
      let expr <- cast
      makeSysNode NodeType.sysGetaddr expr Tree.null
  | _ => do
      tokenReplay
      postfixExpr

def procCastExpr (postfixExpr : ParserM σ Tree) : Nat -> ParserM σ Tree
  | 0 => outOfFuel
  | fuel + 1 => do
      let token <- nextToken next
      if token = TokenType.leftParen then do
        let type <- procType next
        matchToken next TokenType.rightParen
        let cast <- procCastExpr postfixExpr fuel
        if cast.isNull then do
          tokenReplay
          procUnaryExpr next (procCastExpr postfixExpr fuel) postfixExpr
        else pure (cast.setDataType type.code)
      else do
        tokenReplay
        procUnaryExpr next (procCastExpr postfixExpr fuel) postfixExpr

def procMultiplicativeExpr (assign : ParserM σ Tree) (fuel : Nat) : ParserM σ Tree :=
  procBinary next multiplicativeOp
    (procCastExpr next (procPostfixExpr next env assign fuel) fuel) fuel

def procAdditiveExpr (assign : ParserM σ Tree) (fuel : Nat) : ParserM σ Tree :=
  procBinary next additiveOp (procMultiplicativeExpr next env assign fuel) fuel

def procShiftExpr (assign : ParserM σ Tree) (fuel : Nat) : ParserM σ Tree :=
  procBinary next shiftOp (procAdditiveExpr next env assign fuel) fuel

def procAndExpr (assign : ParserM σ Tree) (fuel : Nat) : ParserM σ Tree :=
  procBinary next andOp (procShiftExpr next env assign fuel) fuel

def procExclusiveOrExpr (assign : ParserM σ Tree) (fuel : Nat) : ParserM σ Tree :=
  procBinary next xorOp (procAndExpr next env assign fuel) fuel

def procInclusiveOrExpr (assign : ParserM σ Tree) (fuel : Nat) : ParserM σ Tree :=
  procBinary next orOp (procExclusiveOrExpr next env assign fuel) fuel

def procAssignExpr : Nat -> ParserM σ Tree
  | 0 => outOfFuel
  | fuel + 1 => do
      let expr <- procInclusiveOrExpr next env (procAssignExpr fuel) fuel
      let token <- nextToken next
      if token = TokenType.assign then do
        let assign <- procAssignExpr fuel
        makeSysNode NodeType.sysAssign expr assign
      else do
        tokenReplay
        pure expr

/-!
## Statements
-/

def procExprStatement (fuel : Nat) : ParserM σ Tree := do
  let token <- nextToken next
  if token = TokenType.semicolon then pure Tree.null
  else do
    tokenReplay
    let expr <- procAssignExpr next env fuel
    matchToken next TokenType.semicolon
    pure expr

/-- `finsh_var_insert` and its error. -/
def declare (id : List Char) (type : FinshType) : ParserM σ Unit := fun p =>
  match finshVarInsert p.shell id type with
  | some shell => some ((), { p with shell := shell })
  | none => some ((), { p with shell := finshErrorSet p.shell FinshError.variableExist })

def initVariable (id : List Char) (value : Tree) : ParserM σ Tree := do
  let idnode <- newId env id
  makeSysNode NodeType.sysAssign idnode value

/-- The loop of `proc_variable_decl` over the variables: the assignments of their initial
values and the token behind the last. -/
def declLoop (type : FinshType) (assign : ParserM σ Tree) :
    Nat -> TokenType -> ParserM σ (List Tree × TokenType)
  | 0, _ => outOfFuel
  | fuel + 1, token =>
    if token = TokenType.comma then do
      let id <- procIdentifier next
      declare id type
      let token <- nextToken next
      if token = TokenType.assign then do
        let value <- assign
        if value.isNull then declLoop type assign fuel token
        else do
          let node <- initVariable env id value
          let token <- nextToken next
          let r <- declLoop type assign fuel token
          pure (node :: r.1, r.2)
      else declLoop type assign fuel token
    else pure ([], token)

/-- `proc_variable_decl`, with the chain of assignments as a list. -/
def procVariableDecl (fuel : Nat) : ParserM σ (List Tree) := do
  let type <- procType next
  let id <- procIdentifier next
  declare id type
  let token <- nextToken next
  match token with
  | TokenType.comma => do
      let r <- declLoop next env type (procAssignExpr next env fuel) fuel token
      checkToken r.2 TokenType.semicolon
      pure r.1
  | TokenType.assign => do
      let value <- procAssignExpr next env fuel
      if value.isNull then do
        checkToken token TokenType.semicolon
        pure []
      else do
        let node <- initVariable env id value
        let token <- nextToken next
        let r <- declLoop next env type (procAssignExpr next env fuel) fuel token
        checkToken r.2 TokenType.semicolon
        pure (node :: r.1)
  | TokenType.semicolon => pure []
  | _ => do
      errorSet FinshError.expectType
      pure []

def chain : List Tree -> Tree
  | [] => Tree.null
  | t :: ts => t.setSibling (chain ts)

/-- The statements up to the one that the next is linked to, and what is linked to it
already. -/
structure Root where
  done : List Tree
  rest : List Tree

def Root.link (r : Root) (nodes : List Tree) : Root :=
  match nodes.filter fun t => !t.isNull with
  | [] => ⟨r.done, []⟩
  | t :: ts => ⟨r.done ++ [t], ts⟩

def startsType (token : TokenType) : Bool :=
  (baseType token).isSome || token = TokenType.unsigned

/-- Is a token skipped behind a statement? It is when the statement begins with neither a
type nor an identifier and yields no node, unless it comes first. -/
def skipsToken (token : TokenType) (root : Root) (nodes : List Tree) : Bool :=
  !root.done.isEmpty && nodes.all Tree.isNull && !startsType token &&
    token ≠ TokenType.identifier

/-- A statement and the token that may be skipped behind it. -/
def procStatement (fuel : Nat) (token : TokenType) (root : Root) :
    ParserM σ (List Tree) := do
  tokenReplay
  if startsType token then procVariableDecl next env fuel
  else do
    let expr <- procExprStatement next env fuel
    if skipsToken token root [expr] then do
      let _ <- nextToken next
      pure [expr]
    else pure [expr]

def parserLoop : Nat -> TokenType -> Root -> ParserM σ Root
  | 0, _, _ => outOfFuel
  | fuel + 1, token, root =>
    if token = TokenType.eof ∨ token = TokenType.bad then pure root
    else do
      let nodes <- procStatement next env fuel token root
      let linked := root.link nodes
      if linked.done.isEmpty then pure linked
      else do
        let token <- nextToken next
        parserLoop fuel token linked

def finshParserRun (fuel : Nat) : ParserM σ Tree := do
  let token <- nextToken next
  let root <- parserLoop next env fuel token ⟨[], []⟩
  pure (chain (root.done ++ root.rest))

end Parser

def startLine {σ : Type} (source : σ) (shell : Shell) : Parser σ :=
  ⟨source, plain TokenType.bad, false, shell⟩

def listSource : List Token -> Token × List Token
  | [] => (plain TokenType.eof, [])
  | t :: ts => (t, ts)

end RtThread.Finsh
