import RtThread.Finsh.Parser

/-!
# The grammar of finsh expressions

The productions in the comments of `finsh_parser.c`.  A phrase is a derivation; it has
the tokens that it derives and the shape of the syntax tree that precedence and
associativity give it.  The empty parameter list may be followed by a comma in this
grammar.
-/

namespace RtThread.Finsh

/-- The categories of the grammar. -/
inductive Cat where
  | paramList
  | assignExpr
  | inclusiveOrExpr
  | exclusiveOrExpr
  | andExpr
  | shiftExpr
  | additiveExpr
  | multiplicativeExpr
  | castExpr
  | unaryExpr
  | postfixExpr
  | primaryExpr
deriving DecidableEq, Repr

namespace Cat

def rank : Cat -> Nat
  | paramList => 0
  | assignExpr => 1
  | inclusiveOrExpr => 2
  | exclusiveOrExpr => 3
  | andExpr => 4
  | shiftExpr => 5
  | additiveExpr => 6
  | multiplicativeExpr => 7
  | castExpr | unaryExpr | postfixExpr => 8
  | primaryExpr => 9

/-- The category of the operands, to which every phrase of a category may be reduced. -/
def operand : Cat -> Option Cat
  | paramList => none
  | assignExpr => some inclusiveOrExpr
  | inclusiveOrExpr => some exclusiveOrExpr
  | exclusiveOrExpr => some andExpr
  | andExpr => some shiftExpr
  | shiftExpr => some additiveExpr
  | additiveExpr => some multiplicativeExpr
  | multiplicativeExpr => some castExpr
  | castExpr => some unaryExpr
  | unaryExpr => some postfixExpr
  | postfixExpr => some primaryExpr
  | primaryExpr => none

def op : Cat -> TokenType -> Option NodeType
  | inclusiveOrExpr => orOp
  | exclusiveOrExpr => xorOp
  | andExpr => andOp
  | shiftExpr => shiftOp
  | additiveExpr => additiveOp
  | multiplicativeExpr => multiplicativeOp
  | _ => fun _ => none

end Cat

inductive BaseType where
  | void
  | char
  | short
  | int
  | long
deriving DecidableEq, Repr

def BaseType.token : BaseType -> TokenType
  | void => TokenType.void
  | char => TokenType.char
  | short => TokenType.short
  | int => TokenType.int
  | long => TokenType.long

def castType (isUnsigned : Bool) (b : BaseType) : Option FinshType :=
  if isUnsigned then unsignedType b.token else baseType b.token

inductive UnaryOp where
  | add
  | inc
  | sub
  | dec
  | bitwise
  | mul
  | and
deriving DecidableEq, Repr

def UnaryOp.token : UnaryOp -> TokenType
  | add => TokenType.add
  | inc => TokenType.inc
  | sub => TokenType.sub
  | dec => TokenType.dec
  | bitwise => TokenType.bitwise
  | mul => TokenType.mul
  | and => TokenType.and

inductive Literal where
  | int (value : Nat)
  | long (value : Nat)
  | char (value : Nat)
  | string (s : List Char)
  | null
deriving DecidableEq, Repr

def Literal.token : Literal -> Token
  | int value => ⟨TokenType.valueInt, [], value, FinshError.ok⟩
  | long value => ⟨TokenType.valueLong, [], value, FinshError.ok⟩
  | char value => ⟨TokenType.valueChar, [], value, FinshError.ok⟩
  | string s => ⟨TokenType.valueString, s, 0, FinshError.ok⟩
  | null => plain TokenType.valueNull

/-!
## Names and strings
-/

/-- A name has an end in the buffer of the parser, or it is the name of a variable. -/
def nameFits (s : Shell) (name : List Char) : Bool :=
  decide (name.length < finshNameMax) || (finshVarLookup s name).isSome

def namesFit (s : Shell) (ts : List Token) : Bool :=
  ts.all fun t => t.type ≠ TokenType.identifier || nameFits s t.string

def stringsOf (ts : List Token) : List (List Char) :=
  ts.filterMap fun t => if t.type = TokenType.valueString then some t.string else none

section Strings

variable {s : Shell}

theorem namesFit_append (ts us : List Token) :
    namesFit s (ts ++ us) = (namesFit s ts && namesFit s us) := List.all_append

theorem stringsOf_append (ts us : List Token) :
    stringsOf (ts ++ us) = stringsOf ts ++ stringsOf us := List.filterMap_append

/-- The heap behind tokens that are fine. -/
def serveIf (s : Shell) (fine : Bool) (ts : List Token) (h : FinshHeap) : Option FinshHeap :=
  if fine && namesFit s ts then serveStrings (held s) h (stringsOf ts) else none

theorem serveIf_append (a b : Bool) (ts us : List Token) (h : FinshHeap) :
    (serveIf s a ts h).bind (serveIf s b us) = serveIf s (a && b) (ts ++ us) h := by
  unfold serveIf
  rw [namesFit_append, stringsOf_append, serveStrings_append]
  cases a <;> cases b <;> cases namesFit s ts <;> cases namesFit s us <;> simp

/-- Only names and strings matter. -/
theorem serveIf_plain {type : TokenType} (htype : type ≠ TokenType.valueString) (a : Bool)
    (ts us : List Token) : serveIf s a (ts ++ plain type :: us) = serveIf s a (ts ++ us) := by
  have hnames : namesFit s (plain type :: us) = namesFit s us := by
    simp [namesFit, nameFits, plain, finshNameMax]
  have hstrings : stringsOf (plain type :: us) = stringsOf us := by
    simp [stringsOf, plain, htype]
  funext h
  rw [serveIf, namesFit_append, stringsOf_append, hnames, hstrings, ← namesFit_append,
    ← stringsOf_append]
  rfl

theorem stringsOf_plain {type : TokenType} (htype : type ≠ TokenType.valueString)
    {ts us : List Token} (hts : stringsOf ts = []) (hus : stringsOf us = []) :
    stringsOf (ts ++ plain type :: us) = [] := by
  rw [stringsOf_append, hts]
  simpa [stringsOf, plain, htype] using hus

end Strings

/-- The derivations. -/
inductive Phrase : Cat -> Type where
  | lift {c c' : Cat} : c.operand = some c' -> Phrase c' -> Phrase c
  | assign : Phrase Cat.unaryExpr -> Phrase Cat.assignExpr -> Phrase Cat.assignExpr
  | binary {c c' : Cat} (op : TokenType) (type : NodeType) : c.op op = some type ->
      c.operand = some c' -> Phrase c -> Phrase c' -> Phrase c
  | cast (isUnsigned : Bool) (b : BaseType) : Phrase Cat.castExpr -> Phrase Cat.castExpr
  | unary (op : UnaryOp) : Phrase Cat.castExpr -> Phrase Cat.unaryExpr
  | step (up : Bool) : Phrase Cat.postfixExpr -> Phrase Cat.postfixExpr
  | call : Phrase Cat.postfixExpr -> Phrase Cat.paramList -> Phrase Cat.postfixExpr
  | paren : Phrase Cat.assignExpr -> Phrase Cat.primaryExpr
  | literal (value : Literal) : Phrase Cat.primaryExpr
  | identifier (name : List Char) : Phrase Cat.primaryExpr
  | noParams : Phrase Cat.paramList
  | oneParam : Phrase Cat.assignExpr -> Phrase Cat.paramList
  | moreParams : Phrase Cat.paramList -> Phrase Cat.assignExpr -> Phrase Cat.paramList

namespace Phrase

def castTokens (isUnsigned : Bool) (b : BaseType) : List Token :=
  (if isUnsigned then [plain TokenType.unsigned] else []) ++
    [plain b.token, plain TokenType.rightParen]

def tokens : {c : Cat} -> Phrase c -> List Token
  | _, lift _ d => d.tokens
  | _, assign u e => u.tokens ++ plain TokenType.assign :: e.tokens
  | _, binary op _ _ _ l r => l.tokens ++ plain op :: r.tokens
  | _, cast isUnsigned b d =>
    plain TokenType.leftParen :: (castTokens isUnsigned b ++ d.tokens)
  | _, unary op d => plain op.token :: d.tokens
  | _, step up d => d.tokens ++ [plain (if up then TokenType.inc else TokenType.dec)]
  | _, call f ps =>
    f.tokens ++ plain TokenType.leftParen :: (ps.tokens ++ [plain TokenType.rightParen])
  | _, paren e => plain TokenType.leftParen :: (e.tokens ++ [plain TokenType.rightParen])
  | _, literal value => [value.token]
  | _, identifier name => [⟨TokenType.identifier, name, 0, FinshError.ok⟩]
  | _, noParams => []
  | _, oneParam e => e.tokens
  | _, moreParams ps e => ps.tokens ++ plain TokenType.comma :: e.tokens

def nodes : {c : Cat} -> Phrase c -> Nat
  | _, lift _ d => d.nodes
  | _, assign u e => u.nodes + e.nodes + 1
  | _, binary _ _ _ _ l r => l.nodes + r.nodes + 1
  | _, cast _ _ d => d.nodes
  | _, unary UnaryOp.add d => d.nodes
  | _, unary UnaryOp.sub d => d.nodes + 2
  | _, unary _ d => d.nodes + 1
  | _, step _ d => d.nodes + 1
  | _, call f ps => f.nodes + ps.nodes + 1
  | _, paren e => e.nodes
  | _, literal _ => 1
  | _, identifier _ => 1
  | _, noParams => 0
  | _, oneParam e => e.nodes
  | _, moreParams ps e => ps.nodes + e.nodes

def Resolves (env : Symbols) (s : Shell) : {c : Cat} -> Phrase c -> Prop
  | _, lift _ d => d.Resolves env s
  | _, assign u e => u.Resolves env s ∧ e.Resolves env s
  | _, binary _ _ _ _ l r => l.Resolves env s ∧ r.Resolves env s
  | _, cast _ _ d => d.Resolves env s
  | _, unary _ d => d.Resolves env s
  | _, step _ d => d.Resolves env s
  | _, call f ps => f.Resolves env s ∧ ps.Resolves env s
  | _, paren e => e.Resolves env s
  | _, literal _ => True
  | _, identifier name => (finshLookup env s name).isSome = true
  | _, noParams => True
  | _, oneParam e => e.Resolves env s
  | _, moreParams ps e => ps.Resolves env s ∧ e.Resolves env s

theorem nodes_le_unary (op : UnaryOp) (d : Phrase Cat.castExpr) :
    d.nodes ≤ (unary op d).nodes := by
  cases op with
  | add => exact Nat.le_refl d.nodes
  | sub => exact Nat.le_add_right d.nodes 2
  | _ => exact Nat.le_add_right d.nodes 1

theorem call_tokens_append (f : Phrase Cat.postfixExpr) (ps : Phrase Cat.paramList)
    (rest : List Token) : (call f ps).tokens ++ rest = f.tokens ++
      plain TokenType.leftParen :: (ps.tokens ++ plain TokenType.rightParen :: rest) := by
  show (f.tokens ++ plain TokenType.leftParen ::
    (ps.tokens ++ [plain TokenType.rightParen])) ++ rest = _
  rw [List.append_assoc, List.cons_append, List.append_assoc, List.singleton_append]

/-!
## Shape
-/

def leaf (type : NodeType) (id : NodeId) (value : Nat) : Tree :=
  Tree.node ⟨type, 0, id, false, value⟩ Tree.null Tree.null

def sysNode (type : NodeType) (t1 t2 : Tree) : Tree :=
  Tree.node ⟨type, 0, NodeId.none, false, 0⟩ (t1.setSibling t2) Tree.null

def append : Tree -> Tree -> Tree
  | Tree.null, t => t
  | Tree.node info child sibling, t => Tree.node info child (append sibling t)

def unaryTree : UnaryOp -> Tree -> Tree
  | UnaryOp.add, t => t
  | UnaryOp.inc, t => sysNode NodeType.sysPreinc t Tree.null
  | UnaryOp.sub, t => sysNode NodeType.sysSub (leaf NodeType.valueLong NodeId.none 0) t
  | UnaryOp.dec, t => sysNode NodeType.sysPredec t Tree.null
  | UnaryOp.bitwise, t => sysNode NodeType.sysBitwise t Tree.null
  | UnaryOp.mul, t => sysNode NodeType.sysGetvalue t Tree.null
  | UnaryOp.and, t => sysNode NodeType.sysGetaddr t Tree.null

/-- The tree of a literal; where a string lies is left open. -/
def LiteralShape : Literal -> Tree -> Prop
  | Literal.int value, t => t = leaf NodeType.valueInt NodeId.none value
  | Literal.long value, t => t = leaf NodeType.valueLong NodeId.none value
  | Literal.char value, t => t = leaf NodeType.valueChar NodeId.none value
  | Literal.string _, t => exists ptr, t = leaf NodeType.valueString NodeId.none ptr
  | Literal.null, t => t = leaf NodeType.valueNull NodeId.none 0

def Shape (env : Symbols) (s : Shell) : {c : Cat} -> Phrase c -> Tree -> Prop
  | _, lift _ d, t => d.Shape env s t
  | _, assign u e, t => exists t1 t2, u.Shape env s t1 ∧ e.Shape env s t2 ∧
      t = sysNode NodeType.sysAssign t1 t2
  | _, binary _ type _ _ l r, t => exists t1 t2, l.Shape env s t1 ∧ r.Shape env s t2 ∧
      t = sysNode type t1 t2
  | _, cast isUnsigned b d, t => exists t1 type, d.Shape env s t1 ∧
      castType isUnsigned b = some type ∧ t = t1.setDataType type.code
  | _, unary op d, t => exists t1, d.Shape env s t1 ∧ t = unaryTree op t1
  | _, step up d, t => exists t1, d.Shape env s t1 ∧
      t = sysNode (if up then NodeType.sysInc else NodeType.sysDec) t1 Tree.null
  | _, call f ps, t => exists t1 t2, f.Shape env s t1 ∧ ps.Shape env s t2 ∧
      t = sysNode NodeType.sysFunc t1 t2
  | _, paren e, t => e.Shape env s t
  | _, literal value, t => LiteralShape value t
  | _, identifier name, t => exists id, finshLookup env s name = some id ∧
      t = leaf NodeType.id id 0
  | _, noParams, t => t = Tree.null
  | _, oneParam e, t => e.Shape env s t
  | _, moreParams ps e, t => exists t1 t2, ps.Shape env s t1 ∧ e.Shape env s t2 ∧
      t = append t1 t2

/-!
## Phrases that are accepted
-/

def isEmpty : {c : Cat} -> Phrase c -> Bool
  | _, noParams => true
  | _, _ => false

/-- No parenthesised expression, no cast to unsigned void, and no parameter list that
begins with a comma. -/
def clean : {c : Cat} -> Phrase c -> Bool
  | _, lift _ d => d.clean
  | _, assign u e => u.clean && e.clean
  | _, binary _ _ _ _ l r => l.clean && r.clean
  | _, cast isUnsigned b d => (castType isUnsigned b).isSome && d.clean
  | _, unary _ d => d.clean
  | _, step _ d => d.clean
  | _, call f ps => f.clean && ps.clean
  | _, paren _ => false
  | _, literal _ => true
  | _, identifier _ => true
  | _, noParams => true
  | _, oneParam e => e.clean
  | _, moreParams ps e => !ps.isEmpty && ps.clean && e.clean

/-- The heap behind a phrase that is accepted: a clean one whose names fit and whose strings get
memory. -/
def accept (s : Shell) : {c : Cat} -> Phrase c -> FinshHeap -> Option FinshHeap
  | _, lift _ d, h => d.accept s h
  | _, assign u e, h => (u.accept s h).bind (e.accept s)
  | _, binary _ _ _ _ l r, h => (l.accept s h).bind (r.accept s)
  | _, cast isUnsigned b d, h => if (castType isUnsigned b).isSome then d.accept s h else none
  | _, unary _ d, h => d.accept s h
  | _, step _ d, h => d.accept s h
  | _, call f ps, h => (f.accept s h).bind (ps.accept s)
  | _, paren _, _ => none
  | _, literal (Literal.string string), h => serveStrings (held s) h [string]
  | _, literal _, h => some h
  | _, identifier name, h => if nameFits s name then some h else none
  | _, noParams, h => some h
  | _, oneParam e, h => e.accept s h
  | _, moreParams ps e, h => if ps.isEmpty then none else (ps.accept s h).bind (e.accept s)

section Accept

variable {s : Shell} {c : Cat}

theorem op_ne_string {op : TokenType} {type : NodeType} (hop : c.op op = some type) :
    op ≠ TokenType.valueString := by
  rintro rfl
  cases c <;> cases hop

theorem accept_eq (d : Phrase c) : d.accept s = serveIf s d.clean d.tokens := by
  induction d with
  | lift _ d ih => exact ih
  | assign u e ihu ihe =>
    funext h
    rw [accept, ihu, ihe, serveIf_append, clean, tokens, serveIf_plain (by decide)]
  | binary op _ hop _ l r ihl ihr =>
    funext h
    rw [accept, ihl, ihr, serveIf_append, clean, tokens, serveIf_plain (op_ne_string hop)]
  | cast isUnsigned b d ih =>
    funext h
    have htype : b.token ≠ TokenType.valueString := by cases b <;> decide
    have htokens : serveIf s d.clean (cast isUnsigned b d).tokens = serveIf s d.clean d.tokens := by
      cases isUnsigned with
      | true =>
        exact (serveIf_plain (by decide) _ [] _).trans ((serveIf_plain (by decide) _ [] _).trans
          ((serveIf_plain htype _ [] _).trans (serveIf_plain (by decide) _ [] _)))
      | false =>
        exact (serveIf_plain (by decide) _ [] _).trans
          ((serveIf_plain htype _ [] _).trans (serveIf_plain (by decide) _ [] _))
    rw [accept, ih, ← htokens, clean]
    cases (castType isUnsigned b).isSome with
    | true => rfl
    | false => rfl
  | unary op d ih =>
    have htype : op.token ≠ TokenType.valueString := by cases op <;> decide
    exact ih.trans (serveIf_plain htype _ [] _).symm
  | step up d ih =>
    have htype : (if up then TokenType.inc else TokenType.dec) ≠ TokenType.valueString := by
      cases up <;> decide
    have hlast := serveIf_plain (s := s) htype d.clean d.tokens []
    rw [List.append_nil] at hlast
    exact ih.trans hlast.symm
  | call f ps ihf ihps =>
    funext h
    rw [accept, ihf, ihps, serveIf_append, clean, tokens, serveIf_plain (by decide),
      ← List.append_assoc, serveIf_plain (by decide), List.append_nil]
  | paren e _ => rfl
  | literal value => cases value <;> rfl
  | identifier name =>
    funext h
    simp [accept, serveIf, clean, tokens, namesFit, stringsOf, serveStrings]
  | noParams => rfl
  | oneParam e ih => exact ih
  | moreParams ps e ihps ihe =>
    funext h
    rw [accept, ihps, ihe, serveIf_append, clean, tokens, serveIf_plain (by decide)]
    cases ps.isEmpty with
    | true => rfl
    | false => rfl

end Accept

def need : {c : Cat} -> Phrase c -> Nat
  | _, lift _ d => d.need + 1
  | _, assign u e => u.need + e.need + 8
  | _, binary _ _ _ _ l r => l.need + r.need + 1
  | _, cast _ _ d => d.need + 1
  | _, unary _ d => d.need + 1
  | _, step _ d => d.need + 1
  | _, call f ps => f.need + ps.need + 2
  | _, paren e => e.need + 1
  | _, literal _ => 1
  | _, identifier _ => 1
  | _, noParams => 0
  | _, oneParam e => e.need + 1
  | _, moreParams ps e => ps.need + e.need + 1

end Phrase

end RtThread.Finsh
