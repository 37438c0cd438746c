import RtThread.Finsh.Correctness
import RtThread.Finsh.ParserLines

/-!
# Sessions of lines

`finsh_run_line` parses a line, compiles its tree and runs the code.  The meaning of a line
of integer expressions is read off its derivation; a session of such lines shows the values
that the evaluation gives, and leaves its effects in the variables.
-/

namespace RtThread.Finsh

open ByteMemory
open Tiling
open Transition

/-!
## Running a line
-/

/-- `finsh_error_string_table` -/
def finshErrorString : FinshError -> String
  | FinshError.ok => "No error"
  | FinshError.invalidToken => "Invalid token"
  | FinshError.expectType => "Expect a type"
  | FinshError.unknownType => "Unknown type"
  | FinshError.variableExist => "Variable exist"
  | FinshError.expectOperator => "Expect a operater"
  | FinshError.memoryFull => "Memory full"
  | FinshError.unknownOp => "Unknown operator"
  | FinshError.unknownNode => "Unknown node"
  | FinshError.expectChar => "Expect a character"
  | FinshError.unexpectEnd => "Unexpect end"
  | FinshError.unknownToken => "Unknown token"
  | FinshError.noFloat => "Float not supported"
  | FinshError.unknownSymbol => "Unknown symbol"
  | FinshError.nullNode => "Null node"

/-- What `finsh_run_line` prints. -/
inductive Shown where
  | error (text : String)
  | char (ch : Byte) (value : BitVec 32)
  | number (value : BitVec 32)
deriving DecidableEq, Repr

/-- The lowest byte is shown as a character where it is a printable one. -/
def showValue (value : BitVec 32) : Shown :=
  let ch := value.setWidth 8
  if 0x20 < ch ∧ ch < 0x7e then Shown.char ch value else Shown.number value

structure Session where
  shell : Shell
  stack : Nat -> BitVec 32
  mem : Memory
  shown : List Shown

/-- `finsh_run_line` without the newline at its beginning.  The compiler clears the first
entry of the stack, and prints nothing when it fails. -/
def finshRunLine {σ : Type} (next : σ -> Token × σ) (env : Symbols) (target : Target)
    (base fuel : Nat) (line : σ) (s : Session) : Option Session :=
  match finshParserRun next env fuel (startLine line s.shell) with
  | none => none
  | some (root, p) =>
    if p.shell.errno = FinshError.ok then
      let compiled := finshCompilerRun base p.shell.globalVariable root FinshError.ok
      let stack := Function.update s.stack 0 0
      if compiled.2 = FinshError.ok then
        (finshVmRun target (textSegment compiled.1) stack s.mem).map fun m =>
          { shell := finshFlush p.shell
            stack := m.stack
            mem := m.mem
            shown := s.shown ++ [showValue (finshStackBottom m)] }
      else some { s with shell := finshFlush p.shell, stack := stack }
    else
      some { s with
        shell := finshFlush p.shell
        shown := s.shown ++ [Shown.error (finshErrorString p.shell.errno)] }

/-!
## The meaning of a line
-/

def operation : NodeType -> Option BinOp
  | NodeType.sysAdd => some BinOp.add
  | NodeType.sysSub => some BinOp.sub
  | NodeType.sysDiv => some BinOp.div
  | NodeType.sysMod => some BinOp.mod
  | NodeType.sysMul => some BinOp.mul
  | NodeType.sysAnd => some BinOp.and
  | NodeType.sysOr => some BinOp.or
  | NodeType.sysXor => some BinOp.xor
  | NodeType.sysShl => some BinOp.shl
  | NodeType.sysShr => some BinOp.shr
  | _ => none

theorem nodeType_of_operation {type : NodeType} {op : BinOp}
    (hop : operation type = some op) : type = op.nodeType := by
  cases type <;> cases hop <;> rfl

namespace Phrase

variable (env : Symbols) (shell : Shell)

def named : {c : Cat} -> Phrase c -> Option NodeId
  | _, lift _ d => d.named
  | _, identifier name => finshLookup env shell name
  | _, _ => none

/-- A variable of the shell, which is all that can be stepped. -/
def stepped {c : Cat} (d : Phrase c) : Option Nat :=
  match d.named env shell with
  | some (NodeId.var index) => some index
  | _ => none

/-- Casts to `int` and `long` leave a value as it is. -/
def meaning : {c : Cat} -> Phrase c -> Option Expr
  | _, lift _ d => d.meaning
  | _, assign u e =>
    (u.named env shell).bind fun x => e.meaning.map (Expr.assign x)
  | _, binary _ type _ _ l r =>
    (operation type).bind fun op =>
      l.meaning.bind fun a => r.meaning.map (Expr.bin op a)
  | _, cast _ b d => if b = BaseType.int ∨ b = BaseType.long then d.meaning else none
  | _, unary UnaryOp.add d => d.meaning
  | _, unary UnaryOp.sub d => d.meaning.map (Expr.bin BinOp.sub (Expr.const 0))
  | _, unary UnaryOp.bitwise d => d.meaning.map Expr.not
  | _, unary UnaryOp.inc d => (d.stepped env shell).map (Expr.pre true)
  | _, unary UnaryOp.dec d => (d.stepped env shell).map (Expr.pre false)
  | _, step up d => (d.stepped env shell).map (Expr.post up)
  | _, paren e => e.meaning
  | _, literal (Literal.int value) => some (Expr.const value)
  | _, literal (Literal.long value) => some (Expr.const value)
  | _, identifier name =>
    (finshLookup env shell name).map Expr.var
  | _, _ => none

end Phrase

section Meaning

variable {env : Symbols} {shell : Shell} {vs : List FinshVar} {sysvars : List FinshSysvar}
  {c : Cat} {d : Phrase c} {t : Tree} {e : Expr} {x : NodeId}

theorem Phrase.Shape.of_named (ht : d.Shape env shell t) (hx : d.named env shell = some x) :
    t = Phrase.leaf NodeType.id x 0 := by
  induction d with
  | lift _ d ih => exact ih ht hx
  | identifier name =>
    rcases ht with ⟨id, hid, rfl⟩
    rw [Phrase.named, hid] at hx
    cases hx
    rfl
  | _ => cases hx

theorem stepped_named {index : Nat} (hindex : d.stepped env shell = some index) :
    d.named env shell = some (NodeId.var index) := by
  unfold Phrase.stepped at hindex
  split at hindex
  · rename_i hnamed
    cases hindex
    exact hnamed
  · cases hindex

theorem Represents.cast {info : FinshNode} {child : Tree} (code : Nat)
    (hr : Represents vs sysvars info child e) :
    Represents vs sysvars { info with dataType := code } child e := by
  cases hr with
  | const htype => exact Represents.const htype
  | var hid => exact Represents.var hid
  | bin op htype ha hb => exact Represents.bin op htype ha hb
  | not htype ha => exact Represents.not htype ha
  | assign htype hid ha => exact Represents.assign htype hid ha
  | pre up htype hid hvar => exact Represents.pre up htype hid hvar
  | post up htype hid hvar => exact Represents.post up htype hid hvar

theorem Phrase.Shape.represents (ht : d.Shape env shell t)
    (hmeaning : d.meaning env shell = some e) (hover : e.Over (Usable vs sysvars)) :
    exists info child, t = Tree.node info child Tree.null ∧
      Represents vs sysvars info child e := by
  induction d generalizing t e with
  | lift _ d ih => exact ih ht hmeaning hover
  | assign u d _ ih =>
    rcases ht with ⟨t1, t2, ht1, ht2, rfl⟩
    simp only [Phrase.meaning, Option.bind_eq_some_iff, Option.map_eq_some_iff] at hmeaning
    rcases hmeaning with ⟨x, hx, a, ha, rfl⟩
    rcases ih ht2 ha hover.right with ⟨i2, c2, rfl, hr⟩
    cases ht1.of_named hx
    exact ⟨_, _, rfl, Represents.assign rfl ⟨rfl, hover.left, rfl⟩ hr⟩
  | binary _ type _ _ l r ihl ihr =>
    rcases ht with ⟨t1, t2, ht1, ht2, rfl⟩
    simp only [Phrase.meaning, Option.bind_eq_some_iff, Option.map_eq_some_iff] at hmeaning
    rcases hmeaning with ⟨op, hop, a, ha, b, hb, rfl⟩
    rcases ihl ht1 ha hover.left with ⟨i1, c1, rfl, hr1⟩
    rcases ihr ht2 hb hover.right with ⟨i2, c2, rfl, hr2⟩
    exact ⟨_, _, rfl, Represents.bin op (nodeType_of_operation hop) hr1 hr2⟩
  | cast isUnsigned b d ih =>
    rcases ht with ⟨t1, type, ht1, _, rfl⟩
    simp only [Phrase.meaning, Option.ite_none_right_eq_some] at hmeaning
    rcases ih ht1 hmeaning.right hover with ⟨i1, c1, rfl, hr⟩
    exact ⟨_, _, rfl, hr.cast type.code⟩
  | unary op d ih =>
    rcases ht with ⟨t1, ht1, rfl⟩
    cases op with
    | add => exact ih ht1 hmeaning hover
    | sub =>
      simp only [Phrase.meaning, Option.map_eq_some_iff] at hmeaning
      rcases hmeaning with ⟨a, ha, rfl⟩
      rcases ih ht1 ha hover.right with ⟨i1, c1, rfl, hr⟩
      exact ⟨_, _, rfl, Represents.bin BinOp.sub rfl (Represents.const (Or.inr rfl)) hr⟩
    | bitwise =>
      simp only [Phrase.meaning, Option.map_eq_some_iff] at hmeaning
      rcases hmeaning with ⟨a, ha, rfl⟩
      rcases ih ht1 ha hover with ⟨i1, c1, rfl, hr⟩
      exact ⟨_, _, rfl, Represents.not rfl hr⟩
    | inc =>
      simp only [Phrase.meaning, Option.map_eq_some_iff] at hmeaning
      rcases hmeaning with ⟨index, hindex, rfl⟩
      cases ht1.of_named (stepped_named hindex)
      exact ⟨_, _, rfl, Represents.pre true rfl ⟨rfl, hover, rfl⟩ rfl⟩
    | dec =>
      simp only [Phrase.meaning, Option.map_eq_some_iff] at hmeaning
      rcases hmeaning with ⟨index, hindex, rfl⟩
      cases ht1.of_named (stepped_named hindex)
      exact ⟨_, _, rfl, Represents.pre false rfl ⟨rfl, hover, rfl⟩ rfl⟩
    | mul => cases hmeaning
    | and => cases hmeaning
  | step up d _ =>
    rcases ht with ⟨t1, ht1, rfl⟩
    simp only [Phrase.meaning, Option.map_eq_some_iff] at hmeaning
    rcases hmeaning with ⟨index, hindex, rfl⟩
    cases ht1.of_named (stepped_named hindex)
    exact ⟨_, _, rfl, Represents.post up (by cases up <;> rfl) ⟨rfl, hover, rfl⟩ rfl⟩
  | paren d ih => exact ih ht hmeaning hover
  | literal value =>
    cases value with
    | int value =>
      cases ht
      cases hmeaning
      exact ⟨_, _, rfl, Represents.const (Or.inl rfl)⟩
    | long value =>
      cases ht
      cases hmeaning
      exact ⟨_, _, rfl, Represents.const (Or.inr rfl)⟩
    | _ => cases hmeaning
  | identifier name =>
    rcases ht with ⟨id, hid, rfl⟩
    rw [Phrase.meaning, hid] at hmeaning
    cases hmeaning
    exact ⟨_, _, rfl, Represents.var ⟨rfl, hover, rfl⟩⟩
  | _ => cases hmeaning

theorem strings_of_named (hx : d.named env shell = some x) : stringsOf d.tokens = [] := by
  induction d with
  | lift _ d ih => exact ih hx
  | identifier name => rfl
  | _ => cases hx

/-- No string has a meaning. -/
theorem strings_of_meaning (hmeaning : d.meaning env shell = some e) : stringsOf d.tokens = [] := by
  induction d generalizing e with
  | lift _ d ih => exact ih hmeaning
  | assign u d _ ih =>
    simp only [Phrase.meaning, Option.bind_eq_some_iff, Option.map_eq_some_iff] at hmeaning
    rcases hmeaning with ⟨x, hx, a, ha, _⟩
    exact stringsOf_plain (by decide) (strings_of_named hx) (ih ha)
  | binary op type hop _ l r ihl ihr =>
    simp only [Phrase.meaning, Option.bind_eq_some_iff, Option.map_eq_some_iff] at hmeaning
    rcases hmeaning with ⟨_, _, a, ha, b, hb, _⟩
    exact stringsOf_plain (Phrase.op_ne_string hop) (ihl ha) (ihr hb)
  | cast isUnsigned b d ih =>
    simp only [Phrase.meaning, Option.ite_none_right_eq_some] at hmeaning
    have htokens : stringsOf (plain TokenType.leftParen :: Phrase.castTokens isUnsigned b) =
      [] := by
      cases isUnsigned <;> cases b <;> rfl
    refine (stringsOf_append (plain TokenType.leftParen :: Phrase.castTokens isUnsigned b)
      d.tokens).trans ?_
    rw [htokens, ih hmeaning.right]
    rfl
  | unary op d ih =>
    have hd : stringsOf d.tokens = [] := by
      cases op <;> simp only [Phrase.meaning, Option.map_eq_some_iff, reduceCtorEq] at hmeaning
      case add => exact ih hmeaning
      case sub | bitwise => exact ih hmeaning.choose_spec.left
      case inc | dec => exact strings_of_named (stepped_named hmeaning.choose_spec.left)
    exact @stringsOf_plain _ (by cases op <;> decide) [] _ rfl hd
  | step up d _ =>
    simp only [Phrase.meaning, Option.map_eq_some_iff] at hmeaning
    rcases hmeaning with ⟨index, hindex, _⟩
    exact stringsOf_plain (by cases up <;> decide) (strings_of_named (stepped_named hindex)) rfl
  | paren d ih =>
    have hclose : stringsOf (d.tokens ++ [plain TokenType.rightParen]) = [] :=
      stringsOf_plain (by decide) (ih hmeaning) rfl
    exact @stringsOf_plain TokenType.leftParen (by decide) [] _ rfl hclose
  | literal value => cases value <;> first | rfl | cases hmeaning
  | identifier name => rfl
  | _ => cases hmeaning

end Meaning

/-!
## Lines of a session
-/

/-- A derivation that has a meaning in the shell, and that fits the tables of the parser, the
text segment and the stack. -/
structure Readable (env : Symbols) (shell : Shell) (sysvars : List FinshSysvar) (base : Nat)
    (d : Phrase Cat.assignExpr) (e : Expr) : Prop where
  resolves : d.Resolves env shell
  clean : d.clean = true
  names : namesFit shell d.tokens = true
  nodes : d.nodes ≤ finshNodeMax
  meaning : d.meaning env shell = some e
  usable : e.Over (Usable shell.globalVariable sysvars)
  fits : (e.code base).length ≤ finshTextMax
  shallow : e.depth ≤ finshStackMax

/-- Between two lines no node is in use and no error is set. -/
structure Ready (heap : Nat) (shell : Shell) (s : Shell) : Prop where
  vars : s.globalVariable = shell.globalVariable
  nodes : s.nodes = 0
  errno : s.errno = FinshError.ok
  heaped : exists l, Heaped heap s.heap l

/-- The values of lines, one after the other. -/
def evalLines : List Expr -> Store -> Option (List (BitVec 32) × Store)
  | [], st => some ([], st)
  | e :: es, st =>
    (e.eval st).bind fun r => (evalLines es r.2).map fun rs => (r.1 :: rs.1, rs.2)

section Lines

variable {env : Symbols} {shell : Shell} {sysvars : List FinshSysvar}
  {base heap fuel : Nat} {d : Phrase Cat.assignExpr} {e : Expr} {s : Session}
  {st st' : Store} {v : BitVec 32}

theorem Represents.runs {vs : List FinshVar} {info : FinshNode} {child : Tree} {mem : Memory}
    (target : Target) (hplaced : Placed base sysvars) (hr : Represents vs sysvars info child e)
    (hfits : (e.code base).length ≤ finshTextMax) (hshallow : e.depth ≤ finshStackMax)
    (ha : Agrees base sysvars st mem) (he : e.eval st = some (v, st'))
    (stack : Nat -> BitVec 32) :
    finshCompilerRun base vs (Tree.node info child Tree.null) FinshError.ok =
        (e.code base, FinshError.ok) ∧
      exists m, finshVmRun target (textSegment (e.code base)) stack mem = some m ∧
        finshStackBottom m = v ∧ Agrees base sysvars st' m.mem := by
  constructor
  · have hstatements := Statements.cons hr Statements.nil
    rcases hstatements.checked base FinshError.ok with ⟨root, hcheck, hcode, _⟩
    unfold finshCompilerRun
    rw [hcheck]
    exact hcode
  · have hdepth : ([] : List (BitVec 32)).length + e.depth ≤ finshStackMax := by
      simpa using hshallow
    rcases e.reach target hplaced hr.over (codeAt_textSegment hfits) hdepth ha he with
      ⟨mem', hreach, ha'⟩
    have hzero : forall i, 0 + (e.code base).length ≤ i -> i < finshTextMax ->
        textSegment (e.code base) i = 0 := by
      intro i hi _
      unfold textSegment
      rw [List.getElem?_eq_none (by omega)]
      rfl
    have hend := hreach.trans (reach_end hzero (by omega))
    rcases finshVmRun_of_reach stack hend with ⟨m, hvm, hm⟩
    exact ⟨m, hvm, hm.cells.left, hm.mem ▸ ha'⟩

/-- A readable line shows the value of its expression and carries out its effects. -/
theorem Readable.runs (target : Target) (hplaced : Placed base sysvars)
    (hd : Readable env shell sysvars base d e) (hready : Ready heap shell s.shell)
    (ha : Agrees base sysvars st s.mem) (he : e.eval st = some (v, st'))
    (hfuel : d.need + 1 < fuel) :
    exists s', finshRunLine listSource env target base fuel d.line s = some s' ∧
      s'.shown = s.shown ++ [showValue v] ∧ Ready heap shell s'.shell ∧
      Agrees base sysvars st' s'.mem := by
  have hserve : d.accept shell s.shell.heap = some s.shell.heap := by
    rw [d.accept_eq, serveIf, hd.clean, hd.names, strings_of_meaning hd.meaning]
    rfl
  have haccept : Accepted env s.shell.heap s.shell.heap shell d :=
    accepted_of_accept d hd.resolves hserve (d.isEmpty_of_ne (by decide))
  have hat : At s.shell.heap shell d.line 0 (startLine d.line s.shell) :=
    ⟨rfl, hready.errno, hready.vars, hready.nodes, rfl⟩
  obtain ⟨j, rfl⟩ : exists j, fuel = j + 1 := ⟨fuel - 1, by omega⟩
  have hneed : d.need < j := by omega
  have hroom : 0 + d.nodes ≤ finshNodeMax := (Nat.zero_add _).trans_le hd.nodes
  rcases hat.run_line haccept hneed hroom with ⟨root, p, hparse, hok, hshape, hvars, hheap⟩
  rcases hshape.represents hd.meaning hd.usable with ⟨info, child, rfl, hr⟩
  rcases hr.runs target hplaced hd.fits hd.shallow ha he (Function.update s.stack 0 0) with
    ⟨hcompile, m, hvm, hbottom, ha'⟩
  have hrun : finshRunLine listSource env target base (j + 1) d.line s = some
      { shell := finshFlush p.shell, stack := m.stack, mem := m.mem,
        shown := s.shown ++ [showValue (finshStackBottom m)] } := by
    unfold finshRunLine
    simp only [hparse, hok, if_true, hvars, hcompile, hvm, Option.map_some]
  have hheaped : exists l, Heaped heap p.shell.heap l := hheap ▸ hready.heaped
  refine ⟨_, hrun, ?_, ⟨hvars, rfl, rfl, hheaped⟩, ha'⟩
  rw [hbottom]

/-- A session of readable lines, from any store that the memory holds. -/
theorem finsh_session_evaluates {ds : List (Phrase Cat.assignExpr)} {es : List Expr}
    {vs : List (BitVec 32)} (target : Target) (hplaced : Placed base sysvars)
    (hlines : List.Forall₂ (Readable env shell sysvars base) ds es)
    (hready : Ready heap shell s.shell) (ha : Agrees base sysvars st s.mem)
    (he : evalLines es st = some (vs, st')) (hfuel : forall d, d ∈ ds -> d.need + 1 < fuel) :
    exists s', exec (fun s line => finshRunLine listSource env target base fuel line s) s
        (ds.map Phrase.line) = some s' ∧
      s'.shown = s.shown ++ vs.map showValue ∧ Ready heap shell s'.shell ∧
      Agrees base sysvars st' s'.mem := by
  induction hlines generalizing s st vs with
  | nil =>
    cases he
    exact ⟨s, rfl, (List.append_nil _).symm, hready, ha⟩
  | cons hd _ ih =>
    simp only [evalLines, Option.bind_eq_some_iff, Option.map_eq_some_iff] at he
    rcases he with ⟨⟨v, st1⟩, he1, ⟨vs', st2⟩, he2, heq⟩
    cases heq
    rcases hd.runs target hplaced hready ha he1 (hfuel _ List.mem_cons_self) with
      ⟨s1, hrun1, hshown1, hready1, ha1⟩
    rcases ih hready1 ha1 he2 (fun d hd => hfuel d (List.mem_cons_of_mem _ hd)) with
      ⟨s2, hrun2, hshown2, hready2, ha2⟩
    refine ⟨s2, ?_, ?_, hready2, ha2⟩
    · simp only [List.map_cons, exec, hrun1]
      exact hrun2
    · rw [hshown2, hshown1, List.append_assoc]
      rfl

end Lines

def sampleSession : Session :=
  { shell := { finshInit 0x1000 with globalVariable := sampleVariables }
    stack := fun _ => 0
    mem := fun _ => 0
    shown := [] }

namespace Cat

theorem operand_assign : assignExpr.operand = some inclusiveOrExpr := rfl
theorem operand_or : inclusiveOrExpr.operand = some exclusiveOrExpr := rfl
theorem operand_xor : exclusiveOrExpr.operand = some andExpr := rfl
theorem operand_and : andExpr.operand = some shiftExpr := rfl
theorem operand_shift : shiftExpr.operand = some additiveExpr := rfl
theorem operand_add : additiveExpr.operand = some multiplicativeExpr := rfl
theorem operand_mul : multiplicativeExpr.operand = some castExpr := rfl
theorem operand_cast : castExpr.operand = some unaryExpr := rfl
theorem operand_unary : unaryExpr.operand = some postfixExpr := rfl
theorem operand_postfix : postfixExpr.operand = some primaryExpr := rfl
theorem op_add : additiveExpr.op TokenType.add = some NodeType.sysAdd := rfl

end Cat

def sampleName : Phrase Cat.postfixExpr :=
  Phrase.lift Cat.operand_postfix (Phrase.identifier ['a'])

def sampleAssign : Phrase Cat.assignExpr :=
  Phrase.assign (Phrase.lift Cat.operand_unary sampleName)
    (Phrase.ofPrimary (Phrase.literal (Literal.int 3)))

open Phrase Cat in
def sampleSum : Phrase assignExpr :=
  let up := lift operand_mul (lift operand_cast (lift operand_unary (step true sampleName)))
  let number := lift operand_mul (lift operand_cast (lift operand_unary
    (lift operand_postfix (literal (Literal.int 70)))))
  let sum := binary TokenType.add NodeType.sysAdd op_add operand_add (lift operand_add up) number
  lift operand_assign (lift operand_or (lift operand_xor (lift operand_and
    (lift operand_shift sum))))

theorem finsh_session_evaluates_two_lines : exists s',
    exec (fun s line => finshRunLine listSource sampleSymbols sampleTarget 0x20000000 40 line s)
      sampleSession [sampleAssign.line, sampleSum.line] = some s' ∧
    s'.shown = [Shown.number 3, Shown.char 73 73] := by
  have hknown : Usable sampleVariables [] (NodeId.var 0) := ⟨by decide, Or.inl rfl⟩
  have hassign : Readable sampleSymbols sampleSession.shell [] 0x20000000 sampleAssign
      (Expr.assign (NodeId.var 0) (Expr.const 3)) :=
    ⟨⟨rfl, trivial⟩, rfl, rfl, by decide, rfl, ⟨hknown, trivial⟩, by decide, by decide⟩
  have hsum : Readable sampleSymbols sampleSession.shell [] 0x20000000 sampleSum
      (Expr.bin BinOp.add (Expr.post true 0) (Expr.const 70)) :=
    ⟨⟨rfl, trivial⟩, rfl, rfl, by decide, rfl, ⟨hknown, trivial⟩, by decide, by decide⟩
  have hplaced : Placed 0x20000000 [] := ⟨by decide, by simp, by simp, by simp⟩
  have heval : evalLines [Expr.assign (NodeId.var 0) (Expr.const 3),
      Expr.bin BinOp.add (Expr.post true 0) (Expr.const 70)] (fun _ => 0) =
      some ([3, 73], Function.update (fun _ => 0) (NodeId.var 0) 4) := by
    simp only [evalLines, Expr.eval, Option.map_some, Option.bind_some,
      Function.update_self, Function.update_idem]
    rfl
  have hready : Ready 0x1000 sampleSession.shell sampleSession.shell :=
    ⟨rfl, rfl, rfl, _, Heaped.init⟩
  have hfuel : forall d, d ∈ [sampleAssign, sampleSum] -> d.need + 1 < 40 := by decide
  rcases finsh_session_evaluates sampleTarget hplaced
    (List.Forall₂.cons hassign (List.Forall₂.cons hsum List.Forall₂.nil)) hready
    (fun _ _ => rfl) heval hfuel with ⟨s', hrun, hshown, _⟩
  exact ⟨s', hrun, hshown⟩

end RtThread.Finsh
