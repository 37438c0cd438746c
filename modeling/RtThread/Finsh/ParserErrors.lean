import RtThread.Finsh.Parser

/-!
# Errors stick

No function of the parser clears the error code.  Once an error is set, the parser
ends with an error whatever the remaining tokens are, if it ends.
-/

namespace RtThread.Finsh

variable {σ α β : Type}

def Sticky (x : ParserM σ α) : Prop :=
  forall p a p', x p = some (a, p') -> p.shell.errno ≠ FinshError.ok ->
    p'.shell.errno ≠ FinshError.ok

/-- From this state on there is no result without an error. -/
def Fails (x : ParserM σ α) (p : Parser σ) : Prop :=
  forall a p', x p = some (a, p') -> p'.shell.errno ≠ FinshError.ok

section Rules

variable {x : ParserM σ α} {f : α -> ParserM σ β} {p p1 : Parser σ} {a : α}

theorem run_bind (hx : x p = some (a, p1)) : (x >>= f) p = f a p1 := by
  show (x p).bind _ = _
  rw [hx]
  rfl

theorem bind_eq_some {r : β × Parser σ} (hr : (x >>= f) p = some r) :
    exists a p1, x p = some (a, p1) ∧ f a p1 = some r := by
  have hbind : ((x p).bind fun s => f s.1 s.2) = some r := hr
  rw [Option.bind_eq_some_iff] at hbind
  rcases hbind with ⟨⟨a, p1⟩, hx, hf⟩
  exact ⟨a, p1, hx, hf⟩

theorem Sticky.bind (hx : Sticky x) (hf : forall a, Sticky (f a)) : Sticky (x >>= f) := by
  intro p b p' hr herr
  rcases bind_eq_some hr with ⟨a, p1, hx1, hf1⟩
  exact hf a p1 b p' hf1 (hx p a p1 hx1 herr)

theorem sticky_pure (a : α) : Sticky (pure a : ParserM σ α) := by
  intro p b p' hr herr
  cases hr
  exact herr

theorem Fails.bind (hx : Fails x p) (hf : forall a, Sticky (f a)) : Fails (x >>= f) p := by
  intro b p' hr
  rcases bind_eq_some hr with ⟨a, p1, hx1, hf1⟩
  exact hf a p1 b p' hf1 (hx a p1 hx1)

theorem Fails.after (hx : x p = some (a, p1)) (hf : Fails (f a) p1) : Fails (x >>= f) p := by
  intro b p' hr
  rw [run_bind hx] at hr
  exact hf b p' hr

theorem Sticky.ite {c : Prop} [Decidable c] {y : ParserM σ α} (hx : Sticky x) (hy : Sticky y) :
    Sticky (if c then x else y) := by
  split
  · exact hx
  · exact hy

end Rules

/-!
## Tokens and nodes
-/

theorem sticky_outOfFuel : Sticky (outOfFuel : ParserM σ α) := by
  intro p a p' hr
  cases hr

theorem sticky_tokenReplay : Sticky (tokenReplay : ParserM σ Unit) := by
  intro p a p' hr herr
  cases hr
  exact herr

theorem sticky_currentToken : Sticky (currentToken : ParserM σ Token) := by
  intro p a p' hr herr
  cases hr
  exact herr

theorem sticky_errorSet {e : FinshError} (he : e ≠ FinshError.ok) :
    Sticky (errorSet e : ParserM σ Unit) := by
  intro p a p' hr _
  cases hr
  exact he

theorem fails_errorSet {e : FinshError} (he : e ≠ FinshError.ok) (p : Parser σ) :
    Fails (errorSet e) p := by
  intro a p' hr
  cases hr
  exact he

theorem sticky_nextToken {next : σ -> Token × σ} : Sticky (nextToken next) := by
  intro p a p' hr herr
  unfold nextToken at hr
  split at hr
  · cases hr
    exact herr
  · cases hr
    simp only
    split
    · exact herr
    · rename_i he
      exact he

theorem sticky_checkToken {token type : TokenType} :
    Sticky (checkToken token type : ParserM σ Unit) :=
  Sticky.ite (sticky_pure ()) ((sticky_errorSet (by decide)).bind fun _ => sticky_tokenReplay)

theorem sticky_matchToken {next : σ -> Token × σ} {type : TokenType} :
    Sticky (matchToken next type) :=
  sticky_nextToken.bind fun _ => sticky_checkToken

def Keeps (new : Shell -> Tree × Shell) : Prop :=
  forall s, s.errno ≠ FinshError.ok -> (new s).2.errno ≠ FinshError.ok

theorem sticky_newNode {new : Shell -> Tree × Shell} (hk : Keeps new) :
    Sticky (newNode new : ParserM σ Tree) := by
  intro p a p' hr herr
  cases hr
  exact hk p.shell herr

theorem finshNodeAllocate_errno {s : Shell} {type : NodeType} :
    (finshNodeAllocate s type).2.errno = s.errno := by
  unfold finshNodeAllocate
  split <;> rfl

theorem keeps_finshNodeNew {type : NodeType} {fill : FinshNode -> FinshNode} :
    Keeps fun s => finshNodeNew s type fill := by
  intro s herr
  have halloc := @finshNodeAllocate_errno s type
  show (finshNodeNew s type fill).2.errno ≠ FinshError.ok
  unfold finshNodeNew
  split
  · exact (by decide : FinshError.memoryFull ≠ FinshError.ok)
  · rename_i hcase
    rw [hcase] at halloc
    rw [halloc]
    exact herr

theorem keeps_finshNodeNewId {env : Symbols} {name : List Char} :
    Keeps fun s => finshNodeNewId env s name := by
  intro s herr
  show (finshNodeNewId env s name).2.errno ≠ FinshError.ok
  unfold finshNodeNewId
  split
  · exact keeps_finshNodeNew s herr
  · exact (by decide : FinshError.unknownSymbol ≠ FinshError.ok)

theorem sticky_newId {env : Symbols} {id : List Char} :
    Sticky (newId env id : ParserM σ Tree) := by
  intro p a p' hr herr
  unfold newId at hr
  split at hr
  · cases hr
  · exact sticky_newNode keeps_finshNodeNewId p a p' hr herr

theorem keeps_makeNode {type : NodeType} {t1 t2 : Tree} : Keeps (makeNode type t1 t2) := by
  intro s herr
  have halloc := @finshNodeAllocate_errno s type
  unfold makeNode
  split
  · exact (by decide : FinshError.nullNode ≠ FinshError.ok)
  · rename_i hcase
    rw [hcase] at halloc
    split
    · exact (by decide : FinshError.nullNode ≠ FinshError.ok)
    · rw [halloc]
      exact herr

theorem sticky_makeSysNode {type : NodeType} {t1 t2 : Tree} :
    Sticky (makeSysNode type t1 t2 : ParserM σ Tree) :=
  sticky_newNode keeps_makeNode

theorem sticky_newString {string : List Char} : Sticky (newString string : ParserM σ Tree) := by
  intro p a p' hr herr
  rcases Option.map_eq_some_iff.mp hr with ⟨⟨t, s⟩, hnew, heq⟩
  cases heq
  rcases newString_cases hnew with ⟨_, rfl⟩ | ⟨_, _, _, _, rfl⟩
  · exact (by decide : FinshError.memoryFull ≠ FinshError.ok)
  · exact herr

/-!
## Types and identifiers
-/

section Types

variable {next : σ -> Token × σ} {env : Symbols}

theorem sticky_procPointer {type : FinshType} : Sticky (procPointer next type) :=
  sticky_nextToken.bind fun _ => Sticky.ite (sticky_pure _)
    (sticky_tokenReplay.bind fun _ => sticky_pure _)

theorem sticky_unknownType : Sticky (unknownType : ParserM σ FinshType) :=
  sticky_tokenReplay.bind fun _ =>
    (sticky_errorSet (by decide)).bind fun _ => sticky_pure _

theorem fails_unknownType (p : Parser σ) : Fails unknownType p :=
  Fails.after rfl ((fails_errorSet (by decide) _).bind fun _ => sticky_pure _)

theorem sticky_procUnsigned : Sticky (procUnsigned next) := by
  refine sticky_nextToken.bind fun token => ?_
  split
  · split
    · exact sticky_procPointer
    · exact sticky_unknownType
  · exact sticky_tokenReplay.bind fun _ =>
      (sticky_errorSet (by decide)).bind fun _ => sticky_procPointer

theorem sticky_procType : Sticky (procType next) := by
  refine sticky_nextToken.bind fun token => ?_
  split
  · exact sticky_procPointer
  · exact Sticky.ite sticky_procUnsigned sticky_unknownType

theorem sticky_procIdentifier : Sticky (procIdentifier next) :=
  sticky_matchToken.bind fun _ => sticky_currentToken.bind fun _ => sticky_pure _

/-!
## Expressions
-/

theorem sticky_binaryLoop {op : TokenType -> Option NodeType} {operand : ParserM σ Tree}
    (ho : Sticky operand) (fuel : Nat) (left : Tree) :
    Sticky (binaryLoop next op operand fuel left) := by
  induction fuel generalizing left with
  | zero => exact sticky_outOfFuel
  | succ fuel ih =>
    refine sticky_nextToken.bind fun token => ?_
    split
    · exact sticky_tokenReplay.bind fun _ => sticky_pure _
    · refine ho.bind fun right => Sticky.ite ?_ ?_
      · exact (sticky_errorSet (by decide)).bind fun _ => ih left
      · exact sticky_makeSysNode.bind fun left => ih left

theorem sticky_procBinary {op : TokenType -> Option NodeType} {operand : ParserM σ Tree}
    (ho : Sticky operand) (fuel : Nat) : Sticky (procBinary next op operand fuel) :=
  ho.bind fun left => sticky_binaryLoop ho fuel left

theorem sticky_paramLoop {assign : ParserM σ Tree} (ha : Sticky assign) (fuel : Nat) :
    Sticky (paramLoop next assign fuel) := by
  induction fuel with
  | zero => exact sticky_outOfFuel
  | succ fuel ih =>
    refine sticky_nextToken.bind fun token => Sticky.ite ?_ ?_
    · refine ha.bind fun param => Sticky.ite ?_ ?_
      · exact (sticky_errorSet (by decide)).bind fun _ => ih
      · exact ih.bind fun _ => sticky_pure _
    · exact sticky_tokenReplay.bind fun _ => sticky_pure _

theorem sticky_procParamList {assign : ParserM σ Tree} (ha : Sticky assign) (fuel : Nat) :
    Sticky (procParamList next assign fuel) :=
  ha.bind fun _ => Sticky.ite (sticky_pure _)
    ((sticky_paramLoop ha fuel).bind fun _ => sticky_pure _)

theorem sticky_procPrimaryExpr {assign : ParserM σ Tree} (ha : Sticky assign) :
    Sticky (procPrimaryExpr next env assign) := by
  refine sticky_nextToken.bind fun token => sticky_currentToken.bind fun current => ?_
  split
  · exact sticky_tokenReplay.bind fun _ => sticky_procIdentifier.bind fun _ =>
      sticky_newId
  · exact ha.bind fun _ => sticky_matchToken.bind fun _ => sticky_pure _
  · exact sticky_newNode keeps_finshNodeNew
  · exact sticky_newNode keeps_finshNodeNew
  · exact sticky_newNode keeps_finshNodeNew
  · exact sticky_newString
  · exact sticky_newNode keeps_finshNodeNew
  · exact (sticky_errorSet (by decide)).bind fun _ => sticky_pure _

theorem sticky_procParams {assign : ParserM σ Tree} (ha : Sticky assign) (fuel : Nat) :
    Sticky (procParams next assign fuel) :=
  sticky_nextToken.bind fun _ => Sticky.ite (sticky_pure _)
    (sticky_tokenReplay.bind fun _ => (sticky_procParamList ha fuel).bind fun _ =>
      sticky_matchToken.bind fun _ => sticky_pure _)

theorem sticky_postfixLoop {assign : ParserM σ Tree} (ha : Sticky assign) (fuel : Nat)
    (t : Tree) : Sticky (postfixLoop next assign fuel t) := by
  induction fuel generalizing t with
  | zero => exact sticky_outOfFuel
  | succ fuel ih =>
    refine sticky_nextToken.bind fun token => ?_
    split
    · exact sticky_makeSysNode.bind fun t => ih t
    · exact sticky_makeSysNode.bind fun t => ih t
    · exact (sticky_procParams ha fuel).bind fun _ => sticky_makeSysNode.bind fun t => ih t
    · exact sticky_tokenReplay.bind fun _ => sticky_pure _

theorem sticky_procPostfixExpr {assign : ParserM σ Tree} (ha : Sticky assign) (fuel : Nat) :
    Sticky (procPostfixExpr next env assign fuel) :=
  (sticky_procPrimaryExpr ha).bind fun t => sticky_postfixLoop ha fuel t

theorem sticky_procUnaryExpr {cast inner : ParserM σ Tree} (hc : Sticky cast)
    (hi : Sticky inner) : Sticky (procUnaryExpr next cast inner) := by
  refine sticky_nextToken.bind fun token => ?_
  split
  · exact hc
  · exact hc.bind fun _ => sticky_makeSysNode
  · exact hc.bind fun _ => (sticky_newNode keeps_finshNodeNew).bind fun _ =>
      sticky_makeSysNode
  · exact hc.bind fun _ => sticky_makeSysNode
  · exact hc.bind fun _ => sticky_makeSysNode
  · exact hc.bind fun _ => sticky_makeSysNode
  · exact hc.bind fun _ => sticky_makeSysNode
  · exact sticky_tokenReplay.bind fun _ => hi

theorem sticky_procCastExpr {inner : ParserM σ Tree} (hi : Sticky inner) (fuel : Nat) :
    Sticky (procCastExpr next inner fuel) := by
  induction fuel with
  | zero => exact sticky_outOfFuel
  | succ fuel ih =>
    have hunary : Sticky (procUnaryExpr next (procCastExpr next inner fuel) inner) :=
      sticky_procUnaryExpr ih hi
    refine sticky_nextToken.bind fun token => Sticky.ite ?_ ?_
    · refine sticky_procType.bind fun _ => sticky_matchToken.bind fun _ =>
        ih.bind fun _ => Sticky.ite ?_ (sticky_pure _)
      exact sticky_tokenReplay.bind fun _ => hunary
    · exact sticky_tokenReplay.bind fun _ => hunary

theorem sticky_procInclusiveOrExpr {assign : ParserM σ Tree} (ha : Sticky assign)
    (fuel : Nat) : Sticky (procInclusiveOrExpr next env assign fuel) := by
  have hcast : Sticky (procCastExpr next (procPostfixExpr next env assign fuel) fuel) :=
    sticky_procCastExpr (sticky_procPostfixExpr ha fuel) fuel
  exact sticky_procBinary (sticky_procBinary (sticky_procBinary (sticky_procBinary
    (sticky_procBinary (sticky_procBinary hcast fuel) fuel) fuel) fuel) fuel) fuel

theorem sticky_procAssignExpr (fuel : Nat) : Sticky (procAssignExpr next env fuel) := by
  induction fuel with
  | zero => exact sticky_outOfFuel
  | succ fuel ih =>
    refine (sticky_procInclusiveOrExpr ih fuel).bind fun _ => sticky_nextToken.bind
      fun token => Sticky.ite ?_ ?_
    · exact ih.bind fun _ => sticky_makeSysNode
    · exact sticky_tokenReplay.bind fun _ => sticky_pure _

/-!
## Statements
-/

theorem sticky_procExprStatement (fuel : Nat) : Sticky (procExprStatement next env fuel) :=
  sticky_nextToken.bind fun _ => Sticky.ite (sticky_pure _)
    (sticky_tokenReplay.bind fun _ => (sticky_procAssignExpr fuel).bind fun _ =>
      sticky_matchToken.bind fun _ => sticky_pure _)

theorem sticky_declare {id : List Char} {type : FinshType} :
    Sticky (declare id type : ParserM σ Unit) := by
  intro p a p' hr herr
  unfold declare finshVarInsert at hr
  split at hr
  · rename_i s hs
    cases hr
    split at hs
    · cases hs
    · split at hs
      · cases hs
      · cases hs
        exact herr
  · cases hr
    exact (by decide : FinshError.variableExist ≠ FinshError.ok)

theorem sticky_initVariable {id : List Char} {value : Tree} :
    Sticky (initVariable env id value : ParserM σ Tree) :=
  sticky_newId.bind fun _ => sticky_makeSysNode

theorem sticky_declLoop {type : FinshType} {assign : ParserM σ Tree} (ha : Sticky assign)
    (fuel : Nat) (token : TokenType) :
    Sticky (declLoop next env type assign fuel token) := by
  induction fuel generalizing token with
  | zero => exact sticky_outOfFuel
  | succ fuel ih =>
    refine Sticky.ite ?_ (sticky_pure _)
    refine sticky_procIdentifier.bind fun _ => sticky_declare.bind fun _ =>
      sticky_nextToken.bind fun token => Sticky.ite ?_ (ih token)
    refine ha.bind fun _ => Sticky.ite (ih token) ?_
    exact sticky_initVariable.bind fun _ => sticky_nextToken.bind fun token =>
      (ih token).bind fun _ => sticky_pure _

theorem sticky_procVariableDecl (fuel : Nat) : Sticky (procVariableDecl next env fuel) := by
  have hassign : Sticky (procAssignExpr next env fuel) := sticky_procAssignExpr fuel
  refine sticky_procType.bind fun _ => sticky_procIdentifier.bind fun _ =>
    sticky_declare.bind fun _ => sticky_nextToken.bind fun token => ?_
  split
  · exact (sticky_declLoop hassign fuel _).bind fun _ => sticky_checkToken.bind fun _ =>
      sticky_pure _
  · refine hassign.bind fun _ => Sticky.ite ?_ ?_
    · exact sticky_checkToken.bind fun _ => sticky_pure _
    · exact sticky_initVariable.bind fun _ => sticky_nextToken.bind fun token =>
        (sticky_declLoop hassign fuel token).bind fun _ => sticky_checkToken.bind fun _ =>
          sticky_pure _
  · exact sticky_pure _
  · exact (sticky_errorSet (by decide)).bind fun _ => sticky_pure _

theorem sticky_procStatement (fuel : Nat) (token : TokenType) (root : Root) :
    Sticky (procStatement next env fuel token root) :=
  sticky_tokenReplay.bind fun _ => Sticky.ite (sticky_procVariableDecl fuel)
    ((sticky_procExprStatement fuel).bind fun _ => Sticky.ite
      (sticky_nextToken.bind fun _ => sticky_pure _) (sticky_pure _))

theorem sticky_parserLoop (fuel : Nat) (token : TokenType) (root : Root) :
    Sticky (parserLoop next env fuel token root) := by
  induction fuel generalizing token root with
  | zero => exact sticky_outOfFuel
  | succ fuel ih =>
    refine Sticky.ite (sticky_pure _) ?_
    refine (sticky_procStatement fuel token root).bind fun nodes =>
      Sticky.ite (sticky_pure _) ?_
    exact sticky_nextToken.bind fun token => ih token _

end Types

end RtThread.Finsh
