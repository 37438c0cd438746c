import RtThread.Finsh.Compiler
import RtThread.Finsh.ParserErrors

/-!
# The node table and the parser

Every tree that the parser returns was taken from the node table, which has room for a
fixed number of nodes.  So there are never more operands in a row than the table has
entries.
-/

namespace RtThread.Finsh

variable {σ α β : Type}

/-- A function takes at least `size` nodes for its result, of which `paid` were taken
before, and none that the table does not have. -/
def Draws (paid : Nat) (x : ParserM σ α) (size : α -> Nat) : Prop :=
  forall p a p', x p = some (a, p') ->
    p.shell.nodes + size a ≤ p'.shell.nodes + paid ∧
      p'.shell.nodes ≤ max p.shell.nodes finshNodeMax

section Rules

variable {x y : ParserM σ α} {f : α -> ParserM σ β} {paid : Nat} {size : α -> Nat}
  {size' : β -> Nat}

theorem Draws.bind (hx : Draws paid x size) (hf : forall a, Draws (size a) (f a) size') :
    Draws paid (x >>= f) size' := by
  intro p b p' hr
  rcases bind_eq_some hr with ⟨a, p1, hx1, hf1⟩
  have hfirst := hx p a p1 hx1
  have hsecond := hf a p1 b p' hf1
  omega

theorem Draws.mono (hx : Draws paid x size) {paid' : Nat} (hle : paid ≤ paid')
    {few : α -> Nat} (hsize : forall a, few a ≤ size a) : Draws paid' x few := by
  intro p a p' hr
  have hdraws := hx p a p' hr
  have hfew := hsize a
  omega

theorem draws_pure (a : α) (hle : size a ≤ paid) : Draws paid (pure a : ParserM σ α) size := by
  intro p b p' hr
  cases hr
  omega

theorem draws_outOfFuel : Draws paid (outOfFuel : ParserM σ α) size := by
  intro p a p' hr
  cases hr

theorem Draws.ite {c : Prop} [Decidable c] (hx : Draws paid x size)
    (hy : Draws paid y size) : Draws paid (if c then x else y) size := by
  split
  · exact hx
  · exact hy

/-- A function that leaves the table alone; what was paid before it is kept. -/
def Spares (x : ParserM σ α) : Prop :=
  forall p a p', x p = some (a, p') -> p'.shell.nodes = p.shell.nodes

theorem Spares.bind (hx : Spares x) (hf : forall a, Spares (f a)) : Spares (x >>= f) := by
  intro p b p' hr
  rcases bind_eq_some hr with ⟨a, p1, hx1, hf1⟩
  rw [hf a p1 b p' hf1, hx p a p1 hx1]

theorem Spares.ite {c : Prop} [Decidable c] (hx : Spares x) (hy : Spares y) :
    Spares (if c then x else y) := by
  split
  · exact hx
  · exact hy

theorem spares_pure (a : α) : Spares (pure a : ParserM σ α) := by
  intro p b p' hr
  cases hr
  rfl

theorem Spares.then (hx : Spares x) (hf : forall a, Draws paid (f a) size') :
    Draws paid (x >>= f) size' := by
  intro p b p' hr
  rcases bind_eq_some hr with ⟨a, p1, hx1, hf1⟩
  have hsame := hx p a p1 hx1
  have hsecond := hf a p1 b p' hf1
  omega

theorem Draws.aside (hx : Draws 0 x size) (hf : forall a, Draws (paid + size a) (f a) size') :
    Draws paid (x >>= f) size' := by
  intro p b p' hr
  rcases bind_eq_some hr with ⟨a, p1, hx1, hf1⟩
  have hfirst := hx p a p1 hx1
  have hsecond := hf a p1 b p' hf1
  omega

end Rules

/-!
## Tokens and nodes
-/

theorem spares_tokenReplay : Spares (tokenReplay : ParserM σ Unit) := by
  intro p a p' hr
  cases hr
  rfl

theorem spares_currentToken : Spares (currentToken : ParserM σ Token) := by
  intro p a p' hr
  cases hr
  rfl

theorem spares_errorSet {e : FinshError} : Spares (errorSet e : ParserM σ Unit) := by
  intro p a p' hr
  cases hr
  rfl

section Parser

variable {next : σ -> Token × σ} {env : Symbols}

theorem spares_nextToken : Spares (nextToken next) := by
  intro p a p' hr
  unfold nextToken at hr
  split at hr
  · cases hr
    rfl
  · cases hr
    simp only
    split <;> rfl

theorem spares_checkToken {token type : TokenType} :
    Spares (checkToken token type : ParserM σ Unit) :=
  Spares.ite (spares_pure ()) (spares_errorSet.bind fun _ => spares_tokenReplay)

theorem spares_matchToken {type : TokenType} : Spares (matchToken next type) :=
  spares_nextToken.bind fun _ => spares_checkToken

/-- A function for nodes takes what it returns from the table. -/
def Allocates (new : Shell -> Tree × Shell) : Prop :=
  forall s, s.nodes + countSiblings (new s).1 ≤ (new s).2.nodes ∧
    (new s).2.nodes ≤ max s.nodes finshNodeMax

theorem Allocates.draws {new : Shell -> Tree × Shell} (hnew : Allocates new) :
    Draws 0 (newNode new : ParserM σ Tree) countSiblings := by
  intro p a p' hr
  cases hr
  exact hnew p.shell

theorem allocates_finshNodeNew {type : NodeType} {fill : FinshNode -> FinshNode} :
    Allocates fun s => finshNodeNew s type fill := by
  intro s
  simp only [finshNodeNew, finshNodeAllocate]
  by_cases hroom : s.nodes < finshNodeMax
  · simp only [if_pos hroom, countSiblings]
    omega
  · simp only [if_neg hroom, countSiblings, finshErrorSet]
    omega

theorem allocates_finshNodeNewId {name : List Char} :
    Allocates fun s => finshNodeNewId env s name := by
  intro s
  simp only [finshNodeNewId]
  cases finshLookup env s name with
  | some id => exact allocates_finshNodeNew s
  | none =>
    simp only [countSiblings, finshErrorSet]
    omega

theorem draws_newId {id : List Char} : Draws 0 (newId env id : ParserM σ Tree) countSiblings := by
  intro p a p' hr
  unfold newId at hr
  split at hr
  · cases hr
  · exact allocates_finshNodeNewId.draws p a p' hr

theorem draws_makeSysNode {paid : Nat} {type : NodeType} {t1 t2 : Tree} :
    Draws paid (makeSysNode type t1 t2 : ParserM σ Tree) countSiblings := by
  have hnew : Allocates (makeNode type t1 t2) := by
    intro s
    simp only [makeNode, finshNodeAllocate]
    by_cases hroom : s.nodes < finshNodeMax
    · simp only [if_pos hroom]
      split <;> simp only [countSiblings, finshErrorSet] <;> omega
    · simp only [if_neg hroom, countSiblings, finshErrorSet]
      omega
  exact hnew.draws.mono (Nat.zero_le _) fun _ => Nat.le_refl _

theorem draws_newString {string : List Char} :
    Draws 0 (newString string : ParserM σ Tree) countSiblings := by
  intro p a p' hr
  rcases Option.map_eq_some_iff.mp hr with ⟨⟨t, s⟩, hnew, heq⟩
  cases heq
  rcases newString_cases hnew with ⟨rfl, rfl⟩ | ⟨hroom, _, _, rfl, rfl⟩
  · simp only [countSiblings, finshErrorSet]
    omega
  · simp only [countSiblings]
    omega

/-!
## Types and identifiers
-/

theorem spares_procPointer {type : FinshType} : Spares (procPointer next type) :=
  spares_nextToken.bind fun _ => Spares.ite (spares_pure _)
    (spares_tokenReplay.bind fun _ => spares_pure _)

theorem spares_unknownType : Spares (unknownType : ParserM σ FinshType) :=
  spares_tokenReplay.bind fun _ => spares_errorSet.bind fun _ => spares_pure _

theorem spares_procUnsigned : Spares (procUnsigned next) := by
  refine spares_nextToken.bind fun token => ?_
  split
  · split
    · exact spares_procPointer
    · exact spares_unknownType
  · exact spares_tokenReplay.bind fun _ => spares_errorSet.bind fun _ => spares_procPointer

theorem spares_procType : Spares (procType next) := by
  refine spares_nextToken.bind fun token => ?_
  split
  · exact spares_procPointer
  · exact Spares.ite spares_procUnsigned spares_unknownType

theorem spares_procIdentifier : Spares (procIdentifier next) :=
  spares_matchToken.bind fun _ => spares_currentToken.bind fun _ => spares_pure _

/-!
## Expressions
-/

theorem draws_binaryLoop {op : TokenType -> Option NodeType} {operand : ParserM σ Tree}
    (ho : Draws 0 operand countSiblings) (fuel : Nat) (left : Tree) :
    Draws (countSiblings left) (binaryLoop next op operand fuel left) countSiblings := by
  induction fuel generalizing left with
  | zero => exact draws_outOfFuel
  | succ fuel ih =>
    refine spares_nextToken.then fun token => ?_
    split
    · exact spares_tokenReplay.then fun _ => draws_pure _ (Nat.le_refl _)
    · refine ho.aside fun right => Draws.ite ?_ ?_
      · exact spares_errorSet.then fun _ =>
          (ih left).mono (Nat.le_add_right _ _) fun _ => Nat.le_refl _
      · exact draws_makeSysNode.bind fun left => ih left

theorem draws_procBinary {op : TokenType -> Option NodeType} {operand : ParserM σ Tree}
    (ho : Draws 0 operand countSiblings) (fuel : Nat) :
    Draws 0 (procBinary next op operand fuel) countSiblings :=
  ho.bind fun left => draws_binaryLoop ho fuel left

theorem countSiblings_setSibling_le (t rest : Tree) :
    countSiblings (t.setSibling rest) ≤ countSiblings t + countSiblings rest := by
  cases t with
  | null => exact Nat.zero_le _
  | node info child sibling =>
    simp only [Tree.setSibling, countSiblings]
    omega

theorem Draws.row {x : ParserM σ Tree} (hx : Draws 0 x countSiblings) (param : Tree) :
    Draws (countSiblings param) (do
      let rest <- x
      pure (param.setSibling rest)) countSiblings :=
  hx.aside fun rest => draws_pure _ (countSiblings_setSibling_le param rest)

section Params

variable {assign : ParserM σ Tree} (ha : Draws 0 assign countSiblings)

include ha

theorem draws_paramLoop (fuel : Nat) : Draws 0 (paramLoop next assign fuel) countSiblings := by
  induction fuel with
  | zero => exact draws_outOfFuel
  | succ fuel ih =>
    refine spares_nextToken.then fun token => Draws.ite ?_ ?_
    · refine ha.bind fun param => Draws.ite ?_ (ih.row param)
      exact spares_errorSet.then fun _ => ih.mono (Nat.zero_le _) fun _ => Nat.le_refl _
    · exact spares_tokenReplay.then fun _ => draws_pure _ (Nat.le_refl _)

theorem draws_procParams (fuel : Nat) : Draws 0 (procParams next assign fuel) countSiblings := by
  have hlist : Draws 0 (procParamList next assign fuel) countSiblings :=
    ha.bind fun param => Draws.ite (draws_pure _ (Nat.zero_le _))
      ((draws_paramLoop ha fuel).row param)
  refine spares_nextToken.then fun token => Draws.ite (draws_pure _ (Nat.le_refl _)) ?_
  exact spares_tokenReplay.then fun _ => hlist.bind fun params =>
    spares_matchToken.then fun _ => draws_pure _ (Nat.le_refl _)

theorem draws_procPrimaryExpr : Draws 0 (procPrimaryExpr next env assign) countSiblings := by
  refine spares_nextToken.then fun token => spares_currentToken.then fun current => ?_
  split
  · exact spares_tokenReplay.then fun _ => spares_procIdentifier.then fun _ =>
      draws_newId
  · exact ha.bind fun expr => spares_matchToken.then fun _ => draws_pure _ (Nat.le_refl _)
  · exact allocates_finshNodeNew.draws
  · exact allocates_finshNodeNew.draws
  · exact allocates_finshNodeNew.draws
  · exact draws_newString
  · exact allocates_finshNodeNew.draws
  · exact spares_errorSet.then fun _ => draws_pure _ (Nat.le_refl _)

theorem draws_postfixLoop (fuel : Nat) (t : Tree) :
    Draws (countSiblings t) (postfixLoop next assign fuel t) countSiblings := by
  induction fuel generalizing t with
  | zero => exact draws_outOfFuel
  | succ fuel ih =>
    refine spares_nextToken.then fun token => ?_
    split
    · exact draws_makeSysNode.bind fun t => ih t
    · exact draws_makeSysNode.bind fun t => ih t
    · exact (draws_procParams ha fuel).aside fun params =>
        draws_makeSysNode.bind fun t => ih t
    · exact spares_tokenReplay.then fun _ => draws_pure _ (Nat.le_refl _)

theorem draws_procPostfixExpr (fuel : Nat) :
    Draws 0 (procPostfixExpr next env assign fuel) countSiblings :=
  (draws_procPrimaryExpr ha).bind fun t => draws_postfixLoop ha fuel t

end Params

theorem draws_procUnaryExpr {cast inner : ParserM σ Tree} (hc : Draws 0 cast countSiblings)
    (hi : Draws 0 inner countSiblings) :
    Draws 0 (procUnaryExpr next cast inner) countSiblings := by
  refine spares_nextToken.then fun token => ?_
  split
  · exact hc
  · exact hc.bind fun _ => draws_makeSysNode
  · exact hc.bind fun _ => allocates_finshNodeNew.draws.aside fun _ => draws_makeSysNode
  · exact hc.bind fun _ => draws_makeSysNode
  · exact hc.bind fun _ => draws_makeSysNode
  · exact hc.bind fun _ => draws_makeSysNode
  · exact hc.bind fun _ => draws_makeSysNode
  · exact spares_tokenReplay.then fun _ => hi

theorem countSiblings_setDataType (t : Tree) (code : Nat) :
    countSiblings (t.setDataType code) = countSiblings t := by
  cases t <;> rfl

theorem draws_procCastExpr {inner : ParserM σ Tree} (hi : Draws 0 inner countSiblings)
    (fuel : Nat) : Draws 0 (procCastExpr next inner fuel) countSiblings := by
  induction fuel with
  | zero => exact draws_outOfFuel
  | succ fuel ih =>
    have hunary : Draws 0 (procUnaryExpr next (procCastExpr next inner fuel) inner)
        countSiblings := draws_procUnaryExpr ih hi
    refine spares_nextToken.then fun token => Draws.ite ?_ ?_
    · refine spares_procType.then fun type => spares_matchToken.then fun _ =>
        ih.bind fun cast => Draws.ite ?_ ?_
      · exact spares_tokenReplay.then fun _ =>
          hunary.mono (Nat.zero_le _) fun _ => Nat.le_refl _
      · exact draws_pure _ (Nat.le_of_eq (countSiblings_setDataType cast type.code))
    · exact spares_tokenReplay.then fun _ => hunary

theorem draws_procAssignExpr (fuel : Nat) :
    Draws 0 (procAssignExpr next env fuel) countSiblings := by
  induction fuel with
  | zero => exact draws_outOfFuel
  | succ fuel ih =>
    have hcast : Draws 0 (procCastExpr next (procPostfixExpr next env
        (procAssignExpr next env fuel) fuel) fuel) countSiblings :=
      draws_procCastExpr (draws_procPostfixExpr ih fuel) fuel
    have hor : Draws 0 (procInclusiveOrExpr next env (procAssignExpr next env fuel) fuel)
        countSiblings :=
      draws_procBinary (draws_procBinary (draws_procBinary (draws_procBinary
        (draws_procBinary (draws_procBinary hcast fuel) fuel) fuel) fuel) fuel) fuel
    refine hor.bind fun expr => spares_nextToken.then fun token => Draws.ite ?_ ?_
    · exact ih.aside fun _ => draws_makeSysNode
    · exact spares_tokenReplay.then fun _ => draws_pure _ (Nat.le_refl _)

end Parser

end RtThread.Finsh
