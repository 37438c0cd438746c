import RtThread.Finsh.ParserNodes

/-!
# Trees that are built without an error

A line that the parser ends without an error stands for a row of statements.  Every
operator in it has as many operands as its kind says, a call has the called function
before its parameters, and constants and names have no children.
-/

namespace RtThread.Finsh

/-!
## Trees
-/

def Arity (info : FinshNode) (children : Nat) : Prop :=
  match info.nodeType with
  | NodeType.id => children = 0 ∧ info.id ≠ NodeId.none
  | NodeType.valueChar | NodeType.valueInt | NodeType.valueLong
  | NodeType.valueString | NodeType.valueNull => children = 0
  | NodeType.sysAdd | NodeType.sysSub | NodeType.sysMul | NodeType.sysDiv
  | NodeType.sysMod | NodeType.sysAnd | NodeType.sysOr | NodeType.sysXor
  | NodeType.sysShl | NodeType.sysShr | NodeType.sysAssign => children = 2
  | NodeType.sysBitwise | NodeType.sysPreinc | NodeType.sysPredec | NodeType.sysInc
  | NodeType.sysDec | NodeType.sysGetvalue | NodeType.sysGetaddr => children = 1
  | NodeType.sysFunc => 1 ≤ children ∧ children ≤ finshNodeMax + 1
  | NodeType.sysCast | NodeType.sysNull => False

/-- Every node of a row of trees has the children of its kind. -/
def Tree.Built : Tree -> Prop
  | Tree.null => True
  | Tree.node info child sibling =>
    Arity info (countSiblings child) ∧ child.Built ∧ sibling.Built

def Tree.Whole (t : Tree) : Prop := countSiblings t = 1 ∧ t.Built

section Trees

variable {t u : Tree} {info : FinshNode} {child : Tree}

theorem Tree.Whole.isNull (ht : t.Whole) : t.isNull = false := by
  cases t with
  | null => cases ht.left
  | node info child sibling => rfl

theorem countSiblings_setSibling (ht : t.isNull = false) :
    countSiblings (t.setSibling u) = countSiblings u + 1 := by
  cases t with
  | null => cases ht
  | node info child sibling => rfl

theorem Tree.Built.setSibling (ht : t.Built) (hu : u.Built) : (t.setSibling u).Built := by
  cases t with
  | null => trivial
  | node info child sibling => exact ⟨ht.left, ht.right.left, hu⟩

theorem Tree.Whole.setDataType (ht : t.Whole) (code : Nat) : (t.setDataType code).Whole := by
  cases t with
  | null => cases ht.left
  | node info child sibling => exact ht

theorem whole_node (harity : Arity info (countSiblings child)) (hc : child.Built) :
    (Tree.node info child Tree.null).Whole := ⟨rfl, harity, hc, trivial⟩

end Trees

/-!
## Results without an error
-/

variable {σ α β : Type}

/-- A function of the parser that ends without an error has a result of this kind. -/
def Yields (x : ParserM σ α) (Q : α -> Prop) : Prop :=
  forall p a p', x p = some (a, p') -> p'.shell.errno = FinshError.ok -> Q a

section Rules

variable {x y : ParserM σ α} {f : α -> ParserM σ β} {Q : α -> Prop} {R : β -> Prop}

theorem Yields.bind (hx : Yields x Q) (hf : forall a, Q a -> Yields (f a) R)
    (hs : forall a, Sticky (f a)) : Yields (x >>= f) R := by
  intro p b p' hr hok
  rcases bind_eq_some hr with ⟨a, p1, hx1, hf1⟩
  have hok1 : p1.shell.errno = FinshError.ok := by
    by_contra herr
    exact hs a p1 b p' hf1 herr hok
  exact hf a (hx p a p1 hx1 hok1) p1 b p' hf1 hok

theorem Yields.after (hf : forall a, Yields (f a) R) : Yields (x >>= f) R := by
  intro p b p' hr hok
  rcases bind_eq_some hr with ⟨a, p1, _, hf1⟩
  exact hf a p1 b p' hf1 hok

theorem yields_pure {a : α} (ha : Q a) : Yields (pure a : ParserM σ α) Q := by
  intro p b p' hr _
  cases hr
  exact ha

theorem yields_outOfFuel : Yields (outOfFuel : ParserM σ α) Q := by
  intro p a p' hr
  cases hr

theorem Yields.ite {c : Prop} [Decidable c] (hx : c -> Yields x Q) (hy : ¬c -> Yields y Q) :
    Yields (if c then x else y) Q := by
  split
  · rename_i hc
    exact hx hc
  · rename_i hc
    exact hy hc

theorem yields_error {e : FinshError} (he : e ≠ FinshError.ok)
    {g : Unit -> ParserM σ β} (hs : forall u, Sticky (g u)) :
    Yields (errorSet e >>= g) R := by
  intro p b p' hr hok
  exact absurd hok (((fails_errorSet he p).bind hs) b p' hr)

end Rules

/-!
## Nodes
-/

theorem yields_newNode {new : Shell -> Tree × Shell}
    (hnew : forall s, (new s).2.errno = FinshError.ok -> (new s).1.Whole) :
    Yields (newNode new : ParserM σ Tree) Tree.Whole := by
  intro p a p' hr hok
  cases hr
  exact hnew p.shell hok

theorem finshNodeAllocate_cases (s : Shell) (type : NodeType) :
    finshNodeAllocate s type = (none, s) ∨ finshNodeAllocate s type =
        (some ⟨type, 0, NodeId.none, false, 0⟩, { s with nodes := s.nodes + 1 }) := by
  unfold finshNodeAllocate
  split
  · exact Or.inr rfl
  · exact Or.inl rfl

theorem whole_finshNodeNew {type : NodeType} {fill : FinshNode -> FinshNode}
    (hfill : Arity (fill ⟨type, 0, NodeId.none, false, 0⟩) 0) (s : Shell)
    (hok : (finshNodeNew s type fill).2.errno = FinshError.ok) :
    (finshNodeNew s type fill).1.Whole := by
  unfold finshNodeNew at hok ⊢
  rcases finshNodeAllocate_cases s type with halloc | halloc
  · rw [halloc] at hok
    cases hok
  · rw [halloc]
    exact whole_node hfill trivial

theorem yields_value (type : NodeType) {value : Nat}
    (htype : Arity ⟨type, 0, NodeId.none, false, value⟩ 0) :
    Yields (newNode fun s => finshNodeNew s type fun node => { node with value := value } :
      ParserM σ Tree) Tree.Whole :=
  yields_newNode (whole_finshNodeNew htype)

theorem finshLookup_ne_none {env : Symbols} {s : Shell} {name : List Char} {id : NodeId}
    (hid : finshLookup env s name = some id) : id ≠ NodeId.none := by
  rintro rfl
  unfold finshLookup at hid
  cases hvar : finshVarLookup s name with
  | some index => rw [hvar] at hid; cases hid
  | none =>
    rw [hvar] at hid
    cases hsysvar : env.sysvarLookup name with
    | some sysvar => rw [hsysvar] at hid; cases hid
    | none => cases hcall : env.syscallLookup name <;> simp [hsysvar, hcall] at hid

theorem yields_newId {env : Symbols} {name : List Char} :
    Yields (newId env name : ParserM σ Tree) Tree.Whole := by
  intro p t p' hr
  unfold newId at hr
  split at hr
  · cases hr
  refine yields_newNode (fun s hok => ?_) p t p' hr
  unfold finshNodeNewId at hok ⊢
  cases hid : finshLookup env s name with
  | none =>
    rw [hid] at hok
    cases hok
  | some id =>
    rw [hid] at hok
    have hfill : Arity ⟨NodeType.id, 0, id, false, 0⟩ 0 := ⟨rfl, finshLookup_ne_none hid⟩
    exact whole_finshNodeNew hfill s hok

theorem yields_newString {string : List Char} :
    Yields (newString string : ParserM σ Tree) Tree.Whole := by
  intro p a p' hr hok
  rcases Option.map_eq_some_iff.mp hr with ⟨⟨t, s⟩, hnew, heq⟩
  cases heq
  rcases newString_cases hnew with ⟨_, rfl⟩ | ⟨_, _, _, rfl, rfl⟩
  · cases hok
  · exact whole_node rfl trivial

theorem yields_makeSysNode {type : NodeType} {t1 t2 : Tree} (harity : t1.isNull = false ->
      Arity ⟨type, 0, NodeId.none, false, 0⟩ (countSiblings t2 + 1))
    (h1 : t1.Built) (h2 : t2.Built) :
    Yields (makeSysNode type t1 t2 : ParserM σ Tree) Tree.Whole := by
  apply yields_newNode
  intro s hok
  unfold makeNode at hok ⊢
  rcases finshNodeAllocate_cases s type with halloc | halloc
  · rw [halloc] at hok
    cases hok
  · rw [halloc] at hok ⊢
    cases hnull : t1.isNull with
    | true =>
      simp only [hnull, if_true] at hok
      cases hok
    | false =>
      simp only [Bool.false_eq_true, if_false]
      refine whole_node ?_ (h1.setSibling h2)
      rw [countSiblings_setSibling hnull]
      exact harity hnull

def Takes (type : NodeType) (operands : Nat) : Prop :=
  Arity ⟨type, 0, NodeId.none, false, 0⟩ operands

theorem yields_unary (type : NodeType) {t : Tree} (htype : Takes type 1) (ht : t.Built) :
    Yields (makeSysNode type t Tree.null : ParserM σ Tree) Tree.Whole :=
  yields_makeSysNode (fun _ => htype) ht trivial

theorem yields_pair (type : NodeType) {t1 t2 : Tree} (htype : Takes type 2)
    (h1 : t1.Whole) (h2 : t2.Whole) :
    Yields (makeSysNode type t1 t2 : ParserM σ Tree) Tree.Whole :=
  yields_makeSysNode (fun _ => by rw [h2.left]; exact htype) h1.right h2.right

theorem yields_call {t1 t2 : Tree} (h1 : t1.Whole) (h2 : t2.Built)
    (hcount : countSiblings t2 ≤ finshNodeMax) :
    Yields (makeSysNode NodeType.sysFunc t1 t2 : ParserM σ Tree) Tree.Whole := by
  have htype : Takes NodeType.sysFunc (countSiblings t2 + 1) :=
    ⟨Nat.le_add_left 1 _, Nat.succ_le_succ hcount⟩
  exact yields_makeSysNode (fun _ => htype) h1.right h2

/-!
## Expressions
-/

section Parser

variable {next : σ -> Token × σ} {env : Symbols}

/-- The kinds of node that a function for two operands makes. -/
def MakesPairs (op : TokenType -> Option NodeType) : Prop :=
  forall token type, op token = some type -> Takes type 2

theorem yields_binaryLoop {op : TokenType -> Option NodeType} (hop : MakesPairs op)
    {operand : ParserM σ Tree} (ho : Yields operand Tree.Whole) (hs : Sticky operand)
    {fuel : Nat} {left : Tree} (hleft : left.Whole) :
    Yields (binaryLoop next op operand fuel left) Tree.Whole := by
  induction fuel generalizing left with
  | zero => exact yields_outOfFuel
  | succ fuel ih =>
    refine Yields.after fun token => ?_
    cases htype : op token with
    | none => exact Yields.after fun _ => yields_pure hleft
    | some type =>
      refine ho.bind (fun right hright => ?_) fun right => ?_
      · rw [if_neg (by simp [hright.isNull])]
        exact (yields_pair type (hop token type htype) hleft hright).bind
          (fun left hleft => ih hleft) fun left => sticky_binaryLoop hs fuel left
      · exact Sticky.ite
          ((sticky_errorSet (by decide)).bind fun _ => sticky_binaryLoop hs fuel left)
          (sticky_makeSysNode.bind fun left => sticky_binaryLoop hs fuel left)

theorem yields_procBinary {op : TokenType -> Option NodeType} (hop : MakesPairs op)
    {operand : ParserM σ Tree} (ho : Yields operand Tree.Whole) (hs : Sticky operand)
    (fuel : Nat) : Yields (procBinary next op operand fuel) Tree.Whole :=
  ho.bind (fun _ hleft => yields_binaryLoop hop ho hs hleft) fun left =>
    sticky_binaryLoop hs fuel left

theorem makesPairs_or : MakesPairs orOp := by
  intro token type htype
  cases token with
  | or =>
    cases htype
    rfl
  | _ => cases htype

theorem makesPairs_xor : MakesPairs xorOp := by
  intro token type htype
  cases token with
  | xor =>
    cases htype
    rfl
  | _ => cases htype

theorem makesPairs_and : MakesPairs andOp := by
  intro token type htype
  cases token with
  | and =>
    cases htype
    rfl
  | _ => cases htype

theorem makesPairs_shift : MakesPairs shiftOp := by
  intro token type htype
  cases token <;> cases htype <;> rfl

theorem makesPairs_additive : MakesPairs additiveOp := by
  intro token type htype
  cases token <;> cases htype <;> rfl

theorem makesPairs_multiplicative : MakesPairs multiplicativeOp := by
  intro token type htype
  cases token <;> cases htype <;> rfl

section Params

variable {assign : ParserM σ Tree} (ha : Yields assign Tree.Whole) (hs : Sticky assign)

include ha hs

theorem yields_paramLoop (fuel : Nat) : Yields (paramLoop next assign fuel) Tree.Built := by
  induction fuel with
  | zero => exact yields_outOfFuel
  | succ fuel ih =>
    refine Yields.after fun token => Yields.ite (fun _ => ?_) fun _ => ?_
    · refine ha.bind (fun param hparam => ?_) fun param => ?_
      · rw [if_neg (by simp [hparam.isNull])]
        exact ih.bind (fun rest hrest => yields_pure (hparam.right.setSibling hrest))
          fun _ => sticky_pure _
      · exact Sticky.ite ((sticky_errorSet (by decide)).bind fun _ => sticky_paramLoop hs fuel)
          ((sticky_paramLoop hs fuel).bind fun _ => sticky_pure _)
    · exact Yields.after fun _ => yields_pure trivial

theorem yields_procParams (fuel : Nat) : Yields (procParams next assign fuel) Tree.Built := by
  have hlist : Yields (procParamList next assign fuel) Tree.Built := by
    refine ha.bind (fun param hparam => ?_) fun param => ?_
    · rw [if_neg (by simp [hparam.isNull])]
      exact (yields_paramLoop ha hs fuel).bind
        (fun rest hrest => yields_pure (hparam.right.setSibling hrest))
        fun _ => sticky_pure _
    · exact Sticky.ite (sticky_pure _) ((sticky_paramLoop hs fuel).bind fun _ => sticky_pure _)
  refine Yields.after fun token => Yields.ite (fun _ => yields_pure trivial) fun _ => ?_
  refine Yields.after fun _ => hlist.bind (fun params hparams => ?_) fun params => ?_
  · exact Yields.after fun _ => yields_pure hparams
  · exact sticky_matchToken.bind fun _ => sticky_pure _

omit hs in
theorem yields_procPrimaryExpr : Yields (procPrimaryExpr next env assign) Tree.Whole := by
  refine Yields.after fun token => Yields.after fun current => ?_
  split
  · exact Yields.after fun _ => Yields.after fun _ => yields_newId
  · refine ha.bind (fun expr hexpr => ?_) fun expr => ?_
    · exact Yields.after fun _ => yields_pure hexpr
    · exact sticky_matchToken.bind fun _ => sticky_pure _
  · exact yields_value NodeType.valueInt rfl
  · exact yields_value NodeType.valueLong rfl
  · exact yields_value NodeType.valueChar rfl
  · exact yields_newString
  · exact yields_value NodeType.valueNull rfl
  · exact yields_error (by decide) fun _ => sticky_pure _

variable (hd : Draws 0 assign countSiblings)

include hd

theorem yields_params (fuel : Nat) : Yields (procParams next assign fuel) fun params =>
    params.Built ∧ countSiblings params ≤ finshNodeMax := by
  intro p params p' hr hok
  have hdraws := draws_procParams hd fuel p params p' hr
  exact ⟨yields_procParams ha hs fuel p params p' hr hok, by omega⟩

theorem yields_postfixLoop {fuel : Nat} {expr : Tree} (hexpr : expr.Whole) :
    Yields (postfixLoop next assign fuel expr) Tree.Whole := by
  induction fuel generalizing expr with
  | zero => exact yields_outOfFuel
  | succ fuel ih =>
    refine Yields.after fun token => ?_
    split
    · exact (yields_unary NodeType.sysInc rfl hexpr.right).bind (fun t ht => ih ht) fun t =>
        sticky_postfixLoop hs fuel t
    · exact (yields_unary NodeType.sysDec rfl hexpr.right).bind (fun t ht => ih ht) fun t =>
        sticky_postfixLoop hs fuel t
    · refine (yields_params ha hs hd fuel).bind (fun params hparams => ?_) fun params => ?_
      · exact (yields_call hexpr hparams.left hparams.right).bind
          (fun t ht => ih ht) fun t => sticky_postfixLoop hs fuel t
      · exact sticky_makeSysNode.bind fun t => sticky_postfixLoop hs fuel t
    · exact Yields.after fun _ => yields_pure hexpr

theorem yields_procPostfixExpr (fuel : Nat) :
    Yields (procPostfixExpr next env assign fuel) Tree.Whole :=
  (yields_procPrimaryExpr ha).bind (fun _ hexpr => yields_postfixLoop ha hs hd hexpr)
    fun t => sticky_postfixLoop hs fuel t

end Params

theorem yields_procUnaryExpr {cast inner : ParserM σ Tree} (hc : Yields cast Tree.Whole)
    (hi : Yields inner Tree.Whole) :
    Yields (procUnaryExpr next cast inner) Tree.Whole := by
  refine Yields.after fun token => ?_
  split
  · exact hc
  · exact hc.bind (fun _ ht => yields_unary NodeType.sysPreinc rfl ht.right) fun _ =>
      sticky_makeSysNode
  · refine hc.bind (fun expr hexpr => ?_) fun expr => ?_
    · exact (yields_value NodeType.valueLong rfl).bind
        (fun _ hzero => yields_pair NodeType.sysSub rfl hzero hexpr) fun _ =>
        sticky_makeSysNode
    · exact (sticky_newNode keeps_finshNodeNew).bind fun _ => sticky_makeSysNode
  · exact hc.bind (fun _ ht => yields_unary NodeType.sysPredec rfl ht.right) fun _ =>
      sticky_makeSysNode
  · exact hc.bind (fun _ ht => yields_unary NodeType.sysBitwise rfl ht.right) fun _ =>
      sticky_makeSysNode
  · exact hc.bind (fun _ ht => yields_unary NodeType.sysGetvalue rfl ht.right) fun _ =>
      sticky_makeSysNode
  · exact hc.bind (fun _ ht => yields_unary NodeType.sysGetaddr rfl ht.right) fun _ =>
      sticky_makeSysNode
  · exact Yields.after fun _ => hi

theorem yields_procCastExpr {inner : ParserM σ Tree} (hi : Yields inner Tree.Whole)
    (hs : Sticky inner) (fuel : Nat) :
    Yields (procCastExpr next inner fuel) Tree.Whole := by
  induction fuel with
  | zero => exact yields_outOfFuel
  | succ fuel ih =>
    have hunary : Yields (procUnaryExpr next (procCastExpr next inner fuel) inner)
        Tree.Whole := yields_procUnaryExpr ih hi
    refine Yields.after fun token => Yields.ite (fun _ => ?_) fun _ => ?_
    · refine Yields.after fun type => Yields.after fun _ => ih.bind
        (fun cast hcast => ?_) fun cast => ?_
      · rw [if_neg (by simp [hcast.isNull])]
        exact yields_pure (hcast.setDataType _)
      · exact Sticky.ite (sticky_tokenReplay.bind fun _ =>
          sticky_procUnaryExpr (sticky_procCastExpr hs fuel) hs) (sticky_pure _)
    · exact Yields.after fun _ => hunary

theorem yields_procInclusiveOrExpr {assign : ParserM σ Tree}
    (ha : Yields assign Tree.Whole) (hs : Sticky assign)
    (hd : Draws 0 assign countSiblings) (fuel : Nat) :
    Yields (procInclusiveOrExpr next env assign fuel) Tree.Whole := by
  have hsp : Sticky (procPostfixExpr next env assign fuel) := sticky_procPostfixExpr hs fuel
  have hsc : Sticky (procCastExpr next (procPostfixExpr next env assign fuel) fuel) :=
    sticky_procCastExpr hsp fuel
  have hsm : Sticky (procMultiplicativeExpr next env assign fuel) :=
    sticky_procBinary hsc fuel
  have hsa : Sticky (procAdditiveExpr next env assign fuel) := sticky_procBinary hsm fuel
  have hsh : Sticky (procShiftExpr next env assign fuel) := sticky_procBinary hsa fuel
  have hsn : Sticky (procAndExpr next env assign fuel) := sticky_procBinary hsh fuel
  have hsx : Sticky (procExclusiveOrExpr next env assign fuel) := sticky_procBinary hsn fuel
  have hcast : Yields (procCastExpr next (procPostfixExpr next env assign fuel) fuel)
      Tree.Whole := yields_procCastExpr (yields_procPostfixExpr ha hs hd fuel) hsp fuel
  exact yields_procBinary makesPairs_or (yields_procBinary makesPairs_xor
    (yields_procBinary makesPairs_and (yields_procBinary makesPairs_shift
      (yields_procBinary makesPairs_additive (yields_procBinary makesPairs_multiplicative
        hcast hsc fuel) hsm fuel) hsa fuel) hsh fuel) hsn fuel) hsx fuel

theorem yields_procAssignExpr (fuel : Nat) : Yields (procAssignExpr next env fuel) Tree.Whole := by
  induction fuel with
  | zero => exact yields_outOfFuel
  | succ fuel ih =>
    have hs : Sticky (procAssignExpr next env fuel) := sticky_procAssignExpr fuel
    refine (yields_procInclusiveOrExpr ih hs (draws_procAssignExpr fuel) fuel).bind
      (fun expr hexpr => ?_) fun expr => ?_
    · refine Yields.after fun token => Yields.ite (fun _ => ?_) fun _ => ?_
      · exact ih.bind (fun _ hassign => yields_pair NodeType.sysAssign rfl hexpr hassign) fun _ =>
          sticky_makeSysNode
      · exact Yields.after fun _ => yields_pure hexpr
    · exact sticky_nextToken.bind fun token => Sticky.ite (hs.bind fun _ => sticky_makeSysNode)
        (sticky_tokenReplay.bind fun _ => sticky_pure _)

/-!
## StatementRow
-/

def Tree.Statement (t : Tree) : Prop := t.isNull = false -> t.Whole

theorem Tree.Whole.statement {t : Tree} (ht : t.Whole) : t.Statement := fun _ => ht

theorem statement_null : Tree.null.Statement := by
  intro hnull
  cases hnull

def StatementRow (nodes : List Tree) : Prop := forall t, t ∈ nodes -> t.Statement

theorem statementRow_nil : StatementRow [] := by
  intro t ht
  cases ht

theorem StatementRow.cons {t : Tree} {nodes : List Tree} (ht : t.Statement)
    (hnodes : StatementRow nodes) : StatementRow (t :: nodes) :=
  List.forall_mem_cons.mpr ⟨ht, hnodes⟩

theorem yields_procExprStatement (fuel : Nat) :
    Yields (procExprStatement next env fuel) Tree.Statement := by
  refine Yields.after fun token => Yields.ite (fun _ => yields_pure statement_null) fun _ => ?_
  refine Yields.after fun _ => (yields_procAssignExpr fuel).bind (fun expr hexpr => ?_)
    fun expr => ?_
  · exact Yields.after fun _ => yields_pure hexpr.statement
  · exact sticky_matchToken.bind fun _ => sticky_pure _

theorem yields_initVariable {id : List Char} {value : Tree} (hvalue : value.Whole) :
    Yields (initVariable env id value : ParserM σ Tree) Tree.Whole :=
  yields_newId.bind (fun _ hid => yields_pair NodeType.sysAssign rfl hid hvalue) fun _ =>
    sticky_makeSysNode

theorem yields_declRest {type : FinshType} {assign : ParserM σ Tree} {fuel : Nat}
    (hrest : forall token, Yields (declLoop next env type assign fuel token)
      fun r => StatementRow r.1) {node : Tree} (hnode : node.Whole) :
    Yields (do
      let token <- nextToken next
      let r <- declLoop next env type assign fuel token
      pure (node :: r.1, r.2)) fun r => StatementRow r.1 :=
  Yields.after fun token => (hrest token).bind
    (fun _ hr => yields_pure (hr.cons hnode.statement)) fun _ => sticky_pure _

theorem yields_declLoop {type : FinshType} {assign : ParserM σ Tree}
    (ha : Yields assign Tree.Whole) (hs : Sticky assign) (fuel : Nat) (token : TokenType) :
    Yields (declLoop next env type assign fuel token) fun r => StatementRow r.1 := by
  induction fuel generalizing token with
  | zero => exact yields_outOfFuel
  | succ fuel ih =>
    refine Yields.ite (fun _ => ?_) fun _ => yields_pure statementRow_nil
    refine Yields.after fun id => Yields.after fun _ => Yields.after fun token =>
      Yields.ite (fun _ => ?_) fun _ => ih token
    have hsl : Sticky (declLoop next env type assign fuel token) :=
      sticky_declLoop hs fuel token
    refine ha.bind (fun value hvalue => ?_) fun value => ?_
    · rw [if_neg (by simp [hvalue.isNull])]
      refine (yields_initVariable hvalue).bind (fun node hnode => yields_declRest ih hnode)
        fun node => ?_
      exact sticky_nextToken.bind fun token => (sticky_declLoop hs fuel token).bind
        fun _ => sticky_pure _
    · exact Sticky.ite hsl (sticky_initVariable.bind fun _ => sticky_nextToken.bind
        fun token => (sticky_declLoop hs fuel token).bind fun _ => sticky_pure _)

theorem yields_procVariableDecl (fuel : Nat) :
    Yields (procVariableDecl next env fuel) StatementRow := by
  have ha : Yields (procAssignExpr next env fuel) Tree.Whole := yields_procAssignExpr fuel
  have hs : Sticky (procAssignExpr next env fuel) := sticky_procAssignExpr fuel
  refine Yields.after fun type => Yields.after fun id => Yields.after fun _ =>
    Yields.after fun token => ?_
  split
  · refine (yields_declLoop ha hs fuel _).bind (fun r hr => ?_) fun r => ?_
    · exact Yields.after fun _ => yields_pure hr
    · exact sticky_checkToken.bind fun _ => sticky_pure _
  · refine ha.bind (fun value hvalue => ?_) fun value => ?_
    · rw [if_neg (by simp [hvalue.isNull])]
      refine (yields_initVariable hvalue).bind (fun node hnode => ?_) fun node => ?_
      · refine Yields.after fun token => (yields_declLoop ha hs fuel token).bind
          (fun r hr => ?_) fun r => ?_
        · exact Yields.after fun _ => yields_pure (hr.cons hnode.statement)
        · exact sticky_checkToken.bind fun _ => sticky_pure _
      · exact sticky_nextToken.bind fun token => (sticky_declLoop hs fuel token).bind
          fun _ => sticky_checkToken.bind fun _ => sticky_pure _
    · refine Sticky.ite (sticky_checkToken.bind fun _ => sticky_pure _) ?_
      exact sticky_initVariable.bind fun _ => sticky_nextToken.bind fun token =>
        (sticky_declLoop hs fuel token).bind fun _ => sticky_checkToken.bind fun _ =>
          sticky_pure _
  · exact yields_pure statementRow_nil
  · exact yields_error (by decide) fun _ => sticky_pure _

theorem yields_procStatement (fuel : Nat) (token : TokenType) (root : Root) :
    Yields (procStatement next env fuel token root) StatementRow := by
  refine Yields.after fun _ => Yields.ite (fun _ => yields_procVariableDecl fuel) fun _ => ?_
  refine (yields_procExprStatement fuel).bind (fun expr hexpr => ?_) fun expr => ?_
  · have hone : StatementRow [expr] := statementRow_nil.cons hexpr
    exact Yields.ite (fun _ => Yields.after fun _ => yields_pure hone) fun _ => yields_pure hone
  · exact Sticky.ite (sticky_nextToken.bind fun _ => sticky_pure _) (sticky_pure _)

def Root.Built (r : Root) : Prop := forall t, t ∈ r.done ++ r.rest -> t.Whole

theorem Root.Built.link {r : Root} {nodes : List Tree} (hroot : r.Built)
    (hnodes : StatementRow nodes) : (r.link nodes).Built := by
  have hdone : forall t, t ∈ r.done -> t.Whole := fun t ht =>
    hroot t (List.mem_append_left _ ht)
  have hkept : forall t, t ∈ nodes.filter (fun t => !t.isNull) -> t.Whole := by
    intro t ht
    rcases List.mem_filter.mp ht with ⟨hmem, hnull⟩
    exact hnodes t hmem (by simpa using hnull)
  unfold Root.link
  split
  · intro t ht
    exact hdone t (by simpa using ht)
  · rename_i first others heq
    rw [heq] at hkept
    intro t ht
    simp only [List.append_assoc, List.singleton_append] at ht
    rcases List.mem_append.mp ht with hmem | hmem
    · exact hdone t hmem
    · exact hkept t hmem

theorem yields_parserLoop (fuel : Nat) (token : TokenType) {root : Root}
    (hroot : root.Built) : Yields (parserLoop next env fuel token root) Root.Built := by
  induction fuel generalizing token root with
  | zero => exact yields_outOfFuel
  | succ fuel ih =>
    refine Yields.ite (fun _ => yields_pure hroot) fun _ => ?_
    refine (yields_procStatement fuel token root).bind (fun nodes hnodes => ?_) fun nodes => ?_
    · have hlinked := hroot.link hnodes
      exact Yields.ite (fun _ => yields_pure hlinked) fun _ => Yields.after fun token =>
        ih token hlinked
    · exact Sticky.ite (sticky_pure _) (sticky_nextToken.bind fun token =>
        sticky_parserLoop fuel token _)

theorem built_chain {ts : List Tree} (hts : forall t, t ∈ ts -> t.Whole) : (chain ts).Built := by
  induction ts with
  | nil => trivial
  | cons t ts ih =>
    rcases List.forall_mem_cons.mp hts with ⟨ht, hrest⟩
    exact ht.right.setSibling (ih hrest)

theorem built_finshParserRun {fuel : Nat} {p p' : Parser σ} {root : Tree}
    (hrun : finshParserRun next env fuel p = some (root, p'))
    (hok : p'.shell.errno = FinshError.ok) : root.Built := by
  have hempty : (⟨[], []⟩ : Root).Built := by
    intro t ht
    cases ht
  have hyields : Yields (finshParserRun next env fuel) Tree.Built :=
    Yields.after fun token => (yields_parserLoop fuel token hempty).bind
      (fun _ hroot => yields_pure (built_chain hroot)) fun _ => sticky_pure _
  exact hyields p root p' hrun hok

end Parser

end RtThread.Finsh
