import RtThread.Finsh.Grammar
import RtThread.Finsh.ParserErrors

/-!
# Phrases that the parser accepts

A phrase without a parenthesised expression, a cast to unsigned void or a parameter list that
begins with a comma is parsed to the tree of its shape, provided that its names end in the
buffer and its strings get memory. The induction is about the loop that
remains behind a phrase of its category.
-/

namespace RtThread.Finsh

/-!
## Tokens to come
-/

abbrev LineParser := Parser (List Token)

def pending (p : LineParser) : List Token :=
  if p.replay then p.current :: p.source else p.source

/-- Before these tokens, with `k` nodes in use, this heap, the variables of `base` and no error. -/
structure At (heap : FinshHeap) (base : Shell) (ts : List Token) (k : Nat) (p : LineParser) :
    Prop where
  pending : pending p = ts
  errno : p.shell.errno = FinshError.ok
  vars : p.shell.globalVariable = base.globalVariable
  nodes : p.shell.nodes = k
  heaped : p.shell.heap = heap

def behind (t : Token) (ts : List Token) (p : LineParser) : LineParser :=
  ⟨ts, t, false, p.shell⟩

def replayed (t : Token) (ts : List Token) (p : LineParser) : LineParser :=
  ⟨ts, t, true, p.shell⟩

section Tokens

variable {heap : FinshHeap} {base : Shell} {t : Token} {ts : List Token} {k : Nat} {p : LineParser}
variable {α : Type}

theorem At.next (hp : At heap base (t :: ts) k p) (ht : t.error = FinshError.ok) :
    nextToken listSource p = some (t.type, behind t ts p) := by
  rcases p with ⟨source, current, replay, shell⟩
  have hpending := hp.pending
  cases replay with
  | true =>
    cases hpending
    rfl
  | false =>
    have hsource : source = t :: ts := hpending
    subst hsource
    simp [nextToken, listSource, behind, ht]

theorem At.at_behind (hp : At heap base (t :: ts) k p) : At heap base ts k (behind t ts p) :=
  ⟨rfl, hp.errno, hp.vars, hp.nodes, hp.heaped⟩

theorem At.at_replayed (hp : At heap base (t :: ts) k p) :
    At heap base (t :: ts) k (replayed t ts p) :=
  ⟨rfl, hp.errno, hp.vars, hp.nodes, hp.heaped⟩

/-- A token that the parser has looked at and put back. -/
theorem At.peeked {t1 : Token} {ts1 rest : List Token} (hp : At heap base (ts ++ rest) k p)
    (hts : ts = t1 :: ts1) : At heap base (ts ++ rest) k (replayed t1 (ts1 ++ rest) p) := by
  subst hts
  exact hp.at_replayed

theorem At.count {j : Nat} (hp : At heap base ts k p) (hk : k = j) : At heap base ts j p :=
  hk ▸ hp

theorem At.run_next (hp : At heap base (t :: ts) k p) (ht : t.error = FinshError.ok)
    (f : TokenType -> ParserM (List Token) α) :
    (nextToken listSource >>= f) p = f t.type (behind t ts p) :=
  run_bind (hp.next ht)

theorem run_replay (f : Unit -> ParserM (List Token) α) :
    (tokenReplay >>= f) (behind t ts p) = f () (replayed t ts p) := rfl

theorem At.run_match (hp : At heap base (t :: ts) k p) (ht : t.error = FinshError.ok)
    (f : Unit -> ParserM (List Token) α) :
    (matchToken listSource t.type >>= f) p = f () (behind t ts p) := by
  refine run_bind ?_
  show (nextToken listSource >>= fun token => checkToken token t.type) p = _
  rw [hp.run_next ht, checkToken, if_pos rfl]
  rfl

end Tokens

/-!
## Nodes
-/

def Single (t : Tree) : Prop := t.isNull = false ∧ t.setSibling Tree.null = t

theorem single_node {info : FinshNode} {child : Tree} :
    Single (Tree.node info child Tree.null) := ⟨rfl, rfl⟩

theorem Single.setDataType {t : Tree} (ht : Single t) (code : Nat) :
    Single (t.setDataType code) := by
  cases t with
  | null => exact ht
  | node info child sibling =>
    cases ht.2
    exact single_node

theorem Single.append {t : Tree} (ht : Single t) (u : Tree) :
    Phrase.append t u = t.setSibling u := by
  cases t with
  | null => cases ht.1
  | node info child sibling =>
    cases ht.2
    rfl

theorem single_sysNode {type : NodeType} {t1 t2 : Tree} :
    Single (Phrase.sysNode type t1 t2) := single_node

theorem append_null (t : Tree) : Phrase.append t Tree.null = t := by
  induction t with
  | null => rfl
  | node info child sibling _ ih =>
    show Tree.node info child (Phrase.append sibling Tree.null) = _
    rw [ih]

theorem append_assoc (t u v : Tree) :
    Phrase.append (Phrase.append t u) v = Phrase.append t (Phrase.append u v) := by
  induction t with
  | null => rfl
  | node info child sibling _ ih =>
    show Tree.node info child _ = Tree.node info child _
    rw [ih]

section Nodes

variable {heap : FinshHeap} {base : Shell} {ts : List Token} {k : Nat} {p : LineParser}

/-- A tree as the result, before these tokens and with `k` nodes in use. -/
def Makes (heap : FinshHeap) (base : Shell) (ts : List Token) (k : Nat)
    (x : ParserM (List Token) Tree) (p : LineParser) (t : Tree) : Prop :=
  exists p', x p = some (t, p') ∧ At heap base ts k p'

theorem At.makes_node (hp : At heap base ts k p) (hk : k < finshNodeMax) (type : NodeType)
    (fill : FinshNode -> FinshNode) :
    Makes heap base ts (k + 1) (newNode fun s => finshNodeNew s type fill) p
      (Tree.node (fill ⟨type, 0, NodeId.none, false, 0⟩) Tree.null Tree.null) := by
  have hroom : p.shell.nodes < finshNodeMax := by
    rw [hp.nodes]
    exact hk
  refine ⟨{ p with shell := { p.shell with nodes := p.shell.nodes + 1 } }, ?_, ?_⟩
  · simp [newNode, finshNodeNew, finshNodeAllocate, hroom]
  · exact ⟨hp.pending, hp.errno, hp.vars, by rw [← hp.nodes], hp.heaped⟩

theorem At.makes_sysNode (hp : At heap base ts k p) (hk : k < finshNodeMax) (type : NodeType)
    {t1 : Tree} (h1 : t1.isNull = false) (t2 : Tree) :
    Makes heap base ts (k + 1) (makeSysNode type t1 t2) p (Phrase.sysNode type t1 t2) := by
  have hroom : p.shell.nodes < finshNodeMax := by
    rw [hp.nodes]
    exact hk
  refine ⟨{ p with shell := { p.shell with nodes := p.shell.nodes + 1 } }, ?_, ?_⟩
  · simp [makeSysNode, newNode, makeNode, finshNodeAllocate, hroom, h1, Phrase.sysNode]
  · exact ⟨hp.pending, hp.errno, hp.vars, by rw [← hp.nodes], hp.heaped⟩

theorem held_congr {s : Shell} (hs : s.globalVariable = base.globalVariable) :
    held s = held base := by
  funext ptr
  unfold held
  rw [hs]

theorem At.newString_eq (hp : At heap base ts k p) (hk : k < finshNodeMax) (string : List Char) :
    newString string p =
      match finshHeapAllocate (held base) heap (string.length + 1) with
      | some (some ptr, h) => some (Phrase.leaf NodeType.valueString NodeId.none ptr,
          { p with shell := { p.shell with nodes := p.shell.nodes + 1, heap := h } })
      | _ => none := by
  have hroom : p.shell.nodes < finshNodeMax := by
    rw [hp.nodes]
    exact hk
  have halloc : finshHeapAllocate (held { p.shell with nodes := p.shell.nodes + 1 }) p.shell.heap
      (string.length + 1) = finshHeapAllocate (held base) heap (string.length + 1) := by
    rw [hp.heaped, ← held_congr hp.vars]
    rfl
  simp only [newString, finshNodeNewString, finshNodeAllocate, hroom, if_pos]
  rw [halloc]
  generalize finshHeapAllocate (held base) heap (string.length + 1) = r
  rcases r with _ | ⟨_ | ptr, h⟩ <;> rfl

theorem At.makes_string {heap' : FinshHeap} (hp : At heap base ts k p) (hk : k < finshNodeMax)
    {string : List Char} (hserve : serveStrings (held base) heap [string] = some heap') :
    exists ptr, Makes heap' base ts (k + 1) (newString string) p
      (Phrase.leaf NodeType.valueString NodeId.none ptr) := by
  have hnew := hp.newString_eq hk string
  unfold serveStrings at hserve
  split at hserve
  · rename_i ptr h halloc
    cases hserve
    rw [halloc] at hnew
    exact ⟨ptr, _, hnew, hp.pending, hp.errno, hp.vars, congrArg Nat.succ hp.nodes, rfl⟩
  · cases hserve

theorem At.newString_none (hp : At heap base ts k p) (hk : k < finshNodeMax) {string : List Char}
    (hserve : serveStrings (held base) heap [string] = none) : newString string p = none := by
  rw [hp.newString_eq hk]
  unfold serveStrings at hserve
  generalize finshHeapAllocate (held base) heap (string.length + 1) = r at hserve ⊢
  rcases r with _ | ⟨_ | ptr, h⟩
  · rfl
  · rfl
  · cases hserve

theorem finshLookup_congr {env : Symbols} {s : Shell}
    (hs : s.globalVariable = base.globalVariable) (name : List Char) :
    finshLookup env s name = finshLookup env base name := by
  unfold finshLookup finshVarLookup
  rw [hs]

theorem finshVarLookup_take {s : Shell} (name : List Char) :
    finshVarLookup s (name.take finshNameMax) = finshVarLookup s name := by
  simp only [finshVarLookup, sameName, List.take_take, min_self]

theorem finshLookup_take {env : Symbols} {s : Shell} {name : List Char}
    (hname : nameFits s name = true) :
    finshLookup env s (name.take finshNameMax) = finshLookup env s name := by
  rcases Bool.or_eq_true_iff.mp hname with hlen | hvar
  · rw [List.take_of_length_le (Nat.le_of_lt (of_decide_eq_true hlen))]
  · rcases Option.isSome_iff_exists.mp hvar with ⟨index, hindex⟩
    unfold finshLookup
    rw [finshVarLookup_take, hindex]

/-- The name in the buffer has no end exactly when it does not fit. -/
theorem unended_iff {s : Shell} {name : List Char} :
    ((finshVarLookup s (name.take finshNameMax)).isNone ∧
      finshNameMax ≤ (name.take finshNameMax).length) <-> nameFits s name = false := by
  rw [finshVarLookup_take, nameFits, Bool.or_eq_false_iff, List.length_take,
    Option.isSome_eq_false_iff, decide_eq_false_iff_not, and_comm]
  have hmin : finshNameMax ≤ min finshNameMax name.length <->
    ¬name.length < finshNameMax := by omega
  rw [hmin]

theorem nameFits_congr {s : Shell} (hs : s.globalVariable = base.globalVariable)
    (name : List Char) : nameFits s name = nameFits base name := by
  unfold nameFits finshVarLookup
  rw [hs]

theorem At.makes_id (hp : At heap base ts k p) (hk : k < finshNodeMax) {env : Symbols}
    {name : List Char} (hname : nameFits base name = true) {id : NodeId}
    (hid : finshLookup env base name = some id) :
    Makes heap base ts (k + 1) (newId env (name.take finshNameMax)) p
      (Phrase.leaf NodeType.id id 0) := by
  rcases hp.makes_node hk NodeType.id (fun node => { node with id := id }) with ⟨p', hrun, hp'⟩
  refine ⟨p', ?_, hp'⟩
  rw [← nameFits_congr hp.vars] at hname
  rw [← finshLookup_congr hp.vars, ← finshLookup_take hname] at hid
  have hnew : finshNodeNewId env p.shell (name.take finshNameMax) =
      finshNodeNew p.shell NodeType.id fun node => { node with id := id } := by
    unfold finshNodeNewId
    rw [hid]
  unfold newId
  rw [if_neg (by rw [unended_iff, hname]; decide)]
  show some ((finshNodeNewId env p.shell (name.take finshNameMax)).1,
    { p with shell := (finshNodeNewId env p.shell (name.take finshNameMax)).2 }) = _
  rw [hnew]
  exact hrun

theorem At.newId_none (hp : At heap base ts k p) {env : Symbols} {name : List Char}
    (hname : nameFits base name = false) : newId env (name.take finshNameMax) p = none := by
  rw [← nameFits_congr hp.vars] at hname
  exact if_pos (unended_iff.mpr hname)

end Nodes

/-!
## First tokens
-/

def startsPrimary : TokenType -> Bool
  | TokenType.leftParen | TokenType.identifier | TokenType.valueInt | TokenType.valueLong
  | TokenType.valueChar | TokenType.valueString | TokenType.valueNull => true
  | _ => false

def startsUnary : TokenType -> Bool
  | TokenType.add | TokenType.inc | TokenType.sub | TokenType.dec | TokenType.bitwise
  | TokenType.mul | TokenType.and => true
  | _ => false

def startsPhrase : Cat -> TokenType -> Bool
  | Cat.postfixExpr, token => startsPrimary token
  | Cat.primaryExpr, token => startsPrimary token
  | _, token => startsPrimary token || startsUnary token

/-- The categories that a cast expression without a cast is made of. -/
def tight : Cat -> Bool
  | Cat.unaryExpr | Cat.postfixExpr | Cat.primaryExpr => true
  | _ => false

def Begins (c : Cat) (ts : List Token) : Prop :=
  exists t ts', ts = t :: ts' ∧ t.error = FinshError.ok ∧ startsPhrase c t.type = true

def Opens (ts : List Token) : Prop :=
  exists t ts', ts = t :: ts' ∧ t.error = FinshError.ok ∧ t.type = TokenType.leftParen ∧
    Begins Cat.assignExpr ts'

variable {c c' : Cat} {token op : TokenType} {type : NodeType}

theorem Begins.append {ts : List Token} (hb : Begins c ts) (rest : List Token) :
    Begins c (ts ++ rest) := by
  rcases hb with ⟨t, ts', rfl, ht, hs⟩
  exact ⟨t, ts' ++ rest, rfl, ht, hs⟩

theorem Opens.append {ts : List Token} (ho : Opens ts) (rest : List Token) :
    Opens (ts ++ rest) := by
  rcases ho with ⟨t, ts', rfl, ht, htype, hb⟩
  exact ⟨t, ts' ++ rest, rfl, ht, htype, hb.append rest⟩

theorem startsPhrase_assign (hs : startsPhrase c token = true) :
    startsPhrase Cat.assignExpr token = true := by
  cases c <;> simp_all [startsPhrase]

theorem Begins.lift {ts : List Token} (hc : c.operand = some c')
    (hb : Begins c' ts) : Begins c ts := by
  rcases hb with ⟨t, ts', rfl, ht, hs⟩
  refine ⟨t, ts', rfl, ht, ?_⟩
  cases c <;> cases hc <;> simp_all [startsPhrase]

theorem operand_ne (hop : c.operand = some c') : c' ≠ Cat.paramList := by
  rintro rfl
  cases c <;> cases hop

theorem binary_ne (hop : c.op op = some type) : c ≠ Cat.paramList := by
  rintro rfl
  cases hop

theorem Phrase.begins (d : Phrase c) (hc : c ≠ Cat.paramList) : Begins c d.tokens := by
  induction d with
  | @lift c c' hop d ih => exact (ih (operand_ne hop)).lift hop
  | assign u e ihu _ =>
    rcases (ihu (by decide)).append (plain TokenType.assign :: e.tokens) with
      ⟨t, ts, hts, ht, hs⟩
    exact ⟨t, ts, hts, ht, startsPhrase_assign hs⟩
  | binary op _ _ _ l r ihl _ => exact (ihl hc).append _
  | cast isUnsigned b d _ => exact ⟨_, _, rfl, rfl, rfl⟩
  | unary op d _ => exact ⟨_, _, rfl, rfl, by cases op <;> rfl⟩
  | step up d ih => exact (ih hc).append _
  | call f ps ihf _ => exact (ihf hc).append _
  | paren e _ => exact ⟨_, _, rfl, rfl, rfl⟩
  | literal value => exact ⟨_, _, rfl, by cases value <;> rfl, by cases value <;> rfl⟩
  | identifier name => exact ⟨_, _, rfl, rfl, rfl⟩
  | noParams => exact absurd rfl hc
  | oneParam e _ => exact absurd rfl hc
  | moreParams ps e _ _ => exact absurd rfl hc

theorem Phrase.opens_or (d : Phrase c) (hc : tight c = true) :
    (d.clean = false ∧ Opens d.tokens) ∨
      exists t ts, d.tokens = t :: ts ∧ t.error = FinshError.ok ∧
        startsPhrase c t.type = true ∧
        t.type ≠ TokenType.leftParen := by
  induction d with
  | @lift c c' hop d ih =>
    have hc' : tight c' = true := by cases c <;> cases hop <;> cases hc <;> rfl
    rcases ih hc' with ⟨hd, ho⟩ | ⟨t, ts, hts, ht, hs, hne⟩
    · exact Or.inl ⟨hd, ho⟩
    · refine Or.inr ⟨t, ts, hts, ht, ?_, hne⟩
      cases c <;> cases hop <;> simp_all [startsPhrase]
  | assign u e _ _ => cases hc
  | @binary c c' op type hop hop' l r _ _ => cases c <;> first | cases hop | cases hc
  | cast isUnsigned b d _ => cases hc
  | unary op d _ =>
    exact Or.inr ⟨_, _, rfl, rfl, by cases op <;> rfl, by cases op <;> decide⟩
  | step up d ih =>
    rcases ih hc with ⟨hd, ho⟩ | ⟨t, ts, hts, ht, hs, hne⟩
    · exact Or.inl ⟨hd, ho.append _⟩
    · exact Or.inr ⟨t, ts ++ _, by rw [tokens, hts]; rfl, ht, hs, hne⟩
  | call f ps ihf _ =>
    rcases ihf hc with ⟨hd, ho⟩ | ⟨t, ts, hts, ht, hs, hne⟩
    · exact Or.inl ⟨by simp [clean, hd], ho.append _⟩
    · exact Or.inr ⟨t, ts ++ _, by rw [tokens, hts]; rfl, ht, hs, hne⟩
  | paren e _ => exact Or.inl ⟨rfl, _, _, rfl, rfl, rfl, (e.begins (by decide)).append _⟩
  | literal value =>
    exact Or.inr ⟨_, _, rfl, by cases value <;> rfl, by cases value <;> rfl,
      by cases value <;> exact TokenType.noConfusion⟩
  | identifier name => exact Or.inr ⟨_, _, rfl, rfl, rfl, TokenType.noConfusion⟩
  | noParams => cases hc
  | oneParam e _ => cases hc
  | moreParams ps e _ _ => cases hc

theorem Phrase.isEmpty_or (d : Phrase c) (hc : c = Cat.paramList) :
    d.isEmpty = true ∨ exists t ts, d.tokens = t :: ts ∧ t.error = FinshError.ok ∧
      t.type ≠ TokenType.rightParen := by
  induction d with
  | noParams => exact Or.inl rfl
  | oneParam e _ =>
    rcases e.begins (by decide) with ⟨t, ts, hts, ht, hs⟩
    refine Or.inr ⟨t, ts, hts, ht, ?_⟩
    intro hright
    rw [hright] at hs
    cases hs
  | moreParams ps e ih _ =>
    rcases ih rfl with hempty | ⟨t, ts, hts, ht, hne⟩
    · cases ps with
      | noParams => exact Or.inr ⟨_, _, rfl, rfl, by decide⟩
      | lift hop d => cases hop
      | binary op _ hop _ l r => cases hop
      | oneParam e => cases hempty
      | moreParams ps e => cases hempty
    · exact Or.inr ⟨t, ts ++ _, by rw [tokens, hts]; rfl, ht, hne⟩
  | lift hop d _ => subst hc; cases hop
  | binary op _ hop _ l r _ _ => subst hc; cases hop
  | _ => cases hc

/-!
## Operators
-/

/-- The rank of the category whose loop goes on at a token. -/
def level : TokenType -> Option Nat
  | TokenType.comma => some 0
  | TokenType.assign => some 1
  | TokenType.or => some 2
  | TokenType.xor => some 3
  | TokenType.and => some 4
  | TokenType.shl | TokenType.shr => some 5
  | TokenType.add | TokenType.sub => some 6
  | TokenType.mul | TokenType.div | TokenType.mod => some 7
  | TokenType.inc | TokenType.dec | TokenType.leftParen => some 8
  | _ => none

/-- Only operators that bind more weakly go on at a token. -/
def Below (r : Nat) (token : TokenType) : Prop := forall l, level token = some l -> l < r

theorem Below.mono {r r' : Nat} (hb : Below r token) (hr : r ≤ r') : Below r' token :=
  fun l hl => Nat.lt_of_lt_of_le (hb l hl) hr

def Cat.isBinary : Cat -> Bool
  | inclusiveOrExpr | exclusiveOrExpr | andExpr | shiftExpr | additiveExpr
  | multiplicativeExpr => true
  | _ => false

/-- The operators below this may follow a phrase before its loop ends. -/
def Cat.inner (c : Cat) : Nat :=
  match c with
  | paramList | postfixExpr => c.rank + 1
  | c => if c.isBinary then c.rank + 1 else c.rank

theorem isBinary_of_op (hop : c.op op = some type) : c.isBinary = true := by
  cases c <;> first | rfl | cases hop

theorem level_of_op (hop : c.op op = some type) : level op = some c.rank := by
  cases c
  all_goals
    dsimp only [Cat.op, orOp, xorOp, andOp, shiftOp, additiveOp, multiplicativeOp] at hop
    first
      | cases hop
      | split at hop <;> first | rfl | cases hop

theorem op_of_below (hb : Below c.rank token) : c.op token = none := by
  cases hop : c.op token with
  | none => rfl
  | some type => exact absurd (hb _ (level_of_op hop)) (Nat.lt_irrefl _)

theorem inner_of_binary (hc : c.isBinary = true) : c.inner = c.rank + 1 := by
  cases c <;> first | rfl | cases hc

theorem rank_operand (hc : c.isBinary = true) (hop : c.operand = some c') :
    c'.rank = c.rank + 1 := by
  cases c <;> cases hop <;> first | rfl | cases hc

theorem rank_le_inner (c : Cat) : c.rank ≤ c.inner := by
  cases c <;> decide

/-!
## The functions of the parser by category

`m` bounds the loops and the recursion through assignments, and `n` the recursion of
casts, of assignments and of the loop of a parameter list.
-/

section Functions

variable (env : Symbols)

def procOf : Cat -> Nat -> Nat -> ParserM (List Token) Tree
  | Cat.paramList, m, n => procParamList listSource (procAssignExpr listSource env m) n
  | Cat.assignExpr, _, n => procAssignExpr listSource env n
  | Cat.inclusiveOrExpr, m, _ =>
    procInclusiveOrExpr listSource env (procAssignExpr listSource env m) m
  | Cat.exclusiveOrExpr, m, _ =>
    procExclusiveOrExpr listSource env (procAssignExpr listSource env m) m
  | Cat.andExpr, m, _ => procAndExpr listSource env (procAssignExpr listSource env m) m
  | Cat.shiftExpr, m, _ => procShiftExpr listSource env (procAssignExpr listSource env m) m
  | Cat.additiveExpr, m, _ =>
    procAdditiveExpr listSource env (procAssignExpr listSource env m) m
  | Cat.multiplicativeExpr, m, _ =>
    procMultiplicativeExpr listSource env (procAssignExpr listSource env m) m
  | Cat.castExpr, m, n =>
    procCastExpr listSource
      (procPostfixExpr listSource env (procAssignExpr listSource env m) m) n
  | Cat.unaryExpr, m, n =>
    procUnaryExpr listSource
      (procCastExpr listSource
        (procPostfixExpr listSource env (procAssignExpr listSource env m) m) n)
      (procPostfixExpr listSource env (procAssignExpr listSource env m) m)
  | Cat.postfixExpr, m, _ =>
    procPostfixExpr listSource env (procAssignExpr listSource env m) m
  | Cat.primaryExpr, m, _ => procPrimaryExpr listSource env (procAssignExpr listSource env m)

def operandOf (c : Cat) (m : Nat) : ParserM (List Token) Tree :=
  match c.operand with
  | some c' => procOf env c' m m
  | none => outOfFuel

/-- What remains of the function of a category behind a phrase of the category. -/
def loopOf (c : Cat) (m fuel : Nat) (t : Tree) : ParserM (List Token) Tree :=
  match c with
  | Cat.paramList => do
      let rest <- paramLoop listSource (procAssignExpr listSource env m) fuel
      pure (Phrase.append t rest)
  | Cat.postfixExpr => postfixLoop listSource (procAssignExpr listSource env m) fuel t
  | c =>
    if c.isBinary then binaryLoop listSource c.op (operandOf env c m) fuel t else pure t

theorem procOf_binary {c c' : Cat} (hc : c.isBinary = true) (hop : c.operand = some c')
    (m n : Nat) :
    procOf env c m n = procBinary listSource c.op (procOf env c' m m) m := by
  cases c <;> cases hop <;> first | rfl | cases hc

theorem loopOf_binary {c c' : Cat} (hc : c.isBinary = true) (hop : c.operand = some c')
    (m fuel : Nat) (t : Tree) :
    loopOf env c m fuel t = binaryLoop listSource c.op (procOf env c' m m) fuel t := by
  cases c <;> cases hop <;> first | rfl | cases hc

end Functions

/-!
## Loops
-/

section Loops

variable {env : Symbols} {heap heap' : FinshHeap} {base : Shell} {t : Token} {ts : List Token}
  {k : Nat}
variable {p : LineParser}

theorem At.run_binaryLoop (hp : At heap base (t :: ts) k p) (ht : t.error = FinshError.ok)
    {op : TokenType -> Option NodeType} {type : NodeType} (hop : op t.type = some type)
    {operand : ParserM (List Token) Tree} {t1 t2 : Tree} {ts' : List Token} {k' : Nat}
    {p1 : LineParser} (hrun : operand (behind t ts p) = some (t2, p1))
    (hp1 : At heap' base ts' k' p1) (h1 : t1.isNull = false) (h2 : t2.isNull = false)
    (hk : k' < finshNodeMax) (fuel : Nat) :
    exists p2, binaryLoop listSource op operand (fuel + 1) t1 p =
        binaryLoop listSource op operand fuel (Phrase.sysNode type t1 t2) p2 ∧
      At heap' base ts' (k' + 1) p2 := by
  rcases hp1.makes_sysNode hk type h1 t2 with ⟨p2, hnode, hp2⟩
  refine ⟨p2, ?_, hp2⟩
  rw [binaryLoop, hp.run_next ht, hop]
  simp only
  rw [run_bind hrun, h2]
  exact run_bind hnode

theorem At.run_postfixStep (hp : At heap base (t :: ts) k p) (ht : t.error = FinshError.ok)
    {up : Bool} (htype : t.type = if up then TokenType.inc else TokenType.dec)
    {assign : ParserM (List Token) Tree} {t1 : Tree} (h1 : t1.isNull = false)
    (hk : k < finshNodeMax) (fuel : Nat) :
    exists p1, postfixLoop listSource assign (fuel + 1) t1 p = postfixLoop listSource assign fuel
          (Phrase.sysNode (if up then NodeType.sysInc else NodeType.sysDec) t1 Tree.null) p1 ∧
      At heap base ts (k + 1) p1 := by
  rcases hp.at_behind.makes_sysNode hk (if up then NodeType.sysInc else NodeType.sysDec) h1
    Tree.null with ⟨p1, hnode, hp1⟩
  refine ⟨p1, ?_, hp1⟩
  rw [postfixLoop, hp.run_next ht, htype]
  cases up with
  | true => exact run_bind hnode
  | false => exact run_bind hnode

theorem At.run_postfixCall (hp : At heap base (t :: ts) k p) (ht : t.error = FinshError.ok)
    (htype : t.type = TokenType.leftParen) {assign : ParserM (List Token) Tree}
    {t1 t2 : Tree} {ts' : List Token} {k' fuel : Nat} {p1 : LineParser}
    (hrun : procParams listSource assign fuel (behind t ts p) = some (t2, p1))
    (hp1 : At heap' base ts' k' p1) (h1 : t1.isNull = false) (hk : k' < finshNodeMax) :
    exists p2, postfixLoop listSource assign (fuel + 1) t1 p =
        postfixLoop listSource assign fuel (Phrase.sysNode NodeType.sysFunc t1 t2) p2 ∧
      At heap' base ts' (k' + 1) p2 := by
  rcases hp1.makes_sysNode hk NodeType.sysFunc h1 t2 with ⟨p2, hnode, hp2⟩
  refine ⟨p2, ?_, hp2⟩
  rw [postfixLoop, hp.run_next ht, htype]
  simp only
  rw [run_bind hrun]
  exact run_bind hnode

theorem At.run_loopEnd (hp : At heap base (t :: ts) k p) (ht : t.error = FinshError.ok)
    {c : Cat} (hb : Below c.rank t.type) (m fuel : Nat) (tree : Tree) :
    exists p', loopOf env c m (fuel + 1) tree p = some (tree, p') ∧
      At heap base (t :: ts) k p' := by
  by_cases hc : c.isBinary = true
  · rcases Option.isSome_iff_exists.mp (show c.operand.isSome = true by
      cases c <;> first | rfl | cases hc) with ⟨c', hop⟩
    refine ⟨_, ?_, hp.at_replayed⟩
    rw [loopOf_binary env hc hop, binaryLoop, hp.run_next ht, op_of_below hb]
    rfl
  · cases c with
    | paramList =>
      refine ⟨_, ?_, hp.at_replayed⟩
      have hne : t.type ≠ TokenType.comma := by
        intro hcomma
        rw [hcomma] at hb
        exact absurd (hb _ rfl) (by decide)
      have hloop : paramLoop listSource (procAssignExpr listSource env m) (fuel + 1) p =
          some (Tree.null, replayed t ts p) := by
        rw [paramLoop, hp.run_next ht, if_neg hne]
        rfl
      show (paramLoop listSource _ (fuel + 1) >>= fun rest => _) p = _
      rw [run_bind hloop, append_null]
      rfl
    | postfixExpr =>
      refine ⟨_, ?_, hp.at_replayed⟩
      show postfixLoop listSource _ (fuel + 1) tree p = _
      rw [postfixLoop, hp.run_next ht]
      generalize t.type = token at hb
      cases token <;> first | rfl | exact absurd (hb 8 rfl) (by decide)
    | assignExpr | castExpr | unaryExpr | primaryExpr => exact ⟨p, rfl, hp⟩
    | _ => exact absurd rfl hc

end Loops

/-!
## Acceptance
-/

theorem single_leaf {type : NodeType} {id : NodeId} {value : Nat} :
    Single (Phrase.leaf type id value) := single_node

theorem Phrase.Shape.single {env : Symbols} {base : Shell} {c : Cat} {d : Phrase c}
    {t : Tree} (ht : d.Shape env base t) (hc : c ≠ Cat.paramList) : Single t := by
  induction d generalizing t with
  | @lift c c' hop d ih => exact ih ht (operand_ne hop)
  | assign u e _ _ =>
    rcases ht with ⟨t1, t2, _, _, rfl⟩
    exact single_sysNode
  | binary op _ _ _ l r _ _ =>
    rcases ht with ⟨t1, t2, _, _, rfl⟩
    exact single_sysNode
  | cast isUnsigned b d ih =>
    rcases ht with ⟨t1, type, ht1, _, rfl⟩
    exact (ih ht1 (by decide)).setDataType _
  | unary op d ih =>
    rcases ht with ⟨t1, ht1, rfl⟩
    cases op with
    | add => exact ih ht1 (by decide)
    | _ => exact single_sysNode
  | step up d _ =>
    rcases ht with ⟨t1, _, rfl⟩
    exact single_sysNode
  | call f ps _ _ =>
    rcases ht with ⟨t1, t2, _, _, rfl⟩
    exact single_sysNode
  | paren e ih => exact ih ht (by decide)
  | literal value =>
    cases value with
    | string s =>
      rcases ht with ⟨ptr, rfl⟩
      exact single_leaf
    | _ =>
      cases ht
      exact single_leaf
  | identifier name =>
    rcases ht with ⟨id, _, rfl⟩
    exact single_leaf
  | noParams => exact absurd rfl hc
  | oneParam e _ => exact absurd rfl hc
  | moreParams ps e _ _ => exact absurd rfl hc

section Accepted

variable (env : Symbols) (heap heap' : FinshHeap) (base : Shell)

/-- The function of the category reads the phrase and is then in its loop, with the second heap. -/
def Accepted {c : Cat} (d : Phrase c) : Prop :=
  forall m n k tok rest p, d.need < min m n -> k + d.nodes ≤ finshNodeMax ->
    tok.error = FinshError.ok -> Below c.inner tok.type ->
    At heap base (d.tokens ++ tok :: rest) k p ->
    exists fuel t p', min m n ≤ fuel + d.need ∧
      procOf env c m n p = loopOf env c m fuel t p' ∧
      At heap' base (tok :: rest) (k + d.nodes) p' ∧ d.Shape env base t

variable {env heap heap' base}

variable {heap1 : FinshHeap} {c : Cat} {e : Phrase Cat.assignExpr} {d : Phrase Cat.castExpr}
  {ps : Phrase Cat.paramList}

theorem Accepted.parse {d : Phrase c} (hd : Accepted env heap heap' base d) {m n k : Nat}
    {tok : Token} {rest : List Token} {p : LineParser} (hneed : d.need < min m n)
    (hroom : k + d.nodes ≤ finshNodeMax) (htok : tok.error = FinshError.ok)
    (hb : Below c.rank tok.type) (hp : At heap base (d.tokens ++ tok :: rest) k p) :
    exists t p', procOf env c m n p = some (t, p') ∧
      At heap' base (tok :: rest) (k + d.nodes) p' ∧ d.Shape env base t := by
  rcases hd m n k tok rest p hneed hroom htok (hb.mono (rank_le_inner c)) hp with
    ⟨fuel, t, p1, hfuel, hrun, hp1, ht⟩
  cases fuel with
  | zero => omega
  | succ fuel =>
    rcases hp1.run_loopEnd htok hb m fuel t with ⟨p2, hend, hp2⟩
    exact ⟨t, p2, hrun.trans hend, hp2, ht⟩

theorem At.run_unary {t : Token} {ts : List Token} {k : Nat} {p : LineParser}
    (hp : At heap base (t :: ts) k p) (ht : t.error = FinshError.ok)
    (hs : startsPrimary t.type = true) (cast inner : ParserM (List Token) Tree) :
    procUnaryExpr listSource cast inner p = inner (replayed t ts p) := by
  rw [procUnaryExpr, hp.run_next ht]
  generalize t.type = token at hs
  cases token <;> first | rfl | cases hs

theorem accepted_lift {c' : Cat} (hop : c.operand = some c') {d : Phrase c'}
    (hclean : d.clean = true) (hd : Accepted env heap heap' base d) :
    Accepted env heap heap' base (Phrase.lift hop d) := by
  intro m n k tok rest p hneed hroom htok hb hp
  replace hneed : d.need + 1 < min m n := hneed
  replace hp : At heap base (d.tokens ++ tok :: rest) k p := hp
  replace hroom : k + d.nodes ≤ finshNodeMax := hroom
  by_cases hc : c.isBinary = true
  · rw [inner_of_binary hc, ← rank_operand hc hop] at hb
    rcases hd.parse (by omega : d.need < min m m) hroom htok hb hp with ⟨t, p1, hrun, hp1, ht⟩
    refine ⟨m, t, p1, ?_, ?_, hp1, ht⟩
    · omega
    · rw [procOf_binary env hc hop, loopOf_binary env hc hop]
      exact run_bind hrun
  · cases c with
    | assignExpr =>
      cases hop
      cases n with
      | zero => omega
      | succ n =>
        rcases hd.parse (by omega : d.need < min n n) hroom htok (hb.mono (by decide)) hp
          with ⟨t, p1, hrun, hp1, ht⟩
        have hne : tok.type ≠ TokenType.assign := by
          intro hassign
          exact absurd (hb 1 (by rw [hassign]; rfl)) (by decide)
        refine ⟨min m (n + 1), t, replayed tok rest p1, Nat.le_add_right _ _, ?_,
          hp1.at_replayed, ht⟩
        show procAssignExpr listSource env (n + 1) p = _
        rw [procAssignExpr]
        refine (run_bind hrun).trans ?_
        rw [hp1.run_next htok, if_neg hne]
        rfl
    | castExpr =>
      cases hop
      cases n with
      | zero => omega
      | succ n =>
        rcases d.opens_or rfl with ⟨hdirty, _⟩ | ⟨t1, ts1, hts, ht1, _, hne⟩
        · rw [hclean] at hdirty
          cases hdirty
        · have hp0 := hp
          rw [hts] at hp0
          rcases hd.parse (by omega : d.need < min m n) hroom htok hb (hp.peeked hts) with
            ⟨t, p1, hrun, hp1, ht⟩
          refine ⟨min m (n + 1), t, p1, Nat.le_add_right _ _, ?_, hp1, ht⟩
          show procCastExpr listSource _ (n + 1) p = _
          rw [procCastExpr, hp0.run_next ht1, if_neg hne]
          exact hrun
    | unaryExpr =>
      cases hop
      rcases d.begins (by decide) with ⟨t1, ts1, hts, ht1, hs⟩
      have hp0 := hp
      rw [hts] at hp0
      rcases hd.parse (by omega : d.need < min m n) hroom htok hb (hp.peeked hts) with
        ⟨t, p1, hrun, hp1, ht⟩
      refine ⟨min m n, t, p1, Nat.le_add_right _ _, ?_, hp1, ht⟩
      exact (hp0.run_unary ht1 hs _ _).trans hrun
    | postfixExpr =>
      cases hop
      rcases hd.parse (by omega : d.need < min m n) hroom htok hb hp with
        ⟨t, p1, hrun, hp1, ht⟩
      refine ⟨m, t, p1, ?_, run_bind hrun, hp1, ht⟩
      show min m n ≤ m + (d.need + 1)
      omega
    | paramList | primaryExpr => cases hop
    | _ => exact absurd rfl hc

def Phrase.ofUnary (u : Phrase Cat.unaryExpr) : Phrase Cat.inclusiveOrExpr :=
  lift rfl (lift rfl (lift rfl (lift rfl (lift rfl (lift rfl
    (lift (show Cat.castExpr.operand = some Cat.unaryExpr from rfl) u))))))

theorem accepted_ofUnary {u : Phrase Cat.unaryExpr} (hclean : u.clean = true)
    (hu : Accepted env heap heap' base u) : Accepted env heap heap' base u.ofUnary := by
  have hcast := accepted_lift (show Cat.castExpr.operand = some Cat.unaryExpr from rfl) hclean hu
  exact accepted_lift rfl hclean (accepted_lift rfl hclean (accepted_lift rfl hclean
    (accepted_lift rfl hclean (accepted_lift rfl hclean (accepted_lift rfl hclean hcast)))))

theorem accepted_assign {u : Phrase Cat.unaryExpr} (hclean : u.clean = true)
    (hu : Accepted env heap heap1 base u) (he : Accepted env heap1 heap' base e) :
    Accepted env heap heap' base (Phrase.assign u e) := by
  intro m n k tok rest p hneed hroom htok hb hp
  replace hneed : u.need + e.need + 8 < min m n := hneed
  replace hroom : k + (u.nodes + e.nodes + 1) ≤ finshNodeMax := hroom
  replace hp : At heap base (u.ofUnary.tokens ++ plain TokenType.assign ::
      (e.tokens ++ tok :: rest)) k p := by
    have heq := List.append_assoc u.tokens (plain TokenType.assign :: e.tokens) (tok :: rest)
    exact heq ▸ hp
  cases n with
  | zero => omega
  | succ n =>
    have hneedu : u.ofUnary.need < min n n := by
      show u.need + 7 < min n n
      omega
    have hroomu : k + u.nodes ≤ finshNodeMax := by omega
    have hlow : Below 2 (plain TokenType.assign).type := by
      intro l hl
      cases hl
      decide
    rcases (accepted_ofUnary hclean hu).parse hneedu hroomu rfl hlow hp with
      ⟨t1, p1, hrun1, hp1, ht1⟩
    have hroome : k + u.nodes + e.nodes ≤ finshNodeMax := by omega
    rcases he.parse (by omega : e.need < min m n) hroome htok hb hp1.at_behind with
      ⟨t2, p2, hrun2, hp2, ht2⟩
    have ht1' : u.Shape env base t1 := ht1
    rcases hp2.makes_sysNode (by show k + u.nodes + e.nodes < finshNodeMax; omega)
      NodeType.sysAssign (ht1'.single (by decide)).1 t2 with ⟨p3, hnode, hp3⟩
    refine ⟨min m (n + 1), Phrase.sysNode NodeType.sysAssign t1 t2, p3, Nat.le_add_right _ _, ?_,
      hp3.count (by show _ = k + (u.nodes + e.nodes + 1); omega), t1, t2, ht1, ht2, rfl⟩
    show procAssignExpr listSource env (n + 1) p = _
    rw [procAssignExpr]
    refine (run_bind hrun1).trans ?_
    rw [hp1.run_next rfl]
    exact (run_bind hrun2).trans hnode

theorem accepted_binary {c' : Cat} {op : TokenType} {type : NodeType}
    (hop : c.op op = some type) (hop' : c.operand = some c') {l : Phrase c} {r : Phrase c'}
    (hl : Accepted env heap heap1 base l) (hr : Accepted env heap1 heap' base r) :
    Accepted env heap heap' base (Phrase.binary op type hop hop' l r) := by
  intro m n k tok rest p hneed hroom htok hb hp
  have hc := isBinary_of_op hop
  replace hneed : l.need + r.need + 1 < min m n := hneed
  replace hroom : k + (l.nodes + r.nodes + 1) ≤ finshNodeMax := hroom
  replace hp : At heap base (l.tokens ++ plain op :: (r.tokens ++ tok :: rest)) k p := by
    have heq := List.append_assoc l.tokens (plain op :: r.tokens) (tok :: rest)
    exact heq ▸ hp
  have hlow : Below c.inner op := by
    intro x hx
    rw [level_of_op hop] at hx
    cases hx
    rw [inner_of_binary hc]
    exact Nat.lt_succ_self _
  rcases hl m n k (plain op) _ p (by omega) (by omega) rfl hlow hp with
    ⟨fuel, t1, p1, hfuel, hrun1, hp1, ht1⟩
  cases fuel with
  | zero => omega
  | succ fuel =>
    rw [inner_of_binary hc, ← rank_operand hc hop'] at hb
    rcases hr.parse (by omega : r.need < min m m) (by omega) htok hb hp1.at_behind with
      ⟨t2, p2, hrun2, hp2, ht2⟩
    rcases hp1.run_binaryLoop rfl hop hrun2 hp2 (ht1.single (binary_ne hop)).1
      (ht2.single (operand_ne hop')).1
      (by omega) fuel with ⟨p3, hloop, hp3⟩
    refine ⟨fuel, Phrase.sysNode type t1 t2, p3, ?_, ?_,
      hp3.count (by show _ = k + (l.nodes + r.nodes + 1); omega), t1, t2, ht1, ht2, rfl⟩
    · show min m n ≤ fuel + (l.need + r.need + 1)
      omega
    · rw [hrun1, loopOf_binary env hc hop', loopOf_binary env hc hop', hloop]

theorem At.run_pointer {ts : List Token} {k : Nat} {p : LineParser}
    (hp : At heap base (plain TokenType.rightParen :: ts) k p) (type : FinshType) :
    exists p', procPointer listSource type p = some (type, p') ∧
      At heap base (plain TokenType.rightParen :: ts) k p' := by
  refine ⟨replayed (plain TokenType.rightParen) ts p, ?_, hp.at_replayed⟩
  rw [procPointer, hp.run_next rfl]
  rfl

theorem At.run_castType {isUnsigned : Bool} {b : BaseType} {type : FinshType}
    (htype : castType isUnsigned b = some type) {ts : List Token} {k : Nat} {p : LineParser}
    (hp : At heap base (Phrase.castTokens isUnsigned b ++ ts) k p) :
    exists p', procType listSource p = some (type, p') ∧
      At heap base (plain TokenType.rightParen :: ts) k p' := by
  cases isUnsigned with
  | true =>
    have hp1 := hp.at_behind
    rcases hp1.at_behind.run_pointer type with ⟨p', hrun, hp'⟩
    refine ⟨p', ?_, hp'⟩
    rw [procType, hp.run_next rfl]
    show procUnsigned listSource _ = _
    rw [procUnsigned, hp1.run_next rfl]
    cases b <;> cases htype <;> exact hrun
  | false =>
    rcases hp.at_behind.run_pointer type with ⟨p', hrun, hp'⟩
    refine ⟨p', ?_, hp'⟩
    rw [procType, hp.run_next rfl]
    cases b <;> cases htype <;> exact hrun

theorem accepted_cast {isUnsigned : Bool} {b : BaseType}
    (htype : (castType isUnsigned b).isSome = true) (hd : Accepted env heap heap' base d) :
    Accepted env heap heap' base (Phrase.cast isUnsigned b d) := by
  intro m n k tok rest p hneed hroom htok hb hp
  rcases Option.isSome_iff_exists.mp htype with ⟨type, htype⟩
  replace hneed : d.need + 1 < min m n := hneed
  replace hp : At heap base (plain TokenType.leftParen ::
      (Phrase.castTokens isUnsigned b ++ (d.tokens ++ tok :: rest))) k p := by
    have heq := List.append_assoc (Phrase.castTokens isUnsigned b) d.tokens (tok :: rest)
    exact heq ▸ hp
  cases n with
  | zero => omega
  | succ n =>
    rcases hp.at_behind.run_castType htype with ⟨p1, hrun1, hp1⟩
    rcases hd.parse (by omega : d.need < min m n) hroom htok hb hp1.at_behind with
      ⟨t, p2, hrun2, hp2, ht⟩
    refine ⟨min m (n + 1), t.setDataType type.code, p2, Nat.le_add_right _ _, ?_, hp2,
      t, type, ht, htype, rfl⟩
    have hnull := (ht.single (by decide)).1
    show procCastExpr listSource _ (n + 1) p = _
    rw [procCastExpr, hp.run_next rfl]
    refine (run_bind hrun1).trans ((hp1.run_match rfl _).trans ?_)
    refine (run_bind hrun2).trans ?_
    rw [hnull]
    rfl

theorem At.run_unaryOp {op : UnaryOp} {ts ts' : List Token} {k k' : Nat} {p p1 : LineParser}
    (hp : At heap base (plain op.token :: ts) k p) {cast inner : ParserM (List Token) Tree}
    {t : Tree} (hrun : cast (behind (plain op.token) ts p) = some (t, p1))
    (hp1 : At heap' base ts' (k + k') p1) (ht : t.isNull = false) (hd : d.nodes = k')
    (hroom : k + (Phrase.unary op d).nodes ≤ finshNodeMax) :
    exists p2, procUnaryExpr listSource cast inner p = some (Phrase.unaryTree op t, p2) ∧
      At heap' base ts' (k + (Phrase.unary op d).nodes) p2 := by
  subst hd
  rw [procUnaryExpr, hp.run_next rfl]
  cases op with
  | add => exact ⟨p1, hrun, hp1⟩
  | sub =>
    replace hroom : k + (d.nodes + 2) ≤ finshNodeMax := hroom
    rcases hp1.makes_node (by omega) NodeType.valueLong (fun node => { node with value := 0 })
      with ⟨p2, hzero, hp2⟩
    have hleaf : (Phrase.leaf NodeType.valueLong NodeId.none 0).isNull = false := rfl
    rcases hp2.makes_sysNode (by omega) NodeType.sysSub hleaf t with ⟨p3, hnode, hp3⟩
    refine ⟨p3, ?_, hp3⟩
    exact (run_bind hrun).trans ((run_bind hzero).trans hnode)
  | _ =>
    rcases hp1.makes_sysNode hroom _ ht Tree.null with ⟨p2, hnode, hp2⟩
    exact ⟨p2, (run_bind hrun).trans hnode, hp2⟩

theorem accepted_unary {op : UnaryOp} (hd : Accepted env heap heap' base d) :
    Accepted env heap heap' base (Phrase.unary op d) := by
  intro m n k tok rest p hneed hroom htok hb hp
  replace hneed : d.need + 1 < min m n := hneed
  replace hp : At heap base (plain op.token :: (d.tokens ++ tok :: rest)) k p := hp
  have hroomd : k + d.nodes ≤ finshNodeMax :=
    (Nat.add_le_add_left (d.nodes_le_unary op) k).trans hroom
  rcases hd.parse (by omega : d.need < min m n) hroomd htok hb hp.at_behind with
    ⟨t, p1, hrun, hp1, ht⟩
  rcases hp.run_unaryOp hrun hp1 (ht.single (by decide)).1 rfl hroom with ⟨p2, hrun2, hp2⟩
  exact ⟨min m n, Phrase.unaryTree op t, p2, Nat.le_add_right _ _, hrun2, hp2, t, ht, rfl⟩

theorem below_inner_of_step (token : TokenType) : Below Cat.postfixExpr.inner token := by
  intro l hl
  cases token <;> cases hl <;> decide

theorem accepted_step {up : Bool} {d : Phrase Cat.postfixExpr}
    (hd : Accepted env heap heap' base d) : Accepted env heap heap' base (Phrase.step up d) := by
  intro m n k tok rest p hneed hroom htok hb hp
  replace hneed : d.need + 1 < min m n := hneed
  replace hroom : k + (d.nodes + 1) ≤ finshNodeMax := hroom
  replace hp : At heap base (d.tokens ++ plain (if up then TokenType.inc else TokenType.dec) ::
      tok :: rest) k p := by
    have heq := List.append_assoc d.tokens
      [plain (if up then TokenType.inc else TokenType.dec)] (tok :: rest)
    exact heq ▸ hp
  rcases hd m n k _ _ p (by omega) (by omega) rfl (below_inner_of_step _) hp with
    ⟨fuel, t, p1, hfuel, hrun, hp1, ht⟩
  cases fuel with
  | zero => omega
  | succ fuel =>
    rcases hp1.run_postfixStep rfl rfl (ht.single (by decide)).1 (by omega) fuel with
      ⟨p2, hloop, hp2⟩
    refine ⟨fuel, _, p2, ?_, hrun.trans hloop, hp2, t, ht, rfl⟩
    show min m n ≤ fuel + (d.need + 1)
    omega

theorem Phrase.isEmpty_eq (hps : ps.isEmpty = true) : ps = Phrase.noParams := by
  cases ps with
  | noParams => rfl
  | lift hop d => cases hop
  | binary op type hop hop' l r => cases hop
  | oneParam e => cases hps
  | moreParams ps e => cases hps

theorem below_rightParen (r : Nat) : Below r TokenType.rightParen := by
  intro l hl
  cases hl

theorem At.run_params (hempty : ps.isEmpty = true -> heap' = heap)
    (hps : ps.isEmpty = false -> Accepted env heap heap' base ps) {m n k : Nat}
    {rest : List Token} {p : LineParser} (hneed : ps.need < min m n)
    (hroom : k + ps.nodes ≤ finshNodeMax)
    (hp : At heap base (ps.tokens ++ plain TokenType.rightParen :: rest) k p) :
    exists t p', procParams listSource (procAssignExpr listSource env m) n p = some (t, p') ∧
      At heap' base rest (k + ps.nodes) p' ∧ ps.Shape env base t := by
  rcases ps.isEmpty_or rfl with hnone | ⟨t1, ts1, hts, ht1, hne⟩
  · cases hempty hnone
    rw [Phrase.isEmpty_eq hnone] at hp ⊢
    refine ⟨Tree.null, _, ?_, hp.at_behind, rfl⟩
    rw [procParams, hp.run_next rfl]
    rfl
  · have hfull : ps.isEmpty = false := by
      cases hnone : ps.isEmpty with
      | false => rfl
      | true =>
        rw [Phrase.isEmpty_eq hnone] at hts
        cases hts
    have hp0 := hp
    rw [hts] at hp0
    rcases (hps hfull).parse hneed hroom rfl (below_rightParen _) (hp.peeked hts) with
      ⟨t, p1, hrun, hp1, ht⟩
    refine ⟨t, _, ?_, hp1.at_behind, ht⟩
    rw [procParams, hp0.run_next ht1, if_neg hne]
    refine (run_replay _).trans ((run_bind hrun).trans ?_)
    exact hp1.run_match rfl _

theorem accepted_call {d : Phrase Cat.postfixExpr} (hd : Accepted env heap heap1 base d)
    (hempty : ps.isEmpty = true -> heap' = heap1)
    (hps : ps.isEmpty = false -> Accepted env heap1 heap' base ps) :
    Accepted env heap heap' base (Phrase.call d ps) := by
  intro m n k tok rest p hneed hroom htok hb hp
  replace hneed : d.need + ps.need + 2 < min m n := hneed
  replace hroom : k + (d.nodes + ps.nodes + 1) ≤ finshNodeMax := hroom
  replace hp : At heap base (d.tokens ++ plain TokenType.leftParen ::
      (ps.tokens ++ plain TokenType.rightParen :: tok :: rest)) k p :=
    d.call_tokens_append ps (tok :: rest) ▸ hp
  rcases hd m n k _ _ p (by omega) (by omega) rfl (below_inner_of_step _) hp with
    ⟨fuel, t1, p1, hfuel, hrun1, hp1, ht1⟩
  cases fuel with
  | zero => omega
  | succ fuel =>
    rcases hp1.at_behind.run_params hempty hps (by omega : ps.need < min m fuel) (by omega) with
      ⟨t2, p2, hrun2, hp2, ht2⟩
    rcases hp1.run_postfixCall rfl rfl hrun2 hp2 (ht1.single (by decide)).1 (by omega) with
      ⟨p3, hloop, hp3⟩
    refine ⟨fuel, _, p3, ?_, hrun1.trans hloop,
      hp3.count (by show _ = k + (d.nodes + ps.nodes + 1); omega), t1, t2, ht1, ht2, rfl⟩
    show min m n ≤ fuel + (d.need + ps.need + 2)
    omega

theorem accepted_literal {value : Literal}
    (hserve : (Phrase.literal value).accept base heap = some heap') :
    Accepted env heap heap' base (Phrase.literal value) := by
  intro m n k tok rest p hneed hroom htok hb hp
  replace hp : At heap base (value.token :: tok :: rest) k p := hp
  replace hroom : k + 1 ≤ finshNodeMax := hroom
  have hmake : exists t, Makes heap' base (tok :: rest) (k + 1)
      (procPrimaryExpr listSource env (procAssignExpr listSource env m)) p t ∧
        Phrase.LiteralShape value t := by
    cases value with
    | string string =>
      rcases hp.at_behind.makes_string hroom hserve with ⟨ptr, p1, hrun, hp1⟩
      refine ⟨_, ⟨p1, ?_, hp1⟩, ptr, rfl⟩
      rw [procPrimaryExpr, hp.run_next rfl]
      exact hrun
    | int value | long value | char value =>
      cases hserve
      rcases hp.at_behind.makes_node hroom _ (fun node => { node with value := value }) with
        ⟨p1, hrun, hp1⟩
      refine ⟨_, ⟨p1, ?_, hp1⟩, rfl⟩
      rw [procPrimaryExpr, hp.run_next rfl]
      exact hrun
    | null =>
      cases hserve
      rcases hp.at_behind.makes_node hroom NodeType.valueNull
        (fun node => { node with value := 0 }) with ⟨p1, hrun, hp1⟩
      refine ⟨_, ⟨p1, ?_, hp1⟩, rfl⟩
      rw [procPrimaryExpr, hp.run_next rfl]
      exact hrun
  rcases hmake with ⟨t, ⟨p1, hrun, hp1⟩, ht⟩
  exact ⟨min m n, t, p1, Nat.le_add_right _ _, hrun, hp1, ht⟩

theorem accepted_identifier {name : List Char}
    (hname : (Phrase.identifier name).Resolves env base) (hfits : nameFits base name = true) :
    Accepted env heap heap base (Phrase.identifier name) := by
  intro m n k tok rest p hneed hroom htok hb hp
  rcases Option.isSome_iff_exists.mp hname with ⟨id, hid⟩
  replace hp : At heap base (⟨TokenType.identifier, name, 0, FinshError.ok⟩ :: tok :: rest)
    k p := hp
  have hq := hp.at_replayed
  rcases hq.at_behind.makes_id hroom hfits hid with ⟨p1, hrun, hp1⟩
  refine ⟨min m n, _, p1, Nat.le_add_right _ _, ?_, hp1, id, hid, rfl⟩
  show procPrimaryExpr listSource env _ p = _
  rw [procPrimaryExpr, hp.run_next rfl]
  exact hrun

theorem accepted_oneParam (he : Accepted env heap heap' base e) :
    Accepted env heap heap' base (Phrase.oneParam e) := by
  intro m n k tok rest p hneed hroom htok hb hp
  replace hneed : e.need + 1 < min m n := hneed
  rcases he.parse (by omega : e.need < min m m) hroom htok hb hp with ⟨t, p1, hrun, hp1, ht⟩
  have hsingle := ht.single (by decide)
  refine ⟨n, t, p1, ?_, ?_, hp1, ht⟩
  · show min m n ≤ n + (e.need + 1)
    omega
  · show procParamList listSource (procAssignExpr listSource env m) n p = _
    refine (run_bind hrun).trans ?_
    rw [hsingle.1]
    simp only [loopOf, hsingle.append]
    rfl

theorem accepted_moreParams (hps : Accepted env heap heap1 base ps)
    (he : Accepted env heap1 heap' base e) :
    Accepted env heap heap' base (Phrase.moreParams ps e) := by
  intro m n k tok rest p hneed hroom htok hb hp
  replace hneed : ps.need + e.need + 1 < min m n := hneed
  replace hroom : k + (ps.nodes + e.nodes) ≤ finshNodeMax := hroom
  replace hp : At heap base (ps.tokens ++ plain TokenType.comma ::
      (e.tokens ++ tok :: rest)) k p := by
    have heq := List.append_assoc ps.tokens (plain TokenType.comma :: e.tokens) (tok :: rest)
    exact heq ▸ hp
  have hlow : Below 1 (plain TokenType.comma).type := by
    intro l hl
    cases hl
    decide
  rcases hps m n k _ _ p (by omega) (by omega) rfl hlow hp with
    ⟨fuel, t1, p1, hfuel, hrun1, hp1, ht1⟩
  cases fuel with
  | zero => omega
  | succ fuel =>
    rcases he.parse (by omega : e.need < min m m) (by omega) htok hb hp1.at_behind with
      ⟨t2, p2, hrun2, hp2, ht2⟩
    have hsingle := ht2.single (by decide)
    refine ⟨fuel, Phrase.append t1 t2, p2, ?_, ?_,
      hp2.count (by show _ = k + (ps.nodes + e.nodes); omega), t1, t2, ht1, ht2, rfl⟩
    · show min m n ≤ fuel + (ps.need + e.need + 1)
      omega
    · rw [hrun1]
      simp only [loopOf, append_assoc, hsingle.append]
      have hloop : paramLoop listSource (procAssignExpr listSource env m) (fuel + 1) p1 = (do
            let rest <- paramLoop listSource (procAssignExpr listSource env m) fuel
            pure (t2.setSibling rest)) p2 := by
        rw [paramLoop, hp1.run_next rfl,
          if_pos (show (plain TokenType.comma).type = TokenType.comma from rfl)]
        refine (run_bind hrun2).trans ?_
        rw [hsingle.1]
        rfl
      show (paramLoop listSource _ (fuel + 1) p1).bind _ = _
      rw [hloop]
      cases hlast : paramLoop listSource (procAssignExpr listSource env m) fuel p2 with
      | none => simp [bind, StateT.bind, hlast]
      | some r =>
        simp only [bind, StateT.bind, hlast, Option.bind_some]
        rfl

theorem Phrase.isEmpty_of_ne (d : Phrase c) (hc : c ≠ Cat.paramList) : d.isEmpty = false := by
  cases d with
  | noParams => exact absurd rfl hc
  | _ => rfl

theorem accept_isEmpty (hempty : ps.isEmpty = true) (haccept : ps.accept base heap = some heap') :
    heap' = heap := by
  rw [Phrase.isEmpty_eq hempty] at haccept
  exact (Option.some.inj haccept).symm

theorem clean_of_accept {d : Phrase c} (haccept : d.accept base heap = some heap') :
    d.clean = true := by
  rw [Phrase.accept_eq, serveIf] at haccept
  split at haccept
  · next hfine => exact (Bool.and_eq_true_iff.mp hfine).left
  · cases haccept

theorem accepted_of_accept (d : Phrase c) (hknown : d.Resolves env base)
    (haccept : d.accept base heap = some heap') (hfull : d.isEmpty = false) :
    Accepted env heap heap' base d := by
  induction d generalizing heap heap' with
  | lift hop d ih =>
    exact accepted_lift hop (clean_of_accept (d := d) haccept)
      (ih hknown haccept (d.isEmpty_of_ne (operand_ne hop)))
  | assign u e ihu ihe =>
    rcases Option.bind_eq_some_iff.mp haccept with ⟨heap1, hu, he⟩
    exact accepted_assign (clean_of_accept hu) (ihu hknown.1 hu (u.isEmpty_of_ne (by decide)))
      (ihe hknown.2 he (e.isEmpty_of_ne (by decide)))
  | binary op type hop hop' l r ihl ihr =>
    rcases Option.bind_eq_some_iff.mp haccept with ⟨heap1, hl, hr⟩
    exact accepted_binary hop hop' (ihl hknown.1 hl (l.isEmpty_of_ne (binary_ne hop)))
      (ihr hknown.2 hr (r.isEmpty_of_ne (operand_ne hop')))
  | cast isUnsigned b d ih =>
    rcases Option.ite_none_right_eq_some.mp haccept with ⟨htype, hd⟩
    exact accepted_cast htype (ih hknown hd (d.isEmpty_of_ne (by decide)))
  | unary op d ih => exact accepted_unary (ih hknown haccept (d.isEmpty_of_ne (by decide)))
  | step up d ih => exact accepted_step (ih hknown haccept (d.isEmpty_of_ne (by decide)))
  | call f ps ihf ihps =>
    rcases Option.bind_eq_some_iff.mp haccept with ⟨heap1, hf, hps⟩
    exact accepted_call (ihf hknown.1 hf (f.isEmpty_of_ne (by decide)))
      (fun hempty => accept_isEmpty hempty hps) (ihps hknown.2 hps)
  | paren e _ => cases haccept
  | literal value => exact accepted_literal haccept
  | identifier name =>
    rcases Option.ite_none_right_eq_some.mp haccept with ⟨hfits, hsame⟩
    cases hsame
    exact accepted_identifier hknown hfits
  | noParams => cases hfull
  | oneParam e ih => exact accepted_oneParam (ih hknown haccept (e.isEmpty_of_ne (by decide)))
  | moreParams ps e ihps ihe =>
    rcases Option.ite_none_left_eq_some.mp haccept with ⟨hsome, hbind⟩
    rcases Option.bind_eq_some_iff.mp hbind with ⟨heap1, hps, he⟩
    exact accepted_moreParams (ihps hknown.1 hps (Bool.eq_false_iff.mpr hsome))
      (ihe hknown.2 he (e.isEmpty_of_ne (by decide)))

end Accepted

end RtThread.Finsh
