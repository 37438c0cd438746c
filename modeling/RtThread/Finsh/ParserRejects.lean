import RtThread.Finsh.ParserAccepts

/-!
# Phrases that the parser rejects

At a left parenthesis the parser reads a type, and the error that this sets at an
expression is not taken back.  A phrase with a parenthesised expression is rejected,
and so are a cast to unsigned void, a parameter list that begins with a comma, a name that has
no end in the buffer and a string that gets no memory.
-/

namespace RtThread.Finsh

section Rejected

variable {env : Symbols} {heap heap1 : FinshHeap} {base : Shell}

theorem Fails.of_eq {σ α : Type} {x y : ParserM σ α} {p p1 : Parser σ} (hx : x p = y p1)
    (hy : Fails y p1) : Fails x p :=
  fun a p' hr => hy a p' (hx.symm.trans hr)

theorem fails_of_none {σ α : Type} {x : ParserM σ α} {p : Parser σ} (hx : x p = none) :
    Fails x p := by
  intro a p' hr
  rw [hx] at hr
  cases hr

theorem fails_outOfFuel {σ α : Type} (p : Parser σ) : Fails (outOfFuel : ParserM σ α) p :=
  fails_of_none rfl

theorem sticky_procOf (c : Cat) (m n : Nat) : Sticky (procOf env c m n) := by
  have hassign : Sticky (procAssignExpr listSource env m) := sticky_procAssignExpr m
  have hpost : Sticky (procOf env Cat.postfixExpr m n) := sticky_procPostfixExpr hassign m
  have hcast : forall j, Sticky (procOf env Cat.castExpr m j) :=
    fun j => sticky_procCastExpr hpost j
  have hmul : Sticky (procOf env Cat.multiplicativeExpr m m) :=
    sticky_procBinary (hcast m) m
  have hadd : Sticky (procOf env Cat.additiveExpr m m) := sticky_procBinary hmul m
  have hshift : Sticky (procOf env Cat.shiftExpr m m) := sticky_procBinary hadd m
  have hand : Sticky (procOf env Cat.andExpr m m) := sticky_procBinary hshift m
  have hxor : Sticky (procOf env Cat.exclusiveOrExpr m m) := sticky_procBinary hand m
  cases c with
  | paramList => exact sticky_procParamList hassign n
  | assignExpr => exact sticky_procAssignExpr n
  | inclusiveOrExpr => exact sticky_procBinary hxor m
  | exclusiveOrExpr => exact hxor
  | andExpr => exact hand
  | shiftExpr => exact hshift
  | additiveExpr => exact hadd
  | multiplicativeExpr => exact hmul
  | castExpr => exact hcast n
  | unaryExpr => exact sticky_procUnaryExpr (hcast n) hpost
  | postfixExpr => exact hpost
  | primaryExpr => exact sticky_procPrimaryExpr hassign

/-!
## Failure of an operand
-/

variable {c c' : Cat} {p : LineParser} {ts : List Token} {k : Nat} {op : TokenType}
  {type : NodeType} {u : Phrase Cat.unaryExpr} {e : Phrase Cat.assignExpr}
  {d : Phrase Cat.postfixExpr} {ps : Phrase Cat.paramList}

theorem fails_binary (hc : c.isBinary = true) (hop : c.operand = some c')
    {m : Nat} (hf : Fails (procOf env c' m m) p) (n : Nat) :
    Fails (procOf env c m n) p := by
  rw [procOf_binary env hc hop]
  exact hf.bind fun left => sticky_binaryLoop (sticky_procOf c' m m) m left

theorem fails_assign {n : Nat} (hf : Fails (procOf env Cat.inclusiveOrExpr n n) p) :
    Fails (procAssignExpr listSource env (n + 1)) p := by
  rw [procAssignExpr]
  refine Fails.bind hf fun _ => sticky_nextToken.bind fun token => Sticky.ite ?_ ?_
  · exact (sticky_procAssignExpr n).bind fun _ => sticky_makeSysNode
  · exact sticky_tokenReplay.bind fun _ => sticky_pure _

theorem At.fails_binaryLoop {t : Token} (hp : At heap base (t :: ts) k p)
    (ht : t.error = FinshError.ok)
    {op : TokenType -> Option NodeType} (hop : op t.type = some type)
    {operand : ParserM (List Token) Tree} (ho : Sticky operand)
    (hf : Fails operand (behind t ts p)) (fuel : Nat) (left : Tree) :
    Fails (binaryLoop listSource op operand (fuel + 1) left) p := by
  rw [binaryLoop]
  refine Fails.after (hp.next ht) ?_
  rw [hop]
  refine hf.bind fun right => Sticky.ite ?_ ?_
  · exact (sticky_errorSet (by decide)).bind fun _ => sticky_binaryLoop ho fuel left
  · exact sticky_makeSysNode.bind fun left => sticky_binaryLoop ho fuel left

theorem At.fails_paramLoop (hp : At heap base (plain TokenType.comma :: ts) k p)
    {assign : ParserM (List Token) Tree} (ha : Sticky assign)
    (hf : Fails assign (behind (plain TokenType.comma) ts p)) (fuel : Nat) :
    Fails (paramLoop listSource assign (fuel + 1)) p := by
  rw [paramLoop]
  refine Fails.after (hp.next rfl) ?_
  refine hf.bind fun param => Sticky.ite ?_ ?_
  · exact (sticky_errorSet (by decide)).bind fun _ => sticky_paramLoop ha fuel
  · exact (sticky_paramLoop ha fuel).bind fun _ => sticky_pure _

theorem At.fails_call (hp : At heap base (plain TokenType.leftParen :: ts) k p)
    {assign : ParserM (List Token) Tree} (ha : Sticky assign) {fuel : Nat}
    (hf : Fails (procParams listSource assign fuel) (behind (plain TokenType.leftParen) ts p))
    (t : Tree) : Fails (postfixLoop listSource assign (fuel + 1) t) p := by
  rw [postfixLoop]
  refine Fails.after (hp.next rfl) ?_
  exact hf.bind fun _ => sticky_makeSysNode.bind fun t => sticky_postfixLoop ha fuel t

theorem At.fails_opens (hp : At heap base ts k p) (ho : Opens ts) (m n : Nat) :
    Fails (procOf env Cat.castExpr m n) p := by
  rcases ho with ⟨t, ts1, rfl, ht, htype, t2, ts2, rfl, ht2, hs⟩
  cases n with
  | zero => exact fails_outOfFuel p
  | succ n =>
    have hcast : Sticky (procOf env Cat.castExpr m n) := sticky_procOf Cat.castExpr m n
    have hunary : Sticky (procOf env Cat.unaryExpr m n) := sticky_procOf Cat.unaryExpr m n
    have hfail : Fails (procType listSource) (behind t (t2 :: ts2) p) := by
      refine Fails.after (hp.at_behind.next ht2) ?_
      generalize t2.type = token at hs
      cases token <;> first | exact fails_unknownType _ | cases hs
    show Fails (procCastExpr listSource _ (n + 1)) p
    rw [procCastExpr]
    refine Fails.after (hp.next ht) ?_
    rw [if_pos htype]
    refine hfail.bind fun _ => sticky_matchToken.bind fun _ => hcast.bind fun _ =>
      Sticky.ite ?_ (sticky_pure _)
    exact sticky_tokenReplay.bind fun _ => hunary

theorem At.fails_comma (hp : At heap base (plain TokenType.comma :: ts) k p) (n : Nat) :
    Fails (procAssignExpr listSource env n) p := by
  cases n with
  | zero => exact fails_outOfFuel p
  | succ m =>
    have hpost : forall q, At heap base (plain TokenType.comma :: ts) k q ->
        Fails (procOf env Cat.postfixExpr m m) q := by
      intro q hq
      have hprimary : Fails (procOf env Cat.primaryExpr m m) q := by
        refine Fails.after (hq.next rfl) (Fails.after rfl ?_)
        exact (fails_errorSet (by decide) _).bind fun _ => sticky_pure _
      exact hprimary.bind fun t => sticky_postfixLoop (sticky_procAssignExpr m) m t
    have hunary : forall q j, At heap base (plain TokenType.comma :: ts) k q ->
        Fails (procOf env Cat.unaryExpr m j) q := by
      intro q j hq
      exact Fails.after (hq.next rfl) (Fails.after rfl (hpost _ hq.at_replayed))
    have hcast : Fails (procOf env Cat.castExpr m m) p := by
      cases m with
      | zero => exact fails_outOfFuel p
      | succ j => exact Fails.after (hp.next rfl) (Fails.after rfl (hunary _ j hp.at_replayed))
    exact fails_assign (fails_binary rfl rfl (fails_binary rfl rfl (fails_binary rfl rfl
      (fails_binary rfl rfl (fails_binary rfl rfl (fails_binary rfl rfl hcast m) m) m) m) m) m)

/-!
## Rejection
-/

variable (env heap base) in
/-- No result without an error, unless a unary expression begins with a parenthesised
expression, at which its function is not called. -/
def Rejected {c : Cat} (d : Phrase c) : Prop :=
  forall m n k rest p, d.need < min m n -> k + d.nodes ≤ finshNodeMax ->
    (tight c = true -> ¬Opens d.tokens) -> At heap base (d.tokens ++ rest) k p ->
    Fails (procOf env c m n) p

theorem tight_operand (hc : c.isBinary = true) (hop : c.operand = some c') : tight c' = false := by
  cases c <;> cases hop <;> first | rfl | cases hc

theorem tight_binary (hop : c.op op = some type) : tight c = false := by
  cases c <;> first | rfl | cases hop

theorem rejected_lift (hop : c.operand = some c') {d : Phrase c'}
    (hd : Rejected env heap base d) : Rejected env heap base (Phrase.lift hop d) := by
  intro m n k rest p hneed hroom hopen hp
  replace hneed : d.need + 1 < min m n := hneed
  replace hroom : k + d.nodes ≤ finshNodeMax := hroom
  replace hopen : tight c = true -> ¬Opens d.tokens := hopen
  replace hp : At heap base (d.tokens ++ rest) k p := hp
  by_cases hc : c.isBinary = true
  · have hloose : tight c' = true -> ¬Opens d.tokens := by
      rw [tight_operand hc hop]
      nofun
    exact fails_binary hc hop (hd m m k rest p (by omega) hroom hloose hp) n
  · cases c with
    | assignExpr =>
      cases hop
      cases n with
      | zero => exact fails_outOfFuel p
      | succ n => exact fails_assign (hd n n k rest p (by omega) hroom nofun hp)
    | castExpr =>
      cases hop
      cases n with
      | zero => exact fails_outOfFuel p
      | succ n =>
        rcases d.opens_or rfl with ⟨_, ho⟩ | ⟨t1, ts1, hts, ht1, _, hne⟩
        · exact hp.fails_opens (ho.append rest) m (n + 1)
        · have hshut : ¬Opens d.tokens := by
            rintro ⟨t, ts, hts', _, htype, _⟩
            rw [hts] at hts'
            cases hts'
            exact hne htype
          have hp0 := hp
          rw [hts] at hp0
          show Fails (procCastExpr listSource _ (n + 1)) p
          rw [procCastExpr]
          refine Fails.after (hp0.next ht1) ?_
          rw [if_neg hne]
          exact Fails.after rfl (hd m n k rest _ (by omega) hroom (fun _ => hshut) (hp.peeked hts))
    | unaryExpr =>
      cases hop
      rcases d.begins (by decide) with ⟨t1, ts1, hts, ht1, hs⟩
      have hp0 := hp
      rw [hts] at hp0
      refine Fails.of_eq (hp0.run_unary ht1 hs _ _) ?_
      exact hd m n k rest _ (by omega) hroom (fun _ => hopen rfl) (hp.peeked hts)
    | postfixExpr =>
      cases hop
      have hprimary := hd m n k rest p (by omega) hroom (fun _ => hopen rfl) hp
      exact hprimary.bind fun t => sticky_postfixLoop (sticky_procAssignExpr m) m t
    | paramList | primaryExpr => cases hop
    | _ => exact absurd rfl hc

theorem rejected_ofUnary (hu : Rejected env heap base u) : Rejected env heap base u.ofUnary := by
  have hcast := rejected_lift (show Cat.castExpr.operand = some Cat.unaryExpr from rfl) hu
  exact rejected_lift rfl (rejected_lift rfl (rejected_lift rfl (rejected_lift rfl
    (rejected_lift rfl (rejected_lift rfl hcast)))))

theorem rejected_assign_left (hu : Rejected env heap base u) :
    Rejected env heap base (Phrase.assign u e) := by
  intro m n k rest p hneed hroom _ hp
  replace hneed : u.need + e.need + 8 < min m n := hneed
  replace hroom : k + (u.nodes + e.nodes + 1) ≤ finshNodeMax := hroom
  replace hp : At heap base (u.ofUnary.tokens ++ (plain TokenType.assign :: e.tokens ++ rest))
      k p := by
    have heq := List.append_assoc u.tokens (plain TokenType.assign :: e.tokens) rest
    exact heq ▸ hp
  cases n with
  | zero => exact fails_outOfFuel p
  | succ n =>
    have hneedu : u.ofUnary.need < min n n := by
      show u.need + 7 < min n n
      omega
    have hroomu : k + u.ofUnary.nodes ≤ finshNodeMax := by
      show k + u.nodes ≤ finshNodeMax
      omega
    exact fails_assign (rejected_ofUnary hu n n k _ p hneedu hroomu nofun hp)

theorem rejected_assign_right (hclean : u.clean = true)
    (hu : Accepted env heap heap1 base u) (he : Rejected env heap1 base e) :
    Rejected env heap base (Phrase.assign u e) := by
  intro m n k rest p hneed hroom _ hp
  replace hneed : u.need + e.need + 8 < min m n := hneed
  replace hroom : k + (u.nodes + e.nodes + 1) ≤ finshNodeMax := hroom
  replace hp : At heap base (u.ofUnary.tokens ++ plain TokenType.assign :: (e.tokens ++ rest))
      k p := by
    have heq := List.append_assoc u.tokens (plain TokenType.assign :: e.tokens) rest
    exact heq ▸ hp
  cases n with
  | zero => exact fails_outOfFuel p
  | succ n =>
    have hneedu : u.ofUnary.need < min n n := by
      show u.need + 7 < min n n
      omega
    have hlow : Below 2 (plain TokenType.assign).type := by
      intro l hl
      cases hl
      decide
    rcases (accepted_ofUnary hclean hu).parse hneedu (by show k + u.nodes ≤ _; omega) rfl
      hlow hp with ⟨t1, p1, hrun1, hp1, _⟩
    have hfail : Fails (procAssignExpr listSource env n) _ :=
      he m n _ rest _ (by omega) (by show k + u.nodes + e.nodes ≤ _; omega) nofun hp1.at_behind
    show Fails (procAssignExpr listSource env (n + 1)) p
    rw [procAssignExpr]
    refine Fails.after hrun1 (Fails.after (hp1.next rfl) ?_)
    exact hfail.bind fun _ => sticky_makeSysNode

theorem rejected_binary_left (hop : c.op op = some type) (hop' : c.operand = some c')
    {l : Phrase c} {r : Phrase c'} (hl : Rejected env heap base l) :
    Rejected env heap base (Phrase.binary op type hop hop' l r) := by
  intro m n k rest p hneed hroom _ hp
  replace hneed : l.need + r.need + 1 < min m n := hneed
  replace hroom : k + (l.nodes + r.nodes + 1) ≤ finshNodeMax := hroom
  have hloose : tight c = true -> ¬Opens l.tokens := by
    rw [tight_binary hop]
    nofun
  refine hl m n k (plain op :: r.tokens ++ rest) p (by omega) (by omega) hloose ?_
  have heq := List.append_assoc l.tokens (plain op :: r.tokens) rest
  exact heq ▸ hp

theorem rejected_binary_right (hop : c.op op = some type) (hop' : c.operand = some c')
    {l : Phrase c} {r : Phrase c'}
    (hl : Accepted env heap heap1 base l) (hr : Rejected env heap1 base r) :
    Rejected env heap base (Phrase.binary op type hop hop' l r) := by
  intro m n k rest p hneed hroom _ hp
  have hc := isBinary_of_op hop
  replace hneed : l.need + r.need + 1 < min m n := hneed
  replace hroom : k + (l.nodes + r.nodes + 1) ≤ finshNodeMax := hroom
  replace hp : At heap base (l.tokens ++ plain op :: (r.tokens ++ rest)) k p := by
    have heq := List.append_assoc l.tokens (plain op :: r.tokens) rest
    exact heq ▸ hp
  have hlow : Below c.inner (plain op).type := by
    intro x hx
    rw [show level (plain op).type = _ from level_of_op hop] at hx
    cases hx
    rw [inner_of_binary hc]
    exact Nat.lt_succ_self _
  have hloose : tight c' = true -> ¬Opens r.tokens := by
    rw [tight_operand hc hop']
    nofun
  rcases hl m n k (plain op) _ p (by omega) (by omega) rfl hlow hp with
    ⟨fuel, t1, p1, hfuel, hrun1, hp1, _⟩
  cases fuel with
  | zero => omega
  | succ fuel =>
    rw [loopOf_binary env hc hop'] at hrun1
    refine Fails.of_eq hrun1 ?_
    exact hp1.fails_binaryLoop rfl hop (sticky_procOf c' m m)
      (hr m m _ rest _ (by omega) (by omega) hloose hp1.at_behind) fuel t1

theorem rejected_cast {isUnsigned : Bool} {b : BaseType} {d : Phrase Cat.castExpr}
    (hd : castType isUnsigned b = none ∨ Rejected env heap base d) :
    Rejected env heap base (Phrase.cast isUnsigned b d) := by
  intro m n k rest p hneed hroom _ hp
  replace hneed : d.need + 1 < min m n := hneed
  replace hp : At heap base (plain TokenType.leftParen ::
      (Phrase.castTokens isUnsigned b ++ (d.tokens ++ rest))) k p := by
    have heq := List.append_assoc (Phrase.castTokens isUnsigned b) d.tokens rest
    exact heq ▸ hp
  cases n with
  | zero => exact fails_outOfFuel p
  | succ n =>
    have hcast : Sticky (procOf env Cat.castExpr m n) := sticky_procOf Cat.castExpr m n
    have hlast : forall (type : FinshType) (t : Tree), Sticky (if t.isNull = true then do
        tokenReplay
        procOf env Cat.unaryExpr m n else pure (t.setDataType type.code)) := by
      intro type t
      refine Sticky.ite ?_ (sticky_pure _)
      exact sticky_tokenReplay.bind fun _ => sticky_procOf Cat.unaryExpr m n
    show Fails (procCastExpr listSource _ (n + 1)) p
    rw [procCastExpr]
    refine Fails.after (hp.next rfl) ?_
    cases htype : castType isUnsigned b with
    | none =>
      have hfail : Fails (procType listSource) (behind (plain TokenType.leftParen)
          (Phrase.castTokens isUnsigned b ++ (d.tokens ++ rest)) p) := by
        cases isUnsigned with
        | false => cases b <;> cases htype
        | true =>
          refine Fails.after (hp.at_behind.next rfl) ?_
          refine Fails.after (hp.at_behind.at_behind.next rfl) ?_
          cases b <;> first | exact fails_unknownType _ | cases htype
      exact hfail.bind fun type => sticky_matchToken.bind fun _ =>
        hcast.bind fun t => hlast type t
    | some type =>
      rw [htype] at hd
      rcases hd with hnone | hd
      · cases hnone
      · rcases hp.at_behind.run_castType htype with ⟨p1, hrun1, hp1⟩
        have hfail : Fails (procOf env Cat.castExpr m n) _ :=
          hd m n k rest _ (by omega) hroom (by rintro ⟨⟩) hp1.at_behind
        refine Fails.after hrun1 (Fails.of_eq (hp1.run_match rfl _) ?_)
        exact hfail.bind fun t => hlast type t

theorem rejected_unary {op : UnaryOp} {d : Phrase Cat.castExpr}
    (hd : Rejected env heap base d) : Rejected env heap base (Phrase.unary op d) := by
  intro m n k rest p hneed hroom _ hp
  replace hneed : d.need + 1 < min m n := hneed
  replace hp : At heap base (plain op.token :: (d.tokens ++ rest)) k p := hp
  have hroomd : k + d.nodes ≤ finshNodeMax :=
    (Nat.add_le_add_left (d.nodes_le_unary op) k).trans hroom
  have hfail := hd m n k rest _ (by omega) hroomd nofun hp.at_behind
  refine Fails.after (hp.next rfl) ?_
  cases op with
  | add => exact hfail
  | sub =>
    exact hfail.bind fun _ => (sticky_newNode keeps_finshNodeNew).bind fun _ =>
      sticky_makeSysNode
  | _ => exact hfail.bind fun _ => sticky_makeSysNode

theorem rejected_step {up : Bool} (hd : Rejected env heap base d) :
    Rejected env heap base (Phrase.step up d) := by
  intro m n k rest p hneed hroom hopen hp
  replace hneed : d.need + 1 < min m n := hneed
  replace hroom : k + (d.nodes + 1) ≤ finshNodeMax := hroom
  have hopend : ¬Opens d.tokens := fun ho => hopen rfl (ho.append _)
  have heq := List.append_assoc d.tokens [plain (if up then TokenType.inc else TokenType.dec)] rest
  exact hd m n k _ p (by omega) (by omega) (fun _ => hopend) (heq ▸ hp)

theorem rejected_call_left (hd : Rejected env heap base d) :
    Rejected env heap base (Phrase.call d ps) := by
  intro m n k rest p hneed hroom hopen hp
  replace hneed : d.need + ps.need + 2 < min m n := hneed
  replace hroom : k + (d.nodes + ps.nodes + 1) ≤ finshNodeMax := hroom
  have hopend : ¬Opens d.tokens := fun ho => hopen rfl (ho.append _)
  have heq := List.append_assoc d.tokens
    (plain TokenType.leftParen :: (ps.tokens ++ [plain TokenType.rightParen])) rest
  exact hd m n k _ p (by omega) (by omega) (fun _ => hopend) (heq ▸ hp)

theorem rejected_call_right (hd : Accepted env heap heap1 base d) (hfull : ps.isEmpty = false)
    (hps : Rejected env heap1 base ps) : Rejected env heap base (Phrase.call d ps) := by
  intro m n k rest p hneed hroom _ hp
  replace hneed : d.need + ps.need + 2 < min m n := hneed
  replace hroom : k + (d.nodes + ps.nodes + 1) ≤ finshNodeMax := hroom
  replace hp : At heap base (d.tokens ++ plain TokenType.leftParen ::
      (ps.tokens ++ plain TokenType.rightParen :: rest)) k p :=
    d.call_tokens_append ps rest ▸ hp
  rcases hd m n k _ _ p (by omega) (by omega) rfl (below_inner_of_step _) hp with
    ⟨fuel, t1, p1, hfuel, hrun1, hp1, _⟩
  cases fuel with
  | zero => omega
  | succ fuel =>
    have hassign : Sticky (procAssignExpr listSource env m) := sticky_procAssignExpr m
    refine Fails.of_eq hrun1 (hp1.fails_call hassign ?_ t1)
    rcases ps.isEmpty_or rfl with hempty | ⟨t2, ts2, hts, ht2, hne⟩
    · rw [hfull] at hempty
      cases hempty
    · have hp2 := hp1.at_behind
      have hp3 := hp2
      rw [hts] at hp3
      have hfail : Fails (procParamList listSource (procAssignExpr listSource env m) fuel) _ :=
        hps m fuel _ _ _ (by omega) (by omega) nofun (hp2.peeked hts)
      rw [hts] at hfail ⊢
      refine Fails.after (hp3.next ht2) ?_
      rw [if_neg hne]
      refine Fails.after rfl ?_
      exact hfail.bind fun _ => sticky_matchToken.bind fun _ => sticky_pure _

theorem rejected_paren : Rejected env heap base (Phrase.paren e) := by
  intro m n k rest p _ _ hopen _
  refine absurd ?_ (hopen rfl)
  exact ⟨_, _, rfl, rfl, rfl, (e.begins (by decide)).append _⟩

theorem rejected_oneParam (he : Rejected env heap base e) :
    Rejected env heap base (Phrase.oneParam e) := by
  intro m n k rest p hneed hroom _ hp
  replace hneed : e.need + 1 < min m n := hneed
  have hassign : Sticky (procAssignExpr listSource env m) := sticky_procAssignExpr m
  have hfail : Fails (procAssignExpr listSource env m) p :=
    he m m k rest p (by omega) hroom nofun hp
  exact hfail.bind fun _ => Sticky.ite (sticky_pure _)
    ((sticky_paramLoop hassign n).bind fun _ => sticky_pure _)

theorem rejected_noParams : Rejected env heap base (Phrase.moreParams Phrase.noParams e) := by
  intro m n k rest p _ _ _ hp
  have hassign : Sticky (procAssignExpr listSource env m) := sticky_procAssignExpr m
  have hfail : Fails (procAssignExpr listSource env m) p := hp.fails_comma m
  exact hfail.bind fun _ => Sticky.ite (sticky_pure _)
    ((sticky_paramLoop hassign n).bind fun _ => sticky_pure _)

theorem rejected_moreParams_left (hps : Rejected env heap base ps) :
    Rejected env heap base (Phrase.moreParams ps e) := by
  intro m n k rest p hneed hroom _ hp
  replace hneed : ps.need + e.need + 1 < min m n := hneed
  replace hroom : k + (ps.nodes + e.nodes) ≤ finshNodeMax := hroom
  have heq := List.append_assoc ps.tokens (plain TokenType.comma :: e.tokens) rest
  exact hps m n k _ p (by omega) (by omega) nofun (heq ▸ hp)

theorem rejected_moreParams_right (hps : Accepted env heap heap1 base ps)
    (he : Rejected env heap1 base e) :
    Rejected env heap base (Phrase.moreParams ps e) := by
  intro m n k rest p hneed hroom _ hp
  replace hneed : ps.need + e.need + 1 < min m n := hneed
  replace hroom : k + (ps.nodes + e.nodes) ≤ finshNodeMax := hroom
  replace hp : At heap base (ps.tokens ++ plain TokenType.comma :: (e.tokens ++ rest)) k p := by
    have heq := List.append_assoc ps.tokens (plain TokenType.comma :: e.tokens) rest
    exact heq ▸ hp
  have hlow : Below 1 (plain TokenType.comma).type := by
    intro l hl
    cases hl
    decide
  rcases hps m n k _ _ p (by omega) (by omega) rfl hlow hp with
    ⟨fuel, t1, p1, hfuel, hrun1, hp1, _⟩
  cases fuel with
  | zero => omega
  | succ fuel =>
    have hassign : Sticky (procAssignExpr listSource env m) := sticky_procAssignExpr m
    have hfail : Fails (procAssignExpr listSource env m) _ :=
      he m m _ rest _ (by omega) (by omega) nofun hp1.at_behind
    refine Fails.of_eq hrun1 ?_
    exact (hp1.fails_paramLoop hassign hfail fuel).bind fun _ => sticky_pure _

theorem rejected_string {string : List Char}
    (hserve : serveStrings (held base) heap [string] = none) :
    Rejected env heap base (Phrase.literal (Literal.string string)) := by
  intro m n k rest p _ hroom _ hp
  replace hp : At heap base ((Literal.string string).token :: rest) k p := hp
  exact Fails.after (hp.next rfl)
    (Fails.after rfl (fails_of_none (hp.at_behind.newString_none hroom hserve)))

theorem rejected_identifier {name : List Char} (hname : nameFits base name = false) :
    Rejected env heap base (Phrase.identifier name) := by
  intro m n k rest p _ _ _ hp
  replace hp : At heap base (⟨TokenType.identifier, name, 0, FinshError.ok⟩ :: rest) k p := hp
  exact Fails.after (hp.next rfl) (Fails.after rfl (Fails.after rfl (Fails.after rfl
    (fails_of_none (hp.at_replayed.at_behind.newId_none hname)))))

theorem rejected_of_accept (d : Phrase c) (hknown : d.Resolves env base)
    (hreject : d.accept base heap = none) : Rejected env heap base d := by
  induction d generalizing heap with
  | lift hop d ih => exact rejected_lift hop (ih hknown hreject)
  | assign u e ihu ihe =>
    cases hu : u.accept base heap with
    | none => exact rejected_assign_left (ihu hknown.1 hu)
    | some heap1 =>
      rw [Phrase.accept, hu] at hreject
      exact rejected_assign_right (clean_of_accept hu)
        (accepted_of_accept u hknown.1 hu (u.isEmpty_of_ne (by decide))) (ihe hknown.2 hreject)
  | binary op type hop hop' l r ihl ihr =>
    cases hl : l.accept base heap with
    | none => exact rejected_binary_left hop hop' (ihl hknown.1 hl)
    | some heap1 =>
      rw [Phrase.accept, hl] at hreject
      exact rejected_binary_right hop hop'
        (accepted_of_accept l hknown.1 hl (l.isEmpty_of_ne (binary_ne hop)))
        (ihr hknown.2 hreject)
  | cast isUnsigned b d ih =>
    cases htype : castType isUnsigned b with
    | none => exact rejected_cast (Or.inl htype)
    | some type =>
      have hd : d.accept base heap = none := by simpa [Phrase.accept, htype] using hreject
      exact rejected_cast (Or.inr (ih hknown hd))
  | unary op d ih => exact rejected_unary (ih hknown hreject)
  | step up d ih => exact rejected_step (ih hknown hreject)
  | call f ps ihf ihps =>
    cases hf : f.accept base heap with
    | none => exact rejected_call_left (ihf hknown.1 hf)
    | some heap1 =>
      rw [Phrase.accept, hf] at hreject
      have hfull : ps.isEmpty = false := by
        cases hempty : ps.isEmpty with
        | false => rfl
        | true =>
          rw [Phrase.isEmpty_eq hempty] at hreject
          cases hreject
      exact rejected_call_right
        (accepted_of_accept f hknown.1 hf (f.isEmpty_of_ne (by decide))) hfull
        (ihps hknown.2 hreject)
  | paren e _ => exact rejected_paren
  | literal value =>
    cases value with
    | string string => exact rejected_string hreject
    | _ => cases hreject
  | identifier name =>
    refine rejected_identifier (Bool.eq_false_iff.mpr fun hfits => ?_)
    rw [Phrase.accept, if_pos hfits] at hreject
    cases hreject
  | noParams => cases hreject
  | oneParam e ih => exact rejected_oneParam (ih hknown hreject)
  | moreParams ps e ihps ihe =>
    by_cases hempty : ps.isEmpty = true
    · rw [Phrase.isEmpty_eq hempty]
      exact rejected_noParams
    · rw [Phrase.accept, if_neg hempty] at hreject
      cases hps : ps.accept base heap with
      | none => exact rejected_moreParams_left (ihps hknown.1 hps)
      | some heap1 =>
        rw [hps] at hreject
        exact rejected_moreParams_right
          (accepted_of_accept ps hknown.1 hps (Bool.eq_false_iff.mpr hempty))
          (ihe hknown.2 hreject)

end Rejected

end RtThread.Finsh
