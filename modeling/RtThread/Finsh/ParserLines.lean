import RtThread.Finsh.HeapBlocks
import RtThread.Finsh.ParserRejects

/-!
# Lines of one expression

A line that consists of an expression and a semicolon, from a shell without an error
and with room for the nodes.
-/

namespace RtThread.Finsh

open Tiling

def Phrase.line (d : Phrase Cat.assignExpr) : List Token :=
  d.tokens ++ [plain TokenType.semicolon]

/-- With enough fuel the line is parsed without an error to a tree of its shape. -/
def Parses (env : Symbols) (shell : Shell) (d : Phrase Cat.assignExpr) : Prop :=
  exists enough, forall fuel, enough ≤ fuel ->
    exists root p', finshParserRun listSource env fuel (startLine d.line shell) =
        some (root, p') ∧
      p'.shell.errno = FinshError.ok ∧ d.Shape env shell root

section Line

variable {env : Symbols} {heap heap' : FinshHeap} {base : Shell} {k : Nat} {p : LineParser}

variable {token : TokenType} {fuel : Nat}

theorem startsType_of_starts (hs : startsPhrase Cat.assignExpr token = true) :
    startsType token = false := by
  cases token <;> first | rfl | cases hs

theorem ends_of_starts (hs : startsPhrase Cat.assignExpr token = true) :
    ¬(token = TokenType.eof ∨ token = TokenType.bad) := by
  rintro (rfl | rfl) <;> cases hs

theorem semicolon_of_starts (hs : startsPhrase Cat.assignExpr token = true) :
    token ≠ TokenType.semicolon := by
  rintro rfl
  cases hs

theorem At.next_end (hp : At heap base [] k p) :
    exists p', nextToken listSource p = some (TokenType.eof, p') ∧ p'.shell = p.shell := by
  rcases p with ⟨source, current, replay, shell⟩
  have hpending := hp.pending
  cases replay with
  | true => cases hpending
  | false =>
    cases hpending
    exact ⟨_, rfl, rfl⟩

theorem At.run_procExprStatement {d : Phrase Cat.assignExpr}
    (hd : Accepted env heap heap' base d) (hneed : d.need < fuel)
    (hroom : k + d.nodes ≤ finshNodeMax) (hp : At heap base d.line k p) :
    exists t p', procExprStatement listSource env fuel p = some (t, p') ∧
      At heap' base [] (k + d.nodes) p' ∧ d.Shape env base t := by
  rcases d.begins (by decide) with ⟨t1, ts1, hts, ht1, hs⟩
  have hp0 := hp
  rw [Phrase.line, hts] at hp0
  have hq : At heap base d.line k (replayed t1 (ts1 ++ [plain TokenType.semicolon]) p) :=
    hp.peeked hts
  have hlow : Below 1 (plain TokenType.semicolon).type := nofun
  rcases hd.parse (by omega : d.need < min fuel fuel) hroom rfl hlow hq with
    ⟨t, p1, hrun, hp1, ht⟩
  refine ⟨t, _, ?_, hp1.at_behind, ht⟩
  rw [procExprStatement, hp0.run_next ht1, if_neg (semicolon_of_starts hs)]
  refine (run_replay _).trans ((run_bind hrun).trans ?_)
  exact hp1.run_match rfl _

theorem At.fails_procExprStatement {d : Phrase Cat.assignExpr}
    (hd : Rejected env heap base d) (hneed : d.need < fuel)
    (hroom : k + d.nodes ≤ finshNodeMax) (hp : At heap base d.line k p) :
    Fails (procExprStatement listSource env fuel) p := by
  rcases d.begins (by decide) with ⟨t1, ts1, hts, ht1, hs⟩
  have hp0 := hp
  rw [Phrase.line, hts] at hp0
  have hq : At heap base d.line k (replayed t1 (ts1 ++ [plain TokenType.semicolon]) p) :=
    hp.peeked hts
  have hfail : Fails (procAssignExpr listSource env fuel) _ :=
    hd fuel fuel k _ _ (by omega) hroom nofun hq
  rw [procExprStatement]
  refine Fails.after (hp0.next ht1) ?_
  rw [if_neg (semicolon_of_starts hs)]
  refine Fails.after rfl ?_
  exact hfail.bind fun _ => sticky_matchToken.bind fun _ => sticky_pure _

theorem At.run_line {d : Phrase Cat.assignExpr} (hd : Accepted env heap heap' base d)
    (hneed : d.need < fuel) (hroom : k + d.nodes ≤ finshNodeMax)
    (hp : At heap base d.line k p) :
    exists t p', finshParserRun listSource env (fuel + 1) p = some (t, p') ∧
      p'.shell.errno = FinshError.ok ∧ d.Shape env base t ∧
      p'.shell.globalVariable = base.globalVariable ∧ p'.shell.heap = heap' := by
  rcases d.begins (by decide) with ⟨t1, ts1, hts, ht1, hs⟩
  have hp0 := hp
  rw [Phrase.line, hts] at hp0
  have hq : At heap base d.line k (replayed t1 (ts1 ++ [plain TokenType.semicolon]) p) :=
    hp.peeked hts
  rcases hq.run_procExprStatement hd hneed hroom with ⟨t, p1, hrun, hp1, ht⟩
  rcases hp1.next_end with ⟨p2, hlast, hshell⟩
  have hsingle := ht.single (by decide)
  have hlink : Root.link ⟨[], []⟩ [t] = ⟨[t], []⟩ := by
    simp [Root.link, hsingle.1]
  have hstatement : procStatement listSource env fuel t1.type ⟨[], []⟩
      (behind t1 (ts1 ++ [plain TokenType.semicolon]) p) = some ([t], p1) := by
    rw [procStatement, startsType_of_starts hs]
    exact (run_replay _).trans (run_bind hrun)
  have hloop : parserLoop listSource env (fuel + 1) t1.type ⟨[], []⟩
      (behind t1 (ts1 ++ [plain TokenType.semicolon]) p) = some (⟨[t], []⟩, p2) := by
    rw [parserLoop, if_neg (ends_of_starts hs)]
    refine (run_bind hstatement).trans ?_
    rw [hlink]
    refine (run_bind hlast).trans ?_
    cases fuel with
    | zero => omega
    | succ fuel => rfl
  refine ⟨t, p2, ?_, hshell ▸ hp1.errno, ht, hshell ▸ hp1.vars, hshell ▸ hp1.heaped⟩
  rw [finshParserRun, hp0.run_next ht1]
  refine (run_bind hloop).trans ?_
  show some (t.setSibling Tree.null, p2) = _
  rw [hsingle.2]

theorem At.fails_line {d : Phrase Cat.assignExpr} (hd : Rejected env heap base d)
    (hneed : d.need < fuel) (hroom : k + d.nodes ≤ finshNodeMax)
    (hp : At heap base d.line k p) : Fails (finshParserRun listSource env (fuel + 1)) p := by
  rcases d.begins (by decide) with ⟨t1, ts1, hts, ht1, hs⟩
  have hp0 := hp
  rw [Phrase.line, hts] at hp0
  have hq : At heap base d.line k (replayed t1 (ts1 ++ [plain TokenType.semicolon]) p) :=
    hp.peeked hts
  have hfail := hq.fails_procExprStatement hd hneed hroom
  have hstatement : Fails (procStatement listSource env fuel t1.type ⟨[], []⟩)
      (behind t1 (ts1 ++ [plain TokenType.semicolon]) p) := by
    rw [procStatement, startsType_of_starts hs]
    refine Fails.after rfl ?_
    exact hfail.bind fun _ => sticky_pure _
  refine Fails.after (hp0.next ht1) (Fails.bind ?_ fun _ => sticky_pure _)
  rw [parserLoop, if_neg (ends_of_starts hs)]
  refine hstatement.bind fun nodes => Sticky.ite (sticky_pure _) ?_
  exact sticky_nextToken.bind fun token => sticky_parserLoop fuel token _

theorem at_startLine {shell : Shell} (herr : shell.errno = FinshError.ok)
    (d : Phrase Cat.assignExpr) :
    At shell.heap shell d.line shell.nodes (startLine d.line shell) :=
  ⟨rfl, herr, rfl, rfl, rfl⟩

end Line

section Parses

variable {env : Symbols} {shell : Shell} {heap' : FinshHeap} {d : Phrase Cat.assignExpr}

/-- Every string of the tokens gets memory, one after the other. -/
def StringsFit (shell : Shell) (ts : List Token) : Prop :=
  (serveStrings (held shell) shell.heap (stringsOf ts)).isSome = true

theorem parses_of_accept (hknown : d.Resolves env shell)
    (hroom : shell.nodes + d.nodes ≤ finshNodeMax) (herr : shell.errno = FinshError.ok)
    (haccept : d.accept shell shell.heap = some heap') : Parses env shell d := by
  have haccepted : Accepted env shell.heap heap' shell d :=
    accepted_of_accept d hknown haccept (d.isEmpty_of_ne (by decide))
  refine ⟨d.need + 2, fun fuel hfuel => ?_⟩
  obtain ⟨j, rfl⟩ : exists j, fuel = j + 1 := ⟨fuel - 1, by omega⟩
  have hneed : d.need < j := by omega
  rcases (at_startLine herr d).run_line haccepted hneed hroom with
    ⟨root, p', hrun, hok, hshape, _⟩
  exact ⟨root, p', hrun, hok, hshape⟩

theorem not_parses_of_accept (hknown : d.Resolves env shell)
    (hroom : shell.nodes + d.nodes ≤ finshNodeMax) (herr : shell.errno = FinshError.ok)
    (hreject : d.accept shell shell.heap = none) : ¬Parses env shell d := by
  rintro ⟨enough, hparse⟩
  have hrejected : Rejected env shell.heap shell d := rejected_of_accept d hknown hreject
  have hneed : d.need < d.need + enough + 1 := by omega
  rcases hparse (d.need + enough + 1 + 1) (by omega) with ⟨root, p', hrun, hok, _⟩
  exact (at_startLine herr d).fails_line hrejected hneed hroom root p' hrun hok

theorem accept_isSome_iff : (d.accept shell shell.heap).isSome = true <->
    d.clean = true ∧ namesFit shell d.tokens = true ∧ StringsFit shell d.tokens := by
  rw [d.accept_eq, serveIf, StringsFit]
  cases d.clean <;> cases namesFit shell d.tokens <;> simp

/-- The expressions parsed as the grammar says are those without parentheses, a cast to
unsigned void, and a parameter list that begins with a comma, whose names end in the buffer
of the parser or are those of variables and whose strings get memory. -/
theorem parses_iff_clean (hknown : d.Resolves env shell)
    (hroom : shell.nodes + d.nodes ≤ finshNodeMax) (herr : shell.errno = FinshError.ok) :
    Parses env shell d <->
      d.clean = true ∧ namesFit shell d.tokens = true ∧ StringsFit shell d.tokens := by
  rw [← accept_isSome_iff]
  cases haccept : d.accept shell shell.heap with
  | none => simpa using not_parses_of_accept hknown hroom herr haccept
  | some heap' => simpa using parses_of_accept hknown hroom herr haccept

end Parses

def Phrase.ofPrimary (e : Phrase Cat.primaryExpr) : Phrase Cat.assignExpr :=
  lift rfl (ofUnary (lift rfl (lift rfl e)))

def sampleSymbols : Symbols :=
  ⟨fun _ => none, fun name => if name = ['f'] then some ⟨0x2000, 0x3000⟩ else none⟩

def sampleCall : Phrase Cat.assignExpr :=
  Phrase.lift rfl (Phrase.ofUnary (Phrase.lift rfl (Phrase.call
    (Phrase.lift rfl (Phrase.identifier ['f']))
    (Phrase.moreParams (Phrase.oneParam (Phrase.ofPrimary (Phrase.literal (Literal.string ['a']))))
      (Phrase.ofPrimary (Phrase.literal (Literal.int 1)))))))

theorem parses_iff_clean_call :
    sampleCall.Resolves sampleSymbols (finshInit 0x1000) ∧
      Parses sampleSymbols (finshInit 0x1000) sampleCall := by
  have hknown : sampleCall.Resolves sampleSymbols (finshInit 0x1000) :=
    ⟨show (finshLookup sampleSymbols (finshInit 0x1000) _).isSome = true by decide,
      trivial, trivial⟩
  exact ⟨hknown, (parses_iff_clean hknown (by decide) rfl).mpr ⟨rfl, rfl, rfl⟩⟩

/-- `(1);`, and a string of 112 characters for the heap of 128 bytes -/
theorem parenthesised_expression_fails :
    ¬Parses sampleSymbols (finshInit 0x1000)
        (Phrase.ofPrimary (Phrase.paren (Phrase.ofPrimary (Phrase.literal (Literal.int 1))))) ∧
      ¬Parses sampleSymbols (finshInit 0x1000)
        (Phrase.ofPrimary (Phrase.literal (Literal.string (List.replicate 112 'a')))) :=
  ⟨not_parses_of_accept trivial (by decide) rfl rfl,
    not_parses_of_accept trivial (by decide) rfl
      (Option.isNone_iff_eq_none.mp (by decide +kernel))⟩

end RtThread.Finsh
