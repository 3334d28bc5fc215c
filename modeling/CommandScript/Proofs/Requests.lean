import CommandScript.Parser
import CommandScript.Proofs.FirstError
import CommandScript.Proofs.Position

/-!
# Requests to a parser

A parser may be asked in any order for a value, for a match of one rule, for an action or for a
block (`Request`). It keeps the best miss, and that of a rule which was tried by itself stays with
it until the next attempt at an action. No reply comes from there. `Request.effect` says what a
request gives, from the grammar and a cursor alone, for a block by the run from the cursor, and a
parser gives that whatever it has kept (`respond_gives_effect`). So no requests tell apart two
parsers that stand at the same position, and none leads back or past the end position
(`requests_from_position`).
-/

namespace CommandScript

/-- A request to a parser. -/
inductive Request
  /-- Read a value. -/
  | value
  /-- Read one match of this rule. -/
  | rule (r : Rule)
  /-- Read one match of a rule of the grammar. -/
  | action
  /-- Read actions up to the first error. -/
  | block
  /-- Read actions with at most `limit` errors. -/
  | recovering (limit : Nat)

/-- The result of a request. -/
inductive Answer
  | value (result : Except ParseError (Option Value))
  | action (result : Except ParseError (Option Action))
  | block (result : Except ParseError Block)
  | recovered (result : Block × List ParseError)

/-- What a request gives and reports, and the cursor after it. -/
structure Effect where
  answer : Answer
  log : List LogRecord
  cursor : Cursor

/-- What a request gives at a cursor, said without a parser. -/
def Request.effect (g : Grammar) (c : Cursor) : Request → Effect
  | value =>
    match c.peek.reading with
    | .value v => ⟨.value (.ok (some v)), [], c.advance⟩
    | .malformed => ⟨.value (.error (malformedAt c)), [], c⟩
    | .unfit => ⟨.value (.ok none), [], c⟩
  | rule r =>
    match r.matchAt c with
    | .matched a d => ⟨.action (.ok (some ⟨r.name, a, c.line⟩)), [], d⟩
    | .missed depth element found =>
      ⟨.action (.ok none), [(Miss.mk r.name depth element found).record], c⟩
    | .malformed d => ⟨.action (.error (malformedAt d)), [], d⟩
    | .never => ⟨.action (.ok none), [], c⟩
  | action =>
    let tried := attempt c g.rules
    ⟨.action tried.outcome.result, tried.log, tried.outcome.cursorFrom c⟩
  | block =>
    let r := strictRun g c
    ⟨.block r.result, r.log false, r.cursor⟩
  | recovering limit =>
    let r := run g limit c
    ⟨.recovered (r.block, r.errors), r.log true, r.cursor⟩

/-! ## Runs with one more step -/

namespace Run

variable {misses : List Miss} {r : Run}

theorem result_cons_matched (a : Action) :
    (r.cons (.matched misses a)).result = r.result.map (Block.cons a) := by
  have herrors : (r.cons (.matched misses a)).errors = r.errors := rfl
  rw [result, result, herrors]
  cases r.errors <;> rfl

theorem log_cons (recovering : Bool) (s : Step) :
    (r.cons s).log recovering = s.log recovering ++ r.log recovering :=
  List.flatMap_cons

end Run

/-- A reply of a parser that gives this result and these reports, and leaves it at this cursor,
whatever it keeps. -/
structure Reply.Gives {α : Type} (reply : Reply α) (p : Parser) (result : α)
    (log : List LogRecord) (c : Cursor) : Prop where
  result : reply.result = result
  log : reply.log = log
  parser : reply.parser.forget = (p.moveTo c).forget

theorem Reply.Gives.map {α β : Type} {reply : Reply α} {p : Parser} {result : α}
    {log : List LogRecord} {c : Cursor} (h : reply.Gives p result log c) (f : α → β) :
    (reply.map f).Gives p (f result) log c :=
  ⟨congrArg f h.result, h.log, h.parser⟩

namespace Parser

variable (p : Parser)

/-! ## One attempt of a parser -/

theorem grammar_parseAction : p.parseAction.parser.grammar = p.grammar := by
  rw [parseAction_eq]
  rfl

theorem forget_moveTo_parseAction (c : Cursor) :
    (p.parseAction.parser.moveTo c).forget = (p.moveTo c).forget := by
  rw [parseAction_eq]
  rfl

theorem gives_parseAction : p.parseAction.Gives p (attempt p.cursor p.grammar.rules).outcome.result
    (attempt p.cursor p.grammar.rules).log
    ((attempt p.cursor p.grammar.rules).outcome.cursorFrom p.cursor) := by
  rw [parseAction_eq]
  exact ⟨rfl, rfl, rfl⟩

/-- An attempt that gives an action is a match, after which the parser stands. -/
theorem matched_of_result {p : Parser} {a : Action}
    (ha : p.parseAction.result = .ok (some a)) :
    ∃ c, (attempt p.cursor p.grammar.rules).outcome = .matched a c ∧
      p.parseAction.parser.cursor = c ∧
      p.parseAction.log =
        (attempt p.cursor p.grammar.rules).misses.map Miss.record ++ [a.record] := by
  obtain ⟨c, ho⟩ := Outcome.result_eq_some_iff.mp (p.result_parseAction.symm.trans ha)
  refine ⟨c, ho, ?_, ?_⟩
  · rw [cursor_parseAction, ho]
    rfl
  · rw [p.gives_parseAction.log, Attempt.log, ho]

/-- After an attempt without a match the parser stands where it did. It has kept the best miss of
this attempt, so its error is that of the attempt at the cursor. -/
theorem unmatched_of_result {p : Parser} (ha : p.parseAction.result = .ok none) :
    (attempt p.cursor p.grammar.rules).outcome = .unmatched ∧
      p.parseAction.parser.noRule =
        noRuleAt p.cursor (attempt p.cursor p.grammar.rules).misses ∧
      p.parseAction.log = (attempt p.cursor p.grammar.rules).misses.map Miss.record ∧
      p.parseAction.parser.forget = p.forget := by
  have ho := Outcome.result_eq_none_iff.mp (p.result_parseAction.symm.trans ha)
  have heq := p.parseAction_eq
  rw [ho, Attempt.log, ho, List.append_nil] at heq
  rw [heq]
  exact ⟨ho, rfl, rfl, rfl⟩

/-- An attempt that gives an error has met a malformed number, at which the parser stands. -/
theorem malformed_of_result {p : Parser} {e : ParseError} (ha : p.parseAction.result = .error e) :
    ∃ c, (attempt p.cursor p.grammar.rules).outcome = .malformed c ∧ e = malformedAt c ∧
      p.parseAction.log = (attempt p.cursor p.grammar.rules).misses.map Miss.record ∧
      p.parseAction.parser.forget = (p.moveTo c).forget := by
  obtain ⟨c, ho, rfl⟩ := Outcome.result_eq_error_iff.mp (p.result_parseAction.symm.trans ha)
  have heq := p.parseAction_eq
  rw [ho, Attempt.log, ho, List.append_nil] at heq
  rw [heq]
  exact ⟨c, ho, rfl, rfl, rfl⟩

/-! ## Blocks -/

/-- A parser reads a block by the strict run from its cursor. -/
theorem gives_parseBlock : p.parseBlock.Gives p (strictRun p.grammar p.cursor).result
    ((strictRun p.grammar p.cursor).log false) (strictRun p.grammar p.cursor).cursor := by
  induction p using parseBlock.induct with
  | case1 p hp =>
    rw [parseBlock_of_atEnd hp, strictRun_of_atEnd hp]
    exact ⟨rfl, rfl, rfl⟩
  | case2 p hp tried a ha ih =>
    have hp := Bool.eq_false_iff.mpr hp
    obtain ⟨c, ho, hcursor, hlog⟩ := matched_of_result ha
    rw [p.grammar_parseAction, hcursor] at ih
    rw [parseBlock_of_not_atEnd hp, ha, strictRun_of_not_atEnd hp, ho]
    refine ⟨?_, ?_, ih.parser.trans (p.forget_moveTo_parseAction _)⟩
    · rw [Run.result_cons_matched, ← ih.result]
      rfl
    · rw [Run.log_cons, ← ih.log, Step.log, Step.misses, ← hlog]
      rfl
  | case3 p hp tried ha =>
    have hp := Bool.eq_false_iff.mpr hp
    obtain ⟨ho, herror, hlog, hparser⟩ := unmatched_of_result ha
    rw [parseBlock_of_not_atEnd hp, ha, strictRun_of_not_atEnd hp, ho]
    exact ⟨congrArg Except.error herror, by simp [Run.log, Step.log, Step.misses, hlog], hparser⟩
  | case4 p hp tried e ha =>
    have hp := Bool.eq_false_iff.mpr hp
    obtain ⟨c, ho, rfl, hlog, hparser⟩ := malformed_of_result ha
    rw [parseBlock_of_not_atEnd hp, ha, strictRun_of_not_atEnd hp, ho]
    exact ⟨rfl, by simp [Run.log, Step.log, Step.misses, hlog], hparser⟩

/-- A parser reads a block with errors by the recovering run from its cursor. -/
theorem gives_parseBlockRecovering (limit : Nat) :
    (p.parseBlockRecovering limit).Gives p
      ((run p.grammar limit p.cursor).block, (run p.grammar limit p.cursor).errors)
      ((run p.grammar limit p.cursor).log true) (run p.grammar limit p.cursor).cursor := by
  induction p, limit using parseBlockRecovering.induct with
  | case1 p limit hp =>
    rw [parseBlockRecovering_of_atEnd hp, run_of_atEnd hp]
    exact ⟨rfl, rfl, rfl⟩
  | case2 p limit hp tried a ha ih =>
    have hp := Bool.eq_false_iff.mpr hp
    obtain ⟨c, ho, hcursor, hlog⟩ := matched_of_result ha
    rw [p.grammar_parseAction, hcursor] at ih
    rw [parseBlockRecovering_of_not_atEnd hp, ha, run_of_matched hp ho]
    refine ⟨?_, ?_, ih.parser.trans (p.forget_moveTo_parseAction _)⟩
    · have hresult := congrArg (fun r : Block × List ParseError => (r.1.cons a, r.2)) ih.result
      exact hresult
    · rw [Run.log_cons, ← ih.log, Step.log, Step.misses, ← hlog]
      rfl
  | case3 p limit hp tried ha hlimit =>
    have hp := Bool.eq_false_iff.mpr hp
    obtain ⟨ho, herror, hlog, hparser⟩ := unmatched_of_result ha
    rw [parseBlockRecovering_of_not_atEnd hp, ha, run_of_unmatched_of_le hp ho hlimit]
    simp only [if_pos hlimit]
    rw [herror]
    exact ⟨rfl, by simp [Run.log, Step.log, Step.misses, hlog], hparser⟩
  | case4 p limit hp tried ha hlimit ih =>
    have hp := Bool.eq_false_iff.mpr hp
    obtain ⟨ho, herror, hlog, hparser⟩ := unmatched_of_result ha
    have hstay : tried.parser.cursor = p.cursor :=
      congrArg TokenStream.cursor (forget_eq_iff.mp hparser).2
    have hcursor : tried.parser.skip.cursor = p.cursor.advance := by
      rw [cursor_skip, hstay]
    have hgrammar : tried.parser.skip.grammar = p.grammar := p.grammar_parseAction
    rw [hgrammar, hcursor] at ih
    rw [parseBlockRecovering_of_not_atEnd hp, ha, run_of_unmatched hp ho hlimit]
    simp only [if_neg hlimit]
    rw [← herror]
    refine ⟨?_, ?_, ih.parser.trans (p.forget_moveTo_parseAction _)⟩
    · have hresult := congrArg
        (fun r : Block × List ParseError => (r.1, p.parseAction.parser.noRule :: r.2)) ih.result
      exact hresult
    · rw [Run.log_cons, ← ih.log, Step.log, Step.misses, ← hlog]
      rfl
  | case5 p limit hp tried e ha =>
    have hp := Bool.eq_false_iff.mpr hp
    obtain ⟨c, ho, rfl, hlog, hparser⟩ := malformed_of_result ha
    rw [parseBlockRecovering_of_not_atEnd hp, ha, run_of_malformed hp ho]
    exact ⟨rfl, by simp [Run.log, Step.log, Step.misses, hlog], hparser⟩

/-- A strict parse is what a parser at the start of the tokens reads as a block. -/
theorem result_parseBlock_ofTokens (g : Grammar) (ts : List Placed) :
    (ofTokens g ts).parseBlock.result = parse g ts :=
  (ofTokens g ts).gives_parseBlock.result

/-- A recovering parse is what a parser at the start of the tokens reads as a block with errors. -/
theorem result_parseBlockRecovering_ofTokens (g : Grammar) (ts : List Placed) (limit : Nat) :
    ((ofTokens g ts).parseBlockRecovering limit).result = parseRecovering g limit ts :=
  ((ofTokens g ts).gives_parseBlockRecovering limit).result

/-! ## All requests -/

/-- The reply to a request. -/
def respond (p : Parser) : Request → Reply Answer
  | .value => p.parseValue.map .value
  | .rule r => (p.matchRule r).map .action
  | .action => p.parseAction.map .action
  | .block => p.parseBlock.map .block
  | .recovering limit => (p.parseBlockRecovering limit).map .recovered

/-- The parser after requests, one after the other. -/
def afterRequests (p : Parser) (requests : List Request) : Parser :=
  requests.foldl (fun p q => (p.respond q).parser) p

/-- What requests give and report, one after the other, and the position after each of them. -/
def trace (p : Parser) : List Request → List (Answer × List LogRecord × Nat)
  | [] => []
  | q :: qs =>
    let reply := p.respond q
    (reply.result, reply.log, reply.parser.position) :: reply.parser.trace qs

/-- A request gives its effect at the cursor, whatever the parser has kept. -/
theorem respond_gives_effect (q : Request) :
    (p.respond q).Gives p (q.effect p.grammar p.cursor).answer (q.effect p.grammar p.cursor).log
      (q.effect p.grammar p.cursor).cursor := by
  cases q with
  | value =>
    rw [respond, parseValue, Request.effect]
    cases p.cursor.peek.reading <;> exact ⟨rfl, rfl, rfl⟩
  | rule r =>
    rw [respond, matchRule, Request.effect]
    cases r.matchAt p.cursor <;> exact ⟨rfl, rfl, rfl⟩
  | action => exact p.gives_parseAction.map Answer.action
  | block => exact p.gives_parseBlock.map Answer.block
  | recovering limit => exact (p.gives_parseBlockRecovering limit).map Answer.recovered

/-- What two parsers have kept does not show in their replies to a request. -/
theorem respond_of_forget_eq {p p' : Parser} (h : p.forget = p'.forget) (q : Request) :
    (p.respond q).result = (p'.respond q).result ∧ (p.respond q).log = (p'.respond q).log ∧
      (p.respond q).parser.forget = (p'.respond q).parser.forget := by
  obtain ⟨hgrammar, hstream⟩ := forget_eq_iff.mp h
  have hcursor : p.cursor = p'.cursor := congrArg TokenStream.cursor hstream
  have hmove (c : Cursor) : (p.moveTo c).forget = (p'.moveTo c).forget :=
    forget_eq_iff.mpr ⟨hgrammar, congrArg (TokenStream.moveTo · c) hstream⟩
  have hp := p.respond_gives_effect q
  rw [hgrammar, hcursor] at hp
  have hp' := p'.respond_gives_effect q
  exact ⟨hp.result.trans hp'.result.symm, hp.log.trans hp'.log.symm,
    hp.parser.trans ((hmove _).trans hp'.parser.symm)⟩

/-- Nor does it show in their replies to later requests. -/
theorem trace_of_forget_eq {p p' : Parser} (h : p.forget = p'.forget) (requests : List Request) :
    p.trace requests = p'.trace requests := by
  induction requests generalizing p p' with
  | nil => rfl
  | cons q qs ih =>
    obtain ⟨hresult, hlog, hparser⟩ := respond_of_forget_eq h q
    have hposition : (p.respond q).parser.position = (p'.respond q).parser.position :=
      congrArg TokenStream.position (forget_eq_iff.mp hparser).2
    rw [trace, trace, hresult, hlog, hposition, ih hparser]

end Parser

/-! ## Where requests lead -/

theorem reaches_run (g : Grammar) (limit : Nat) (c : Cursor) :
    c.Reaches (run g limit c).cursor := by
  induction limit, c using run_induction (g := g) with
  | atEnd n c hc =>
    rw [run_of_atEnd hc]
    exact .refl c
  | matched n c action d hc ho ih =>
    have hd := reaches_attempt c g.rules
    rw [run_of_matched hc ho]
    rw [ho] at hd
    exact hd.trans ih
  | malformed n c d hc ho =>
    have hd := reaches_attempt c g.rules
    rw [run_of_malformed hc ho]
    rw [ho] at hd
    exact hd
  | stopped n c hc ho hn =>
    rw [run_of_unmatched_of_le hc ho hn]
    exact .refl c
  | skipped n c hc ho hn ih =>
    rw [run_of_unmatched hc ho hn]
    exact .move ih

theorem Request.reaches_effect (g : Grammar) (c : Cursor) (q : Request) :
    c.Reaches (q.effect g c).cursor := by
  cases q with
  | value =>
    rw [effect]
    cases c.peek.reading with
    | value v => exact (Cursor.Reaches.refl c).advance
    | _ => exact .refl c
  | rule r =>
    have hr := r.reaches_matchAt c
    rw [effect]
    cases hm : r.matchAt c with
    | matched a d =>
      rw [hm] at hr
      exact hr
    | malformed d =>
      rw [hm] at hr
      exact hr
    | _ => exact .refl c
  | action => exact reaches_attempt c g.rules
  | block =>
    rw [effect, strictRun_eq_run_one]
    exact reaches_run g 1 c
  | recovering limit => exact reaches_run g limit c

namespace Parser

/-- A parser of a token sequence that stands at most at its end position. -/
structure Stands (g : Grammar) (ts : List Placed) (p : Parser) : Prop where
  grammar : p.grammar = g
  tokens : p.stream.tokens = ts
  position_le : p.position ≤ endPosition ts

namespace Stands

variable {g : Grammar} {ts : List Placed} {p p' : Parser}

theorem ofTokens (g : Grammar) (ts : List Placed) : Stands g ts (.ofTokens g ts) :=
  ⟨rfl, rfl, Nat.zero_le _⟩

theorem cursor_eq (h : Stands g ts p) : p.cursor = cursorAt ts p.position := by
  rw [cursorAt, Nat.min_eq_left h.position_le, ← h.tokens]
  rfl

/-- A request does not lead back, and not past the end position. -/
theorem respond (h : Stands g ts p) (q : Request) :
    p.position ≤ (p.respond q).parser.position ∧ Stands g ts (p.respond q).parser := by
  obtain ⟨hgrammar, hstream⟩ := forget_eq_iff.mp (p.respond_gives_effect q).parser
  have hposition : (p.respond q).parser.position = (q.effect p.grammar p.cursor).cursor.position :=
    congrArg TokenStream.position hstream
  have hreaches := q.reaches_effect p.grammar p.cursor
  obtain ⟨n, hn⟩ := exists_eq_cursorAt_of_reaches ts hreaches p.position h.cursor_eq
  refine ⟨hposition ▸ hreaches.position_le, hgrammar.trans h.grammar, ?_, ?_⟩
  · exact (congrArg TokenStream.tokens hstream).trans h.tokens
  · rw [hposition, hn]
    exact Nat.min_le_right _ _

theorem afterRequests (h : Stands g ts p) (requests : List Request) :
    Stands g ts (p.afterRequests requests) := by
  induction requests generalizing p with
  | nil => exact h
  | cons q qs ih => exact ih (h.respond q).2

/-- But for what parsers have kept, there is one at each position. -/
theorem forget_eq (hp : Stands g ts p) (hp' : Stands g ts p') (h : p.position = p'.position) :
    p.forget = p'.forget := by
  refine forget_eq_iff.mpr ⟨hp.grammar.trans hp'.grammar.symm, ?_⟩
  have htokens := hp.tokens.trans hp'.tokens.symm
  obtain ⟨g₁, ⟨ts₁, position₁⟩, closest₁⟩ := p
  obtain ⟨g₂, ⟨ts₂, position₂⟩, closest₂⟩ := p'
  simp only [TokenStream.mk.injEq]
  exact ⟨htokens, h⟩

end Stands

/-- Whatever a parser was asked before, the next request does not lead back, and not past the end
position. After any two rows of requests that lead to the same position, further requests get the
same results and reports, and lead to the same positions. -/
theorem requests_from_position (g : Grammar) (ts : List Placed) :
    (∀ past q, ((ofTokens g ts).afterRequests past).position ≤
        (((ofTokens g ts).afterRequests past).respond q).parser.position ∧
      (((ofTokens g ts).afterRequests past).respond q).parser.position ≤ endPosition ts) ∧
    ∀ past past', ((ofTokens g ts).afterRequests past).position =
        ((ofTokens g ts).afterRequests past').position →
      ∀ requests, ((ofTokens g ts).afterRequests past).trace requests =
        ((ofTokens g ts).afterRequests past').trace requests := by
  have hstands (past : List Request) : Stands g ts ((ofTokens g ts).afterRequests past) :=
    (Stands.ofTokens g ts).afterRequests past
  constructor
  · intro past q
    obtain ⟨hle, hnext⟩ := (hstands past).respond q
    exact ⟨hle, hnext.position_le⟩
  · intro past past' hposition requests
    exact trace_of_forget_eq ((hstands past).forget_eq (hstands past') hposition) requests

/-- What a parser has kept does depend on the requests before: a rule that fails by itself leaves
its miss, though the parser stands where it did. -/
example :
    let p := ofTokens ⟨[]⟩ [⟨⟨.word, "go"⟩, 1⟩, ⟨⟨.word, "south"⟩, 1⟩]
    let q := p.afterRequests [.rule ⟨"go", [.keyword "go", .keyword "north"]⟩]
    q.position = p.position ∧ q.closest ≠ p.closest := by
  decide

end Parser

end CommandScript
