import CommandScript.Run

/-!
# Parsers

A `Parser` reads a token sequence piece by piece: one value, one rule, one action, or a whole
block from where it stands. A failed match leaves the position where it was; a malformed number
leaves it at that number. A rule that fails leaves a trace too: the parser keeps the miss that got
furthest (`note`), for the error that may have to name its rule. Only `parseAction` drops what it
has kept (`forget`), before it tries the first rule. An attempt of a parser is the attempt at its
cursor (`tryRules_eq`).
-/

namespace CommandScript

/-- A grammar and a position in a token sequence. -/
structure Parser where
  grammar : Grammar
  stream : TokenStream
  /-- The miss that got furthest among the rules that failed since the last attempt at an action
  began. -/
  closest : Option Miss
  deriving Repr

/-- The reply to a request: its result, what was reported on the way, and the parser after it. -/
structure Reply (α : Type) where
  result : α
  log : List LogRecord
  parser : Parser

namespace Reply

variable {α β : Type}

/-- A reply with its result changed. -/
def map (f : α → β) (r : Reply α) : Reply β :=
  ⟨f r.result, r.log, r.parser⟩

/-- A reply with reports before its own. -/
def after (log : List LogRecord) (r : Reply α) : Reply α :=
  { r with log := log ++ r.log }

end Reply

/-- A block with one more action before it. -/
def Block.cons (a : Action) (b : Block) : Block :=
  ⟨a :: b.actions⟩

/-- What an attempt that ended in this way gives: an action, if a rule matched, or an error. -/
def Outcome.result : Outcome → Except ParseError (Option Action)
  | matched a _ => .ok (some a)
  | malformed c => .error (malformedAt c)
  | unmatched => .ok none

theorem Outcome.result_eq_some_iff {o : Outcome} {a : Action} :
    o.result = .ok (some a) ↔ ∃ c, o = .matched a c := by
  cases o <;> simp [result]

theorem Outcome.result_eq_none_iff {o : Outcome} : o.result = .ok none ↔ o = .unmatched := by
  cases o <;> simp [result]

theorem Outcome.result_eq_error_iff {o : Outcome} {e : ParseError} :
    o.result = .error e ↔ ∃ c, o = .malformed c ∧ malformedAt c = e := by
  cases o <;> simp [result]

/-- The reports of an attempt. -/
def Attempt.log (tried : Attempt) : List LogRecord :=
  tried.misses.map Miss.record ++
    match tried.outcome with
    | .matched a _ => [a.record]
    | _ => []

namespace Parser

/-- A parser at the start of a token sequence. -/
def ofTokens (g : Grammar) (tokens : List Placed) : Parser :=
  ⟨g, .ofTokens tokens, none⟩

/-- The cursor where the parser stands. -/
def cursor (p : Parser) : Cursor :=
  p.stream.cursor

/-- The position where the parser stands. -/
def position (p : Parser) : Nat :=
  p.stream.position

/-- Whether the parser stands at an end of input. -/
def atEnd (p : Parser) : Bool :=
  p.cursor.atEnd

/-- The parser at a cursor into its sequence. -/
def moveTo (p : Parser) (c : Cursor) : Parser :=
  { p with stream := p.stream.moveTo c }

/-- The parser past the next token. -/
def skip (p : Parser) : Parser :=
  p.moveTo p.cursor.advance

/-- The parser with one more miss, which it keeps if it got further than the one it has. -/
def note (p : Parser) (m : Miss) : Parser :=
  { p with closest := Miss.further p.closest m }

/-- The parser without the miss that it has kept. -/
def forget (p : Parser) : Parser :=
  { p with closest := none }

/-- The error that no rule matches where the parser stands. It names the rule of the miss that the
parser has kept. -/
def noRule (p : Parser) : ParseError :=
  .noRule p.cursor.peek p.position p.cursor.line (p.closest.map Miss.rule)

/-- Read one token as a value, if it is one. -/
def parseValue (p : Parser) : Reply (Except ParseError (Option Value)) :=
  match p.cursor.peek.reading with
  | .value v => ⟨.ok (some v), [], p.skip⟩
  | .malformed => ⟨.error (malformedAt p.cursor), [], p⟩
  | .unfit => ⟨.ok none, [], p⟩

/-- Read one match of a rule, if it matches. -/
def matchRule (p : Parser) (r : Rule) : Reply (Except ParseError (Option Action)) :=
  match r.matchAt p.cursor with
  | .matched arguments c => ⟨.ok (some ⟨r.name, arguments, p.cursor.line⟩), [], p.moveTo c⟩
  | .missed depth element found =>
    let miss := ⟨r.name, depth, element, found⟩
    ⟨.ok none, [miss.record], p.note miss⟩
  | .malformed c => ⟨.error (malformedAt c), [], p.moveTo c⟩
  | .never => ⟨.ok none, [], p⟩

/-- Read one match of the first of some rules that matches, if there is one. -/
def tryRules (p : Parser) : List Rule → Reply (Except ParseError (Option Action))
  | [] => ⟨.ok none, [], p⟩
  | r :: rs =>
    let tried := p.matchRule r
    match tried.result with
    | .ok none => (tried.parser.tryRules rs).after tried.log
    | .ok (some action) => ⟨.ok (some action), tried.log ++ [action.record], tried.parser⟩
    | .error e => ⟨.error e, tried.log, tried.parser⟩

/-- Read one match of the first rule that matches, if there is one. -/
def parseAction (p : Parser) : Reply (Except ParseError (Option Action)) :=
  p.forget.tryRules p.grammar.rules

/-! ## An attempt of a parser -/

@[simp] theorem cursor_forget (p : Parser) : p.forget.cursor = p.cursor :=
  rfl

@[simp] theorem cursor_note (p : Parser) (m : Miss) : (p.note m).cursor = p.cursor :=
  rfl

/-- Without what they have kept, parsers differ only by their grammars and streams. -/
theorem forget_eq_iff {p p' : Parser} :
    p.forget = p'.forget ↔ p.grammar = p'.grammar ∧ p.stream = p'.stream := by
  obtain ⟨g, s, closest⟩ := p
  obtain ⟨g', s', closest'⟩ := p'
  simp [forget]

theorem isIn_cursor (p : Parser) : p.cursor.IsIn p.stream.tokens :=
  rfl

/-- A parser that is moved to a cursor into its sequence stands there. -/
theorem cursor_moveTo {p : Parser} {c : Cursor} (h : c.IsIn p.stream.tokens) :
    (p.moveTo c).cursor = c := by
  obtain ⟨position, rest⟩ := c
  exact congrArg (Cursor.mk position) h.symm

theorem cursor_moveTo_of_reaches {p : Parser} {c : Cursor} (h : p.cursor.Reaches c) :
    (p.moveTo c).cursor = c :=
  cursor_moveTo (h.isIn p.isIn_cursor)

theorem cursor_skip (p : Parser) : p.skip.cursor = p.cursor.advance :=
  cursor_moveTo_of_reaches (Cursor.Reaches.refl _).advance

/-- Trying rules gives what the attempt at the cursor gives, and the parser keeps the best of its
misses and the one it had before. -/
theorem tryRules_eq (p : Parser) (rules : List Rule) :
    p.tryRules rules =
      ⟨(attempt p.cursor rules).outcome.result, (attempt p.cursor rules).log,
        { p.moveTo ((attempt p.cursor rules).outcome.cursorFrom p.cursor) with
          closest := (attempt p.cursor rules).misses.foldl Miss.further p.closest }⟩ := by
  induction rules generalizing p with
  | nil => rfl
  | cons r rs ih =>
    rw [tryRules, matchRule, attempt]
    cases r.matchAt p.cursor with
    | matched arguments c => rfl
    | malformed c => rfl
    | never =>
      dsimp only
      rw [ih]
      rfl
    | missed depth element found =>
      dsimp only
      rw [ih, cursor_note]
      rfl

/-- An attempt at an action is the attempt at the cursor. The parser keeps its best miss, whatever
it had kept before. -/
theorem parseAction_eq (p : Parser) :
    p.parseAction =
      ⟨(attempt p.cursor p.grammar.rules).outcome.result,
        (attempt p.cursor p.grammar.rules).log,
        { p.moveTo ((attempt p.cursor p.grammar.rules).outcome.cursorFrom p.cursor) with
          closest := (attempt p.cursor p.grammar.rules).misses.foldl Miss.further none }⟩ :=
  tryRules_eq p.forget p.grammar.rules

theorem result_parseAction (p : Parser) :
    p.parseAction.result = (attempt p.cursor p.grammar.rules).outcome.result := by
  rw [parseAction_eq]

/-- After an attempt the parser stands where the attempt at its cursor ended. -/
theorem cursor_parseAction (p : Parser) :
    p.parseAction.parser.cursor =
      (attempt p.cursor p.grammar.rules).outcome.cursorFrom p.cursor := by
  rw [parseAction_eq]
  exact cursor_moveTo_of_reaches (reaches_attempt p.cursor p.grammar.rules)

theorem length_rest_parseAction_lt {p : Parser} {a : Action} (hp : p.atEnd = false)
    (h : p.parseAction.result = .ok (some a)) :
    p.parseAction.parser.cursor.rest.length < p.cursor.rest.length := by
  rw [result_parseAction] at h
  obtain ⟨c, ho⟩ := Outcome.result_eq_some_iff.mp h
  rw [cursor_parseAction, ho]
  exact length_rest_of_matched hp ho

theorem length_rest_skip_lt {p : Parser} (hp : p.atEnd = false)
    (h : p.parseAction.result = .ok none) :
    p.parseAction.parser.skip.cursor.rest.length < p.cursor.rest.length := by
  rw [result_parseAction] at h
  have hcursor : p.parseAction.parser.cursor = p.cursor := by
    rw [cursor_parseAction, Outcome.result_eq_none_iff.mp h]
    rfl
  rw [cursor_skip, hcursor]
  exact Cursor.length_rest_advance_lt hp

/-! ## Blocks -/

/-- Read actions to the end of input or up to the first error. -/
def parseBlock (p : Parser) : Reply (Except ParseError Block) :=
  if p.atEnd then ⟨.ok ⟨[]⟩, [], p⟩
  else
    let tried := p.parseAction
    match _h : tried.result with
    | .ok (some action) =>
      (tried.parser.parseBlock.map (Except.map (Block.cons action))).after tried.log
    | .ok none => ⟨.error tried.parser.noRule, tried.log, tried.parser⟩
    | .error e => ⟨.error e, tried.log, tried.parser⟩
termination_by p.cursor.rest.length
decreasing_by exact length_rest_parseAction_lt (Bool.eq_false_iff.mpr ‹_›) _h

/-- Read actions to the end of input, with at most `limit` errors. -/
def parseBlockRecovering (p : Parser) (limit : Nat) : Reply (Block × List ParseError) :=
  if p.atEnd then ⟨(⟨[]⟩, []), [], p⟩
  else
    let tried := p.parseAction
    match h : tried.result with
    | .ok (some action) =>
      ((tried.parser.parseBlockRecovering limit).map fun r => (r.1.cons action, r.2)).after
        tried.log
    | .ok none =>
      let e := tried.parser.noRule
      let log := tried.log ++ [⟨.debug, "recovering: " ++ e.message⟩]
      if limit ≤ 1 then ⟨(⟨[]⟩, [e]), log, tried.parser⟩
      else
        ((tried.parser.skip.parseBlockRecovering (limit - 1)).map fun r => (r.1, e :: r.2)).after
          log
    | .error e => ⟨(⟨[]⟩, [e]), tried.log, tried.parser⟩
termination_by p.cursor.rest.length
decreasing_by
  · exact length_rest_parseAction_lt (Bool.eq_false_iff.mpr ‹_›) h
  · exact length_rest_skip_lt (Bool.eq_false_iff.mpr ‹_›) h

theorem parseBlock_of_atEnd {p : Parser} (hp : p.atEnd = true) :
    p.parseBlock = ⟨.ok ⟨[]⟩, [], p⟩ := by
  rw [parseBlock, if_pos hp]

theorem parseBlock_of_not_atEnd {p : Parser} (hp : p.atEnd = false) :
    p.parseBlock =
      match p.parseAction.result with
      | .ok (some action) =>
        (p.parseAction.parser.parseBlock.map (Except.map (Block.cons action))).after
          p.parseAction.log
      | .ok none => ⟨.error p.parseAction.parser.noRule, p.parseAction.log, p.parseAction.parser⟩
      | .error e => ⟨.error e, p.parseAction.log, p.parseAction.parser⟩ := by
  rw [parseBlock, if_neg (Bool.eq_false_iff.mp hp)]
  dsimp only
  split <;> simp_all

theorem parseBlockRecovering_of_atEnd {p : Parser} {limit : Nat} (hp : p.atEnd = true) :
    p.parseBlockRecovering limit = ⟨(⟨[]⟩, []), [], p⟩ := by
  rw [parseBlockRecovering, if_pos hp]

theorem parseBlockRecovering_of_not_atEnd {p : Parser} {limit : Nat} (hp : p.atEnd = false) :
    p.parseBlockRecovering limit =
      match p.parseAction.result with
      | .ok (some action) =>
        ((p.parseAction.parser.parseBlockRecovering limit).map
          fun r => (r.1.cons action, r.2)).after p.parseAction.log
      | .ok none =>
        let e := p.parseAction.parser.noRule
        let log := p.parseAction.log ++ [⟨.debug, "recovering: " ++ e.message⟩]
        if limit ≤ 1 then ⟨(⟨[]⟩, [e]), log, p.parseAction.parser⟩
        else
          ((p.parseAction.parser.skip.parseBlockRecovering (limit - 1)).map
            fun r => (r.1, e :: r.2)).after log
      | .error e => ⟨(⟨[]⟩, [e]), p.parseAction.log, p.parseAction.parser⟩ := by
  rw [parseBlockRecovering, if_neg (Bool.eq_false_iff.mp hp)]
  dsimp only
  split <;> simp_all

end Parser

end CommandScript
