import CommandScript.Proofs.Requests

/-!
# Progress of the loops

A parser reads a block in a loop, strictly or with recovery. Here each loop is given by one of its
iterations (`Loop.strict`, `Loop.recovering`), which goes on with another loop state or ends with a
result, so that nothing in it says that the loop ever ends. An iteration that goes on gathers one
action or one error and moves the parser on (`Loop.Advances`): before the end of input a match takes
at least one token, even if its keywords are spelled as the end of input is, a rule without elements
never matches, and one token is skipped where no rule does.

Hence a loop ends. In its last state it has gathered as much as it has made iterations, and the
parser has moved on at least as far (`exists_endsAfter`). Its result is the one of the parser's own
recursion (`EndsAfter.result_strict`, `EndsAfter.result_recovering`). So the actions and errors
together are no more than the tokens up to the first end of input (`loops_end`).
-/

namespace CommandScript

/-! ## Loops -/

/-- A loop that reads a block, before one of its iterations: its parser, and the actions and errors
that it has gathered. -/
structure Loop where
  parser : Parser
  actions : List Action
  errors : List ParseError

namespace Loop

/-- The loop of a parser before its first iteration. -/
def start (p : Parser) : Loop :=
  ⟨p, [], []⟩

/-- The loop after its parser has read an action. -/
def matched (l : Loop) (a : Action) : Loop :=
  { l with parser := l.parser.parseAction.parser, actions := l.actions ++ [a] }

/-- The error of the loop if its parser finds no action. -/
def noRule (l : Loop) : ParseError :=
  l.parser.parseAction.parser.noRule

/-- The loop after its parser has found no action, recorded the error and skipped a token. -/
def skipped (l : Loop) : Loop :=
  { l with parser := l.parser.parseAction.parser.skip, errors := l.errors ++ [l.noRule] }

/-- An iteration of the loop that ends at the first error. -/
def strict (l : Loop) : Loop ⊕ Except ParseError Block :=
  if l.parser.atEnd then .inr (.ok ⟨l.actions⟩)
  else
    match l.parser.parseAction.result with
    | .ok (some a) => .inl (l.matched a)
    | .ok none => .inr (.error l.noRule)
    | .error e => .inr (.error e)

/-- An iteration of the loop that records errors and skips tokens. It ends when it has recorded as
many errors as the limit says. -/
def recovering (limit : Nat) (l : Loop) : Loop ⊕ Block × List ParseError :=
  if l.parser.atEnd then .inr (⟨l.actions⟩, l.errors)
  else
    match l.parser.parseAction.result with
    | .ok (some a) => .inl (l.matched a)
    | .ok none =>
      if limit ≤ (l.errors ++ [l.noRule]).length then .inr (⟨l.actions⟩, l.errors ++ [l.noRule])
      else .inl l.skipped
    | .error e => .inr (⟨l.actions⟩, l.errors ++ [e])

/-- The number of actions and errors that a loop has gathered. -/
def gathered (l : Loop) : Nat :=
  l.actions.length + l.errors.length

theorem gathered_start (p : Parser) : (start p).gathered = 0 :=
  rfl

end Loop

/-- A loop ends with a result after `n` iterations that go on. -/
inductive EndsAfter {ρ : Type} (iterate : Loop → Loop ⊕ ρ) : Nat → Loop → ρ → Prop
  | now {l : Loop} {r : ρ} (h : iterate l = .inr r) : EndsAfter iterate 0 l r
  | later {n : Nat} {l l' : Loop} {r : ρ} (h : iterate l = .inl l')
    (hl : EndsAfter iterate n l' r) : EndsAfter iterate (n + 1) l r

/-! ## A parser moves on -/

namespace Parser

variable {g : Grammar} {ts : List Placed} {p p' : Parser}

theorem tokens_parseAction (p : Parser) :
    p.parseAction.parser.stream.tokens = p.stream.tokens := by
  rw [parseAction_eq]
  rfl

/-- In the same tokens, fewer of them are left at a later position. -/
theorem position_lt_of_length_rest_lt (htokens : p'.stream.tokens = p.stream.tokens)
    (h : p'.cursor.rest.length < p.cursor.rest.length) : p.position < p'.position := by
  change (p'.stream.tokens.drop p'.position).length < (p.stream.tokens.drop p.position).length at h
  rw [List.length_drop, List.length_drop, htokens] at h
  omega

theorem position_lt_of_matched {a : Action} (hp : p.atEnd = false)
    (h : p.parseAction.result = .ok (some a)) : p.position < p.parseAction.parser.position :=
  position_lt_of_length_rest_lt p.tokens_parseAction (length_rest_parseAction_lt hp h)

theorem position_lt_of_skipped (hp : p.atEnd = false) (h : p.parseAction.result = .ok none) :
    p.position < p.parseAction.parser.skip.position :=
  position_lt_of_length_rest_lt p.tokens_parseAction (length_rest_skip_lt hp h)

theorem Stands.parseAction (h : Stands g ts p) : Stands g ts p.parseAction.parser :=
  (h.respond .action).2

theorem Stands.skip (h : Stands g ts p) : Stands g ts p.skip where
  grammar := h.grammar
  tokens := h.tokens
  position_le := by
    change p.cursor.advance.position ≤ endPosition ts
    rw [h.cursor_eq, advance_cursorAt]
    exact Nat.min_le_right _ _

theorem Stands.position_lt (h : Stands g ts p) (hp : p.atEnd = false) :
    p.position < endPosition ts := by
  rw [atEnd, h.cursor_eq, ← Bool.not_eq_true, atEnd_cursorAt_iff] at hp
  exact Nat.lt_of_not_le hp

end Parser

/-! ## One iteration -/

namespace Loop

open CommandScript.Parser

variable {l l' : Loop} {limit : Nat}

/-- What an iteration has done that goes on: it has gathered one action or error more, and moved the
parser on. -/
structure Advances (l l' : Loop) : Prop where
  gathered : l'.gathered = l.gathered + 1
  position_lt : l.parser.position < l'.parser.position
  stands : ∀ {g ts}, Stands g ts l.parser → Stands g ts l'.parser

/-- An iteration in which a rule matches. -/
theorem advances_matched {a : Action} (hend : l.parser.atEnd = false)
    (h : l.parser.parseAction.result = .ok (some a)) : l.Advances (l.matched a) where
  gathered := by
    simp only [Loop.gathered, matched, List.length_append, List.length_singleton]
    omega
  position_lt := position_lt_of_matched hend h
  stands hl := hl.parseAction

/-- An iteration in which a token is skipped. -/
theorem advances_skipped (hend : l.parser.atEnd = false)
    (h : l.parser.parseAction.result = .ok none) : l.Advances l.skipped where
  gathered := by
    simp only [Loop.gathered, skipped, List.length_append, List.length_singleton]
    omega
  position_lt := position_lt_of_skipped hend h
  stands hl := hl.parseAction.skip

/-- What an iteration does if errors end the loop. -/
theorem strict_cases (l : Loop) :
    (l.parser.atEnd = true ∧ l.strict = .inr (.ok ⟨l.actions⟩)) ∨
      l.parser.atEnd = false ∧
        ((∃ a, l.parser.parseAction.result = .ok (some a) ∧ l.strict = .inl (l.matched a)) ∨
          (l.parser.parseAction.result = .ok none ∧ l.strict = .inr (.error l.noRule)) ∨
          ∃ e, l.parser.parseAction.result = .error e ∧ l.strict = .inr (.error e)) := by
  cases hend : l.parser.atEnd with
  | true => simp [strict, hend]
  | false =>
    rcases hr : l.parser.parseAction.result with e | (_ | a) <;> simp [strict, hend, hr]

/-- What an iteration does if errors are recorded. -/
theorem recovering_cases (limit : Nat) (l : Loop) :
    (l.parser.atEnd = true ∧ l.recovering limit = .inr (⟨l.actions⟩, l.errors)) ∨
      l.parser.atEnd = false ∧
        ((∃ a, l.parser.parseAction.result = .ok (some a) ∧
            l.recovering limit = .inl (l.matched a)) ∨
          (l.parser.parseAction.result = .ok none ∧ limit - l.errors.length ≤ 1 ∧
            l.recovering limit = .inr (⟨l.actions⟩, l.errors ++ [l.noRule])) ∨
          (l.parser.parseAction.result = .ok none ∧ ¬limit - l.errors.length ≤ 1 ∧
            l.recovering limit = .inl l.skipped) ∨
          ∃ e, l.parser.parseAction.result = .error e ∧
            l.recovering limit = .inr (⟨l.actions⟩, l.errors ++ [e])) := by
  cases hend : l.parser.atEnd with
  | true => simp [recovering, hend]
  | false =>
    rcases hr : l.parser.parseAction.result with e | (_ | a)
    · simp [recovering, hend, hr]
    · by_cases hlimit : limit - l.errors.length ≤ 1
      · have hlength : limit ≤ l.errors.length + 1 := by omega
        simp [recovering, hend, hr, hlimit, hlength]
      · have hlength : ¬limit ≤ l.errors.length + 1 := by omega
        simp [recovering, hend, hr, hlimit, hlength]
    · simp [recovering, hend, hr]

theorem advances_of_strict (h : l.strict = .inl l') : l.Advances l' := by
  rcases l.strict_cases with ⟨-, hl⟩ | ⟨hend, ⟨a, ha, hl⟩ | ⟨-, hl⟩ | ⟨e, -, hl⟩⟩ <;>
    rw [hl] at h <;> cases h
  exact advances_matched hend ha

theorem advances_of_recovering (h : l.recovering limit = .inl l') : l.Advances l' := by
  rcases l.recovering_cases limit with ⟨-, hl⟩ | ⟨hend, ⟨a, ha, hl⟩ | ⟨-, -, hl⟩ | ⟨ha, -, hl⟩ |
    ⟨e, -, hl⟩⟩ <;> rw [hl] at h <;> cases h
  · exact advances_matched hend ha
  · exact advances_skipped hend ha

/-- The last iteration gives the actions that were gathered, or it stands before a token that an
error is about. -/
theorem strict_ends {r : Except ParseError Block} (h : l.strict = .inr r) :
    (∀ b, r = .ok b → b.actions = l.actions) ∧ ∀ e, r = .error e → l.parser.atEnd = false := by
  rcases l.strict_cases with ⟨-, hl⟩ | ⟨hend, ⟨a, -, hl⟩ | ⟨-, hl⟩ | ⟨e, -, hl⟩⟩ <;>
    rw [hl] at h <;> cases h
  · simp
  · simp [hend]
  · simp [hend]

/-- The last iteration gives what was gathered, and one error more only if it stands before a
token. -/
theorem recovering_ends {r : Block × List ParseError} (h : l.recovering limit = .inr r) :
    r.1.actions.length + r.2.length = l.gathered ∨
      l.parser.atEnd = false ∧ r.1.actions.length + r.2.length = l.gathered + 1 := by
  have hone (e : ParseError) : l.actions.length + (l.errors ++ [e]).length = l.gathered + 1 := by
    rw [List.length_append, List.length_singleton, gathered]
    omega
  rcases l.recovering_cases limit with ⟨-, hl⟩ | ⟨hend, ⟨a, -, hl⟩ | ⟨-, -, hl⟩ | ⟨-, -, hl⟩ |
    ⟨e, -, hl⟩⟩ <;> rw [hl] at h <;> cases h
  · exact Or.inl rfl
  · exact Or.inr ⟨hend, hone _⟩
  · exact Or.inr ⟨hend, hone _⟩

end Loop

/-! ## All iterations -/

section

open CommandScript.Parser

variable {ρ : Type} {iterate : Loop → Loop ⊕ ρ} {g : Grammar} {ts : List Placed} {n limit : Nat}
  {l : Loop}

/-- A loop whose iterations make progress ends. In its last state it has gathered as much as it has
made iterations that went on, and its parser has moved on by at least as many positions. -/
theorem exists_endsAfter (hiterate : ∀ l l', iterate l = .inl l' → l.Advances l')
    (hl : Stands g ts l.parser) :
    ∃ n r last, EndsAfter iterate n l r ∧ iterate last = .inr r ∧ Stands g ts last.parser ∧
      last.gathered = l.gathered + n ∧ l.parser.position + n ≤ last.parser.position := by
  -- each iteration leaves fewer tokens up to the end position
  induction hd : endPosition ts - l.parser.position using Nat.strongRecOn generalizing l with
  | ind d ih =>
    cases h : iterate l with
    | inr r => exact ⟨0, r, l, .now h, h, hl, rfl, Nat.le_refl _⟩
    | inl l' =>
      have hadvances := hiterate l l' h
      have hgathered := hadvances.gathered
      have hlt := hadvances.position_lt
      have hle := (hadvances.stands hl).position_le
      obtain ⟨n, r, last, hr, hlast, hstands, hgathered', hle'⟩ :=
        ih _ (by omega) (hadvances.stands hl) rfl
      exact ⟨n + 1, r, last, .later h hr, hlast, hstands, by omega, by omega⟩

namespace EndsAfter

/-- The loop that ends at the first error has the result of the parser's recursion, after the
actions that it had before. -/
theorem result_strict {r : Except ParseError Block} (h : EndsAfter Loop.strict n l r) :
    r = l.parser.parseBlock.result.map fun b => ⟨l.actions ++ b.actions⟩ := by
  induction h with
  | @now l r h =>
    rcases l.strict_cases with ⟨hend, hl⟩ | ⟨hend, ⟨a, ha, hl⟩ | ⟨ha, hl⟩ | ⟨e, ha, hl⟩⟩ <;>
      rw [hl] at h <;> cases h
    · simp [parseBlock_of_atEnd hend, Except.map]
    · simp [parseBlock_of_not_atEnd hend, ha, Except.map, Loop.noRule]
    · simp [parseBlock_of_not_atEnd hend, ha, Except.map]
  | @later n l l' r h _ ih =>
    rcases l.strict_cases with ⟨-, hl⟩ | ⟨hend, ⟨a, ha, hl⟩ | ⟨-, hl⟩ | ⟨e, -, hl⟩⟩ <;>
      rw [hl] at h <;> cases h
    rw [ih, parseBlock_of_not_atEnd hend, ha]
    cases hb : l.parser.parseAction.parser.parseBlock.result <;>
      simp [Loop.matched, Reply.after, Reply.map, hb, Except.map, Block.cons]

/-- The loop that recovers has the result of the parser's recursion with the limit that is left,
after the actions and errors that it had before. -/
theorem result_recovering {r : Block × List ParseError}
    (h : EndsAfter (Loop.recovering limit) n l r) :
    r = (⟨l.actions ++ (l.parser.parseBlockRecovering (limit - l.errors.length)).result.1.actions⟩,
      l.errors ++ (l.parser.parseBlockRecovering (limit - l.errors.length)).result.2) := by
  induction h with
  | @now l r h =>
    rcases l.recovering_cases limit with ⟨hend, hl⟩ | ⟨hend, ⟨a, ha, hl⟩ | ⟨ha, hleft, hl⟩ |
      ⟨ha, hleft, hl⟩ | ⟨e, ha, hl⟩⟩ <;> rw [hl] at h <;> cases h
    · simp [parseBlockRecovering_of_atEnd hend]
    · simp [parseBlockRecovering_of_not_atEnd hend, ha, hleft, Loop.noRule]
    · simp [parseBlockRecovering_of_not_atEnd hend, ha]
  | @later n l l' r h _ ih =>
    rcases l.recovering_cases limit with ⟨hend, hl⟩ | ⟨hend, ⟨a, ha, hl⟩ | ⟨ha, hleft, hl⟩ |
      ⟨ha, hleft, hl⟩ | ⟨e, ha, hl⟩⟩ <;> rw [hl] at h <;> cases h
    · simp [ih, parseBlockRecovering_of_not_atEnd hend, ha, Loop.matched, Reply.after, Reply.map,
        Block.cons]
    · simp [ih, parseBlockRecovering_of_not_atEnd hend, ha, hleft, Loop.skipped, Loop.noRule,
        Reply.after, Reply.map, Nat.sub_sub]

end EndsAfter

/-- The strict loop of a parser ends with the parser's block or error. It makes no more iterations
that go on than there are tokens up to the end position, and fewer if it fails. -/
theorem exists_endsAfter_strict {p : Parser} (hp : Stands g ts p) :
    ∃ n, EndsAfter Loop.strict n (.start p) p.parseBlock.result ∧
      n ≤ endPosition ts - p.position ∧
      (∀ b, p.parseBlock.result = .ok b → b.actions.length ≤ n) ∧
      ∀ e, p.parseBlock.result = .error e → n + 1 ≤ endPosition ts - p.position := by
  obtain ⟨n, r, last, h, hlast, hstands, hgathered, hle⟩ :=
    exists_endsAfter (l := .start p) (fun _ _ => Loop.advances_of_strict) hp
  obtain ⟨hok, herror⟩ := Loop.strict_ends hlast
  obtain rfl : r = p.parseBlock.result := by
    rw [h.result_strict]
    cases hb : p.parseBlock.result <;> simp [Loop.start, hb, Except.map]
  rw [Loop.gathered_start, Nat.zero_add] at hgathered
  have hactions : last.actions.length ≤ last.gathered := Nat.le_add_right _ _
  have hle : p.position + n ≤ last.parser.position := hle
  have hposition := hstands.position_le
  refine ⟨n, h, by omega, fun b hb => ?_, fun e he => ?_⟩
  · rw [hok b hb]
    omega
  · have hlt := hstands.position_lt (herror e he)
    omega

/-- The recovering loop of a parser ends with the parser's block and errors. They are at least as
many as its iterations that go on, and no more than the tokens up to the end position. -/
theorem exists_endsAfter_recovering {p : Parser} (hp : Stands g ts p) (limit : Nat) :
    ∃ n, EndsAfter (Loop.recovering limit) n (.start p) (p.parseBlockRecovering limit).result ∧
      n ≤ (p.parseBlockRecovering limit).result.1.actions.length +
        (p.parseBlockRecovering limit).result.2.length ∧
      (p.parseBlockRecovering limit).result.1.actions.length +
        (p.parseBlockRecovering limit).result.2.length ≤ endPosition ts - p.position := by
  have hadvances (l l' : Loop) (h : l.recovering limit = .inl l') := Loop.advances_of_recovering h
  obtain ⟨n, r, last, h, hlast, hstands, hgathered, hle⟩ :=
    exists_endsAfter (l := .start p) hadvances hp
  obtain rfl : r = (p.parseBlockRecovering limit).result := by
    rw [h.result_recovering]
    simp [Loop.start]
  rw [Loop.gathered_start, Nat.zero_add] at hgathered
  have hle : p.position + n ≤ last.parser.position := hle
  rcases Loop.recovering_ends hlast with hcount | ⟨hend, hcount⟩
  · have hposition := hstands.position_le
    exact ⟨n, h, by omega, by omega⟩
  · have hlt := hstands.position_lt hend
    exact ⟨n, h, by omega, by omega⟩

end

/-- From wherever a parser stands after requests, its loops end. Each iteration that goes on moves
the parser on. The loop that ends at the first error makes no more of them than there are tokens up
to the first end of input, and fewer if it fails. With recovery, the actions and errors together are
at least as many as these iterations, and they are no more than those tokens. A parse of tokens is
the case of a parser that was asked for nothing before (`Parser.result_parseBlock_ofTokens`). -/
theorem loops_end (g : Grammar) (ts : List Placed) (past : List Request) :
    let p := (Parser.ofTokens g ts).afterRequests past
    let ahead := endPosition ts - p.position
    (∀ l l' : Loop, l.strict = .inl l' → l.parser.position < l'.parser.position) ∧
      (∀ limit, ∀ l l' : Loop, l.recovering limit = .inl l' →
        l.parser.position < l'.parser.position) ∧
      (∃ n, EndsAfter Loop.strict n (.start p) p.parseBlock.result ∧ n ≤ ahead ∧
        (∀ b, p.parseBlock.result = .ok b → b.actions.length ≤ n) ∧
        ∀ e, p.parseBlock.result = .error e → n + 1 ≤ ahead) ∧
      ∀ limit, ∃ n,
        EndsAfter (Loop.recovering limit) n (.start p) (p.parseBlockRecovering limit).result ∧
        n ≤ (p.parseBlockRecovering limit).result.1.actions.length +
          (p.parseBlockRecovering limit).result.2.length ∧
        (p.parseBlockRecovering limit).result.1.actions.length +
          (p.parseBlockRecovering limit).result.2.length ≤ ahead := by
  intro p ahead
  have hp : Parser.Stands g ts p := (Parser.Stands.ofTokens g ts).afterRequests past
  exact ⟨fun _ _ h => (Loop.advances_of_strict h).position_lt,
    fun _ _ _ h => (Loop.advances_of_recovering h).position_lt,
    exists_endsAfter_strict hp, exists_endsAfter_recovering hp⟩

end CommandScript
