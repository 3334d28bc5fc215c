import CommandScript.Proofs.Simulation

/-!
# The same tokens elsewhere

Matching looks at the kinds and the texts of tokens. Their lines and positions it only copies, into
actions and errors. A relocation (`IsRelocation`) takes every cursor to one that reads the same
tokens from there on, at other positions and on other lines. Attempts at the two cursors miss the
same rules and end in the same way (`attempt_relocated`). So the runs from them give the same
actions and errors, but for the lines and positions in these (`IsRelocation.simulation`).
-/

namespace CommandScript

/-- A change of cursors that keeps the tokens they read. Before the end of input it takes the line
and the position of a cursor to those that `line` and `position` say. -/
structure IsRelocation (m : Cursor → Cursor) (line position : Nat → Nat) : Prop where
  peek_eq : ∀ c, (m c).peek = c.peek
  advance_eq : ∀ c, (m c).advance = m c.advance
  line_eq : ∀ c, c.atEnd = false → (m c).line = line c.line
  position_eq : ∀ c, c.atEnd = false → (m c).position = position c.position

/-! ## What a relocation changes -/

/-- An action with its line changed. -/
def Action.relocate (line : Nat → Nat) (a : Action) : Action :=
  { a with line := line a.line }

/-- An error with its line and its position changed. -/
def ParseError.relocate (line position : Nat → Nat) : ParseError → ParseError
  | noRule found p l closest => .noRule found (position p) (line l) closest
  | expected wanted found p l => .expected wanted found (position p) (line l)
  | invalidNumber text p l => .invalidNumber text (position p) (line l)

/-- The end of a match with its cursor changed. -/
def Match.relocate (m : Cursor → Cursor) : Match → Match
  | matched a c => .matched a (m c)
  | missed depth element found => .missed depth element found
  | malformed c => .malformed (m c)
  | never => .never

/-- The end of an attempt with its line and its cursor changed. -/
def Outcome.relocate (m : Cursor → Cursor) (line : Nat → Nat) : Outcome → Outcome
  | matched a c => .matched (a.relocate line) (m c)
  | malformed c => .malformed (m c)
  | unmatched => .unmatched

/-! ## A malformed number is no end of input -/

theorem Token.isEnd_of_malformed {t : Token} (h : t.reading = .malformed) : t.isEnd = false := by
  obtain ⟨k, text⟩ := t
  cases k <;> first | rfl | cases h

theorem Cursor.atEnd_of_malformed {c : Cursor} (h : c.peek.reading = .malformed) :
    c.atEnd = false :=
  Token.isEnd_of_malformed h

theorem matchElements_malformed {es : List Element} {depth : Nat} {a : Arguments} {c d : Cursor}
    (h : matchElements es depth a c = .malformed d) : d.peek.reading = .malformed := by
  induction es generalizing depth a c with
  | nil => cases h
  | cons e es ih =>
    cases e with
    | keyword text =>
      rw [matchElements] at h
      split at h
      · exact ih h
      · cases h
    | argument name =>
      rw [matchElements] at h
      split at h
      · exact ih h
      · next hr =>
        cases h
        exact hr
      · cases h

theorem attempt_malformed {rules : List Rule} {c d : Cursor}
    (h : (attempt c rules).outcome = .malformed d) : d.peek.reading = .malformed := by
  induction rules with
  | nil => cases h
  | cons r rs ih =>
    rw [attempt] at h
    split at h
    · cases h
    · next hm =>
      cases h
      rw [Rule.matchAt] at hm
      split at hm
      · cases hm
      · exact matchElements_malformed hm
    · exact ih h
    · exact ih h

/-! ## Attempts and runs -/

section

variable {m : Cursor → Cursor} {line position : Nat → Nat}

theorem matchElements_relocated (h : IsRelocation m line position) (es : List Element)
    (depth : Nat) (a : Arguments) (c : Cursor) :
    matchElements es depth a (m c) = (matchElements es depth a c).relocate m := by
  induction es generalizing depth a c with
  | nil => rfl
  | cons e es ih =>
    cases e with
    | keyword text =>
      rw [matchElements, matchElements, h.peek_eq, h.advance_eq]
      split
      · exact ih _ _ _
      · rfl
    | argument name =>
      rw [matchElements, matchElements, h.peek_eq, h.advance_eq]
      split
      · exact ih _ _ _
      · rfl
      · rfl

theorem Rule.matchAt_relocated (h : IsRelocation m line position) (r : Rule) (c : Cursor) :
    r.matchAt (m c) = (r.matchAt c).relocate m := by
  rw [matchAt, matchAt]
  split
  · rfl
  · exact matchElements_relocated h _ _ _ _

/-- Before the end of input, an attempt elsewhere misses the same rules and ends in the same way. -/
theorem attempt_relocated (h : IsRelocation m line position) {c : Cursor} (hc : c.atEnd = false)
    (rules : List Rule) : attempt (m c) rules =
      ⟨(attempt c rules).misses, (attempt c rules).outcome.relocate m line⟩ := by
  induction rules with
  | nil => rfl
  | cons r rs ih =>
    rw [attempt, attempt, r.matchAt_relocated h]
    cases r.matchAt c with
    | matched a d => simp [Match.relocate, Outcome.relocate, Action.relocate, h.line_eq c hc]
    | malformed d => rfl
    | missed depth element found => simp [Match.relocate, ih]
    | never => exact ih

namespace IsRelocation

theorem noRuleAt_eq (h : IsRelocation m line position) {c : Cursor} (hc : c.atEnd = false)
    (misses : List Miss) :
    noRuleAt (m c) misses = (noRuleAt c misses).relocate line position := by
  rw [noRuleAt, h.peek_eq, h.line_eq c hc, h.position_eq c hc]
  rfl

theorem malformedAt_eq (h : IsRelocation m line position) {c : Cursor} (hc : c.atEnd = false) :
    malformedAt (m c) = (malformedAt c).relocate line position := by
  rw [malformedAt, h.peek_eq, h.line_eq c hc, h.position_eq c hc]
  rfl

/-- Runs from a cursor and from where a relocation takes it go alike. -/
theorem simulation (h : IsRelocation m line position) (g : Grammar) :
    Simulation g g (fun c c' => c' = m c) (Action.relocate line)
      (ParseError.relocate line position) where
  atEnd := by
    rintro c _ rfl
    exact congrArg Token.isEnd (h.peek_eq c)
  advance := by
    rintro c _ rfl
    exact h.advance_eq c
  matched := by
    rintro c _ a d rfl hc ho
    exact ⟨m d, by rw [attempt_relocated h hc, ho]; rfl, rfl⟩
  malformed := by
    rintro c _ d rfl hc ho
    have hd : d.atEnd = false := Cursor.atEnd_of_malformed (attempt_malformed ho)
    exact ⟨m d, by rw [attempt_relocated h hc, ho]; rfl, h.malformedAt_eq hd⟩
  unmatched := by
    rintro c _ rfl hc ho
    rw [attempt_relocated h hc, ho]
    exact ⟨rfl, h.noRuleAt_eq hc _⟩

end IsRelocation

end

/-! ## The same tokens at later positions -/

/-- A cursor before the same tokens, `k` positions later. -/
def Cursor.shift (k : Nat) (c : Cursor) : Cursor :=
  ⟨c.position + k, c.rest⟩

theorem Cursor.advance_shift (k : Nat) (c : Cursor) : (c.shift k).advance = c.advance.shift k := by
  obtain ⟨p, rest⟩ := c
  cases rest with
  | nil => rfl
  | cons t rest =>
    simp only [shift, advance]
    split
    · rfl
    · rw [Nat.add_right_comm]

theorem isRelocation_shift (k : Nat) : IsRelocation (Cursor.shift k) id (· + k) where
  peek_eq _ := rfl
  advance_eq := Cursor.advance_shift k
  line_eq _ _ := rfl
  position_eq _ _ := rfl

end CommandScript
