import CommandScript.Action
import CommandScript.Grammar
import CommandScript.TokenStream

/-!
# Matching rules

`Rule.matchAt` matches the elements of a rule one by one with the tokens at a cursor. A rule
without elements never matches. An attempt at a place (`attempt`) tries the rules in order, each
from the same cursor, until one matches or meets a malformed number; it keeps a `Miss` for each
rule that failed before. An error names the rule that got furthest, and a miss that gets no
further than the best one so far leaves it in place (`Miss.further_of_le`). Off the end of input
a match takes at least one token (`length_rest_of_matched`).
-/

namespace CommandScript

/-- How matching a rule at a cursor ends. -/
inductive Match
  /-- Every element matched; the cursor stands after them. -/
  | matched (arguments : Arguments) (cursor : Cursor)
  /-- After `depth` elements had matched, `element` did not match the token `found`. -/
  | missed (depth : Nat) (element : Element) (found : Token)
  /-- An argument met a malformed number, at which the cursor stands. -/
  | malformed (cursor : Cursor)
  /-- The rule has no elements. -/
  | never
  deriving Repr

/-- Match elements with the tokens at a cursor, after `depth` others gave `arguments`. -/
def matchElements : List Element → Nat → Arguments → Cursor → Match
  | [], _, arguments, c => .matched arguments c
  | .keyword text :: es, depth, arguments, c =>
    if c.peek.text = text then matchElements es (depth + 1) arguments c.advance
    else .missed depth (.keyword text) c.peek
  | .argument name :: es, depth, arguments, c =>
    match c.peek.reading with
    | .value v => matchElements es (depth + 1) (arguments.insert name v) c.advance
    | .malformed => .malformed c
    | .unfit => .missed depth (.argument name) c.peek

/-- Match a rule with the tokens at a cursor. -/
def Rule.matchAt (r : Rule) (c : Cursor) : Match :=
  if r.elements.isEmpty then .never else matchElements r.elements 0 .empty c

/-- A rule that failed at a place, and how far it got. -/
structure Miss where
  rule : String
  depth : Nat
  element : Element
  found : Token
  deriving DecidableEq, Repr

namespace Miss

/-- The wording of a miss. -/
def message (m : Miss) : String :=
  "rule '" ++ m.rule ++ "' failed at element " ++ toString m.depth ++ " (" ++ m.element.word ++
    "), found " ++ m.found.listing

/-- Of two misses the one that got further, the earlier one if both got as far. A rule that failed
at its first element did not get anywhere. -/
def further (best : Option Miss) (m : Miss) : Option Miss :=
  match best with
  | none => if m.depth = 0 then none else some m
  | some b => if b.depth < m.depth then some m else some b

/-- The rule that got furthest, if any got past its first element. -/
def closest (misses : List Miss) : Option String :=
  (misses.foldl further none).map Miss.rule

end Miss

/-- How an attempt at a place ends. -/
inductive Outcome
  /-- A rule matched; the cursor stands after the match. -/
  | matched (action : Action) (cursor : Cursor)
  /-- A rule met a malformed number, at which the cursor stands. -/
  | malformed (cursor : Cursor)
  /-- No rule matches. -/
  | unmatched
  deriving Repr

/-- The rules that failed at a place, in order, and how the attempt ended. -/
structure Attempt where
  misses : List Miss
  outcome : Outcome
  deriving Repr

/-- Try rules in order at a cursor. -/
def attempt (c : Cursor) : List Rule → Attempt
  | [] => ⟨[], .unmatched⟩
  | r :: rs =>
    match r.matchAt c with
    | .matched arguments c' => ⟨[], .matched ⟨r.name, arguments, c.line⟩ c'⟩
    | .malformed c' => ⟨[], .malformed c'⟩
    | .missed depth element found =>
      let later := attempt c rs
      ⟨⟨r.name, depth, element, found⟩ :: later.misses, later.outcome⟩
    | .never => attempt c rs

/-- Where a match that started at `start` leaves the cursor: after the elements, or at a malformed
number, or where it started. -/
def Match.cursorFrom (start : Cursor) : Match → Cursor
  | matched _ c => c
  | malformed c => c
  | missed .. => start
  | never => start

/-- Where an attempt that started at `start` leaves the cursor. -/
def Outcome.cursorFrom (start : Cursor) : Outcome → Cursor
  | matched _ c => c
  | malformed c => c
  | unmatched => start

/-! ## The best miss -/

namespace Miss

/-- How many elements the best miss had matched, zero if no rule got past its first element. -/
def reach (best : Option Miss) : Nat :=
  best.elim 0 depth

/-- A miss that is within reach of the best one does not replace it. -/
theorem further_of_le {best : Option Miss} {m : Miss} (h : m.depth ≤ reach best) :
    further best m = best := by
  cases best with
  | none => exact if_pos (Nat.le_zero.mp h)
  | some b => exact if_neg (Nat.not_lt.mpr h)

/-- A miss beyond the reach of the best one replaces it. -/
theorem further_of_lt {best : Option Miss} {m : Miss} (h : reach best < m.depth) :
    further best m = some m := by
  cases best with
  | none => exact if_neg (Nat.ne_of_gt h)
  | some b => exact if_pos h

theorem reach_further (best : Option Miss) (m : Miss) :
    reach (further best m) = max (reach best) m.depth := by
  by_cases h : m.depth ≤ reach best
  · rw [further_of_le h]
    omega
  · rw [further_of_lt (Nat.lt_of_not_le h)]
    have hreach : reach (some m) = m.depth := rfl
    omega

end Miss

/-! ## Only rules without elements are not tried -/

theorem matchElements_ne_never (es : List Element) (depth : Nat) (a : Arguments) (c : Cursor) :
    matchElements es depth a c ≠ .never := by
  induction es generalizing depth a c with
  | nil => exact Match.noConfusion
  | cons e es ih =>
    cases e with
    | keyword text =>
      rw [matchElements]
      split
      · exact ih _ _ _
      · exact Match.noConfusion
    | argument name =>
      rw [matchElements]
      split
      · exact ih _ _ _
      · exact Match.noConfusion
      · exact Match.noConfusion

theorem Rule.matchAt_eq_never_iff {r : Rule} {c : Cursor} :
    r.matchAt c = .never ↔ r.elements = [] := by
  rw [matchAt]
  cases hes : r.elements with
  | nil => simp
  | cons el es => simp [matchElements_ne_never]

/-! ## Moves lead to where a match ends -/

theorem reaches_matchElements {start c : Cursor} (h : start.Reaches c) (es : List Element)
    (depth : Nat) (a : Arguments) :
    start.Reaches ((matchElements es depth a c).cursorFrom start) := by
  induction es generalizing depth a c with
  | nil => exact h
  | cons e es ih =>
    cases e with
    | keyword text =>
      rw [matchElements]
      split
      · exact ih h.advance _ _
      · exact .refl _
    | argument name =>
      rw [matchElements]
      split
      · exact ih h.advance _ _
      · exact h
      · exact .refl _

theorem Rule.reaches_matchAt (r : Rule) (c : Cursor) :
    c.Reaches ((r.matchAt c).cursorFrom c) := by
  rw [matchAt]
  split
  · exact .refl _
  · exact reaches_matchElements (.refl c) _ _ _

theorem reaches_attempt (c : Cursor) (rules : List Rule) :
    c.Reaches ((attempt c rules).outcome.cursorFrom c) := by
  induction rules with
  | nil => exact .refl _
  | cons r rs ih =>
    have hr := r.reaches_matchAt c
    rw [attempt]
    split
    · next hm =>
      rw [hm] at hr
      exact hr
    · next hm =>
      rw [hm] at hr
      exact hr
    · exact ih
    · exact ih

/-! ## A match takes a token -/

theorem length_rest_of_matchElements {es : List Element} {depth : Nat} {a a' : Arguments}
    {c c' : Cursor} (h : matchElements es depth a c = .matched a' c') :
    c'.rest.length ≤ c.rest.length := by
  induction es generalizing depth a c with
  | nil =>
    cases h
    exact Nat.le_refl _
  | cons e es ih =>
    cases e with
    | keyword text =>
      rw [matchElements] at h
      split at h
      · exact Nat.le_trans (ih h) c.length_rest_advance_le
      · cases h
    | argument name =>
      rw [matchElements] at h
      split at h
      · exact Nat.le_trans (ih h) c.length_rest_advance_le
      · cases h
      · cases h

theorem length_rest_of_matchAt {r : Rule} {a : Arguments} {c c' : Cursor}
    (hc : c.atEnd = false) (h : r.matchAt c = .matched a c') :
    c'.rest.length < c.rest.length := by
  obtain ⟨name, es⟩ := r
  cases es with
  | nil => cases h
  | cons e es =>
    have hlt := Cursor.length_rest_advance_lt hc
    cases e with
    | keyword text =>
      simp only [Rule.matchAt, List.isEmpty_cons, Bool.false_eq_true, if_false,
        matchElements] at h
      split at h
      · exact Nat.lt_of_le_of_lt (length_rest_of_matchElements h) hlt
      · cases h
    | argument name =>
      simp only [Rule.matchAt, List.isEmpty_cons, Bool.false_eq_true, if_false,
        matchElements] at h
      split at h
      · exact Nat.lt_of_le_of_lt (length_rest_of_matchElements h) hlt
      · cases h
      · cases h

/-- Off the end of input, the cursor after a match has fewer tokens before it. -/
theorem length_rest_of_matched {rs : List Rule} {a : Action} {c c' : Cursor}
    (hc : c.atEnd = false) (h : (attempt c rs).outcome = .matched a c') :
    c'.rest.length < c.rest.length := by
  induction rs with
  | nil => cases h
  | cons r rs ih =>
    rw [attempt] at h
    split at h
    · next hm =>
      cases h
      exact length_rest_of_matchAt hc hm
    · cases h
    · exact ih h
    · exact ih h

end CommandScript
