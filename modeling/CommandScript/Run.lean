import CommandScript.Log
import CommandScript.Matching

/-!
# Reading a script

A `Run` makes an attempt at each place it comes to. Where a rule matches it goes on after the
match. A strict run (`strictRun`) ends at the first place where none does. A recovering run
(`run`) records an error there and goes on one token further, until it has recorded as many
errors as it may; a malformed number ends it at once. `parse` fails with the error of a strict
run, `parseRecovering` gives the actions and the errors of a recovering one. Both keep no memory
of an attempt in the next.
-/

namespace CommandScript

/-- What happened at one place of a run, after the rules that failed there. -/
inductive Step
  /-- A rule matched. -/
  | matched (misses : List Miss) (action : Action)
  /-- No rule matches. -/
  | unmatched (misses : List Miss) (error : ParseError)
  /-- A number token was malformed. -/
  | malformed (misses : List Miss) (error : ParseError)
  deriving Repr

namespace Step

/-- The rules that failed at the place. -/
def misses : Step → List Miss
  | matched ms _ => ms
  | unmatched ms _ => ms
  | malformed ms _ => ms

/-- The action of a match. -/
def action? : Step → Option Action
  | matched _ a => some a
  | _ => none

/-- The error of a place without a match. -/
def error? : Step → Option ParseError
  | matched .. => none
  | unmatched _ e => some e
  | malformed _ e => some e

end Step

/-- The steps of a run and the cursor it ended at. -/
structure Run where
  steps : List Step
  cursor : Cursor
  deriving Repr

namespace Run

/-- A run with one more step before it. -/
def cons (s : Step) (r : Run) : Run :=
  ⟨s :: r.steps, r.cursor⟩

/-- The actions of a run. -/
def block (r : Run) : Block :=
  ⟨r.steps.filterMap Step.action?⟩

/-- The errors of a run. -/
def errors (r : Run) : List ParseError :=
  r.steps.filterMap Step.error?

theorem actions_block_cons (s : Step) (r : Run) :
    (r.cons s).block.actions = s.action?.toList ++ r.block.actions := by
  cases h : s.action? <;> simp [cons, block, h]

theorem errors_cons (s : Step) (r : Run) : (r.cons s).errors = s.error?.toList ++ r.errors := by
  cases h : s.error? <;> simp [cons, errors, h]

end Run

/-- The error that no rule matches at a cursor. -/
def noRuleAt (c : Cursor) (misses : List Miss) : ParseError :=
  .noRule c.peek c.position c.line (Miss.closest misses)

/-- The error that the number token at a cursor is malformed. -/
def malformedAt (c : Cursor) : ParseError :=
  .invalidNumber c.peek.text c.position c.line

/-- Read tokens from a cursor to the end of input or the first error. -/
def strictRun (g : Grammar) (c : Cursor) : Run :=
  if c.atEnd then ⟨[], c⟩
  else
    let tried := attempt c g.rules
    match _ho : tried.outcome with
    | .matched action c' => (strictRun g c').cons (.matched tried.misses action)
    | .malformed c' => ⟨[.malformed tried.misses (malformedAt c')], c'⟩
    | .unmatched => ⟨[.unmatched tried.misses (noRuleAt c tried.misses)], c⟩
termination_by c.rest.length
decreasing_by exact length_rest_of_matched (Bool.eq_false_iff.mpr ‹_›) ‹_ = Outcome.matched ..›

/-- Read tokens from a cursor to the end of input, but no further than the error number `limit`.
The first error is always recorded. -/
def run (g : Grammar) (limit : Nat) (c : Cursor) : Run :=
  if c.atEnd then ⟨[], c⟩
  else
    let tried := attempt c g.rules
    match ho : tried.outcome with
    | .matched action c' => (run g limit c').cons (.matched tried.misses action)
    | .malformed c' => ⟨[.malformed tried.misses (malformedAt c')], c'⟩
    | .unmatched =>
      let step := Step.unmatched tried.misses (noRuleAt c tried.misses)
      if limit ≤ 1 then ⟨[step], c⟩ else (run g (limit - 1) c.advance).cons step
termination_by c.rest.length
decreasing_by
  · exact length_rest_of_matched (Bool.eq_false_iff.mpr ‹_›) ho
  · exact Cursor.length_rest_advance_lt (Bool.eq_false_iff.mpr ‹_›)

theorem strictRun_of_atEnd {g : Grammar} {c : Cursor} (hc : c.atEnd = true) :
    strictRun g c = ⟨[], c⟩ := by
  rw [strictRun, if_pos hc]

theorem strictRun_of_not_atEnd {g : Grammar} {c : Cursor} (hc : c.atEnd = false) :
    strictRun g c =
      match (attempt c g.rules).outcome with
      | .matched a c' => (strictRun g c').cons (.matched (attempt c g.rules).misses a)
      | .malformed c' => ⟨[.malformed (attempt c g.rules).misses (malformedAt c')], c'⟩
      | .unmatched => ⟨[.unmatched (attempt c g.rules).misses
          (noRuleAt c (attempt c g.rules).misses)], c⟩ := by
  rw [strictRun, if_neg (Bool.eq_false_iff.mp hc)]
  dsimp only
  split <;> simp_all

theorem run_of_atEnd {g : Grammar} {n : Nat} {c : Cursor} (hc : c.atEnd = true) :
    run g n c = ⟨[], c⟩ := by
  rw [run, if_pos hc]

theorem run_of_not_atEnd {g : Grammar} {n : Nat} {c : Cursor} (hc : c.atEnd = false) :
    run g n c =
      match (attempt c g.rules).outcome with
      | .matched a c' => (run g n c').cons (.matched (attempt c g.rules).misses a)
      | .malformed c' => ⟨[.malformed (attempt c g.rules).misses (malformedAt c')], c'⟩
      | .unmatched =>
        let step := Step.unmatched (attempt c g.rules).misses
          (noRuleAt c (attempt c g.rules).misses)
        if n ≤ 1 then ⟨[step], c⟩ else (run g (n - 1) c.advance).cons step := by
  rw [run, if_neg (Bool.eq_false_iff.mp hc)]
  dsimp only
  split <;> simp_all

section

variable {g : Grammar} {n : Nat} {c d : Cursor} (hc : c.atEnd = false)

include hc

/-- Where a rule matches, a run goes on after the match. -/
theorem run_of_matched {a : Action} (ho : (attempt c g.rules).outcome = .matched a d) :
    run g n c = (run g n d).cons (.matched (attempt c g.rules).misses a) := by
  rw [run_of_not_atEnd hc, ho]

/-- A malformed number ends a run. -/
theorem run_of_malformed (ho : (attempt c g.rules).outcome = .malformed d) :
    run g n c = ⟨[.malformed (attempt c g.rules).misses (malformedAt d)], d⟩ := by
  rw [run_of_not_atEnd hc, ho]

/-- Where no rule matches, a run that may record one error ends. -/
theorem run_of_unmatched_of_le (ho : (attempt c g.rules).outcome = .unmatched) (hn : n ≤ 1) :
    run g n c = ⟨[.unmatched (attempt c g.rules).misses
      (noRuleAt c (attempt c g.rules).misses)], c⟩ := by
  rw [run_of_not_atEnd hc, ho]
  exact if_pos hn

/-- Where no rule matches, a run that may record more errors goes on one token further. -/
theorem run_of_unmatched (ho : (attempt c g.rules).outcome = .unmatched) (hn : ¬n ≤ 1) :
    run g n c = (run g (n - 1) c.advance).cons
      (.unmatched (attempt c g.rules).misses (noRuleAt c (attempt c g.rules).misses)) := by
  rw [run_of_not_atEnd hc, ho]
  exact if_neg hn

end

/-- Induction along a recovering run, by what happens at each place it comes to. -/
theorem run_induction {g : Grammar} {motive : Nat → Cursor → Prop}
    (atEnd : ∀ n c, c.atEnd = true → motive n c)
    (matched : ∀ n c a d, c.atEnd = false → (attempt c g.rules).outcome = .matched a d →
      motive n d → motive n c)
    (malformed : ∀ n c d, c.atEnd = false → (attempt c g.rules).outcome = .malformed d →
      motive n c)
    (stopped : ∀ n c, c.atEnd = false → (attempt c g.rules).outcome = .unmatched → n ≤ 1 →
      motive n c)
    (skipped : ∀ n c, c.atEnd = false → (attempt c g.rules).outcome = .unmatched → ¬n ≤ 1 →
      motive (n - 1) c.advance → motive n c)
    (n : Nat) (c : Cursor) : motive n c := by
  induction n, c using run.induct (g := g) with
  | case1 n c hc => exact atEnd n c hc
  | case2 n c hc tried a d ho ih => exact matched n c a d (Bool.eq_false_iff.mpr hc) ho ih
  | case3 n c hc tried d ho => exact malformed n c d (Bool.eq_false_iff.mpr hc) ho
  | case4 n c hc tried ho hn => exact stopped n c (Bool.eq_false_iff.mpr hc) ho hn
  | case5 n c hc tried ho hn ih => exact skipped n c (Bool.eq_false_iff.mpr hc) ho hn ih

/-- The most errors that a recovering parse records if nothing else is asked for. -/
def defaultErrorLimit : Nat := 10

/-- The result of a strict run: the actions, or the error. -/
def Run.result (r : Run) : Except ParseError Block :=
  match r.errors with
  | [] => .ok r.block
  | e :: _ => .error e

theorem Run.result_eq_ok_iff {r : Run} {b : Block} :
    r.result = .ok b ↔ r.errors = [] ∧ r.block = b := by
  unfold result
  split <;> simp_all

theorem Run.result_eq_error_iff {r : Run} {e : ParseError} :
    r.result = .error e ↔ r.errors.head? = some e := by
  unfold result
  split <;> simp_all

/-- Read tokens up to the first error. -/
def parse (g : Grammar) (tokens : List Placed) : Except ParseError Block :=
  (strictRun g ⟨0, tokens⟩).result

/-- Read tokens with at most `limit` errors, but the first one in any case. -/
def parseRecovering (g : Grammar) (limit : Nat) (tokens : List Placed) :
    Block × List ParseError :=
  let r := run g limit ⟨0, tokens⟩
  (r.block, r.errors)

/-- Read a text up to the first error. -/
def parseSource (g : Grammar) (source : String) : Except ParseError Block :=
  parse g (lex source).tokens

/-! ## The log of a run -/

/-- The report of a rule that failed. -/
def Miss.record (m : Miss) : LogRecord :=
  ⟨.trace, m.message⟩

/-- The report of a match. -/
def Action.record (a : Action) : LogRecord :=
  ⟨.debug, "matched rule '" ++ a.name ++ "' at line " ++ toString a.line⟩

/-- The reports of a step; only a recovering parse speaks of a place without a match. -/
def Step.log (recovering : Bool) (s : Step) : List LogRecord :=
  s.misses.map Miss.record ++
    match s with
    | .matched _ a => [a.record]
    | .unmatched _ e => if recovering then [⟨.debug, "recovering: " ++ e.message⟩] else []
    | .malformed .. => []

/-- The reports of a run. -/
def Run.log (recovering : Bool) (r : Run) : List LogRecord :=
  r.steps.flatMap (Step.log recovering)

end CommandScript
