import CommandScript.Proofs.FirstError

/-!
# Runs that go alike

A run keeps little of an attempt: an action and the cursor after it, or an error. So two runs go
alike if they do so place by place. A `Simulation` ties cursors of one run to cursors of another,
whose grammar may be another one. At cursors that are tied, the runs are both over, or the attempts
end in the same way, with actions and errors that differ only by a fixed change, and the runs go on
at cursors that are tied again. Then the other run gives the same actions and errors as the first,
all changed in this way (`Simulation.run_eq`), and so do the parses (`Simulation.parse_eq`,
`Simulation.parseRecovering_eq`). A strict parse needs no induction of its own, since it is the
recovering one with a limit of one error (`parse_eq_result_run_one`).
-/

namespace CommandScript

/-- A strict parse is a recovering one that may record one error. -/
theorem parse_eq_result_run_one (g : Grammar) (ts : List Placed) :
    parse g ts = (run g 1 ⟨0, ts⟩).result := by
  rw [parse, strictRun_eq_run_one]

/-- A block with its actions changed. -/
def Block.map (f : Action → Action) (b : Block) : Block :=
  ⟨b.actions.map f⟩

/-- The result of a strict parse with its actions and its error changed. -/
def mapResult (f : Action → Action) (e : ParseError → ParseError) :
    Except ParseError Block → Except ParseError Block
  | .ok b => .ok (b.map f)
  | .error err => .error (e err)

theorem mapResult_id (r : Except ParseError Block) : mapResult id id r = r := by
  cases r with
  | ok b => simp [mapResult, Block.map]
  | error e => rfl

/-- What attempts at tied cursors have in common: the second ends as the first does, with the action
changed by `f` or the error changed by `e`, and the runs go on at cursors that are tied. A run makes
no attempt at an end of input, so nothing is asked of attempts there. -/
structure Simulation (g g' : Grammar) (tied : Cursor → Cursor → Prop) (f : Action → Action)
    (e : ParseError → ParseError) : Prop where
  atEnd : ∀ {c c'}, tied c c' → c'.atEnd = c.atEnd
  advance : ∀ {c c'}, tied c c' → tied c.advance c'.advance
  matched : ∀ {c c' a d}, tied c c' → c.atEnd = false →
    (attempt c g.rules).outcome = .matched a d →
    ∃ d', (attempt c' g'.rules).outcome = .matched (f a) d' ∧ tied d d'
  malformed : ∀ {c c' d}, tied c c' → c.atEnd = false →
    (attempt c g.rules).outcome = .malformed d →
    ∃ d', (attempt c' g'.rules).outcome = .malformed d' ∧ malformedAt d' = e (malformedAt d)
  unmatched : ∀ {c c'}, tied c c' → c.atEnd = false →
    (attempt c g.rules).outcome = .unmatched →
    (attempt c' g'.rules).outcome = .unmatched ∧
      noRuleAt c' (attempt c' g'.rules).misses = e (noRuleAt c (attempt c g.rules).misses)

namespace Simulation

variable {g g' : Grammar} {tied : Cursor → Cursor → Prop} {f : Action → Action}
  {e : ParseError → ParseError}

/-- From tied cursors on, the other run gives the actions and errors of the first, changed. -/
theorem run_eq (h : Simulation g g' tied f e) (n : Nat) (c : Cursor) :
    ∀ c', tied c c' → (run g' n c').block.actions = (run g n c).block.actions.map f ∧
      (run g' n c').errors = (run g n c).errors.map e := by
  induction n, c using run_induction (g := g) with
  | atEnd n c hend =>
    intro c' hc
    rw [run_of_atEnd hend, run_of_atEnd ((h.atEnd hc).trans hend)]
    exact ⟨rfl, rfl⟩
  | matched n c a d hend ho ih =>
    intro c' hc
    obtain ⟨d', ho', hd⟩ := h.matched hc hend ho
    obtain ⟨hactions, herrors⟩ := ih d' hd
    rw [run_of_matched hend ho, run_of_matched ((h.atEnd hc).trans hend) ho']
    simp [Run.actions_block_cons, Run.errors_cons, Step.action?, Step.error?, hactions, herrors]
  | malformed n c d hend ho =>
    intro c' hc
    obtain ⟨d', ho', he⟩ := h.malformed hc hend ho
    rw [run_of_malformed hend ho, run_of_malformed ((h.atEnd hc).trans hend) ho']
    exact ⟨rfl, congrArg ([·]) he⟩
  | stopped n c hend ho hn =>
    intro c' hc
    obtain ⟨ho', he⟩ := h.unmatched hc hend ho
    rw [run_of_unmatched_of_le hend ho hn,
      run_of_unmatched_of_le ((h.atEnd hc).trans hend) ho' hn]
    exact ⟨rfl, congrArg ([·]) he⟩
  | skipped n c hend ho hn ih =>
    intro c' hc
    obtain ⟨ho', he⟩ := h.unmatched hc hend ho
    obtain ⟨hactions, herrors⟩ := ih c'.advance (h.advance hc)
    rw [run_of_unmatched hend ho hn, run_of_unmatched ((h.atEnd hc).trans hend) ho' hn]
    simp [Run.actions_block_cons, Run.errors_cons, Step.action?, Step.error?, hactions, herrors,
      he]

variable {ts ts' : List Placed}

/-- A strict parse from tied starts gives the same result, changed. -/
theorem parse_eq (h : Simulation g g' tied f e) (hts : tied ⟨0, ts⟩ ⟨0, ts'⟩) :
    parse g' ts' = mapResult f e (parse g ts) := by
  obtain ⟨hactions, herrors⟩ := h.run_eq 1 _ _ hts
  have hblock : (run g' 1 ⟨0, ts'⟩).block = (run g 1 ⟨0, ts⟩).block.map f :=
    congrArg Block.mk hactions
  rw [parse_eq_result_run_one, parse_eq_result_run_one, Run.result, Run.result, herrors, hblock]
  cases (run g 1 ⟨0, ts⟩).errors with
  | nil => rfl
  | cons err errs => rfl

/-- A recovering parse from tied starts gives the same block and the same errors, changed. -/
theorem parseRecovering_eq (h : Simulation g g' tied f e) (hts : tied ⟨0, ts⟩ ⟨0, ts'⟩) (n : Nat) :
    parseRecovering g' n ts' =
      ((parseRecovering g n ts).1.map f, (parseRecovering g n ts).2.map e) := by
  obtain ⟨hactions, herrors⟩ := h.run_eq n _ _ hts
  rw [parseRecovering, parseRecovering, herrors]
  exact congrArg (fun as => (Block.mk as, _)) hactions

/-! ### Nothing changed -/

theorem parse_same (h : Simulation g g' tied id id) (hts : tied ⟨0, ts⟩ ⟨0, ts'⟩) :
    parse g' ts' = parse g ts := by
  rw [h.parse_eq hts, mapResult_id]

theorem parseRecovering_same (h : Simulation g g' tied id id) (hts : tied ⟨0, ts⟩ ⟨0, ts'⟩)
    (n : Nat) : parseRecovering g' n ts' = parseRecovering g n ts := by
  rw [h.parseRecovering_eq hts n, Block.map, List.map_id, List.map_id]

end Simulation

end CommandScript
