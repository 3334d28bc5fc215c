import CommandScript.Proofs.Simulation

/-!
# Grammars that choose alike

A run keeps little of an attempt: its outcome and, where no rule matches, the name of the rule
that got furthest. Two grammars choose alike (`SameChoices`) if they agree on these at every
cursor. Then a run with the one is a run with the other, at the same cursors and with nothing
changed (`SameChoices.simulation`), and strict and recovering parses cannot tell the two apart
(`SameChoices.parse_eq`, `SameChoices.parseRecovering_eq`), whatever else the attempts report.
-/

namespace CommandScript

/-- At every cursor, attempts with the two grammars end in the same way, and the same rule got
furthest. -/
def SameChoices (g g' : Grammar) : Prop :=
  ∀ c, (attempt c g.rules).outcome = (attempt c g'.rules).outcome ∧
    Miss.closest (attempt c g.rules).misses = Miss.closest (attempt c g'.rules).misses

namespace SameChoices

variable {g g' : Grammar}

theorem simulation (h : SameChoices g g') : Simulation g g' Eq id id where
  atEnd hc := hc ▸ rfl
  advance hc := hc ▸ rfl
  matched := by
    rintro c _ a d rfl - ho
    exact ⟨d, (h c).1 ▸ ho, rfl⟩
  malformed := by
    rintro c _ d rfl - ho
    exact ⟨d, (h c).1 ▸ ho, rfl⟩
  unmatched := by
    rintro c _ rfl - ho
    refine ⟨(h c).1 ▸ ho, ?_⟩
    rw [noRuleAt, ← (h c).2, ← noRuleAt, id]

theorem parse_eq (h : SameChoices g g') (ts : List Placed) : parse g ts = parse g' ts :=
  (h.simulation.parse_same rfl).symm

theorem parseRecovering_eq (h : SameChoices g g') (n : Nat) (ts : List Placed) :
    parseRecovering g n ts = parseRecovering g' n ts :=
  (h.simulation.parseRecovering_same rfl n).symm

end SameChoices

end CommandScript
