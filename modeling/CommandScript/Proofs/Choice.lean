import CommandScript.Proofs.Fitting

/-!
# Which rule is taken

A rule is taken at a position (`TakenAt`) if it is the first to match there and no rule before it
stumbles. A position is blocked (`BlockedAt`) if a rule stumbles before any rule matches. A rule
that neither matches nor stumbles is passed over. So a position has a taken rule, or it is
blocked, or every rule is passed over (`taken_or_blocked_or_passed`), and the outcome of an
attempt says which (`outcome_of_takenAt`, `outcome_of_blockedAt`, `outcome_of_passed`).
-/

namespace CommandScript

/-! ## A rule at a position -/

namespace Rule

/-- A rule matches at a position if it has elements and they fit from there on. -/
def MatchesAt (r : Rule) (ts : List Placed) (p : Nat) : Prop :=
  r.elements ≠ [] ∧ FitFrom ts p r.elements

/-- A rule stumbles at a position if its elements do, after some of them. -/
def StumblesAt (r : Rule) (ts : List Placed) (p : Nat) : Prop :=
  ∃ j, StumbleAfter ts p r.elements j

/-- A rule is passed over at a position if it neither matches nor stumbles there. -/
def PassedAt (r : Rule) (ts : List Placed) (p : Nat) : Prop :=
  ¬r.MatchesAt ts p ∧ ¬r.StumblesAt ts p

/-- The action of a rule that matches at a position: its name, the values its elements bind from
there on, and the line of the token there. -/
def actionAt (r : Rule) (ts : List Placed) (p : Nat) : Action :=
  ⟨r.name, .ofList (bindings ts p r.elements), (tokenAt ts p).line⟩

variable {r : Rule} {ts : List Placed} {p : Nat}

theorem matchAt_eq_matched_iff {a : Arguments} {c : Cursor} :
    r.matchAt (cursorAt ts p) = .matched a c ↔
      r.MatchesAt ts p ∧ a = .ofList (bindings ts p r.elements) ∧
        c = cursorAt ts (p + r.elements.length) := by
  by_cases he : r.elements = []
  · simp [matchAt, MatchesAt, he]
  · simp [matchAt, MatchesAt, he, matchElements_eq_matched_iff, Arguments.ofList]

theorem matchAt_eq_malformed_iff {c : Cursor} :
    r.matchAt (cursorAt ts p) = .malformed c ↔
      ∃ j, StumbleAfter ts p r.elements j ∧ c = cursorAt ts (p + j) := by
  by_cases he : r.elements = []
  · simp [matchAt, he, not_stumbleAfter_nil]
  · simp [matchAt, he, matchElements_eq_malformed_iff]

/-- A rule that is passed over misses, or has no elements. -/
theorem matchAt_of_passedAt (h : r.PassedAt ts p) :
    (∃ d e t, r.matchAt (cursorAt ts p) = .missed d e t) ∨
      r.matchAt (cursorAt ts p) = .never := by
  cases hm : r.matchAt (cursorAt ts p) with
  | matched a c => exact absurd (matchAt_eq_matched_iff.mp hm).1 h.1
  | missed d e t => exact Or.inl ⟨d, e, t, rfl⟩
  | malformed c =>
    obtain ⟨j, hj, -⟩ := matchAt_eq_malformed_iff.mp hm
    exact absurd ⟨j, hj⟩ h.2
  | never => exact Or.inr rfl

end Rule

/-! ## The rules at a position -/

/-- `r` is the first of the rules to match at a position, and none before it stumbles there. -/
def TakenAt (rules : List Rule) (ts : List Placed) (p : Nat) (r : Rule) : Prop :=
  ∃ earlier later, rules = earlier ++ r :: later ∧ r.MatchesAt ts p ∧
    ∀ e ∈ earlier, e.PassedAt ts p

/-- Some rule stumbles at a position after `j` of its elements, and the rules before it are passed
over there. -/
def BlockedAt (rules : List Rule) (ts : List Placed) (p j : Nat) : Prop :=
  ∃ earlier r later, rules = earlier ++ r :: later ∧ StumbleAfter ts p r.elements j ∧
    ∀ e ∈ earlier, e.PassedAt ts p

variable {rules : List Rule} {ts : List Placed} {p : Nat}

/-- A rule that is taken has elements. -/
theorem TakenAt.length_pos {r : Rule} (h : TakenAt rules ts p r) : 0 < r.elements.length := by
  obtain ⟨earlier, later, -, hm, -⟩ := h
  exact List.length_pos_iff.mpr hm.1

/-- Where a position is blocked, the token stumbled over is a bad number before the end. -/
theorem BlockedAt.isBadNumber {j : Nat} (h : BlockedAt rules ts p j) :
    p + j < endPosition ts ∧ (tokenAt ts (p + j)).token.IsBadNumber := by
  obtain ⟨earlier, r, later, -, ⟨hj, -, hs⟩, -⟩ := h
  have hbad : (tokenAt ts (p + j)).token.IsBadNumber := by
    cases he : r.elements[j] with
    | keyword text =>
      rw [he] at hs
      cases hs
    | argument name =>
      rw [he] at hs
      exact hs
  refine ⟨Nat.lt_of_not_le fun hle => ?_, hbad⟩
  have hend : (tokenAt ts (p + j)).token.kind = .eof := by
    simpa [Placed.isEnd, Token.isEnd] using (isEnd_tokenAt_iff ts (p + j)).mpr hle
  rw [hbad.1] at hend
  cases hend

/-- A rule that is passed over leaves the choice to the rules after it. -/
theorem taken_or_blocked_or_passed (rules : List Rule) (ts : List Placed) (p : Nat) :
    (∃ r, TakenAt rules ts p r) ∨ (∃ j, BlockedAt rules ts p j) ∨
      ∀ r ∈ rules, r.PassedAt ts p := by
  induction rules with
  | nil => exact Or.inr (Or.inr fun r hr => absurd hr List.not_mem_nil)
  | cons r rs ih =>
    by_cases hm : r.MatchesAt ts p
    · exact Or.inl ⟨r, [], rs, rfl, hm, fun e he => absurd he List.not_mem_nil⟩
    by_cases hs : r.StumblesAt ts p
    · obtain ⟨j, hj⟩ := hs
      exact Or.inr (Or.inl ⟨j, [], r, rs, rfl, hj, fun e he => absurd he List.not_mem_nil⟩)
    have hr : r.PassedAt ts p := ⟨hm, hs⟩
    rcases ih with ⟨r', earlier, later, rfl, hr', he⟩ | ⟨j, earlier, r', later, rfl, hj, he⟩ | hall
    · exact Or.inl ⟨r', r :: earlier, later, rfl, hr', List.forall_mem_cons.mpr ⟨hr, he⟩⟩
    · exact Or.inr (Or.inl ⟨j, r :: earlier, r', later, rfl, hj,
        List.forall_mem_cons.mpr ⟨hr, he⟩⟩)
    · exact Or.inr (Or.inr (List.forall_mem_cons.mpr ⟨hr, hall⟩))

/-- Rules that are passed over do not change the outcome of an attempt. -/
theorem outcome_append_of_passed {earlier : List Rule} (h : ∀ e ∈ earlier, e.PassedAt ts p)
    (later : List Rule) :
    (attempt (cursorAt ts p) (earlier ++ later)).outcome =
      (attempt (cursorAt ts p) later).outcome := by
  induction earlier with
  | nil => rfl
  | cons e es ih =>
    obtain ⟨he, hes⟩ := List.forall_mem_cons.mp h
    rcases Rule.matchAt_of_passedAt he with ⟨d, el, t, hm⟩ | hm
    · rw [List.cons_append, attempt, hm]
      exact ih hes
    · rw [List.cons_append, attempt, hm]
      exact ih hes

theorem outcome_of_takenAt {r : Rule} (h : TakenAt rules ts p r) :
    (attempt (cursorAt ts p) rules).outcome =
      .matched (r.actionAt ts p) (cursorAt ts (p + r.elements.length)) := by
  obtain ⟨earlier, later, rfl, hr, he⟩ := h
  rw [outcome_append_of_passed he, attempt, Rule.matchAt_eq_matched_iff.mpr ⟨hr, rfl, rfl⟩,
    line_cursorAt]
  rfl

theorem outcome_of_blockedAt {j : Nat} (h : BlockedAt rules ts p j) :
    (attempt (cursorAt ts p) rules).outcome = .malformed (cursorAt ts (p + j)) := by
  obtain ⟨earlier, r, later, rfl, hr, he⟩ := h
  rw [outcome_append_of_passed he, attempt, Rule.matchAt_eq_malformed_iff.mpr ⟨j, hr, rfl⟩]

theorem outcome_of_passed (h : ∀ r ∈ rules, r.PassedAt ts p) :
    (attempt (cursorAt ts p) rules).outcome = .unmatched := by
  have happend := outcome_append_of_passed h []
  rw [List.append_nil] at happend
  rw [happend, attempt]

/-- Where no rule matches, every rule is passed over. -/
theorem passed_of_unmatched (h : (attempt (cursorAt ts p) rules).outcome = .unmatched) :
    ∀ r ∈ rules, r.PassedAt ts p := by
  rcases taken_or_blocked_or_passed rules ts p with ⟨r, hr⟩ | ⟨j, hj⟩ | hall
  · rw [outcome_of_takenAt hr] at h
    cases h
  · rw [outcome_of_blockedAt hj] at h
    cases h
  · exact hall

end CommandScript
