import CommandScript.Proofs.Recovery
import CommandScript.Proofs.Writing

/-!
# Rules that some text can use

A rule can be used if it has elements and none of its keywords holds both quotes
(`Rule.IsUsable`). A rule that matches somewhere in a text can be used, since no token has a text
that holds both quotes (`Rule.MatchesAt.isUsable`). Conversely a usable rule matches the text in
which its keywords are quoted and a value stands for each argument (`Rule.IsUsable.exists_parse`).
The warnings about a rule say whether it can be used (`Rule.isUsable_iff_warnings`). So they decide
which rules some text can use, and no parse takes a rule that they rule out
(`lint_decides_usable`).
-/

namespace CommandScript

/-- A rule can be used if it has elements, and no keyword that holds both quotes. -/
def Rule.IsUsable (r : Rule) : Prop :=
  r.elements ≠ [] ∧ ∀ k ∈ r.keywords, holdsBothQuotes k = false

/-- Whether a warning says that a rule never matches, whatever the other rules are. -/
def Warning.neverMatches : Warning → Bool
  | emptyRule _ => true
  | unmatchableKeyword .. => true
  | _ => false

/-- A rule is ruled out if it has no elements, or if there is a warning that one of its keywords is
unmatchable. -/
def Grammar.RulesOut (g : Grammar) (r : Rule) : Prop :=
  r.elements = [] ∨ ∃ k ∈ r.keywords, .unmatchableKeyword r.name k ∈ g.lint

/-! ## What the warnings say -/

section

variable {r : Rule} {earlier : List Rule}

theorem Rule.emptyRule_mem_warnings_iff {name : String} :
    .emptyRule name ∈ r.warnings earlier ↔ r.elements = [] ∧ name = r.name := by
  by_cases hr : r.elements = []
  · simp [warnings, hr]
  · have hkeywords : .emptyRule name ∉ r.keywords.filterMap r.keywordWarning? := by
      intro h
      obtain ⟨k, -, hk⟩ := List.mem_filterMap.mp h
      cases keyword?_of_keywordWarning? hk
    simp [warnings, hr, hkeywords]

/-- A rule can be used if no warning about it says that it never matches. -/
theorem Rule.isUsable_iff_warnings :
    r.IsUsable ↔ ∀ w ∈ r.warnings earlier, w.neverMatches = false := by
  constructor
  · rintro ⟨hne, hquotes⟩ w hw
    cases w with
    | emptyRule name => exact absurd (emptyRule_mem_warnings_iff.mp hw).1 hne
    | unmatchableKeyword name k =>
      obtain ⟨hk, -, hboth⟩ := unmatchableKeyword_mem_warnings_iff.mp hw
      rw [hquotes k hk] at hboth
      cases hboth
    | _ => rfl
  · intro h
    refine ⟨fun hnil => ?_, fun k hk => ?_⟩
    · cases h _ (emptyRule_mem_warnings_iff.mpr ⟨hnil, rfl⟩)
    · cases hboth : holdsBothQuotes k with
      | false => rfl
      | true => cases h _ (unmatchableKeyword_mem_warnings_iff.mpr ⟨hk, rfl, hboth⟩)

theorem Grammar.lint_singleton (r : Rule) : Grammar.lint ⟨[r]⟩ = r.warnings [] := by
  rw [lint, lintRules, lintRules, List.append_nil]

theorem Grammar.RulesOut.not_isUsable {g : Grammar} (h : g.RulesOut r) : ¬r.IsUsable := by
  rintro ⟨hne, hquotes⟩
  rcases h with hnil | ⟨k, hk, hlint⟩
  · exact hne hnil
  · obtain ⟨earlier, r', later, -, hw⟩ := mem_lint_iff.mp hlint
    obtain ⟨-, -, hboth⟩ := Rule.unmatchableKeyword_mem_warnings_iff.mp hw
    rw [hquotes k hk] at hboth
    cases hboth

end

/-! ## Rules that match are usable -/

theorem holdsBothQuotes_tokenAt (source : String) (p : Nat) :
    holdsBothQuotes (tokenAt (lex source).tokens p).token.text = false := by
  rcases tokenAt_mem_or_eq (lex source).tokens p with h | h
  · exact holdsBothQuotes_eq_false_of_mem h
  · rw [h]
    decide

/-- A rule that matches somewhere in a text can be used. -/
theorem Rule.MatchesAt.isUsable {r : Rule} {source : String} {p : Nat}
    (h : r.MatchesAt (lex source).tokens p) : r.IsUsable := by
  refine ⟨h.1, fun k hk => ?_⟩
  obtain ⟨j, hj, hget⟩ := List.mem_iff_getElem.mp (keyword_mem_elements_iff.mpr hk)
  have hfits := h.2 j hj
  rw [hget] at hfits
  have htext : (tokenAt (lex source).tokens (p + j)).token.text = k := hfits
  rw [← htext]
  exact holdsBothQuotes_tokenAt source (p + j)

/-- A rule that is taken somewhere in a text is not ruled out. -/
theorem TakenAt.not_rulesOut {g : Grammar} {r : Rule} {source : String} {p : Nat}
    (h : TakenAt g.rules (lex source).tokens p r) : ¬g.RulesOut r := by
  obtain ⟨earlier, later, -, hm, -⟩ := h
  exact fun hout => hout.not_isUsable hm.isUsable

/-! ## Usable rules match -/

theorem Grammar.prefers_singleton {r : Rule} (hr : r.elements ≠ []) :
    Grammar.Prefers ⟨[r]⟩ r :=
  ⟨hr, fun _ _ hm => ⟨[], [], rfl, hm, fun _ he => absurd he List.not_mem_nil⟩⟩

/-- A usable rule matches a text in which each of its keywords is quoted and a truth value stands
for each of its arguments. -/
theorem Rule.IsUsable.exists_parse {r : Rule} (h : r.IsUsable) :
    ∃ source b, parseSource ⟨[r]⟩ source = .ok b ∧ b.actions ≠ [] := by
  let c : LiteralCall ⟨[r]⟩ :=
    ⟨r, List.mem_singleton_self r, r.arguments.map fun _ => .bool true, List.length_map _⟩
  obtain ⟨ws, hws⟩ := exists_wordsOf (g := ⟨[r]⟩)
    (fun k hk => h.2 k (keyword_mem_elements_iff.mp hk)) c.length_literals
  have hall : WordsOfAll [c] (ws ++ []) := .cons hws .nil
  obtain ⟨-, b, hb, hactions⟩ := parseSource_of_wordsOfAll hall
    fun c' hc => List.mem_singleton.mp hc ▸ Grammar.prefers_singleton h.1
  refine ⟨_, b, hb, fun hnil => ?_⟩
  rw [hnil] at hactions
  cases hactions

/-! ## Parses take usable rules only -/

/-- A strict parse of a text follows a reading, and a reading takes no rule that is ruled out. -/
theorem exists_isReading_of_parse {g : Grammar} {source : String} {b : Block}
    (h : parse g (lex source).tokens = .ok b) :
    ∃ n pos rule, IsReading g (lex source).tokens 0 n pos rule ∧
      b.actions = actionsOf (lex source).tokens n pos rule ∧ ∀ i < n, ¬g.RulesOut (rule i) := by
  obtain ⟨n, pos, rule, hread, hactions⟩ := exists_isReading_of_ok h
  exact ⟨n, pos, rule, hread, hactions, fun i hi => (hread.taken i hi).not_rulesOut⟩

/-- A rule of which a text makes an action by itself matches somewhere in that text. -/
theorem isUsable_of_parseSource {r : Rule} {source : String} {b : Block}
    (h : parseSource ⟨[r]⟩ source = .ok b) (hb : b.actions ≠ []) : r.IsUsable := by
  obtain ⟨n, pos, rule, hread, hactions, -⟩ := exists_isReading_of_parse h
  cases n with
  | zero => exact absurd hactions hb
  | succ n =>
    obtain ⟨earlier, later, hrules, hm, -⟩ := hread.taken 0 (Nat.succ_pos n)
    have hr : rule 0 ∈ (⟨[r]⟩ : Grammar).rules := by
      rw [hrules]
      exact List.mem_append_right _ List.mem_cons_self
    exact List.mem_singleton.mp hr ▸ hm.isUsable

/-- The warnings decide which rules some text can use: by itself a rule gives an action for some
text exactly if there is no warning that it never matches. In any grammar, neither a strict nor a
recovering parse of a text makes an action of a rule that is ruled out. -/
theorem lint_decides_usable (r : Rule) (g : Grammar) (source : String) (limit : Nat) :
    ((∃ source b, parseSource ⟨[r]⟩ source = .ok b ∧ b.actions ≠ []) ↔
      ∀ w ∈ Grammar.lint ⟨[r]⟩, w.neverMatches = false) ∧
    (∀ b, parse g (lex source).tokens = .ok b →
      ∃ n pos rule, IsReading g (lex source).tokens 0 n pos rule ∧
        b.actions = actionsOf (lex source).tokens n pos rule ∧ ∀ i < n, ¬g.RulesOut (rule i)) ∧
    ∃ ss stop fatal,
      IsTiling g (lex source).tokens limit 0 (run g limit ⟨0, (lex source).tokens⟩) ss stop
        fatal ∧
      (parseRecovering g limit (lex source).tokens).1.actions =
        Stretch.actions (lex source).tokens ss ∧
      ∀ p r, .taken p r ∈ ss → ¬g.RulesOut r := by
  refine ⟨?_, fun b => exists_isReading_of_parse, ?_⟩
  · rw [Grammar.lint_singleton, ← Rule.isUsable_iff_warnings]
    exact ⟨fun ⟨source, b, h, hb⟩ => isUsable_of_parseSource h hb, Rule.IsUsable.exists_parse⟩
  · obtain ⟨ss, stop, fatal, h⟩ :=
      exists_isTiling g (lex source).tokens limit 0 (Nat.zero_le _)
    rw [cursorAt_zero] at h
    exact ⟨ss, stop, fatal, h, h.actions_eq, fun p r hr => (h.justified _ hr).not_rulesOut⟩

end CommandScript
