import CommandScript.Proofs.Fitting
import CommandScript.Proofs.TokenText

/-!
# What the warnings about keywords mean

A warning about a grammar is a warning about one of its rules and the rules before it
(`Grammar.mem_lint_iff`). A keyword that is called unmatchable holds both quotes, and no token of
any text fits it (`not_fits_of_unmatchableKeyword`). A keyword that is called quoted-only is not a
bare token, and a string fits it, but not only a string: a variable fits it if the keyword can be
the name of one, and the end of input fits the keyword that has its text
(`kinds_of_quotedOnlyKeyword`).
-/

namespace CommandScript

/-! ## Where a warning comes from -/

theorem mem_lintRules_iff {w : Warning} {earlier rules : List Rule} :
    w ∈ lintRules earlier rules ↔
      ∃ front r later, rules = front ++ r :: later ∧ w ∈ r.warnings (earlier ++ front) := by
  induction rules generalizing earlier with
  | nil => simp [lintRules]
  | cons r rs ih =>
    rw [lintRules, List.mem_append, ih]
    constructor
    · rintro (h | ⟨front, r', later, rfl, h⟩)
      · exact ⟨[], r, rs, rfl, by rwa [List.append_nil]⟩
      · exact ⟨r :: front, r', later, rfl, by rwa [List.append_cons]⟩
    · rintro ⟨front, r', later, hrules, h⟩
      cases front with
      | nil =>
        obtain ⟨rfl, -⟩ := List.cons.inj hrules
        exact Or.inl (by rwa [List.append_nil] at h)
      | cons e front =>
        obtain ⟨rfl, rfl⟩ := List.cons.inj hrules
        exact Or.inr ⟨front, r', later, rfl, by rwa [← List.append_cons]⟩

/-- A warning about a grammar is about one of its rules and the rules before it. -/
theorem Grammar.mem_lint_iff {g : Grammar} {w : Warning} : w ∈ g.lint ↔
    ∃ earlier r later, g.rules = earlier ++ r :: later ∧ w ∈ r.warnings earlier :=
  mem_lintRules_iff

/-- The keyword that a warning is about, for the warnings that are about one. -/
def Warning.keyword? : Warning → Option String
  | quotedOnlyKeyword _ k => some k
  | unmatchableKeyword _ k => some k
  | _ => none

namespace Rule

variable {r : Rule} {earlier : List Rule} {name k : String}

theorem keyword?_of_keywordWarning? {w : Warning} (h : r.keywordWarning? k = some w) :
    w.keyword? = some k := by
  unfold keywordWarning? at h
  split at h
  · cases h
  · split at h <;> cases h <;> rfl

/-- What is said about a keyword of a rule does not depend on the rest of the rule. -/
theorem mem_warnings_iff_of_keyword? {w : Warning} (hw : w.keyword? = some k) :
    w ∈ r.warnings earlier ↔ k ∈ r.keywords ∧ r.keywordWarning? k = some w := by
  have hkeywords : w ∈ r.warnings earlier ↔ w ∈ r.keywords.filterMap r.keywordWarning? := by
    by_cases hr : r.elements = []
    · cases w <;> simp_all [warnings, keywords, Warning.keyword?]
    · cases w <;> simp_all [warnings, Warning.keyword?]
  rw [hkeywords, List.mem_filterMap]
  constructor
  · rintro ⟨k', hk', h⟩
    have hkk' := keyword?_of_keywordWarning? h
    rw [hw, Option.some.injEq] at hkk'
    exact hkk' ▸ ⟨hk', h⟩
  · rintro ⟨hk, h⟩
    exact ⟨k, hk, h⟩

/-- A keyword is called quoted-only if it is not a bare token and lacks one of the quotes. -/
theorem quotedOnlyKeyword_mem_warnings_iff :
    .quotedOnlyKeyword name k ∈ r.warnings earlier ↔
      k ∈ r.keywords ∧ r.name = name ∧ isBareToken k = false ∧ holdsBothQuotes k = false := by
  rw [mem_warnings_iff_of_keyword? rfl, keywordWarning?]
  cases isBareToken k <;> cases holdsBothQuotes k <;> simp

/-- A keyword is called unmatchable if it holds both quotes; then it is not a bare token. -/
theorem unmatchableKeyword_mem_warnings_iff :
    .unmatchableKeyword name k ∈ r.warnings earlier ↔
      k ∈ r.keywords ∧ r.name = name ∧ holdsBothQuotes k = true := by
  have hbare : holdsBothQuotes k = true → isBareToken k = false :=
    isBareToken_eq_false_of_holdsBothQuotes
  rw [mem_warnings_iff_of_keyword? rfl, keywordWarning?]
  cases hb : isBareToken k <;> cases hq : holdsBothQuotes k <;> simp_all

end Rule

/-- A keyword that no warning is about is a bare token. -/
theorem isBareToken_of_forall_keyword?_ne {g : Grammar} {r : Rule} {k : String} (hr : r ∈ g.rules)
    (hk : k ∈ r.keywords) (h : ∀ w ∈ g.lint, w.keyword? ≠ some k) : isBareToken k = true := by
  cases hw : r.keywordWarning? k with
  | none =>
    unfold Rule.keywordWarning? at hw
    split at hw
    · assumption
    · split at hw <;> cases hw
  | some w =>
    have hwk := Rule.keyword?_of_keywordWarning? hw
    obtain ⟨earlier, later, hrules⟩ := List.append_of_mem hr
    have hmem : w ∈ r.warnings earlier := (Rule.mem_warnings_iff_of_keyword? hwk).mpr ⟨hk, hw⟩
    exact absurd hwk (h w (Grammar.mem_lint_iff.mpr ⟨earlier, r, later, hrules, hmem⟩))

/-! ## Which tokens fit a keyword -/

/-- No token of a text fits a keyword that is called unmatchable. -/
theorem not_fits_of_unmatchableKeyword {g : Grammar} {rule k source : String} {t : Placed}
    (h : .unmatchableKeyword rule k ∈ g.lint) (ht : t ∈ (lex source).tokens) :
    ¬(Element.keyword k).Fits t.token := by
  obtain ⟨earlier, r, later, -, hr⟩ := Grammar.mem_lint_iff.mp h
  obtain ⟨-, -, hquotes⟩ := Rule.unmatchableKeyword_mem_warnings_iff.mp hr
  rintro rfl
  rw [holdsBothQuotes_eq_false_of_mem ht] at hquotes
  cases hquotes

/-- Some text is read as just a token, and the end of input, if characters stand for the token. -/
theorem exists_mem_lex {t : Token} {cs : List Char} (h : IsLexeme t cs) :
    ∃ source, ∃ x ∈ (lex source).tokens, x.token = t := by
  have ht : t ∈ (lex (String.ofList cs)).tokens.map Placed.token := by
    rw [(lex_isLexeme h).2]
    exact List.mem_cons_self
  exact ⟨_, List.mem_map.mp ht⟩

/-- A keyword that is called quoted-only fits the strings of its text, the variables of that name
if it can be one, and the end of input if it is the text of that. It fits no other tokens of a
text. Some text is read as a string that it fits and nothing else, without a diagnostic. -/
theorem kinds_of_quotedOnlyKeyword {g : Grammar} {rule k : String}
    (h : .quotedOnlyKeyword rule k ∈ g.lint) :
    (∀ kind, (∃ source, ∃ t ∈ (lex source).tokens,
        (Element.keyword k).Fits t.token ∧ t.token.kind = kind) ↔
      kind = .str ∨ kind = .var ∧ k.toList.all isWordBody = true ∨
        kind = .eof ∧ k = Token.endOfInput.text) ∧
      ∃ source, (lex source).diagnostics = [] ∧
        (lex source).tokens.map Placed.token = [⟨.str, k⟩, .endOfInput] := by
  obtain ⟨earlier, r, later, -, hr⟩ := Grammar.mem_lint_iff.mp h
  obtain ⟨-, -, hbare, hquotes⟩ := Rule.quotedOnlyKeyword_mem_warnings_iff.mp hr
  obtain ⟨cs, hcs⟩ := exists_isQuoted hquotes
  have hstr := hcs.isLexeme
  refine ⟨fun kind => ⟨?_, ?_⟩, _, lex_isLexeme hstr⟩
  · rintro ⟨source, t, ht, rfl, rfl⟩
    rcases eq_endOfInput_or_isLexeme ht with hend | ⟨cs, hcs⟩
    · rw [hend]
      exact Or.inr (Or.inr ⟨rfl, rfl⟩)
    rcases hcs.spelling with rfl | ⟨hkind, hbody, -⟩ | ⟨hkind, -⟩
    · rw [isBareToken_iff.mpr ⟨t.token, rfl, hcs⟩] at hbare
      cases hbare
    · exact Or.inr (Or.inl ⟨hkind, hbody⟩)
    · exact Or.inl hkind
  · rintro (rfl | ⟨rfl, hbody⟩ | ⟨rfl, rfl⟩)
    · obtain ⟨source, t, ht, htk⟩ := exists_mem_lex hstr
      exact ⟨source, t, ht, by rw [htk]; rfl, by rw [htk]⟩
    · obtain ⟨source, t, ht, htk⟩ := exists_mem_lex (.var hbody)
      rw [String.ofList_toList] at htk
      exact ⟨source, t, ht, by rw [htk]; rfl, by rw [htk]⟩
    · refine ⟨"", ⟨.endOfInput, 1⟩, ?_, rfl, rfl⟩
      rw [lex, String.toList_empty, pieces]
      exact List.mem_singleton_self _

/-- A rule of one keyword, which starts with a digit. -/
def secondRule : Grammar :=
  ⟨[⟨"second", [.keyword "2nd"]⟩]⟩

theorem quotedOnlyKeyword_mem_lint_secondRule :
    .quotedOnlyKeyword "second" "2nd" ∈ secondRule.lint := by
  decide +kernel

theorem kinds_of_secondRule :
    (∀ kind, (∃ source, ∃ t ∈ (lex source).tokens,
        (Element.keyword "2nd").Fits t.token ∧ t.token.kind = kind) ↔
      kind = .str ∨ kind = .var ∧ "2nd".toList.all isWordBody = true ∨
        kind = .eof ∧ "2nd" = Token.endOfInput.text) ∧
      ∃ source, (lex source).diagnostics = [] ∧
        (lex source).tokens.map Placed.token = [⟨.str, "2nd"⟩, .endOfInput] :=
  kinds_of_quotedOnlyKeyword quotedOnlyKeyword_mem_lint_secondRule

/-- Strings are not the only tokens that a quoted-only keyword fits. -/
theorem not_forall_kind_eq_str :
    ¬∀ g rule k, .quotedOnlyKeyword rule k ∈ Grammar.lint g → ∀ source, ∀ t ∈ (lex source).tokens,
      (Element.keyword k).Fits t.token → t.token.kind = .str := by
  intro h
  have hvar : ⟨⟨.var, "2nd"⟩, 1⟩ ∈ (lex "$2nd").tokens := by decide +kernel
  cases h _ _ _ quotedOnlyKeyword_mem_lint_secondRule _ _ hvar rfl

end CommandScript
