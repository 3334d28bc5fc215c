import Mathlib.Data.List.Induction
import Mathlib.Data.List.Nodup
import CommandScript.Proofs.DeadRules
import CommandScript.Proofs.TokenText

/-!
# The warnings about one rule

The warnings about a grammar are those about its rules, one rule after the other, and what is said
about a rule depends on the rules before it only (`lintRules_append`). `RuleWarnings` says which
warnings these are, without the sets of names seen and reported that `Rule.warnings` is computed
with: at most one for a name that is taken, then one for a rule without elements, or else the names
of arguments that come again (`AreRepeats`), the keywords that are not read as themselves
(`KeywordWarnings`), and at most one for the first rule whose elements start those of the rule
(`ShadowWarnings`). Just one row of warnings meets this description (`ruleWarnings_iff`), and it is
what a new rule adds to the warnings about a grammar (`lint_push`).
-/

namespace CommandScript

/-! ## Names that come again -/

/-- A row of names comes to `n` again before it comes to `m` again, if it does so at all. -/
def RepeatedBefore (names : List String) (n m : String) : Prop :=
  ∃ front, front <+: names ∧ 1 < front.count n ∧ front.count m ≤ 1

/-- `repeats` are the names that come more than once, each once, in the order in which they come
again for the first time. -/
structure AreRepeats (names repeats : List String) : Prop where
  nodup : repeats.Nodup
  mem_iff (n : String) : n ∈ repeats ↔ 1 < names.count n
  order : repeats.Pairwise (RepeatedBefore names)

theorem RepeatedBefore.asymm {names : List String} {n m : String}
    (h : RepeatedBefore names n m) : ¬RepeatedBefore names m n := by
  rintro ⟨front', hfront', hm', hn'⟩
  obtain ⟨front, hfront, hn, hm⟩ := h
  rcases List.prefix_or_prefix_of_prefix hfront hfront' with hle | hle
  · have hcount := hle.sublist.count_le n
    omega
  · have hcount := hle.sublist.count_le m
    omega

theorem RepeatedBefore.ne {names : List String} {n m : String} (h : RepeatedBefore names n m) :
    n ≠ m := by
  rintro rfl
  exact h.asymm h

theorem AreRepeats.unique {names repeats repeats' : List String} (h : AreRepeats names repeats)
    (h' : AreRepeats names repeats') : repeats = repeats' := by
  have hperm : repeats.Perm repeats' :=
    (List.perm_ext_iff_of_nodup h.nodup h'.nodup).mpr fun n => by rw [h.mem_iff, h'.mem_iff]
  exact hperm.eq_of_pairwise (fun n m _ _ hnm hmn => absurd hmn hnm.asymm) h.order h'.order

/-- One more name is one that comes again if it came before and has not been reported. -/
theorem repeatedNames_concat (seen reported ns : List String) (n : String) :
    repeatedNames seen reported (ns ++ [n]) = repeatedNames seen reported ns ++
      if (n ∈ seen ∨ n ∈ ns) ∧ n ∉ reported ∧ n ∉ repeatedNames seen reported ns then [n]
      else [] := by
  induction ns generalizing seen reported with
  | nil =>
    by_cases hs : n ∈ seen <;> by_cases hr : n ∈ reported <;> simp [repeatedNames, hs, hr]
  | cons m ns ih =>
    rw [List.cons_append, repeatedNames, repeatedNames]
    split
    · rw [ih]
      simp [or_assoc, or_left_comm]
    · next hm =>
      have hseen : n ∈ seen ∨ n ∈ m :: ns ↔ n ∈ seen ∨ n ∈ ns := by
        have hm : m ∈ seen := by simpa using hm
        simp only [List.mem_cons]
        exact ⟨by rintro (h | rfl | h) <;> simp [*], by rintro (h | h) <;> simp [h]⟩
      simp only [hseen]
      split
      · rw [ih]
      · rw [ih, List.cons_append]
        simp [and_assoc, and_left_comm]

theorem areRepeats_repeatedNames (names : List String) :
    AreRepeats names (repeatedNames [] [] names) := by
  induction names using List.reverseRecOn with
  | nil => exact ⟨List.nodup_nil, by simp [repeatedNames], .nil⟩
  | append_singleton ns n ih =>
    have horder : (repeatedNames [] [] ns).Pairwise (RepeatedBefore (ns ++ [n])) :=
      ih.order.imp fun ⟨front, hfront, hcount⟩ =>
        ⟨front, hfront.trans (List.prefix_append ns [n]), hcount⟩
    have hcount (m : String) : (ns ++ [n]).count m = ns.count m + if n = m then 1 else 0 := by
      simp [List.count_singleton]
    have hnew : (n ∈ [] ∨ n ∈ ns) ∧ n ∉ [] ∧ n ∉ repeatedNames [] [] ns ↔ ns.count n = 1 := by
      have hpos : 0 < ns.count n ↔ n ∈ ns := List.count_pos_iff
      have hnot : n ∉ ([] : List String) := List.not_mem_nil
      rw [ih.mem_iff, ← hpos]
      constructor
      · rintro ⟨h | h, -, hle⟩
        · exact absurd h hnot
        · omega
      · intro h
        exact ⟨Or.inr (by omega), hnot, by omega⟩
    -- the last name comes again for the first time if it came just once before
    rw [repeatedNames_concat]
    simp only [hnew]
    split
    · next hn =>
      have hlast : (repeatedNames [] [] ns ++ [n]).Pairwise (RepeatedBefore (ns ++ [n])) := by
        refine List.pairwise_append.mpr ⟨horder, List.pairwise_singleton _ _, ?_⟩
        intro m hm k hk
        rw [List.mem_singleton.mp hk]
        exact ⟨ns, List.prefix_append ns [n], (ih.mem_iff m).mp hm, Nat.le_of_eq hn⟩
      refine ⟨hlast.imp RepeatedBefore.ne, fun m => ?_, hlast⟩
      rw [List.mem_append, ih.mem_iff, List.mem_singleton, hcount]
      split
      · next h =>
        subst h
        simp [hn]
      · next h => simp [Ne.symm h]
    · next hn =>
      rw [List.append_nil]
      refine ⟨ih.nodup, fun m => ?_, horder⟩
      rw [ih.mem_iff, hcount]
      split
      · next h =>
        subst h
        omega
      · rw [Nat.add_zero]

/-! ## Keywords -/

/-- A text is read, without a diagnostic, as one token, and that has just this text. -/
def IsReadAsItself (text : String) : Prop :=
  (lex text).diagnostics = [] ∧
    ∃ t : Token, (lex text).tokens.map Placed.token = [t, .endOfInput] ∧ t.text = text

theorem isBareToken_iff_isReadAsItself {text : String} :
    isBareToken text = true ↔ IsReadAsItself text := by
  constructor
  · intro h
    obtain ⟨t, ht, hl⟩ := isBareToken_iff.mp h
    obtain ⟨hclean, htokens⟩ := lex_isLexeme hl
    rw [String.ofList_toList] at hclean htokens
    exact ⟨hclean, t, htokens, ht⟩
  · rintro ⟨hclean, t, htokens, ht⟩
    obtain ⟨x, rest, hrest, rfl, hmap⟩ := List.map_eq_cons_iff.mp htokens
    obtain ⟨y, rfl, -⟩ := List.map_eq_singleton_iff.mp hmap
    exact isBareToken_eq_true_iff.mpr ⟨hclean, x, y, hrest, ht⟩

/-- What is said about the keywords of the rule of a name, one after the other: nothing about one
that is read as itself. Any other is unmatchable if it holds both quotes, or else quoted-only. -/
inductive KeywordWarnings (rule : String) : List String → List Warning → Prop
  | nil : KeywordWarnings rule [] []
  | fine {k : String} {ks : List String} {ws : List Warning} (hk : IsReadAsItself k)
    (h : KeywordWarnings rule ks ws) : KeywordWarnings rule (k :: ks) ws
  | unmatchable {k : String} {ks : List String} {ws : List Warning} (hk : ¬IsReadAsItself k)
    (hquotes : '\'' ∈ k.toList ∧ '"' ∈ k.toList) (h : KeywordWarnings rule ks ws) :
    KeywordWarnings rule (k :: ks) (.unmatchableKeyword rule k :: ws)
  | quotedOnly {k : String} {ks : List String} {ws : List Warning} (hk : ¬IsReadAsItself k)
    (hquotes : ¬('\'' ∈ k.toList ∧ '"' ∈ k.toList)) (h : KeywordWarnings rule ks ws) :
    KeywordWarnings rule (k :: ks) (.quotedOnlyKeyword rule k :: ws)

theorem holdsBothQuotes_iff {text : String} :
    holdsBothQuotes text = true ↔ '\'' ∈ text.toList ∧ '"' ∈ text.toList := by
  simp [holdsBothQuotes]

theorem keywordWarnings_iff {r : Rule} {ks : List String} {ws : List Warning} :
    KeywordWarnings r.name ks ws ↔ ws = ks.filterMap r.keywordWarning? := by
  have hfine {k : String} (hk : IsReadAsItself k) : r.keywordWarning? k = none := by
    rw [Rule.keywordWarning?, if_pos (isBareToken_iff_isReadAsItself.mpr hk)]
  have hother {k : String} (hk : ¬IsReadAsItself k) : r.keywordWarning? k =
      if '\'' ∈ k.toList ∧ '"' ∈ k.toList then some (.unmatchableKeyword r.name k)
      else some (.quotedOnlyKeyword r.name k) := by
    rw [Rule.keywordWarning?, if_neg (mt isBareToken_iff_isReadAsItself.mp hk)]
    simp only [holdsBothQuotes_iff]
  constructor
  · intro h
    induction h with
    | nil => rfl
    | fine hk _ ih => rw [List.filterMap_cons_none (hfine hk), ih]
    | unmatchable hk hquotes _ ih =>
      rw [List.filterMap_cons_some ((hother hk).trans (if_pos hquotes)), ih]
    | quotedOnly hk hquotes _ ih =>
      rw [List.filterMap_cons_some ((hother hk).trans (if_neg hquotes)), ih]
  · rintro rfl
    induction ks with
    | nil => exact .nil
    | cons k ks ih =>
      by_cases hk : IsReadAsItself k
      · rw [List.filterMap_cons_none (hfine hk)]
        exact .fine hk ih
      by_cases hquotes : '\'' ∈ k.toList ∧ '"' ∈ k.toList
      · rw [List.filterMap_cons_some ((hother hk).trans (if_pos hquotes))]
        exact .unmatchable hk hquotes ih
      · rw [List.filterMap_cons_some ((hother hk).trans (if_neg hquotes))]
        exact .quotedOnly hk hquotes ih

/-! ## Earlier rules -/

/-- What is said about the name of a rule: that an earlier rule has it, if one does. -/
inductive NameWarnings (earlier : List Rule) (r : Rule) : List Warning → Prop
  | taken (h : ∃ e ∈ earlier, e.name = r.name) : NameWarnings earlier r [.duplicateName r.name]
  | free (h : ∀ e ∈ earlier, e.name ≠ r.name) : NameWarnings earlier r []

theorem nameWarnings_iff {earlier : List Rule} {r : Rule} {ws : List Warning} :
    NameWarnings earlier r ws ↔
      ws = if earlier.any (fun e => e.name == r.name) then [.duplicateName r.name] else [] := by
  have hany : earlier.any (fun e => e.name == r.name) = true ↔ ∃ e ∈ earlier, e.name = r.name := by
    simp
  by_cases h : ∃ e ∈ earlier, e.name = r.name
  · rw [if_pos (hany.mpr h)]
    constructor
    · rintro (_ | hfree)
      · rfl
      · obtain ⟨e, he, hname⟩ := h
        exact absurd hname (hfree e he)
    · rintro rfl
      exact .taken h
  · rw [if_neg (mt hany.mp h)]
    constructor
    · rintro (htaken | _)
      · exact absurd htaken h
      · rfl
    · rintro rfl
      exact .free fun e he hname => h ⟨e, he, hname⟩

/-- What is said about a rule for the sake of earlier ones: that the first whose elements start its
own matches wherever it does, if there is one. A rule without elements starts no other. -/
inductive ShadowWarnings (earlier : List Rule) (r : Rule) : List Warning → Prop
  | shadowed {before after : List Rule} {e : Rule} (h : earlier = before ++ e :: after)
    (he : e.elements ≠ [] ∧ e.elements <+: r.elements)
    (hbefore : ∀ b ∈ before, ¬(b.elements ≠ [] ∧ b.elements <+: r.elements)) :
    ShadowWarnings earlier r [.shadowed r.name e.name]
  | none (h : ∀ e ∈ earlier, ¬(e.elements ≠ [] ∧ e.elements <+: r.elements)) :
    ShadowWarnings earlier r []

theorem shadowWarnings_iff {earlier : List Rule} {r : Rule} {ws : List Warning} :
    ShadowWarnings earlier r ws ↔
      ws = ((earlier.find? fun e => e.shadows r).map fun e => .shadowed r.name e.name).toList := by
  have hshadows (e : Rule) : e.shadows r = true ↔
      e.elements ≠ [] ∧ e.elements <+: r.elements := Rule.shadows_iff
  constructor
  · intro h
    cases h with
    | @shadowed before after e h he hbefore =>
      have hfind : earlier.find? (fun e => e.shadows r) = some e := by
        refine List.find?_eq_some_iff_append.mpr ⟨(hshadows e).mpr he, before, after, h, ?_⟩
        exact fun b hb => by simpa using mt (hshadows b).mp (hbefore b hb)
      rw [hfind]
      rfl
    | none h =>
      have hfind : earlier.find? (fun e => e.shadows r) = none :=
        List.find?_eq_none.mpr fun e he => mt (hshadows e).mp (h e he)
      rw [hfind]
      rfl
  · rintro rfl
    cases hfind : earlier.find? fun e => e.shadows r with
    | none =>
      exact .none fun e he => mt (hshadows e).mpr (List.find?_eq_none.mp hfind e he)
    | some e =>
      obtain ⟨he, before, after, h, hbefore⟩ := List.find?_eq_some_iff_append.mp hfind
      exact .shadowed h ((hshadows e).mp he)
        fun b hb => mt (hshadows b).mpr (by simpa using hbefore b hb)

/-! ## All that is said about a rule -/

/-- The warnings about a rule that comes after the rules `earlier`. -/
inductive RuleWarnings (earlier : List Rule) (r : Rule) : List Warning → Prop
  | empty {named : List Warning} (hname : NameWarnings earlier r named) (h : r.elements = []) :
    RuleWarnings earlier r (named ++ [.emptyRule r.name])
  | nonempty {named keyword shadow : List Warning} {repeats : List String}
    (hname : NameWarnings earlier r named) (h : r.elements ≠ [])
    (hrepeats : AreRepeats r.arguments repeats)
    (hkeywords : KeywordWarnings r.name r.keywords keyword)
    (hshadow : ShadowWarnings earlier r shadow) :
    RuleWarnings earlier r
      (named ++ (repeats.map (.duplicateArgument r.name) ++ keyword ++ shadow))

/-- The description of the warnings about a rule is met by just one row of warnings. -/
theorem ruleWarnings_iff {earlier : List Rule} {r : Rule} {ws : List Warning} :
    RuleWarnings earlier r ws ↔ ws = r.warnings earlier := by
  have hempty : r.elements.isEmpty = true ↔ r.elements = [] := List.isEmpty_iff
  constructor
  · intro h
    cases h with
    | empty hname h => rw [nameWarnings_iff.mp hname, Rule.warnings, if_pos (hempty.mpr h)]
    | nonempty hname h hrepeats hkeywords hshadow =>
      rw [nameWarnings_iff.mp hname, hrepeats.unique (areRepeats_repeatedNames _),
        keywordWarnings_iff.mp hkeywords, shadowWarnings_iff.mp hshadow, Rule.warnings,
        if_neg (mt hempty.mp h)]
  · rintro rfl
    have hname : NameWarnings earlier r _ := nameWarnings_iff.mpr rfl
    rw [Rule.warnings]
    by_cases h : r.elements = []
    · rw [if_pos (hempty.mpr h)]
      exact .empty hname h
    · rw [if_neg (mt hempty.mp h)]
      exact .nonempty hname h (areRepeats_repeatedNames _) (keywordWarnings_iff.mpr rfl)
        (shadowWarnings_iff.mpr rfl)

/-! ## The warnings about a grammar -/

/-- Later rules do not change what is said about those before them. -/
theorem lintRules_append (earlier front later : List Rule) :
    lintRules earlier (front ++ later) =
      lintRules earlier front ++ lintRules (earlier ++ front) later := by
  induction front generalizing earlier with
  | nil => simp [lintRules]
  | cons r rs ih => simp [lintRules, ih]

/-- With one more rule, the warnings about a grammar are as before, and then come the warnings
about that rule. -/
theorem lint_push (g : Grammar) (r : Rule) :
    ∃ ws, (g.push r).lint = g.lint ++ ws ∧ ∀ ws', RuleWarnings g.rules r ws' ↔ ws' = ws := by
  refine ⟨r.warnings g.rules, ?_, fun ws' => ruleWarnings_iff⟩
  rw [Grammar.lint, Grammar.push, lintRules_append, List.nil_append]
  simp [Grammar.lint, lintRules]

end CommandScript
