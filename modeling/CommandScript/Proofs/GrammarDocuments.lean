import CommandScript.GrammarFile.Load
import CommandScript.Proofs.PatternText

/-!
# Grammars made of documents

A grammar is made of rule documents all at once or not at all. Each document writes one rule
(`RuleDocument.Writes`) or is refused (`RuleDocument.IsRefused`): it has both a pattern and elements
or neither, or its pattern has no words, or one of them is a fault. The words of a pattern and the
documents of a file are read by the same sort of recursion, which stops at the first item that is
refused. So the reason is that of the first fault (`IsBadPattern`) of the first document that is not
well formed (`ofDocuments_all_or_first_refused`).
-/

namespace CommandScript

/-! ## Patterns that are refused -/

/-- Why words are no pattern: there are none, or the first fault among them. -/
inductive IsBadPattern (ws : List (List Char)) : PatternError → Prop
  | empty (h : ws = []) : IsBadPattern ws .empty
  | word {front back : List (List Char)} {w : List Char} {x : PatternError}
    (h : ws = front ++ w :: back) (hfront : ∀ v ∈ front, ∀ y, ¬IsFault v y) (hw : IsFault w x) :
    IsBadPattern ws x

theorem Element.exists_ofWord_eq_ok_iff {w : List Char} :
    (∃ e, ofWord w = .ok e) ↔ ∀ x, ¬IsFault w x := by
  simp only [← ofWord_eq_error_iff]
  cases ofWord w <;> simp

theorem elementsOfWords_eq_error_iff {ws : List (List Char)} {x : PatternError} :
    elementsOfWords ws = .error x ↔ ∃ front w back, ws = front ++ w :: back ∧
      (∀ v ∈ front, ∀ y, ¬IsFault v y) ∧ IsFault w x := by
  simp only [elementsOfWords_eq_mapM, mapM_eq_error_iff, Element.exists_ofWord_eq_ok_iff,
    Element.ofWord_eq_error_iff]

theorem Rule.ofPattern_eq_error_iff {name pattern : String} {x : PatternError} :
    ofPattern name pattern = .error x ↔ IsBadPattern (words pattern.toList) x := by
  have hcases : IsBadPattern (words pattern.toList) x ↔
      (words pattern.toList = [] ∧ x = .empty) ∨
        elementsOfWords (words pattern.toList) = .error x := by
    rw [elementsOfWords_eq_error_iff]
    constructor
    · intro h
      cases h with
      | empty h => exact Or.inl ⟨h, rfl⟩
      | word h hfront hw => exact Or.inr ⟨_, _, _, h, hfront, hw⟩
    · rintro (⟨h, rfl⟩ | ⟨front, w, back, h, hfront, hw⟩)
      · exact .empty h
      · exact .word h hfront hw
  rw [hcases, ofPattern]
  cases hread : elementsOfWords (words pattern.toList) with
  | error y =>
    have hne : words pattern.toList ≠ [] := fun hnil => by
      rw [hnil] at hread
      cases hread
    simp [hne]
  | ok es =>
    obtain ⟨hwords, -⟩ := elementsOfWords_eq_ok_iff.mp hread
    cases es with
    | nil => simp [hwords, eq_comm]
    | cons e es => simp [hwords]

/-- A pattern is not refused if it has words and none of them is a fault. -/
theorem not_isBadPattern_iff {ws : List (List Char)} :
    (∀ x, ¬IsBadPattern ws x) ↔ ws ≠ [] ∧ ∀ w ∈ ws, ∀ x, ¬IsFault w x := by
  constructor
  · intro h
    refine ⟨fun hnil => h _ (.empty hnil), fun w hw => ?_⟩
    cases hread : elementsOfWords ws with
    | error x =>
      obtain ⟨front, v, back, hws, hfront, hv⟩ := elementsOfWords_eq_error_iff.mp hread
      exact absurd (.word hws hfront hv) (h x)
    | ok es =>
      obtain ⟨rfl, hlegible⟩ := elementsOfWords_eq_ok_iff.mp hread
      obtain ⟨e, he, rfl⟩ := List.mem_map.mp hw
      exact Element.exists_ofWord_eq_ok_iff.mp ⟨e, Element.ofWord_word (hlegible e he)⟩
  · rintro ⟨hne, hall⟩ x h
    cases h with
    | empty hnil => exact hne hnil
    | word hws _ hw => exact hall _ (by simp [hws]) _ hw

/-! ## Documents -/

namespace RuleDocument

/-- A document is well formed if it has a pattern or elements, not both, and the pattern has words
none of which is a fault. -/
structure IsWellFormed (d : RuleDocument) : Prop where
  shape : d.pattern = none ↔ d.elements ≠ none
  words_ne_nil : ∀ p ∈ d.pattern, words p.toList ≠ []
  not_isFault : ∀ p ∈ d.pattern, ∀ w ∈ words p.toList, ∀ x, ¬IsFault w x

/-- The rule that a document writes has its name, and its elements or those whose words are the
words of its pattern. -/
inductive Writes : RuleDocument → Rule → Prop
  | elements (name : String) (es : List Element) : Writes ⟨name, none, some es⟩ ⟨name, es⟩
  | pattern {name p : String} {es : List Element} (hne : es ≠ [])
    (hwords : words p.toList = es.map fun e => e.word.toList) (hlegible : ∀ e ∈ es, e.IsLegible) :
    Writes ⟨name, some p, none⟩ ⟨name, es⟩

/-- Why a document writes no rule. -/
inductive IsRefused : RuleDocument → GrammarFileError → Prop
  | neither (name : String) : IsRefused ⟨name, none, none⟩ (.ruleShape name)
  | both (name p : String) (es : List Element) :
    IsRefused ⟨name, some p, some es⟩ (.ruleShape name)
  | badPattern {name p : String} {x : PatternError} (h : IsBadPattern (words p.toList) x) :
    IsRefused ⟨name, some p, none⟩ (.badPattern name x)

variable {d : RuleDocument} {r : Rule} {e : GrammarFileError}

theorem rule_eq_ok_iff : d.rule = .ok r ↔ d.Writes r := by
  obtain ⟨name, pattern, elements⟩ := d
  cases pattern with
  | none =>
    cases elements with
    | none => exact ⟨nofun, nofun⟩
    | some es =>
      refine ⟨fun h => ?_, fun h => ?_⟩
      · cases h
        exact .elements name es
      · cases h
        rfl
  | some p =>
    cases elements with
    | none =>
      have hrule : rule ⟨name, some p, none⟩ = .ok r ↔ Rule.ofPattern name p = .ok r := by
        cases hread : Rule.ofPattern name p <;> simp [rule, hread, Except.mapError]
      rw [hrule, Rule.ofPattern_eq_ok_iff]
      constructor
      · obtain ⟨name', es⟩ := r
        rintro ⟨rfl, hne, hwords, hlegible⟩
        exact .pattern hne hwords hlegible
      · intro h
        cases h with
        | pattern hne hwords hlegible => exact ⟨rfl, hne, hwords, hlegible⟩
    | some es => exact ⟨nofun, nofun⟩

theorem rule_eq_error_iff : d.rule = .error e ↔ d.IsRefused e := by
  obtain ⟨name, pattern, elements⟩ := d
  cases pattern with
  | none =>
    cases elements with
    | none =>
      refine ⟨fun h => ?_, fun h => ?_⟩
      · cases h
        exact .neither name
      · cases h
        rfl
    | some es => exact ⟨nofun, nofun⟩
  | some p =>
    cases elements with
    | none =>
      have hrule : rule ⟨name, some p, none⟩ = .error e ↔
          ∃ x, Rule.ofPattern name p = .error x ∧ .badPattern name x = e := by
        cases hread : Rule.ofPattern name p <;> simp [rule, hread, Except.mapError]
      rw [hrule]
      simp only [Rule.ofPattern_eq_error_iff]
      constructor
      · rintro ⟨x, hx, rfl⟩
        exact .badPattern hx
      · intro h
        cases h with
        | badPattern hx => exact ⟨_, hx, rfl⟩
    | some es =>
      refine ⟨fun h => ?_, fun h => ?_⟩
      · cases h
        exact .both name p es
      · cases h
        rfl

/-- A document is well formed exactly if there is no reason to refuse it. -/
theorem isWellFormed_iff : d.IsWellFormed ↔ ∃ r, d.rule = .ok r := by
  have hrefused : (∃ r, d.rule = .ok r) ↔ ∀ e, ¬d.IsRefused e := by
    simp only [← rule_eq_error_iff]
    cases d.rule <;> simp
  rw [hrefused]
  constructor
  · rintro ⟨hshape, hne, hfault⟩ e h
    cases h with
    | neither name => simp at hshape
    | both name p es => simp at hshape
    | badPattern h => exact not_isBadPattern_iff.mpr ⟨hne _ rfl, hfault _ rfl⟩ _ h
  · intro h
    obtain ⟨name, pattern, elements⟩ := d
    cases pattern with
    | none =>
      cases elements with
      | none => exact absurd (.neither name) (h _)
      | some es => exact ⟨by simp, nofun, nofun⟩
    | some p =>
      cases elements with
      | none =>
        obtain ⟨hne, hfault⟩ := not_isBadPattern_iff.mp fun x hx => h _ (.badPattern hx)
        refine ⟨by simp, ?_, ?_⟩
        · rintro _ ⟨⟩
          exact hne
        · rintro _ ⟨⟩
          exact hfault
      | some es => exact absurd (.both name p es) (h _)

end RuleDocument

theorem rulesOfDocuments_eq_mapM (ds : List RuleDocument) :
    rulesOfDocuments ds = ds.mapM RuleDocument.rule := by
  induction ds with
  | nil => rfl
  | cons d ds ih =>
    rw [rulesOfDocuments, List.mapM_cons, ih]
    cases d.rule with
    | error e => rfl
    | ok r => cases ds.mapM RuleDocument.rule <;> rfl

/-- Documents give a grammar if all of them are well formed: the rules that they write, in their
order. Otherwise they are refused for the first one that is not well formed. The text of a file is
loaded as the documents that it is read as. -/
theorem ofDocuments_all_or_first_refused (ds : List RuleDocument) (format : GrammarFormat)
    (text : String) :
    (∀ g, Grammar.ofDocuments ds = .ok g ↔ List.Forall₂ RuleDocument.Writes ds g.rules) ∧
      ((∃ g, Grammar.ofDocuments ds = .ok g) ↔ ∀ d ∈ ds, d.IsWellFormed) ∧
      (∀ e, Grammar.ofDocuments ds = .error e ↔ ∃ front d back, ds = front ++ d :: back ∧
        (∀ d' ∈ front, d'.IsWellFormed) ∧ d.IsRefused e) ∧
      format.load text = (format.read text).bind Grammar.ofDocuments := by
  have hok {g : Grammar} : Grammar.ofDocuments ds = .ok g ↔
      ds.mapM RuleDocument.rule = .ok g.rules := by
    obtain ⟨rules⟩ := g
    rw [Grammar.ofDocuments, rulesOfDocuments_eq_mapM]
    cases ds.mapM RuleDocument.rule <;> simp [Except.map, Grammar.ofList]
  have herror {e : GrammarFileError} : Grammar.ofDocuments ds = .error e ↔
      ds.mapM RuleDocument.rule = .error e := by
    rw [Grammar.ofDocuments, rulesOfDocuments_eq_mapM]
    cases ds.mapM RuleDocument.rule <;> simp [Except.map]
  refine ⟨fun g => ?_, ?_, fun e => ?_, ?_⟩
  · rw [hok, mapM_eq_ok_iff]
    simp only [RuleDocument.rule_eq_ok_iff]
  · have hexists : (∃ g, Grammar.ofDocuments ds = .ok g) ↔
        ∃ rules, ds.mapM RuleDocument.rule = .ok rules :=
      ⟨fun ⟨g, hg⟩ => ⟨g.rules, hok.mp hg⟩, fun ⟨rules, hrules⟩ => ⟨⟨rules⟩, hok.mpr hrules⟩⟩
    rw [hexists, exists_mapM_eq_ok_iff]
    simp only [RuleDocument.isWellFormed_iff]
  · rw [herror, mapM_eq_error_iff]
    simp only [RuleDocument.isWellFormed_iff, RuleDocument.rule_eq_error_iff]
  · rw [GrammarFormat.load]
    cases format.read text <;> rfl

/-- The first document at fault is reported, and of its words the first one at fault. -/
example : Grammar.ofDocuments [⟨"go", some "go <where>", none⟩, ⟨"say", some "say <<a> <b <c", none⟩,
    ⟨"both", some "both", some []⟩] = .error (.badPattern "say" (.unclosedArgument "<b")) := by
  decide +kernel

end CommandScript
