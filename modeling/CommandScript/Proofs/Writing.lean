import CommandScript.Proofs.Carrying
import CommandScript.Proofs.KeywordWarnings
import CommandScript.Proofs.Numerals

/-!
# Writing calls and reading them back

A value that can be written is a `Literal`. The words for a call are a word for each element of
its rule (`WordsOf`): a keyword stands between quotes, or bare if no warning is about it, and an
argument is the literal for it. Such words are lexemes of tokens that carry the call
(`WordsOf.exists_carries`). If all rules of a grammar start with a keyword, and no two of them with
the same one, then the rule of a call is taken wherever it matches (`Grammar.IsKeyed.prefers`). So
calls that are written with single spaces between their words are read back as these calls, one
after the other (`parseSource_spaced`).
-/

namespace CommandScript

/-! ## Literals -/

/-- A value that can be written. -/
inductive Literal
  /-- A text that lacks one of the quotes. -/
  | str (text : String) (h : holdsBothQuotes text = false)
  /-- A reference to a variable, whose name may be empty. -/
  | var (name : String) (h : name.toList.all isWordBody = true)
  | bool (value : Bool)
  /-- A decimal: digits, and the digits of a fraction if there are any. -/
  | number (whole fraction : List Char) (hw : isDigits whole = true)
    (hf : fraction.all Char.isDigit = true)

namespace Literal

/-- The value of a literal. A decimal is rounded to the nearest number. -/
def value : Literal → Value
  | str text _ => .str text
  | var name _ => .var name
  | bool b => .bool b
  | number whole fraction _ _ =>
    .number (.ofDecimal ⟨false, natOfDigits (whole ++ fraction), -fraction.length⟩)

/-- The token that a literal is read as. -/
def token : Literal → Token
  | str text _ => ⟨.str, text⟩
  | var name _ => ⟨.var, name⟩
  | bool b => .fixed (if b then .keyTrue else .keyFalse)
  | number whole fraction _ _ => ⟨.number, String.ofList (numeral whole fraction)⟩

/-- The ways to write a literal. -/
def IsWrittenAs : Literal → List Char → Prop
  | str text _, w => IsQuoted text w
  | var name _, w => w = '$' :: name.toList
  | bool b, w => w = (if b then "true" else "false").toList
  | number whole fraction _ _, w => w = numeral whole fraction

end Literal

/-! ## Literals and their tokens -/

namespace Literal

variable {l : Literal} {w : List Char}

theorem argument?_token (l : Literal) : l.token.argument? = some l.value := by
  cases l with
  | str text h => rfl
  | var name h => rfl
  | bool b => cases b <;> rfl
  | number whole fraction hw hf =>
    rw [token, Token.argument?, ofText?_numeral hw hf]
    rfl

/-- A literal is read as its token, however it is written. -/
theorem IsWrittenAs.isLexeme (h : l.IsWrittenAs w) : IsLexeme l.token w := by
  cases l with
  | str text hq => exact IsQuoted.isLexeme h
  | var name hname =>
    rw [h]
    have hl := IsLexeme.var hname
    rwa [String.ofList_toList] at hl
  | bool b =>
    rw [h]
    cases b
    · exact .fixed (k := .keyFalse) rfl Kind.noConfusion
    · exact .fixed (k := .keyTrue) rfl Kind.noConfusion
  | number whole fraction hw hf =>
    rw [h]
    exact .number hw hf

theorem exists_isWrittenAs (l : Literal) : ∃ w, l.IsWrittenAs w := by
  cases l with
  | str text h => exact exists_isQuoted h
  | _ => exact ⟨_, rfl⟩

end Literal

/-! ## Words for calls -/

/-- Words for elements of a rule of a grammar, with literals for their arguments. -/
inductive WordsOf (g : Grammar) : List Element → List Literal → List (List Char) → Prop
  | nil : WordsOf g [] [] []
  /-- A keyword between quotes. -/
  | quoted {k : String} {w : List Char} {es : List Element} {ls : List Literal}
    {ws : List (List Char)} (hk : IsQuoted k w) (h : WordsOf g es ls ws) :
    WordsOf g (.keyword k :: es) ls (w :: ws)
  /-- A keyword as it is, if there is no warning about it. -/
  | bare {k : String} {es : List Element} {ls : List Literal} {ws : List (List Char)}
    (hk : ∀ w ∈ g.lint, w.keyword? ≠ some k) (h : WordsOf g es ls ws) :
    WordsOf g (.keyword k :: es) ls (k.toList :: ws)
  /-- The literal for an argument. -/
  | argument {name : String} {l : Literal} {w : List Char} {es : List Element}
    {ls : List Literal} {ws : List (List Char)} (hl : l.IsWrittenAs w) (h : WordsOf g es ls ws) :
    WordsOf g (.argument name :: es) (l :: ls) (w :: ws)

/-- A rule of a grammar with one literal for each of its arguments. -/
structure LiteralCall (g : Grammar) where
  rule : Rule
  mem_rules : rule ∈ g.rules
  literals : List Literal
  length_literals : literals.length = rule.arguments.length

/-- The rule of a call and the values of its literals. -/
def LiteralCall.call {g : Grammar} (c : LiteralCall g) : Call :=
  ⟨c.rule, c.literals.map Literal.value⟩

/-- Words for one call after the other. -/
inductive WordsOfAll {g : Grammar} : List (LiteralCall g) → List (List Char) → Prop
  | nil : WordsOfAll [] []
  | cons {c : LiteralCall g} {calls : List (LiteralCall g)} {ws more : List (List Char)}
    (hc : WordsOf g c.rule.elements c.literals ws) (h : WordsOfAll calls more) :
    WordsOfAll (c :: calls) (ws ++ more)

section

variable {g : Grammar} {es : List Element} {ls : List Literal} {ws : List (List Char)}

/-- Words for elements are lexemes of tokens that carry them. -/
theorem WordsOf.exists_carries (h : WordsOf g es ls ws)
    (hes : ∀ k, .keyword k ∈ es → ∃ r ∈ g.rules, k ∈ r.keywords) :
    ∃ toks, List.Forall₂ IsLexeme toks ws ∧ Carries es (ls.map Literal.value) toks := by
  induction h with
  | nil => exact ⟨[], .nil, .nil⟩
  | @quoted k w es ls ws hk h ih =>
    obtain ⟨toks, hlexemes, hcarries⟩ := ih fun k hk => hes k (List.mem_cons_of_mem _ hk)
    exact ⟨⟨.str, k⟩ :: toks, .cons hk.isLexeme hlexemes, .keyword rfl hcarries⟩
  | @bare k es ls ws hk h ih =>
    obtain ⟨toks, hlexemes, hcarries⟩ := ih fun k hk => hes k (List.mem_cons_of_mem _ hk)
    obtain ⟨r, hr, hkr⟩ := hes k List.mem_cons_self
    obtain ⟨t, rfl, ht⟩ := isBareToken_iff.mp (isBareToken_of_forall_keyword?_ne hr hkr hk)
    exact ⟨t :: toks, .cons ht hlexemes, .keyword rfl hcarries⟩
  | @argument name l w es ls ws hl h ih =>
    obtain ⟨toks, hlexemes, hcarries⟩ := ih fun k hk => hes k (List.mem_cons_of_mem _ hk)
    exact ⟨l.token :: toks, .cons hl.isLexeme hlexemes, .argument l.argument?_token hcarries⟩

/-- There are words for elements if no keyword holds both quotes. -/
theorem exists_wordsOf (hes : ∀ k, .keyword k ∈ es → holdsBothQuotes k = false)
    (hls : ls.length = (es.filterMap Element.argument?).length) : ∃ ws, WordsOf g es ls ws := by
  induction es generalizing ls with
  | nil =>
    rw [List.length_eq_zero_iff.mp hls]
    exact ⟨[], .nil⟩
  | cons e es ih =>
    have hes' : ∀ k, .keyword k ∈ es → holdsBothQuotes k = false :=
      fun k hk => hes k (List.mem_cons_of_mem _ hk)
    cases e with
    | keyword k =>
      obtain ⟨w, hw⟩ := exists_isQuoted (hes k List.mem_cons_self)
      obtain ⟨ws, hws⟩ := ih hes' hls
      exact ⟨w :: ws, .quoted hw hws⟩
    | argument name =>
      cases ls with
      | nil => cases hls
      | cons l ls =>
        obtain ⟨w, hw⟩ := l.exists_isWrittenAs
        obtain ⟨ws, hws⟩ := ih hes' (Nat.succ.inj hls)
        exact ⟨w :: ws, .argument hw hws⟩

theorem Rule.keyword_mem_elements_iff {r : Rule} {k : String} :
    .keyword k ∈ r.elements ↔ k ∈ r.keywords := by
  rw [keywords, List.mem_filterMap]
  constructor
  · exact fun h => ⟨.keyword k, h, rfl⟩
  · rintro ⟨e, he, hk⟩
    cases e with
    | keyword k' =>
      cases hk
      exact he
    | argument name => cases hk

/-- Words for calls are lexemes of tokens that carry these calls. -/
theorem WordsOfAll.exists_carriesAll {calls : List (LiteralCall g)} (h : WordsOfAll calls ws) :
    ∃ toks, List.Forall₂ IsLexeme toks ws ∧ CarriesAll (calls.map LiteralCall.call) toks := by
  induction h with
  | nil => exact ⟨[], .nil, .nil⟩
  | @cons c calls ws more hc h ih =>
    obtain ⟨toks, hlexemes, hcarries⟩ := hc.exists_carries
      fun k hk => ⟨c.rule, c.mem_rules, Rule.keyword_mem_elements_iff.mp hk⟩
    obtain ⟨toks', hlexemes', hcarries'⟩ := ih
    exact ⟨toks ++ toks', List.rel_append hlexemes hlexemes', .cons hcarries hcarries'⟩

/-- Calls that are written are read back, if the rule of each is taken wherever it matches. -/
theorem parseSource_of_wordsOfAll {calls : List (LiteralCall g)} (h : WordsOfAll calls ws)
    (hg : ∀ c ∈ calls, g.Prefers c.rule) :
    (lex (spaced ws)).diagnostics = [] ∧ ∃ b, parseSource g (spaced ws) = .ok b ∧
      List.Forall₂ (fun c a => c.call.IsDoneBy a) calls b.actions := by
  obtain ⟨toks, hlexemes, hcarries⟩ := h.exists_carriesAll
  obtain ⟨hclean, htokens⟩ := lex_spaced hlexemes
  obtain ⟨b, hb, hactions⟩ := parse_of_carriesAll hcarries htokens
    (isEnd_eq_false_of_forall₂ hlexemes) (List.forall_mem_map.mpr hg)
  exact ⟨hclean, b, hb, List.forall₂_map_left_iff.mp hactions⟩

end

/-! ## Rules that differ in their first keywords -/

/-- Every rule starts with a keyword, no two rules with the same one, and no keyword holds both
quotes. -/
structure Grammar.IsKeyed (g : Grammar) : Prop where
  keyword_first : ∀ r ∈ g.rules, ∃ k es, r.elements = .keyword k :: es
  distinct : g.rules.Pairwise fun r r' => r.elements.head? ≠ r'.elements.head?
  quotable : ∀ r ∈ g.rules, ∀ k ∈ r.keywords, holdsBothQuotes k = false

/-- A rule is passed over if it starts with a keyword that the token does not fit. -/
theorem Rule.passedAt_of_text_ne {r : Rule} {ts : List Placed} {p : Nat} {k : String}
    {es : List Element} (hr : r.elements = .keyword k :: es)
    (h : (tokenAt ts p).token.text ≠ k) : r.PassedAt ts p := by
  constructor
  · rintro ⟨-, hfit⟩
    rw [hr] at hfit
    exact h (fitFrom_cons.mp hfit).1
  · rintro ⟨j, hj⟩
    rw [hr] at hj
    cases j with
    | zero => exact stumbleAfter_cons_zero.mp hj
    | succ j => exact h (stumbleAfter_cons_succ.mp hj).1

/-- The rules before a rule that matches start with other keywords, so they are passed over. -/
theorem Grammar.IsKeyed.prefers {g : Grammar} (hg : g.IsKeyed) {r : Rule} (hr : r ∈ g.rules) :
    g.Prefers r := by
  obtain ⟨k, es, hk⟩ := hg.keyword_first r hr
  refine ⟨by simp [hk], fun ts p hm => ?_⟩
  have hfit := hm.2
  rw [hk, fitFrom_cons] at hfit
  obtain ⟨earlier, later, hrules⟩ := List.append_of_mem hr
  refine ⟨earlier, later, hrules, hm, fun e he => ?_⟩
  obtain ⟨k', es', hk'⟩ := hg.keyword_first e (by simp [hrules, he])
  refine Rule.passedAt_of_text_ne hk' fun htext => ?_
  have hdistinct := hg.distinct
  rw [hrules, List.pairwise_append] at hdistinct
  have hne := hdistinct.2.2 e he r List.mem_cons_self
  rw [hk, hk', hfit.1.symm.trans htext] at hne
  exact hne rfl

/-- Calls of rules that start with keywords of their own can be written, and however they are
written they are read back as they are: the text is read without a diagnostic, and the block holds
one action for each call, in order. -/
theorem parseSource_spaced {g : Grammar} (hg : g.IsKeyed) (calls : List (LiteralCall g)) :
    (∃ ws, WordsOfAll calls ws) ∧
      ∀ ws, WordsOfAll calls ws →
        (lex (spaced ws)).diagnostics = [] ∧ ∃ b, parseSource g (spaced ws) = .ok b ∧
          List.Forall₂ (fun c a => c.call.IsDoneBy a) calls b.actions := by
  constructor
  · induction calls with
    | nil => exact ⟨[], .nil⟩
    | cons c calls ih =>
      obtain ⟨ws, hws⟩ := exists_wordsOf (g := g) (fun k hk => hg.quotable c.rule c.mem_rules k
        (Rule.keyword_mem_elements_iff.mp hk)) c.length_literals
      obtain ⟨more, hmore⟩ := ih
      exact ⟨ws ++ more, .cons hws hmore⟩
  · exact fun ws hws => parseSource_of_wordsOfAll hws fun c _ => hg.prefers c.mem_rules

/-- A rule with two arguments of one name. -/
def sendRule : Rule :=
  ⟨"send", [.keyword "send", .argument "message", .keyword "to", .argument "message"]⟩

/-- A rule of one keyword, which is not a bare token. -/
def haltRule : Rule :=
  ⟨"halt", [.keyword "halt now"]⟩

theorem isKeyed_sendRule_haltRule : Grammar.IsKeyed ⟨[sendRule, haltRule]⟩ where
  keyword_first := by simp [sendRule, haltRule]
  distinct := by decide
  quotable := by decide

/-- A call whose two values are given to one name. -/
def sendCall : LiteralCall ⟨[sendRule, haltRule]⟩ :=
  ⟨sendRule, by decide, [.str "all" rfl, .number ['2'] ['5'] rfl rfl], rfl⟩

/-- A call without arguments. -/
def haltCall : LiteralCall ⟨[sendRule, haltRule]⟩ :=
  ⟨haltRule, by decide, [], rfl⟩

theorem wordsOfAll_sendCall_haltCall : WordsOfAll [sendCall, haltCall]
    ["send".toList, "'all'".toList, "to".toList, "2.5".toList, "\"halt now\"".toList] := by
  have hsend : WordsOf ⟨[sendRule, haltRule]⟩ sendCall.rule.elements sendCall.literals
      ["send".toList, "'all'".toList, "to".toList, "2.5".toList] := by
    refine .bare (by decide +kernel) (.argument ?_ (.bare (by decide +kernel) (.argument rfl .nil)))
    exact ⟨'\'', rfl, by decide, rfl⟩
  have hhalt : WordsOf ⟨[sendRule, haltRule]⟩ haltCall.rule.elements haltCall.literals
      ["\"halt now\"".toList] :=
    .quoted ⟨'"', rfl, by decide, rfl⟩ .nil
  exact .cons hsend (.cons hhalt .nil)

theorem parseSource_sendCall_haltCall :
    (lex "send 'all' to 2.5 \"halt now\"").diagnostics = [] ∧
      ∃ b, parseSource ⟨[sendRule, haltRule]⟩ "send 'all' to 2.5 \"halt now\"" = .ok b ∧
        List.Forall₂ (fun c a => c.call.IsDoneBy a) [sendCall, haltCall] b.actions := by
  have h := (parseSource_spaced isKeyed_sendRule_haltRule [sendCall, haltCall]).2 _
    wordsOfAll_sendCall_haltCall
  have htext : spaced ["send".toList, "'all'".toList, "to".toList, "2.5".toList,
      "\"halt now\"".toList] = "send 'all' to 2.5 \"halt now\"" := by decide
  rwa [htext] at h

end CommandScript
