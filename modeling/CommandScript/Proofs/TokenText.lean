import CommandScript.Grammar.Lint
import CommandScript.Proofs.Lexeme

/-!
# The texts of tokens

Every token of a text but the end of input has characters that stand for it
(`eq_endOfInput_or_isLexeme`), also the string after a quote that is never closed. These
characters are the text of the token, or they hold more than that, a dollar sign or two quotes
(`IsLexeme.spelling`). So a text is a bare token exactly if it stands for a token of that text
(`isBareToken_iff`). No token has a text that holds both quotes
(`holdsBothQuotes_eq_false_of_mem`), and any other text can be quoted to be that of a string
(`exists_isQuoted`).
-/

namespace CommandScript

/-! ## The tokens of a text -/

/-- There are characters that stand for the token of a piece. A quote that is never closed could
be closed at the end of the text. -/
theorem Piece.Sound.exists_isLexeme {p : Piece} {t : Token} (h : p.Sound)
    (ht : p.token? = some t) : ∃ cs, IsLexeme t cs := by
  cases h with
  | blank hc => cases ht
  | unknown hb hc => cases ht
  | lexeme ht' hd hp =>
    rw [ht'] at ht
    cases ht
    exact ⟨p.spelling, hp⟩
  | @unclosed q cs hq hcs =>
    cases ht
    exact ⟨q :: cs ++ [q], .str hq hcs⟩

/-- Every token of a text is the end of input, or there are characters that stand for it. -/
theorem eq_endOfInput_or_isLexeme {source : String} {t : Placed}
    (h : t ∈ (lex source).tokens) : t.token = .endOfInput ∨ ∃ cs, IsLexeme t.token cs := by
  have ht := List.mem_map_of_mem (f := Placed.token) h
  rw [map_token_lex] at ht
  rcases List.mem_append.mp ht with ht | ht
  · obtain ⟨p, hp, hpt⟩ := List.mem_filterMap.mp ht
    exact Or.inr ((sound_of_mem_pieces hp).exists_isLexeme hpt)
  · exact Or.inl (List.mem_singleton.mp ht)

/-- A lexeme, read by itself. -/
theorem lex_isLexeme {t : Token} {cs : List Char} (h : IsLexeme t cs) :
    (lex (String.ofList cs)).diagnostics = [] ∧
      (lex (String.ofList cs)).tokens.map Placed.token = [t, .endOfInput] := by
  simpa [spaced] using lex_spaced (.cons h .nil)

/-! ## Texts and their characters -/

/-- Characters that are a text between two equal quotes, which are not in it. -/
def IsQuoted (text : String) (cs : List Char) : Prop :=
  ∃ q, isQuote q = true ∧ q ∉ text.toList ∧ cs = q :: text.toList ++ [q]

theorem IsQuoted.isLexeme {text : String} {cs : List Char} (h : IsQuoted text cs) :
    IsLexeme ⟨.str, text⟩ cs := by
  obtain ⟨q, hq, hnot, rfl⟩ := h
  have hl := IsLexeme.str hq hnot
  rwa [String.ofList_toList] at hl

/-- The characters that stand for a token are its text, or one or two characters more. -/
theorem IsLexeme.spelling {t : Token} {cs : List Char} (h : IsLexeme t cs) :
    cs = t.text.toList ∨
      t.kind = .var ∧ t.text.toList.all isWordBody = true ∧ cs = '$' :: t.text.toList ∨
      t.kind = .str ∧ IsQuoted t.text cs := by
  cases h with
  | fixed hs hk => exact Or.inl rfl
  | word hcs hk => exact Or.inl String.toList_ofList.symm
  | number hw hf => exact Or.inl String.toList_ofList.symm
  | var hcs =>
    rw [String.toList_ofList]
    exact Or.inr (Or.inl ⟨rfl, hcs, rfl⟩)
  | @str q cs hq hcs =>
    refine Or.inr (Or.inr ⟨rfl, q, hq, ?_⟩)
    rw [String.toList_ofList]
    exact ⟨hcs, rfl⟩

theorem length_spelling_le_of_mem {ps : List Piece} {p : Piece} (h : p ∈ ps) :
    p.spelling.length ≤ (ps.flatMap Piece.spelling).length := by
  obtain ⟨front, later, rfl⟩ := List.append_of_mem h
  simp only [List.flatMap_append, List.flatMap_cons, List.length_append]
  omega

/-- A token of a text that is read without a diagnostic is spelled by a part of the text. -/
theorem exists_isLexeme_length_le {source : List Char} {t : Token}
    (hclean : ∀ p ∈ pieces source, ∀ line, p.diagnostic? line = none)
    (h : t ∈ (pieces source).filterMap Piece.token?) :
    ∃ cs, IsLexeme t cs ∧ cs.length ≤ source.length := by
  obtain ⟨p, hp, ht⟩ := List.mem_filterMap.mp h
  have hlength := length_spelling_le_of_mem hp
  rw [spelling_pieces] at hlength
  cases sound_of_mem_pieces hp with
  | blank hc => cases ht
  | unknown hb hc => cases ht
  | lexeme ht' hd hl =>
    rw [ht'] at ht
    cases ht
    exact ⟨p.spelling, hl, hlength⟩
  | unclosed hq hcs => cases hclean _ hp 0

theorem isBareToken_eq_true_iff {text : String} : isBareToken text = true ↔
    (lex text).diagnostics = [] ∧ ∃ x y, (lex text).tokens = [x, y] ∧ x.token.text = text := by
  rw [isBareToken, Bool.and_eq_true_iff, Lexed.isClean, List.isEmpty_iff]
  refine and_congr_right fun _ => ?_
  split
  · next x y h => simp [h]
  · next hne =>
    refine ⟨fun h => (Bool.false_ne_true h).elim, ?_⟩
    rintro ⟨x, y, h, -⟩
    exact absurd h (hne x y)

/-- A text is a bare token if it stands for a token of just this text. -/
theorem isBareToken_iff {text : String} :
    isBareToken text = true ↔ ∃ t : Token, t.text = text ∧ IsLexeme t text.toList := by
  rw [isBareToken_eq_true_iff]
  constructor
  · rintro ⟨hclean, x, y, hxy, hx⟩
    have htokens : [x.token] ++ [y.token] =
        (pieces text.toList).filterMap Piece.token? ++ [.endOfInput] := by
      rw [← map_token_lex, hxy]
      rfl
    have hpiece := (List.append_inj' htokens rfl).1
    obtain ⟨cs, hcs, hlength⟩ := exists_isLexeme_length_le (diagnosticsOf_eq_nil_iff.mp hclean)
      (hpiece ▸ List.mem_singleton_self x.token)
    -- a variable or a string would be longer than the text
    rcases hcs.spelling with rfl | ⟨-, -, rfl⟩ | ⟨-, q, -, -, rfl⟩
    · exact ⟨x.token, hx, hx ▸ hcs⟩
    · rw [hx, List.length_cons] at hlength
      omega
    · rw [hx, List.length_append, List.length_cons, List.length_singleton] at hlength
      omega
  · rintro ⟨t, ht, hl⟩
    obtain ⟨hclean, htokens⟩ := lex_isLexeme hl
    rw [String.ofList_toList] at hclean htokens
    refine ⟨hclean, ?_⟩
    match hm : (lex text).tokens with
    | [x, y] =>
      rw [hm] at htokens
      exact ⟨x, y, rfl, (List.cons.inj htokens).1 ▸ ht⟩
    | [] => simp [hm] at htokens
    | [_] => simp [hm] at htokens
    | _ :: _ :: _ :: _ => simp [hm] at htokens

/-! ## Quotes in a text -/

theorem isWordBody_of_mem_identifier {cs : List Char} (h : isIdentifier cs = true) :
    ∀ c ∈ cs, isWordBody c = true := by
  cases cs with
  | nil => cases h
  | cons d cs =>
    obtain ⟨hd, hcs⟩ := Bool.and_eq_true_iff.mp h
    exact List.forall_mem_cons.mpr ⟨isWordBody_of_isWordStart hd, List.all_eq_true.mp hcs⟩

theorem mem_numeral {whole fraction : List Char} {c : Char} (h : c ∈ numeral whole fraction) :
    c ∈ whole ∨ c = '.' ∨ c ∈ fraction := by
  cases fraction with
  | nil => exact Or.inl h
  | cons d fraction =>
    rcases List.mem_append.mp h with h | h
    · exact Or.inl h
    · exact Or.inr (List.mem_cons.mp h)

/-- A character that stands in no word, in no number and in no fixed text. -/
structure IsForeign (c : Char) : Prop where
  notWord : isWordBody c = false
  notPoint : c ≠ '.'
  notFixed : ∀ k s, Kind.fixedText? k = some s → c ∉ s.toList

theorem isForeign_doubleQuote : IsForeign '"' :=
  ⟨rfl, by decide, fun k s hs => by cases k <;> cases hs <;> decide⟩

/-- Of all tokens, only a string has such a character in its text. -/
theorem IsLexeme.kind_of_isForeign {t : Token} {cs : List Char} {c : Char} (h : IsLexeme t cs)
    (hc : IsForeign c) (hmem : c ∈ t.text.toList) : t.kind = .str := by
  have hbody (hword : isWordBody c = true) : t.kind = .str := by
    rw [hc.notWord] at hword
    cases hword
  cases h with
  | fixed hs hk => exact absurd hmem (hc.notFixed _ _ hs)
  | word hcs hk =>
    rw [String.toList_ofList] at hmem
    exact hbody (isWordBody_of_mem_identifier hcs c hmem)
  | number hw hf =>
    rw [String.toList_ofList] at hmem
    rcases mem_numeral hmem with hmem | hmem | hmem
    · have hdigits := (Bool.and_eq_true_iff.mp hw).2
      exact hbody (isWordBody_of_isDigit (List.all_eq_true.mp hdigits c hmem))
    · exact absurd hmem hc.notPoint
    · exact hbody (isWordBody_of_isDigit (List.all_eq_true.mp hf c hmem))
  | var hcs =>
    rw [String.toList_ofList] at hmem
    exact hbody (List.all_eq_true.mp hcs c hmem)
  | str hq hcs => rfl

/-- The text of a token lacks one of the quotes. -/
theorem IsLexeme.exists_quote {t : Token} {cs : List Char} (h : IsLexeme t cs) :
    ∃ q, isQuote q = true ∧ q ∉ t.text.toList := by
  by_cases hmem : '"' ∈ t.text.toList
  · have hkind := h.kind_of_isForeign isForeign_doubleQuote hmem
    cases h with
    | fixed hs hk =>
      cases hkind
      cases hs
    | @str q cs hq hcs =>
      rw [String.toList_ofList]
      exact ⟨q, hq, hcs⟩
    | _ => cases hkind
  · exact ⟨'"', rfl, hmem⟩

theorem holdsBothQuotes_eq_false_iff {text : String} :
    holdsBothQuotes text = false ↔ ∃ q, isQuote q = true ∧ q ∉ text.toList := by
  simp only [isQuote_iff, holdsBothQuotes, Bool.and_eq_false_iff, List.contains_eq_mem,
    decide_eq_false_iff_not]
  constructor
  · rintro (h | h)
    · exact ⟨'\'', Or.inr rfl, h⟩
    · exact ⟨'"', Or.inl rfl, h⟩
  · rintro ⟨q, rfl | rfl, h⟩
    · exact Or.inr h
    · exact Or.inl h

/-- No token has a text that holds both quotes. -/
theorem holdsBothQuotes_eq_false_of_mem {source : String} {t : Placed}
    (h : t ∈ (lex source).tokens) : holdsBothQuotes t.token.text = false := by
  rcases eq_endOfInput_or_isLexeme h with ht | ⟨cs, hcs⟩
  · rw [ht]
    decide
  · exact holdsBothQuotes_eq_false_iff.mpr hcs.exists_quote

/-- A bare token is the text of a token, so it lacks one of the quotes. -/
theorem isBareToken_eq_false_of_holdsBothQuotes {text : String}
    (h : holdsBothQuotes text = true) : isBareToken text = false := by
  cases hb : isBareToken text with
  | false => rfl
  | true =>
    obtain ⟨t, rfl, ht⟩ := isBareToken_iff.mp hb
    rw [holdsBothQuotes_eq_false_iff.mpr ht.exists_quote] at h
    cases h

/-- A text that lacks one of the quotes can be quoted. -/
theorem exists_isQuoted {text : String} (h : holdsBothQuotes text = false) :
    ∃ cs, IsQuoted text cs := by
  obtain ⟨q, hq, hnot⟩ := holdsBothQuotes_eq_false_iff.mp h
  exact ⟨_, q, hq, hnot, rfl⟩

end CommandScript
