import CommandScript.Proofs.Lines
import CommandScript.Proofs.TokenText

/-!
# Printing the tokens of a text

The tokens of a text can be printed again: a string between quotes that it does not hold, a
variable after a dollar sign, and any other token as its text (`Token.IsPrintedAs`). There is such
a print of every token, since no text holds both quotes (`Token.isPrintedAs_print`), and every
print is a lexeme of the token (`IsLexeme.of_isPrintedAs`). So the prints of all tokens of a text,
single spaces between them, are read as the same tokens, and they parse to the same result, but
for its lines (`reprint_agrees`). The text itself need not be free of diagnostics.
-/

namespace CommandScript

namespace Token

/-- The ways to print a token. Which quotes a string stands between is left open. -/
def IsPrintedAs (t : Token) (w : List Char) : Prop :=
  match t.kind with
  | .str => IsQuoted t.text w
  | .var => w = '$' :: t.text.toList
  | _ => w = t.text.toList

/-- A print of a token, with double quotes around a string that does not hold one. -/
def print (t : Token) : List Char :=
  match t.kind with
  | .str =>
    let quote := if '"' ∈ t.text.toList then '\'' else '"'
    quote :: t.text.toList ++ [quote]
  | .var => '$' :: t.text.toList
  | _ => t.text.toList

/-- A token whose text lacks one of the quotes is printed. -/
theorem isPrintedAs_print {t : Token} (h : holdsBothQuotes t.text = false) :
    t.IsPrintedAs t.print := by
  obtain ⟨k, text⟩ := t
  by_cases hk : k = .str
  · subst hk
    by_cases hq : '"' ∈ text.toList
    · have hsingle : '\'' ∉ text.toList := by simpa [holdsBothQuotes, hq] using h
      exact ⟨'\'', rfl, hsingle, by simp [print, hq]⟩
    · exact ⟨'"', rfl, hq, by simp [print, hq]⟩
  · cases k <;> first | rfl | exact absurd rfl hk

end Token

/-- If any characters stand for a token, then all that it is printed as do. -/
theorem IsLexeme.of_isPrintedAs {t : Token} {cs w : List Char} (h : IsLexeme t cs)
    (hw : t.IsPrintedAs w) : IsLexeme t w := by
  have hspelling := h.spelling
  obtain ⟨k, text⟩ := t
  by_cases hstr : k = .str
  · subst hstr
    exact IsQuoted.isLexeme hw
  by_cases hvar : k = .var
  · subst hvar
    have hw : w = '$' :: text.toList := hw
    cases h with
    | fixed hs hk => cases hs
    | var hcs =>
      rw [hw, String.toList_ofList]
      exact .var hcs
  · have hw : w = text.toList := by cases k <;> first | exact hw | contradiction
    have hcs : cs = text.toList := by simpa [hstr, hvar] using hspelling
    rwa [hw, ← hcs]

/-- So prints of tokens are lexemes of them, one by one. -/
theorem forall₂_isLexeme_of_isPrintedAs {ts : List Token} {ws : List (List Char)}
    (hts : ∀ t ∈ ts, ∃ cs, IsLexeme t cs) (h : List.Forall₂ Token.IsPrintedAs ts ws) :
    List.Forall₂ IsLexeme ts ws := by
  induction h with
  | nil => exact .nil
  | cons hw hws ih =>
    obtain ⟨⟨cs, hcs⟩, hts⟩ := List.forall_mem_cons.mp hts
    exact .cons (hcs.of_isPrintedAs hw) (ih hts)

namespace Lexed

/-- The tokens of a text that are not its end, without their lines. -/
def script (l : Lexed) : List Token :=
  (l.tokens.map Placed.token).filter fun t => !t.isEnd

/-- A text that consists of prints of the tokens, single spaces between them. -/
def IsReprintedAs (l : Lexed) (text : String) : Prop :=
  ∃ ws, List.Forall₂ Token.IsPrintedAs l.script ws ∧ text = spaced ws

end Lexed

section

variable {source : String}

/-- The end of input is the last token of a text and no other. -/
theorem map_token_eq_script (source : String) :
    (lex source).tokens.map Placed.token = (lex source).script ++ [.endOfInput] := by
  have hpieces : ∀ t ∈ (pieces source.toList).filterMap Piece.token?, (!t.isEnd) = true := by
    intro t ht
    obtain ⟨p, hp, hpt⟩ := List.mem_filterMap.mp ht
    obtain ⟨cs, hcs⟩ := (sound_of_mem_pieces hp).exists_isLexeme hpt
    rw [hcs.isEnd_eq_false, Bool.not_false]
  have hend : [Token.endOfInput].filter (fun t => !t.isEnd) = [] := rfl
  rw [Lexed.script, map_token_lex, List.filter_append, List.filter_eq_self.mpr hpieces, hend,
    List.append_nil]

/-- Before its end, a text has tokens only that characters stand for. -/
theorem exists_isLexeme_of_mem_script {t : Token} (h : t ∈ (lex source).script) :
    ∃ cs, IsLexeme t cs := by
  obtain ⟨hmem, hend⟩ := List.mem_filter.mp h
  obtain ⟨p, hp, rfl⟩ := List.mem_map.mp hmem
  rcases eq_endOfInput_or_isLexeme hp with heq | hlexeme
  · rw [heq] at hend
    cases hend
  · exact hlexeme

theorem exists_isReprintedAs (source : String) : ∃ text, (lex source).IsReprintedAs text := by
  have hprint : ∀ t ∈ (lex source).script, t.IsPrintedAs t.print := by
    intro t ht
    obtain ⟨cs, hcs⟩ := exists_isLexeme_of_mem_script ht
    exact Token.isPrintedAs_print (holdsBothQuotes_eq_false_iff.mpr hcs.exists_quote)
  refine ⟨_, (lex source).script.map Token.print, ?_, rfl⟩
  rw [List.forall₂_map_right_iff, List.forall₂_same]
  exact hprint

end

/-- The tokens of a text have texts that lack one of the quotes, so they can be printed again.
However this is done, the print is read without a diagnostic as the same tokens, and with any
grammar it parses to the same result, but for its lines: to the same actions with the same
arguments, or to the same error at the same position, with the same closest rule. -/
theorem reprint_agrees (source : String) :
    (∀ t ∈ (lex source).tokens, holdsBothQuotes t.token.text = false) ∧
      (∃ text, (lex source).IsReprintedAs text) ∧
      ∀ text, (lex source).IsReprintedAs text →
        (lex text).diagnostics = [] ∧
        (lex text).tokens.map Placed.token = (lex source).tokens.map Placed.token ∧
        ∀ g, mapResult Action.unlined ParseError.unlined (parseSource g text) =
          mapResult Action.unlined ParseError.unlined (parseSource g source) := by
  refine ⟨fun t ht => holdsBothQuotes_eq_false_of_mem ht, exists_isReprintedAs source, ?_⟩
  rintro text ⟨ws, hws, rfl⟩
  have hlexemes := forall₂_isLexeme_of_isPrintedAs
    (fun t ht => exists_isLexeme_of_mem_script ht) hws
  obtain ⟨hclean, htokens⟩ := lex_spaced hlexemes
  rw [← map_token_eq_script] at htokens
  exact ⟨hclean, htokens, fun g => parse_eq_of_map_token_eq htokens g⟩

/-- A text in which a character is skipped and a quote is never closed. -/
def brokenText : String :=
  "go#'a\"b"

theorem isReprintedAs_brokenText : (lex brokenText).IsReprintedAs "go 'a\"b'" := by
  have hscript : (lex brokenText).script = [⟨.word, "go"⟩, ⟨.str, "a\"b"⟩] := by decide +kernel
  refine ⟨["go".toList, "'a\"b'".toList], ?_, by decide +kernel⟩
  rw [hscript]
  exact .cons rfl (.cons ⟨'\'', rfl, by decide, rfl⟩ .nil)

theorem reprint_agrees_brokenText :
    (lex brokenText).IsReprintedAs "go 'a\"b'" ∧
      (lex "go 'a\"b'").diagnostics = [] ∧
      (lex "go 'a\"b'").tokens.map Placed.token = (lex brokenText).tokens.map Placed.token ∧
      ∀ g, mapResult Action.unlined ParseError.unlined (parseSource g "go 'a\"b'") =
        mapResult Action.unlined ParseError.unlined (parseSource g brokenText) :=
  ⟨isReprintedAs_brokenText, (reprint_agrees brokenText).2.2 _ isReprintedAs_brokenText⟩

end CommandScript
