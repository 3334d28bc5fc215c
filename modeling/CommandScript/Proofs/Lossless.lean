import Mathlib.Data.List.Chain
import CommandScript.Proofs.Lexeme

/-!
# Nothing of a text is lost

A text falls into parts (`TextPart`): runs of blanks, characters that are skipped, lexemes of
tokens, and at its end perhaps a quote that is never closed. `IsCut` says that parts account for
all that reading a text gives. Their characters are the text, their tokens are the tokens that were
read, and what they report are the diagnostics, each of these in the order of the text. Every text
has such a cut (`exists_isCut`): `partsOf` joins the blanks among its pieces to runs, and leaves
the other pieces as they are.
-/

namespace CommandScript

/-- A part of a text. -/
inductive TextPart
  /-- A run of blanks. -/
  | blanks (run : List Char)
  /-- A character that is skipped. -/
  | skipped (char : Char)
  /-- The characters that stand for a token. -/
  | lexeme (token : Token) (chars : List Char)
  /-- A quote that is never closed, and the text after it. -/
  | unclosed (quote : Char) (text : List Char)

/-- What a diagnostic is about: a character that is skipped, or a quote without a partner. -/
def Diagnostic.subject : Diagnostic → Char ⊕ Char
  | unknownChar c _ => .inl c
  | unterminatedString q _ => .inr q

namespace TextPart

/-- The characters of a part. -/
def chars : TextPart → List Char
  | blanks run => run
  | skipped c => [c]
  | lexeme _ cs => cs
  | unclosed q cs => q :: cs

/-- The token of a part. -/
def token? : TextPart → Option Token
  | blanks _ => none
  | skipped _ => none
  | lexeme t _ => some t
  | unclosed _ cs => some ⟨.str, String.ofList cs⟩

/-- What a diagnostic of a part is about. -/
def subject? : TextPart → Option (Char ⊕ Char)
  | skipped c => some (.inl c)
  | unclosed q _ => some (.inr q)
  | _ => none

/-- Whether a part is a run of blanks. -/
def isRun : TextPart → Bool
  | blanks _ => true
  | _ => false

/-- A part is what it is called: a run holds blanks only, and at least one, no lexeme starts with
a character that is skipped, and a text after a quote does not hold the quote. -/
def IsProper : TextPart → Prop
  | blanks run => run ≠ [] ∧ ∀ c ∈ run, isBlank c = true
  | skipped c => isBlank c = false ∧ ∀ t cs, ¬IsLexeme t (c :: cs)
  | lexeme t cs => IsLexeme t cs
  | unclosed q cs => isQuote q = true ∧ q ∉ cs

end TextPart

/-- Parts of a text that account for all that reading it gives. -/
structure IsCut (source : String) (l : Lexed) (parts : List TextPart) : Prop where
  /-- The parts are the text, in order. -/
  chars : parts.flatMap TextPart.chars = source.toList
  proper : ∀ p ∈ parts, p.IsProper
  /-- Runs of blanks are as long as they can be. -/
  runs : parts.IsChain fun p q => p.isRun = true → q.isRun = false
  /-- The tokens are those of the parts in order, and then the end of input. -/
  tokens : l.tokens.map Placed.token = parts.filterMap TextPart.token? ++ [.endOfInput]
  /-- The end of input comes only once. -/
  one_end : ∀ t ∈ parts.filterMap TextPart.token?, t.isEnd = false
  /-- The diagnostics are about the characters that are skipped and the quote that is never closed,
  in order. -/
  diagnostics : l.diagnostics.map Diagnostic.subject = parts.filterMap TextPart.subject?
  /-- A quote that is never closed is in the last part. -/
  unclosed_last : ∀ front q cs later, parts = front ++ .unclosed q cs :: later → later = []
  /-- A diagnostic about such a quote is the last one, and the only one of its sort. It is about the
  last token before the end of input. -/
  unterminated : ∀ q line, Diagnostic.unterminatedString q line ∈ l.diagnostics →
    ∃ ds ts text e, l.diagnostics = ds ++ [.unterminatedString q line] ∧
      (∀ d ∈ ds, ∃ c line, d = .unknownChar c line) ∧ l.tokens = ts ++ [⟨⟨.str, text⟩, line⟩, e]

/-! ## The parts of pieces -/

/-- A piece as a part. -/
def TextPart.ofPiece : Piece → TextPart
  | .blank c => .blanks [c]
  | .unknown c => .skipped c
  | .quoted q cs false => .unclosed q cs
  | p => .lexeme (p.token?.getD .endOfInput) p.spelling

/-- Parts with one more before them, which a run after it is joined to if it is a run. -/
def joinPart : TextPart → List TextPart → List TextPart
  | .blanks run, .blanks run' :: parts => .blanks (run ++ run') :: parts
  | p, parts => p :: parts

/-- The parts of pieces. -/
def partsOf (ps : List Piece) : List TextPart :=
  ps.foldr (fun p parts => joinPart (.ofPiece p) parts) []

theorem partsOf_cons (p : Piece) (ps : List Piece) :
    partsOf (p :: ps) = joinPart (.ofPiece p) (partsOf ps) :=
  rfl

namespace TextPart

variable {p : TextPart} {parts : List TextPart}

theorem ofPiece_of_token? {p : Piece} {t : Token} (ht : p.token? = some t)
    (hd : ∀ line, p.diagnostic? line = none) : ofPiece p = .lexeme t p.spelling := by
  cases p with
  | blank c => cases ht
  | unknown c => cases ht
  | quoted q cs closed =>
    cases closed with
    | false => cases hd 0
    | true =>
      cases ht
      rfl
  | _ => simp [ofPiece, ht]

theorem flatMap_chars_joinPart (p : TextPart) (parts : List TextPart) :
    (joinPart p parts).flatMap chars = p.chars ++ parts.flatMap chars := by
  unfold joinPart
  split
  · simp [chars]
  · rfl

theorem filterMap_token?_joinPart (p : TextPart) (parts : List TextPart) :
    (joinPart p parts).filterMap token? = p.token?.toList ++ parts.filterMap token? := by
  unfold joinPart
  split
  · rfl
  · cases h : p.token? <;> simp [h]

theorem filterMap_subject?_joinPart (p : TextPart) (parts : List TextPart) :
    (joinPart p parts).filterMap subject? = p.subject?.toList ++ parts.filterMap subject? := by
  unfold joinPart
  split
  · rfl
  · cases h : p.subject? <;> simp [h]

/-- The end of input is not the token of a part. -/
theorem isEnd_of_isProper {t : Token} (hp : p.IsProper) (ht : p.token? = some t) :
    t.isEnd = false := by
  cases p with
  | blanks run => cases ht
  | skipped c => cases ht
  | lexeme t' cs =>
    cases ht
    exact IsLexeme.isEnd_eq_false hp
  | unclosed q cs =>
    cases ht
    rfl

theorem isProper_joinPart (hp : p.IsProper) (hparts : ∀ q ∈ parts, q.IsProper) :
    ∀ q ∈ joinPart p parts, q.IsProper := by
  unfold joinPart
  split
  · rw [List.forall_mem_cons] at hparts ⊢
    refine ⟨⟨List.append_ne_nil_of_left_ne_nil hp.1 _, fun c hc => ?_⟩, hparts.2⟩
    rcases List.mem_append.mp hc with hc | hc
    · exact hp.2 c hc
    · exact hparts.1.2 c hc
  · exact List.forall_mem_cons.mpr ⟨hp, hparts⟩

theorem isChain_joinPart
    (hparts : parts.IsChain fun p q => p.isRun = true → q.isRun = false) :
    (joinPart p parts).IsChain fun p q => p.isRun = true → q.isRun = false := by
  unfold joinPart
  split
  · exact List.isChain_cons.mpr (List.isChain_cons.mp hparts)
  · next hjoin =>
    refine List.isChain_cons.mpr ⟨fun q hq hp => ?_, hparts⟩
    -- two runs in a row would have been joined
    cases p with
    | blanks run =>
      cases q with
      | blanks run' =>
        obtain ⟨rest, rfl⟩ := List.head?_eq_some_iff.mp hq
        exact absurd rfl (hjoin run run' rest rfl)
      | _ => rfl
    | _ => cases hp

theorem eq_of_ofPiece_eq {p : Piece} {q : Char} {cs : List Char}
    (h : ofPiece p = .unclosed q cs) : p = .quoted q cs false := by
  cases p with
  | quoted q' cs' closed =>
    cases closed with
    | false =>
      cases h
      rfl
    | true => cases h
  | _ => cases h

/-- A quote that is never closed is not joined to anything. -/
theorem unclosed_of_joinPart_eq {front later : List TextPart} {q : Char} {cs : List Char}
    (h : joinPart p parts = front ++ .unclosed q cs :: later) :
    p = .unclosed q cs ∧ later = parts ∨ ∃ front', parts = front' ++ .unclosed q cs :: later := by
  unfold joinPart at h
  split at h
  · next run' parts =>
    cases front with
    | nil => cases h
    | cons r front => exact Or.inr ⟨.blanks run' :: front, by rw [(List.cons.inj h).2]; rfl⟩
  · cases front with
    | nil =>
      obtain ⟨hp, hlater⟩ := List.cons.inj h
      exact Or.inl ⟨hp, hlater.symm⟩
    | cons r front => exact Or.inr ⟨front, (List.cons.inj h).2⟩

section

variable {p : Piece}

theorem chars_ofPiece (h : p.Sound) : (ofPiece p).chars = p.spelling := by
  cases h with
  | blank hc => rfl
  | unknown hb hc => rfl
  | lexeme ht hd hp =>
    rw [ofPiece_of_token? ht hd]
    rfl
  | unclosed hq hcs => simp [ofPiece, chars, Piece.spelling]

theorem token?_ofPiece (h : p.Sound) : (ofPiece p).token? = p.token? := by
  cases h with
  | lexeme ht hd hp =>
    rw [ofPiece_of_token? ht hd, ht]
    rfl
  | _ => rfl

theorem subject?_ofPiece (h : p.Sound) (line : Nat) :
    (ofPiece p).subject? = (p.diagnostic? line).map Diagnostic.subject := by
  cases h with
  | lexeme ht hd hp =>
    rw [ofPiece_of_token? ht hd, hd]
    rfl
  | _ => rfl

theorem isProper_ofPiece (h : p.Sound) : (ofPiece p).IsProper := by
  cases h with
  | @blank c hc => exact ⟨List.cons_ne_nil c [], by simpa using hc⟩
  | unknown hb hc => exact ⟨hb, hc⟩
  | lexeme ht hd hp =>
    rw [ofPiece_of_token? ht hd]
    exact hp
  | unclosed hq hcs => exact ⟨hq, hcs⟩

end

end TextPart

/-! ## The cut of a text -/

section

variable {ps : List Piece}

theorem flatMap_chars_partsOf (h : ∀ p ∈ ps, p.Sound) :
    (partsOf ps).flatMap TextPart.chars = ps.flatMap Piece.spelling := by
  induction ps with
  | nil => rfl
  | cons p ps ih =>
    obtain ⟨hp, hps⟩ := List.forall_mem_cons.mp h
    rw [partsOf_cons, TextPart.flatMap_chars_joinPart, TextPart.chars_ofPiece hp, ih hps,
      List.flatMap_cons]

theorem filterMap_token?_partsOf (h : ∀ p ∈ ps, p.Sound) :
    (partsOf ps).filterMap TextPart.token? = ps.filterMap Piece.token? := by
  induction ps with
  | nil => rfl
  | cons p ps ih =>
    obtain ⟨hp, hps⟩ := List.forall_mem_cons.mp h
    rw [partsOf_cons, TextPart.filterMap_token?_joinPart, TextPart.token?_ofPiece hp, ih hps]
    cases ht : p.token? <;> simp [ht]

/-- The parts of pieces report what the pieces do, wherever these start. -/
theorem map_subject_diagnosticsOf (h : ∀ p ∈ ps, p.Sound) (line : Nat) :
    (diagnosticsOf line ps).map Diagnostic.subject = (partsOf ps).filterMap TextPart.subject? := by
  induction ps generalizing line with
  | nil => rfl
  | cons p ps ih =>
    obtain ⟨hp, hps⟩ := List.forall_mem_cons.mp h
    rw [partsOf_cons, TextPart.filterMap_subject?_joinPart, TextPart.subject?_ofPiece hp line,
      ← ih hps (line + p.lineBreaks)]
    cases hd : p.diagnostic? line <;> simp [diagnosticsOf, hd]

theorem isProper_of_mem_partsOf (h : ∀ p ∈ ps, p.Sound) : ∀ q ∈ partsOf ps, q.IsProper := by
  induction ps with
  | nil => exact fun q hq => absurd hq List.not_mem_nil
  | cons p ps ih =>
    obtain ⟨hp, hps⟩ := List.forall_mem_cons.mp h
    exact TextPart.isProper_joinPart (TextPart.isProper_ofPiece hp) (ih hps)

theorem isChain_partsOf (ps : List Piece) :
    (partsOf ps).IsChain fun p q => p.isRun = true → q.isRun = false := by
  induction ps with
  | nil => exact List.isChain_nil
  | cons p ps ih => exact TextPart.isChain_joinPart ih

/-- A quote that is never closed is in the last part if it is in the last piece. -/
theorem eq_nil_of_partsOf_eq
    (h : ∀ front q cs later, ps = front ++ .quoted q cs false :: later → later = [])
    {front later : List TextPart} {q : Char} {cs : List Char}
    (hparts : partsOf ps = front ++ .unclosed q cs :: later) : later = [] := by
  induction ps generalizing front with
  | nil => cases front <;> cases hparts
  | cons p ps ih =>
    rcases TextPart.unclosed_of_joinPart_eq hparts with ⟨hp, rfl⟩ | ⟨front', hfront⟩
    · rw [TextPart.eq_of_ofPiece_eq hp] at h
      rw [h [] q cs ps rfl]
      rfl
    · exact ih (fun front q cs later hps => h (p :: front) q cs later (by rw [hps]; rfl)) hfront

/-- A diagnostic is about one of the pieces, and it has the line on which that piece starts. -/
theorem exists_of_mem_diagnosticsOf {line : Nat} {d : Diagnostic}
    (h : d ∈ diagnosticsOf line ps) :
    ∃ front p later, ps = front ++ p :: later ∧
      p.diagnostic? (line + lineBreaksOf front) = some d := by
  induction ps generalizing line with
  | nil => cases h
  | cons p ps ih =>
    have hlater (hd : d ∈ diagnosticsOf (line + p.lineBreaks) ps) : ∃ front p' later,
        p :: ps = front ++ p' :: later ∧
          p'.diagnostic? (line + lineBreaksOf front) = some d := by
      obtain ⟨front, p', later, rfl, hp'⟩ := ih hd
      refine ⟨p :: front, p', later, rfl, ?_⟩
      rwa [lineBreaksOf_cons, ← Nat.add_assoc]
    rw [diagnosticsOf] at h
    split at h
    · next d' hd' =>
      rcases List.mem_cons.mp h with rfl | h
      · exact ⟨[], p, ps, rfl, hd'⟩
      · exact hlater h
    · exact hlater h

theorem eq_of_diagnostic?_eq {p : Piece} {line line' : Nat} {q : Char}
    (h : p.diagnostic? line = some (.unterminatedString q line')) :
    line = line' ∧ ∃ cs, p = .quoted q cs false := by
  cases p with
  | quoted q' cs closed =>
    cases closed with
    | false =>
      cases h
      exact ⟨rfl, cs, rfl⟩
    | true => cases h
  | _ => cases h

end

/-- A quote that is reported as never closed is the last piece of the text. -/
theorem exists_pieces_eq_append {s : List Char} {q : Char} {line : Nat}
    (h : .unterminatedString q line ∈ diagnosticsOf 1 (pieces s)) :
    ∃ front cs, pieces s = front ++ [.quoted q cs false] ∧ line = 1 + lineBreaksOf front := by
  obtain ⟨front, p, later, hs, hp⟩ := exists_of_mem_diagnosticsOf h
  obtain ⟨hline, cs, rfl⟩ := eq_of_diagnostic?_eq hp
  rw [eq_nil_of_pieces_eq hs] at hs
  exact ⟨front, cs, hs, hline.symm⟩

/-- Before the last piece of a text, only characters that are skipped are reported. -/
theorem eq_unknownChar_of_mem {s : List Char} {front : List Piece} {p : Piece}
    (hs : pieces s = front ++ [p]) :
    ∀ d ∈ diagnosticsOf 1 front, ∃ c line, d = .unknownChar c line := by
  intro d hd
  cases d with
  | unknownChar c line => exact ⟨c, line, rfl⟩
  | unterminatedString q line =>
    obtain ⟨before, p', later, rfl, hp'⟩ := exists_of_mem_diagnosticsOf hd
    obtain ⟨-, cs, rfl⟩ := eq_of_diagnostic?_eq hp'
    rw [List.append_assoc, List.cons_append] at hs
    exact absurd (eq_nil_of_pieces_eq hs) (by simp)

/-- Every text has a cut, the parts of its pieces: nothing of the text is lost, nothing is read
twice, and what is read is in the order of the text. -/
theorem exists_isCut (source : String) : ∃ parts, IsCut source (lex source) parts := by
  have hsound : ∀ p ∈ pieces source.toList, p.Sound := fun p hp => sound_of_mem_pieces hp
  have hproper := isProper_of_mem_partsOf hsound
  have htokens := filterMap_token?_partsOf hsound
  refine ⟨partsOf (pieces source.toList), ?_⟩
  constructor
  case chars => rw [flatMap_chars_partsOf hsound, spelling_pieces]
  case proper => exact hproper
  case runs => exact isChain_partsOf _
  case tokens => rw [map_token_lex, htokens]
  case one_end =>
    intro t ht
    obtain ⟨p, hp, hpt⟩ := List.mem_filterMap.mp ht
    exact TextPart.isEnd_of_isProper (hproper p hp) hpt
  case diagnostics => exact map_subject_diagnosticsOf hsound 1
  case unclosed_last =>
    exact fun front q cs later h => eq_nil_of_partsOf_eq (fun _ _ _ _ => eq_nil_of_pieces_eq) h
  case unterminated =>
    intro q line h
    obtain ⟨front, cs, hs, rfl⟩ := exists_pieces_eq_append h
    have hdiagnostics : (lex source).diagnostics = diagnosticsOf 1 front ++
        [.unterminatedString q (1 + lineBreaksOf front)] := by
      rw [lex, hs, diagnosticsOf_append]
      rfl
    have hplaced : (lex source).tokens = (tokensOf 1 front).dropLast ++
        tokensOf (1 + lineBreaksOf front) [.quoted q cs false] := by
      rw [lex, hs, tokensOf_append]
    exact ⟨_, _, String.ofList cs, _, hdiagnostics, eq_unknownChar_of_mem hs, hplaced⟩

end CommandScript
