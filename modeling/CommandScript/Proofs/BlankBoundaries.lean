import CommandScript.Proofs.LineNumbers

/-!
# Blanks separate texts

What stands before blanks and what stands after them can be read apart. A piece that is not a quote
without a partner ends in front of a blank at the latest, and it is read the same whether the text
goes on with the blank or ends there (`readPiece_append`). So are all pieces of a text in which
every quote is closed (`pieces_append`). The blanks are pieces of their own, which have neither
tokens nor diagnostics but end lines, and so what is read after them is only moved to later lines
(`lex_append_blanks`).
-/

namespace CommandScript

/-! ## Later lines -/

/-- A token on a later line. -/
def Placed.later (k : Nat) (t : Placed) : Placed :=
  { t with line := t.line + k }

/-- A diagnostic on a later line. -/
def Diagnostic.later (k : Nat) : Diagnostic → Diagnostic
  | unknownChar c line => .unknownChar c (line + k)
  | unterminatedString q line => .unterminatedString q (line + k)

theorem Piece.diagnostic?_add (p : Piece) (line k : Nat) :
    p.diagnostic? (line + k) = (p.diagnostic? line).map (Diagnostic.later k) := by
  cases p with
  | unknown c => rfl
  | quoted q cs closed => cases closed <;> rfl
  | _ => rfl

/-- Pieces that start on a later line have their tokens on later lines. -/
theorem tokensOf_add (line k : Nat) (ps : List Piece) :
    tokensOf (line + k) ps = (tokensOf line ps).map (Placed.later k) := by
  induction ps generalizing line with
  | nil => rfl
  | cons p ps ih =>
    rw [tokensOf, tokensOf, Nat.add_right_comm, ih]
    cases p.token? <;> rfl

theorem diagnosticsOf_add (line k : Nat) (ps : List Piece) :
    diagnosticsOf (line + k) ps = (diagnosticsOf line ps).map (Diagnostic.later k) := by
  induction ps generalizing line with
  | nil => rfl
  | cons p ps ih =>
    rw [diagnosticsOf, diagnosticsOf, Nat.add_right_comm, ih, p.diagnostic?_add]
    cases p.diagnostic? line <;> rfl

/-! ## A piece in front of a blank -/

/-- Whether a piece is a quote that is never closed. -/
def Piece.isOpen : Piece → Bool
  | quoted _ _ closed => !closed
  | _ => false

/-- Characters of a class are taken up to the same place in a longer text, if they do not go on to
its end, or what follows does not go on with the class. -/
theorem span_append_of_stops {p : Char → Bool} (cs rest : List Char)
    (h : cs.dropWhile p ≠ [] ∨ ∀ c ∈ rest.head?, p c = false) :
    (cs ++ rest).takeWhile p = cs.takeWhile p ∧
      (cs ++ rest).dropWhile p = cs.dropWhile p ++ rest := by
  induction cs with
  | nil =>
    have hrest := h.resolve_left fun hne => hne rfl
    simpa using span_append rest List.all_nil hrest
  | cons c cs ih =>
    cases hc : p c with
    | true => simpa [hc] using ih (by simpa [hc] using h)
    | false => simp [hc]

section

variable {c : Char} {cs rest : List Char}

theorem readMark?_append (hrest : BreaksOff rest) :
    readMark? c (cs ++ rest) = (readMark? c cs).map fun read => (read.1, read.2 ++ rest) := by
  cases cs with
  | nil =>
    cases hm : mark? c with
    | none => rw [readMark?_eq_none _ hm, readMark?_eq_none _ hm, Option.map_none]
    | some k =>
      rw [List.nil_append, readMark?_of_mark? hm hrest, readMark?_of_mark? hm breaksOff_nil]
      rfl
  | cons d cs =>
    by_cases hd : d = '='
    · subst hd
      cases ho : operatorWithEquals? c <;> cases hm : mark? c <;> simp [readMark?, ho, hm]
    · cases hm : mark? c <;> simp [readMark?, hd, hm]

theorem readNumber_append (hrest : BreaksOff rest) :
    readNumber c (cs ++ rest) = ((readNumber c cs).1, (readNumber c cs).2 ++ rest) := by
  have hdigit : ∀ d ∈ rest.head?, d.isDigit = false :=
    fun d hd => isDigit_eq_false_of_isBlank (hrest d hd)
  obtain ⟨htake, hdrop⟩ := span_append_of_stops cs rest (Or.inr hdigit)
  rw [readNumber, readNumber, htake, hdrop]
  cases cs.dropWhile Char.isDigit with
  | nil =>
    rw [List.nil_append]
    split
    · cases hrest '.' rfl
    · rfl
  | cons e es =>
    by_cases he : e = '.'
    · subst he
      -- the point belongs to the number if a digit follows it, and a blank is none
      cases es with
      | nil =>
        cases rest with
        | nil => rfl
        | cons d rest => simp [hdigit d rfl]
      | cons d ds =>
        obtain ⟨htake', hdrop'⟩ := span_append_of_stops ds rest (Or.inr hdigit)
        cases hd : d.isDigit <;> simp [hd, htake', hdrop']
    · simp [he]

theorem readQuoted_append_of_closed {q : Char} (h : (readQuoted q cs).1.isOpen = false)
    (rest : List Char) :
    readQuoted q (cs ++ rest) = ((readQuoted q cs).1, (readQuoted q cs).2 ++ rest) := by
  have hstops : cs.dropWhile (· != q) ≠ [] := by
    intro hnil
    rw [readQuoted, hnil] at h
    cases h
  obtain ⟨htake, hdrop⟩ := span_append_of_stops cs rest (Or.inl hstops)
  rw [readQuoted, readQuoted, htake, hdrop]
  cases hcs : cs.dropWhile (· != q) with
  | nil => exact absurd hcs hstops
  | cons d ds => rfl

/-- A piece of a text that goes on with a blank is the piece that the text has if it ends there,
unless this is a quote that is never closed. -/
theorem readPiece_append (h : (readPiece c cs).1.isOpen = false) (hrest : BreaksOff rest) :
    readPiece c (cs ++ rest) = ((readPiece c cs).1, (readPiece c cs).2 ++ rest) := by
  have hbody : ∀ d ∈ rest.head?, isWordBody d = false :=
    fun d hd => isWordBody_eq_false_of_isBlank (hrest d hd)
  obtain ⟨htake, hdrop⟩ := span_append_of_stops cs rest (Or.inr hbody)
  unfold readPiece
  rw [readMark?_append hrest, htake, hdrop]
  split
  · rfl
  cases readMark? c cs with
  | some read => rfl
  | none =>
    simp only [Option.map_none]
    split
    · exact readNumber_append hrest
    split
    · rfl
    split
    · rfl
    split
    · next hq =>
      rw [readPiece_of_isQuote _ hq] at h
      exact readQuoted_append_of_closed h rest
    · rfl

/-- If every quote of a text is closed, blanks after it leave its pieces as they are. -/
theorem pieces_append {s : List Char} (h : ∀ p ∈ pieces s, p.isOpen = false)
    (hrest : BreaksOff rest) : pieces (s ++ rest) = pieces s ++ pieces rest := by
  induction s using pieces.induct with
  | case1 => rw [pieces, List.nil_append, List.nil_append]
  | case2 c cs ih =>
    rw [pieces, List.forall_mem_cons] at h
    rw [List.cons_append, pieces, pieces, readPiece_append h.1 hrest, ih h.2, List.cons_append]

end

/-- Blanks are pieces of their own. -/
theorem pieces_blanks_append {w : List Char} (hw : ∀ c ∈ w, isBlank c = true) (rest : List Char) :
    pieces (w ++ rest) = w.map .blank ++ pieces rest := by
  induction w with
  | nil => rfl
  | cons c w ih =>
    obtain ⟨hc, hw⟩ := List.forall_mem_cons.mp hw
    rw [List.cons_append, pieces_blank_cons hc, ih hw, List.map_cons, List.cons_append]

theorem breaksOff_blanks_append {w : List Char} (hne : w ≠ [])
    (hw : ∀ c ∈ w, isBlank c = true) (rest : List Char) : BreaksOff (w ++ rest) := by
  cases w with
  | nil => exact absurd rfl hne
  | cons c w => exact breaksOff_blank (hw c List.mem_cons_self) (w ++ rest)

/-! ## Texts with blanks between them -/

theorem count_cons_eq_lineBreaks (c : Char) (w : List Char) :
    (c :: w).count '\n' = (Piece.blank c).lineBreaks + w.count '\n' := by
  rw [← List.singleton_append, List.count_append]
  rfl

section

variable (line : Nat) (w : List Char) (ps : List Piece)

/-- Blanks have no tokens and end lines. -/
theorem tokensOf_blanks_append :
    tokensOf line (w.map .blank ++ ps) = tokensOf (line + w.count '\n') ps := by
  induction w generalizing line with
  | nil => rfl
  | cons c w ih =>
    rw [count_cons_eq_lineBreaks, ← Nat.add_assoc, ← ih]
    rfl

theorem diagnosticsOf_blanks_append :
    diagnosticsOf line (w.map .blank ++ ps) = diagnosticsOf (line + w.count '\n') ps := by
  induction w generalizing line with
  | nil => rfl
  | cons c w ih =>
    rw [count_cons_eq_lineBreaks, ← Nat.add_assoc, ← ih]
    rfl

/-- The end of input is the last token of pieces, and on the line on which they end. -/
theorem tokensOf_eq_dropLast_append :
    tokensOf line ps = (tokensOf line ps).dropLast ++ [⟨.endOfInput, line + lineBreaksOf ps⟩] := by
  have h := tokensOf_append line ps []
  rwa [List.append_nil] at h

end

/-- A quote that is never closed is reported. -/
theorem isOpen_eq_false_of_mem {line : Nat} {ps : List Piece}
    (h : ∀ q line', .unterminatedString q line' ∉ diagnosticsOf line ps) :
    ∀ p ∈ ps, p.isOpen = false := by
  intro p hp
  obtain ⟨front, later, rfl⟩ := List.append_of_mem hp
  rw [diagnosticsOf_append] at h
  cases p with
  | quoted q cs closed =>
    cases closed with
    | true => rfl
    | false => exact absurd (List.mem_append_right _ List.mem_cons_self) (h q _)
  | _ => rfl

/-- A text in which every quote is closed, blanks, and any text after them are read as the two texts
are, the second one moved to the lines on which it then stands. Its lines fit into 32 bits if there
are not too many. -/
theorem lex_append_blanks {a w : String}
    (ha : ∀ q line, .unterminatedString q line ∉ (lex a).diagnostics) (hne : w ≠ "")
    (hw : ∀ c ∈ w.toList, isBlank c = true) (b : String) :
    (∃ before line, (lex a).tokens = before ++ [⟨.endOfInput, line⟩] ∧
      (lex (a ++ w ++ b)).tokens =
        before ++ (lex b).tokens.map (.later ((a ++ w).toList.count '\n'))) ∧
    (lex (a ++ w ++ b)).diagnostics =
      (lex a).diagnostics ++ (lex b).diagnostics.map (.later ((a ++ w).toList.count '\n')) ∧
    ((a ++ w ++ b).toList.count '\n' < UInt32.size - 1 →
      (∀ t ∈ (lex (a ++ w ++ b)).tokens, t.line < UInt32.size) ∧
        ∀ d ∈ (lex (a ++ w ++ b)).diagnostics, d.line < UInt32.size) := by
  have hopen := isOpen_eq_false_of_mem ha
  have hrest := breaksOff_blanks_append (by simpa using hne) hw b.toList
  have hpieces : pieces (a ++ w ++ b).toList =
      pieces a.toList ++ (w.toList.map .blank ++ pieces b.toList) := by
    rw [String.toList_append, String.toList_append, List.append_assoc, pieces_append hopen hrest,
      pieces_blanks_append hw]
  have hbreaks : lineBreaksOf (pieces a.toList) + w.toList.count '\n' =
      (a ++ w).toList.count '\n' := by
    rw [lineBreaksOf, spelling_pieces, String.toList_append, List.count_append]
  refine ⟨⟨_, _, tokensOf_eq_dropLast_append 1 (pieces a.toList), ?_⟩, ?_, lines_lt_size⟩
  · rw [lex, hpieces, tokensOf_append, tokensOf_blanks_append, Nat.add_assoc, hbreaks, tokensOf_add]
    rfl
  · rw [lex, hpieces, diagnosticsOf_append, diagnosticsOf_blanks_append, Nat.add_assoc, hbreaks,
      diagnosticsOf_add]
    rfl

/-- Without the blanks, the operator at the end of the first text here would be joined with the
equals sign at the start of the second. -/
theorem lex_append_blanks_waitOperators :
    (∀ q line, .unterminatedString q line ∉ (lex "wait 2 @\n>").diagnostics) ∧ " \n" ≠ "" ∧
      (∀ c ∈ " \n".toList, isBlank c = true) ∧
      (lex ("wait 2 @\n>" ++ " \n" ++ "= 5 'on")).tokens =
        [⟨⟨.word, "wait"⟩, 1⟩, ⟨⟨.number, "2"⟩, 1⟩, ⟨.fixed .gt, 2⟩, ⟨.fixed .assign, 3⟩,
          ⟨⟨.number, "5"⟩, 3⟩, ⟨⟨.str, "on"⟩, 3⟩, ⟨.endOfInput, 3⟩] ∧
      (lex ("wait 2 @\n>" ++ " \n" ++ "= 5 'on")).diagnostics =
        [.unknownChar '@' 1, .unterminatedString '\'' 3] := by
  have hfirst : (lex "wait 2 @\n>").diagnostics = [.unknownChar '@' 1] := by decide +kernel
  have hclosed : ∀ q line, .unterminatedString q line ∉ (lex "wait 2 @\n>").diagnostics := by
    simp [hfirst]
  have hblank : ∀ c ∈ " \n".toList, isBlank c = true := by simp [isBlank]
  obtain ⟨⟨before, line, hbefore, htokens⟩, hdiagnostics, -⟩ :=
    lex_append_blanks hclosed (by decide) hblank "= 5 'on"
  have hfront : before = (lex "wait 2 @\n>").tokens.dropLast := by
    rw [hbefore, List.dropLast_concat]
  rw [hfront] at htokens
  exact ⟨hclosed, by decide, hblank, htokens.trans (by decide +kernel),
    hdiagnostics.trans (by decide +kernel)⟩

end CommandScript
