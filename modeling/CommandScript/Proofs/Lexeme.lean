import Mathlib.Data.List.TakeWhile
import Mathlib.Data.List.Forall2
import CommandScript.Lexer

/-!
# Lexemes

`IsLexeme` says which characters stand for which token, without reading anything. Reading agrees
with it in both directions. A piece that spells a token is a lexeme of that token, unless it is a
quote that is never closed, and then it is the last piece (`sound_of_mem_pieces`,
`eq_nil_of_pieces_eq`). And a lexeme that is followed by nothing or by a blank is read as one piece
(`exists_pieces_eq_cons`). So lexemes with single spaces between them are read as their tokens,
without a diagnostic (`lex_spaced`).
-/

namespace CommandScript

/-! ## Tokens and their characters -/

/-- Whether characters spell a word. -/
def isIdentifier : List Char → Bool
  | [] => false
  | c :: cs => isWordStart c && cs.all isWordBody

/-- Whether characters are digits, at least one. -/
def isDigits (cs : List Char) : Bool :=
  !cs.isEmpty && cs.all Char.isDigit

/-- The characters of a number: digits, and a point and the digits of a fraction if there are
any. -/
def numeral (whole : List Char) : List Char → List Char
  | [] => whole
  | fraction => whole ++ '.' :: fraction

/-- The characters that stand for a token in a text. -/
inductive IsLexeme : Token → List Char → Prop
  /-- A mark, an operator or a reserved word, in its only spelling. -/
  | fixed {k : Kind} {s : String} (hs : k.fixedText? = some s) (hk : k ≠ .eof) :
    IsLexeme ⟨k, s⟩ s.toList
  /-- A word that is not reserved. -/
  | word {cs : List Char} (hcs : isIdentifier cs = true)
    (hk : Kind.keyword? (String.ofList cs) = none) :
    IsLexeme ⟨.word, String.ofList cs⟩ cs
  /-- A number, whose text is all of it. -/
  | number {whole fraction : List Char} (hw : isDigits whole = true)
    (hf : fraction.all Char.isDigit = true) :
    IsLexeme ⟨.number, String.ofList (numeral whole fraction)⟩ (numeral whole fraction)
  /-- A variable, whose text lacks the dollar sign. -/
  | var {cs : List Char} (hcs : cs.all isWordBody = true) :
    IsLexeme ⟨.var, String.ofList cs⟩ ('$' :: cs)
  /-- A string, whose text is what stands between two equal quotes. -/
  | str {q : Char} {cs : List Char} (hq : isQuote q = true) (hcs : q ∉ cs) :
    IsLexeme ⟨.str, String.ofList cs⟩ (q :: cs ++ [q])

/-- No characters stand for the end of input. -/
theorem IsLexeme.isEnd_eq_false {t : Token} {cs : List Char} (h : IsLexeme t cs) :
    t.isEnd = false := by
  cases h with
  | fixed hs hk => exact beq_eq_false_iff_ne.mpr hk
  | _ => rfl

theorem isEnd_eq_false_of_forall₂ {ts : List Token} {ws : List (List Char)}
    (h : List.Forall₂ IsLexeme ts ws) : ∀ t ∈ ts, t.isEnd = false := by
  induction h with
  | nil => exact fun t ht => absurd ht List.not_mem_nil
  | cons hw h ih => exact List.forall_mem_cons.mpr ⟨hw.isEnd_eq_false, ih⟩

/-- What a piece of a text is: a blank, a character with which no lexeme starts, the lexeme of a
token, or a quote that is never closed. -/
inductive Piece.Sound : Piece → Prop
  | blank {c : Char} (hc : isBlank c = true) : (Piece.blank c).Sound
  | unknown {c : Char} (hb : isBlank c = false) (hc : ∀ t cs, ¬IsLexeme t (c :: cs)) :
    (Piece.unknown c).Sound
  | lexeme {p : Piece} {t : Token} (ht : p.token? = some t)
    (hd : ∀ line, p.diagnostic? line = none) (hp : IsLexeme t p.spelling) : p.Sound
  | unclosed {q : Char} {cs : List Char} (hq : isQuote q = true) (hcs : q ∉ cs) :
    (Piece.quoted q cs false).Sound

/-! ## Classes of characters -/

theorem isWordBody_of_isWordStart {c : Char} (h : isWordStart c = true) : isWordBody c = true := by
  simp [isWordBody, h]

theorem isWordBody_of_isDigit {c : Char} (h : c.isDigit = true) : isWordBody c = true := by
  simp [isWordBody, h]

theorem isDigit_eq_false_of_isWordStart {c : Char} (h : isWordStart c = true) :
    c.isDigit = false := by
  refine Bool.eq_false_iff.mpr fun hd => ?_
  have hnine : c.val ≤ '9'.val := of_decide_eq_true (Bool.and_eq_true_iff.mp hd).2
  rcases Bool.or_eq_true_iff.mp h with h | h
  · rcases Bool.or_eq_true_iff.mp h with h | h
    · have hupper : 'A'.val ≤ c.val := (of_decide_eq_true h).1
      exact absurd (UInt32.le_trans hupper hnine) (by decide)
    · have hlower : 'a'.val ≤ c.val := of_decide_eq_true (Bool.and_eq_true_iff.mp h).1
      exact absurd (UInt32.le_trans hlower hnine) (by decide)
  · rw [of_decide_eq_true h] at hd
    cases hd

theorem isBlank_iff {c : Char} :
    isBlank c = true ↔ ((c = ' ' ∨ c = '\t') ∨ c = '\n') ∨ c = '\r' := by
  simp [isBlank]

theorem isWordBody_eq_false_of_isBlank {c : Char} (h : isBlank c = true) :
    isWordBody c = false := by
  rcases isBlank_iff.mp h with ((rfl | rfl) | rfl) | rfl <;> rfl

theorem isDigit_eq_false_of_isBlank {c : Char} (h : isBlank c = true) : c.isDigit = false := by
  rcases isBlank_iff.mp h with ((rfl | rfl) | rfl) | rfl <;> rfl

theorem isBlank_eq_false_of_isWordBody {c : Char} (h : isWordBody c = true) :
    isBlank c = false := by
  cases hb : isBlank c with
  | false => rfl
  | true =>
    rw [isWordBody_eq_false_of_isBlank hb] at h
    cases h

theorem isWordBody_eq_false_of_mark? {c : Char} {k : Kind} (h : mark? c = some k) :
    isWordBody c = false := by
  unfold mark? at h
  split at h <;> cases h <;> rfl

theorem isBlank_eq_false_of_mark? {c : Char} {k : Kind} (h : mark? c = some k) :
    isBlank c = false := by
  unfold mark? at h
  split at h <;> cases h <;> rfl

theorem mark?_of_operatorWithEquals? {c : Char} {k : Kind} (h : operatorWithEquals? c = some k) :
    ∃ k', mark? c = some k' := by
  unfold operatorWithEquals? at h
  split at h <;> cases h <;> exact ⟨_, rfl⟩

theorem mark?_eq_none_of_isWordBody {c : Char} (h : isWordBody c = true) : mark? c = none := by
  cases hm : mark? c with
  | none => rfl
  | some k =>
    rw [isWordBody_eq_false_of_mark? hm] at h
    cases h

theorem isQuote_iff {c : Char} : isQuote c = true ↔ c = '"' ∨ c = '\'' := by
  simp [isQuote]

/-! ## The first piece of a text -/

section FirstPiece

variable {c : Char} (cs : List Char)

theorem readMark?_eq_none (h : mark? c = none) : readMark? c cs = none := by
  have ho : operatorWithEquals? c = none := by
    cases ho : operatorWithEquals? c with
    | none => rfl
    | some k =>
      obtain ⟨k', hk⟩ := mark?_of_operatorWithEquals? ho
      rw [h] at hk
      cases hk
  simp [readMark?, ho, h]

theorem readPiece_of_isBlank (h : isBlank c = true) : readPiece c cs = (.blank c, cs) := by
  rw [readPiece, if_pos h]

theorem readPiece_of_readMark? {read : Piece × List Char} (hb : isBlank c = false)
    (h : readMark? c cs = some read) : readPiece c cs = read := by
  simp [readPiece, hb, h]

theorem readPiece_of_isDigit (h : c.isDigit = true) : readPiece c cs = readNumber c cs := by
  have hw := isWordBody_of_isDigit h
  simp [readPiece, isBlank_eq_false_of_isWordBody hw,
    readMark?_eq_none cs (mark?_eq_none_of_isWordBody hw), h]

theorem readPiece_of_isWordStart (h : isWordStart c = true) :
    readPiece c cs = (.word (c :: cs.takeWhile isWordBody), cs.dropWhile isWordBody) := by
  have hw := isWordBody_of_isWordStart h
  simp [readPiece, isBlank_eq_false_of_isWordBody hw,
    readMark?_eq_none cs (mark?_eq_none_of_isWordBody hw), isDigit_eq_false_of_isWordStart h, h]

theorem readPiece_dollar :
    readPiece '$' cs = (.var (cs.takeWhile isWordBody), cs.dropWhile isWordBody) :=
  rfl

theorem readPiece_of_isQuote (h : isQuote c = true) : readPiece c cs = readQuoted c cs := by
  rcases isQuote_iff.mp h with rfl | rfl <;> rfl

end FirstPiece

/-! ## Every piece of a text is sound -/

theorem Piece.spelling_number (whole fraction : List Char) :
    (Piece.number whole fraction).spelling = numeral whole fraction := by
  cases fraction <;> rfl

theorem fixedText?_of_mark? {c : Char} {k : Kind} (h : mark? c = some k) :
    k.fixedText? = some (String.ofList [c]) ∧ k ≠ .eof := by
  unfold mark? at h
  split at h <;> cases h <;> exact ⟨rfl, Kind.noConfusion⟩

theorem fixedText?_of_operatorWithEquals? {c : Char} {k : Kind}
    (h : operatorWithEquals? c = some k) :
    k.fixedText? = some (String.ofList [c, '=']) ∧ k ≠ .eof := by
  unfold operatorWithEquals? at h
  split at h <;> cases h <;> exact ⟨rfl, Kind.noConfusion⟩

theorem fixedText?_of_keyword? {text : String} {k : Kind} (h : Kind.keyword? text = some k) :
    k.fixedText? = some text ∧ k ≠ .eof := by
  refine ⟨by simpa using List.find?_some h, ?_⟩
  rintro rfl
  exact absurd (List.mem_of_find?_eq_some h) (by decide)

theorem keyword?_fixedText? {k : Kind} {s : String} (hk : k.isKeyword = true)
    (hs : k.fixedText? = some s) :
    Kind.keyword? s = some k ∧ isIdentifier s.toList = true := by
  cases k <;> cases hs <;> first | decide | cases hk

theorem mark_fixedText? {k : Kind} {s : String} (hk : k.isKeyword = false) (he : k ≠ .eof)
    (hs : k.fixedText? = some s) :
    ∃ c, s.toList = [c] ∧ mark? c = some k ∨
      s.toList = [c, '='] ∧ operatorWithEquals? c = some k := by
  have hhead : s.toList = [s.toList.headD ' '] ∧ mark? (s.toList.headD ' ') = some k ∨
      s.toList = [s.toList.headD ' ', '='] ∧
        operatorWithEquals? (s.toList.headD ' ') = some k := by
    cases k <;> cases hs <;> first | decide | exact absurd rfl he | cases hk
  exact ⟨_, hhead⟩

theorem isLexeme_fixed {k : Kind} {cs : List Char}
    (h : k.fixedText? = some (String.ofList cs) ∧ k ≠ .eof) : IsLexeme (.fixed k) cs := by
  have hl := IsLexeme.fixed h.1 h.2
  rwa [String.toList_ofList, ← Option.getD_some (a := String.ofList cs) (b := ""), ← h.1] at hl

namespace Piece

theorem Sound.mark {k : Kind} {cs : List Char}
    (h : k.fixedText? = some (String.ofList cs) ∧ k ≠ .eof) : (Piece.mark k).Sound := by
  refine .lexeme rfl (fun _ => rfl) ?_
  have hs : (Piece.mark k).spelling = cs := by simp [spelling, h.1]
  rw [hs]
  exact isLexeme_fixed h

theorem Sound.number {whole fraction : List Char} (hw : isDigits whole = true)
    (hf : fraction.all Char.isDigit = true) : (Piece.number whole fraction).Sound := by
  refine .lexeme rfl (fun _ => rfl) ?_
  rw [spelling_number]
  exact .number hw hf

theorem Sound.word {cs : List Char} (hcs : isIdentifier cs = true) : (Piece.word cs).Sound := by
  cases hk : Kind.keyword? (String.ofList cs) with
  | none =>
    have ht : (Piece.word cs).token? = some ⟨.word, String.ofList cs⟩ := by rw [token?, hk]
    exact .lexeme ht (fun _ => rfl) (.word hcs hk)
  | some k =>
    have ht : (Piece.word cs).token? = some (.fixed k) := by rw [token?, hk]
    exact .lexeme ht (fun _ => rfl) (isLexeme_fixed (fixedText?_of_keyword? hk))

theorem Sound.quoted {q : Char} {cs : List Char} (hq : isQuote q = true) (hcs : q ∉ cs)
    (closed : Bool) : (Piece.quoted q cs closed).Sound := by
  cases closed with
  | false => exact .unclosed hq hcs
  | true => exact .lexeme rfl (fun _ => rfl) (.str hq hcs)

end Piece

section

variable {c : Char} {cs : List Char}

theorem sound_readMark? {p : Piece} {r : List Char} (h : readMark? c cs = some (p, r)) :
    p.Sound := by
  unfold readMark? at h
  split at h
  · next hk =>
    cases h
    exact .mark (fixedText?_of_operatorWithEquals? hk)
  · obtain ⟨k, hk, hp⟩ := Option.map_eq_some_iff.mp h
    cases hp
    exact .mark (fixedText?_of_mark? hk)

theorem sound_readNumber (h : c.isDigit = true) : (readNumber c cs).1.Sound := by
  have hw : isDigits (c :: cs.takeWhile Char.isDigit) = true := by
    simp [isDigits, h, List.all_takeWhile]
  unfold readNumber
  split
  · split
    · next hd => exact .number hw (by simp [hd, List.all_takeWhile])
    · exact .number hw rfl
  · exact .number hw rfl

theorem sound_readQuoted (h : isQuote c = true) : (readQuoted c cs).1.Sound := by
  unfold readQuoted
  split
  · next hd =>
    have hall : ∀ d ∈ cs, (d != c) = true := List.dropWhile_eq_nil_iff.mp hd
    exact .quoted h (fun hc => by simpa using hall c hc) false
  · exact .quoted h (fun hc => by simpa using List.mem_takeWhile_imp hc) true

theorem mark?_eq_none_of_readMark? (h : readMark? c cs = none) : mark? c = none := by
  unfold readMark? at h
  split at h
  · cases h
  · exact Option.map_eq_none_iff.mp h

/-- What the first character of a lexeme is. -/
theorem IsLexeme.head {t : Token} (h : IsLexeme t (c :: cs)) :
    (∃ k, mark? c = some k) ∨ c.isDigit = true ∨ isWordStart c = true ∨ c = '$' ∨
      isQuote c = true := by
  generalize hw : c :: cs = w at h
  cases h with
  | @fixed k s hs hk =>
    cases hkey : k.isKeyword with
    | true =>
      have hid := (keyword?_fixedText? hkey hs).2
      rw [← hw] at hid
      exact Or.inr (Or.inr (Or.inl (Bool.and_eq_true_iff.mp hid).1))
    | false =>
      obtain ⟨d, ⟨hd, hm⟩ | ⟨hd, ho⟩⟩ := mark_fixedText? hkey hk hs
      · rw [hd] at hw
        exact Or.inl ⟨k, (List.cons.inj hw).1 ▸ hm⟩
      · rw [hd] at hw
        exact Or.inl ((List.cons.inj hw).1 ▸ mark?_of_operatorWithEquals? ho)
  | word hid hk =>
    rw [← hw] at hid
    exact Or.inr (Or.inr (Or.inl (Bool.and_eq_true_iff.mp hid).1))
  | @number whole fraction hwhole hf =>
    cases whole with
    | nil => cases hwhole
    | cons d whole =>
      have hd : d.isDigit = true :=
        (Bool.and_eq_true_iff.mp (Bool.and_eq_true_iff.mp hwhole).2).1
      have hcd : c = d := by
        cases fraction <;> exact (List.cons.inj hw).1
      exact Or.inr (Or.inl (hcd ▸ hd))
  | var hv => exact Or.inr (Or.inr (Or.inr (Or.inl (List.cons.inj hw).1)))
  | str hq hqs =>
    exact Or.inr (Or.inr (Or.inr (Or.inr ((List.cons.inj hw).1 ▸ hq))))

theorem sound_readPiece (c : Char) (cs : List Char) : (readPiece c cs).1.Sound := by
  unfold readPiece
  split
  · next hb => exact .blank hb
  next hb =>
  split
  · next hm => exact sound_readMark? hm
  next hm =>
  split
  · next hd => exact sound_readNumber hd
  next hd =>
  split
  · next hw => exact .word (by simp [isIdentifier, hw, List.all_takeWhile])
  next hw =>
  split
  · next hv =>
    subst hv
    exact .lexeme rfl (fun _ => rfl) (.var List.all_takeWhile)
  next hv =>
  split
  · next hq => exact sound_readQuoted hq
  next hq =>
  refine .unknown (Bool.eq_false_iff.mpr hb) fun t rest h => ?_
  rcases h.head with ⟨k, hk⟩ | hd' | hw' | hv' | hq'
  · rw [mark?_eq_none_of_readMark? hm] at hk
    cases hk
  · exact hd hd'
  · exact hw hw'
  · exact hv hv'
  · exact hq hq'

/-- Reading stops after a quote that is never closed. -/
theorem eq_nil_of_readPiece_eq {q : Char} {qs r : List Char}
    (h : readPiece c cs = (.quoted q qs false, r)) : r = [] := by
  unfold readPiece at h
  split at h
  · cases h
  split at h
  · next hm =>
    subst h
    unfold readMark? at hm
    split at hm
    · cases hm
    · obtain ⟨k, -, hp⟩ := Option.map_eq_some_iff.mp hm
      cases hp
  split at h
  · unfold readNumber at h
    split at h
    · split at h <;> cases h
    · cases h
  split at h
  · cases h
  split at h
  · cases h
  split at h
  · unfold readQuoted at h
    split at h <;> cases h
    rfl
  · cases h

end

theorem sound_of_mem_pieces {s : List Char} {p : Piece} (h : p ∈ pieces s) : p.Sound := by
  induction s using pieces.induct with
  | case1 => simp [pieces] at h
  | case2 c cs ih =>
    rw [pieces] at h
    rcases List.mem_cons.mp h with rfl | h
    · exact sound_readPiece c cs
    · exact ih h

/-- A quote that is never closed is the last piece of a text. -/
theorem eq_nil_of_pieces_eq {s : List Char} {front later : List Piece} {q : Char}
    {qs : List Char} (h : pieces s = front ++ .quoted q qs false :: later) : later = [] := by
  induction s using pieces.induct generalizing front with
  | case1 => simp [pieces] at h
  | case2 c cs ih =>
    rw [pieces] at h
    cases front with
    | nil =>
      obtain ⟨hp, hrest⟩ := List.cons.inj h
      have hread : readPiece c cs = (.quoted q qs false, (readPiece c cs).2) := Prod.ext hp rfl
      rw [eq_nil_of_readPiece_eq hread, pieces] at hrest
      exact hrest.symm
    | cons p front => exact ih (List.cons.inj h).2

/-! ## Reading a lexeme -/

/-- Nothing follows, or a blank does. -/
def BreaksOff (rest : List Char) : Prop :=
  ∀ c ∈ rest.head?, isBlank c = true

theorem breaksOff_nil : BreaksOff [] := by
  intro c hc
  cases hc

theorem breaksOff_blank {c : Char} (hc : isBlank c = true) (rest : List Char) :
    BreaksOff (c :: rest) := by
  intro d hd
  rwa [← Option.some.inj hd]

/-- Characters of a class are taken up to the first one that is not of the class. -/
theorem span_append {p : Char → Bool} {cs : List Char} (rest : List Char)
    (hcs : cs.all p = true) (hrest : ∀ c ∈ rest.head?, p c = false) :
    (cs ++ rest).takeWhile p = cs ∧ (cs ++ rest).dropWhile p = rest := by
  rw [List.all_eq_true] at hcs
  rw [List.takeWhile_append_of_pos hcs, List.dropWhile_append_of_pos hcs]
  cases rest with
  | nil => simp
  | cons c rest => simp [hrest c rfl]

section

variable {c : Char} {rest : List Char}

theorem readMark?_of_mark? {k : Kind} (hk : mark? c = some k) (hrest : BreaksOff rest) :
    readMark? c rest = some (.mark k, rest) := by
  unfold readMark?
  split
  · next r _ =>
    have hb := hrest '=' rfl
    cases hb
  · rw [hk]
    rfl

theorem readMark?_of_operatorWithEquals? {k : Kind} (hk : operatorWithEquals? c = some k) :
    readMark? c ('=' :: rest) = some (.mark k, rest) := by
  simp [readMark?, hk]

theorem readNumber_of_breaksOff {whole fraction : List Char}
    (hw : whole.all Char.isDigit = true) (hf : fraction.all Char.isDigit = true)
    (hrest : BreaksOff rest) :
    ∃ cs, numeral (c :: whole) fraction ++ rest = c :: cs ∧
      readNumber c cs = (.number (c :: whole) fraction, rest) := by
  have hdigit : ∀ c ∈ rest.head?, c.isDigit = false :=
    fun c hc => isDigit_eq_false_of_isBlank (hrest c hc)
  cases fraction with
  | nil =>
    obtain ⟨htake, hdrop⟩ := span_append _ hw hdigit
    refine ⟨whole ++ rest, rfl, ?_⟩
    rw [readNumber, htake, hdrop]
    split
    · have hb := hrest '.' rfl
      cases hb
    · rfl
  | cons d fraction =>
    obtain ⟨hd, hf⟩ := (Bool.and_eq_true_iff.mp hf)
    have hpoint : ∀ c ∈ ('.' :: d :: fraction ++ rest).head?, c.isDigit = false := by
      intro c hc
      rw [← Option.some.inj hc]
      rfl
    obtain ⟨htake, hdrop⟩ := span_append _ hw hpoint
    obtain ⟨htake', hdrop'⟩ := span_append _ hf hdigit
    refine ⟨whole ++ ('.' :: d :: fraction ++ rest), by simp [numeral], ?_⟩
    rw [readNumber, htake, hdrop]
    simp [hd, htake', hdrop']

theorem readQuoted_append {q : Char} {cs : List Char} (hcs : q ∉ cs) :
    readQuoted q (cs ++ q :: rest) = (.quoted q cs true, rest) := by
  have hall : cs.all (· != q) = true := by
    simp only [List.all_eq_true, bne_iff_ne]
    rintro d hd rfl
    exact hcs hd
  obtain ⟨htake, hdrop⟩ := span_append (q :: rest) hall (by simp)
  rw [readQuoted, hdrop, htake]

end

theorem token_fixed {k : Kind} {s : String} (hs : k.fixedText? = some s) :
    Token.fixed k = ⟨k, s⟩ := by
  simp [Token.fixed, hs]

theorem pieces_of_readPiece {c : Char} {cs r : List Char} {p : Piece}
    (h : readPiece c cs = (p, r)) : pieces (c :: cs) = p :: pieces r := by
  rw [pieces, h]

theorem pieces_blank_cons {c : Char} (hc : isBlank c = true) (cs : List Char) :
    pieces (c :: cs) = .blank c :: pieces cs :=
  pieces_of_readPiece (readPiece_of_isBlank cs hc)

theorem pieces_identifier_append {cs rest : List Char} (hcs : isIdentifier cs = true)
    (hrest : BreaksOff rest) : pieces (cs ++ rest) = .word cs :: pieces rest := by
  cases cs with
  | nil => cases hcs
  | cons c cs =>
    obtain ⟨hc, hcs⟩ := Bool.and_eq_true_iff.mp hcs
    obtain ⟨htake, hdrop⟩ := span_append _ hcs
      fun d hd => isWordBody_eq_false_of_isBlank (hrest d hd)
    refine pieces_of_readPiece ?_
    rw [List.append_eq, readPiece_of_isWordStart _ hc, htake, hdrop]

/-- A lexeme that is followed by nothing or by a blank is read as one piece, which spells its token
and has no diagnostic. -/
theorem exists_pieces_eq_cons {t : Token} {cs rest : List Char} (h : IsLexeme t cs)
    (hrest : BreaksOff rest) :
    ∃ p, p.token? = some t ∧ (∀ line, p.diagnostic? line = none) ∧
      pieces (cs ++ rest) = p :: pieces rest := by
  cases h with
  | @fixed k s hs hk =>
    cases hkey : k.isKeyword with
    | true =>
      obtain ⟨hword, hid⟩ := keyword?_fixedText? hkey hs
      refine ⟨.word s.toList, ?_, fun _ => rfl, pieces_identifier_append hid hrest⟩
      rw [Piece.token?, String.ofList_toList, hword, ← token_fixed hs]
    | false =>
      refine ⟨.mark k, by rw [Piece.token?, token_fixed hs], fun _ => rfl, ?_⟩
      obtain ⟨c, ⟨hc, hm⟩ | ⟨hc, ho⟩⟩ := mark_fixedText? hkey hk hs
      · rw [hc]
        exact pieces_of_readPiece (readPiece_of_readMark? _ (isBlank_eq_false_of_mark? hm)
          (readMark?_of_mark? hm hrest))
      · obtain ⟨k', hm⟩ := mark?_of_operatorWithEquals? ho
        rw [hc]
        exact pieces_of_readPiece (readPiece_of_readMark? _ (isBlank_eq_false_of_mark? hm)
          (readMark?_of_operatorWithEquals? ho))
  | word hcs hk =>
    exact ⟨.word cs, by rw [Piece.token?, hk], fun _ => rfl, pieces_identifier_append hcs hrest⟩
  | @number whole fraction hw hf =>
    cases whole with
    | nil => cases hw
    | cons c whole =>
      obtain ⟨hc, hw⟩ := Bool.and_eq_true_iff.mp (Bool.and_eq_true_iff.mp hw).2
      obtain ⟨cs, hcs, hread⟩ := readNumber_of_breaksOff (c := c) hw hf hrest
      refine ⟨.number (c :: whole) fraction, ?_, fun _ => rfl, ?_⟩
      · rw [Piece.token?, Piece.spelling_number]
      · rw [hcs]
        exact pieces_of_readPiece ((readPiece_of_isDigit _ hc).trans hread)
  | @var cs hcs =>
    obtain ⟨htake, hdrop⟩ := span_append _ hcs
      fun d hd => isWordBody_eq_false_of_isBlank (hrest d hd)
    refine ⟨.var cs, rfl, fun _ => rfl, pieces_of_readPiece ?_⟩
    rw [List.append_eq, readPiece_dollar, htake, hdrop]
  | @str q cs hq hcs =>
    have hsplit : q :: cs ++ [q] ++ rest = q :: (cs ++ q :: rest) := by simp
    refine ⟨.quoted q cs true, rfl, fun _ => rfl, ?_⟩
    rw [hsplit]
    exact pieces_of_readPiece ((readPiece_of_isQuote _ hq).trans (readQuoted_append hcs))

/-! ## Tokens and diagnostics of pieces -/

/-- The number of lines that end inside pieces. -/
def lineBreaksOf (ps : List Piece) : Nat :=
  (ps.flatMap Piece.spelling).count '\n'

theorem lineBreaksOf_cons (p : Piece) (ps : List Piece) :
    lineBreaksOf (p :: ps) = p.lineBreaks + lineBreaksOf ps := by
  rw [lineBreaksOf, List.flatMap_cons, List.count_append, Piece.lineBreaks, lineBreaksOf]

theorem tokensOf_ne_nil (line : Nat) (ps : List Piece) : tokensOf line ps ≠ [] := by
  induction ps generalizing line with
  | nil => simp [tokensOf]
  | cons p ps ih => cases h : p.token? <;> simp [tokensOf, h, ih]

/-- The pieces after others start on the line on which those end. -/
theorem tokensOf_append (line : Nat) (ps qs : List Piece) :
    tokensOf line (ps ++ qs) =
      (tokensOf line ps).dropLast ++ tokensOf (line + lineBreaksOf ps) qs := by
  induction ps generalizing line with
  | nil => simp [tokensOf, lineBreaksOf]
  | cons p ps ih =>
    rw [lineBreaksOf_cons, ← Nat.add_assoc, List.cons_append]
    cases h : p.token? with
    | none => simp [tokensOf, h, ih]
    | some t => simp [tokensOf, h, ih, List.dropLast_cons_of_ne_nil (tokensOf_ne_nil _ ps)]

theorem diagnosticsOf_append (line : Nat) (ps qs : List Piece) :
    diagnosticsOf line (ps ++ qs) =
      diagnosticsOf line ps ++ diagnosticsOf (line + lineBreaksOf ps) qs := by
  induction ps generalizing line with
  | nil => simp [diagnosticsOf, lineBreaksOf]
  | cons p ps ih =>
    rw [lineBreaksOf_cons, ← Nat.add_assoc, List.cons_append]
    cases h : p.diagnostic? line with
    | none => simp [diagnosticsOf, h, ih]
    | some d => simp [diagnosticsOf, h, ih]

theorem map_token_tokensOf (line : Nat) (ps : List Piece) :
    (tokensOf line ps).map Placed.token = ps.filterMap Piece.token? ++ [.endOfInput] := by
  induction ps generalizing line with
  | nil => rfl
  | cons p ps ih => cases h : p.token? <;> simp [tokensOf, h, ih]

theorem Piece.diagnostic?_eq_none {line : Nat} {p : Piece} (h : p.diagnostic? line = none)
    (line' : Nat) : p.diagnostic? line' = none := by
  cases p with
  | unknown c => cases h
  | quoted q cs closed =>
    cases closed with
    | false => cases h
    | true => rfl
  | _ => rfl

/-- There is no diagnostic if no piece has one. -/
theorem diagnosticsOf_eq_nil_iff {line : Nat} {ps : List Piece} :
    diagnosticsOf line ps = [] ↔ ∀ p ∈ ps, ∀ line, p.diagnostic? line = none := by
  induction ps generalizing line with
  | nil => simp [diagnosticsOf]
  | cons p ps ih =>
    rw [List.forall_mem_cons]
    cases hd : p.diagnostic? line with
    | none => simp [diagnosticsOf, hd, ih, p.diagnostic?_eq_none hd]
    | some d =>
      have hne : ¬∀ line, p.diagnostic? line = none := fun h => by simp [h line] at hd
      simp [diagnosticsOf, hd, hne]

/-- The tokens of a text, without their lines. -/
theorem map_token_lex (source : String) : (lex source).tokens.map Placed.token =
    (pieces source.toList).filterMap Piece.token? ++ [.endOfInput] :=
  map_token_tokensOf 1 _

/-- Lexemes with single spaces between them are read as their tokens, with blanks in between. -/
theorem pieces_spaced {ts : List Token} {ws : List (List Char)}
    (h : List.Forall₂ IsLexeme ts ws) :
    (pieces ([' '].intercalate ws)).filterMap Piece.token? = ts ∧
      ∀ p ∈ pieces ([' '].intercalate ws), ∀ line, p.diagnostic? line = none := by
  induction h with
  | nil => simp [pieces]
  | @cons t w ts ws ht hts ih =>
    cases hts with
    | nil =>
      obtain ⟨p, hp, hd, hpieces⟩ := exists_pieces_eq_cons ht breaksOff_nil
      rw [List.append_nil] at hpieces
      simp [hpieces, pieces, hp, hd]
    | @cons t' w' ts ws ht' hts =>
      obtain ⟨p, hp, hd, hpieces⟩ := exists_pieces_eq_cons ht
        (breaksOff_blank (c := ' ') rfl ([' '].intercalate (w' :: ws)))
      rw [List.intercalate_cons_cons, List.append_assoc, List.singleton_append, hpieces,
        pieces_blank_cons rfl]
      refine ⟨by rw [List.filterMap_cons_some hp, List.filterMap_cons_none rfl, ih.1], ?_⟩
      rintro q hq line
      rcases List.mem_cons.mp hq with rfl | hq
      · exact hd line
      rcases List.mem_cons.mp hq with rfl | hq
      · rfl
      · exact ih.2 q hq line

/-- Words in a row, single spaces between them. -/
def spaced (ws : List (List Char)) : String :=
  String.ofList ([' '].intercalate ws)

/-- A text of lexemes with single spaces between them has their tokens, and no diagnostic. -/
theorem lex_spaced {ts : List Token} {ws : List (List Char)} (h : List.Forall₂ IsLexeme ts ws) :
    (lex (spaced ws)).diagnostics = [] ∧
      (lex (spaced ws)).tokens.map Placed.token = ts ++ [.endOfInput] := by
  obtain ⟨htokens, hdiagnostics⟩ := pieces_spaced h
  rw [map_token_lex, lex, spaced, String.toList_ofList, htokens]
  exact ⟨diagnosticsOf_eq_nil_iff.mpr hdiagnostics, rfl⟩

end CommandScript
