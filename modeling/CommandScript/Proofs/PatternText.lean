import Mathlib.Data.List.DropRight
import Mathlib.Data.List.Forall2
import CommandScript.Rule.Pattern

/-!
# What patterns can write

The words of a text are its stretches without white space, and a text is its words with one space
between two of them, once its white space is tidied (`intercalate_words`, `tidy`). The other way,
words in a row with one space between two of them are read back (`words_intercalate`).

A word of a pattern writes an element (`Element.ofWord_eq_ok_iff`) unless it is a fault: it opens
an argument slot, and that is not closed or holds another angle bracket
(`Element.ofWord_eq_error_iff`). So a pattern can write just the rules whose elements, written as
words, stay words and are read as the same elements again (`Rule.IsExpressible`), and it writes the
rule whose own pattern is the tidied text (`Rule.ofPattern_iff_isExpressible`).
-/

namespace CommandScript

open Unicode

/-! ## The words of a text -/

/-- Characters without white space among them, at least one. -/
def IsUnspaced (w : List Char) : Prop :=
  w ≠ [] ∧ ∀ c ∈ w, isWhiteSpace c = false

/-- Whether a word ends before characters, for they start with white space or there are none. -/
def stopsWord (cs : List Char) : Bool :=
  cs.head?.all isWhiteSpace

theorem splitWhiteSpace_ne_nil (cs : List Char) : splitWhiteSpace cs ≠ [] := by
  cases cs with
  | nil => exact List.cons_ne_nil _ _
  | cons c cs =>
    rw [splitWhiteSpace]
    split
    · exact List.cons_ne_nil _ _
    · split <;> exact List.cons_ne_nil _ _

theorem isWhiteSpace_of_mem_splitWhiteSpace {cs w : List Char} (h : w ∈ splitWhiteSpace cs) :
    ∀ c ∈ w, isWhiteSpace c = false := by
  induction cs generalizing w with
  | nil =>
    rw [List.mem_singleton.mp h]
    exact fun _ hc => absurd hc List.not_mem_nil
  | cons c cs ih =>
    rw [splitWhiteSpace] at h
    split at h
    · rcases List.mem_cons.mp h with rfl | h
      · exact fun _ hc => absurd hc List.not_mem_nil
      · exact ih h
    · next hc =>
      have hc : isWhiteSpace c = false := Bool.eq_false_iff.mpr hc
      split at h
      · next hnil => exact absurd hnil (splitWhiteSpace_ne_nil cs)
      · next v vs hcons =>
        rw [hcons] at ih
        rcases List.mem_cons.mp h with rfl | h
        · exact List.forall_mem_cons.mpr ⟨hc, ih List.mem_cons_self⟩
        · exact ih (List.mem_cons_of_mem _ h)

theorem isUnspaced_of_mem_words {cs w : List Char} (h : w ∈ words cs) : IsUnspaced w := by
  obtain ⟨hw, hne⟩ := List.mem_filter.mp h
  exact ⟨by simpa using hne, isWhiteSpace_of_mem_splitWhiteSpace hw⟩

section

variable {c : Char} {cs : List Char}

theorem words_cons_of_isWhiteSpace (hc : isWhiteSpace c = true) : words (c :: cs) = words cs := by
  simp [words, splitWhiteSpace, hc]

theorem words_cons_of_stopsWord (hc : isWhiteSpace c = false) (h : stopsWord cs = true) :
    words (c :: cs) = [c] :: words cs := by
  cases cs with
  | nil => simp [words, splitWhiteSpace, hc]
  | cons d cs =>
    have hd : isWhiteSpace d = true := h
    simp [words, splitWhiteSpace, hc, hd]

/-- A character before a word makes it longer. -/
theorem exists_words_cons (hc : isWhiteSpace c = false) (h : stopsWord cs = false) :
    ∃ w ws, words cs = w :: ws ∧ words (c :: cs) = (c :: w) :: ws := by
  cases cs with
  | nil => cases h
  | cons d cs =>
    have hd : isWhiteSpace d = false := h
    cases hs : splitWhiteSpace cs with
    | nil => exact absurd hs (splitWhiteSpace_ne_nil cs)
    | cons w ws => simp [words, splitWhiteSpace, hc, hd, hs]

end

theorem words_append {w rest : List Char} (hw : IsUnspaced w) (h : stopsWord rest = true) :
    words (w ++ rest) = w :: words rest := by
  obtain ⟨hne, hall⟩ := hw
  induction w with
  | nil => exact absurd rfl hne
  | cons c w ih =>
    obtain ⟨hc, hw⟩ := List.forall_mem_cons.mp hall
    cases w with
    | nil => exact words_cons_of_stopsWord hc h
    | cons d w =>
      have hd : stopsWord (d :: w ++ rest) = false := hw d List.mem_cons_self
      obtain ⟨v, vs, hrest, hcons⟩ := exists_words_cons hc hd
      rw [ih (List.cons_ne_nil d w) hw] at hrest
      obtain ⟨rfl, rfl⟩ := List.cons.inj hrest
      exact hcons

/-- Words in a row, with one space between two of them, are read back. -/
theorem words_intercalate {ws : List (List Char)} (h : ∀ w ∈ ws, IsUnspaced w) :
    words ([' '].intercalate ws) = ws := by
  induction ws with
  | nil => rfl
  | cons w ws ih =>
    obtain ⟨hw, hws⟩ := List.forall_mem_cons.mp h
    cases ws with
    | nil =>
      rw [List.intercalate_singleton, ← List.append_nil w, words_append hw rfl, List.append_nil]
      rfl
    | cons v vs =>
      have hspace : isWhiteSpace ' ' = true := rfl
      rw [List.intercalate_cons_cons, List.append_assoc, words_append hw rfl, List.singleton_append,
        words_cons_of_isWhiteSpace hspace, ih hws]

/-! ## Tidied texts -/

/-- A text with each run of white space reduced to one space. -/
def reduceSpaces : List Char → List Char
  | [] => []
  | c :: cs =>
    if !isWhiteSpace c then c :: reduceSpaces cs
    else if cs.head?.any isWhiteSpace then reduceSpaces cs
    else ' ' :: reduceSpaces cs

/-- A text without the white space at its ends. -/
def trimSpaces (cs : List Char) : List Char :=
  (cs.dropWhile isWhiteSpace).rdropWhile isWhiteSpace

/-- A text without white space at its ends, and with one space for each run of it in between. -/
def tidy (cs : List Char) : List Char :=
  reduceSpaces (trimSpaces cs)

theorem rdropWhile_cons {α : Type} (p : α → Bool) (x : α) (xs : List α) :
    (x :: xs).rdropWhile p =
      if (xs.rdropWhile p).isEmpty && p x then [] else x :: xs.rdropWhile p := by
  rw [List.rdropWhile, List.reverse_cons, List.dropWhile_append, List.rdropWhile]
  cases hx : p x <;> cases hxs : xs.reverse.dropWhile p <;> simp [hx]

theorem words_eq_nil_iff {cs : List Char} : words cs = [] ↔ ∀ c ∈ cs, isWhiteSpace c = true := by
  induction cs with
  | nil => simp [words, splitWhiteSpace]
  | cons c cs ih =>
    cases hc : isWhiteSpace c with
    | true => simp [words_cons_of_isWhiteSpace hc, ih, hc]
    | false =>
      have hne : words (c :: cs) ≠ [] := by
        cases h : stopsWord cs with
        | true => simp [words_cons_of_stopsWord hc h]
        | false =>
          obtain ⟨w, ws, -, hcons⟩ := exists_words_cons hc h
          simp [hcons]
      simp [hne, hc]

theorem stopsWord_of_words_eq_nil {cs : List Char} (h : words cs = []) : stopsWord cs = true := by
  cases cs with
  | nil => rfl
  | cons d cs => exact words_eq_nil_iff.mp h d List.mem_cons_self

/-- A character before words makes the first of them longer, unless there is white space between
the two. -/
theorem intercalate_words_cons {c : Char} {cs : List Char} (hc : isWhiteSpace c = false)
    (h : words cs ≠ []) :
    [' '].intercalate (words (c :: cs)) =
      c :: ((if stopsWord cs then [' '] else []) ++ [' '].intercalate (words cs)) := by
  cases hstops : stopsWord cs with
  | true =>
    rw [words_cons_of_stopsWord hc hstops, List.intercalate_cons_of_ne_nil h]
    rfl
  | false =>
    obtain ⟨w, ws, hcons, hlonger⟩ := exists_words_cons hc hstops
    rw [hlonger, hcons]
    cases ws with
    | nil => simp
    | cons v vs => simp [List.intercalate_cons_cons]

/-- Characters that something is left of start as what is left does. -/
theorem head?_rdropWhile {α : Type} {p : α → Bool} {xs : List α} (h : xs.rdropWhile p ≠ []) :
    (xs.rdropWhile p).head? = xs.head? := by
  obtain ⟨back, hback⟩ := List.rdropWhile_prefix p xs
  rw [← List.head?_append_of_ne_nil _ h, hback]

/-- What is left of a text with words is its words with one space between two of them, after a
space if the text starts with white space. -/
theorem reduceSpaces_rdropWhile {cs : List Char} (h : words cs ≠ []) :
    reduceSpaces (cs.rdropWhile isWhiteSpace) =
      (if stopsWord cs then [' '] else []) ++ [' '].intercalate (words cs) := by
  induction cs with
  | nil => exact absurd rfl h
  | cons c cs ih =>
    rw [rdropWhile_cons]
    by_cases hnil : words cs = []
    · -- `c` is the last character that is no white space
      have hdrop : cs.rdropWhile isWhiteSpace = [] :=
        List.rdropWhile_eq_nil_iff.mpr (words_eq_nil_iff.mp hnil)
      have hstops := stopsWord_of_words_eq_nil hnil
      cases hc : isWhiteSpace c with
      | true => exact absurd ((words_cons_of_isWhiteSpace hc).trans hnil) h
      | false =>
        simp [hdrop, hc, reduceSpaces, words_cons_of_stopsWord hc hstops, hnil, stopsWord]
    · have hdrop : cs.rdropWhile isWhiteSpace ≠ [] := fun hdrop =>
        hnil (words_eq_nil_iff.mpr (List.rdropWhile_eq_nil_iff.mp hdrop))
      have hcs := ih hnil
      cases hc : isWhiteSpace c with
      | true =>
        -- of a run of white space only the last character leaves a space
        have hhead : (cs.rdropWhile isWhiteSpace).head?.any isWhiteSpace = stopsWord cs := by
          rw [head?_rdropWhile hdrop]
          cases cs with
          | nil => exact absurd rfl hnil
          | cons d cs => rfl
        have hstart : stopsWord (c :: cs) = true := hc
        rw [if_neg (by simp [hdrop]), reduceSpaces, if_neg (by simp [hc]), hhead, hcs,
          words_cons_of_isWhiteSpace hc, hstart]
        cases stopsWord cs <;> rfl
      | false =>
        have hstart : stopsWord (c :: cs) = false := hc
        rw [if_neg (by simp), reduceSpaces, if_pos (by simp [hc]), hcs, hstart,
          intercalate_words_cons hc hnil]
        rfl

theorem words_dropWhile (cs : List Char) : words (cs.dropWhile isWhiteSpace) = words cs := by
  induction cs with
  | nil => rfl
  | cons c cs ih =>
    cases hc : isWhiteSpace c with
    | true => rw [List.dropWhile_cons_of_pos hc, ih, words_cons_of_isWhiteSpace hc]
    | false => rw [List.dropWhile_cons_of_neg (Bool.eq_false_iff.mp hc)]

/-- A text, once tidied, is its words with one space between two of them. -/
theorem intercalate_words (cs : List Char) : [' '].intercalate (words cs) = tidy cs := by
  rw [tidy, trimSpaces, ← words_dropWhile cs]
  by_cases h : words (cs.dropWhile isWhiteSpace) = []
  · rw [h, List.rdropWhile_eq_nil_iff.mpr (words_eq_nil_iff.mp h)]
    rfl
  · have hstart : stopsWord (cs.dropWhile isWhiteSpace) = false := by
      have hhead := List.head?_dropWhile_not isWhiteSpace cs
      cases hcs : cs.dropWhile isWhiteSpace with
      | nil => exact absurd (congrArg words hcs) h
      | cons d ds => simpa [hcs, stopsWord] using hhead
    rw [reduceSpaces_rdropWhile h, hstart]
    rfl

theorem words_tidy (cs : List Char) : words (tidy cs) = words cs := by
  rw [← intercalate_words, words_intercalate fun w => isUnspaced_of_mem_words]

/-! ## The element of a word -/

/-- Characters that open an argument slot, closed or not. -/
def OpensSlot (w : List Char) : Prop :=
  ∃ c cs, w = '<' :: c :: cs ∧ opensSlot c = true

/-- Why a word is no element: it opens an argument slot, but does not end with the mark that closes
one, or has another angle bracket between the two. -/
inductive IsFault (w : List Char) : PatternError → Prop
  | unclosed (hopen : OpensSlot w) (hlast : w.getLast? ≠ some '>') :
    IsFault w (.unclosedArgument (String.ofList w))
  | invalid {name : List Char} (hopen : OpensSlot w) (hw : w = '<' :: name ++ ['>'])
    (hname : ∃ c ∈ name, isAngle c = true) : IsFault w (.invalidArgument (String.ofList w))

namespace IsFault

variable {w : List Char} {x x' : PatternError}

theorem opensSlot (h : IsFault w x) : OpensSlot w := by
  cases h <;> assumption

/-- A slot that holds another angle bracket is closed, so a word is a fault for one reason only. -/
theorem unique (h : IsFault w x) (h' : IsFault w x') : x = x' := by
  cases h with
  | unclosed hopen hlast =>
    cases h' with
    | unclosed => rfl
    | invalid _ hw _ => exact absurd (hw ▸ List.getLast?_concat) hlast
  | invalid hopen hw hname =>
    cases h' with
    | unclosed _ hlast => exact absurd (hw ▸ List.getLast?_concat) hlast
    | invalid => rfl

end IsFault

section

variable {name name' : List Char}

theorem opensSlot_slot (h : ∃ c ∈ name.head?, opensSlot c = true) :
    OpensSlot ('<' :: name ++ ['>']) := by
  obtain ⟨c, hc, hopens⟩ := h
  cases name with
  | nil => cases hc
  | cons d ds =>
    cases hc
    exact ⟨c, ds ++ ['>'], rfl, hopens⟩

theorem eq_of_slot_eq (h : '<' :: name ++ ['>'] = '<' :: name' ++ ['>']) : name = name' :=
  List.append_cancel_right (List.cons.inj h).2

theorem not_isFault_slot (h : ∀ c ∈ name, isAngle c = false) (x : PatternError) :
    ¬IsFault ('<' :: name ++ ['>']) x := by
  intro hx
  cases hx with
  | unclosed _ hlast => exact hlast List.getLast?_concat
  | @invalid name' _ hw hname =>
    obtain ⟨c, hc, hangle⟩ := hname
    rw [h c (eq_of_slot_eq hw ▸ hc)] at hangle
    cases hangle

end

namespace Element

/-- An element that its word is read as: a keyword that opens no slot, or an argument whose name
starts with a letter, a number or an underscore and holds no angle bracket. -/
def IsLegible : Element → Prop
  | keyword k => ¬OpensSlot k.toList
  | argument name =>
    (∃ c ∈ name.toList.head?, opensSlot c = true) ∧ ∀ c ∈ name.toList, isAngle c = false

theorem toList_word_argument (name : String) :
    (argument name).word.toList = '<' :: name.toList ++ ['>'] := by
  simp [word]

theorem opensSlot_close : opensSlot '>' = false := by
  decide +kernel

/-- A word is a keyword, or it opens a slot and is a fault or an argument. -/
theorem ofWord_cases (w : List Char) :
    ¬OpensSlot w ∧ ofWord w = .ok (.keyword (String.ofList w)) ∨
      (∃ x, IsFault w x ∧ ofWord w = .error x) ∨
      ∃ name : List Char, w = '<' :: name ++ ['>'] ∧ (∃ c ∈ name.head?, opensSlot c = true) ∧
        (∀ c ∈ name, isAngle c = false) ∧ ofWord w = .ok (.argument (String.ofList name)) := by
  by_cases hopen : OpensSlot w
  · refine Or.inr ?_
    obtain ⟨c, cs, hw, hc⟩ := id hopen
    by_cases hlast : (c :: cs).getLast? = some '>'
    · obtain ⟨name, hname⟩ := List.getLast?_eq_some_iff.mp hlast
      have hhead : ∃ c ∈ name.head?, opensSlot c = true := by
        cases name with
        | nil =>
          obtain ⟨rfl, -⟩ := List.cons.inj hname
          rw [opensSlot_close] at hc
          cases hc
        | cons d ds => exact ⟨d, rfl, (List.cons.inj hname).1 ▸ hc⟩
      have hread : ofWord w = if name.any isAngle then .error (.invalidArgument (String.ofList w))
          else .ok (.argument (String.ofList name)) := by
        rw [hw, ofWord, if_neg (by simp [hc]), if_neg (by simp [hlast]), hname,
          List.dropLast_concat]
      rw [hname] at hw
      cases hangle : name.any isAngle with
      | true =>
        rw [hread, hangle]
        exact Or.inl ⟨_, .invalid hopen hw (List.any_eq_true.mp hangle), rfl⟩
      | false =>
        rw [hread, hangle]
        exact Or.inr ⟨name, hw, hhead, by simpa using hangle, rfl⟩
    · refine Or.inl ⟨_, .unclosed hopen (hw ▸ hlast), ?_⟩
      rw [hw, ofWord, if_neg (by simp [hc]), if_pos hlast]
  · refine Or.inl ⟨hopen, ?_⟩
    unfold ofWord
    split
    · next c cs =>
      have hc : opensSlot c = false := Bool.eq_false_iff.mpr fun hc => hopen ⟨c, cs, rfl, hc⟩
      rw [if_pos (by simp [hc])]
    · rfl

theorem ofWord_word {e : Element} (he : e.IsLegible) : ofWord e.word.toList = .ok e := by
  cases e with
  | keyword k =>
    rcases ofWord_cases k.toList with ⟨-, hw⟩ | ⟨x, hx, -⟩ | ⟨name, hname, hhead, -, -⟩
    · rwa [String.ofList_toList] at hw
    · exact absurd hx.opensSlot he
    · exact absurd (hname ▸ opensSlot_slot hhead) he
  | argument name =>
    obtain ⟨hhead, hangle⟩ := he
    rw [toList_word_argument]
    rcases ofWord_cases ('<' :: name.toList ++ ['>']) with
      ⟨hopen, -⟩ | ⟨x, hx, -⟩ | ⟨name', hname, -, -, hw⟩
    · exact absurd (opensSlot_slot hhead) hopen
    · exact absurd hx (not_isFault_slot hangle x)
    · rw [hw, ← eq_of_slot_eq hname, String.ofList_toList]

/-- A word is read as an element if it is the word of that element, and the element is legible. -/
theorem ofWord_eq_ok_iff {w : List Char} {e : Element} :
    ofWord w = .ok e ↔ w = e.word.toList ∧ e.IsLegible := by
  constructor
  · intro h
    rcases ofWord_cases w with ⟨hopen, hw⟩ | ⟨x, -, hw⟩ | ⟨name, hname, hhead, hangle, hw⟩
    · rw [hw] at h
      cases h
      exact ⟨String.toList_ofList.symm, by rwa [IsLegible, String.toList_ofList]⟩
    · rw [hw] at h
      cases h
    · rw [hw] at h
      cases h
      refine ⟨?_, ?_⟩
      · rw [toList_word_argument, String.toList_ofList, hname]
      · rw [IsLegible, String.toList_ofList]
        exact ⟨hhead, hangle⟩
  · rintro ⟨rfl, he⟩
    exact ofWord_word he

/-- A word is refused if it is a fault, for that reason. -/
theorem ofWord_eq_error_iff {w : List Char} {x : PatternError} :
    ofWord w = .error x ↔ IsFault w x := by
  rcases ofWord_cases w with ⟨hopen, hw⟩ | ⟨x', hx', hw⟩ | ⟨name, rfl, -, hangle, hw⟩
  · rw [hw]
    exact ⟨nofun, fun h => absurd h.opensSlot hopen⟩
  · rw [hw]
    refine ⟨fun h => ?_, fun h => congrArg Except.error (hx'.unique h)⟩
    cases h
    exact hx'
  · rw [hw]
    exact ⟨nofun, fun h => absurd h (not_isFault_slot hangle x)⟩

end Element

/-! ## Rows read one by one -/

section

variable {ε α β : Type} {read : α → Except ε β} {xs : List α}

/-- A row is read if each of its items is. -/
theorem mapM_eq_ok_iff {ys : List β} :
    xs.mapM read = .ok ys ↔ List.Forall₂ (fun x y => read x = .ok y) xs ys := by
  induction xs generalizing ys with
  | nil => simp [pure, Except.pure, eq_comm (a := [])]
  | cons x xs ih =>
    rw [List.mapM_cons, List.forall₂_cons_left_iff]
    cases hx : read x with
    | error e => simp [bind, Except.bind]
    | ok y =>
      cases hxs : xs.mapM read with
      | error e => simp [← ih, hxs, bind, Except.bind]
      | ok ys' => simp [← ih, hxs, bind, Except.bind, pure, Except.pure, eq_comm]

/-- Otherwise it is refused for the first of its items that is. -/
theorem mapM_eq_error_iff {e : ε} :
    xs.mapM read = .error e ↔ ∃ front x back, xs = front ++ x :: back ∧
      (∀ v ∈ front, ∃ y, read v = .ok y) ∧ read x = .error e := by
  induction xs with
  | nil => simp [pure, Except.pure]
  | cons x xs ih =>
    rw [List.mapM_cons]
    cases hx : read x with
    | error e' =>
      constructor
      · intro h
        cases h
        exact ⟨[], x, xs, rfl, nofun, hx⟩
      · rintro ⟨front, x', back, hrow, hfront, hx'⟩
        cases front with
        | nil =>
          obtain ⟨rfl, -⟩ := List.cons.inj hrow
          exact congrArg (Except.bind · _) (hx.symm.trans hx')
        | cons v front =>
          obtain ⟨rfl, -⟩ := List.cons.inj hrow
          obtain ⟨y, hy⟩ := hfront x List.mem_cons_self
          rw [hx] at hy
          cases hy
    | ok y =>
      have hrest : (do return y :: (← xs.mapM read) : Except ε (List β)) = .error e ↔
          xs.mapM read = .error e := by
        cases xs.mapM read <;> simp [bind, Except.bind, pure, Except.pure]
      refine hrest.trans (ih.trans ?_)
      constructor
      · rintro ⟨front, x', back, rfl, hfront, hx'⟩
        exact ⟨x :: front, x', back, rfl, List.forall_mem_cons.mpr ⟨⟨y, hx⟩, hfront⟩, hx'⟩
      · rintro ⟨front, x', back, hrow, hfront, hx'⟩
        cases front with
        | nil =>
          obtain ⟨rfl, -⟩ := List.cons.inj hrow
          rw [hx] at hx'
          cases hx'
        | cons v front =>
          obtain ⟨rfl, rfl⟩ := List.cons.inj hrow
          exact ⟨front, x', back, rfl, (List.forall_mem_cons.mp hfront).2, hx'⟩

theorem exists_mapM_eq_ok_iff :
    (∃ ys, xs.mapM read = .ok ys) ↔ ∀ x ∈ xs, ∃ y, read x = .ok y := by
  constructor
  · rintro ⟨ys, h⟩
    have hrow := mapM_eq_ok_iff.mp h
    clear h
    induction hrow with
    | nil => exact fun _ hx => absurd hx List.not_mem_nil
    | cons hxy _ ih => exact List.forall_mem_cons.mpr ⟨⟨_, hxy⟩, ih⟩
  · intro h
    cases hread : xs.mapM read with
    | ok ys => exact ⟨ys, rfl⟩
    | error e =>
      obtain ⟨front, x, back, rfl, -, hx⟩ := mapM_eq_error_iff.mp hread
      obtain ⟨y, hy⟩ := h x (by simp)
      rw [hx] at hy
      cases hy

end

theorem elementsOfWords_eq_mapM (ws : List (List Char)) :
    elementsOfWords ws = ws.mapM Element.ofWord := by
  induction ws with
  | nil => rfl
  | cons w ws ih =>
    rw [elementsOfWords, List.mapM_cons, ih]
    cases Element.ofWord w with
    | error e => rfl
    | ok e => cases ws.mapM Element.ofWord <;> rfl

/-- Words are read as elements if they are the words of these, and the elements are legible. -/
theorem elementsOfWords_eq_ok_iff {ws : List (List Char)} {es : List Element} :
    elementsOfWords ws = .ok es ↔
      ws = es.map (fun e => e.word.toList) ∧ ∀ e ∈ es, e.IsLegible := by
  rw [elementsOfWords_eq_mapM, mapM_eq_ok_iff]
  simp only [Element.ofWord_eq_ok_iff]
  induction es generalizing ws with
  | nil => simp
  | cons e es ih =>
    rw [List.forall₂_cons_right_iff]
    constructor
    · rintro ⟨w, ws, ⟨rfl, he⟩, hws, rfl⟩
      obtain ⟨rfl, hes⟩ := ih.mp hws
      exact ⟨rfl, List.forall_mem_cons.mpr ⟨he, hes⟩⟩
    · rintro ⟨rfl, h⟩
      obtain ⟨he, hes⟩ := List.forall_mem_cons.mp h
      exact ⟨_, _, ⟨rfl, he⟩, ih.mpr ⟨rfl, hes⟩, rfl⟩

/-! ## The rule of a pattern -/

namespace Rule

variable {r : Rule} {name pattern : String}

theorem toList_pattern (r : Rule) :
    r.pattern.toList = [' '].intercalate (r.elements.map fun e => e.word.toList) := by
  simp [pattern, String.toList_intercalate, Function.comp_def]

theorem ofPattern_eq_ok_iff : ofPattern name pattern = .ok r ↔ r.name = name ∧ r.elements ≠ [] ∧
    words pattern.toList = r.elements.map (fun e => e.word.toList) ∧
    ∀ e ∈ r.elements, e.IsLegible := by
  obtain ⟨n, es⟩ := r
  rw [← elementsOfWords_eq_ok_iff, ofPattern]
  cases elementsOfWords (words pattern.toList) with
  | error x => simp
  | ok es' =>
    cases es' with
    | nil => simp +contextual [eq_comm]
    | cons e es' =>
      simp only [Except.ok.injEq, Rule.mk.injEq]
      constructor
      · rintro ⟨rfl, rfl⟩
        exact ⟨rfl, List.cons_ne_nil _ _, rfl⟩
      · rintro ⟨rfl, -, rfl⟩
        exact ⟨rfl, rfl⟩

end Rule

/-! ## Rules that patterns can write -/

/-- An element that a pattern can write: a keyword of at least one character, without white space,
that opens no slot, or an argument whose name starts with a letter, a number or an underscore and
holds neither white space nor angle brackets. -/
def Element.IsExpressible : Element → Prop
  | keyword k => k ≠ "" ∧ (∀ c ∈ k.toList, isWhiteSpace c = false) ∧ ¬OpensSlot k.toList
  | argument name => (∃ c ∈ name.toList.head?, opensSlot c = true) ∧
    ∀ c ∈ name.toList, isWhiteSpace c = false ∧ isAngle c = false

/-- A rule that a pattern can write has elements, and a pattern can write each of them. -/
def Rule.IsExpressible (r : Rule) : Prop :=
  r.elements ≠ [] ∧ ∀ e ∈ r.elements, e.IsExpressible

theorem Element.isExpressible_iff {e : Element} :
    e.IsExpressible ↔ IsUnspaced e.word.toList ∧ e.IsLegible := by
  cases e with
  | keyword k => simp [IsExpressible, IsUnspaced, IsLegible, word, and_assoc]
  | argument name =>
    have hunspaced : IsUnspaced ('<' :: name.toList ++ ['>']) ↔
        ∀ c ∈ name.toList, isWhiteSpace c = false := by
      have hopen : isWhiteSpace '<' = false := rfl
      have hclose : isWhiteSpace '>' = false := rfl
      simp [IsUnspaced, or_imp, forall_and, hopen, hclose]
    rw [toList_word_argument, hunspaced, IsExpressible, IsLegible, and_left_comm]
    exact and_congr_right fun _ => ⟨fun h => ⟨fun c hc => (h c hc).1, fun c hc => (h c hc).2⟩,
      fun h c hc => ⟨h.1 c hc, h.2 c hc⟩⟩

namespace Rule

theorem words_pattern {r : Rule} (h : r.IsExpressible) :
    words r.pattern.toList = r.elements.map fun e => e.word.toList := by
  rw [toList_pattern, words_intercalate]
  intro w hw
  obtain ⟨e, he, rfl⟩ := List.mem_map.mp hw
  exact (Element.isExpressible_iff.mp (h.2 e he)).1

theorem ofPattern_eq_ok_iff_isExpressible {r : Rule} {name pattern : String} :
    ofPattern name pattern = .ok r ↔ r.name = name ∧ r.IsExpressible ∧
      words pattern.toList = r.elements.map fun e => e.word.toList := by
  rw [ofPattern_eq_ok_iff]
  refine and_congr_right fun _ => ?_
  constructor
  · rintro ⟨hne, hwords, hlegible⟩
    refine ⟨⟨hne, fun e he => Element.isExpressible_iff.mpr ⟨?_, hlegible e he⟩⟩, hwords⟩
    exact isUnspaced_of_mem_words (hwords ▸ List.mem_map_of_mem he)
  · rintro ⟨⟨hne, hall⟩, hwords⟩
    exact ⟨hne, hwords, fun e he => (Element.isExpressible_iff.mp (hall e he)).2⟩

/-- A pattern writes the rule whose own pattern is the tidied text, provided that it is a rule that
a pattern can write. So a rule is made again of its own pattern exactly if it is such a rule. -/
theorem ofPattern_iff_isExpressible (r : Rule) (name pattern : String) :
    (ofPattern r.name r.pattern = .ok r ↔ r.IsExpressible) ∧
      (ofPattern name pattern = .ok r ↔
        r.name = name ∧ r.IsExpressible ∧ r.pattern = String.ofList (tidy pattern.toList)) := by
  constructor
  · rw [ofPattern_eq_ok_iff_isExpressible]
    exact ⟨fun h => h.2.1, fun h => ⟨rfl, h, words_pattern h⟩⟩
  · rw [ofPattern_eq_ok_iff_isExpressible]
    refine and_congr_right fun _ => and_congr_right fun hr => ?_
    rw [← words_pattern hr, ← String.toList_inj, String.toList_ofList]
    constructor
    · intro hwords
      rw [← intercalate_words, hwords, words_pattern hr, toList_pattern]
    · intro hpattern
      rw [hpattern, words_tidy]

/-- An operator with angle brackets is a keyword, and white space of any sort parts words. -/
example : (ofPattern "cmp" "  if <a>\t<= \n<b>\u3000").toOption.map pattern =
    some "if <a> <= <b>" := by
  decide +kernel

end Rule

end CommandScript
