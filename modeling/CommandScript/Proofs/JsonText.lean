import Mathlib.Tactic.SplitIfs
import CommandScript.Json.Printer
import CommandScript.Json.Reader

/-!
# JSON texts read back

A value without numbers whose strings and keys are texts (`Json.IsTextual`) reads back from each
text that it is written as, on one line (`parse?_compact`) and on several (`parse?_pretty`).

Both ways of writing put the same marks in the same order, and differ in white space only. So
what is proved of them is that the characters have marks, whatever follows (`HaveMarks`), and
that the marks have the value, whatever is still open around them (`HaveValue`): then they are a
text of the value (`IsTextOf`). White space has no marks, and the parts of a row are joined by
commas, so one lemma for arrays and one for objects serve both ways of writing.
-/

namespace CommandScript

namespace Json

/-! ## Strings -/

/-- A character is written as a backslash and a letter, by its number, or as itself. -/
theorem escapeChar_cases (c : Char) :
    (∃ e, escapeChar c = ['\\', e] ∧ shortEscape? e = some c) ∨
      (c.toNat < 32 ∧
        escapeChar c =
          ['\\', 'u', '0', '0', hexDigit (c.toNat / 16), hexDigit (c.toNat % 16)]) ∨
      (c ≠ '"' ∧ c ≠ '\\' ∧ 32 ≤ c.toNat ∧ escapeChar c = [c]) := by
  unfold escapeChar
  split_ifs with hquote hslash hb hf hn hr ht hcontrol
  · exact Or.inl ⟨'"', rfl, by rw [hquote]; rfl⟩
  · exact Or.inl ⟨'\\', rfl, by rw [hslash]; rfl⟩
  · exact Or.inl ⟨'b', rfl, by rw [hb]; rfl⟩
  · exact Or.inl ⟨'f', rfl, by rw [hf]; rfl⟩
  · exact Or.inl ⟨'n', rfl, by rw [hn]; rfl⟩
  · exact Or.inl ⟨'r', rfl, by rw [hr]; rfl⟩
  · exact Or.inl ⟨'t', rfl, by rw [ht]; rfl⟩
  · exact Or.inr (Or.inl ⟨hcontrol, rfl⟩)
  · exact Or.inr (Or.inr ⟨hquote, hslash, Nat.not_lt.mp hcontrol, rfl⟩)

/-- The digits of a control character denote its number. -/
theorem hexValue4?_control {n : Nat} (hn : n < 32) :
    hexValue4? '0' '0' (hexDigit (n / 16)) (hexDigit (n % 16)) = some n := by
  revert n
  decide

/-- No letter after a backslash is the one that numbers follow. -/
theorem ne_u_of_shortEscape? {e c : Char} (h : shortEscape? e = some c) : e ≠ 'u' := by
  rintro rfl
  cases h

theorem unescape?_escapeChar_append (c : Char) (cs : List Char) :
    unescape? (escapeChar c ++ cs) = (unescape? cs).map (c :: ·) := by
  rcases escapeChar_cases c with ⟨e, hc, he⟩ | ⟨hlow, hc⟩ | ⟨hquote, hslash, hhigh, hc⟩
  · have hu := ne_u_of_shortEscape? he
    simp [hc, unescape?, he, hu]
  · have hhigh : ¬55296 ≤ c.toNat := by omega
    have hlow' : ¬56320 ≤ c.toNat := by omega
    simp [hc, unescape?, hexValue4?_control hlow, hhigh, hlow', Char.ofNat_toNat]
  · simp [hc, unescape?, hslash]

/-- A text is read back from what it is written as. -/
@[simp]
theorem unescape?_escape (text : List Char) : unescape? (escape text) = some text := by
  induction text with
  | nil => rfl
  | cons c text ih =>
    rw [escape, List.flatMap_cons, ← escape, unescape?_escapeChar_append, ih]
    rfl

@[simp]
theorem text?_ofText (text : String) : (ofText text).text? = some text := by
  simp [ofText, text?]

theorem readString?_escapeChar_append (c : Char) (cs : List Char) :
    readString? (escapeChar c ++ cs) =
      (readString? cs).map fun (s, r) => (escapeChar c ++ s, r) := by
  rcases escapeChar_cases c with ⟨e, hc, he⟩ | ⟨hlow, hc⟩ | ⟨hquote, hslash, hhigh, hc⟩
  · have hu := ne_u_of_shortEscape? he
    simp [hc, readString?, he, hu]
  · simp [hc, readString?, hexValue4?_control hlow]
  · have hcontrol : ¬c.toNat < 32 := Nat.not_lt.mpr hhigh
    simp [hc, readString?, hslash, hcontrol]

/-- A string ends at its own quote, whatever its text. -/
theorem readString?_escape (text rest : List Char) :
    readString? (escape text ++ '"' :: rest) = some (escape text, rest) := by
  induction text with
  | nil => rfl
  | cons c text ih =>
    rw [escape, List.flatMap_cons, ← escape, List.append_assoc, readString?_escapeChar_append, ih]
    rfl

/-! ## Marks -/

/-- A text is cut into these marks. -/
def AreMarksOf (ms : List Mark) (cs : List Char) : Prop :=
  ∀ n, cs.length ≤ n → readMarksWithin? n cs = some ms

/-- These characters are cut into these marks, whatever follows them. -/
def HaveMarks (cs : List Char) (ms : List Mark) : Prop :=
  ∀ rest more, AreMarksOf more rest → AreMarksOf (ms ++ more) (cs ++ rest)

theorem areMarksOf_nil : AreMarksOf [] [] := by
  intro n hn
  cases n <;> rfl

theorem AreMarksOf.space {c : Char} {cs : List Char} {ms : List Mark} (hc : isSpace c = true)
    (h : AreMarksOf ms cs) : AreMarksOf ms (c :: cs) := by
  intro n hn
  cases n with
  | zero => cases hn
  | succ n =>
    rw [readMarksWithin?, if_pos hc]
    exact h n (Nat.le_of_succ_le_succ hn)

theorem AreMarksOf.mark {c : Char} {cs rest : List Char} {m : Mark} {ms : List Mark}
    (hc : isSpace c = false) (hm : readMark? (c :: cs) = some (m, rest))
    (hrest : rest.length ≤ cs.length) (h : AreMarksOf ms rest) :
    AreMarksOf (m :: ms) (c :: cs) := by
  intro n hn
  cases n with
  | zero => cases hn
  | succ n =>
    have hlength : rest.length ≤ n := Nat.le_trans hrest (Nat.le_of_succ_le_succ hn)
    simp [readMarksWithin?, hc, hm, h n hlength]

theorem haveMarks_nil : HaveMarks [] [] :=
  fun _ _ h => h

theorem HaveMarks.append {cs cs' : List Char} {ms ms' : List Mark} (h : HaveMarks cs ms)
    (h' : HaveMarks cs' ms') : HaveMarks (cs ++ cs') (ms ++ ms') := by
  intro rest more hmore
  rw [List.append_assoc, List.append_assoc]
  exact h _ _ (h' rest more hmore)

/-- White space has no marks. -/
theorem haveMarks_of_isSpace {cs : List Char} (h : ∀ c ∈ cs, isSpace c = true) :
    HaveMarks cs [] := by
  intro rest more hmore
  induction cs with
  | nil => exact hmore
  | cons c cs ih =>
    obtain ⟨hc, hcs⟩ := List.forall_mem_cons.mp h
    exact (ih hcs).space hc

theorem haveMarks_newLine (depth : Nat) : HaveMarks (newLine depth) [] := by
  refine haveMarks_of_isSpace fun c hc => ?_
  rcases List.mem_cons.mp hc with rfl | hc
  · rfl
  · rw [List.eq_of_mem_replicate hc]
    rfl

/-- Characters that are read as one mark, whatever follows. -/
theorem haveMarks_singleton {c : Char} {cs : List Char} {m : Mark} (hc : isSpace c = false)
    (hm : ∀ rest, readMark? (c :: cs ++ rest) = some (m, rest)) : HaveMarks (c :: cs) [m] :=
  fun rest _ hmore => AreMarksOf.mark hc (hm rest) (by simp) hmore

theorem haveMarks_openArray : HaveMarks ['['] [.openArray] :=
  haveMarks_singleton rfl fun _ => rfl

theorem haveMarks_closeArray : HaveMarks [']'] [.closeArray] :=
  haveMarks_singleton rfl fun _ => rfl

theorem haveMarks_openObject : HaveMarks ['\x7b'] [.openObject] :=
  haveMarks_singleton rfl fun _ => rfl

theorem haveMarks_closeObject : HaveMarks ['\x7d'] [.closeObject] :=
  haveMarks_singleton rfl fun _ => rfl

theorem haveMarks_comma : HaveMarks [','] [.comma] :=
  haveMarks_singleton rfl fun _ => rfl

theorem haveMarks_colon : HaveMarks [':'] [.colon] :=
  haveMarks_singleton rfl fun _ => rfl

/-- A text between quotes is one mark. -/
theorem haveMarks_string (text : List Char) :
    HaveMarks ('"' :: escape text ++ ['"']) [.string (escape text)] := by
  refine haveMarks_singleton rfl fun rest => ?_
  simp [readMark?, readString?_escape]

/-! ## Values -/

/-- These marks are read as this value, whatever is open around them and whatever follows. -/
def HaveValue (ms : List Mark) (v : Json) : Prop :=
  ∀ fs rest, readValue? fs (ms ++ rest) = readRest? fs v rest

/-- These characters are read as this value, wherever they stand. -/
def IsTextOf (cs : List Char) (v : Json) : Prop :=
  ∃ ms, HaveMarks cs ms ∧ HaveValue ms v

theorem IsTextOf.parse? {cs : List Char} {v : Json} (h : IsTextOf cs v) :
    parse? (String.ofList cs) = some v := by
  obtain ⟨ms, hms, hv⟩ := h
  have hmarks : readMarks? cs = some ms := by
    simpa [readMarks?] using hms [] [] areMarksOf_nil cs.length (by simp)
  have hvalue : readValue? [] ms = some v := by
    simpa [readRest?] using hv [] []
  simp [Json.parse?, ofChars?, hmarks, hvalue]

theorem isTextOf_null : IsTextOf ['n', 'u', 'l', 'l'] null :=
  ⟨[.null], haveMarks_singleton rfl fun _ => rfl, fun _ _ => by simp [readValue?]⟩

theorem isTextOf_true : IsTextOf ['t', 'r', 'u', 'e'] (bool true) :=
  ⟨[.bool true], haveMarks_singleton rfl fun _ => rfl, fun _ _ => by simp [readValue?]⟩

theorem isTextOf_false : IsTextOf ['f', 'a', 'l', 's', 'e'] (bool false) :=
  ⟨[.bool false], haveMarks_singleton rfl fun _ => rfl, fun _ _ => by simp [readValue?]⟩

theorem isTextOf_string (text : List Char) :
    IsTextOf ('"' :: escape text ++ ['"']) (string (escape text)) :=
  ⟨[.string (escape text)], haveMarks_string text, fun _ _ => by simp [readValue?]⟩

theorem isTextOf_array_nil : IsTextOf ['[', ']'] (array []) :=
  ⟨[.openArray, .closeArray], haveMarks_openArray.append haveMarks_closeArray,
    fun _ _ => by simp [readValue?]⟩

theorem isTextOf_object_nil : IsTextOf ['\x7b', '\x7d'] (object []) :=
  ⟨[.openObject, .closeObject], haveMarks_openObject.append haveMarks_closeObject,
    fun _ _ => by simp [readValue?]⟩

/-! ## Rows of items and of members -/

/-- A member, with white space after its colon. -/
def memberChars (space : List Char) (write : Json → List Char) (m : List Char × Json) :
    List Char :=
  '"' :: m.1 ++ ['"'] ++ ([':'] ++ space ++ write m.2)

section

variable {gap last space : List Char} {write : Json → List Char}

/-- Items with commas between them are read up to the bracket that closes their array. -/
theorem exists_marks_items (hgap : HaveMarks gap []) {v : Json} {vs : List Json}
    (h : ∀ w ∈ v :: vs, IsTextOf (write w) w) :
    ∃ ms, HaveMarks ((',' :: gap).intercalate ((v :: vs).map write)) ms ∧
      ∀ done fs rest, readValue? (.array done :: fs) (ms ++ .closeArray :: rest) =
        readRest? fs (.array (done.reverse ++ v :: vs)) rest := by
  induction vs generalizing v with
  | nil =>
    obtain ⟨ms, hms, hv⟩ := h v (by simp)
    refine ⟨ms, by simpa using hms, fun done fs rest => ?_⟩
    rw [hv, readRest?, List.reverse_cons]
  | cons w vs ih =>
    obtain ⟨hv, hvs⟩ := List.forall_mem_cons.mp h
    obtain ⟨ms, hms, hread⟩ := hv
    obtain ⟨ms', hms', hread'⟩ := ih hvs
    refine ⟨ms ++ ([.comma] ++ [] ++ ms'), ?_, fun done fs rest => ?_⟩
    · rw [List.map_cons, List.map_cons, List.intercalate_cons_cons, List.append_assoc]
      exact hms.append ((haveMarks_comma.append hgap).append hms')
    · rw [List.append_assoc, hread]
      simp [readRest?, hread']

/-- A key and a colon stand before the marks of a member's value. -/
theorem exists_marks_memberChars (hspace : HaveMarks space []) {m : List Char × Json}
    (hkey : ∃ text, m.1 = escape text) (h : IsTextOf (write m.2) m.2) :
    ∃ ms, HaveMarks (memberChars space write m) (.string m.1 :: .colon :: ms) ∧
      HaveValue ms m.2 := by
  obtain ⟨text, hkey⟩ := hkey
  obtain ⟨ms, hms, hread⟩ := h
  refine ⟨ms, ?_, hread⟩
  rw [memberChars, hkey]
  exact (haveMarks_string text).append ((haveMarks_colon.append hspace).append hms)

/-- Members with commas between them are read up to the bracket that closes their object. -/
theorem exists_marks_members (hgap : HaveMarks gap []) (hspace : HaveMarks space [])
    {m : List Char × Json} {members : List (List Char × Json)}
    (hkeys : ∀ m' ∈ m :: members, ∃ text, m'.1 = escape text)
    (h : ∀ m' ∈ m :: members, IsTextOf (write m'.2) m'.2) :
    ∃ ms, HaveMarks ((',' :: gap).intercalate ((m :: members).map (memberChars space write)))
        (.string m.1 :: .colon :: ms) ∧
      ∀ done fs rest, readValue? (.object done m.1 :: fs) (ms ++ .closeObject :: rest) =
        readRest? fs (.object (done.reverse ++ m :: members)) rest := by
  induction members generalizing m with
  | nil =>
    obtain ⟨ms, hms, hread⟩ := exists_marks_memberChars hspace (hkeys m (by simp)) (h m (by simp))
    refine ⟨ms, by simpa using hms, fun done fs rest => ?_⟩
    rw [hread, readRest?, List.reverse_cons]
  | cons m' members ih =>
    obtain ⟨hkey, hkeys⟩ := List.forall_mem_cons.mp hkeys
    obtain ⟨hm, hmembers⟩ := List.forall_mem_cons.mp h
    obtain ⟨ms, hms, hread⟩ := exists_marks_memberChars hspace hkey hm
    obtain ⟨ms', hms', hread'⟩ := ih hkeys hmembers
    refine ⟨ms ++ .comma :: .string m'.1 :: .colon :: ms', ?_, fun done fs rest => ?_⟩
    · rw [List.map_cons, List.map_cons, List.intercalate_cons_cons, List.append_assoc]
      exact hms.append ((haveMarks_comma.append hgap).append hms')
    · rw [List.append_assoc, hread]
      simp [readRest?, hread']

theorem isTextOf_array_cons (hgap : HaveMarks gap []) (hlast : HaveMarks last []) {v : Json}
    {vs : List Json} (h : ∀ w ∈ v :: vs, IsTextOf (write w) w) :
    IsTextOf ('[' :: gap ++ (',' :: gap).intercalate ((v :: vs).map write) ++ last ++ [']'])
      (array (v :: vs)) := by
  obtain ⟨ms, hms, hread⟩ := exists_marks_items hgap h
  -- a value starts with another mark, so the array is not read as an empty one
  obtain ⟨first, ms', rfl, hfirst⟩ : ∃ first ms', ms = first :: ms' ∧ first ≠ .closeArray := by
    have hvalue := hread [] [] []
    cases ms with
    | nil => simp [readValue?, readRest?] at hvalue
    | cons first ms' =>
      refine ⟨first, ms', rfl, ?_⟩
      rintro rfl
      simp [readValue?, readRest?] at hvalue
  refine ⟨.openArray :: (first :: ms' ++ [.closeArray]), ?_, fun fs rest => ?_⟩
  · have hmarks := (((haveMarks_openArray.append hgap).append hms).append hlast).append
      haveMarks_closeArray
    simpa using hmarks
  · have hitems := hread [] fs rest
    simpa [readValue?, hfirst] using hitems

theorem isTextOf_object_cons (hgap : HaveMarks gap []) (hspace : HaveMarks space [])
    (hlast : HaveMarks last []) {m : List Char × Json} {members : List (List Char × Json)}
    (hkeys : ∀ m' ∈ m :: members, ∃ text, m'.1 = escape text)
    (h : ∀ m' ∈ m :: members, IsTextOf (write m'.2) m'.2) :
    IsTextOf
      ('\x7b' :: gap ++ (',' :: gap).intercalate ((m :: members).map (memberChars space write)) ++
        last ++ ['\x7d'])
      (object (m :: members)) := by
  obtain ⟨ms, hms, hread⟩ := exists_marks_members hgap hspace hkeys h
  refine ⟨.openObject :: .string m.1 :: .colon :: (ms ++ [.closeObject]), ?_, fun fs rest => ?_⟩
  · have hmarks := (((haveMarks_openObject.append hgap).append hms).append hlast).append
      haveMarks_closeObject
    simpa using hmarks
  · simp [readValue?, hread]

end

/-! ## Both ways of writing -/

/-- Values without numbers, whose strings and keys are texts. -/
inductive IsTextual : Json → Prop
  | null : IsTextual null
  | bool (value : Bool) : IsTextual (bool value)
  | string (text : List Char) : IsTextual (string (escape text))
  | array {items : List Json} (h : ∀ v ∈ items, IsTextual v) : IsTextual (array items)
  | object {members : List (List Char × Json)}
    (keys : ∀ m ∈ members, ∃ text, m.1 = escape text) (values : ∀ m ∈ members, IsTextual m.2) :
    IsTextual (object members)

/-- Texts that are put in a row with the same characters between two of them. -/
theorem eq_intercalate {α : Type} {row : List α → List Char} {sep : List Char}
    {write : α → List Char} (hnil : row [] = []) (hsingle : ∀ x, row [x] = write x)
    (hcons : ∀ x y xs, row (x :: y :: xs) = write x ++ sep ++ row (y :: xs)) (xs : List α) :
    row xs = sep.intercalate (xs.map write) := by
  induction xs with
  | nil => exact hnil
  | cons x xs ih =>
    cases xs with
    | nil => simp [hsingle]
    | cons y xs =>
      rw [hcons, ih, List.map_cons, List.map_cons, List.map_cons, List.intercalate_cons_cons]

theorem compactItems_eq (items : List Json) :
    compactItems items = [','].intercalate (items.map compactChars) :=
  eq_intercalate rfl (by simp [compactItems]) (by simp [compactItems]) items

theorem compactMembers_eq (members : List (List Char × Json)) :
    compactMembers members = [','].intercalate (members.map (memberChars [] compactChars)) :=
  eq_intercalate rfl (by simp [compactMembers, memberChars])
    (by simp [compactMembers, memberChars]) members

theorem prettyItems_eq (depth : Nat) (items : List Json) :
    prettyItems depth items =
      (',' :: newLine depth).intercalate (items.map (prettyChars depth)) :=
  eq_intercalate rfl (by simp [prettyItems]) (by simp [prettyItems]) items

theorem prettyMembers_eq (depth : Nat) (members : List (List Char × Json)) :
    prettyMembers depth members =
      (',' :: newLine depth).intercalate (members.map (memberChars [' '] (prettyChars depth))) :=
  eq_intercalate rfl (by simp [prettyMembers, memberChars])
    (by simp [prettyMembers, memberChars]) members

theorem isTextOf_compactChars {v : Json} (h : IsTextual v) : IsTextOf v.compactChars v := by
  induction h with
  | null => exact isTextOf_null
  | bool value =>
    cases value with
    | true => exact isTextOf_true
    | false => exact isTextOf_false
  | string text => exact isTextOf_string text
  | @array items h ih =>
    rw [compactChars, compactItems_eq]
    cases items with
    | nil => exact isTextOf_array_nil
    | cons v vs => simpa using isTextOf_array_cons haveMarks_nil haveMarks_nil ih
  | @object members keys values ih =>
    rw [compactChars, compactMembers_eq]
    cases members with
    | nil => exact isTextOf_object_nil
    | cons m members =>
      simpa using isTextOf_object_cons haveMarks_nil haveMarks_nil haveMarks_nil keys ih

theorem isTextOf_prettyChars {v : Json} (h : IsTextual v) (depth : Nat) :
    IsTextOf (v.prettyChars depth) v := by
  have hspace : HaveMarks [' '] [] := haveMarks_of_isSpace (by simp [isSpace])
  induction h generalizing depth with
  | null => exact isTextOf_null
  | bool value =>
    cases value with
    | true => exact isTextOf_true
    | false => exact isTextOf_false
  | string text => exact isTextOf_string text
  | @array items h ih =>
    cases items with
    | nil => exact isTextOf_array_nil
    | cons v vs =>
      rw [prettyChars, prettyItems_eq]
      exact isTextOf_array_cons (haveMarks_newLine _) (haveMarks_newLine _)
        fun w hw => ih w hw (depth + 1)
  | @object members keys values ih =>
    cases members with
    | nil => exact isTextOf_object_nil
    | cons m members =>
      rw [prettyChars, prettyMembers_eq]
      exact isTextOf_object_cons (haveMarks_newLine _) hspace (haveMarks_newLine _) keys
        fun m' hm' => ih m' hm' (depth + 1)

/-- A value is read back from its text on one line. -/
theorem parse?_compact {v : Json} (h : IsTextual v) : parse? v.compact = some v :=
  (isTextOf_compactChars h).parse?

/-- A value is read back from its text on several lines. -/
theorem parse?_pretty {v : Json} (h : IsTextual v) : parse? v.pretty = some v :=
  (isTextOf_prettyChars h 0).parse?

end Json

end CommandScript
