/-!
# Control sequences of terminals

A text for a terminal may hold control sequences, which start with the escape character and
set colours or titles. `Terminal.visible` is the text without them, for an output that is no
terminal: of the other controls only white space stays. A sequence is left as `Mode.next` says,
and one that is never closed hides the rest of the text.

White space within a sequence stays too and interrupts it. The characters after it are visible
until a control comes, which takes the sequence up again; a character beyond ASCII is visible
and ends an interrupted sequence. A text of visible characters is left as it is
(`visibleChars_eq_self`).
-/

namespace CommandScript

namespace Terminal

/-! ## Characters -/

/-- The white space among the controls: tab, line feed, form feed and carriage return. -/
def isSpacing (c : Char) : Bool :=
  c = '\t' || c = '\n' || c = '\x0c' || c = '\r'

/-- The characters that are visible outside of sequences. -/
def isVisible (c : Char) : Bool :=
  isSpacing c || (decide (32 ≤ c.toNat) && c != '\x7f')

/-- Whether the code point of a character is within bounds. -/
def isWithin (low high : Char) (c : Char) : Bool :=
  decide (low ≤ c) && decide (c ≤ high)

/-- Whether a character is beyond ASCII. -/
def isBeyondAscii (c : Char) : Bool :=
  decide (128 ≤ c.toNat)

/-- Whether the string terminator of 8-bit terminals is a byte of a character in UTF-8. -/
def holdsTerminator (c : Char) : Bool :=
  isBeyondAscii c && (String.utf8EncodeChar c).contains 0x9c

/-! ## Sequences -/

/-- Where a terminal is in a text. -/
inductive Mode
  /-- Outside of sequences. -/
  | outside
  /-- After the escape character. -/
  | escape
  /-- After the escape character and characters that do not close the sequence. -/
  | intermediate
  /-- After the escape character and `[`, before the letter that closes the sequence. -/
  | control
  /-- At the start of a device control string. -/
  | deviceStart
  /-- Among the parameters of a device control string. -/
  | deviceParameters
  /-- After the parameters of a device control string. -/
  | deviceIntermediate
  /-- In a string that nothing but its terminator closes. -/
  | string
  /-- In a command of the operating system, such as a title. -/
  | command
  deriving DecidableEq, Repr

namespace Mode

/-- The mode after the character that follows the escape character. -/
def afterEscape (c : Char) : Mode :=
  if c = '[' then control
  else if c = ']' then command
  else if c = 'P' then deviceStart
  else if c = 'X' ∨ c = '^' ∨ c = '_' then string
  else if isWithin ' ' '/' c then intermediate
  else if isWithin '0' '~' c then outside
  else escape

/-- The mode after a character. The escape character starts a sequence in every mode, and the
controls that cancel a sequence leave it in every mode. -/
def next (m : Mode) (c : Char) : Mode :=
  if c = '\x1b' then escape
  else if c = '\x18' ∨ c = '\x1a' then outside
  else match m with
    | outside => outside
    | escape => afterEscape c
    | intermediate => if isWithin '0' '~' c then outside else intermediate
    | control => if isWithin '@' '~' c then outside else control
    | deviceStart =>
      if isWithin ' ' '/' c then deviceIntermediate
      else if isWithin '0' '?' c then deviceParameters
      else if isWithin '@' '~' c then string
      else deviceStart
    | deviceParameters =>
      if isWithin ' ' '/' c then deviceIntermediate
      else if isWithin '<' '~' c then string
      else deviceParameters
    | deviceIntermediate => if isWithin '0' '~' c then string else deviceIntermediate
    | string => if holdsTerminator c then outside else string
    | command => if c = '\x07' then outside else command

/-- Whether a character is visible in a mode. -/
def shows (m : Mode) (c : Char) : Bool :=
  match m with
  | outside => isVisible c
  | escape | intermediate | control => isSpacing c
  | _ => false

end Mode

/-- A mode, and whether white space has interrupted its sequence. -/
structure Place where
  mode : Mode
  interrupted : Bool
  deriving DecidableEq, Repr

namespace Place

/-- The place where a text starts. -/
def start : Place :=
  ⟨.outside, false⟩

/-- Whether a character is visible at a place. -/
def shows (p : Place) (c : Char) : Bool :=
  if p.interrupted then isVisible c else p.mode.shows c

/-- The place after a character. -/
def next (p : Place) (c : Char) : Place :=
  if p.shows c then ⟨if isBeyondAscii c then .outside else p.mode, true⟩
  else ⟨p.mode.next c, false⟩

end Place

/-- The visible characters of a text from a place on. -/
def visibleChars (p : Place) : List Char → List Char
  | [] => []
  | c :: cs => if p.shows c then c :: visibleChars (p.next c) cs else visibleChars (p.next c) cs

/-- The part of a text that is visible. -/
def visible (text : String) : String :=
  String.ofList (visibleChars .start text.toList)

/-! ## Visible texts -/

theorem shows_of_mode_eq_outside {p : Place} (hp : p.mode = .outside) (c : Char) :
    p.shows c = isVisible c := by
  simp [Place.shows, hp, Mode.shows]

theorem mode_next_of_isVisible {p : Place} {c : Char} (hp : p.mode = .outside)
    (hc : isVisible c = true) : (p.next c).mode = .outside := by
  simp [Place.next, shows_of_mode_eq_outside hp, hc, hp]

/-- A text whose characters are all visible is left as it is. -/
theorem visibleChars_eq_self {p : Place} {cs : List Char} (hp : p.mode = .outside)
    (h : ∀ c ∈ cs, isVisible c = true) : visibleChars p cs = cs := by
  induction cs generalizing p with
  | nil => rfl
  | cons c cs ih =>
    have hc := h c List.mem_cons_self
    have hcs := ih (mode_next_of_isVisible hp hc) fun d hd => h d (List.mem_cons_of_mem c hd)
    simp [visibleChars, shows_of_mode_eq_outside hp, hc, hcs]

end Terminal

end CommandScript
