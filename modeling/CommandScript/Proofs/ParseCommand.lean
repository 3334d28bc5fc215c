import CommandScript.CommandLine.Execute
import CommandScript.Proofs.FirstError

/-!
# The outcome of reading a file

A file is a script of a grammar if it can be read without an error. `Reads` says so of two files and
the block that is read, with nothing about how the program was called. The exit code of `parse` says
whether there is such a block, and the block alone decides what then goes to standard output
(`executeParse_of_reads`). If there is none the exit code is one, and without recovery nothing goes
there (`executeParse_of_not_reads`). The flags choose between two ways of reading and bound one of
them, but the two have errors for the same texts (`errors_eq_nil_iff`). `code_of_parse` says this of
all arguments that ask for `parse`.
-/

namespace CommandScript

/-- One file holds a grammar, and the other a text that a strict parse by this grammar reads as a
block. -/
def Reads (files : String → FileText) (file rules : String) (b : Block) : Prop :=
  ∃ g text, loadGrammar rules (files rules) = .ok g ∧ files file = .ok text ∧
    parse g (lex text).tokens = .ok b

/-! ## Both ways of reading -/

section

variable (g : Grammar) (recover : Bool) (n : Nat) (c : Cursor)

/-- A recovering run has errors if a strict one has. -/
theorem errors_eq_nil_iff :
    (if recover then run g n c else strictRun g c).errors = [] ↔ (strictRun g c).errors = [] := by
  by_cases h : recover = true
  · rw [if_pos h, ← List.head?_eq_none_iff, head?_errors_run, List.head?_eq_none_iff]
  · rw [if_neg h]

/-- Without errors both runs read the same block. -/
theorem block_eq_of_errors_eq_nil (h : (strictRun g c).errors = []) :
    (if recover then run g n c else strictRun g c).block = (strictRun g c).block := by
  by_cases hr : recover = true
  · rw [if_pos hr]
    exact Run.block_of_steps_eq (steps_run_eq (Or.inr (by simp [h])))
  · rw [if_neg hr]

end

/-! ## The transcript of a script -/

section

variable (s : Settings) (file : String) {g : Grammar} (recover : Bool) (n : Nat) {text : String}

theorem executeScript_of_eq_ok {b : Block} (h : parse g (lex text).tokens = .ok b) :
    (executeScript s file g recover n text).code = 0 ∧
      (executeScript s file g recover n text).stdout = s.blockOutput b := by
  obtain ⟨hnil, rfl⟩ := Run.result_eq_ok_iff.mp h
  have hclean := (errors_eq_nil_iff g recover n ⟨0, (lex text).tokens⟩).mpr hnil
  have hblock := block_eq_of_errors_eq_nil g recover n _ hnil
  simp [executeScript, hclean, hblock]

theorem executeScript_of_eq_error {e : ParseError} (h : parse g (lex text).tokens = .error e) :
    (executeScript s file g recover n text).code = 1 ∧
      (recover = false → (executeScript s file g recover n text).stdout = "") := by
  have hne : (strictRun g ⟨0, (lex text).tokens⟩).errors ≠ [] := by
    intro hnil
    rw [parse, Run.result_eq_error_iff, hnil] at h
    cases h
  have hfailed := mt (errors_eq_nil_iff g recover n ⟨0, (lex text).tokens⟩).mp hne
  refine ⟨by simp [executeScript, hfailed], ?_⟩
  rintro rfl
  simp [executeScript, hne]

end

/-! ## The transcript of the command -/

section

variable (s : Settings) {files : String → FileText} {file rules : String} (recover : Bool) (n : Nat)

/-- Where a block is read, the exit code is zero and the block is given out. -/
theorem executeParse_of_reads {b : Block} (h : Reads files file rules b) :
    (executeParse s files file rules recover n).code = 0 ∧
      (executeParse s files file rules recover n).stdout = s.blockOutput b := by
  obtain ⟨g, text, hload, htext, hparse⟩ := h
  have hscript := executeScript_of_eq_ok s file recover n hparse
  simpa [executeParse, hload, htext] using hscript

/-- Where none is read, the exit code is one, and nothing is given out without recovery. -/
theorem executeParse_of_not_reads (h : ∀ b, ¬Reads files file rules b) :
    (executeParse s files file rules recover n).code = 1 ∧
      (recover = false → (executeParse s files file rules recover n).stdout = "") := by
  cases hload : loadGrammar rules (files rules) with
  | error e => simp [executeParse, hload]
  | ok g =>
    cases htext : files file with
    | error failure => simp [executeParse, hload, htext]
    | ok text =>
      cases hparse : parse g (lex text).tokens with
      | ok b => exact absurd ⟨g, text, hload, htext, hparse⟩ (h b)
      | error e =>
        have hscript := executeScript_of_eq_error s file recover n hparse
        simpa [executeParse, hload, htext] using hscript

end

/-- The exit code of `parse` says whether a block can be read from the two files, whatever the flags
are. If not, nothing goes to standard output without recovery, and if so, the same does with and
without it. -/
theorem code_of_parse (files : String → FileText) {args : List String} {s : Settings}
    {file rules : String} {recover : Bool} {n : Nat}
    (h : invocation args = .run s (.parse file rules recover n)) :
    ((execute files args).code = 0 ↔ ∃ b, Reads files file rules b) ∧
      ((execute files args).code = 1 ↔ ¬∃ b, Reads files file rules b) ∧
      ((execute files args).code = 1 → recover = false → (execute files args).stdout = "") ∧
      ((execute files args).code = 0 → ∀ args' s' recover' n',
        invocation args' = .run s' (.parse file rules recover' n') → s'.output = s.output →
        (execute files args').stdout = (execute files args).stdout) := by
  have hrun (args s recover n) (h : invocation args = .run s (.parse file rules recover n)) :
      execute files args = executeParse s files file rules recover n := by
    rw [execute, h]
    rfl
  rw [hrun args s recover n h]
  by_cases hreads : ∃ b, Reads files file rules b
  · obtain ⟨b, hb⟩ := hreads
    obtain ⟨hcode, hout⟩ := executeParse_of_reads s recover n hb
    have hsome : ∃ b, Reads files file rules b := ⟨b, hb⟩
    refine ⟨by simp [hcode, hsome], by simp [hcode, hsome], by simp [hcode], ?_⟩
    intro _ args' s' recover' n' h' hs
    rw [hrun args' s' recover' n' h', (executeParse_of_reads s' recover' n' hb).2, hout,
      Settings.blockOutput, Settings.blockOutput, hs]
  · have hnone : ∀ b, ¬Reads files file rules b := not_exists.mp hreads
    obtain ⟨hcode, hout⟩ := executeParse_of_not_reads s recover n hnone
    exact ⟨by simp [hcode, hnone], by simp [hcode, hnone], fun _ => hout, by simp [hcode]⟩

/-- A grammar of one rule, a script of it, and a text that is none. -/
def goFiles : String → FileText
  | "go.json" =>
    .ok "\x7b\"rules\": [\x7b\"name\": \"go\", \"elements\": [\x7b\"keyword\": \"go\"\x7d]\x7d]\x7d"
  | "go.cmd" => .ok "go\ngo"
  | "stay.cmd" => .ok "go stay go"
  | _ => .error .missing

/-- Read the script with recovery and no error allowed, and say nothing. -/
def recoverGo : List String :=
  ["parse", "go.cmd", "--grammar=go.json", "--quiet", "--recover", "--max-errors", "0"]

/-- Read the script without recovery, and say all. -/
def verboseGo : List String :=
  ["-v", "parse", "-g", "go.json", "go.cmd"]

/-- Read the other text for an answer in JSON. -/
def jsonStay : List String :=
  ["--output=json", "parse", "-ggo.json", "stay.cmd"]

theorem loadGrammar_goFiles :
    loadGrammar "go.json" (goFiles "go.json") = .ok ⟨[⟨"go", [.keyword "go"]⟩]⟩ :=
  rfl

theorem exists_reads_goFiles : ∃ b, Reads goFiles "go.cmd" "go.json" b :=
  ⟨_, _, "go\ngo", loadGrammar_goFiles, rfl,
    Run.result_eq_ok_iff.mpr ⟨by decide +kernel, rfl⟩⟩

theorem not_exists_reads_goFiles : ¬∃ b, Reads goFiles "stay.cmd" "go.json" b := by
  rintro ⟨b, g, text, hload, htext, hparse⟩
  rw [loadGrammar_goFiles] at hload
  cases hload
  cases htext
  exact absurd (Run.result_eq_ok_iff.mp hparse).1 (by decide +kernel)

theorem code_of_parse_goFiles :
    invocation recoverGo = .run ⟨.text, true, false⟩ (.parse "go.cmd" "go.json" true 0) ∧
      invocation verboseGo =
        .run ⟨.text, false, true⟩ (.parse "go.cmd" "go.json" false defaultErrorLimit) ∧
      invocation jsonStay =
        .run ⟨.json, false, false⟩ (.parse "stay.cmd" "go.json" false defaultErrorLimit) ∧
      (execute goFiles recoverGo).code = 0 ∧
      (execute goFiles verboseGo).stdout = (execute goFiles recoverGo).stdout ∧
      (execute goFiles jsonStay).code = 1 ∧ (execute goFiles jsonStay).stdout = "" := by
  have hrecover : invocation recoverGo =
      .run ⟨.text, true, false⟩ (.parse "go.cmd" "go.json" true 0) := rfl
  have hverbose : invocation verboseGo =
      .run ⟨.text, false, true⟩ (.parse "go.cmd" "go.json" false defaultErrorLimit) := rfl
  have hjson : invocation jsonStay =
      .run ⟨.json, false, false⟩ (.parse "stay.cmd" "go.json" false defaultErrorLimit) := rfl
  obtain ⟨hzero, -, -, hsame⟩ := code_of_parse goFiles hrecover
  obtain ⟨-, hone, hempty, -⟩ := code_of_parse goFiles hjson
  have hgo := hzero.mpr exists_reads_goFiles
  have hstay := hone.mpr not_exists_reads_goFiles
  exact ⟨hrecover, hverbose, hjson, hgo, hsame hgo _ _ _ _ hverbose rfl, hstay, hempty hstay rfl⟩

end CommandScript
