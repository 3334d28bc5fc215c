import CommandScript.CommandLine.Execute

/-!
# Quiet runs

A request is quieted by `--quiet` (`Invocation.quieted`, `invocation_cons_quiet`). What a command
gives out depends on the form of the output and on nothing else that is set
(`executeCommand_of_output_eq`), so its exit code and its standard output stay as they are. Standard
error gets reports of errors, of which a quiet run makes none, and log records, of which it shows
errors only unless it is verbose; and there are no such records (`IsErrorFree`). So a quiet run
leaves it empty, if it is not verbose (`stderr_executeCommand`). `execute_quieted` says both of the
whole program.
-/

namespace CommandScript

/-! ## No record is an error -/

/-- No record of a log is as urgent as an error. -/
def IsErrorFree (log : List LogRecord) : Prop :=
  ∀ r ∈ log, r.level ≠ .error

theorem IsErrorFree.append {log log' : List LogRecord} (h : IsErrorFree log)
    (h' : IsErrorFree log') : IsErrorFree (log ++ log') := by
  intro r hr
  rcases List.mem_append.mp hr with hr | hr
  · exact h r hr
  · exact h' r hr

theorem IsErrorFree.cons {r : LogRecord} {log : List LogRecord} (hr : r.level ≠ .error)
    (h : IsErrorFree log) : IsErrorFree (r :: log) :=
  List.forall_mem_cons.mpr ⟨hr, h⟩

theorem isErrorFree_nil : IsErrorFree [] :=
  fun _ hr => absurd hr List.not_mem_nil

theorem isErrorFree_map {α : Type} {f : α → LogRecord} (hf : ∀ a, (f a).level ≠ .error)
    (as : List α) : IsErrorFree (as.map f) := by
  intro r hr
  obtain ⟨a, -, rfl⟩ := List.mem_map.mp hr
  exact hf a

theorem Lexed.isErrorFree_log (l : Lexed) : IsErrorFree l.log :=
  isErrorFree_map (fun _ => by simp) _

theorem Step.isErrorFree_log (recovering : Bool) (s : Step) : IsErrorFree (s.log recovering) := by
  refine (isErrorFree_map (fun _ => by simp [Miss.record]) _).append ?_
  cases s with
  | matched ms a => exact .cons (by simp [Action.record]) isErrorFree_nil
  | unmatched ms e =>
    by_cases h : recovering = true
    · simpa [h] using IsErrorFree.cons (by simp) isErrorFree_nil
    · simpa [h] using isErrorFree_nil
  | malformed ms e => exact isErrorFree_nil

theorem Run.isErrorFree_log (recovering : Bool) (r : Run) : IsErrorFree (r.log recovering) := by
  intro record hrecord
  obtain ⟨s, -, hs⟩ := List.mem_flatMap.mp hrecord
  exact s.isErrorFree_log recovering record hs

/-- A run that shows errors only shows nothing of a log without errors. -/
theorem Settings.logLines_eq_empty {s : Settings} (hs : s.threshold = .error)
    {log : List LogRecord} (h : IsErrorFree log) : s.logLines log = "" := by
  have hnone : log.filter (·.isShown s.threshold) = [] := by
    rw [List.filter_eq_nil_iff]
    intro r hr
    have hlevel := h r hr
    rw [hs]
    cases hrank : r.level <;> simp_all [LogRecord.isShown, Level.rank]
  rw [logLines, hnone]
  rfl

/-! ## What a command leaves -/

section

variable {s s' : Settings}

theorem executeScript_of_output_eq (h : s.output = s'.output) (file : String) (g : Grammar)
    (recover : Bool) (n : Nat) (text : String) :
    (executeScript s file g recover n text).code = (executeScript s' file g recover n text).code ∧
      (executeScript s file g recover n text).stdout =
        (executeScript s' file g recover n text).stdout := by
  simp [executeScript, Settings.blockOutput, h]

/-- The exit code and standard output depend on the form of the output alone. -/
theorem executeCommand_of_output_eq (h : s.output = s'.output) (files : String → FileText)
    (c : Command) :
    (executeCommand s files c).code = (executeCommand s' files c).code ∧
      (executeCommand s files c).stdout = (executeCommand s' files c).stdout := by
  cases c with
  | tokens file =>
    cases htext : files file <;> simp [executeCommand, executeTokens, htext, h]
  | parse file rules recover n =>
    cases hload : loadGrammar rules (files rules) with
    | error e => simp [executeCommand, executeParse, hload]
    | ok g =>
      cases htext : files file with
      | error failure => simp [executeCommand, executeParse, hload, htext]
      | ok text =>
        simpa [executeCommand, executeParse, hload, htext] using
          executeScript_of_output_eq h file g recover n text
  | grammar file =>
    cases hload : loadGrammar file (files file) with
    | error e => simp [executeCommand, executeGrammar, hload]
    | ok g => cases hout : s'.output <;> simp [executeCommand, executeGrammar, hload, h, hout]

/-- A quiet run writes nothing to standard error, unless it is verbose. -/
theorem stderr_executeCommand (hq : s.quiet = true) (hv : s.verbose = false)
    (files : String → FileText) (c : Command) : (executeCommand s files c).stderr = "" := by
  have hthreshold : s.threshold = .error := by simp [Settings.threshold, hq, hv]
  have hlog {log : List LogRecord} (h : IsErrorFree log) : s.logLines log = "" :=
    Settings.logLines_eq_empty hthreshold h
  have hreport (message : String) : s.errorReport message = "" := by
    simp [Settings.errorReport, hq]
  cases c with
  | tokens file =>
    cases htext : files file with
    | error failure => simp [executeCommand, executeTokens, htext, hreport]
    | ok text => simp [executeCommand, executeTokens, htext, hlog (lex text).isErrorFree_log]
  | parse file rules recover n =>
    cases hload : loadGrammar rules (files rules) with
    | error e => simp [executeCommand, executeParse, hload, hreport]
    | ok g =>
      have hwarnings : IsErrorFree (g.loadedRecord rules :: g.lint.map Warning.record) :=
        .cons (by simp [Grammar.loadedRecord])
          (isErrorFree_map (fun _ => by simp [Warning.record]) _)
      cases htext : files file with
      | error failure => simp [executeCommand, executeParse, hload, htext, hlog hwarnings, hreport]
      | ok text =>
        have hrecords (r : Run) : s.logLines ((lex text).log ++ r.log recover) = "" :=
          hlog ((lex text).isErrorFree_log.append (r.isErrorFree_log recover))
        simp [executeCommand, executeParse, executeScript, hload, htext, hlog hwarnings, hrecords,
          Settings.parseErrorReport, hq]
  | grammar file =>
    cases hload : loadGrammar file (files file) with
    | error e => simp [executeCommand, executeGrammar, hload, hreport]
    | ok g =>
      have hloaded : IsErrorFree [g.loadedRecord file] :=
        .cons (by simp [Grammar.loadedRecord]) isErrorFree_nil
      cases hout : s.output <;>
        simp [executeCommand, executeGrammar, hload, hout, hlog hloaded, hq]

end

/-! ## Asking for a quiet run -/

/-- The same request, but quiet. -/
def Invocation.quieted : Invocation → Invocation
  | run s c => run { s with quiet := true } c
  | i => i

/-- The same part of the arguments, with `--quiet` before all the others. -/
def Told.quieted (t : Told) : Told :=
  { t with seen := t.seen ++ [.quiet] }

/-- What the same part of the arguments says with `--quiet` before all the others. -/
def Part.quieted : Part → Part
  | told t next => told t.quieted next
  | p => p

section

variable (t : Told)

theorem has_quieted_iff {f : Flag} : t.quieted.has f = true ↔ t.has f = true ∨ f = .quiet := by
  simp [Told.has, Told.quieted]

theorem add?_quieted (f : Flag) (value : String) :
    t.quieted.add? f value = none ∨ t.quieted.add? f value = (t.add? f value).map Told.quieted := by
  by_cases h : t.quieted.has f = true
  · exact Or.inl (if_pos h)
  · have hf : t.has f = false := by
      rw [has_quieted_iff, not_or] at h
      exact Bool.eq_false_iff.mpr h.1
    refine Or.inr ?_
    rw [Told.add?, if_neg h, Told.add?, hf]
    cases f <;> simp [Told.quieted, Option.map_map, Function.comp_def]
    split <;> rfl

theorem addAll?_quieted (given : List (Flag × String)) :
    t.quieted.addAll? given = none ∨
      t.quieted.addAll? given = (t.addAll? given).map Told.quieted := by
  induction given generalizing t with
  | nil => exact Or.inr rfl
  | cons g given ih =>
    rcases add?_quieted t g.1 g.2 with h | h
    · exact Or.inl (by simp [Told.addAll?, h])
    · cases hg : t.add? g.1 g.2 with
      | none => exact Or.inr (by simp [Told.addAll?, h, hg])
      | some t' => simpa [Told.addAll?, h, hg] using ih t'

/-- With `--quiet` before them, the arguments before a command say the same and `--quiet`, or they
are not understood because it stands there twice. -/
theorem readPart_quieted (args : List String) :
    readPart .top t.quieted args = .misuse ∨
      readPart .top t.quieted args = (readPart .top t args).quieted := by
  fun_induction readPart .top t args with
  | case1 t => exact Or.inr rfl
  | case2 t a as text hword => exact Or.inr (by simp [readPart, hword, Part.quieted])
  | case3 t a as text hword hscope | case4 t a as text hword hscope => exact absurd rfl hscope
  | case5 t a as hword =>
    cases as <;> exact Or.inr (by simp [readPart, hword, readFiles, Part.quieted])
  | case6 t a as hword => exact Or.inl (by simp [readPart, hword])
  | case7 t a as given f hword t' hadd =>
    rcases addAll?_quieted t given with h | h
    · exact Or.inl (by simp [readPart, hword, h])
    · exact Or.inr (by simp [readPart, hword, h, hadd, Part.quieted])
  | case8 t a as given f hword hadd =>
    rcases addAll?_quieted t given with h | h <;>
      exact Or.inl (by simp [readPart, hword, h, hadd])
  | case9 t a as given hword t' hadd ih =>
    rcases addAll?_quieted t given with h | h
    · exact Or.inl (by simp [readPart, hword, h])
    · simpa [readPart, hword, h, hadd] using ih
  | case10 t a as given hword hadd =>
    rcases addAll?_quieted t given with h | h <;>
      exact Or.inl (by simp [readPart, hword, h, hadd])
  | case11 t a given f hword t' value as hadd hvalue t'' hadd' ih =>
    rcases addAll?_quieted t given with h | h
    · exact Or.inl (by simp [readPart, hword, h])
    · rcases add?_quieted t' f value with h' | h'
      · exact Or.inl (by simp [readPart, hword, h, hadd, hvalue, h'])
      · simpa [readPart, hword, h, hadd, hvalue, h', hadd'] using ih
  | case12 t a given f hword t' value as hadd hvalue hadd' =>
    rcases addAll?_quieted t given with h | h
    · exact Or.inl (by simp [readPart, hword, h])
    · rcases add?_quieted t' f value with h' | h' <;>
        exact Or.inl (by simp [readPart, hword, h, hadd, hvalue, h', hadd'])
  | case13 t a given f hword t' value as hadd hvalue =>
    rcases addAll?_quieted t given with h | h <;>
      exact Or.inl (by simp [readPart, hword, h, hadd, hvalue])
  | case14 t a as given f hword hnone =>
    rcases addAll?_quieted t given with h | h
    · exact Or.inl (by simp [readPart, hword, h])
    · cases hadd : t.addAll? given with
      | none => exact Or.inl (by simp [readPart, hword, h, hadd])
      | some t' =>
        cases as with
        | nil => exact Or.inl (by simp [readPart, hword, h, hadd])
        | cons value as => exact (hnone t' value as hadd rfl).elim

end

theorem quieted_ofRequest (f : Flag) : (Invocation.ofRequest f).quieted = .ofRequest f := by
  unfold Invocation.ofRequest
  split <;> rfl

theorem quieted_ofHelp (names : List String) :
    (Invocation.ofHelp names).quieted = .ofHelp names := by
  unfold Invocation.ofHelp
  split
  · rfl
  · split <;> rfl
  · rfl

theorem ofParts_quieted (before after : Told) : Settings.ofParts before.quieted after =
    { Settings.ofParts before after with quiet := true } := by
  have hquiet : before.quieted.has .quiet = true := (has_quieted_iff before).mpr (Or.inr rfl)
  have hverbose : before.quieted.has .verbose = before.has .verbose := by
    simp [Told.has, Told.quieted]
  have houtput : before.quieted.output = before.output := rfl
  simp [Settings.ofParts, hquiet, hverbose, houtput]

/-- A request that is understood with `--quiet` before all its arguments is quieted by it. -/
theorem invocation_cons_quiet {args : List String} (h : invocation ("--quiet" :: args) ≠ .misuse) :
    invocation ("--quiet" :: args) = (invocation args).quieted := by
  have hfirst : readPart .top .nothing ("--quiet" :: args) =
      readPart .top Told.nothing.quieted args := rfl
  rw [invocation, Invocation.ofArguments, hfirst] at h ⊢
  rcases readPart_quieted .nothing args with hread | hread
  · rw [hread] at h
    exact absurd rfl h
  rw [hread, invocation, Invocation.ofArguments]
  match readPart .top .nothing args with
  | .misuse => rfl
  | .request f => exact (quieted_ofRequest f).symm
  | .told before none => rfl
  | .told before (some (name, rest)) =>
    dsimp only [Part.quieted]
    cases commandScope? name with
    | none =>
      dsimp only
      split
      · exact (quieted_ofHelp rest).symm
      · rfl
    | some scope =>
      dsimp only
      match readPart scope .nothing rest with
      | .misuse => rfl
      | .request f => exact (quieted_ofRequest f).symm
      | .told after (some _) => rfl
      | .told after none =>
        cases hc : after.command? name defaultErrorLimit with
        | none => simp [hc, Invocation.quieted]
        | some c => simp [hc, Invocation.quieted, ofParts_quieted]

/-! ## The program -/

/-- A quieted request has the exit code and the standard output that it has without. A request
that is understood leaves standard error empty if it is quiet and not verbose. With `--quiet` before
its arguments a request is quieted, if it is still understood. -/
theorem execute_quieted (files : String → FileText) :
    (∀ args args', invocation args' = (invocation args).quieted →
      (execute files args').code = (execute files args).code ∧
        (execute files args').stdout = (execute files args).stdout) ∧
    (∀ args, invocation args ≠ .misuse →
      (∀ s c, invocation args = .run s c → s.quiet = true ∧ s.verbose = false) →
      (execute files args).stderr = "") ∧
    ∀ args, invocation ("--quiet" :: args) ≠ .misuse →
      invocation ("--quiet" :: args) = (invocation args).quieted := by
  refine ⟨fun args args' h => ?_, fun args hunderstood hquiet => ?_,
    fun args h => invocation_cons_quiet h⟩
  · rw [execute, h, execute]
    cases invocation args with
    | run s c =>
      have houtput : { s with quiet := true }.output = s.output := rfl
      exact executeCommand_of_output_eq houtput files c
    | _ => exact ⟨rfl, rfl⟩
  · rw [execute]
    cases h : invocation args with
    | run s c =>
      obtain ⟨hq, hv⟩ := hquiet s c h
      exact stderr_executeCommand hq hv files c
    | misuse => exact absurd h hunderstood
    | version => rfl
    | help => rfl

/-- A grammar of a rule without elements, and a text with an odd character and an open quote. -/
def faultyFiles : String → FileText
  | "none.json" => .ok "\x7b\"rules\": [[\"none\", null, []]]\x7d"
  | "odd.cmd" => .ok "@ 'open"
  | _ => .error .notText

/-- Read the text by the grammar. -/
def parseOdd : List String :=
  ["parse", "odd.cmd", "-g", "none.json"]

/-- The same, but quiet. -/
def quietParseOdd : List String :=
  ["parse", "odd.cmd", "--quiet", "-g", "none.json"]

theorem execute_quieted_faultyFiles :
    (execute faultyFiles parseOdd).stderr ≠ "" ∧
      invocation quietParseOdd = (invocation parseOdd).quieted ∧
      (execute faultyFiles quietParseOdd).code = (execute faultyFiles parseOdd).code ∧
      (execute faultyFiles quietParseOdd).stdout = (execute faultyFiles parseOdd).stdout ∧
      (execute faultyFiles quietParseOdd).stderr = "" ∧
      invocation ("--quiet" :: parseOdd) = (invocation parseOdd).quieted := by
  have hloud : (execute faultyFiles parseOdd).stderr ≠ "" := by decide +kernel
  have hquieted : invocation quietParseOdd = (invocation parseOdd).quieted := rfl
  have hunderstood : invocation quietParseOdd ≠ .misuse := by decide +kernel
  have hasks : ∀ s c, invocation quietParseOdd = .run s c → s.quiet = true ∧ s.verbose = false := by
    intro s c h
    cases h
    exact ⟨rfl, rfl⟩
  obtain ⟨hsame, hsilent, hcons⟩ := execute_quieted faultyFiles
  obtain ⟨hcode, hout⟩ := hsame parseOdd quietParseOdd hquieted
  exact ⟨hloud, hquieted, hcode, hout, hsilent _ hunderstood hasks,
    hcons parseOdd (by decide +kernel)⟩

end CommandScript
