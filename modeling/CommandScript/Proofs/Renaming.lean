import Mathlib.Data.Set.Function
import CommandScript.Lexer
import CommandScript.Proofs.Bindings
import CommandScript.Proofs.Simulation

/-!
# Names are labels

No parse looks at the name of a rule. It looks at the names of arguments only to tell those of one
rule apart, since a name that comes again takes the later value. So the names of a grammar may be
changed, those of rules by any function, those of arguments by one that keeps the names of each rule
apart. An attempt then misses the same rules and ends in the same way (`attempt_rename`), and the
rule that got furthest is the same one (`closest_rename`), also where two rules have the same name
now. Parses give what they gave before, under the new names (`parse_rename`).
-/

namespace CommandScript

/-! ## New names -/

section

variable (f h : String → String)

/-- An element with the name of its argument changed. -/
def Element.rename : Element → Element
  | keyword t => .keyword t
  | argument n => .argument (h n)

/-- A rule with its name changed by `f` and the names of its arguments by `h`. -/
def Rule.rename (r : Rule) : Rule :=
  ⟨f r.name, r.elements.map (Element.rename h)⟩

/-- A grammar with all its names changed. -/
def Grammar.rename (g : Grammar) : Grammar :=
  ⟨g.rules.map (Rule.rename f h)⟩

/-- Arguments with their names changed. -/
def Arguments.rename (a : Arguments) : Arguments :=
  ⟨a.entries.map fun e => (h e.1, e.2)⟩

/-- An action with its name and those of its arguments changed. -/
def Action.rename (a : Action) : Action :=
  { a with name := f a.name, arguments := a.arguments.rename h }

/-- An error with the name of the closest rule changed. -/
def ParseError.rename : ParseError → ParseError
  | noRule found position line closest => .noRule found position line (closest.map f)
  | expected wanted found position line => .expected wanted found position line
  | invalidNumber text position line => .invalidNumber text position line

/-- A miss with its names changed. -/
def Miss.rename (m : Miss) : Miss :=
  { m with rule := f m.rule, element := m.element.rename h }

/-- The end of a match with its names changed. -/
def Match.rename : Match → Match
  | matched a c => .matched (a.rename h) c
  | missed depth element found => .missed depth (element.rename h) found
  | malformed c => .malformed c
  | never => .never

/-- The end of an attempt with its names changed. -/
def Outcome.rename : Outcome → Outcome
  | matched a c => .matched (a.rename f h) c
  | malformed c => .malformed c
  | unmatched => .unmatched

end

/-! ## Binding a name -/

section

variable {f h : String → String} {S : Set String}

theorem Arguments.bindEntry_rename (hS : Set.InjOn h S) {name : String} (hname : name ∈ S)
    (value : Value) {entries : List (String × Value)} (hentries : ∀ e ∈ entries, e.1 ∈ S) :
    (bindEntry (h name) value (entries.map fun e => (h e.1, e.2))).2 =
      (bindEntry name value entries).2.map fun e => (h e.1, e.2) := by
  induction entries with
  | nil => rfl
  | cons e es ih =>
    obtain ⟨n, v⟩ := e
    obtain ⟨hn, hes⟩ := List.forall_mem_cons.mp hentries
    rw [List.map_cons, bindEntry, bindEntry]
    by_cases hname' : n = name
    · simp [hname']
    · have hne : h n ≠ h name := fun heq => hname' (hS hn hname heq)
      rw [if_neg hname', if_neg hne]
      exact congrArg ((h n, v) :: ·) (ih hes)

/-- Names that are told apart are bound alike under their new names. -/
theorem Arguments.insert_rename (hS : Set.InjOn h S) {name : String} (hname : name ∈ S)
    (value : Value) {a : Arguments} (ha : ∀ n ∈ a.names, n ∈ S) :
    (a.rename h).insert (h name) value = (a.insert name value).rename h :=
  congrArg Arguments.mk (bindEntry_rename hS hname value fun _ he => ha _ (List.mem_map_of_mem he))

theorem Arguments.mem_of_mem_names_insert {name : String} (hname : name ∈ S) {value : Value}
    {a : Arguments} (ha : ∀ n ∈ a.names, n ∈ S) : ∀ n ∈ (a.insert name value).names, n ∈ S := by
  intro n hn
  rw [names_insert] at hn
  split at hn
  · exact ha n hn
  · rcases List.mem_append.mp hn with hn | hn
    · exact ha n hn
    · rw [List.mem_singleton.mp hn]
      exact hname

/-! ## Attempts -/

/-- The names that are bound so far and those to come are told apart. -/
theorem matchElements_rename (hS : Set.InjOn h S) {es : List Element}
    (hes : ∀ n ∈ es.filterMap Element.argument?, n ∈ S) (depth : Nat) {a : Arguments}
    (ha : ∀ n ∈ a.names, n ∈ S) (c : Cursor) :
    matchElements (es.map (Element.rename h)) depth (a.rename h) c =
      (matchElements es depth a c).rename h := by
  induction es generalizing depth a c with
  | nil => rfl
  | cons e es ih =>
    cases e with
    | keyword text =>
      rw [List.map_cons, Element.rename, matchElements, matchElements]
      split
      · exact ih hes _ ha _
      · rfl
    | argument name =>
      obtain ⟨hname, hes⟩ : name ∈ S ∧ ∀ n ∈ es.filterMap Element.argument?, n ∈ S :=
        List.forall_mem_cons.mp hes
      rw [List.map_cons, Element.rename, matchElements, matchElements]
      split
      · rw [Arguments.insert_rename hS hname _ ha]
        exact ih hes _ (Arguments.mem_of_mem_names_insert hname ha) _
      · rfl
      · rfl

theorem Rule.matchAt_rename {r : Rule} (hr : Set.InjOn h {n | n ∈ r.arguments}) (c : Cursor) :
    (r.rename f h).matchAt c = (r.matchAt c).rename h := by
  rw [matchAt, matchAt, rename, List.isEmpty_map]
  split
  · rfl
  · have hempty : ∀ n ∈ Arguments.empty.names, n ∈ {n | n ∈ r.arguments} := by
      simp [Arguments.names, Arguments.empty]
    exact matchElements_rename hr (fun n hn => hn) 0 hempty c

/-- Under new names an attempt misses the same rules and ends in the same way. -/
theorem attempt_rename {rules : List Rule}
    (hrules : ∀ r ∈ rules, Set.InjOn h {n | n ∈ r.arguments}) (c : Cursor) :
    attempt c (rules.map (Rule.rename f h)) =
      ⟨(attempt c rules).misses.map (Miss.rename f h), (attempt c rules).outcome.rename f h⟩ := by
  induction rules with
  | nil => rfl
  | cons r rs ih =>
    obtain ⟨hr, hrs⟩ := List.forall_mem_cons.mp hrules
    rw [List.map_cons, attempt, attempt, Rule.matchAt_rename hr]
    cases r.matchAt c with
    | matched a d => rfl
    | malformed d => rfl
    | missed depth element found => simp [Match.rename, ih hrs, Miss.rename, Rule.rename]
    | never => exact ih hrs

/-! ## The rule that got furthest -/

theorem Miss.further_rename (best : Option Miss) (m : Miss) :
    further (best.map (Miss.rename f h)) (m.rename f h) =
      (further best m).map (Miss.rename f h) := by
  cases best with
  | none => by_cases hm : m.depth = 0 <;> simp [further, rename, hm]
  | some b => by_cases hb : b.depth < m.depth <;> simp [further, rename, hb]

/-- The rule that got furthest is found by its depth and its place, not by its name. -/
theorem Miss.closest_rename (misses : List Miss) :
    closest (misses.map (Miss.rename f h)) = (closest misses).map f := by
  have hfold (best : Option Miss) :
      (misses.map (Miss.rename f h)).foldl further (best.map (Miss.rename f h)) =
        (misses.foldl further best).map (Miss.rename f h) := by
    induction misses generalizing best with
    | nil => rfl
    | cons m ms ih => rw [List.map_cons, List.foldl_cons, List.foldl_cons, further_rename, ih]
  have hnone := hfold none
  rw [Option.map_none] at hnone
  rw [closest, closest, hnone, Option.map_map, Option.map_map]
  rfl

/-! ## Parses -/

/-- Runs with a grammar and with the same grammar under new names go alike. -/
theorem simulation_rename {g : Grammar}
    (hg : ∀ r ∈ g.rules, Set.InjOn h {n | n ∈ r.arguments}) :
    Simulation g (g.rename f h) Eq (Action.rename f h) (ParseError.rename f) where
  atEnd hc := hc ▸ rfl
  advance hc := hc ▸ rfl
  matched := by
    rintro c _ a d rfl - ho
    exact ⟨d, by rw [Grammar.rename, attempt_rename hg, ho]; rfl, rfl⟩
  malformed := by
    rintro c _ d rfl - ho
    exact ⟨d, by rw [Grammar.rename, attempt_rename hg, ho]; rfl, rfl⟩
  unmatched := by
    rintro c _ rfl - ho
    rw [Grammar.rename, attempt_rename hg, ho]
    refine ⟨rfl, ?_⟩
    rw [noRuleAt, Miss.closest_rename]
    rfl

end

/-- Under new names, parses give the same actions and errors under these names. Rules may be called
anything, also alike. The names of the arguments of a rule must stay apart, which they do under
every injective function. -/
theorem parse_rename (f h : String → String) (g : Grammar)
    (hg : ∀ r ∈ g.rules, Set.InjOn h {n | n ∈ r.arguments}) (ts : List Placed) :
    parse (g.rename f h) ts = mapResult (Action.rename f h) (ParseError.rename f) (parse g ts) ∧
      ∀ n, parseRecovering (g.rename f h) n ts =
        ((parseRecovering g n ts).1.map (Action.rename f h),
          (parseRecovering g n ts).2.map (ParseError.rename f)) :=
  ⟨(simulation_rename hg).parse_eq rfl, (simulation_rename hg).parseRecovering_eq rfl⟩

/-- Two rules that store a value, the first of which takes a second value in place of the first. -/
def storeRules : Grammar :=
  ⟨[⟨"replace", [.keyword "replace", .argument "name", .argument "value", .argument "value"]⟩,
    ⟨"store", [.keyword "store", .argument "value"]⟩]⟩

/-- A match of each rule, and the start of one that is not finished. -/
def storeScript : List Placed :=
  (lex "replace x 1 2 store 3 replace x").tokens

/-- The first character of a name. -/
def initial (name : String) : String :=
  (name.take 1).toString

/-- Both rules may be called `rule`, and the names of arguments may be cut to their initials. -/
theorem parse_rename_storeRules :
    (∀ r ∈ storeRules.rules, Set.InjOn initial {n | n ∈ r.arguments}) ∧
      parse (storeRules.rename (fun _ => "rule") initial) storeScript =
        mapResult (Action.rename (fun _ => "rule") initial) (ParseError.rename fun _ => "rule")
          (parse storeRules storeScript) ∧
      ∀ n, parseRecovering (storeRules.rename (fun _ => "rule") initial) n storeScript =
        ((parseRecovering storeRules n storeScript).1.map (Action.rename (fun _ => "rule") initial),
          (parseRecovering storeRules n storeScript).2.map
            (ParseError.rename fun _ => "rule")) := by
  have happart : ∀ r ∈ storeRules.rules, ∀ m ∈ r.arguments, ∀ n ∈ r.arguments,
      initial m = initial n → m = n := by
    decide
  have hinj : ∀ r ∈ storeRules.rules, Set.InjOn initial {n | n ∈ r.arguments} :=
    fun r hr m hm n hn => happart r hr m hm n hn
  exact ⟨hinj, parse_rename _ _ storeRules hinj storeScript⟩

end CommandScript
