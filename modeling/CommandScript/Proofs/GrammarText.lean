import Mathlib.Data.List.Permutation
import CommandScript.GrammarFile.Load
import CommandScript.JsonForm
import CommandScript.Proofs.JsonText

/-!
# Grammars read back

The texts of a JSON form (`Json.texts`) are those on one line and on several lines, with the
members of objects in the order of the form or in the order of their keys. A grammar is loaded
from each text of its form, and a rule is read from each text of its own (`load_texts_toJson`),
whatever its names and keywords are, so also a rule that no pattern can write.

A form has no numbers, so its texts are read as the form or as its sorted form
(`parse?_of_mem_texts`). Sorting can only make the two members of a rule's form change places
(`Rule.sorted_toJson`), and members are found by the texts of their keys. The loader does not read
rules but rule documents, in which the pattern is missing (`Rule.document`).
-/

namespace CommandScript

namespace Json

/-- The texts that a value is written as. -/
def texts (v : Json) : List String :=
  [v.compact, v.pretty, v.sorted.compact, v.sorted.pretty]

/-! ## Forms without numbers -/

theorem isTextual_ofText (text : String) : IsTextual (ofText text) :=
  .string text.toList

theorem isTextual_array_map {α : Type} {write : α → Json} (h : ∀ x, IsTextual (write x))
    (xs : List α) : IsTextual (array (xs.map write)) := by
  refine .array fun v hv => ?_
  obtain ⟨x, -, rfl⟩ := List.mem_map.mp hv
  exact h x

theorem isTextual_ofFields {fields : List (String × Json)}
    (h : ∀ f ∈ fields, IsTextual f.2) : IsTextual (ofFields fields) := by
  refine .object (fun m hm => ?_) (fun m hm => ?_)
  · obtain ⟨f, -, rfl⟩ := List.mem_map.mp hm
    exact ⟨f.1.toList, rfl⟩
  · obtain ⟨f, hf, rfl⟩ := List.mem_map.mp hm
    exact h f hf

theorem sortedItems_eq_map (items : List Json) : sortedItems items = items.map sorted := by
  induction items with
  | nil => rfl
  | cons v vs ih => rw [sortedItems, ih, List.map_cons]

theorem sortedMembers_eq_map (members : List (List Char × Json)) :
    sortedMembers members = members.map fun m => (m.1, m.2.sorted) := by
  induction members with
  | nil => rfl
  | cons m members ih => rw [sortedMembers, ih, List.map_cons]

theorem sorted_array (items : List Json) : (array items).sorted = array (items.map sorted) := by
  rw [← sortedItems_eq_map]
  rfl

/-- The members of a sorted object are the sorted members, in some order. -/
theorem exists_sorted_object (members : List (List Char × Json)) :
    ∃ members', (object members).sorted = object members' ∧
      members'.Perm (members.map fun m => (m.1, m.2.sorted)) := by
  rw [← sortedMembers_eq_map]
  exact ⟨_, rfl, List.mergeSort_perm _ _⟩

/-- The order of members does not matter for being written. -/
theorem IsTextual.sorted {v : Json} (h : IsTextual v) : IsTextual v.sorted := by
  induction h with
  | null => exact .null
  | bool value => exact .bool value
  | string text => exact .string text
  | array h ih =>
    rw [sorted_array]
    refine .array fun v hv => ?_
    obtain ⟨w, hw, rfl⟩ := List.mem_map.mp hv
    exact ih w hw
  | @object members keys values ih =>
    obtain ⟨members', hsorted, hperm⟩ := exists_sorted_object members
    rw [hsorted]
    refine .object (fun m hm => ?_) (fun m hm => ?_)
    · obtain ⟨m', hm', rfl⟩ := List.mem_map.mp (hperm.mem_iff.mp hm)
      exact keys m' hm'
    · obtain ⟨m', hm', rfl⟩ := List.mem_map.mp (hperm.mem_iff.mp hm)
      exact ih m' hm'

/-- Each text of a value is read as the value or as its sorted form. -/
theorem parse?_of_mem_texts {v : Json} (hv : IsTextual v) {text : String} (h : text ∈ v.texts) :
    parse? text = some v ∨ parse? text = some v.sorted := by
  simp only [texts, List.mem_cons, List.not_mem_nil, or_false] at h
  rcases h with rfl | rfl | rfl | rfl
  · exact Or.inl (parse?_compact hv)
  · exact Or.inl (parse?_pretty hv)
  · exact Or.inr (parse?_compact hv.sorted)
  · exact Or.inr (parse?_pretty hv.sorted)

/-- A single member has no other place. -/
theorem sorted_ofFields_singleton (key : String) (v : Json) :
    (ofFields [(key, v)]).sorted = ofFields [(key, v.sorted)] := by
  obtain ⟨members', hsorted, hperm⟩ := exists_sorted_object [(escape key.toList, v)]
  rw [List.map_singleton, List.perm_singleton] at hperm
  rw [hperm] at hsorted
  exact hsorted

/-- Two members keep their places or change them. -/
theorem sorted_ofFields_pair (key key' : String) (v v' : Json) :
    (ofFields [(key, v), (key', v')]).sorted = ofFields [(key, v.sorted), (key', v'.sorted)] ∨
      (ofFields [(key, v), (key', v')]).sorted =
        ofFields [(key', v'.sorted), (key, v.sorted)] := by
  obtain ⟨members', hsorted, hperm⟩ :=
    exists_sorted_object [(escape key.toList, v), (escape key'.toList, v')]
  rw [List.map_cons, List.map_singleton, List.perm_pair] at hperm
  rcases hperm with rfl | rfl
  · exact Or.inl hsorted
  · exact Or.inr hsorted

/-! ## Reading forms -/

/-- If each part is read from what it is written as, so is a list of them. -/
theorem mapM_map_eq_some {α β γ : Type} {read? : β → Option γ} {write : α → β} (value : α → γ)
    (h : ∀ x, read? (write x) = some (value x)) (xs : List α) :
    (xs.map write).mapM read? = some (xs.map value) := by
  have hread : read? ∘ write = fun x => pure (value x) := funext h
  rw [List.mapM_map, hread, List.mapM_pure]
  rfl

/-- Keys are read as the texts that they were written from. -/
theorem fieldsOf?_escape (fields : List (String × Json)) :
    fieldsOf? (fields.map fun f => (escape f.1.toList, f.2)) = some fields := by
  rw [fieldsOf?, mapM_map_eq_some (fun f => f) (by simp), List.map_id']

end Json

open Json

/-! ## Rules -/

theorem Element.ofJson?_toJson (e : Element) : Element.ofJson? e.toJson = some e := by
  cases e with
  | keyword text => simp [toJson, ofFields, ofJson?]
  | argument name => simp [toJson, ofFields, ofJson?]

theorem Element.sorted_toJson (e : Element) : e.toJson.sorted = e.toJson := by
  cases e with
  | keyword text => exact sorted_ofFields_singleton "keyword" (ofText text)
  | argument name => exact sorted_ofFields_singleton "argument" (ofText name)

theorem Element.isTextual_toJson (e : Element) : IsTextual e.toJson := by
  cases e with
  | keyword text => exact isTextual_ofFields (by simp [isTextual_ofText])
  | argument name => exact isTextual_ofFields (by simp [isTextual_ofText])

theorem list?_map_toJson (es : List Element) :
    list? Element.ofJson? (.array (es.map Element.toJson)) = some es := by
  rw [list?, mapM_map_eq_some (fun e => e) Element.ofJson?_toJson, List.map_id']

namespace Rule

/-- Sorted, a form is the same or has its elements first. -/
theorem sorted_toJson (r : Rule) :
    r.toJson.sorted = r.toJson ∨
      r.toJson.sorted =
        ofFields
          [("elements", .array (r.elements.map Element.toJson)), ("name", ofText r.name)] := by
  have helements : (Json.array (r.elements.map Element.toJson)).sorted =
      .array (r.elements.map Element.toJson) := by
    have hsorted : Json.sorted ∘ Element.toJson = Element.toJson :=
      funext Element.sorted_toJson
    rw [sorted_array, List.map_map, hsorted]
  have hpair := sorted_ofFields_pair "name" "elements" (ofText r.name)
    (.array (r.elements.map Element.toJson))
  rwa [helements] at hpair

theorem isTextual_toJson (r : Rule) : IsTextual r.toJson := by
  have helements := isTextual_array_map Element.isTextual_toJson r.elements
  exact isTextual_ofFields (by simp [isTextual_ofText, helements])

theorem ofJson?_toJson (r : Rule) : ofJson? r.toJson = some r := by
  rw [toJson, ofFields, ofJson?, fieldsOf?_escape]
  simp [member?, list?_map_toJson]

theorem ofJson?_sorted_toJson (r : Rule) : ofJson? r.toJson.sorted = some r := by
  rcases r.sorted_toJson with hsorted | hsorted
  · rw [hsorted, ofJson?_toJson]
  · rw [hsorted, ofFields, ofJson?, fieldsOf?_escape]
    simp [member?, list?_map_toJson]

/-- A rule as the document of its name and its elements. -/
def document (r : Rule) : RuleDocument :=
  ⟨r.name, none, some r.elements⟩

end Rule

/-! ## Documents -/

namespace RuleDocument

theorem ofMembers?_toJson (r : Rule) :
    ofMembers? (ofText r.name) none (some (.array (r.elements.map Element.toJson))) =
      some r.document := by
  simp [ofMembers?, optional?, list?_map_toJson, Rule.document]

theorem ofJson?_toJson (surplus : Bool) (r : Rule) :
    ofJson? surplus r.toJson = some r.document := by
  rw [Rule.toJson, ofFields, ofJson?, closedFieldsOf?, fieldsOf?_escape]
  simp [member?, ofMembers?_toJson]

theorem ofJson?_sorted_toJson (surplus : Bool) (r : Rule) :
    ofJson? surplus r.toJson.sorted = some r.document := by
  rcases r.sorted_toJson with hsorted | hsorted
  · rw [hsorted, ofJson?_toJson]
  · rw [hsorted, ofFields, ofJson?, closedFieldsOf?, fieldsOf?_escape]
    simp [member?, ofMembers?_toJson]

end RuleDocument

namespace Grammar

/-- The form of a grammar. -/
def toJson (g : Grammar) : Json :=
  .ofFields [("rules", .array (g.rules.map Rule.toJson))]

theorem isTextual_toJson (g : Grammar) : IsTextual g.toJson := by
  have hrules := isTextual_array_map Rule.isTextual_toJson g.rules
  exact isTextual_ofFields (by simp [hrules])

/-- The rule documents are the items of the one member. -/
theorem documentsOfJson?_ofFields {forms : List Json} {ds : List RuleDocument}
    (h : list? (RuleDocument.ofJson? false) (.array forms) = some ds) :
    documentsOfJson? false (.ofFields [("rules", .array forms)]) = some ds := by
  rw [ofFields, documentsOfJson?, closedFieldsOf?, fieldsOf?_escape]
  simp [member?, h]

theorem documentsOfJson?_toJson (g : Grammar) :
    documentsOfJson? false g.toJson = some (g.rules.map Rule.document) :=
  documentsOfJson?_ofFields
    (mapM_map_eq_some Rule.document (RuleDocument.ofJson?_toJson false) g.rules)

theorem documentsOfJson?_sorted_toJson (g : Grammar) :
    documentsOfJson? false g.toJson.sorted = some (g.rules.map Rule.document) := by
  rw [toJson, sorted_ofFields_singleton, sorted_array, List.map_map]
  exact documentsOfJson?_ofFields
    (mapM_map_eq_some Rule.document (RuleDocument.ofJson?_sorted_toJson false) g.rules)

theorem rulesOfDocuments_document (rules : List Rule) :
    rulesOfDocuments (rules.map Rule.document) = .ok rules := by
  induction rules with
  | nil => rfl
  | cons r rules ih => simp [rulesOfDocuments, Rule.document, RuleDocument.rule, ih]

/-- A grammar is made again of the documents of its rules. -/
theorem ofDocuments_document (g : Grammar) : ofDocuments (g.rules.map Rule.document) = .ok g := by
  rw [ofDocuments, rulesOfDocuments_document]
  rfl

end Grammar

/-- A grammar is loaded from each text of its form, and a rule is read from each text of its
own. -/
theorem load_texts_toJson (g : Grammar) (r : Rule) :
    (∀ text ∈ g.toJson.texts, GrammarFormat.json.load text = .ok g) ∧
      ∀ text ∈ r.toJson.texts, (Json.parse? text).bind Rule.ofJson? = some r := by
  refine ⟨fun text htext => ?_, fun text htext => ?_⟩
  · have hdocuments : (Json.parse? text).bind (documentsOfJson? false) =
        some (g.rules.map Rule.document) := by
      rcases parse?_of_mem_texts g.isTextual_toJson htext with hparse | hparse
      · rw [hparse, Option.bind_some, g.documentsOfJson?_toJson]
      · rw [hparse, Option.bind_some, g.documentsOfJson?_sorted_toJson]
    have hread : GrammarFormat.json.read text = .ok (g.rules.map Rule.document) := by
      simp only [GrammarFormat.read, hdocuments]
    simp only [GrammarFormat.load, hread]
    exact g.ofDocuments_document
  · rcases parse?_of_mem_texts r.isTextual_toJson htext with hparse | hparse
    · rw [hparse, Option.bind_some, r.ofJson?_toJson]
    · rw [hparse, Option.bind_some, r.ofJson?_sorted_toJson]

/-- No pattern writes a rule whose keyword has a space or a line end in it. -/
example :
    (Json.parse? (Rule.toJson ⟨"say \"", [.keyword "\\ \n", .argument "é"]⟩).pretty).bind
      Rule.ofJson? = some ⟨"say \"", [.keyword "\\ \n", .argument "é"]⟩ := by
  decide +kernel

end CommandScript
