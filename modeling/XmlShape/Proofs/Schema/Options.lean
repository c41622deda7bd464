import XmlShape.Proofs.Schema.Revision

/-!
# What the options of a scan change

Two surveys of a tree make their records in the same order and fill the same table of frequencies,
whatever their options are. So an option changes in a model what it changes in each record, and a
change that is a revision goes through the whole analysis. The scope of the counts changes nothing
but the counts. Looking for truth values tells them from text; only the scores of patterns, which
compare types, may change besides.
-/

namespace XmlShape
namespace Schema

open ElementType

/-!
# Two surveys of a tree
-/

/-- Surveys that agree in their frequencies, and in their records as far as `f` and `g` tell. -/
structure Survey.Agree {α : Type} (f g : Record → α) (s s' : Survey) : Prop where
  frequency : s.frequency = s'.frequency
  records : s.records.map f = s'.records.map g

/-- Options that give an element the same record in the same place, as far as `f` and `g` tell. -/
def SameRecords {α : Type} (f g : Record → α) (options options' : ScanOptions) : Prop :=
  ∀ frequency parent depth sibling e,
    f (recordAt options frequency parent depth sibling e) =
      g (recordAt options' frequency parent depth sibling e)

section Agree

variable {α : Type} {f g : Record → α} {options options' : ScanOptions}

theorem Survey.Agree.enter {s s' : Survey} (h : Survey.Agree f g s s') (name : String) :
    Survey.Agree f g (s.enter name) (s'.enter name) := by
  constructor
  · rw [Survey.enter, Survey.enter, h.frequency]
  · exact h.records

mutual

theorem agree_survey (hsame : SameRecords f g options options') : (e : Element) →
    ∀ (parent : Option String) (depth sibling : Nat) {s s' : Survey}, Survey.Agree f g s s' →
      Survey.Agree f g (survey options parent depth sibling s e)
        (survey options' parent depth sibling s' e)
  | ⟨name, attributes, children, text⟩, parent, depth, sibling, s, s', h => by
      have hbelow := agree_surveyAll hsame children name (depth + 1) .empty (h.enter name)
      have hfrequency : (surveyBelow options depth s ⟨name, attributes, children, text⟩).frequency =
          (surveyBelow options' depth s' ⟨name, attributes, children, text⟩).frequency :=
        hbelow.frequency
      rw [survey_eq, survey_eq]
      constructor
      · exact hbelow.frequency
      · show f _ :: _ = g _ :: _
        rw [hsame, hfrequency]
        congr 1
        exact hbelow.records

theorem agree_surveyAll (hsame : SameRecords f g options options') : (es : List Element) →
    ∀ (parent : String) (depth : Nat) (counts : NameMap Nat) {s s' : Survey},
      Survey.Agree f g s s' →
      Survey.Agree f g (surveyAll options parent depth counts s es)
        (surveyAll options' parent depth counts s' es)
  | [], _, _, _, _, _, h => h
  | e :: es, parent, depth, counts, _, _, h => by
      rw [surveyAll, surveyAll]
      exact agree_surveyAll hsame es parent depth _ (agree_survey hsame e _ _ _ h)

end

theorem map_records_scan (hsame : SameRecords f g options options') (root : Element) :
    (scan options root).records.map f = (scan options' root).records.map g := by
  have hempty : Survey.Agree f g {} {} := ⟨rfl, rfl⟩
  have hroot := agree_survey hsame root none 0 1 hempty
  rw [scan, scan, List.map_reverse, List.map_reverse, hroot.records]

end Agree

theorem frequency_scan_eq (options options' : ScanOptions) (root : Element) :
    (scan options root).frequency = (scan options' root).frequency := by
  rw [frequency_scan, frequency_scan]

theorem patterns_scan (options : ScanOptions) (root : Element) :
    (scan options root).patterns =
      repeatingPatterns (scan options root).records (scan options root).frequency :=
  rfl

/-!
# Scores

A pattern is found by name, and the context is taken from a record. Only the score of the pattern
compares types.
-/

def Pattern.forgetScore (p : Pattern) : Pattern :=
  { p with similarity := 0 }

def Model.forgetScores (m : Model) : Model :=
  { m with patterns := m.patterns.map (·.forgetScore) }

theorem uniformity_map {f : Record → Record}
    (hagreement : ∀ a b, agreement (f a) (f b) = agreement a b) (group : List Record) :
    uniformity (group.map f) = uniformity group := by
  have hsimilarity : ∀ a, similarityIn Float.ofNat (f a) ∘ f = similarityIn Float.ofNat a := by
    intro a
    funext b
    rw [Function.comp_apply, similarityIn, similarityIn, hagreement]
  cases group with
  | nil =>
      rfl
  | cons first rest =>
      cases rest with
      | nil =>
          rfl
      | cons second rest =>
          unfold uniformity
          rw [List.map_cons, List.map_cons, uniformityIn, uniformityIn, ← List.map_cons,
            List.map_map, hsimilarity, List.length_map]
          · simp
          · simp

namespace Revision

variable (ρ : Revision)

theorem filter_name (records : List Record) (name : String) :
    (records.map ρ.record).filter (·.name = name) =
      (records.filter (·.name = name)).map ρ.record :=
  List.filter_map

theorem patternOf?_forgetScore (records : List Record) (name : String) :
    (patternOf? (records.map ρ.record) name).map (·.forgetScore) =
      (patternOf? records name).map (·.forgetScore) := by
  rw [patternOf?_eq, patternOf?_eq, filter_name, List.head?_map, Option.map_map, Option.map_map,
    Option.map_map]
  rfl

theorem patternOf?_record (hinjective : Function.Injective ρ.type) (records : List Record)
    (name : String) : patternOf? (records.map ρ.record) name = patternOf? records name := by
  have hagreement : ∀ a b, agreement (ρ.record a) (ρ.record b) = agreement a b := by
    intro a b
    have htype : (ρ.type a.type == ρ.type b.type) = (a.type == b.type) := by
      rw [Bool.eq_iff_iff, beq_iff_eq, beq_iff_eq, hinjective.eq_iff]
    unfold agreement record
    rw [htype, List.length_map, List.length_map]
  rw [patternOf?_eq, patternOf?_eq, filter_name, uniformity_map hagreement, List.head?_map,
    Option.map_map]
  rfl

theorem repeatingPatterns_forgetScore (records : List Record) (frequency : NameMap Nat) :
    (repeatingPatterns (records.map ρ.record) frequency).map (·.forgetScore) =
      (repeatingPatterns records frequency).map (·.forgetScore) :=
  map_repeatingPatterns (ρ.patternOf?_forgetScore records) frequency

theorem repeatingPatterns_record (hinjective : Function.Injective ρ.type)
    (records : List Record) (frequency : NameMap Nat) :
    repeatingPatterns (records.map ρ.record) frequency = repeatingPatterns records frequency := by
  simp only [repeatingPatterns_eq, ρ.patternOf?_record hinjective]

end Revision

/-!
# The scope of counts
-/

def uncounted : Revision where
  type := id
  count := fun _ => 0
  type_widen := fun _ _ => rfl
  isComposite_type := fun _ => rfl

theorem uncounted_record (r : Record) : uncounted.record r = { r with occurrences := 0 } := by
  have hchild : uncounted.child = id := rfl
  rw [Revision.record, hchild, List.map_id]
  rfl

theorem uncounted_fields (fields : Fields) : uncounted.fields fields = fields :=
  NameMap.mapValues_id fields

theorem uncounted_scan (truthValues : Bool) (scope scope' : Scope) (root : Element) :
    uncounted.model (scan ⟨truthValues, scope⟩ root) =
      uncounted.model (scan ⟨truthValues, scope'⟩ root) := by
  have hsame : SameRecords uncounted.record uncounted.record ⟨truthValues, scope⟩
      ⟨truthValues, scope'⟩ := by
    intro frequency parent depth sibling e
    rfl
  have hrecords := map_records_scan hsame root
  have hfrequency := frequency_scan_eq ⟨truthValues, scope⟩ ⟨truthValues, scope'⟩ root
  have hpatterns := uncounted.repeatingPatterns_record Function.injective_id
  unfold Revision.model
  rw [patterns_scan, patterns_scan, hfrequency, ← hpatterns, hrecords, hpatterns]
  rfl

/-!
# Truth values
-/

def forgetTruth : Revision where
  type := fun type => if type = .boolean then .string else type
  count := id
  type_widen := by
    intro a b
    cases a <;> cases b <;> rfl
  isComposite_type := by
    intro a
    cases a <;> rfl

theorem classifyChars_false (cs : List Char) :
    classifyChars false cs = forgetTruth.type (classifyChars true cs) := by
  unfold classifyChars
  rw [Bool.false_and, Bool.true_and]
  split
  · rfl
  · split
    · rfl
    · split
      · rfl
      · cases isTruthValue cs <;> rfl

theorem classify_false (e : Element) :
    classify false e = forgetTruth.type (classify true e) := by
  unfold classify
  split
  · rfl
  · exact classifyChars_false (Text.trim Text.isBlank e.text.toList)

theorem recordAt_false (scope : Scope) :
    SameRecords id forgetTruth.record ⟨false, scope⟩ ⟨true, scope⟩ := by
  intro frequency parent depth sibling e
  have hchildren : e.children.map (summary false e.name) =
      (e.children.map (summary true e.name)).map forgetTruth.child := by
    rw [List.map_map]
    apply List.map_congr_left
    intro child _
    unfold summary
    rw [classify_false]
    rfl
  unfold recordAt
  rw [hchildren]
  unfold recordOf
  rw [classify_false]
  rfl

theorem forgetTruth_scan (scope : Scope) (root : Element) :
    (scan ⟨false, scope⟩ root).forgetScores =
      (forgetTruth.model (scan ⟨true, scope⟩ root)).forgetScores := by
  have hrecords := map_records_scan (recordAt_false scope) root
  rw [List.map_id] at hrecords
  have hfrequency := frequency_scan_eq ⟨false, scope⟩ ⟨true, scope⟩ root
  unfold Revision.model Model.forgetScores
  rw [patterns_scan, patterns_scan, hfrequency, hrecords, forgetTruth.repeatingPatterns_forgetScore]
  rfl

end Schema

/-!
# Analyses
-/

open Schema

namespace Analysis

def forgetScores (a : Analysis) : Analysis :=
  { a with schema := a.schema.forgetScores }

def forgetOccurrences (a : Analysis) : Analysis :=
  { a with schema.records := a.schema.records.map fun r => { r with occurrences := 0 } }

end Analysis

theorem uncounted_analysis (a : Analysis) : uncounted.analysis a = a.forgetOccurrences := by
  have hrecord : uncounted.record = fun r => { r with occurrences := 0 } := by
    funext r
    exact uncounted_record r
  have hfields : uncounted.fields = id := by
    funext fields
    exact uncounted_fields fields
  unfold Revision.analysis Revision.model Analysis.forgetOccurrences
  rw [hrecord, hfields]
  congr 1
  exact NameMap.mapValues_id a.fields

theorem analyzeModel_forgetScores (naming : Naming.Convention) (m : Model) :
    analyzeModel naming m.forgetScores = (analyzeModel naming m).forgetScores :=
  rfl

namespace Analyzer

/-- Two analyses of a text end in the same fault, or in what two models of the same tree give. -/
theorem map_analyze {α : Type} {f g : Analysis → α} {a a' : Analyzer}
    (hreading : a.config.reading = a'.config.reading) (hconvention : a.convention = a'.convention)
    (h : ∀ naming root, f (analyzeModel naming (scan a.config.scanning root)) =
      g (analyzeModel naming (scan a'.config.scanning root))) (text : String) :
    (a.analyze text).map f = (a'.analyze text).map g := by
  unfold analyze analyzeStructure scanText
  rw [hreading, hconvention]
  cases Document.read a'.config.reading text with
  | error fault =>
      rfl
  | ok root =>
      cases a'.convention with
      | error failure =>
          rfl
      | ok naming =>
          exact congrArg Except.ok (h naming root)

/-- Under every scope an analysis fails in the same way or comes to the same but for the occurrence
counts of records. -/
theorem analyze_scope (a : Analyzer) (scope : Scope) (text : String) :
    (({ a with config.scope := scope } : Analyzer).analyze text).map (·.forgetOccurrences) =
      (a.analyze text).map (·.forgetOccurrences) := by
  apply map_analyze
  · rfl
  · rfl
  · intro naming root
    rw [← uncounted_analysis, ← uncounted_analysis, ← Revision.analyzeModel_model,
      ← Revision.analyzeModel_model]
    exact congrArg (analyzeModel naming)
      (uncounted_scan a.config.detectBooleans scope a.config.scope root)

/-- An analysis that does not look for truth values fails in the same way as one that does, or
comes to the same with text in their place, but for the scores of patterns. -/
theorem analyze_detectBooleans (a : Analyzer) (text : String) :
    (({ a with config.detectBooleans := false } : Analyzer).analyze text).map
        (·.forgetScores) =
      (({ a with config.detectBooleans := true } : Analyzer).analyze text).map
        fun analysis => (forgetTruth.analysis analysis).forgetScores := by
  apply map_analyze
  · rfl
  · rfl
  · intro naming root
    rw [← analyzeModel_forgetScores, ← Revision.analyzeModel_model, ← analyzeModel_forgetScores]
    exact congrArg (analyzeModel naming) (forgetTruth_scan a.config.scope root)

end Analyzer
end XmlShape
