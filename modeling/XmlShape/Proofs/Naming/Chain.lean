import Mathlib.Data.List.Forall2
import XmlShape.Naming.Convention
import XmlShape.Proofs.FirstOccurrence

/-!
# Chains of conventions

A convention is asked for one singular or for all of them. The two answers agree, and those of a
chain are the answers of the conventions at its ends, from left to right. In particular chains in
chains make no difference.
-/

namespace XmlShape
namespace Naming

/-!
# Conventions without a vocabulary of their own
-/

namespace Convention

/-- The conventions that are put together from tables, rules and functions. -/
inductive Standard : Convention → Prop where
  | noContainers : Standard .noContainers
  | aliases (table : NameMap String) : Standard (.aliases table)
  | rules (rs : List Substitution) : Standard (.rules rs)
  | function (f : String → Option String) : Standard (.function f)
  | chain {conventions : List Convention} (h : ∀ c ∈ conventions, Standard c) :
      Standard (.chain conventions)

mutual

/-- The conventions at the ends of a chain of chains, from left to right. -/
def leaves : Convention → List Convention
  | noContainers => [noContainers]
  | aliases table => [aliases table]
  | rules rs => [rules rs]
  | function f => [function f]
  | custom f candidates => [custom f candidates]
  | chain conventions => leavesAll conventions

def leavesAll : List Convention → List Convention
  | [] => []
  | c :: cs => c.leaves ++ leavesAll cs

end

theorem leavesAll_eq (conventions : List Convention) :
    leavesAll conventions = conventions.flatMap leaves := by
  induction conventions with
  | nil =>
      rfl
  | cons c cs ih =>
      rw [leavesAll, ih, List.flatMap_cons]

/-!
# Answers of chains
-/

theorem firstSingular?_eq (name : String) (conventions : List Convention) :
    firstSingular? name conventions = conventions.findSome? (·.singular? name) := by
  induction conventions with
  | nil =>
      rfl
  | cons c cs ih =>
      rw [firstSingular?, ih, List.findSome?_cons]
      cases c.singular? name <;> rfl

theorem allCandidates_eq (name : String) (conventions : List Convention) :
    allCandidates name conventions = conventions.flatMap (·.candidates name) := by
  induction conventions with
  | nil =>
      rfl
  | cons c cs ih =>
      rw [allCandidates, ih, List.flatMap_cons]

theorem candidates_chain (name : String) (conventions : List Convention) :
    (chain conventions).candidates name =
      (conventions.flatMap (·.candidates name)).eraseDups := by
  rw [candidates, allCandidates_eq]

theorem singular?_chain (name : String) (conventions : List Convention) :
    (chain conventions).singular? name = conventions.findSome? (·.singular? name) := by
  rw [singular?, firstSingular?_eq]

theorem singular?_chain_eq_head? {name : String} {conventions : List Convention}
    (h : ∀ c ∈ conventions, c.singular? name = (c.candidates name).head?) :
    (chain conventions).singular? name = ((chain conventions).candidates name).head? := by
  rw [singular?_chain, candidates_chain, head?_eraseDups, List.head?_flatMap,
    ← List.head?_filterMap, ← List.head?_filterMap, List.filterMap_congr h]

theorem Standard.singular?_eq_head? {c : Convention} (hc : c.Standard) (name : String) :
    c.singular? name = (c.candidates name).head? := by
  induction hc with
  | noContainers =>
      rfl
  | aliases table =>
      exact Option.head?_toList.symm
  | rules rs =>
      rw [singular?, candidates, head?_eraseDups, List.head?_filterMap]
  | function f =>
      exact Option.head?_toList.symm
  | chain _ ih =>
      exact singular?_chain_eq_head? ih

theorem nodup_toList (singular? : Option String) : singular?.toList.Nodup := by
  cases singular? with
  | none =>
      exact List.nodup_nil
  | some singular =>
      exact List.nodup_singleton singular

theorem Standard.nodup_candidates {c : Convention} (hc : c.Standard) (name : String) :
    (c.candidates name).Nodup := by
  cases hc with
  | noContainers =>
      exact List.nodup_nil
  | aliases table =>
      exact nodup_toList _
  | rules rs =>
      exact nodup_eraseDups _
  | function f =>
      exact nodup_toList _
  | chain h =>
      rw [candidates_chain]
      exact nodup_eraseDups _

/-!
# Answers of the ends
-/

theorem Standard.eraseDups_candidates {c : Convention} (hc : c.Standard) (name : String) :
    (c.candidates name).eraseDups = (c.leaves.flatMap (·.candidates name)).eraseDups := by
  induction hc with
  | noContainers =>
      rfl
  | aliases table =>
      rw [leaves, List.flatMap_singleton]
  | rules rs =>
      rw [leaves, List.flatMap_singleton]
  | function f =>
      rw [leaves, List.flatMap_singleton]
  | chain _ ih =>
      rw [candidates_chain, eraseDups_eraseDups, leaves, leavesAll_eq, List.flatMap_assoc]
      exact eraseDups_flatMap_congr ih

theorem Standard.candidates_eq {c : Convention} (hc : c.Standard) (name : String) :
    c.candidates name = (c.leaves.flatMap (·.candidates name)).eraseDups := by
  rw [← hc.eraseDups_candidates, eraseDups_of_nodup (hc.nodup_candidates name)]

theorem Standard.of_mem_leaves {c : Convention} (hc : c.Standard) :
    ∀ leaf ∈ c.leaves, leaf.Standard := by
  induction hc with
  | noContainers =>
      intro leaf hleaf
      rw [List.mem_singleton.mp hleaf]
      exact .noContainers
  | aliases table =>
      intro leaf hleaf
      rw [List.mem_singleton.mp hleaf]
      exact .aliases table
  | rules rs =>
      intro leaf hleaf
      rw [List.mem_singleton.mp hleaf]
      exact .rules rs
  | function f =>
      intro leaf hleaf
      rw [List.mem_singleton.mp hleaf]
      exact .function f
  | chain _ ih =>
      intro leaf hleaf
      rw [leaves, leavesAll_eq, List.mem_flatMap] at hleaf
      obtain ⟨c, hc, hmem⟩ := hleaf
      exact ih c hc leaf hmem

/-- How the answers of a convention agree with each other and with those of its ends. -/
structure Agrees (c : Convention) (name : String) : Prop where
  nodup : (c.candidates name).Nodup
  ends : c.candidates name = (c.leaves.flatMap (·.candidates name)).eraseDups
  first : c.singular? name = (c.candidates name).head?
  none_iff : c.singular? name = none ↔ c.candidates name = []
  flattened : c.candidates name = (chain c.leaves).candidates name
  flattened_first : c.singular? name = (chain c.leaves).singular? name

theorem Standard.agrees {c : Convention} (hc : c.Standard) (name : String) : c.Agrees name := by
  have hflat : c.candidates name = (Convention.chain c.leaves).candidates name := by
    rw [candidates_chain, hc.candidates_eq]
  have hleaves : (Convention.chain c.leaves).Standard := .chain hc.of_mem_leaves
  constructor
  · exact hc.nodup_candidates name
  · exact hc.candidates_eq name
  · exact hc.singular?_eq_head? name
  · rw [hc.singular?_eq_head? name, List.head?_eq_none_iff]
  · exact hflat
  · rw [hc.singular?_eq_head? name, hleaves.singular?_eq_head? name, hflat]

end Convention

/-!
# Settings

The parts of a convention that is set down in settings are a table, rules whose patterns have been
read, and the rules for English. It does not matter what reads the patterns.
-/

structure Rule.Reads (reader : Regex.Reader) (rule : Rule) (substitution : Substitution) :
    Prop where
  pattern : reader rule.pattern = some substitution.expression
  replacement : substitution.replacement = rule.replacement

section Reading

variable {reader : Regex.Reader}

theorem compile_cons (rule : Rule) (rules : List Rule) :
    compile (rule :: rules) reader =
      match reader rule.pattern with
      | some expression =>
          (compile rules reader).map fun substitutions =>
            ⟨expression, rule.replacement⟩ :: substitutions
      | none => .error rule.pattern := by
  unfold compile
  rw [List.mapM_cons]
  cases reader rule.pattern with
  | none =>
      rfl
  | some expression =>
      change ((List.mapM _ rules >>= fun substitutions => Except.ok _) : Except String _) = _
      cases List.mapM (m := Except String) _ rules <;> rfl

theorem compile_eq_ok_iff {rules : List Rule} {substitutions : List Substitution} :
    compile rules reader = .ok substitutions ↔
      List.Forall₂ (Rule.Reads reader) rules substitutions := by
  induction rules generalizing substitutions with
  | nil =>
      rw [List.forall₂_nil_left_iff]
      constructor
      · intro h
        cases h
        rfl
      · intro h
        rw [h]
        rfl
  | cons rule rules ih =>
      rw [compile_cons, List.forall₂_cons_left_iff]
      constructor
      · intro h
        cases hread : reader rule.pattern with
        | none =>
            rw [hread] at h
            cases h
        | some expression =>
            rw [hread] at h
            cases hrest : compile rules reader with
            | error pattern =>
                rw [hrest] at h
                cases h
            | ok others =>
                rw [hrest] at h
                cases h
                exact ⟨_, others, ⟨hread, rfl⟩, ih.mp hrest, rfl⟩
      · intro h
        obtain ⟨substitution, others, hreads, hothers, rfl⟩ := h
        rw [hreads.pattern, ih.mpr hothers, ← hreads.replacement]
        rfl

namespace Settings

def assembled (s : Settings) (substitutions : List Substitution) : Convention :=
  if s.isEmpty then .noContainers
  else
    .chain ((if s.aliases.isEmpty then [] else [.aliases s.aliases]) ++
      (if s.rules.isEmpty then [] else [.rules substitutions]) ++
      (if s.english then [.english] else []))

theorem build_eq (s : Settings) :
    s.build reader = (compile s.rules reader).map s.assembled := by
  unfold build assembled
  by_cases hempty : s.isEmpty = true
  · have hrules : s.rules = [] := by
      simp only [isEmpty, Bool.and_eq_true] at hempty
      exact List.isEmpty_iff.mp hempty.1.2
    rw [if_pos hempty, hrules]
    simp only [if_pos hempty]
    rfl
  · rw [if_neg hempty]
    simp only [if_neg hempty]
    cases hrules : s.rules with
    | nil =>
        rfl
    | cons rule rules =>
        simp only [List.isEmpty_cons]
        cases compile (rule :: rules) reader <;> rfl

theorem standard_assembled (s : Settings) (substitutions : List Substitution) :
    (s.assembled substitutions).Standard := by
  unfold assembled
  split
  · exact .noContainers
  · apply Convention.Standard.chain
    intro c hc
    simp only [List.mem_append] at hc
    rcases hc with (hc | hc) | hc
    · split at hc
      · cases hc
      · rw [List.mem_singleton.mp hc]
        exact .aliases s.aliases
    · split at hc
      · cases hc
      · rw [List.mem_singleton.mp hc]
        exact .rules substitutions
    · split at hc
      · rw [List.mem_singleton.mp hc]
        exact .rules englishRules
      · cases hc

/-- What the parts of a convention that is set down have to say about a name, in order. -/
def outputs (s : Settings) (substitutions : List Substitution) (name : String) : List String :=
  (s.aliases.get? name).toList ++ substitutions.filterMap (·.singular? name) ++
    (if s.english then englishRules.filterMap (·.singular? name) else [])

theorem get?_of_isEmpty {table : NameMap String} (h : table.isEmpty = true) (name : String) :
    table.get? name = none := by
  rw [NameMap.get?, List.isEmpty_iff.mp h]
  rfl

theorem outputs_of_isEmpty {s : Settings} {substitutions : List Substitution}
    (hempty : s.isEmpty = true)
    (h : List.Forall₂ (Rule.Reads reader) s.rules substitutions) (name : String) :
    s.outputs substitutions name = [] := by
  simp only [isEmpty, Bool.and_eq_true, Bool.not_eq_true'] at hempty
  obtain ⟨⟨haliases, hrules⟩, henglish⟩ := hempty
  rw [List.isEmpty_iff.mp hrules, List.forall₂_nil_left_iff] at h
  rw [outputs, get?_of_isEmpty haliases, h, henglish]
  rfl

theorem candidates_assembled {s : Settings} {substitutions : List Substitution}
    (h : List.Forall₂ (Rule.Reads reader) s.rules substitutions) (name : String) :
    (s.assembled substitutions).candidates name = (s.outputs substitutions name).eraseDups := by
  unfold assembled
  split
  · next hempty =>
      rw [outputs_of_isEmpty hempty h]
      rfl
  · rw [Convention.candidates_chain, List.flatMap_append, List.flatMap_append, outputs]
    apply eraseDups_append_congr
    · apply eraseDups_append_congr
      · split
        · next haliases =>
            rw [get?_of_isEmpty haliases]
            rfl
        · rw [List.flatMap_singleton]
          rfl
      · split
        · next hrules =>
            rw [List.isEmpty_iff.mp hrules, List.forall₂_nil_left_iff] at h
            rw [h]
            rfl
        · rw [List.flatMap_singleton]
          exact eraseDups_eraseDups _
    · split
      · rw [List.flatMap_singleton]
        exact eraseDups_eraseDups _
      · rfl

/-- What a convention that is set down offers for a name: the alias, then the outputs of the rules,
then those of the rules for English. Settings that are empty offer nothing. -/
structure Offers (reader : Regex.Reader) (s : Settings) (c : Convention) (name : String) :
    Prop where
  candidates : ∃ substitutions, List.Forall₂ (Rule.Reads reader) s.rules substitutions ∧
    c.candidates name = (s.outputs substitutions name).eraseDups
  first : c.singular? name = (c.candidates name).head?
  nothing : s.isEmpty = true → c.candidates name = []

theorem offers_of_build {s : Settings} {c : Convention} (h : s.build reader = .ok c)
    (name : String) : Settings.Offers reader s c name := by
  rw [build_eq] at h
  cases hcompile : compile s.rules reader with
  | error pattern =>
      rw [hcompile] at h
      cases h
  | ok substitutions =>
      rw [hcompile] at h
      cases h
      have hreads := compile_eq_ok_iff.mp hcompile
      constructor
      · exact ⟨substitutions, hreads, candidates_assembled hreads name⟩
      · exact (s.standard_assembled substitutions).singular?_eq_head? name
      · intro hempty
        rw [candidates_assembled hreads, outputs_of_isEmpty hempty hreads]
        rfl

end Settings

end Reading

/-- Both questions to a convention have one answer, which is told by the ends of its chains, and a
convention that is set down asks its aliases first, then its rules, then those for English, whatever
reads the patterns of its rules. -/
theorem conventions_agree :
    (∀ c : Convention, c.Standard → ∀ name, c.Agrees name) ∧
      ∀ (reader : Regex.Reader) (s : Settings) (c : Convention), s.build reader = .ok c →
        ∀ name, Settings.Offers reader s c name := by
  constructor
  · intro c hc name
    exact hc.agrees name
  · intro reader s c hbuild name
    exact Settings.offers_of_build hbuild name

theorem conventions_agree_movies :
    let films := Convention.aliases (.ofList [("movies", "film")])
    let nested := Convention.chain [films, .chain [.noContainers, .english], .english]
    let settings : Settings :=
      { aliases := .ofList [("movies", "film")]
        rules := [⟨"^(.+[^s])s$", "$\x7b1\x7d"⟩]
        english := true }
    nested.candidates "movies" = ["film", "movy", "movie"] ∧ nested.Agrees "movies" ∧
      ∃ c, settings.build = .ok c ∧ c.candidates "movies" = ["film", "movie", "movy"] ∧
        Settings.Offers Regex.read? settings c "movies" := by
  intro films nested settings
  have hinner : (Convention.chain [.noContainers, .english]).Standard :=
    .chain (List.forall_mem_cons.mpr
      ⟨.noContainers, List.forall_mem_singleton.mpr (.rules englishRules)⟩)
  have hnested : nested.Standard :=
    .chain (List.forall_mem_cons.mpr ⟨.aliases _, List.forall_mem_cons.mpr
      ⟨hinner, List.forall_mem_singleton.mpr (.rules englishRules)⟩⟩)
  have hcompile : compile settings.rules = .ok [sRule] := by
    rw [compile_cons, read?_english.2.2]
    rfl
  have hbuild : settings.build = .ok (.chain [films, .rules [sRule], .english]) := by
    rw [Settings.build_eq, hcompile]
    rfl
  refine ⟨?_, conventions_agree.1 nested hnested "movies", _, hbuild, ?_,
    conventions_agree.2 Regex.read? settings _ hbuild "movies"⟩
  · decide +kernel
  · decide +kernel

end Naming
end XmlShape
