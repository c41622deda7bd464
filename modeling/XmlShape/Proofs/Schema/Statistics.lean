import Mathlib.Data.Finset.Card
import Mathlib.Data.List.Fold
import Mathlib.Data.List.MinMax
import Mathlib.Order.Bounds.Basic
import Mathlib.Order.Nat
import XmlShape.Analysis
import XmlShape.Proofs.Schema.Cycles
import XmlShape.Proofs.Schema.Depth
import XmlShape.Proofs.Schema.Fields
import XmlShape.Proofs.Schema.Relations
import XmlShape.Proofs.Schema.Repetition

/-!
# Statistics

The figures of an analysis are counted in the model and in the relations. Each of them is also the
size of something else: of the tree, of the patterns or of the table of fields.
-/

namespace XmlShape
namespace Schema

/-!
# Names

A figure that counts names counts each of them once, so it is the number of keys of any map that
has these names.
-/

theorem size_resolveAll (m : Model) (naming : Naming.Convention) :
    (resolveAll m naming).size = (m.compositeRecords.map (·.name)).eraseDups.length := by
  have hkeys : (resolveAll m naming).keys.Perm (m.compositeRecords.map (·.name)).eraseDups := by
    rw [List.perm_ext_iff_of_nodup (NameMap.nodup_keys _) (nodup_eraseDups _)]
    intro name
    rw [(holdsResolved_resolveAll m naming).keys, List.mem_eraseDups, List.mem_map]
  rw [← NameMap.length_keys, hkeys.length_eq]

theorem size_frequency_scan (options : ScanOptions) (root : Element) :
    (scan options root).frequency.size = (names root).toFinset.card := by
  have hnames : (scan options root).frequency.keys.toFinset = (names root).toFinset := by
    ext name
    rw [List.mem_toFinset, List.mem_toFinset]
    exact mem_distinctNames_scan
  rw [← NameMap.length_keys, ← hnames,
    List.toFinset_card_of_nodup (NameMap.nodup_keys _)]

theorem sum_frequency_scan (options : ScanOptions) (root : Element) :
    (scan options root).frequency.values.sum = root.count := by
  rw [frequency_scan, sum_values_tally, names, List.length_map, length_elements]

/-- No name that repeats is without a pattern, because every name that is counted has a record. -/
theorem length_patterns_scan (options : ScanOptions) (root : Element) :
    (scan options root).patterns.length =
      ((scan options root).frequency.values.filter (1 < ·)).length := by
  have hvalues : (scan options root).frequency.values.filter (1 < ·) =
      ((scan options root).frequency.toList.filter (1 < ·.2)).map Prod.snd := by
    rw [NameMap.values, List.filter_map]
    rfl
  rw [← (forall₂_repeats options root).length_eq, repeatedNames, hvalues, List.length_map,
    List.length_map]

/-!
# Elements

Every element but the root is a child, and the deepest element is at the end of a longest path.
-/

theorem length_detectParentChild_scan (options : ScanOptions) (root : Element) :
    (detectParentChild (scan options root)).length + 1 = root.count := by
  obtain ⟨below, hvisits, hbelow⟩ := visits_root root
  have hparent : below.countP (·.parent.isSome) = below.length := by
    rw [List.countP_eq_length]
    intro v hv
    exact Option.isSome_iff_ne_none.mpr (hbelow v hv)
  have hcount : ((visits [] root).map (·.parent)).countP Option.isSome = below.length := by
    rw [List.countP_map, hvisits, List.countP_append, ← hparent]
    rfl
  have hroot : root.count = below.length + 1 := by
    rw [← length_elements, elements, hvisits, List.length_map, List.length_append]
    rfl
  have hparents : (scan options root).records.map (·.parent) = (visits [] root).map (·.parent) :=
    map_eq_of_forall₂ (fun v r h => h.parent) (describes_scan options root)
  rw [length_detectParentChild, hroot, ← hcount, ← hparents, List.countP_map]
  rfl

theorem foldl_max_eq {levels : List Nat} {greatest : Nat} (hmem : greatest ∈ levels)
    (hle : ∀ level ∈ levels, level ≤ greatest) : levels.foldl max 0 = greatest := by
  rw [List.foldl_eq_foldr]
  exact Nat.le_antisymm (List.max_le_of_forall_le levels greatest hle)
    (List.le_max_of_le hmem (Nat.le_refl greatest))

/-- The levels are recorded, so the records reach as deep as the tree. -/
theorem isGreatest_depth_scan (options : ScanOptions) (root : Element) :
    IsGreatest {n | ∃ r ∈ (scan options root).records, r.depth + 1 = n} root.depth := by
  have hdepths : (scan options root).records.map (·.depth) = (visits [] root).map (·.level) :=
    map_eq_of_forall₂ (fun v r h => h.depth) (describes_scan options root)
  constructor
  · obtain ⟨deepest, hdeepest, hpath⟩ := exists_visit_depth root
    have hlevel : deepest.level ∈ (scan options root).records.map (·.depth) := by
      rw [hdepths]
      exact List.mem_map_of_mem hdeepest
    obtain ⟨r, hr, hdepth⟩ := List.mem_map.mp hlevel
    refine ⟨r, hr, ?_⟩
    rw [hdepth, ← hpath]
    rfl
  · intro n hn
    obtain ⟨r, hr, rfl⟩ := hn
    have hlevel : r.depth ∈ (visits [] root).map (·.level) := by
      rw [← hdepths]
      exact List.mem_map_of_mem hr
    obtain ⟨v, hv, hdepth⟩ := List.mem_map.mp hlevel
    rw [← hdepth]
    exact level_lt_depth hv

theorem maxDepth_scan (options : ScanOptions) (root : Element) :
    (scan options root).maxDepth + 1 = root.depth := by
  obtain ⟨⟨deepest, hdeepest, hdepth⟩, hle⟩ := isGreatest_depth_scan options root
  have hmax : (scan options root).maxDepth = deepest.depth := by
    apply foldl_max_eq (List.mem_map_of_mem hdeepest)
    intro level hlevel
    obtain ⟨r, hr, rfl⟩ := List.mem_map.mp hlevel
    have hbound := hle ⟨r, hr, rfl⟩
    omega
  rw [hmax, hdepth]

theorem size_relations (relations : Relations) : relations.size = relations.toList.length := by
  simp [Relations.size, Relations.toList, Nat.add_assoc]

end Schema

/-!
# Analyses
-/

namespace Analyzer

open Schema

theorem analyze_of_read {a : Analyzer} {text : String} {root : Element}
    (h : Document.read a.config.reading text = .ok root) :
    a.analyze text =
      a.convention.map fun naming => analyzeModel naming (scan a.config.scanning root) := by
  unfold analyze analyzeStructure scanText
  rw [h]
  cases a.convention <;> rfl

theorem analyze_of_read_error {a : Analyzer} {text : String} {fault : DocumentFault}
    (h : Document.read a.config.reading text = .error fault) :
    a.analyze text = .error (.document fault) := by
  unfold analyze analyzeStructure scanText
  rw [h]
  rfl

theorem of_analyze_eq_ok {a : Analyzer} {text : String} {analysis : Analysis}
    (h : a.analyze text = .ok analysis) :
    ∃ root naming, Document.read a.config.reading text = .ok root ∧
      analysis = analyzeModel naming (scan a.config.scanning root) := by
  cases hread : Document.read a.config.reading text with
  | error fault =>
      rw [analyze_of_read_error hread] at h
      cases h
  | ok root =>
      rw [analyze_of_read hread] at h
      cases hconvention : a.convention with
      | error failure =>
          rw [hconvention] at h
          cases h
      | ok naming =>
          rw [hconvention] at h
          cases h
          exact ⟨root, naming, rfl, rfl⟩

end Analyzer

structure Analysis.Tallied (a : Analysis) (root : Element) : Prop where
  elements : a.stats.elements = root.count
  frequencies : root.count = a.schema.frequency.values.sum
  /-- Every element but the root has a parent. -/
  parents : a.stats.elements = a.relations.parentChild.length + 1
  distinct : a.stats.distinct = (Schema.names root).toFinset.card
  repeated : a.stats.repeated = a.schema.patterns.length
  composite : a.stats.composite = a.fields.size
  depth : a.stats.maxDepth + 1 = root.depth
  relations : a.stats.relations = a.relations.toList.length

namespace Analyzer

open Schema

/-- The statistics of every analysis agree with the tree and with what has been worked out of it. -/
theorem analyze_tallied {a : Analyzer} {text : String} {analysis : Analysis}
    (h : a.analyze text = .ok analysis) :
    ∃ root, Document.read a.config.reading text = .ok root ∧ analysis.Tallied root := by
  obtain ⟨root, naming, hread, rfl⟩ := of_analyze_eq_ok h
  refine ⟨root, hread, ?_⟩
  constructor
  · exact length_records_scan a.config.scanning root
  · exact (sum_frequency_scan a.config.scanning root).symm
  · exact (length_records_scan a.config.scanning root).trans
      (length_detectParentChild_scan a.config.scanning root).symm
  · exact size_frequency_scan a.config.scanning root
  · exact (length_patterns_scan a.config.scanning root).symm
  · exact (size_resolveAll (scan a.config.scanning root) naming).symm
  · exact maxDepth_scan a.config.scanning root
  · exact size_relations _

theorem analyze_tallied_shelf :
    ∃ analysis, ({ naming := some .noContainers } : Analyzer).analyze
        "<shelf><book id='1'><title/></book><book>x</book></shelf>" = .ok analysis ∧
      analysis.stats = ⟨4, 3, 1, 2, 1, 2, 4⟩ ∧
      ∃ root, Document.read ({} : Config).reading
        "<shelf><book id='1'><title/></book><book>x</book></shelf>" = .ok root ∧
        analysis.Tallied root := by
  have hread : Document.read ({} : Config).reading
      "<shelf><book id='1'><title/></book><book>x</book></shelf>" =
        .ok ⟨"shelf", [], [⟨"book", [("id", "1")], [⟨"title", [], [], ""⟩], ""⟩,
          ⟨"book", [], [], "x"⟩], ""⟩ := rfl
  have hanalysis := analyze_of_read (a := { naming := some .noContainers }) hread
  obtain ⟨root, hroot, htallied⟩ := analyze_tallied hanalysis
  refine ⟨_, hanalysis, ?_, root, hroot, htallied⟩
  rfl

end Analyzer
end XmlShape
