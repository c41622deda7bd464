import XmlShape.Proofs.Document.Numbering
import XmlShape.Proofs.Markup.Attribute
import XmlShape.Proofs.Schema.Statistics

/-!
# Attributes of documents

Every element of a document has been opened by a tag, and a tag does not repeat a key. A scan, which
keeps the last value of a key, therefore keeps all attributes of the document.
-/

namespace XmlShape

namespace Element

open Schema

mutual

theorem perm_elements : (e : Element) → e.preorder.Perm (elements e)
  | ⟨name, attributes, children, text⟩ => by
      rw [preorder, elements_eq]
      exact ((perm_elementsAll children).cons _).trans (List.perm_append_singleton _ _).symm

theorem perm_elementsAll : (es : List Element) → (preorderAll es).Perm (es.flatMap elements)
  | [] => List.Perm.nil
  | e :: es => by
      rw [preorderAll, List.flatMap_cons]
      exact (perm_elements e).append (perm_elementsAll es)

end

end Element

namespace Document

open Markup Schema

theorem IsDocument.exists_tag {options : ReadingOptions} {items : List Item} {root e : Element}
    (h : IsDocument options items root) (he : e ∈ elements root) :
    ∃ content, e.name = String.ofList (tagName content) ∧
      tagAttributes content = .ok e.attributes := by
  have hstarts := h.tells.starts
  rw [Element.preorderAll_singleton] at hstarts
  have hmem : (e.name, Except.ok e.attributes) ∈ items.filterMap opening? := by
    rw [hstarts]
    exact List.mem_map_of_mem ((Element.perm_elements root).mem_iff.mpr he)
  obtain ⟨item, _, hopening⟩ := List.mem_filterMap.mp hmem
  obtain ⟨content, hname, hattributes⟩ := exists_content_of_opening? hopening
  exact ⟨content, hname, hattributes.symm⟩

theorem nodup_attributes {options : ReadingOptions} {text : String} {root : Element}
    (h : read options text = .ok root) :
    ∀ e ∈ elements root, (e.attributes.map Prod.fst).Nodup := by
  intro e he
  obtain ⟨content, _, hattributes⟩ := (build_eq_ok_iff.mp h).exists_tag he
  exact nodup_tagAttributes hattributes

end Document

/-!
# Attributes of records
-/

namespace Schema

theorem Describes.attributes_eq {truthValues : Bool} {v : Visit} {r : Record}
    (h : Describes truthValues v r) : r.attributes = NameMap.ofList v.element.attributes := by
  apply NameMap.ext_get?
  intro key
  rw [h.attributes key, NameMap.get?_ofList]

def attributeCount (root : Element) : Nat :=
  ((elements root).map (·.attributes.length)).sum

/-- A record with all attributes of an element: as many as it has, and each with its only value. -/
structure KeepsAttributes (v : Visit) (r : Record) : Prop where
  size : r.attributes.size = v.element.attributes.length
  get? : ∀ key, r.attributes.get? key = v.element.attribute? key

theorem Describes.keepsAttributes {truthValues : Bool} {v : Visit} {r : Record}
    (h : Describes truthValues v r) (hdistinct : (v.element.attributes.map Prod.fst).Nodup) :
    KeepsAttributes v r := by
  constructor
  · rw [h.attributes_eq, NameMap.size_ofList hdistinct]
  · intro key
    rw [h.attributes key, NameMap.lookup_reverse hdistinct]
    rfl

section Scan

variable (options : ScanOptions) {root : Element}

theorem describes_and_keeps (hdistinct : ∀ e ∈ elements root, (e.attributes.map Prod.fst).Nodup) :
    List.Forall₂ (fun v r => Describes options.truthValues v r ∧ KeepsAttributes v r)
      (visits [] root) (scan options root).records := by
  have hvisits : ∀ v ∈ visits [] root, (v.element.attributes.map Prod.fst).Nodup := by
    intro v hv
    exact hdistinct v.element (mem_elements.mpr ⟨v, hv, rfl⟩)
  have hboth := (List.forall₂_and_left _ _).mpr ⟨hvisits, describes_scan options root⟩
  exact hboth.imp fun v r h => ⟨h.2, h.2.keepsAttributes h.1⟩

theorem attributes_statsOf_scan
    (hdistinct : ∀ e ∈ elements root, (e.attributes.map Prod.fst).Nodup) (relations : Relations) :
    (statsOf (scan options root) relations).attributes = attributeCount root := by
  have hsizes : (scan options root).records.map (·.attributes.size) =
      (elements root).map (·.attributes.length) := by
    rw [elements, List.map_map]
    exact map_eq_of_forall₂ (fun v r h => h.2.size) (describes_and_keeps options hdistinct)
  rw [attributeCount, ← hsizes, List.sum_eq_foldl, List.foldl_map]
  rfl

end Scan

end Schema

namespace Document

open Schema

/-- Attributes are kept from a document to the statistics of it. No element of a document has two
attributes with the same key, so it does not matter which of them a scan or a look-up takes. -/
theorem read_attributes (config : Config) {text : String} {root : Element}
    (h : read config.reading text = .ok root) :
    (∀ e ∈ elements root, (e.attributes.map Prod.fst).Nodup) ∧
      List.Forall₂ (fun v r => Describes config.detectBooleans v r ∧ KeepsAttributes v r)
        (visits [] root) (scan config.scanning root).records ∧
      ∀ (naming : Option Naming.Convention) (reader : Regex.Reader),
        (Analyzer.analyze ⟨config, naming, reader⟩ text).map (·.stats.attributes) =
          (Analyzer.convention ⟨config, naming, reader⟩).map fun _ => attributeCount root := by
  have hdistinct := nodup_attributes h
  refine ⟨hdistinct, describes_and_keeps config.scanning hdistinct, ?_⟩
  intro naming reader
  have hstats : ∀ convention : Naming.Convention,
      (analyzeModel convention (scan config.scanning root)).stats.attributes =
        attributeCount root := by
    intro convention
    exact attributes_statsOf_scan config.scanning hdistinct _
  rw [Analyzer.analyze_of_read (a := ⟨config, naming, reader⟩) h]
  cases Analyzer.convention ⟨config, naming, reader⟩ with
  | error failure =>
      rfl
  | ok convention =>
      exact congrArg Except.ok (hstats convention)

theorem read_attributes_recurring :
    read ({} : Config).reading "<a k='1' l=\"2\"><b k='3'/></a>" =
        .ok ⟨"a", [("k", "1"), ("l", "2")], [⟨"b", [("k", "3")], [], ""⟩], ""⟩ ∧
      (∀ e ∈ elements ⟨"a", [("k", "1"), ("l", "2")], [⟨"b", [("k", "3")], [], ""⟩], ""⟩,
        (e.attributes.map Prod.fst).Nodup) ∧
      (Analyzer.analyze ⟨{}, some .noContainers, Regex.read?⟩ "<a k='1' l=\"2\"><b k='3'/></a>").map
        (·.stats.attributes) = .ok 3 := by
  have hread : read ({} : Config).reading "<a k='1' l=\"2\"><b k='3'/></a>" =
      .ok ⟨"a", [("k", "1"), ("l", "2")], [⟨"b", [("k", "3")], [], ""⟩], ""⟩ := rfl
  obtain ⟨hdistinct, _, hstats⟩ := read_attributes {} hread
  exact ⟨hread, hdistinct, hstats (some .noContainers) Regex.read?⟩

end Document
end XmlShape
