import XmlShape.Proofs.Schema.Collapse
import XmlShape.Proofs.Schema.Relations

/-!
# Relations and fields

The relations of a tree and its fields are worked out apart from each other, but both come down to
which elements contain which. They are compared in terms of the tree, for a convention without
containers first: another one changes no keys, and it makes lists of containers only.
-/

namespace XmlShape
namespace Schema

open Naming

def HasField (fields : NameMap Fields) (parent name : String) : Prop :=
  ∃ own, fields.get? parent = some own ∧ name ∈ own.keys

def IsListField (fields : NameMap Fields) (parent name : String) : Prop :=
  ∃ shape, fieldAt? fields parent name = some shape ∧ shape.isList = true

def IsContainerField (fields : NameMap Fields) (parent name : String) : Prop :=
  ∃ shape, fieldAt? fields parent name = some shape ∧ shape.container = true

structure Agree (relations : Relations) (fields : NameMap Fields) (root : Element) : Prop where
  parentChild : ∀ parent child, HasField fields parent child ↔
    ∃ r ∈ relations.parentChild, r.parent = parent ∧ r.child = child
  manyToMany : ∀ first second linking,
    (∃ r ∈ relations.manyToMany,
        r.first = first ∧ r.second = second ∧ r.linking = linking) ↔
      first ≠ second ∧ HasField fields first linking ∧ HasField fields second linking
  oneToMany : ∀ parent child k, 2 ≤ k →
    relations.oneToMany.countP
        (fun r => r.parent = parent ∧ r.child = child ∧ r.cardinality = k) =
      (elements root).countP fun e => e.name = parent ∧ (childrenNamed child e).length = k
  cardinality : ∀ r ∈ relations.oneToMany, 2 ≤ r.cardinality
  list : ∀ parent child, IsListField fields parent child ↔
    (∃ r ∈ relations.oneToMany, r.parent = parent ∧ r.child = child) ∨
      IsContainerField fields parent child

/-!
# Fields of a tree
-/

theorem hasField_iff_isSome {fields : NameMap Fields} {parent name : String} :
    HasField fields parent name ↔ (fieldAt? fields parent name).isSome = true := by
  unfold HasField fieldAt?
  cases fields.get? parent with
  | none =>
      simp
  | some own =>
      simp [NameMap.mem_keys]

theorem hasField_scan_iff {options : ScanOptions} {naming : Convention} {root : Element}
    {parent name : String} :
    HasField (resolveAll (scan options root) naming) parent name ↔ Contains root parent name := by
  rw [hasField_iff_isSome, isSome_fieldAt?_resolveAll, ← hasField_iff_isSome]
  exact mem_fields_resolveAll_scan options root parent name

theorem isListField_noContainers_iff {options : ScanOptions} {root : Element}
    {parent name : String} :
    IsListField (resolveAll (scan options root) .noContainers) parent name ↔
      ∃ e ∈ elements root, e.name = parent ∧ 2 ≤ (childrenNamed name e).length := by
  rw [IsListField, fieldAt?, get?_resolveAll_scan]
  constructor
  · rintro ⟨shape, hshape, hlist⟩
    split at hshape
    · cases hshape
    · cases hshape
      exact of_decide_eq_true hlist
  · rintro ⟨e, he, hparent, htwo⟩
    have hne : typesUnder options.truthValues root parent name ≠ [] := by
      rw [typesUnder_ne_nil]
      obtain ⟨child, hchild⟩ := List.exists_mem_of_length_pos (Nat.lt_of_lt_of_le Nat.two_pos htwo)
      obtain ⟨hmem, hname⟩ := List.mem_filter.mp hchild
      exact ⟨e, he, hparent, child, hmem, of_decide_eq_true hname⟩
    rw [if_neg hne]
    exact ⟨_, rfl, decide_eq_true ⟨e, he, hparent, htwo⟩⟩

theorem not_isContainerField_noContainers (m : Model) (parent name : String) :
    ¬ IsContainerField (resolveAll m .noContainers) parent name := by
  rintro ⟨shape, hshape, hcontainer⟩
  rw [isPlain_fieldAt?_noContainers m parent name shape hshape] at hcontainer
  cases hcontainer

/-- A convention only adds lists that are containers. -/
theorem isListField_iff (m : Model) (naming : Convention) (parent name : String) :
    IsListField (resolveAll m naming) parent name ↔
      IsListField (resolveAll m .noContainers) parent name ∨
        IsContainerField (resolveAll m naming) parent name := by
  by_cases h : ∃ container, Collapses m naming parent name container
  · obtain ⟨container, hcollapses⟩ := h
    have hshape := fieldAt?_of_collapses hcollapses
    obtain ⟨hcontainer, hlist⟩ := containerShape?_container hcollapses.found
    constructor
    · intro _
      exact Or.inr ⟨container, hshape, hcontainer⟩
    · intro _
      exact ⟨container, hshape, hlist⟩
  · have hnone := not_isContainerField_noContainers m parent name
    unfold IsListField IsContainerField at hnone ⊢
    rw [fieldAt?_of_not_collapses (not_exists.mp h), or_iff_left hnone]

/-!
# Agreement
-/

/-- The relations of a tree agree with its fields under each convention, although the detectors know
of no convention. -/
theorem detectRelations_agree (config : Config) (naming : Convention) (root : Element) :
    Agree (detectRelations (scan config.scanning root))
      (resolveAll (scan config.scanning root) naming) root := by
  constructor
  · intro parent child
    rw [hasField_scan_iff]
    exact exists_parentChild_scan.symm
  · intro first second linking
    rw [hasField_scan_iff, hasField_scan_iff]
    exact exists_manyToMany_scan
  · intro parent child k hk
    exact countP_detectOneToMany_scan config.scanning root parent child hk
  · exact two_le_cardinality
  · intro parent child
    rw [isListField_iff, isListField_noContainers_iff]
    exact or_congr_left exists_oneToMany_scan.symm

end Schema
end XmlShape
