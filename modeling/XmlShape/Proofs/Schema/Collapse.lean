import XmlShape.Proofs.Schema.Containers

/-!
# Containers of a tree

In a scanned tree a field collapses if some element holds one child with children, and if the first
child with children under such a parent is mostly made of elements of a singular. Only this first
child is ever looked into: what later ones hold is not seen. Apart from the fields that collapse, a
convention changes nothing.
-/

namespace XmlShape
namespace Schema

open ElementType Naming

/-!
# What a tree shows
-/

def HoldsOneFilled (root : Element) (parent name : String) : Prop :=
  ∃ e ∈ elements root, e.name = parent ∧
    ∃ child, childrenNamed name e = [child] ∧ child.children ≠ []

def IsMostly (item : String) (e : Element) : Prop :=
  e.children.length < 2 * (childrenNamed item e).length

instance (item : String) (e : Element) : Decidable (IsMostly item e) :=
  inferInstanceAs (Decidable (_ < _))

/-- The first place of an element with children under a parent of the given name. -/
def firstFilled? (root : Element) (parent name : String) : Option Visit :=
  (visits [] root).find? fun v =>
    v.element.name = name ∧ v.parent = some parent ∧ v.element.hasChildren

def containerOf (truthValues : Bool) (item : String) (e : Element) : FieldShape :=
  { type := widest ((childrenNamed item e).map (typeOf truthValues))
    isList := true
    item
    container := true }

theorem Describes.hasChildren {truthValues : Bool} {v : Visit} {r : Record}
    (h : Describes truthValues v r) : r.hasChildren = v.element.hasChildren := by
  rw [Record.hasChildren, Element.hasChildren, h.children, List.isEmpty_map]

theorem Describes.isMajority {truthValues : Bool} {v : Visit} {r : Record}
    (h : Describes truthValues v r) (item : String) :
    IsMajority item r.children ↔ IsMostly item v.element := by
  rw [IsMajority, IsMostly, typesNamed_eq item v r h, h.children, List.length_map, List.length_map]

theorem Describes.collapsed {truthValues : Bool} {v : Visit} {r : Record}
    (h : Describes truthValues v r) (item : String) :
    collapsed item r.children = containerOf truthValues item v.element := by
  rw [Schema.collapsed, typesNamed_eq item v r h]
  rfl

theorem Describes.holdsOne {truthValues : Bool} {v : Visit} {r : Record}
    (h : Describes truthValues v r) (name : String) :
    HoldsOne name r ↔
      ∃ child, childrenNamed name v.element = [child] ∧ child.children ≠ [] := by
  rw [HoldsOne, typesNamed_eq name v r h, List.map_eq_singleton_iff]
  simp only [typeOf_eq_composite]

/-!
# Finding containers in a tree
-/

theorem containerShape?_scan_eq_some_iff {options : ScanOptions} {root : Element}
    {naming : Convention} {parent name : String} {shape : FieldShape} :
    containerShape? (scan options root) naming parent name = some shape ↔
      ∃ v, firstFilled? root parent name = some v ∧
        ∃ item ∈ naming.candidates name, IsMostly item v.element ∧
          containerOf options.truthValues item v.element = shape := by
  have hfind : Option.Rel (Describes options.truthValues) (firstFilled? root parent name)
      ((scan options root).records.find? (isFilled parent name)) := by
    apply find?_of_forall₂ _ (describes_scan options root)
    intro v r h
    rw [isFilled, h.name, h.parent, h.hasChildren]
  rw [containerShape?_eq_some_iff]
  generalize firstFilled? root parent name = v? at hfind ⊢
  generalize (scan options root).records.find? (isFilled parent name) = r? at hfind ⊢
  cases hfind with
  | none =>
      simp
  | some h =>
      simp [h.isMajority, h.collapsed]

theorem held_scan_iff {options : ScanOptions} {root : Element} {parent name : String} :
    (∃ r ∈ (scan options root).compositeRecords, r.name = parent ∧ HoldsOne name r) ↔
      HoldsOneFilled root parent name := by
  have hrecords : (∃ r ∈ (scan options root).records,
        r.type.isComposite = true ∧ r.name = parent ∧ HoldsOne name r) ↔
      ∃ v ∈ visits [] root, v.element.name = parent ∧
        ∃ child, childrenNamed name v.element = [child] ∧ child.children ≠ [] := by
    apply exists_record_iff _ (describes_scan options root)
    intro v r h
    rw [isComposite_eq_hasChildren v r h, h.name, h.holdsOne]
    constructor
    · rintro ⟨_, hname, hone⟩
      exact ⟨hname, hone⟩
    · rintro ⟨hname, child, hone, hfilled⟩
      refine ⟨?_, hname, child, hone, hfilled⟩
      -- Only composite records are looked at, but an element that holds one child has such a record.
      by_contra hleaf
      rw [childrenNamed_of_not_hasChildren hleaf] at hone
      cases hone
  simp only [Model.compositeRecords, List.mem_filter, and_assoc]
  rw [hrecords, HoldsOneFilled]
  simp only [elements, List.mem_map, exists_exists_and_eq_and]

theorem collapses_scan_iff {options : ScanOptions} {root : Element} {naming : Convention}
    {parent name : String} {shape : FieldShape} :
    Collapses (scan options root) naming parent name shape ↔
      HoldsOneFilled root parent name ∧
        ∃ v, firstFilled? root parent name = some v ∧
          ∃ item ∈ naming.candidates name, IsMostly item v.element ∧
            containerOf options.truthValues item v.element = shape := by
  rw [← containerShape?_scan_eq_some_iff, ← held_scan_iff]
  constructor
  · rintro ⟨hfound, hheld⟩
    exact ⟨hheld, hfound⟩
  · rintro ⟨hheld, hfound⟩
    exact ⟨hfound, hheld⟩

/-!
# When a field is a container
-/

theorem isPlain_fieldAt?_noContainers (m : Model) (parent name : String) :
    IsPlain (fieldAt? (resolveAll m .noContainers) parent name) := by
  rw [fieldAt?, shapes_resolveAll_noContainers]
  exact isPlain_shapeOf _ _

theorem exists_collapses_iff {m : Model} {naming : Convention} {parent name : String} :
    (∃ shape, fieldAt? (resolveAll m naming) parent name = some shape ∧
        shape.container = true ∧ shape.isList = true) ↔
      ∃ container, Collapses m naming parent name container := by
  constructor
  · rintro ⟨shape, hshape, hcontainer, _⟩
    by_contra hnone
    push Not at hnone
    rw [fieldAt?_of_not_collapses hnone] at hshape
    have hplain := isPlain_fieldAt?_noContainers m parent name shape hshape
    rw [hcontainer] at hplain
    cases hplain
  · rintro ⟨container, hcollapses⟩
    have hcontainer := containerShape?_container hcollapses.found
    exact ⟨container, fieldAt?_of_collapses hcollapses, hcontainer⟩

/-- A field of a tree is a container, and then a list, exactly if some element holds just one child
of its name, with children, and the first child of its name with children under such a parent is
mostly made of elements of a singular of its name. -/
theorem isContainer_iff_firstFilled (config : Config) (naming : Convention) (root : Element)
    (parent name : String) :
    (∃ shape, fieldAt? (resolveAll (scan config.scanning root) naming) parent name = some shape ∧
        shape.container = true ∧ shape.isList = true) ↔
      HoldsOneFilled root parent name ∧
        ∃ v, firstFilled? root parent name = some v ∧
          ∃ item ∈ naming.candidates name, IsMostly item v.element := by
  rw [exists_collapses_iff]
  constructor
  · rintro ⟨container, hcollapses⟩
    obtain ⟨hheld, v, hv, item, hitem, hmostly, _⟩ := collapses_scan_iff.mp hcollapses
    exact ⟨hheld, v, hv, item, hitem, hmostly⟩
  · rintro ⟨hheld, v, hv, item, hitem, hmostly⟩
    exact ⟨_, collapses_scan_iff.mpr ⟨hheld, v, hv, item, hitem, hmostly, rfl⟩⟩

def shelves : Element :=
  ⟨"shelves", [],
    [⟨"shelf", [], [⟨"books", [], [⟨"note", [], [], ""⟩], ""⟩], ""⟩,
      ⟨"shelf", [], [⟨"books", [], [⟨"book", [], [], ""⟩], ""⟩], ""⟩], ""⟩

def bookAlias : Convention :=
  .aliases (.ofList [("books", "book")])

/-- The books of the second shelf are a container, but they are not found behind those of the
first. -/
theorem container_not_found_behind_first :
    (∃ e ∈ elements shelves, e.name = "shelf" ∧
      ∃ child, childrenNamed "books" e = [child] ∧ child.children ≠ [] ∧
        ∃ item ∈ bookAlias.candidates "books", IsMostly item child) ∧
      ¬ ∃ shape,
        fieldAt? (resolveAll (scan ({} : Config).scanning shelves) bookAlias) "shelf" "books" =
            some shape ∧
          shape.container = true ∧ shape.isList = true := by
  have hcandidates : bookAlias.candidates "books" = ["book"] := by
    simp [bookAlias, Convention.candidates, NameMap.get?_ofList]
  have hfirst : firstFilled? shelves "shelf" "books" =
      some ⟨⟨"books", [], [⟨"note", [], [], ""⟩], ""⟩, ["shelf", "shelves"]⟩ := by
    rfl
  constructor
  · refine ⟨⟨"shelf", [], [⟨"books", [], [⟨"book", [], [], ""⟩], ""⟩], ""⟩, ?_, rfl,
      ⟨"books", [], [⟨"book", [], [], ""⟩], ""⟩, ?_, ?_, "book", ?_, ?_⟩
    · simp [elements, shelves, visits, visitsAll]
    · rfl
    · exact List.cons_ne_nil _ _
    · rw [hcandidates]
      exact List.mem_cons_self
    · decide
  · rw [exists_collapses_iff]
    rintro ⟨container, hcollapses⟩
    obtain ⟨_, v, hv, item, hitem, hmostly, _⟩ := collapses_scan_iff.mp hcollapses
    rw [hfirst, Option.some_inj] at hv
    rw [hcandidates, List.mem_singleton] at hitem
    subst hv hitem
    revert hmostly
    decide

/-!
# What a convention changes
-/

theorem keys_resolveAll (m : Model) (naming naming' : Convention) :
    (resolveAll m naming).keys = (resolveAll m naming').keys := by
  apply NameMap.keys_eq_of_mem_iff
  intro parent
  rw [(holdsResolved_resolveAll m naming).keys, (holdsResolved_resolveAll m naming').keys]

theorem isSome_fieldAt?_resolveAll (m : Model) (naming : Convention) (parent name : String) :
    (fieldAt? (resolveAll m naming) parent name).isSome =
      (fieldAt? (resolveAll m .noContainers) parent name).isSome := by
  by_cases h : ∃ container, Collapses m naming parent name container
  · obtain ⟨container, hcollapses⟩ := h
    obtain ⟨plain, hplain, _⟩ := hcollapses.exists_plain
    rw [fieldAt?_of_collapses hcollapses, hplain]
    rfl
  · rw [fieldAt?_of_not_collapses (not_exists.mp h)]

theorem keys_get?_resolveAll (m : Model) (naming : Convention) (parent : String) :
    ((resolveAll m naming).get? parent).map (·.keys) =
      ((resolveAll m .noContainers).get? parent).map (·.keys) := by
  apply NameMap.map_get?_eq
  · rw [keys_resolveAll m naming .noContainers]
  · intro fields plain hfields hplain
    have hsome := isSome_fieldAt?_resolveAll m naming parent
    unfold fieldAt? at hsome
    rw [hfields, hplain] at hsome
    apply NameMap.keys_eq_of_mem_iff
    intro name
    rw [NameMap.mem_keys, NameMap.mem_keys]
    exact Bool.eq_iff_iff.mp (hsome name)

/-- What a tree has to show for a field that is collapsed to a shape. -/
structure ShowsContainer (truthValues : Bool) (naming : Convention) (root : Element)
    (parent name : String) (shape : FieldShape) : Prop where
  container : shape.container = true
  isList : shape.isList = true
  held : HoldsOneFilled root parent name
  candidate : shape.item ∈ naming.candidates name
  filled : ∃ e ∈ elements root, e.name = parent ∧ ∃ child ∈ childrenNamed name e,
    child.children ≠ [] ∧ IsMostly shape.item child ∧
      shape.type = widest ((childrenNamed shape.item child).map (typeOf truthValues))

theorem exists_child_of_firstFilled? {root : Element} {parent name : String} {v : Visit}
    (h : firstFilled? root parent name = some v) :
    ∃ e ∈ elements root, e.name = parent ∧ v.element ∈ childrenNamed name e ∧
      v.element.children ≠ [] := by
  have hfilled := List.find?_some h
  simp only [decide_eq_true_eq] at hfilled
  obtain ⟨hname, hparent, hchildren⟩ := hfilled
  obtain ⟨e, he, heq, hchild⟩ := exists_visit_iff_exists_child.mp
    ⟨v, List.mem_of_find?_eq_some h, hparent, rfl⟩
  refine ⟨e, he, heq, List.mem_filter.mpr ⟨hchild, decide_eq_true hname⟩, ?_⟩
  simpa [Element.hasChildren] using hchildren

theorem Collapses.showsContainer {options : ScanOptions} {root : Element} {naming : Convention}
    {parent name : String} {container : FieldShape}
    (h : Collapses (scan options root) naming parent name container) :
    ShowsContainer options.truthValues naming root parent name container := by
  obtain ⟨hheld, v, hv, item, hitem, hmostly, rfl⟩ := collapses_scan_iff.mp h
  obtain ⟨e, he, hparent, hchild, hfilled⟩ := exists_child_of_firstFilled? hv
  exact {
    container := rfl
    isList := rfl
    held := hheld
    candidate := hitem
    filled := ⟨e, he, hparent, v.element, hchild, hfilled, hmostly, rfl⟩ }

/-- A convention changes no keys, and it changes the shape of a field only by collapsing a composite
field, for which the tree shows a container. -/
theorem resolveAll_scan_collapses_only (config : Config) (naming : Convention) (root : Element) :
    (resolveAll (scan config.scanning root) naming).keys =
        (resolveAll (scan config.scanning root) .noContainers).keys ∧
      (∀ parent, ((resolveAll (scan config.scanning root) naming).get? parent).map (·.keys) =
        ((resolveAll (scan config.scanning root) .noContainers).get? parent).map (·.keys)) ∧
      ∀ parent name,
        fieldAt? (resolveAll (scan config.scanning root) naming) parent name =
            fieldAt? (resolveAll (scan config.scanning root) .noContainers) parent name ∨
          ∃ plain shape,
            fieldAt? (resolveAll (scan config.scanning root) .noContainers) parent name =
                some plain ∧
              fieldAt? (resolveAll (scan config.scanning root) naming) parent name = some shape ∧
              plain.type = .composite ∧
              ShowsContainer config.detectBooleans naming root parent name shape := by
  refine ⟨keys_resolveAll _ naming .noContainers, keys_get?_resolveAll _ naming, ?_⟩
  intro parent name
  by_cases h : ∃ container, Collapses (scan config.scanning root) naming parent name container
  · obtain ⟨container, hcollapses⟩ := h
    obtain ⟨plain, hplain, htype⟩ := hcollapses.exists_plain
    exact Or.inr ⟨plain, container, hplain, fieldAt?_of_collapses hcollapses, htype,
      hcollapses.showsContainer⟩
  · exact Or.inl (fieldAt?_of_not_collapses (not_exists.mp h))

end Schema
end XmlShape
