import XmlShape.Proofs.NameMap
import XmlShape.Proofs.Report.RelationTable
import XmlShape.Report.FieldList

/-!
# Reports without loss

The line of a field is its name, its type and what it contains, between which a reader finds the
spaces. So two lists of fields with the same text have the same fields, as two tables with the same
text have the same relations.
-/

namespace XmlShape
namespace Report

open Schema Text

/-- The shapes differ at most in an item that a list of fields does not show. -/
structure SameShape (a b : FieldShape) : Prop where
  type : a.type = b.type
  isList : a.isList = b.isList
  container : a.container = b.container
  item : a.container = true → a.item = b.item

/-!
# Types
-/

theorem ElementType.name_inj {type type' : ElementType} (h : type.name = type'.name) :
    type = type' := by
  have hname := congrArg ElementType.ofName? h
  rw [ElementType.ofName?_name, ElementType.ofName?_name] at hname
  exact Option.some.inj hname

theorem unbroken_name (type : ElementType) : Unbroken type.name.toList := by
  cases type <;> exact ⟨by decide, by decide⟩

theorem unbroken_typeText (shape : FieldShape) : Unbroken (typeText shape).toList := by
  unfold typeText
  split
  · rw [String.toList_append, String.toList_append, unbroken_append, unbroken_append]
    exact ⟨⟨⟨by decide, by decide⟩, unbroken_name shape.type⟩, ⟨by decide, by decide⟩⟩
  · exact unbroken_name shape.type

theorem bracket_mem_typeText_iff (shape : FieldShape) :
    '<' ∈ (typeText shape).toList ↔ shape.isList = true := by
  have hname : '<' ∉ shape.type.name.toList := by
    cases shape.type <;> decide
  unfold typeText
  split
  · next hlist => simp [hlist]
  · next hlist => simp [hlist, hname]

theorem typeText_inj {a b : FieldShape} (h : typeText a = typeText b) :
    a.type = b.type ∧ a.isList = b.isList := by
  have hlist : a.isList = b.isList := by
    rw [Bool.eq_iff_iff, ← bracket_mem_typeText_iff, ← bracket_mem_typeText_iff, h]
  refine ⟨?_, hlist⟩
  apply ElementType.name_inj
  unfold typeText at h
  rw [hlist] at h
  split at h
  · have htexts := congrArg String.toList h
    simp only [String.toList_append, List.append_assoc] at htexts
    exact String.toList_injective (List.append_cancel_right (List.append_cancel_left htexts))
  · exact h

/-!
# Lines
-/

theorem toList_containerText {shape : FieldShape} (h : shape.container = true) :
    (containerText shape).toList =
      ' ' :: ("(container of ".toList ++ (shape.item.toList ++ [')'])) := by
  rw [containerText, if_pos h, String.toList_append, String.toList_append, List.append_assoc]
  rfl

theorem containerText_eq_empty {shape : FieldShape} (h : shape.container = false) :
    containerText shape = "" := by
  rw [containerText, h, if_neg Bool.false_ne_true]

/-- What a type is followed by begins with a space, which no type holds. -/
theorem shapeText_inj {a b : FieldShape}
    (h : (typeText a).toList ++ (containerText a).toList =
      (typeText b).toList ++ (containerText b).toList) : SameShape a b := by
  have hspace : ∀ shape, ' ' ∉ (typeText shape).toList := fun shape => (unbroken_typeText shape).1
  cases ha : a.container with
  | true =>
      cases hb : b.container with
      | true =>
          rw [toList_containerText ha, toList_containerText hb] at h
          obtain ⟨htype, hcontainer⟩ := append_cons_inj (hspace a) (hspace b) h
          obtain ⟨htype, hlist⟩ := typeText_inj (String.toList_injective htype)
          have hitem := List.append_cancel_right (List.append_cancel_left hcontainer)
          exact ⟨htype, hlist, ha.trans hb.symm, fun _ => String.toList_injective hitem⟩
      | false =>
          rw [toList_containerText ha, containerText_eq_empty hb, String.toList_empty,
            List.append_nil] at h
          exact absurd (h ▸ List.mem_append_right _ List.mem_cons_self) (hspace b)
  | false =>
      cases hb : b.container with
      | true =>
          rw [toList_containerText hb, containerText_eq_empty ha, String.toList_empty,
            List.append_nil] at h
          exact absurd (h ▸ List.mem_append_right _ List.mem_cons_self) (hspace a)
      | false =>
          rw [containerText_eq_empty ha, containerText_eq_empty hb, String.toList_empty,
            List.append_nil, List.append_nil] at h
          obtain ⟨htype, hlist⟩ := typeText_inj (String.toList_injective h)
          refine ⟨htype, hlist, ha.trans hb.symm, ?_⟩
          intro hcontainer
          rw [ha] at hcontainer
          cases hcontainer

structure IsListable (name : String) (shape : FieldShape) : Prop where
  name : IsWord name.toList
  item : '\n' ∉ shape.item.toList

def fieldBody (name : String) (shape : FieldShape) : List Char :=
  name.toList ++ ' ' :: (List.replicate (24 - name.length) ' ' ++
    ((typeText shape).toList ++ (containerText shape).toList))

theorem replicate_append_cons (n : Nat) (c : Char) (cs : List Char) :
    List.replicate n c ++ c :: cs = c :: (List.replicate n c ++ cs) := by
  rw [← List.singleton_append, ← List.append_assoc, ← List.replicate_succ',
    List.replicate_succ, List.cons_append]

theorem toList_fieldLine (indent : Nat) (name : String) (shape : FieldShape) :
    (fieldLine indent name shape).toList =
      List.replicate indent ' ' ++ (fieldBody name shape ++ ['\n']) := by
  have hindent : (padRight indent "").toList = List.replicate indent ' ' :=
    toList_padRight indent ""
  have hspace : " ".toList = [' '] := rfl
  have hline : "\n".toList = ['\n'] := rfl
  simp only [fieldLine, fieldBody, String.toList_append, hindent, toList_padRight, hspace, hline,
    List.append_assoc, List.nil_append, List.cons_append, replicate_append_cons]

theorem line_not_mem_containerText {shape : FieldShape} (h : '\n' ∉ shape.item.toList) :
    '\n' ∉ (containerText shape).toList := by
  cases hcontainer : shape.container with
  | true =>
      simp [toList_containerText hcontainer, h]
  | false =>
      simp [containerText_eq_empty hcontainer]

theorem line_not_mem_fieldBody {name : String} {shape : FieldShape} (h : IsListable name shape) :
    '\n' ∉ fieldBody name shape := by
  have htype := (unbroken_typeText shape).2
  have hcontainer := line_not_mem_containerText h.item
  simp [fieldBody, h.name.unbroken.2, htype, hcontainer]

theorem fieldLine_inj {indent : Nat} {name name' : String} {shape shape' : FieldShape}
    {rest rest' : List Char} (h : IsListable name shape) (h' : IsListable name' shape')
    (hline : (fieldLine indent name shape).toList ++ rest =
      (fieldLine indent name' shape').toList ++ rest') :
    name = name' ∧ SameShape shape shape' ∧ rest = rest' := by
  simp only [toList_fieldLine, List.append_assoc, List.singleton_append] at hline
  obtain ⟨hbody, hrest⟩ := append_cons_inj (line_not_mem_fieldBody h) (line_not_mem_fieldBody h')
    (List.append_cancel_left hline)
  obtain ⟨hname, hshape⟩ := append_cons_inj h.name.unbroken.1 h'.name.unbroken.1 hbody
  have hname : name = name' := String.toList_injective hname
  rw [hname] at hshape
  exact ⟨hname, shapeText_inj (List.append_cancel_left hshape), hrest⟩

theorem fieldLine_ne_nil (indent : Nat) (name : String) (shape : FieldShape) (rest : List Char) :
    (fieldLine indent name shape).toList ++ rest ≠ [] := by
  simp [toList_fieldLine]

theorem fieldLines_entries {indent : Nat} {entries entries' : List (String × FieldShape)}
    (h : ∀ entry ∈ entries, IsListable entry.1 entry.2)
    (h' : ∀ entry ∈ entries', IsListable entry.1 entry.2)
    (hlines : (entries.flatMap fun entry => (fieldLine indent entry.1 entry.2).toList) =
      entries'.flatMap fun entry => (fieldLine indent entry.1 entry.2).toList) :
    List.Forall₂ (fun entry entry' => entry.1 = entry'.1 ∧ SameShape entry.2 entry'.2)
      entries entries' := by
  induction entries generalizing entries' with
  | nil =>
      cases entries' with
      | nil =>
          exact .nil
      | cons entry' entries' =>
          exact absurd hlines.symm (fieldLine_ne_nil _ _ _ _)
  | cons entry entries ih =>
      cases entries' with
      | nil =>
          exact absurd hlines (fieldLine_ne_nil _ _ _ _)
      | cons entry' entries' =>
          obtain ⟨hentry, hentries⟩ := List.forall_mem_cons.mp h
          obtain ⟨hentry', hentries'⟩ := List.forall_mem_cons.mp h'
          simp only [List.flatMap_cons] at hlines
          obtain ⟨hname, hshape, hrest⟩ := fieldLine_inj hentry hentry' hlines
          exact .cons ⟨hname, hshape⟩ (ih hentries hentries' hrest)

/-!
# Lists
-/

structure SameFields (fields fields' : Fields) : Prop where
  keys : fields.keys = fields'.keys
  shapes : ∀ name shape shape', fields.get? name = some shape → fields'.get? name = some shape' →
    SameShape shape shape'

theorem exists_of_forall₂ {α β : Type} {agree : α → β → Prop} {xs : List α} {ys : List β}
    (h : List.Forall₂ agree xs ys) {x : α} (hx : x ∈ xs) : ∃ y ∈ ys, agree x y := by
  induction h with
  | nil =>
      cases hx
  | @cons a b xs ys hfirst _ ih =>
      cases List.mem_cons.mp hx with
      | inl hx =>
          exact ⟨b, List.mem_cons_self, hx ▸ hfirst⟩
      | inr hx =>
          obtain ⟨y, hy, hagree⟩ := ih hx
          exact ⟨y, List.mem_cons_of_mem b hy, hagree⟩

theorem sameFields_of_entries {fields fields' : Fields}
    (h : List.Forall₂ (fun entry entry' => entry.1 = entry'.1 ∧ SameShape entry.2 entry'.2)
      fields.entries fields'.entries) : SameFields fields fields' := by
  constructor
  · rw [NameMap.keys, NameMap.keys, ← List.forall₂_eq_eq_eq, List.forall₂_map_left_iff,
      List.forall₂_map_right_iff]
    exact h.imp fun _ _ hentry => hentry.1
  · intro name shape shape' hshape hshape'
    obtain ⟨entry, hentry, hname, hsame⟩ := exists_of_forall₂ h (NameMap.mem_entries.mpr hshape)
    have hname : name = entry.1 := hname
    have hget : fields'.get? name = some entry.2 := by
      rw [← NameMap.mem_entries, hname]
      exact hentry
    rw [hget, Option.some.injEq] at hshape'
    rw [← hshape']
    exact hsame

theorem fieldLines_inj {indent : Nat} {fields fields' : Fields}
    (h : ∀ name shape, fields.get? name = some shape → IsListable name shape)
    (h' : ∀ name shape, fields'.get? name = some shape → IsListable name shape)
    (hlines : fieldLines indent fields = fieldLines indent fields') :
    SameFields fields fields' := by
  have htexts := congrArg String.toList hlines
  simp only [fieldLines, String.toList_join, List.flatMap_map] at htexts
  apply sameFields_of_entries
  apply fieldLines_entries _ _ htexts
  · intro entry hentry
    exact h entry.1 entry.2 (NameMap.mem_entries.mp hentry)
  · intro entry hentry
    exact h' entry.1 entry.2 (NameMap.mem_entries.mp hentry)

/-!
# Reports
-/

/-- Neither a table of relations nor a list of fields loses a row or what stands in it. -/
theorem texts_determine_rows :
    (∀ r r' : Relations, NamedByWords r → NamedByWords r' →
        relationTable r = relationTable r' → SameRelations r r') ∧
      ∀ (indent : Nat) (fields fields' : Fields),
        (∀ name shape, fields.get? name = some shape → IsListable name shape) →
        (∀ name shape, fields'.get? name = some shape → IsListable name shape) →
        fieldLines indent fields = fieldLines indent fields' → SameFields fields fields' := by
  constructor
  · intro r r' hr hr' htable
    exact relationTable_inj hr hr' htable
  · intro indent fields fields' h h' hlines
    exact fieldLines_inj h h' hlines

def longNamed (direct : Bool) : Relations where
  oneToMany := [⟨"collectionOfVolumesAndParts", "book", 2, 0.7⟩]
  parentChild := [⟨"collectionOfVolumesAndParts", "book", 0, direct⟩]

def bookFields (item : String) : Fields :=
  .ofList [("book", .list item .composite), ("parts", ⟨.string, true, "part of it", true⟩)]

theorem namedByWords_longNamed (direct : Bool) : NamedByWords (longNamed direct) := by
  have hnames : IsWord "collectionOfVolumesAndParts".toList ∧ IsWord "book".toList :=
    ⟨⟨by decide, by decide, by decide⟩, ⟨by decide, by decide, by decide⟩⟩
  constructor
  · exact List.forall_mem_singleton.mpr hnames
  · exact List.forall_mem_nil _
  · exact List.forall_mem_singleton.mpr hnames

theorem isListable_bookFields {item : String} (hitem : '\n' ∉ item.toList) :
    ∀ name shape, (bookFields item).get? name = some shape → IsListable name shape := by
  intro name shape hshape
  rw [bookFields, NameMap.get?_ofList] at hshape
  have hentry := NameMap.mem_of_lookup hshape
  simp only [List.reverse_cons, List.reverse_nil, List.nil_append, List.singleton_append,
    List.mem_cons, List.not_mem_nil, or_false, Prod.mk.injEq] at hentry
  rcases hentry with ⟨rfl, rfl⟩ | ⟨rfl, rfl⟩
  · exact ⟨⟨by decide, by decide, by decide⟩, by decide⟩
  · exact ⟨⟨by decide, by decide, by decide⟩, hitem⟩

/-- A name is longer than its column, and the reports leave out whether a relation is direct and
what the item of a plain list is called. -/
theorem texts_determine_rows_long :
    (NamedByWords (longNamed true) ∧ NamedByWords (longNamed false) ∧
        relationTable (longNamed true) = relationTable (longNamed false) ∧
        SameRelations (longNamed true) (longNamed false)) ∧
      '\n' ∉ "book".toList ∧ '\n' ∉ "any book".toList ∧
      fieldLines 2 (bookFields "book") = fieldLines 2 (bookFields "any book") ∧
      SameFields (bookFields "book") (bookFields "any book") := by
  have htable : relationTable (longNamed true) = relationTable (longNamed false) := rfl
  have hlines : fieldLines 2 (bookFields "book") = fieldLines 2 (bookFields "any book") := rfl
  have hbook : '\n' ∉ "book".toList := by decide
  have hany : '\n' ∉ "any book".toList := by decide
  refine ⟨⟨?_, ?_, htable, ?_⟩, hbook, hany, hlines, ?_⟩
  · exact namedByWords_longNamed true
  · exact namedByWords_longNamed false
  · exact texts_determine_rows.1 _ _ (namedByWords_longNamed true) (namedByWords_longNamed false)
      htable
  · exact texts_determine_rows.2 2 _ _ (isListable_bookFields hbook) (isListable_bookFields hany)
      hlines

end Report
end XmlShape
