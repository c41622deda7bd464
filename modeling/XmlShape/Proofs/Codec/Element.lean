import XmlShape.Codec.Element
import XmlShape.Proofs.Codec.Structure

/-!
# Elements read back

A tree is written by recursion over its elements and read by recursion over the value. The slots
of an element are those of any record, apart from the children, which the reader looks up on its
own way through the fields; on each level of the tree the two agree.
-/

namespace XmlShape
namespace Element

open Data

/-!
# Slots of an element
-/

def slotValues (e : Element) : List (Option Value) :=
  [some (.text e.name),
    if e.attributes = [] then none else some (.list (e.attributes.map pairValue)),
    if e.children = [] then none else some (.list (toValues e.children)),
    if e.text = "" then none else some (.text e.text)]

theorem listField_eq (name : String) (items : List Value) :
    listField name items =
      Value.optional name (if items = [] then none else some (.list items)) := by
  cases items <;> rfl

theorem toValues_eq_nil {es : List Element} : toValues es = [] ↔ es = [] := by
  cases es <;> simp [toValues]

theorem toValue_eq (e : Element) : e.toValue = .record (present fieldNames e.slotValues) := by
  obtain ⟨name, attributes, children, text⟩ := e
  have htext : (if text.isEmpty then [] else [("text", Value.text text)]) =
      Value.optional "text" (if text = "" then none else some (.text text)) := by
    by_cases h : text = "" <;> simp [h, Value.optional]
  rw [toValue, listField_eq, listField_eq, htext]
  simp only [List.map_eq_nil_iff, toValues_eq_nil]
  simp [slotValues, fieldNames, present, Value.optional]

theorem namedSlots_toValue (e : Element) :
    namedSlots fieldNames (present fieldNames e.slotValues) = some e.slotValues :=
  namedSlots_present (by decide) rfl

/-!
# Children
-/

theorem childrenOfFields?_eq (fields : List (String × Value)) :
    childrenOfFields? fields = orDefault [] elements? (fields.lookup "children") := by
  induction fields with
  | nil =>
      rfl
  | cons field fields ih =>
      obtain ⟨name, value⟩ := field
      rw [childrenOfFields?, NameMap.lookup_cons_ite, ih]
      by_cases h : name = "children"
      · rw [if_pos h, if_pos h.symm]
        rfl
      · rw [if_neg h, if_neg (Ne.symm h)]

theorem lookup_children (e : Element) :
    (present fieldNames e.slotValues).lookup "children" =
      if e.children = [] then none else some (.list (toValues e.children)) := by
  have hlookup : fieldNames.map (fun name => (present fieldNames e.slotValues).lookup name) =
      e.slotValues :=
    map_lookup_present (by decide) rfl
  simp only [fieldNames, slotValues, List.map_cons, List.cons.injEq] at hlookup
  exact hlookup.2.2.1

theorem pair?_pairValue (pair : String × String) : pair? (pairValue pair) = some pair := rfl

theorem assemble?_slotValues (e : Element) : assemble? e.slotValues e.children = some e := by
  have hattributes : orDefault [] (Value.items? · >>= List.mapM pair?)
      (if e.attributes = [] then none else some (.list (e.attributes.map pairValue))) =
        some e.attributes := by
    apply orDefault_ite id
    exact mapM_map fun pair _ => pair?_pairValue pair
  have htext : orDefault "" Value.text? (if e.text = "" then none else some (.text e.text)) =
      some e.text := by
    apply orDefault_ite id
    rfl
  simp only [slotValues, assemble?]
  rw [hattributes, htext]
  cases e
  rfl

/-!
# Trees
-/

theorem ofValue?_toValue_of_children {e : Element}
    (h : ofValues? (toValues e.children) = some e.children) : ofValue? e.toValue = some e := by
  have hchildren : childrenOfFields? (present fieldNames e.slotValues) = some e.children := by
    rw [childrenOfFields?_eq, lookup_children]
    exact orDefault_ite id h
  rw [toValue_eq, ofValue?, namedSlots_toValue, hchildren]
  exact assemble?_slotValues e

mutual

theorem ofValue?_toValue : (e : Element) → ofValue? e.toValue = some e
  | ⟨_, _, children, _⟩ => ofValue?_toValue_of_children (ofValues?_toValues children)

theorem ofValues?_toValues : (es : List Element) → ofValues? (toValues es) = some es
  | [] => by
      rw [toValues, ofValues?]
  | e :: es => by
      rw [toValues, ofValues?, ofValue?_toValue e, ofValues?_toValues es]
      rfl

end

end Element
end XmlShape
