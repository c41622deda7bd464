import XmlShape.Codec.Schema
import XmlShape.Proofs.NameMap

/-!
# Reading what is written

A structure is written as a record, in which fields may be left out, and read from the slots of
the fields. The slots of a record are the values it was written with, so a type reads back as
soon as the values of its fields do.
-/

namespace XmlShape
namespace Data

/-!
# Slots

The record that is written for some values of its fields. A value that is missing leaves no
trace, and its slot is found empty because no other field has the name.
-/

def present (names : List String) (values : List (Option Value)) : List (String × Value) :=
  (names.zip values).flatMap fun field => Value.optional field.1 field.2

theorem present_cons (name : String) (names : List String) (value? : Option Value)
    (values : List (Option Value)) :
    present (name :: names) (value? :: values) =
      Value.optional name value? ++ present names values := by
  rw [present, List.zip_cons_cons, List.flatMap_cons, present]

theorem sublist_keys_present (names : List String) (values : List (Option Value)) :
    ((present names values).map Prod.fst).Sublist names := by
  induction names generalizing values with
  | nil =>
      exact List.nil_sublist []
  | cons name names ih =>
      cases values with
      | nil =>
          exact List.nil_sublist _
      | cons value? values =>
          rw [present_cons, List.map_append]
          cases value? with
          | none =>
              exact (ih values).cons name
          | some value =>
              exact (ih values).cons_cons name

theorem lookup_optional_self (name : String) (value? : Option Value)
    (fields : List (String × Value)) (h : name ∉ fields.map Prod.fst) :
    (Value.optional name value? ++ fields).lookup name = value? := by
  cases value? with
  | none =>
      exact NameMap.lookup_eq_none h
  | some value =>
      exact (NameMap.lookup_cons_ite name name value fields).trans (if_pos rfl)

theorem lookup_optional_of_ne {name other : String} (h : other ≠ name) (value? : Option Value)
    (fields : List (String × Value)) :
    (Value.optional name value? ++ fields).lookup other = fields.lookup other := by
  cases value? with
  | none =>
      rfl
  | some value =>
      exact (NameMap.lookup_cons_ite name other value fields).trans (if_neg h)

theorem map_lookup_present {names : List String} {values : List (Option Value)}
    (hnames : names.Nodup) (hlength : names.length = values.length) :
    names.map (fun name => (present names values).lookup name) = values := by
  induction names generalizing values with
  | nil =>
      exact (List.length_eq_zero_iff.mp hlength.symm).symm
  | cons name names ih =>
      cases values with
      | nil =>
          cases hlength
      | cons value? values =>
          obtain ⟨hname, hnames⟩ := List.nodup_cons.mp hnames
          have hkeys : name ∉ (present names values).map Prod.fst := by
            intro hmem
            exact hname ((sublist_keys_present names values).subset hmem)
          have hrest : names.map (fun other => (present (name :: names)
              (value? :: values)).lookup other) = values := by
            rw [← ih hnames (Nat.succ.inj hlength)]
            apply List.map_congr_left
            intro other hother
            have hne : other ≠ name := by
              rintro rfl
              exact hname hother
            rw [present_cons, lookup_optional_of_ne hne, ih hnames (Nat.succ.inj hlength)]
          rw [List.map_cons, hrest, present_cons, lookup_optional_self name value? _ hkeys]

theorem namedSlots_present {names : List String} {values : List (Option Value)}
    (hnames : names.Nodup) (hlength : names.length = values.length) :
    namedSlots names (present names values) = some values := by
  have honce : names.all (fun name => (present names values).countP (·.1 == name) ≤ 1) := by
    rw [List.all_eq_true]
    intro name _
    have hcount := List.nodup_iff_count_le_one.mp
      (hnames.sublist (sublist_keys_present names values)) name
    rw [List.count, List.countP_map] at hcount
    exact decide_eq_true hcount
  rw [namedSlots, if_pos honce, map_lookup_present hnames hlength]

theorem slots_present {names : List String} {values : List (Option Value)} {v : Value}
    (hnames : names.Nodup) (hlength : names.length = values.length)
    (hwritten : v = .record (present names values)) : slots names v = some values := by
  subst hwritten
  exact namedSlots_present hnames hlength

/-!
# Values of fields
-/

section Fields

variable {α : Type}

@[simp] theorem required_some {ν : Type} (read : ν → Option α) (v : ν) :
    required read (some v) = read v := rfl

@[simp] theorem orDefault_some {ν : Type} (default : α) (read : ν → Option α) (v : ν) :
    orDefault default read (some v) = read v := rfl

/-- A field that is left out where it has its default is restored. -/
theorem orDefault_ite {default x : α} {read : Value → Option α} {p : Prop} [Decidable p]
    {v : Value} (hdefault : p → x = default) (hread : read v = some x) :
    orDefault default read (if p then none else some v) = some x := by
  by_cases hp : p
  · rw [if_pos hp, hdefault hp]
    rfl
  · rw [if_neg hp]
    exact hread

@[simp] theorem orNothing_text (text? : Option String) :
    orNothing Value.text? (text?.map .text) = some text? := by
  cases text? <;> rfl

@[simp] theorem text?_text (s : String) : (Value.text s).text? = some s := rfl

@[simp] theorem bool?_bool (b : Bool) : (Value.bool b).bool? = some b := rfl

theorem count?_count {n : Nat} (h : n ≤ maxCount) : (Value.count n).count? = some n :=
  if_pos h

theorem real?_measure {x : Float} (h : Decimal.isFinite x = true) :
    (Value.measure x).real? = some x := by
  rw [Value.measure, if_pos h]
  rfl

/-!
# Lists and maps
-/

theorem mapM_map {β : Type} {write : α → β} {read : β → Option α} {xs : List α}
    (h : ∀ x ∈ xs, read (write x) = some x) : (xs.map write).mapM read = some xs := by
  induction xs with
  | nil =>
      rfl
  | cons x xs ih =>
      rw [List.map_cons, List.mapM_cons, h x List.mem_cons_self,
        ih fun y hy => h y (List.mem_cons_of_mem x hy)]
      rfl

theorem listOf?_listValue {write : α → Value} {read : Value → Option α} {xs : List α}
    (h : ∀ x ∈ xs, read (write x) = some x) : listOf? read (listValue write xs) = some xs :=
  mapM_map h

/-- Keys need no condition: a record may have any names, and those of a map are distinct. -/
theorem mapOf?_mapValue {write : α → Value} {read : Value → Option α} {m : NameMap α}
    (h : ∀ x ∈ m.values, read (write x) = some x) : mapOf? read (mapValue write m) = some m := by
  have hpairs : (m.toList.map fun entry => (entry.1, write entry.2)).mapM
      (fun field => (field.1, ·) <$> read field.2) = some m.toList := by
    apply mapM_map
    intro entry hentry
    have hx : read (write entry.2) = some entry.2 := h _ (List.mem_map_of_mem hentry)
    show (entry.1, ·) <$> read (write entry.2) = some entry
    rw [hx]
    rfl
  show ((m.toList.map fun entry => (entry.1, write entry.2)).mapM
    (fun field => (field.1, ·) <$> read field.2) >>= fun pairs => some (.ofList pairs)) = some m
  rw [hpairs]
  exact congrArg some m.ofList_toList

end Fields

end Data
end XmlShape
