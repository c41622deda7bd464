import Mathlib.Algebra.Ring.Nat
import Mathlib.Data.List.Sort
import XmlShape.NameMap

/-!
# Laws of maps from names

A map is known by what it holds at each name. This module says what every operation on maps does
to that view, and that maps with the same view are equal.
-/

namespace XmlShape
namespace NameMap

universe u v

variable {α : Type u} {β : Type v}

/-!
# Entries

Nothing is found at a name below all keys, which is what the head of a sorted list relies on.
-/

theorem lookup_cons_ite (key name : String) (value : α) (entries : List (String × α)) :
    ((key, value) :: entries).lookup name =
      if name = key then some value else entries.lookup name := by
  rw [List.lookup_cons]
  by_cases h : name = key
  · simp [h]
  · rw [if_neg h, beq_eq_false_iff_ne.mpr h]

theorem lookup_eq_none {entries : List (String × α)} {key : String}
    (h : key ∉ entries.map Prod.fst) : entries.lookup key = none := by
  rw [List.lookup_eq_none_iff]
  intro entry hentry
  have hne : key ≠ entry.1 := by
    rintro rfl
    exact h (List.mem_map_of_mem hentry)
  simpa using hne

theorem lookup_eq_none_of_lt {entries : List (String × α)} {key : String}
    (h : ∀ name ∈ entries.map Prod.fst, key < name) : entries.lookup key = none := by
  apply lookup_eq_none
  intro hmem
  exact String.lt_irrefl key (h key hmem)

theorem lookup_place {key : String} {f : Option α → α} {entries : List (String × α)}
    (h : (entries.map Prod.fst).Pairwise (· < ·)) (name : String) :
    (place key f entries).lookup name =
      if name = key then some (f (entries.lookup key)) else entries.lookup name := by
  induction entries with
  | nil =>
      exact lookup_cons_ite key name (f none) []
  | cons entry rest ih =>
      obtain ⟨other, value⟩ := entry
      rw [List.map_cons, List.pairwise_cons] at h
      unfold place
      by_cases hlt : key < other
      · have hnone : ((other, value) :: rest).lookup key = none := by
          apply lookup_eq_none_of_lt
          intro below hbelow
          rw [List.map_cons, List.mem_cons] at hbelow
          rcases hbelow with rfl | hbelow
          · exact hlt
          · exact String.lt_trans hlt (h.1 below hbelow)
        rw [if_pos hlt, lookup_cons_ite, hnone]
      · rw [if_neg hlt]
        by_cases heq : key = other
        · subst heq
          simp only [if_true, lookup_cons_ite]
          by_cases hname : name = key <;> simp [hname]
        · rw [if_neg heq, lookup_cons_ite, ih h.2, lookup_cons_ite, lookup_cons_ite, if_neg heq]
          by_cases hname : name = other
          · have hne : name ≠ key := by
              rintro rfl
              exact heq hname
            simp [hname ▸ hne, hname]
          · simp [hname]

theorem lookup_of_mem {entries : List (String × α)}
    (h : (entries.map Prod.fst).Pairwise (· < ·)) {name : String} {value : α}
    (hmem : (name, value) ∈ entries) : entries.lookup name = some value := by
  induction entries with
  | nil =>
      cases hmem
  | cons entry rest ih =>
      obtain ⟨other, first⟩ := entry
      rw [List.map_cons, List.pairwise_cons] at h
      rw [lookup_cons_ite]
      rcases List.mem_cons.mp hmem with heq | hrest
      · cases heq
        simp
      · have hlt : other < name := h.1 name (List.mem_map_of_mem hrest)
        have hne : name ≠ other := by
          rintro rfl
          exact String.lt_irrefl name hlt
        rw [if_neg hne]
        exact ih h.2 hrest

theorem mem_of_lookup {entries : List (String × α)} {name : String} {value : α}
    (h : entries.lookup name = some value) : (name, value) ∈ entries := by
  induction entries with
  | nil =>
      cases h
  | cons entry rest ih =>
      obtain ⟨other, first⟩ := entry
      rw [lookup_cons_ite] at h
      by_cases hname : name = other
      · rw [if_pos hname] at h
        cases h
        rw [hname]
        exact List.mem_cons_self
      · rw [if_neg hname] at h
        exact List.mem_cons_of_mem _ (ih h)

theorem lookup_map (f : String → α → β) (entries : List (String × α)) (name : String) :
    (entries.map fun entry => (entry.1, f entry.1 entry.2)).lookup name =
      (entries.lookup name).map (f name) := by
  induction entries with
  | nil =>
      rfl
  | cons entry rest ih =>
      obtain ⟨other, value⟩ := entry
      rw [List.map_cons, lookup_cons_ite, lookup_cons_ite, ih]
      by_cases hname : name = other <;> simp [hname]

/-!
# What a map holds at a name
-/

@[simp] theorem get?_empty (name : String) : (empty : NameMap α).get? name = none := rfl

@[simp] theorem keys_empty : (empty : NameMap α).keys = [] := rfl

theorem get?_update (m : NameMap α) (key : String) (f : Option α → α) (name : String) :
    (m.update key f).get? name = if name = key then some (f (m.get? key)) else m.get? name :=
  lookup_place m.sorted name

theorem get?_insert (m : NameMap α) (key : String) (value : α) (name : String) :
    (m.insert key value).get? name = if name = key then some value else m.get? name :=
  get?_update m key _ name

theorem get?_mapValues (f : String → α → β) (m : NameMap α) (name : String) :
    (m.mapValues f).get? name = (m.get? name).map (f name) :=
  lookup_map f m.entries name

theorem mem_entries {m : NameMap α} {name : String} {value : α} :
    (name, value) ∈ m.entries ↔ m.get? name = some value :=
  ⟨lookup_of_mem m.sorted, mem_of_lookup⟩

theorem mem_keys {m : NameMap α} {name : String} :
    name ∈ m.keys ↔ (m.get? name).isSome = true := by
  rw [Option.isSome_iff_exists, keys, List.mem_map]
  constructor
  · rintro ⟨⟨key, value⟩, hmem, rfl⟩
    exact ⟨value, mem_entries.mp hmem⟩
  · rintro ⟨value, hvalue⟩
    exact ⟨(name, value), mem_entries.mpr hvalue, rfl⟩

theorem mem_keys_insert {m : NameMap α} {key name : String} {value : α} :
    name ∈ (m.insert key value).keys ↔ name = key ∨ name ∈ m.keys := by
  rw [mem_keys, mem_keys, get?_insert]
  by_cases hname : name = key <;> simp [hname]

/-- Maps that hold the same at every name are equal, because their entries are in order. -/
theorem ext_get? {m n : NameMap α} (h : ∀ name, m.get? name = n.get? name) : m = n := by
  have hsorted : ∀ k : NameMap α, k.entries.Pairwise fun a b => a.1 < b.1 := by
    intro k
    exact List.pairwise_map.mp k.sorted
  have : Std.Antisymm fun a b : String × α => a.1 < b.1 :=
    ⟨fun a b hab hba => absurd hba (String.lt_asymm hab)⟩
  have : Std.Irrefl fun a b : String × α => a.1 < b.1 :=
    ⟨fun a => String.lt_irrefl a.1⟩
  apply NameMap.ext
  apply (hsorted m).eq_of_mem_iff (hsorted n)
  rintro ⟨name, value⟩
  rw [mem_entries, mem_entries, h]

/-- Of maps that have a key or lack it both, `f` tells the same there if it does so of the values. -/
theorem map_get?_eq {f : α → β} {m n : NameMap α} {name : String}
    (hkey : name ∈ m.keys ↔ name ∈ n.keys)
    (h : ∀ value value', m.get? name = some value → n.get? name = some value' →
      f value = f value') : (m.get? name).map f = (n.get? name).map f := by
  have hsome : (m.get? name).isSome = (n.get? name).isSome := by
    rw [Bool.eq_iff_iff, ← mem_keys, ← mem_keys]
    exact hkey
  cases hm : m.get? name with
  | none =>
      rw [hm] at hsome
      rw [Option.isNone_iff_eq_none.mp (Option.isSome_eq_false_iff.mp hsome.symm)]
  | some value =>
      rw [hm] at hsome
      obtain ⟨value', hn⟩ := Option.isSome_iff_exists.mp hsome.symm
      rw [hn, Option.map_some, Option.map_some, h value value' hm hn]

theorem ext_keys {m n : NameMap α} (hkeys : ∀ name, name ∈ m.keys ↔ name ∈ n.keys)
    (h : ∀ name value value', m.get? name = some value → n.get? name = some value' →
      value = value') : m = n := by
  apply ext_get?
  intro name
  have hname := map_get?_eq (f := id) (hkeys name) (h name)
  rwa [Option.map_id_apply, Option.map_id_apply] at hname

theorem keys_eq_of_mem_iff {m : NameMap α} {n : NameMap β}
    (h : ∀ name, name ∈ m.keys ↔ name ∈ n.keys) : m.keys = n.keys := by
  have : Std.Antisymm fun a b : String => a < b :=
    ⟨fun a b hab hba => absurd hba (String.lt_asymm hab)⟩
  have : Std.Irrefl fun a b : String => a < b :=
    ⟨String.lt_irrefl⟩
  apply m.sorted.eq_of_mem_iff n.sorted
  exact h

theorem mapValues_id (m : NameMap α) : (m.mapValues fun _ => id) = m := by
  apply ext_get?
  intro name
  rw [get?_mapValues, Option.map_id_apply]

theorem mapValues_update {f : α → β} {put : Option α → α} {put' : Option β → β}
    (h : ∀ value?, f (put value?) = put' (value?.map f)) (m : NameMap α) (key : String) :
    (m.update key put).mapValues (fun _ => f) = (m.mapValues fun _ => f).update key put' := by
  apply ext_get?
  intro name
  rw [get?_mapValues, get?_update, get?_update, get?_mapValues, get?_mapValues]
  by_cases hname : name = key <;> simp [hname, h]

theorem foldl_insert_get? (pairs : List (String × α)) (m : NameMap α) (name : String) :
    (pairs.foldl (fun m pair => m.insert pair.1 pair.2) m).get? name =
      (pairs.reverse.lookup name).or (m.get? name) := by
  induction pairs generalizing m with
  | nil =>
      rfl
  | cons pair pairs ih =>
      rw [List.foldl_cons, ih, get?_insert, List.reverse_cons, List.lookup_append,
        lookup_cons_ite]
      by_cases hname : name = pair.1 <;> simp [hname]

theorem get?_ofList (pairs : List (String × α)) (name : String) :
    (ofList pairs).get? name = pairs.reverse.lookup name := by
  rw [ofList, foldl_insert_get?, get?_empty, Option.or_none]

/-!
# Distinct keys

Where no key repeats, the first value of a key is the last one, and no pair is lost in a map.
-/

theorem nodup_keys (m : NameMap α) : m.keys.Nodup :=
  m.sorted.imp String.ne_of_lt

theorem length_keys (m : NameMap α) : m.keys.length = m.size :=
  List.length_map Prod.fst

theorem nodup_entries (m : NameMap α) : m.entries.Nodup :=
  m.nodup_keys.of_map Prod.fst

theorem lookup_reverse {pairs : List (String × α)} (h : (pairs.map Prod.fst).Nodup)
    (name : String) : pairs.reverse.lookup name = pairs.lookup name := by
  induction pairs with
  | nil =>
      rfl
  | cons pair pairs ih =>
      obtain ⟨key, value⟩ := pair
      rw [List.map_cons, List.nodup_cons] at h
      rw [List.reverse_cons, List.lookup_append, ih h.2, lookup_cons_ite, lookup_cons_ite,
        List.lookup_nil]
      by_cases hname : name = key
      · have hnone : pairs.lookup name = none := lookup_eq_none (hname ▸ h.1)
        rw [hnone, if_pos hname, Option.none_or]
      · rw [if_neg hname, if_neg hname, Option.or_none]

theorem mem_keys_ofList {pairs : List (String × α)} {name : String} :
    name ∈ (ofList pairs).keys ↔ name ∈ pairs.map Prod.fst := by
  have hmem : name ∈ pairs.reverse.map Prod.fst ↔ name ∈ pairs.map Prod.fst := by
    rw [List.map_reverse, List.mem_reverse]
  rw [mem_keys, get?_ofList, ← hmem, Option.isSome_iff_ne_none]
  constructor
  · intro hsome
    by_contra hnot
    exact hsome (lookup_eq_none hnot)
  · intro hname hnone
    obtain ⟨pair, hpair, rfl⟩ := List.mem_map.mp hname
    have hne := List.lookup_eq_none_iff.mp hnone pair hpair
    simp at hne

theorem ofList_toList (m : NameMap α) : ofList m.toList = m := by
  apply ext_get?
  intro name
  rw [get?_ofList]
  exact lookup_reverse m.nodup_keys name

theorem size_ofList {pairs : List (String × α)} (h : (pairs.map Prod.fst).Nodup) :
    (ofList pairs).size = pairs.length := by
  have hkeys : (ofList pairs).keys.Perm (pairs.map Prod.fst) := by
    rw [List.perm_ext_iff_of_nodup (nodup_keys _) h]
    intro name
    exact mem_keys_ofList
  rw [← length_keys, hkeys.length_eq, List.length_map]

/-!
# Counting
-/

theorem count_entries [DecidableEq α] (m : NameMap α) (name : String) (value : α) :
    m.entries.count (name, value) = if m.get? name = some value then 1 else 0 := by
  rw [m.nodup_entries.count]
  simp only [mem_entries]

theorem sum_place_count (key : String) (entries : List (String × Nat)) :
    ((place key (fun n? => n?.getD 0 + 1) entries).map Prod.snd).sum =
      (entries.map Prod.snd).sum + 1 := by
  induction entries with
  | nil =>
      rfl
  | cons entry rest ih =>
      obtain ⟨other, n⟩ := entry
      unfold place
      split
      · simp [Nat.add_comm]
      · split
        · simp [Nat.add_right_comm]
        · simp [ih, Nat.add_assoc]

theorem sum_values_update_count (m : NameMap Nat) (key : String) :
    (m.update key fun n? => n?.getD 0 + 1).values.sum = m.values.sum + 1 :=
  sum_place_count key m.entries

end NameMap
end XmlShape
