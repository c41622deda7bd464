/-!
# Maps from names

A finite map keyed by strings, kept as the list of its entries by ascending key. The order is
that of code points, and since the list is strictly sorted two maps with the same entries are
equal.
-/

namespace XmlShape

universe u v

/-- A finite map from names, listed by ascending key. -/
structure NameMap (α : Type u) where
  entries : List (String × α)
  sorted : (entries.map Prod.fst).Pairwise (· < ·)

namespace NameMap

variable {α : Type u} {β : Type v}

/-! # Sorted entries

The operations on entries that keep them sorted. -/

def place (key : String) (f : Option α → α) : List (String × α) → List (String × α)
  | [] => [(key, f none)]
  | (other, value) :: rest =>
    if key < other then (key, f none) :: (other, value) :: rest
    else if key = other then (other, f (some value)) :: rest
    else (other, value) :: place key f rest

theorem mem_map_fst_place {key name : String} {f : Option α → α} {entries : List (String × α)} :
    name ∈ (place key f entries).map Prod.fst ↔ name = key ∨ name ∈ entries.map Prod.fst := by
  induction entries with
  | nil => simp [place]
  | cons entry rest ih =>
    obtain ⟨other, value⟩ := entry
    unfold place
    split
    · simp
    · split
      · next h => simp [h]
      · simp only [List.map_cons, List.mem_cons, ih]
        exact or_left_comm

theorem sorted_place {key : String} {f : Option α → α} {entries : List (String × α)}
    (h : (entries.map Prod.fst).Pairwise (· < ·)) :
    ((place key f entries).map Prod.fst).Pairwise (· < ·) := by
  induction entries with
  | nil => simp [place]
  | cons entry rest ih =>
    obtain ⟨other, value⟩ := entry
    simp only [List.map_cons, List.pairwise_cons] at h
    unfold place
    split
    · next hlt =>
      simp only [List.map_cons, List.pairwise_cons, List.mem_cons, forall_eq_or_imp]
      exact ⟨⟨hlt, fun name hname => String.lt_trans hlt (h.1 name hname)⟩, h.1, h.2⟩
    · next hlt =>
      split
      · simpa using h
      · next hne =>
        simp only [List.map_cons, List.pairwise_cons]
        refine ⟨fun name hname => ?_, ih h.2⟩
        rcases mem_map_fst_place.1 hname with rfl | hmem
        · have hle : other ≤ name := String.not_lt.1 hlt
          rcases Decidable.em (other < name) with hlt' | hge
          · exact hlt'
          · exact absurd (String.le_antisymm (String.not_lt.1 hge) hle) hne
        · exact h.1 name hmem

/-! # Operations -/

def empty : NameMap α :=
  ⟨[], List.Pairwise.nil⟩

instance : EmptyCollection (NameMap α) := ⟨empty⟩

instance : Inhabited (NameMap α) := ⟨empty⟩

def get? (m : NameMap α) (key : String) : Option α :=
  m.entries.lookup key

def update (m : NameMap α) (key : String) (f : Option α → α) : NameMap α :=
  ⟨place key f m.entries, sorted_place m.sorted⟩

def insert (m : NameMap α) (key : String) (value : α) : NameMap α :=
  m.update key fun _ => value

/-- The map of a list of pairs, of which the last with a key counts. -/
def ofList (pairs : List (String × α)) : NameMap α :=
  pairs.foldl (fun m pair => m.insert pair.1 pair.2) empty

def toList (m : NameMap α) : List (String × α) :=
  m.entries

def keys (m : NameMap α) : List String :=
  m.entries.map Prod.fst

def values (m : NameMap α) : List α :=
  m.entries.map Prod.snd

def size (m : NameMap α) : Nat :=
  m.entries.length

def isEmpty (m : NameMap α) : Bool :=
  m.entries.isEmpty

def mapValues (f : String → α → β) (m : NameMap α) : NameMap β :=
  ⟨m.entries.map fun entry => (entry.1, f entry.1 entry.2), by
    simpa [List.map_map, Function.comp_def] using m.sorted⟩

@[ext] theorem ext {m n : NameMap α} (h : m.entries = n.entries) : m = n := by
  cases m
  cases n
  congr

theorem mem_keys_of_get? {m : NameMap α} {key : String} {value : α}
    (h : m.get? key = some value) : key ∈ m.keys := by
  obtain ⟨before, after, hentries, _⟩ := List.lookup_eq_some_iff.mp h
  rw [keys, hentries]
  simp

instance [BEq α] : BEq (NameMap α) := ⟨fun m n => m.entries == n.entries⟩

instance [Repr α] : Repr (NameMap α) := ⟨fun m => reprPrec m.entries⟩

end NameMap

/-! # Names that are left

A search that never takes a name twice ends because fewer and fewer names are left. -/

theorem length_filter_not_mem_lt {names seen : List String} {name : String}
    (hname : name ∈ names) (hnew : name ∉ seen) :
    (names.filter (· ∉ name :: seen)).length < (names.filter (· ∉ seen)).length := by
  have hleft : names.filter (· ∉ name :: seen) =
      (names.filter (· ∉ seen)).filter (· ≠ name) := by
    rw [List.filter_filter]
    apply List.filter_congr
    intro other _
    by_cases hother : other = name <;> simp [hother]
  rw [hleft]
  exact List.length_filter_lt_length_iff_exists.2 ⟨name, by simp [hname, hnew], by simp⟩

/-! # Sets of names -/

abbrev NameSet := NameMap Unit

end XmlShape
