import XmlShape.Proofs.Schema.Survey

/-!
# Occurrence counts

The occurrence count of a record depends on when it is made: after the element has been entered
and everything below it has been walked, but before anything that comes after it. Places are given
addresses here, so that one can say which elements have been entered by then.
-/

namespace XmlShape
namespace Schema

/-!
# Addresses

The address of an element is the way down to it, by the numbers of the children that are taken.
-/

structure Place extends Visit where
  address : List Nat

def Place.name (v : Place) : String :=
  v.element.name

def Place.below (index : Nat) (v : Place) : Place :=
  { v with address := index :: v.address }

mutual

def places (ancestors : List String) : Element → List Place
  | ⟨name, attributes, children, text⟩ =>
      placesAll (name :: ancestors) 0 children ++
        [⟨⟨⟨name, attributes, children, text⟩, ancestors⟩, []⟩]

def placesAll (ancestors : List String) (index : Nat) : List Element → List Place
  | [] => []
  | e :: es => (places ancestors e).map (·.below index) ++ placesAll ancestors (index + 1) es

end

def startsBefore : List Nat → List Nat → Bool
  | _, [] => false
  | [], _ :: _ => true
  | i :: a, j :: b => i < j || (i == j && startsBefore a b)

def isEarlierSibling (a b : List Nat) : Bool :=
  a.length == b.length && a.dropLast == b.dropLast && startsBefore a b

/-- The element at the first address has been entered when everything at and below the second has
been walked. -/
def isEntered (a b : List Nat) : Bool :=
  startsBefore a b || b.isPrefixOf a

/-- How many places of a list bear the name of a place and are related to its address. -/
def countIn (related : List Nat → List Nat → Bool) (ps : List Place) (v : Place) : Nat :=
  ps.countP fun u => u.name == v.name && related u.address v.address

/-- The number of elements of the same name that a record takes into account: in the whole
document those entered by then, and among siblings the earlier ones and the element itself. -/
def occurrencesAt (scope : Scope) (root : Element) (v : Place) : Nat :=
  match scope with
  | .document => countIn isEntered (places [] root) v
  | .parent => countIn isEarlierSibling (places [] root) v + 1

theorem places_eq (ancestors : List String) (e : Element) :
    places ancestors e = placesAll (e.name :: ancestors) 0 e.children ++ [⟨⟨e, ancestors⟩, []⟩] := by
  cases e
  rfl

/-!
# Comparing addresses
-/

@[simp] theorem isEntered_nil_right (a : List Nat) : isEntered a [] = true := by
  simp [isEntered]

@[simp] theorem isEntered_nil_left (j : Nat) (b : List Nat) : isEntered [] (j :: b) = true := by
  simp [isEntered, startsBefore]

theorem isEntered_cons_cons (i j : Nat) (a b : List Nat) :
    isEntered (i :: a) (j :: b) = (decide (i < j) || (i == j && isEntered a b)) := by
  by_cases hij : i = j
  · subst hij
    simp [isEntered, startsBefore]
  · have hne : (i == j) = false := beq_false_of_ne hij
    simp [isEntered, startsBefore, hne, Ne.symm hij]

theorem isEntered_self (a : List Nat) : isEntered a a = true := by
  induction a with
  | nil =>
      rfl
  | cons i a ih =>
      rw [isEntered_cons_cons, ih]
      simp

theorem isEntered_of_isEarlierSibling {a b : List Nat} (h : isEarlierSibling a b = true) :
    isEntered a b = true := by
  simp only [isEarlierSibling, Bool.and_eq_true] at h
  simp [isEntered, h.2]

theorem not_isEarlierSibling_self (a : List Nat) : isEarlierSibling a a = false := by
  have hstarts : startsBefore a a = false := by
    induction a with
    | nil =>
        rfl
    | cons i a ih =>
        rw [startsBefore, ih]
        simp
  simp [isEarlierSibling, hstarts]

@[simp] theorem isEarlierSibling_nil_right (a : List Nat) : isEarlierSibling a [] = false := by
  simp [isEarlierSibling, startsBefore]

@[simp] theorem isEarlierSibling_nil_left (b : List Nat) : isEarlierSibling [] b = false := by
  cases b with
  | nil =>
      rfl
  | cons j b =>
      rfl

theorem isEarlierSibling_singleton (i j : Nat) (a : List Nat) :
    isEarlierSibling (i :: a) [j] = (a == [] && i < j) := by
  cases a with
  | nil =>
      simp [isEarlierSibling, startsBefore]
  | cons k a =>
      simp [isEarlierSibling]

theorem isEarlierSibling_cons_cons (i j : Nat) (a : List Nat) {b : List Nat} (h : b ≠ []) :
    isEarlierSibling (i :: a) (j :: b) = (i == j && isEarlierSibling a b) := by
  cases a with
  | nil =>
      cases b with
      | nil =>
          exact absurd rfl h
      | cons k b =>
          simp [isEarlierSibling]
  | cons k a =>
      cases b with
      | nil =>
          exact absurd rfl h
      | cons l b =>
          by_cases hij : i = j
          · simp [isEarlierSibling, startsBefore, hij]
          · have hne : (i == j) = false := beq_false_of_ne hij
            simp [isEarlierSibling, hne]

/-!
# Places and their names
-/

mutual

theorem map_toVisit_places (ancestors : List String) : (e : Element) →
    (places ancestors e).map (·.toVisit) = visits ancestors e
  | ⟨name, attributes, children, text⟩ => by
      rw [places, visits, List.map_append, map_toVisit_placesAll (name :: ancestors) children 0]
      rfl

theorem map_toVisit_placesAll (ancestors : List String) : (es : List Element) →
    ∀ index, (placesAll ancestors index es).map (·.toVisit) = visitsAll ancestors es
  | [], _ => rfl
  | e :: es, index => by
      rw [placesAll, visitsAll, List.map_append, List.map_map,
        ← map_toVisit_places ancestors e, map_toVisit_placesAll ancestors es (index + 1)]
      rfl

end

theorem map_name_eq (ps : List Place) :
    ps.map (·.name) = ((ps.map (·.toVisit)).map (·.element)).map (·.name) := by
  rw [List.map_map, List.map_map]
  rfl

theorem map_name_places (ancestors : List String) (e : Element) :
    (places ancestors e).map (·.name) = names e := by
  rw [map_name_eq, map_toVisit_places, map_element_visits_eq, names]

theorem map_name_placesAll (ancestors : List String) (index : Nat) (es : List Element) :
    (placesAll ancestors index es).map (·.name) = es.flatMap names := by
  rw [map_name_eq, map_toVisit_placesAll, map_element_visitsAll_eq, List.map_flatMap]
  rfl

theorem placesAll_append (ancestors : List String) (index : Nat) (es fs : List Element) :
    placesAll ancestors index (es ++ fs) =
      placesAll ancestors index es ++ placesAll ancestors (index + es.length) fs := by
  induction es generalizing index with
  | nil =>
      rfl
  | cons e es ih =>
      rw [List.cons_append, placesAll, placesAll, ih, List.append_assoc, List.length_cons,
        Nat.add_assoc, Nat.add_comm 1]

theorem exists_address_of_mem_placesAll {ancestors : List String} {es : List Element}
    {index : Nat} {v : Place} (h : v ∈ placesAll ancestors index es) :
    ∃ n a, v.address = n :: a ∧ index ≤ n ∧ n < index + es.length := by
  induction es generalizing index with
  | nil =>
      cases h
  | cons e es ih =>
      rw [placesAll, List.mem_append, List.mem_map] at h
      rw [List.length_cons]
      rcases h with ⟨w, _, rfl⟩ | h
      · exact ⟨index, w.address, rfl, Nat.le_refl index, by omega⟩
      · rcases ih h with ⟨n, a, haddress, hle, hlt⟩
        exact ⟨n, a, haddress, by omega, by omega⟩

/-!
# Counting places
-/

section Counting

variable {related : List Nat → List Nat → Bool} {v : Place}

theorem countIn_append (ps qs : List Place) :
    countIn related (ps ++ qs) v = countIn related ps v + countIn related qs v :=
  List.countP_append

theorem countIn_eq_zero {ps : List Place} (h : ∀ u ∈ ps, related u.address v.address = false) :
    countIn related ps v = 0 := by
  rw [countIn, List.countP_eq_zero]
  intro u hu
  simp [h u hu]

theorem countIn_eq_count {ps : List Place} (h : ∀ u ∈ ps, related u.address v.address = true) :
    countIn related ps v = (ps.map (·.name)).count v.name := by
  rw [countIn, List.count, List.countP_map]
  apply List.countP_congr
  intro u hu
  simp [h u hu]

theorem countIn_map_below {index : Nat}
    (h : ∀ a, related (index :: a) (index :: v.address) = related a v.address)
    (ps : List Place) :
    countIn related (ps.map (·.below index)) (v.below index) = countIn related ps v := by
  rw [countIn, countIn, List.countP_map]
  apply List.countP_congr
  intro u _
  simp only [Function.comp_apply, Place.below, h]
  rfl

theorem countIn_places (ancestors : List String) (e : Element) :
    countIn related (places ancestors e) v =
      countIn related (placesAll (e.name :: ancestors) 0 e.children) v +
        if related [] v.address then [e.name].count v.name else 0 := by
  rw [places_eq, countIn_append]
  congr 1
  simp only [countIn, List.countP_singleton, List.count_singleton, Place.name]
  cases related [] v.address <;> simp

end Counting

theorem countIn_isEntered_root (ancestors : List String) (e : Element) :
    countIn isEntered (places ancestors e) ⟨⟨e, ancestors⟩, []⟩ = (names e).count e.name := by
  rw [countIn_eq_count, map_name_places]
  · rfl
  · intro u _
    exact isEntered_nil_right u.address

theorem countIn_isEarlierSibling_singleton {ancestors : List String} {es : List Element}
    {index n : Nat} (hle : index + es.length ≤ n) {v : Place} (hv : v.address = [n]) :
    countIn isEarlierSibling (placesAll ancestors index es) v =
      (es.map (·.name)).count v.name := by
  induction es generalizing index with
  | nil =>
      rfl
  | cons e es ih =>
      rw [List.length_cons] at hle
      have hbelow : countIn isEarlierSibling
          ((placesAll (e.name :: ancestors) 0 e.children).map (·.below index)) v = 0 := by
        apply countIn_eq_zero
        intro u hu
        rcases List.mem_map.mp hu with ⟨w, hw, rfl⟩
        rcases exists_address_of_mem_placesAll hw with ⟨k, a, haddress, _, _⟩
        rw [hv, Place.below, haddress, isEarlierSibling_singleton]
        rfl
      have hself : countIn isEarlierSibling [Place.below index ⟨⟨e, ancestors⟩, []⟩] v =
          [e.name].count v.name := by
        have hlt : index < n := by
          omega
        simp [countIn, Place.below, hv, isEarlierSibling_singleton, hlt, Place.name,
          List.count_singleton, List.countP_singleton]
      rw [placesAll, countIn_append, ih (by omega), places_eq, List.map_append, countIn_append,
        hbelow, List.map_singleton, hself, Nat.zero_add, ← List.count_append]
      rfl

/-!
# Children one after another

For a place below the next child, the places of the children before it have all been entered, and
those of the children after it have not.
-/

section Children

variable (ancestors : List String) (done : List Element) (e : Element) (es : List Element)
  (w : Place)

theorem placesAll_split :
    placesAll ancestors 0 (done ++ e :: es) =
      placesAll ancestors 0 done ++
        ((places ancestors e).map (·.below done.length) ++
          placesAll ancestors (done.length + 1) es) := by
  rw [placesAll_append, Nat.zero_add, placesAll]

theorem countIn_isEntered_below :
    countIn isEntered (placesAll ancestors 0 (done ++ e :: es)) (w.below done.length) =
      (done.flatMap names).count w.name + countIn isEntered (places ancestors e) w := by
  have hdone : countIn isEntered (placesAll ancestors 0 done) (w.below done.length) =
      (done.flatMap names).count w.name := by
    rw [countIn_eq_count, map_name_placesAll]
    · rfl
    · intro u hu
      rcases exists_address_of_mem_placesAll hu with ⟨n, a, haddress, _, hlt⟩
      rw [haddress, Place.below, isEntered_cons_cons]
      simp only [Bool.or_eq_true, decide_eq_true_eq]
      exact Or.inl (by omega)
  have hrest : countIn isEntered (placesAll ancestors (done.length + 1) es)
      (w.below done.length) = 0 := by
    apply countIn_eq_zero
    intro u hu
    rcases exists_address_of_mem_placesAll hu with ⟨n, a, haddress, hle, _⟩
    have hne : (n == done.length) = false := beq_false_of_ne (by omega)
    have hlt : ¬ n < done.length := by
      omega
    rw [haddress, Place.below, isEntered_cons_cons, hne]
    simp [hlt]
  rw [placesAll_split, countIn_append, countIn_append, hdone, hrest, countIn_map_below,
    Nat.add_zero]
  intro a
  rw [isEntered_cons_cons]
  simp

theorem countIn_isEarlierSibling_below :
    countIn isEarlierSibling (placesAll ancestors 0 (done ++ e :: es)) (w.below done.length) =
      if w.address = [] then (done.map (·.name)).count w.name
      else countIn isEarlierSibling (places ancestors e) w := by
  rw [placesAll_split, countIn_append, countIn_append]
  by_cases hw : w.address = []
  · have haddress : (w.below done.length).address = [done.length] := by
      rw [Place.below, hw]
    have hself : countIn isEarlierSibling ((places ancestors e).map (·.below done.length))
        (w.below done.length) = 0 := by
      apply countIn_eq_zero
      intro u hu
      rcases List.mem_map.mp hu with ⟨x, _, rfl⟩
      rw [haddress, Place.below, isEarlierSibling_singleton]
      simp
    have hrest : countIn isEarlierSibling (placesAll ancestors (done.length + 1) es)
        (w.below done.length) = 0 := by
      apply countIn_eq_zero
      intro u hu
      rcases exists_address_of_mem_placesAll hu with ⟨n, a, hu, hle, _⟩
      have hlt : ¬ n < done.length := by
        omega
      rw [haddress, hu, isEarlierSibling_singleton]
      simp [hlt]
    rw [if_pos hw, hself, hrest,
      countIn_isEarlierSibling_singleton (by omega) haddress]
    rfl
  · have hother : ∀ {u : Place} {n : Nat} {a : List Nat}, u.address = n :: a → n ≠ done.length →
        isEarlierSibling u.address (w.below done.length).address = false := by
      intro u n a hu hne
      rw [hu, Place.below, isEarlierSibling_cons_cons _ _ _ hw, beq_false_of_ne hne]
      rfl
    have hdone : countIn isEarlierSibling (placesAll ancestors 0 done)
        (w.below done.length) = 0 := by
      apply countIn_eq_zero
      intro u hu
      rcases exists_address_of_mem_placesAll hu with ⟨n, a, haddress, _, _⟩
      exact hother haddress (by omega)
    have hrest : countIn isEarlierSibling (placesAll ancestors (done.length + 1) es)
        (w.below done.length) = 0 := by
      apply countIn_eq_zero
      intro u hu
      rcases exists_address_of_mem_placesAll hu with ⟨n, a, haddress, _, _⟩
      exact hother haddress (by omega)
    rw [if_neg hw, hdone, hrest, countIn_map_below, Nat.zero_add, Nat.add_zero]
    intro a
    rw [isEarlierSibling_cons_cons _ _ _ hw]
    simp

end Children

/-!
# Walking

When a tree is walked, the table holds what has been entered before it, and the parent knows how
many siblings of each name have been walked.
-/

/-- The record of a place counts what had been `entered` before its tree, or the earlier `siblings`
of its tree, and what there is in the tree. -/
def Counts (scope : Scope) (entered siblings : String → Nat) (ps : List Place) (v : Place)
    (r : Record) : Prop :=
  match scope with
  | .document => r.occurrences = entered v.name + countIn isEntered ps v
  | .parent =>
      r.occurrences =
        (if v.address = [] then siblings v.name else countIn isEarlierSibling ps v) + 1

theorem Counts.in_places {scope : Scope} {entered siblings : String → Nat}
    {ancestors : List String} {e : Element} {v : Place} {r : Record}
    (h : Counts scope (fun name => entered name + [e.name].count name) siblings
      (placesAll (e.name :: ancestors) 0 e.children) v r) :
    Counts scope entered siblings (places ancestors e) v r := by
  cases scope with
  | document =>
      have hroot : isEntered [] v.address = true := by
        cases v.address with
        | nil =>
            rfl
        | cons n a =>
            exact isEntered_nil_left n a
      simp only [Counts] at h ⊢
      rw [h, countIn_places, if_pos hroot]
      omega
  | parent =>
      simp only [Counts] at h ⊢
      rw [h, countIn_places, isEarlierSibling_nil_left]
      rfl

theorem Counts.in_siblings {scope : Scope} {entered siblings : String → Nat}
    {ancestors : List String} {done : List Element} {e : Element} {w : Place} {r : Record}
    (es : List Element)
    (h : Counts scope (fun name => entered name + (done.flatMap names).count name)
      (done.map (·.name)).count (places ancestors e) w r) :
    Counts scope entered siblings (placesAll ancestors 0 (done ++ e :: es))
      (w.below done.length) r := by
  cases scope with
  | document =>
      simp only [Counts] at h ⊢
      rw [h, countIn_isEntered_below, Nat.add_assoc]
      rfl
  | parent =>
      simp only [Counts] at h ⊢
      rw [h, countIn_isEarlierSibling_below]
      rfl

theorem counts_recordAt {options : ScanOptions} {frequency : NameMap Nat}
    {entered siblings : String → Nat} (ancestors : List String) (e : Element)
    (h : Tallies frequency fun name => entered name + (names e).count name) :
    Counts options.scope entered siblings (places ancestors e) ⟨⟨e, ancestors⟩, []⟩
      (recordAt options frequency ancestors.head? ancestors.length (siblings e.name + 1) e) := by
  have hpos : entered e.name + (names e).count e.name ≠ 0 := by
    rw [names_eq, List.count_append, List.count_singleton_self]
    omega
  have hget : (frequency.get? e.name).getD 1 = entered e.name + (names e).count e.name := by
    rw [h e.name, if_neg hpos]
    rfl
  cases hscope : options.scope with
  | document =>
      simp only [Counts, recordAt, recordOf, hscope]
      rw [hget, countIn_isEntered_root]
      rfl
  | parent =>
      simp only [Counts, recordAt, recordOf, hscope, if_true]
      rfl

theorem tallies_surveyBelow (options : ScanOptions) (depth : Nat) {s : Survey} (e : Element)
    {count : String → Nat} (h : Tallies s.frequency count) :
    Tallies (surveyBelow options depth s e).frequency
      fun name => count name + (names e).count name := by
  have hchildren := tallies_surveyAll options e.children e.name (depth + 1) .empty
    (s.enter e.name) (h.update e.name)
  intro name
  rw [names_eq]
  simp only [List.count_append, Nat.add_comm (List.count name (e.children.flatMap names)),
    ← Nat.add_assoc]
  exact hchildren name

mutual

theorem counts_survey (options : ScanOptions) : (e : Element) → ∀ (ancestors : List String)
    (s : Survey) (entered siblings : String → Nat), Tallies s.frequency entered → ∃ added,
      (survey options ancestors.head? ancestors.length (siblings e.name + 1) s e).records =
          added.reverse ++ s.records ∧
        List.Forall₂ (Counts options.scope entered siblings (places ancestors e))
          (places ancestors e) added
  | ⟨name, attributes, children, text⟩, ancestors, s, entered, siblings, h => by
      let e : Element := ⟨name, attributes, children, text⟩
      rcases counts_surveyAll options children name ancestors [] .empty (s.enter name)
        (fun other => entered other + [name].count other) siblings (h.update name) tallies_empty
        with ⟨below, hrecords, hbelow⟩
      let last := recordAt options (surveyBelow options ancestors.length s e).frequency
        ancestors.head? ancestors.length (siblings name + 1) e
      have hlast : Counts options.scope entered siblings (places ancestors e) ⟨⟨e, ancestors⟩, []⟩
          last := counts_recordAt ancestors e (tallies_surveyBelow options _ e h)
      have hchildren : List.Forall₂ (Counts options.scope entered siblings (places ancestors e))
          (placesAll (name :: ancestors) 0 children) below :=
        hbelow.imp fun v r hcounts => hcounts.in_places
      refine ⟨below ++ [last], ?_, ?_⟩
      · rw [survey_eq]
        show last :: (surveyAll options name (ancestors.length + 1) .empty (s.enter name)
          children).records = _
        rw [hrecords]
        simp [Survey.enter]
      · rw [places_eq]
        exact List.rel_append hchildren (List.Forall₂.cons hlast List.Forall₂.nil)

theorem counts_surveyAll (options : ScanOptions) : (es : List Element) →
    ∀ (parent : String) (ancestors : List String) (done : List Element) (counts : NameMap Nat)
      (s : Survey) (entered siblings : String → Nat),
      Tallies s.frequency (fun name => entered name + (done.flatMap names).count name) →
      Tallies counts (done.map (·.name)).count → ∃ added,
        (surveyAll options parent (ancestors.length + 1) counts s es).records =
            added.reverse ++ s.records ∧
          List.Forall₂ (Counts options.scope entered siblings
              (placesAll (parent :: ancestors) 0 (done ++ es)))
            (placesAll (parent :: ancestors) done.length es) added
  | [], parent, ancestors, done, counts, s, entered, siblings, h, hcounts =>
      ⟨[], rfl, List.Forall₂.nil⟩
  | e :: es, parent, ancestors, done, counts, s, entered, siblings, h, hcounts => by
      have hsibling : (counts.get? e.name).getD 0 = (done.map (·.name)).count e.name :=
        hcounts.getD e.name
      rcases counts_survey options e (parent :: ancestors) s _ (done.map (·.name)).count h with
        ⟨first, hfirst, hplaces⟩
      have hnext : Tallies
          (survey options (some parent) (ancestors.length + 1)
            ((done.map (·.name)).count e.name + 1) s e).frequency
          fun name => entered name + ((done ++ [e]).flatMap names).count name := by
        have htallies := tallies_survey options e (some parent) (ancestors.length + 1)
          ((done.map (·.name)).count e.name + 1) s h
        simpa [List.flatMap_append, List.count_append, Nat.add_assoc] using htallies
      have hcounted : Tallies (counts.insert e.name ((done.map (·.name)).count e.name + 1))
          ((done ++ [e]).map (·.name)).count := by
        have htallies := hcounts.insert e.name
        rw [hsibling] at htallies
        rw [count_map_concat]
        exact htallies
      rcases counts_surveyAll options es parent ancestors (done ++ [e]) _ _ entered siblings hnext
        hcounted with ⟨rest, hrest, hplacesAll⟩
      rw [List.append_assoc, List.singleton_append, List.length_append, List.length_singleton]
        at hplacesAll
      refine ⟨first ++ rest, ?_, ?_⟩
      · rw [surveyAll]
        simp only [hsibling]
        simp only [List.head?_cons, List.length_cons] at hfirst
        rw [hrest, hfirst, List.reverse_append, List.append_assoc]
      · rw [placesAll]
        apply List.rel_append _ hplacesAll
        rw [List.forall₂_map_left_iff]
        exact hplaces.imp fun w r hcounts => hcounts.in_siblings es

end

/-!
# The order of the records

Whatever has been entered when one record is made has been entered when a later one is made.
-/

/-- All that has been entered for the one place has been entered for the other. -/
def Precedes (u v : Place) : Prop :=
  ∀ a, isEntered a u.address = true → isEntered a v.address = true

theorem precedes_below {u v : Place} (index : Nat) (h : Precedes u v) :
    Precedes (u.below index) (v.below index) := by
  intro a ha
  cases a with
  | nil =>
      exact isEntered_nil_left index v.address
  | cons n a =>
      simp only [Place.below, isEntered_cons_cons, Bool.or_eq_true, Bool.and_eq_true] at ha ⊢
      rcases ha with hlt | ⟨heq, hbelow⟩
      · exact Or.inl hlt
      · exact Or.inr ⟨heq, h a hbelow⟩

theorem precedes_of_lt {u v : Place} {i j : Nat} {b c : List Nat} (hu : u.address = i :: b)
    (hv : v.address = j :: c) (hlt : i < j) : Precedes u v := by
  intro a ha
  rw [hu] at ha
  rw [hv]
  cases a with
  | nil =>
      exact isEntered_nil_left j c
  | cons n a =>
      simp only [isEntered_cons_cons, Bool.or_eq_true, Bool.and_eq_true, decide_eq_true_eq,
        beq_iff_eq] at ha ⊢
      exact Or.inl (by omega)

mutual

theorem pairwise_places (ancestors : List String) : (e : Element) →
    (places ancestors e).Pairwise Precedes
  | ⟨name, attributes, children, text⟩ => by
      rw [places, List.pairwise_append]
      refine ⟨pairwise_placesAll (name :: ancestors) children 0, List.pairwise_singleton _ _, ?_⟩
      intro u _ v hv a _
      rw [List.mem_singleton.mp hv]
      exact isEntered_nil_right a

theorem pairwise_placesAll (ancestors : List String) : (es : List Element) →
    ∀ index, (placesAll ancestors index es).Pairwise Precedes
  | [], _ => List.Pairwise.nil
  | e :: es, index => by
      rw [placesAll, List.pairwise_append, List.pairwise_map]
      refine ⟨?_, pairwise_placesAll ancestors es (index + 1), ?_⟩
      · exact (pairwise_places ancestors e).imp (precedes_below index)
      · intro u hu v hv
        rcases List.mem_map.mp hu with ⟨w, _, rfl⟩
        rcases exists_address_of_mem_placesAll hv with ⟨n, a, haddress, hle, _⟩
        exact precedes_of_lt rfl haddress (by omega)

end

theorem countIn_le_of_precedes {ps : List Place} {u v : Place} (hname : u.name = v.name)
    (h : Precedes u v) : countIn isEntered ps u ≤ countIn isEntered ps v := by
  apply List.countP_mono_left
  intro w _ hw
  rw [hname] at hw
  simp only [Bool.and_eq_true] at hw ⊢
  exact ⟨hw.1, h w.address hw.2⟩

theorem countIn_last {root : Element} {name : String} {front : List Place} {last : Place}
    (h : (places [] root).filter (·.name = name) = front ++ [last]) :
    countIn isEntered (places [] root) last = (names root).count name := by
  have hlast : last.name = name := by
    have hmem : last ∈ (places [] root).filter (·.name = name) := by
      rw [h]
      exact List.mem_append_right front List.mem_cons_self
    simpa using (List.mem_filter.mp hmem).2
  have hsorted := (pairwise_places [] root).filter (·.name = name)
  rw [h, List.pairwise_append] at hsorted
  rw [← map_name_places [] root, List.count, List.countP_map]
  apply List.countP_congr
  intro u hu
  rw [hlast]
  simp only [Bool.and_eq_true, Function.comp_apply, and_iff_left_iff_imp, beq_iff_eq]
  intro hname
  have hmem : u ∈ front ++ [last] := by
    rw [← h, List.mem_filter]
    exact ⟨hu, by simpa using hname⟩
  rcases List.mem_append.mp hmem with hfront | hend
  · exact hsorted.2.2 u hfront last List.mem_cons_self u.address (isEntered_self u.address)
  · rw [List.mem_singleton.mp hend]
    exact isEntered_self last.address

/-!
# Two scopes

An element has been entered itself when its record is made, besides its earlier siblings.
-/

theorem countIn_lt {related related' : List Nat → List Nat → Bool} {ps : List Place} {v : Place}
    (hmem : v ∈ ps) (hsub : ∀ a, related a v.address = true → related' a v.address = true)
    (hself : related v.address v.address = false) (hself' : related' v.address v.address = true) :
    countIn related ps v < countIn related' ps v := by
  have hmono : ∀ qs, countIn related qs v ≤ countIn related' qs v := by
    intro qs
    apply List.countP_mono_left
    intro u _ hu
    simp only [Bool.and_eq_true] at hu ⊢
    exact ⟨hu.1, hsub u.address hu.2⟩
  rcases List.append_of_mem hmem with ⟨front, back, rfl⟩
  have hfront := hmono front
  have hback := hmono back
  have hone : countIn related [v] v = 0 := by
    simp [countIn, hself]
  have hone' : countIn related' [v] v = 1 := by
    simp [countIn, hself']
  rw [← List.singleton_append, countIn_append, countIn_append, countIn_append, countIn_append,
    hone, hone']
  omega

theorem occurrencesAt_parent_le {root : Element} {v : Place} (h : v ∈ places [] root) :
    occurrencesAt .parent root v ≤ occurrencesAt .document root v :=
  countIn_lt h (fun _ => isEntered_of_isEarlierSibling) (not_isEarlierSibling_self v.address)
    (isEntered_self v.address)

/-!
# Scans
-/

section Scans

variable (options : ScanOptions) (root : Element)

theorem counts_scan :
    List.Forall₂ (fun v r => r.occurrences = occurrencesAt options.scope root v)
      (places [] root) (scan options root).records := by
  rcases counts_survey options root [] {} (fun _ => 0) (fun _ => 0) tallies_empty with
    ⟨added, hrecords, hadded⟩
  have hscan : (scan options root).records = added := by
    show (survey options none 0 1 {} root).records.reverse = added
    rw [show (survey options none 0 1 {} root).records = added.reverse ++ [] from hrecords]
    simp
  rw [hscan]
  apply hadded.imp
  intro v r hcounts
  cases hscope : options.scope with
  | document =>
      rw [hscope] at hcounts
      simp only [Counts, Nat.zero_add] at hcounts
      exact hcounts
  | parent =>
      rw [hscope] at hcounts
      simp only [Counts] at hcounts
      rw [hcounts, occurrencesAt]
      split
      · next hv =>
        rw [countIn_eq_zero]
        intro u _
        rw [hv]
        exact isEarlierSibling_nil_right u.address
      · rfl

theorem describes_and_counts :
    List.Forall₂
      (fun v r => Describes options.truthValues v.toVisit r ∧
        r.occurrences = occurrencesAt options.scope root v)
      (places [] root) (scan options root).records := by
  have hdescribes := describes_scan options root
  rw [← map_toVisit_places, List.forall₂_map_left_iff] at hdescribes
  exact hdescribes.mp (fun _ _ => And.intro) (counts_scan options root)

theorem map_occurrences_scan :
    (scan options root).records.map (·.occurrences) =
      (places [] root).map (occurrencesAt options.scope root) :=
  map_eq_of_forall₂ (fun _ _ hcount => hcount) (counts_scan options root)

theorem map_occurrences_recordsNamed (name : String) :
    ((scan options root).recordsNamed name).map (·.occurrences) =
      ((places [] root).filter (·.name = name)).map (occurrencesAt options.scope root) := by
  apply map_filter_of_forall₂ _ _ (describes_and_counts options root)
  · intro v r h
    rw [h.1.name]
    rfl
  · intro v r h
    exact h.2

end Scans

section DocumentScope

variable {options : ScanOptions} (hscope : options.scope = .document) (root : Element)
  (name : String)

include hscope

theorem sorted_occurrences :
    (((scan options root).recordsNamed name).map (·.occurrences)).Pairwise (· ≤ ·) := by
  rw [map_occurrences_recordsNamed, List.pairwise_map, hscope]
  apply ((pairwise_places [] root).filter (·.name = name)).imp_of_mem
  intro u v hu hv h
  have hnames : ∀ w ∈ (places [] root).filter (·.name = name), w.name = name := by
    intro w hw
    simpa using (List.mem_filter.mp hw).2
  exact countIn_le_of_precedes ((hnames u hu).trans (hnames v hv).symm) h

theorem last_occurrences :
    (((scan options root).recordsNamed name).map (·.occurrences)).getLast?.getD 0 =
      (scan options root).frequencyOf name := by
  rw [map_occurrences_recordsNamed, hscope, frequencyOf_scan]
  cases hlast : ((places [] root).filter (·.name = name)).getLast? with
  | none =>
      have hnone : name ∉ names root := by
        rw [← map_name_places [] root, List.mem_map]
        intro hmem
        rcases hmem with ⟨v, hv, hname⟩
        have hempty := List.getLast?_eq_none_iff.mp hlast
        rw [List.filter_eq_nil_iff] at hempty
        exact hempty v hv (by simpa using hname)
      rw [List.getLast?_map, hlast, List.count_eq_zero.mpr hnone]
      rfl
  | some last =>
      rcases List.getLast?_eq_some_iff.mp hlast with ⟨front, hfront⟩
      rw [List.getLast?_map, hlast]
      exact countIn_last hfront

end DocumentScope

/-- The record of each element counts the elements of its name that have been entered in the
document by then, or those among its siblings. So in the scope of the document the counts of a name
never decrease and end with its frequency, and in that of a parent they are no greater. -/
theorem scan_counts_occurrences (config : Config) (root : Element) :
    List.Forall₂
        (fun v r => Describes config.detectBooleans v.toVisit r ∧
          r.occurrences = occurrencesAt config.scope root v)
        (places [] root) (scan config.scanning root).records ∧
      occurrencesAt .parent root ⟨⟨root, []⟩, []⟩ = 1 ∧
      (∀ name,
        (((scan { config with scope := .document }.scanning root).recordsNamed name).map
            (·.occurrences)).Pairwise (· ≤ ·) ∧
          (((scan { config with scope := .document }.scanning root).recordsNamed name).map
            (·.occurrences)).getLast?.getD 0 =
              (scan { config with scope := .document }.scanning root).frequencyOf name) ∧
      List.Forall₂ (· ≤ ·)
        ((scan { config with scope := .parent }.scanning root).records.map (·.occurrences))
        ((scan { config with scope := .document }.scanning root).records.map (·.occurrences)) := by
  refine ⟨describes_and_counts config.scanning root, ?_, ?_, ?_⟩
  · rw [occurrencesAt, countIn_eq_zero]
    intro u _
    exact isEarlierSibling_nil_right u.address
  · intro name
    exact ⟨sorted_occurrences rfl root name, last_occurrences rfl root name⟩
  · rw [map_occurrences_scan, map_occurrences_scan, List.forall₂_map_left_iff,
      List.forall₂_map_right_iff, List.forall₂_same]
    intro v hv
    exact occurrencesAt_parent_le hv

end Schema
end XmlShape
