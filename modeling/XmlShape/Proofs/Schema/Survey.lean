import Mathlib.Data.List.Forall2
import Mathlib.Data.List.Induction
import XmlShape.Config
import XmlShape.Proofs.NameMap
import XmlShape.Proofs.Schema.Visit

/-!
# The records of a tree

A survey adds one record for each element it walks, in the order of the places of the tree, and
counts the name of each. Two invariants carry this through the walk: what a survey adds to the
records it has been given, and what its table of frequencies counts.
-/

namespace XmlShape
namespace Schema

/-!
# Folding

The maps and lists of a model are made by folds. What such a fold has come to is said in terms of
the items that have been folded.
-/

theorem foldl_invariant {α β : Type} {motive : List α → β → Prop} {step : β → α → β}
    (hstep : ∀ {done result}, motive done result → ∀ item,
      motive (done ++ [item]) (step result item))
    (items : List α) {done : List α} {result : β} (h : motive done result) :
    motive (done ++ items) (items.foldl step result) := by
  induction items generalizing done result with
  | nil =>
      rw [List.append_nil]
      exact h
  | cons item items ih =>
      rw [List.foldl_cons, List.append_cons]
      exact ih (hstep h item)

/-!
# Records and places
-/

/-- A record that says of an element in its place what there is to say, its occurrence count
apart. -/
structure Describes (truthValues : Bool) (v : Visit) (r : Record) : Prop where
  name : r.name = v.element.name
  type : r.type = typeOf truthValues v.element
  parent : r.parent = v.parent
  depth : r.depth = v.level
  /-- Of the values of a key, the last one counts. -/
  attributes : ∀ key, r.attributes.get? key = v.element.attributes.reverse.lookup key
  /-- Every child is described by its own name and type, with a count of one. -/
  children : r.children = v.element.children.map fun child =>
    { name := child.name, type := typeOf truthValues child, parent := v.element.name,
      occurrences := 1 }

def summary (truthValues : Bool) (parent : String) (child : Element) : Child :=
  { name := child.name, type := classify truthValues child, parent }

def recordAt (options : ScanOptions) (frequency : NameMap Nat) (parent : Option String)
    (depth sibling : Nat) (e : Element) : Record :=
  recordOf options frequency parent depth sibling
    (e.children.map (summary options.truthValues e.name)) e

theorem describes_recordAt (options : ScanOptions) (frequency : NameMap Nat) (sibling : Nat)
    (v : Visit) :
    Describes options.truthValues v
      (recordAt options frequency v.parent v.level sibling v.element) := by
  constructor
  · rfl
  · exact classify_eq_typeOf options.truthValues v.element
  · rfl
  · rfl
  · exact NameMap.get?_ofList v.element.attributes
  · apply List.map_congr_left
    intro child _
    rw [summary, classify_eq_typeOf]

/-!
# Walking

What is walked below an element comes before its own record.
-/

def surveyBelow (options : ScanOptions) (depth : Nat) (s : Survey) (e : Element) : Survey :=
  surveyAll options e.name (depth + 1) .empty (s.enter e.name) e.children

theorem survey_eq (options : ScanOptions) (parent : Option String) (depth sibling : Nat)
    (s : Survey) (e : Element) :
    survey options parent depth sibling s e =
      { surveyBelow options depth s e with
        records := recordAt options (surveyBelow options depth s e).frequency parent depth sibling
          e :: (surveyBelow options depth s e).records } := by
  cases e
  rfl

mutual

theorem records_survey (options : ScanOptions) : (e : Element) → ∀ (ancestors : List String)
    (sibling : Nat) (s : Survey), ∃ added,
      (survey options ancestors.head? ancestors.length sibling s e).records =
          added.reverse ++ s.records ∧
        List.Forall₂ (Describes options.truthValues) (visits ancestors e) added
  | ⟨name, attributes, children, text⟩, ancestors, sibling, s => by
      let e : Element := ⟨name, attributes, children, text⟩
      obtain ⟨below, hrecords, hbelow⟩ :=
        records_surveyAll options children name ancestors .empty (s.enter name)
      let last := recordAt options (surveyBelow options ancestors.length s e).frequency
        ancestors.head? ancestors.length sibling e
      refine ⟨below ++ [last], ?_, ?_⟩
      · rw [survey_eq]
        show last :: (surveyAll options name (ancestors.length + 1) .empty (s.enter name)
          children).records = _
        rw [hrecords]
        simp [Survey.enter]
      · rw [visits]
        have hlast := describes_recordAt options
          (surveyBelow options ancestors.length s e).frequency sibling ⟨e, ancestors⟩
        exact List.rel_append hbelow (List.Forall₂.cons hlast List.Forall₂.nil)

theorem records_surveyAll (options : ScanOptions) : (es : List Element) →
    ∀ (parent : String) (ancestors : List String) (counts : NameMap Nat) (s : Survey), ∃ added,
      (surveyAll options parent (ancestors.length + 1) counts s es).records =
          added.reverse ++ s.records ∧
        List.Forall₂ (Describes options.truthValues) (visitsAll (parent :: ancestors) es) added
  | [], parent, ancestors, counts, s => ⟨[], rfl, List.Forall₂.nil⟩
  | e :: es, parent, ancestors, counts, s => by
      obtain ⟨first, hfirst, hvisits⟩ := records_survey options e (parent :: ancestors)
        ((counts.get? e.name).getD 0 + 1) s
      obtain ⟨rest, hrest, hvisitsAll⟩ := records_surveyAll options es parent ancestors
        (counts.insert e.name ((counts.get? e.name).getD 0 + 1))
        (survey options (some parent) (ancestors.length + 1)
          ((counts.get? e.name).getD 0 + 1) s e)
      refine ⟨first ++ rest, ?_, List.rel_append hvisits hvisitsAll⟩
      rw [surveyAll]
      simp only [List.head?_cons, List.length_cons] at hfirst
      rw [hrest, hfirst, List.reverse_append, List.append_assoc]

end

theorem describes_scan (options : ScanOptions) (root : Element) :
    List.Forall₂ (Describes options.truthValues) (visits [] root) (scan options root).records := by
  obtain ⟨added, hrecords, hadded⟩ := records_survey options root [] 1 {}
  have hscan : (scan options root).records = added := by
    show (survey options none 0 1 {} root).records.reverse = added
    rw [show (survey options none 0 1 {} root).records = added.reverse ++ [] from hrecords]
    simp
  rw [hscan]
  exact hadded

theorem map_eq_of_forall₂ {α β γ : Type} {agree : α → β → Prop} {f : β → γ} {g : α → γ}
    (htell : ∀ x y, agree x y → f y = g x) {xs : List α} {ys : List β}
    (h : List.Forall₂ agree xs ys) : ys.map f = xs.map g := by
  symm
  rw [← List.forall₂_eq_eq_eq, List.forall₂_map_left_iff, List.forall₂_map_right_iff]
  exact h.imp fun x y hxy => (htell x y hxy).symm

theorem map_filter_of_forall₂ {α β γ : Type} {agree : α → β → Prop} {p : β → Bool} {q : α → Bool}
    {f : β → γ} {g : α → γ} (hselect : ∀ x y, agree x y → p y = q x)
    (htell : ∀ x y, agree x y → f y = g x) {xs : List α} {ys : List β}
    (h : List.Forall₂ agree xs ys) : (ys.filter p).map f = (xs.filter q).map g := by
  induction h with
  | nil =>
      rfl
  | cons hxy _ ih =>
      rw [List.filter_cons, List.filter_cons, hselect _ _ hxy]
      split
      · rw [List.map_cons, List.map_cons, htell _ _ hxy, ih]
      · exact ih

theorem find?_of_forall₂ {α β : Type} {agree : α → β → Prop} {p : β → Bool} {q : α → Bool}
    (hselect : ∀ x y, agree x y → p y = q x) {xs : List α} {ys : List β}
    (h : List.Forall₂ agree xs ys) : Option.Rel agree (xs.find? q) (ys.find? p) := by
  induction h with
  | nil =>
      exact Option.Rel.none
  | cons hxy _ ih =>
      rw [List.find?_cons, List.find?_cons, hselect _ _ hxy]
      split
      · exact Option.Rel.some hxy
      · exact ih

theorem map_filter_records {α : Type} {truthValues : Bool} {p : Record → Bool}
    {q : Element → Bool} {f : Record → α} {g : Element → α}
    (hselect : ∀ v r, Describes truthValues v r → p r = q v.element)
    (htell : ∀ v r, Describes truthValues v r → f r = g v.element) {vs : List Visit}
    {rs : List Record} (h : List.Forall₂ (Describes truthValues) vs rs) :
    (rs.filter p).map f = ((vs.map (·.element)).filter q).map g := by
  rw [List.filter_map, List.map_map]
  exact map_filter_of_forall₂ hselect htell h

theorem countP_records {truthValues : Bool} {p : Record → Bool} {q : Element → Bool}
    (hselect : ∀ v r, Describes truthValues v r → p r = q v.element) {vs : List Visit}
    {rs : List Record} (h : List.Forall₂ (Describes truthValues) vs rs) :
    rs.countP p = (vs.map (·.element)).countP q := by
  have hnames := map_filter_records hselect (fun v r hv => hv.name) h
  rw [List.countP_eq_length_filter, List.countP_eq_length_filter,
    ← List.length_map (·.name), hnames, List.length_map]

theorem exists_record_iff {truthValues : Bool} {p : Record → Prop} {q : Visit → Prop}
    (hagree : ∀ v r, Describes truthValues v r → (p r ↔ q v)) {vs : List Visit}
    {rs : List Record} (h : List.Forall₂ (Describes truthValues) vs rs) :
    (∃ r ∈ rs, p r) ↔ ∃ v ∈ vs, q v := by
  induction h with
  | nil =>
      simp
  | cons hv _ ih =>
      rw [List.exists_mem_cons_iff, List.exists_mem_cons_iff, hagree _ _ hv, ih]

theorem exists_record_scan {options : ScanOptions} {root : Element} {parent name : String} :
    (∃ r ∈ (scan options root).records, r.parent = some parent ∧ r.name = name) ↔
      Contains root parent name := by
  rw [← exists_visit_iff_contains]
  apply exists_record_iff _ (describes_scan options root)
  intro v r h
  rw [h.parent, h.name]

/-!
# Records of a name
-/

theorem of_firstRecord?_eq_some {m : Model} {name : String} {r : Record}
    (h : m.firstRecord? name = some r) : r ∈ m.records ∧ r.name = name :=
  ⟨List.mem_of_find?_eq_some h, by simpa using List.find?_some h⟩

theorem exists_firstRecord?_of_mem {m : Model} {r : Record} (hr : r ∈ m.records) :
    ∃ first, m.firstRecord? r.name = some first :=
  Option.isSome_iff_exists.mp (List.find?_isSome.mpr ⟨r, hr, decide_eq_true rfl⟩)

theorem exists_record_named_scan {options : ScanOptions} {root : Element} {name : String} :
    (∃ r ∈ (scan options root).records, r.name = name) ↔ name ∈ names root := by
  rw [exists_record_iff (q := fun v => v.element.name = name) _ (describes_scan options root)]
  · simp [names, elements]
  · intro v r h
    rw [h.name]

/-!
# Frequencies
-/

/-- A table that holds a count for each name that is counted at all. -/
def Tallies (frequency : NameMap Nat) (count : String → Nat) : Prop :=
  ∀ name, frequency.get? name = if count name = 0 then none else some (count name)

theorem Tallies.eq {m n : NameMap Nat} {count : String → Nat} (hm : Tallies m count)
    (hn : Tallies n count) : m = n := by
  apply NameMap.ext_get?
  intro name
  rw [hm name, hn name]

theorem tallies_empty : Tallies .empty fun _ => 0 := by
  intro name
  rfl

theorem Tallies.update {m : NameMap Nat} {count : String → Nat} (h : Tallies m count)
    (counted : String) :
    Tallies (m.update counted fun n? => n?.getD 0 + 1)
      fun name => count name + [counted].count name := by
  intro name
  rw [NameMap.get?_update, h counted, h name]
  by_cases hname : name = counted
  · subst hname
    by_cases hzero : count name = 0 <;> simp [hzero]
  · simp [hname, Ne.symm hname]

theorem Tallies.insert {m : NameMap Nat} {count : String → Nat} (h : Tallies m count)
    (counted : String) :
    Tallies (m.insert counted ((m.get? counted).getD 0 + 1))
      fun name => count name + [counted].count name := by
  have hsame : m.insert counted ((m.get? counted).getD 0 + 1) =
      m.update counted fun n? => n?.getD 0 + 1 := by
    apply NameMap.ext_get?
    intro name
    rw [NameMap.get?_insert, NameMap.get?_update]
  rw [hsame]
  exact h.update counted

theorem count_map_concat {α : Type} (name : α → String) (xs : List α) (x : α) :
    ((xs ++ [x]).map name).count = fun counted =>
      (xs.map name).count counted + [name x].count counted := by
  funext counted
  rw [List.map_append, List.count_append]
  rfl

theorem tallies_countNames (children : List Child) :
    Tallies (countNames children) (children.map (·.name)).count := by
  induction children using List.reverseRecOn with
  | nil =>
      exact tallies_empty
  | append_singleton children child ih =>
      rw [count_map_concat, countNames, List.foldl_append]
      exact ih.update child.name

theorem Tallies.getD {counts : NameMap Nat} {count : String → Nat} (h : Tallies counts count)
    (name : String) : (counts.get? name).getD 0 = count name := by
  rw [h name]
  by_cases hzero : count name = 0 <;> simp [hzero]

def tally : List String → NameMap Nat
  | [] => .empty
  | name :: names => (tally names).update name fun n? => n?.getD 0 + 1

theorem tallies_tally (names : List String) : Tallies (tally names) names.count := by
  induction names with
  | nil =>
      exact tallies_empty
  | cons counted names ih =>
      have hcount : (counted :: names).count = fun name =>
          names.count name + [counted].count name := by
        funext name
        rw [← List.singleton_append, List.count_append, Nat.add_comm]
      rw [hcount]
      exact ih.update counted

theorem sum_values_tally (names : List String) : (tally names).values.sum = names.length := by
  induction names with
  | nil =>
      rfl
  | cons counted names ih =>
      rw [tally, NameMap.sum_values_update_count, ih, List.length_cons]

mutual

theorem tallies_survey (options : ScanOptions) : (e : Element) → ∀ (parent : Option String)
    (depth sibling : Nat) (s : Survey) {count : String → Nat}, Tallies s.frequency count →
      Tallies (survey options parent depth sibling s e).frequency
        fun name => count name + (names e).count name
  | ⟨name, attributes, children, text⟩, parent, depth, sibling, s, count, h => by
      have hchildren := tallies_surveyAll options children name (depth + 1) .empty
        (s.enter name) (h.update name)
      intro other
      rw [survey_eq, names_eq]
      simp only [List.count_append, Nat.add_comm (List.count other (children.flatMap names)),
        ← Nat.add_assoc]
      exact hchildren other

theorem tallies_surveyAll (options : ScanOptions) : (es : List Element) → ∀ (parent : String)
    (depth : Nat) (counts : NameMap Nat) (s : Survey) {count : String → Nat},
      Tallies s.frequency count →
      Tallies (surveyAll options parent depth counts s es).frequency
        fun name => count name + (es.flatMap names).count name
  | [], parent, depth, counts, s, count, h => h
  | e :: es, parent, depth, counts, s, count, h => by
      rw [surveyAll, List.flatMap_cons]
      simp only [List.count_append, ← Nat.add_assoc]
      exact tallies_surveyAll options es parent depth _ _
        (tallies_survey options e (some parent) depth _ s h)

end

theorem frequency_scan (options : ScanOptions) (root : Element) :
    (scan options root).frequency = tally (names root) := by
  have hsurvey := tallies_survey options root none 0 1 {} tallies_empty
  simp only [Nat.zero_add] at hsurvey
  exact Tallies.eq hsurvey (tallies_tally (names root))

theorem mem_distinctNames_scan {options : ScanOptions} {root : Element} {name : String} :
    name ∈ (scan options root).distinctNames ↔ name ∈ names root := by
  rw [Model.distinctNames, NameMap.mem_keys, frequency_scan, tallies_tally (names root) name,
    ← List.count_pos_iff, Nat.pos_iff_ne_zero]
  by_cases hzero : (names root).count name = 0 <;> simp [hzero]

theorem frequencyOf_scan (options : ScanOptions) (root : Element) (name : String) :
    (scan options root).frequencyOf name = (names root).count name := by
  rw [Model.frequencyOf, frequency_scan]
  exact (tallies_tally (names root)).getD name

/-!
# Scanning
-/

theorem length_records_scan (options : ScanOptions) (root : Element) :
    (scan options root).records.length = root.count := by
  rw [← (describes_scan options root).length_eq, ← length_elements, elements, List.length_map]

/-- The records of a scan are those of the places of the tree in their order, and the table of
frequencies counts the names of the tree. -/
theorem scan_describes_places (config : Config) (root : Element) :
    List.Forall₂ (Describes config.detectBooleans) (visits [] root)
        (scan config.scanning root).records ∧
      (∃ below, visits [] root = below ++ [⟨root, []⟩] ∧ ∀ v ∈ below, v.parent ≠ none) ∧
      (∀ e, typeOf config.detectBooleans e = .composite ↔ e.children ≠ []) ∧
      (∀ name, (scan config.scanning root).frequency.get? name =
        if name ∈ names root then some ((names root).count name) else none) ∧
      (scan config.scanning root).records.length = root.count ∧
      (scan config.scanning root).frequency.values.sum = root.count := by
  refine ⟨describes_scan config.scanning root, visits_root root, fun e => typeOf_eq_composite,
    ?_, length_records_scan config.scanning root, ?_⟩
  · intro name
    rw [frequency_scan, tallies_tally (names root) name]
    by_cases hmem : name ∈ names root
    · have hpos : (names root).count name ≠ 0 := by
        simpa [List.count_eq_zero] using hmem
      rw [if_neg hpos, if_pos hmem]
    · rw [if_pos (List.count_eq_zero.mpr hmem), if_neg hmem]
  · rw [frequency_scan, sum_values_tally, names, List.length_map, length_elements]

end Schema
end XmlShape
