import XmlShape.Proofs.Schema.Survey

/-!
# What a model keeps of a tree

Two trees have the same model exactly if they are alike: they agree in names, in nesting, in the
last values of attributes and in the types of their leaves. In one direction the survey sees nothing
else. In the other, the records are read from the end: the last one tells how many children its
element has, and so where the records below it begin.
-/

namespace XmlShape
namespace Schema

mutual

/-- Trees that agree in all that a model keeps. -/
def Alike (truthValues : Bool) : Element → Element → Prop
  | ⟨name, attributes, children, text⟩, ⟨name', attributes', children', text'⟩ =>
      name = name' ∧
        (∀ key, attributes.reverse.lookup key = attributes'.reverse.lookup key) ∧
        AlikeAll truthValues children children' ∧
        (children = [] → children' = [] →
          classifyText truthValues text = classifyText truthValues text')

def AlikeAll (truthValues : Bool) : List Element → List Element → Prop
  | [], [] => True
  | e :: es, f :: fs => Alike truthValues e f ∧ AlikeAll truthValues es fs
  | [], _ :: _ => False
  | _ :: _, [] => False

end

section Alike

variable {truthValues : Bool}

theorem alike_iff {e f : Element} :
    Alike truthValues e f ↔
      e.name = f.name ∧
        (∀ key, e.attributes.reverse.lookup key = f.attributes.reverse.lookup key) ∧
        AlikeAll truthValues e.children f.children ∧
        (e.children = [] → f.children = [] →
          classifyText truthValues e.text = classifyText truthValues f.text) := by
  cases e
  cases f
  rw [Alike]

theorem alikeAll_iff {es fs : List Element} :
    AlikeAll truthValues es fs ↔ List.Forall₂ (Alike truthValues) es fs := by
  induction es generalizing fs with
  | nil =>
      cases fs with
      | nil =>
          simp [AlikeAll]
      | cons f fs =>
          simp [AlikeAll]
  | cons e es ih =>
      cases fs with
      | nil =>
          simp [AlikeAll]
      | cons f fs =>
          rw [AlikeAll, List.forall₂_cons, ih]

theorem AlikeAll.length_eq {es fs : List Element} (h : AlikeAll truthValues es fs) :
    es.length = fs.length :=
  (alikeAll_iff.mp h).length_eq

theorem AlikeAll.concat {es fs : List Element} {e f : Element} (h : AlikeAll truthValues es fs)
    (hlast : Alike truthValues e f) : AlikeAll truthValues (es ++ [e]) (fs ++ [f]) := by
  rw [alikeAll_iff]
  exact List.rel_append (alikeAll_iff.mp h) (List.Forall₂.cons hlast List.Forall₂.nil)

theorem Alike.typeOf_eq {e f : Element} (h : Alike truthValues e f) :
    typeOf truthValues e = typeOf truthValues f := by
  obtain ⟨_, _, hchildren, htext⟩ := alike_iff.mp h
  have hlength := hchildren.length_eq
  unfold typeOf
  by_cases hnil : e.children = []
  · have hnil' : f.children = [] := by
      rw [hnil] at hlength
      exact List.length_eq_zero_iff.mp hlength.symm
    rw [if_pos hnil, if_pos hnil', htext hnil hnil']
  · have hcons : f.children ≠ [] := by
      intro hnil'
      rw [hnil'] at hlength
      exact hnil (List.length_eq_zero_iff.mp hlength)
    rw [if_neg hnil, if_neg hcons]

end Alike

/-!
# Alike trees have the same model
-/

theorem AlikeAll.map_summary_eq {truthValues : Bool} (parent : String) {es fs : List Element}
    (h : AlikeAll truthValues es fs) :
    es.map (summary truthValues parent) = fs.map (summary truthValues parent) := by
  rw [alikeAll_iff] at h
  induction h with
  | nil =>
      rfl
  | cons halike _ ih =>
      rw [List.map_cons, List.map_cons, ih]
      unfold summary
      rw [(alike_iff.mp halike).1, classify_eq_typeOf, classify_eq_typeOf, halike.typeOf_eq]

theorem ofList_congr {pairs pairs' : List (String × String)}
    (h : ∀ key, pairs.reverse.lookup key = pairs'.reverse.lookup key) :
    NameMap.ofList pairs = NameMap.ofList pairs' := by
  apply NameMap.ext_get?
  intro key
  rw [NameMap.get?_ofList, NameMap.get?_ofList, h key]

theorem recordAt_congr {options : ScanOptions} {e f : Element}
    (h : Alike options.truthValues e f) (frequency : NameMap Nat) (parent : Option String)
    (depth sibling : Nat) :
    recordAt options frequency parent depth sibling e =
      recordAt options frequency parent depth sibling f := by
  obtain ⟨hname, hattributes, hchildren, _⟩ := alike_iff.mp h
  unfold recordAt recordOf
  rw [hname, classify_eq_typeOf, classify_eq_typeOf, h.typeOf_eq,
    hchildren.map_summary_eq, ofList_congr hattributes]

mutual

theorem survey_congr (options : ScanOptions) : (e f : Element) →
    Alike options.truthValues e f → ∀ (parent : Option String) (depth sibling : Nat) (s : Survey),
      survey options parent depth sibling s e = survey options parent depth sibling s f
  | ⟨name, attributes, children, text⟩, ⟨name', attributes', children', text'⟩, h, parent,
      depth, sibling, s => by
      have hname : name = name' := (alike_iff.mp h).1
      have hbelow : surveyBelow options depth s ⟨name, attributes, children, text⟩ =
          surveyBelow options depth s ⟨name', attributes', children', text'⟩ := by
        unfold surveyBelow
        rw [hname]
        exact surveyAll_congr options children children' (alike_iff.mp h).2.2.1 _ _ _ _
      rw [survey_eq, survey_eq, hbelow, recordAt_congr h]

theorem surveyAll_congr (options : ScanOptions) : (es fs : List Element) →
    AlikeAll options.truthValues es fs →
    ∀ (parent : String) (depth : Nat) (counts : NameMap Nat) (s : Survey),
      surveyAll options parent depth counts s es = surveyAll options parent depth counts s fs
  | [], [], _, _, _, _, _ => rfl
  | e :: es, f :: fs, h, parent, depth, counts, s => by
      rw [AlikeAll] at h
      have hname : e.name = f.name := (alike_iff.mp h.1).1
      rw [surveyAll, surveyAll, survey_congr options e f h.1, hname,
        surveyAll_congr options es fs h.2]

end

theorem scan_congr {options : ScanOptions} {e f : Element}
    (h : Alike options.truthValues e f) : scan options e = scan options f := by
  unfold scan
  rw [survey_congr options e f h, (alike_iff.mp h).1]

/-!
# Trees with the same model are alike
-/

/-- The part of a record from which the tree is put together again. -/
structure Signature where
  name : String
  type : ElementType
  attributes : NameMap String
  children : Nat

def Record.signature (r : Record) : Signature :=
  ⟨r.name, r.type, r.attributes, r.children.length⟩

def signature (truthValues : Bool) (e : Element) : Signature :=
  ⟨e.name, typeOf truthValues e, .ofList e.attributes, e.children.length⟩

theorem Describes.signature_eq {truthValues : Bool} {v : Visit} {r : Record}
    (h : Describes truthValues v r) : signature truthValues v.element = r.signature := by
  have hattributes : NameMap.ofList v.element.attributes = r.attributes := by
    apply NameMap.ext_get?
    intro key
    rw [NameMap.get?_ofList, h.attributes key]
  unfold signature Record.signature
  rw [h.name, h.type, hattributes, h.children, List.length_map]

theorem map_signature_eq (options : ScanOptions) (e : Element) :
    (elements e).map (signature options.truthValues) =
      (scan options e).records.map (·.signature) := by
  have h := map_filter_records (fun _ _ _ => rfl) (fun _ _ hv => hv.signature_eq.symm)
    (describes_scan options e) (p := fun _ => true) (q := fun _ => true)
  rw [List.filter_true, List.filter_true] at h
  exact h.symm

theorem alike_of_signature_eq {truthValues : Bool} {e f : Element}
    (h : signature truthValues e = signature truthValues f)
    (hchildren : AlikeAll truthValues e.children f.children) : Alike truthValues e f := by
  injection h with hname htype hattributes _
  rw [alike_iff]
  refine ⟨hname, ?_, hchildren, ?_⟩
  · intro key
    rw [← NameMap.get?_ofList, ← NameMap.get?_ofList, hattributes]
  · intro hnil hnil'
    rw [typeOf, typeOf, if_pos hnil, if_pos hnil'] at htype
    exact htype

def signatures (truthValues : Bool) (es : List Element) : List Signature :=
  (es.flatMap elements).map (signature truthValues)

theorem signatures_concat (truthValues : Bool) (es : List Element) (e : Element) :
    signatures truthValues (es ++ [e]) =
      signatures truthValues es ++ signatures truthValues e.children ++
        [signature truthValues e] := by
  unfold signatures
  rw [List.flatMap_append, List.map_append, List.append_assoc]
  simp [elements_eq]

/-- Signatures that end in those of equally many trees determine these trees, and what comes before
them. The last tree is taken off first, since its signature tells how many children it has. -/
theorem alikeAll_of_signatures_eq {truthValues : Bool} {es fs : List Element}
    {before before' : List Signature}
    (h : before ++ signatures truthValues es = before' ++ signatures truthValues fs)
    (hlength : es.length = fs.length) :
    before = before' ∧ AlikeAll truthValues es fs := by
  induction hn : Element.countAll es using Nat.strong_induction_on generalizing es fs before
    before' with
  | _ n ih =>
      rcases List.eq_nil_or_concat' es with rfl | ⟨front, e, rfl⟩
      · cases List.length_eq_zero_iff.mp hlength.symm
        constructor
        · simpa [signatures] using h
        · rw [AlikeAll]
          trivial
      · rcases List.eq_nil_or_concat' fs with rfl | ⟨front', f, rfl⟩
        · simp at hlength
        · have hcount : Element.countAll front + (1 + Element.countAll e.children) = n := by
            rw [← hn, Element.countAll_append, ← Element.count_eq]
            rfl
          rw [signatures_concat, signatures_concat, ← List.append_assoc, ← List.append_assoc,
            ← List.append_assoc, ← List.append_assoc] at h
          obtain ⟨hrest, hlast⟩ := List.append_inj' h rfl
          have hroot : signature truthValues e = signature truthValues f := by
            simpa using hlast
          have harity : e.children.length = f.children.length := congrArg Signature.children hroot
          obtain ⟨hfront, hchildren⟩ :=
            ih (Element.countAll e.children) (by omega) hrest harity rfl
          have hfrontLength : front.length = front'.length := by
            simpa using hlength
          obtain ⟨hbefore, halike⟩ :=
            ih (Element.countAll front) (by omega) hfront hfrontLength rfl
          exact ⟨hbefore, halike.concat (alike_of_signature_eq hroot hchildren)⟩

theorem alike_of_records_eq {options : ScanOptions} {e f : Element}
    (h : (scan options e).records = (scan options f).records) :
    Alike options.truthValues e f := by
  have helements := map_signature_eq options e
  rw [h, ← map_signature_eq options f] at helements
  have hsignatures : [] ++ signatures options.truthValues [e] =
      [] ++ signatures options.truthValues [f] := by
    simpa [signatures] using helements
  have halike := (alikeAll_of_signatures_eq hsignatures rfl).2
  rw [AlikeAll] at halike
  exact halike.1

/-- A model determines its tree up to what trees that are alike may differ in, and depends on
nothing else. -/
theorem scan_eq_iff_alike (config : Config) (e f : Element) :
    scan config.scanning e = scan config.scanning f ↔ Alike config.detectBooleans e f := by
  constructor
  · intro h
    have halike : Alike config.scanning.truthValues e f :=
      alike_of_records_eq (congrArg Model.records h)
    exact halike
  · intro h
    have halike : Alike config.scanning.truthValues e f := h
    exact scan_congr halike

end Schema
end XmlShape
