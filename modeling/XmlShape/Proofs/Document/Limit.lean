import XmlShape.Analysis
import XmlShape.Proofs.Document.Extension
import XmlShape.Proofs.Schema.Depth

/-!
# Depth limits

Whether an element lies too deep is looked at when its tag opens it, after everything else that
can be wrong with the tag. Two readings of a text under different limits therefore go in step
until the lower limit is passed, and a tree is accepted as long as it is not deeper than the limit.
-/

namespace XmlShape
namespace Document

open Markup Text

namespace Progress

/-!
# Levels
-/

def pathReach : List OpenElement → Nat
  | [] => 0
  | o :: path => max (path.length + 1 + Element.heightAll o.children) (pathReach path)

/-- The level of the deepest element that has been met. -/
def reach (p : Progress) : Nat :=
  match p.path with
  | [] => (p.root.map Element.height).getD 0
  | o :: path => pathReach (o :: path)

theorem length_path_le_reach (p : Progress) : p.path.length ≤ p.reach := by
  cases hpath : p.path with
  | nil =>
      exact Nat.zero_le _
  | cons o path =>
      simp only [reach, hpath, pathReach, List.length_cons]
      omega

theorem height_close (o : OpenElement) : o.close.height = 1 + Element.heightAll o.children := by
  rw [Element.height_eq, OpenElement.close, Element.heightAll_reverse]

theorem reach_append (p : Progress) (cs : List Char) : (p.append cs).reach = p.reach := by
  cases p with
  | mk path root =>
      cases path with
      | nil =>
          rfl
      | cons parent path =>
          rfl

/-- A finished element counts from the level at which it was open. -/
theorem reach_attach_close (current : OpenElement) (path : List OpenElement)
    (root : Option Element) :
    (attach ⟨path, root⟩ current.close).reach = pathReach (current :: path) := by
  cases path with
  | nil =>
      simp only [attach, reach, pathReach, Option.map_some, Option.getD_some, height_close,
        List.length_nil]
      omega
  | cons parent path =>
      simp only [attach, reach, pathReach, Element.heightAll, height_close, List.length_cons]
      omega

theorem reach_open {p : Progress} (hroot : p.root = none) {o : OpenElement}
    (ho : o.children = []) : pathReach (o :: p.path) = max p.reach (p.path.length + 1) := by
  cases p with
  | mk path root =>
      cases hroot
      cases path with
      | nil =>
          simp [reach, pathReach, ho, Element.heightAll]
      | cons parent path =>
          simp only [reach, pathReach, ho, Element.heightAll, List.length_cons]
          omega

/-!
# Steps under any limit

An item either does the same whatever the limit is, or it opens an element one level below the
path.
-/

/-- The item has one result under all limits, and that goes no deeper than before. -/
def Keeps (trim : Bool) (p : Progress) (item : Item) : Prop :=
  ∃ result, (∀ limit, step ⟨trim, limit⟩ p item = result) ∧
    (∀ depth limit, result ≠ .error (.tooDeep depth limit)) ∧
    ∀ q, result = .ok q → q.reach = p.reach

/-- The item goes to the level below the path, unless the limit forbids it. -/
def Deepens (trim : Bool) (p : Progress) (item : Item) : Prop :=
  ∃ q, q.reach = max p.reach (p.path.length + 1) ∧
    ∀ limit, step ⟨trim, limit⟩ p item =
      if limit < p.path.length + 1 then .error (.tooDeep (p.path.length + 1) limit) else .ok q

theorem openTag_cases (trim : Bool) (p : Progress) (content : List Char) :
    (∃ fault, (∀ depth limit, fault ≠ .tooDeep depth limit) ∧
        ∀ limit, openTag ⟨trim, limit⟩ p content = .error fault) ∨
      p.root = none ∧ ∃ o : OpenElement, o.children = [] ∧
        ∀ limit, openTag ⟨trim, limit⟩ p content =
          if limit < p.path.length + 1 then .error (.tooDeep (p.path.length + 1) limit)
          else .ok o := by
  cases hroot : p.root with
  | some root =>
      apply Or.inl
      refine ⟨.secondRoot root.name (String.ofList (tagName content)), ?_, ?_⟩
      · intro depth limit h
        cases h
      · intro limit
        simp only [openTag, hroot]
  | none =>
      cases hattributes : tagAttributes content with
      | error fault =>
          apply Or.inl
          refine ⟨.attribute (String.ofList (tagName content)) fault, ?_, ?_⟩
          · intro depth limit h
            cases h
          · intro limit
            simp only [openTag, hroot, hattributes]
      | ok attributes =>
          apply Or.inr
          refine ⟨rfl, { name := String.ofList (tagName content), attributes }, rfl, ?_⟩
          intro limit
          simp only [openTag, hroot, hattributes]

theorem keeps_of_error {trim : Bool} {p : Progress} {item : Item} (fault : DocumentFault)
    (hfault : ∀ depth limit, fault ≠ .tooDeep depth limit)
    (hstep : ∀ limit, step ⟨trim, limit⟩ p item = .error fault) : Keeps trim p item := by
  refine ⟨.error fault, hstep, ?_, ?_⟩
  · intro depth limit h
    cases h
    exact hfault depth limit rfl
  · intro q h
    cases h

theorem keeps_of_ok {trim : Bool} {p q : Progress} {item : Item} (hreach : q.reach = p.reach)
    (hstep : ∀ limit, step ⟨trim, limit⟩ p item = .ok q) : Keeps trim p item := by
  refine ⟨.ok q, hstep, ?_, ?_⟩
  · intro depth limit h
    cases h
  · intro r h
    cases h
    exact hreach

theorem keeps_text (trim : Bool) (p : Progress) (offset : Nat) (raw : List Char) :
    Keeps trim p (.token offset (.text raw)) := by
  cases hpath : p.path with
  | nil =>
      apply keeps_of_ok rfl
      intro limit
      simp only [step, addText, hpath]
  | cons parent path =>
      cases htext : unescape (if trim then Text.trim isSpace raw else raw) with
      | error fault =>
          apply keeps_of_error (.markup offset (.reference fault))
          · intro depth limit h
            cases h
          · intro limit
            simp only [step, addText, hpath, htext]
      | ok cs =>
          apply keeps_of_ok (reach_append p cs)
          intro limit
          simp only [step, addText, hpath, htext]

theorem keeps_endTag (trim : Bool) (p : Progress) (offset : Nat) (name : List Char) :
    Keeps trim p (.token offset (.endTag name)) := by
  cases p with
  | mk path root =>
      cases path with
      | nil =>
          apply keeps_of_error (.markup offset (.illFormed (.unmatchedEnd (String.ofList name))))
          · intro depth limit h
            cases h
          · intro limit
            rfl
      | cons current path =>
          by_cases hname : current.name = String.ofList name
          · apply keeps_of_ok (reach_attach_close current path root)
            intro limit
            simp only [step, closeTag, hname, if_true]
          · apply keeps_of_error
              (.markup offset (.illFormed (.mismatchedEnd current.name (String.ofList name))))
            · intro depth limit h
              cases h
            · intro limit
              simp only [step, closeTag, hname, if_false]

theorem keeps_or_deepens_of_open {trim : Bool} {p : Progress} {item : Item} {content : List Char}
    {next : OpenElement → Progress}
    (hstep : ∀ options, step options p item = do
      let o ← openTag options p content
      return next o)
    (hreach : p.root = none → ∀ o : OpenElement, o.children = [] →
      (next o).reach = max p.reach (p.path.length + 1)) :
    Keeps trim p item ∨ Deepens trim p item := by
  rcases openTag_cases trim p content with ⟨fault, hfault, hopen⟩ | ⟨hroot, o, ho, hopen⟩
  · apply Or.inl
    apply keeps_of_error fault hfault
    intro limit
    rw [hstep, hopen]
    rfl
  · apply Or.inr
    refine ⟨next o, hreach hroot o ho, ?_⟩
    intro limit
    rw [hstep, hopen]
    split <;> rfl

theorem keeps_or_deepens (trim : Bool) (p : Progress) (item : Item) :
    Keeps trim p item ∨ Deepens trim p item := by
  cases item with
  | fault offset fault =>
      apply Or.inl
      apply keeps_of_error (.markup offset fault)
      · intro depth limit h
        cases h
      · intro limit
        rfl
  | token offset token =>
      cases token with
      | text raw =>
          exact Or.inl (keeps_text trim p offset raw)
      | cdata raw =>
          exact Or.inl (keeps_of_ok (reach_append p raw) fun _ => rfl)
      | ignored =>
          exact Or.inl (keeps_of_ok rfl fun _ => rfl)
      | endTag name =>
          exact Or.inl (keeps_endTag trim p offset name)
      | startTag content =>
          apply keeps_or_deepens_of_open fun _ => rfl
          intro hroot o ho
          exact reach_open hroot ho
      | emptyTag content =>
          apply keeps_or_deepens_of_open fun _ => rfl
          intro hroot o ho
          exact (reach_attach_close o p.path p.root).trans (reach_open hroot ho)

/-!
# Readings under two limits
-/

section Readings

variable {trim : Bool} {limit limit' : Nat}

theorem foldlM_raise (hle : limit ≤ limit') (items : List Item) (p : Progress)
    (h : ∀ depth bound, items.foldlM (step ⟨trim, limit⟩) p ≠ .error (.tooDeep depth bound)) :
    items.foldlM (step ⟨trim, limit'⟩) p = items.foldlM (step ⟨trim, limit⟩) p := by
  induction items generalizing p with
  | nil =>
      rfl
  | cons item items ih =>
      rcases keeps_or_deepens trim p item with ⟨result, hstep, _, _⟩ | ⟨q, _, hstep⟩
      · cases result with
        | error fault =>
            rw [foldlM_cons_of_error (hstep limit'), foldlM_cons_of_error (hstep limit)]
        | ok q =>
            rw [foldlM_cons_of_ok (hstep limit)] at h ⊢
            rw [foldlM_cons_of_ok (hstep limit')]
            exact ih q h
      · by_cases hlimit : limit < p.path.length + 1
        · have hdeep := (hstep limit).trans (if_pos hlimit)
          exact absurd (foldlM_cons_of_error hdeep items) (h _ _)
        · have hlow := (hstep limit).trans (if_neg hlimit)
          have hhigh := (hstep limit').trans (if_neg (by omega))
          rw [foldlM_cons_of_ok hlow] at h ⊢
          rw [foldlM_cons_of_ok hhigh]
          exact ih q h

theorem reach_le_of_step {p q : Progress} {item : Item}
    (h : step ⟨trim, limit⟩ p item = .ok q) : p.reach ≤ q.reach := by
  rcases keeps_or_deepens trim p item with ⟨result, hstep, _, hreach⟩ | ⟨r, hreach, hstep⟩
  · exact Nat.le_of_eq (hreach q ((hstep limit).symm.trans h)).symm
  · rw [hstep limit] at h
    split at h
    · cases h
    · cases h
      omega

theorem reach_le_of_foldlM {items : List Item} {p q : Progress}
    (h : items.foldlM (step ⟨trim, limit⟩) p = .ok q) : p.reach ≤ q.reach := by
  induction items generalizing p with
  | nil =>
      cases h
      exact Nat.le_refl _
  | cons item items ih =>
      rcases of_foldlM_cons_eq_ok h with ⟨r, hstep, hrest⟩
      exact Nat.le_trans (reach_le_of_step hstep) (ih hrest)

/-- Under a lower limit a reading goes the same way if it stays within that limit, and otherwise
it stops at the first level beyond. -/
theorem foldlM_lower {items : List Item} {p q : Progress}
    (hp : p.reach ≤ limit) (h : items.foldlM (step ⟨trim, limit'⟩) p = .ok q) :
    items.foldlM (step ⟨trim, limit⟩) p =
      if q.reach ≤ limit then .ok q else .error (.tooDeep (limit + 1) limit) := by
  induction items generalizing p with
  | nil =>
      cases h
      exact (if_pos hp).symm
  | cons item items ih =>
      rcases keeps_or_deepens trim p item with ⟨result, hstep, _, hreach⟩ | ⟨r, hreach, hstep⟩
      · cases result with
        | error fault =>
            rw [foldlM_cons_of_error (hstep limit')] at h
            cases h
        | ok r =>
            rw [foldlM_cons_of_ok (hstep limit')] at h
            rw [foldlM_cons_of_ok (hstep limit)]
            exact ih (hreach r rfl ▸ hp) h
      · by_cases hlimit' : limit' < p.path.length + 1
        · have hdeep := (hstep limit').trans (if_pos hlimit')
          rw [foldlM_cons_of_error hdeep] at h
          cases h
        · have hhigh := (hstep limit').trans (if_neg hlimit')
          rw [foldlM_cons_of_ok hhigh] at h
          by_cases hlimit : limit < p.path.length + 1
          · -- the path has come to the limit, and the reading ends below it
            have hpath : p.path.length = limit := by
              have hlength := length_path_le_reach p
              omega
            have hq : ¬ q.reach ≤ limit := by
              have hrest := reach_le_of_foldlM h
              omega
            have hdeep := (hstep limit).trans (if_pos hlimit)
            rw [foldlM_cons_of_error hdeep, if_neg hq, hpath]
          · have hlow := (hstep limit).trans (if_neg hlimit)
            rw [foldlM_cons_of_ok hlow]
            exact ih (by omega) h

end Readings

end Progress

/-!
# Documents under two limits
-/

section Documents

variable {trim : Bool} {limit limit' : Nat}

theorem build_raise (hle : limit ≤ limit') {items : List Item}
    (h : ∀ depth bound, build ⟨trim, limit⟩ items ≠ .error (.tooDeep depth bound)) :
    build ⟨trim, limit'⟩ items = build ⟨trim, limit⟩ items := by
  have hfold : ∀ depth bound, items.foldlM (Progress.step ⟨trim, limit⟩) {} ≠
      .error (.tooDeep depth bound) := by
    intro depth bound hdeep
    apply h depth bound
    unfold build
    rw [hdeep]
    rfl
  unfold build
  rw [Progress.foldlM_raise hle items {} hfold]

theorem build_lower {items : List Item} {root : Element}
    (h : build ⟨trim, limit'⟩ items = .ok root) :
    build ⟨trim, limit⟩ items =
      if root.depth ≤ limit then .ok root else .error (.tooDeep (limit + 1) limit) := by
  rcases Progress.of_bind_eq_ok h with ⟨q, hitems, hfinish⟩
  cases Progress.finish_eq_ok_iff.mp hfinish
  have hlower := Progress.foldlM_lower (Nat.zero_le limit) hitems
  have hreach : Progress.reach ⟨[], some root⟩ = root.depth := (Element.depth_eq_height root).symm
  rw [hreach] at hlower
  unfold build
  rw [hlower]
  split <;> rfl

theorem depth_le_of_build {items : List Item} {root : Element}
    (h : build ⟨trim, limit⟩ items = .ok root) : root.depth ≤ limit := by
  have hsame : build ⟨trim, limit⟩ items = if root.depth ≤ limit then _ else _ := build_lower h
  rw [h] at hsame
  split at hsame
  · assumption
  · cases hsame

end Documents

/-- The limit decides only whether a tree is too deep: under another limit, a reading that was not
stopped by its own ends in the same way, and a tree that was accepted is accepted or refused at the
first level beyond the limit. An accepted tree can be scanned under the same configuration. -/
theorem read_within_limit (config : Config) (maxDepth : Nat) (text : String)
    (hle : config.depthLimit ≤ { config with maxDepth }.depthLimit) :
    ((∀ depth bound, read config.reading text ≠ .error (.tooDeep depth bound)) →
        read { config with maxDepth }.reading text = read config.reading text) ∧
      (∀ root, read { config with maxDepth }.reading text = .ok root →
        read config.reading text =
          if root.depth ≤ config.depthLimit then .ok root
          else .error (.tooDeep (config.depthLimit + 1) config.depthLimit)) ∧
      ∀ root, read config.reading text = .ok root →
        root.depth ≤ config.depthLimit ∧
          scanWithin config root = .ok (Schema.scan config.scanning root) ∧
          scanText config text = scanWithin config root := by
  refine ⟨build_raise hle, fun root => build_lower, ?_⟩
  intro root hroot
  have hdepth : root.depth ≤ config.depthLimit := depth_le_of_build hroot
  have hwithin : scanWithin config root = .ok (Schema.scan config.scanning root) := by
    unfold scanWithin
    rw [if_neg (Nat.not_lt.mpr hdepth)]
  refine ⟨hdepth, hwithin, ?_⟩
  rw [hwithin]
  unfold scanText
  rw [hroot]
  rfl

theorem read_nested_within_one :
    ({ maxDepth := 1 } : Config).depthLimit ≤ ({ maxDepth := 2 } : Config).depthLimit ∧
      read ({ maxDepth := 2 } : Config).reading "<a><b/></a>" =
        .ok ⟨"a", [], [⟨"b", [], [], ""⟩], ""⟩ ∧
      read ({ maxDepth := 1 } : Config).reading "<a><b/></a>" = .error (.tooDeep 2 1) ∧
      read ({ maxDepth := 2 } : Config).reading "<a></b>" =
        read ({ maxDepth := 1 } : Config).reading "<a></b>" ∧
      scanText { maxDepth := 1 } "<a/>" = scanWithin { maxDepth := 1 } ⟨"a", [], [], ""⟩ := by
  have hle : ({ maxDepth := 1 } : Config).depthLimit ≤ ({ maxDepth := 2 } : Config).depthLimit := by
    decide
  have hnested : read ({ maxDepth := 2 } : Config).reading "<a><b/></a>" =
      .ok ⟨"a", [], [⟨"b", [], [], ""⟩], ""⟩ := rfl
  have hdeep : ¬ Element.depth ⟨"a", [], [⟨"b", [], [], ""⟩], ""⟩ ≤
      ({ maxDepth := 1 } : Config).depthLimit := by
    rw [Element.depth_eq_height]
    decide
  have hfaulty : read ({ maxDepth := 1 } : Config).reading "<a></b>" =
      .error (.markup 3 (.illFormed (.mismatchedEnd "a" "b"))) := rfl
  have hflat : read ({ maxDepth := 1 } : Config).reading "<a/>" = .ok ⟨"a", [], [], ""⟩ := rfl
  refine ⟨hle, hnested, ?_, ?_, ?_⟩
  · have hlow := (read_within_limit { maxDepth := 1 } 2 "<a><b/></a>" hle).2.1 _ hnested
    rw [if_neg hdeep] at hlow
    exact hlow
  · apply (read_within_limit { maxDepth := 1 } 2 "<a></b>" hle).1
    intro depth bound h
    rw [hfaulty] at h
    cases h
  · exact ((read_within_limit { maxDepth := 1 } 2 "<a/>" hle).2.2 _ hflat).2.2

end Document
end XmlShape
