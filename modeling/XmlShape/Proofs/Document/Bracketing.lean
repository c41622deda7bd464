import XmlShape.Proofs.Document.Extension

/-!
# The brackets of a document

Tags are brackets around what an element consists of. The items of a document are those of one
element, with nothing but texts and ignored markup around it, and the tree that is read is the one
that the brackets spell: each tag opens the element it is paired with, and each text is added to the
innermost element that is open.
-/

namespace XmlShape
namespace Document

open Markup Text

def Adds (options : ReadingOptions) : Token → List Char → Prop
  | .text raw, cs => unescape (keptText options.trim raw) = .ok cs
  | .cdata raw, cs => cs = raw
  | .ignored, cs => cs = []
  | _, _ => False

mutual

/-- The items of an element at a level, the root being at level zero. -/
inductive IsElement (options : ReadingOptions) : Nat → List Item → Element → Prop where
  | empty {level : Nat} {content : List Char} {attributes : List (String × String)} (offset : Nat)
      (hattributes : tagAttributes content = .ok attributes)
      (hlevel : level < options.depthLimit) :
      IsElement options level [.token offset (.emptyTag content)]
        ⟨String.ofList (tagName content), attributes, [], ""⟩
  | tagged {level : Nat} {content name cs : List Char} {attributes : List (String × String)}
      {body : List Item} {children : List Element} (start stop : Nat)
      (hattributes : tagAttributes content = .ok attributes)
      (hlevel : level < options.depthLimit)
      (hbody : IsContent options (level + 1) body children cs)
      (hname : String.ofList (tagName content) = String.ofList name) :
      IsElement options level
        (.token start (.startTag content) :: (body ++ [.token stop (.endTag name)]))
        ⟨String.ofList (tagName content), attributes, children, String.ofList cs⟩

inductive IsContent (options : ReadingOptions) :
    Nat → List Item → List Element → List Char → Prop where
  | nil {level : Nat} : IsContent options level [] [] []
  | piece {level : Nat} {body : List Item} {children : List Element} {cs more : List Char}
      {token : Token} (offset : Nat) (hbody : IsContent options level body children cs)
      (hadds : Adds options token more) :
      IsContent options level (body ++ [.token offset token]) children (cs ++ more)
  | child {level : Nat} {body inner : List Item} {children : List Element} {cs : List Char}
      {e : Element} (hbody : IsContent options level body children cs)
      (hinner : IsElement options level inner e) :
      IsContent options level (body ++ inner) (children ++ [e]) cs

end

def IsOutside (item : Item) : Prop :=
  ∃ offset token, item = .token offset token ∧ isTag token = false

def IsDocument (options : ReadingOptions) (items : List Item) (root : Element) : Prop :=
  ∃ before inner after, items = before ++ inner ++ after ∧
    (∀ item ∈ before, IsOutside item) ∧ IsElement options 0 inner root ∧
    ∀ item ∈ after, IsOutside item

/-!
# Brackets are read
-/

section Read

variable {options : ReadingOptions}

theorem step_adds {token : Token} {cs : List Char} (h : Adds options token cs) (o : OpenElement)
    (path : List OpenElement) (offset : Nat) :
    Progress.step options ⟨o :: path, none⟩ (.token offset token) =
      .ok ⟨o.extend [] cs :: path, none⟩ := by
  cases token with
  | text raw =>
      have hraw : unescape (if options.trim then trim isSpace raw else raw) = .ok cs := h
      simp [Progress.step, Progress.addText, hraw, Progress.append, OpenElement.extend]
  | cdata raw =>
      cases h
      simp [Progress.step, Progress.append, OpenElement.extend]
  | ignored =>
      cases h
      simp [Progress.step, OpenElement.extend]
  | _ =>
      cases h

theorem step_outside {item : Item} (h : IsOutside item) (root : Option Element) :
    Progress.step options ⟨[], root⟩ item = .ok ⟨[], root⟩ := by
  rcases h with ⟨offset, token, rfl, htag⟩
  cases token with
  | text raw =>
      rfl
  | cdata raw =>
      rfl
  | ignored =>
      rfl
  | _ =>
      cases htag

theorem foldlM_outside {items : List Item} (h : ∀ item ∈ items, IsOutside item)
    (root : Option Element) :
    items.foldlM (Progress.step options) ⟨[], root⟩ = .ok ⟨[], root⟩ := by
  induction items with
  | nil =>
      rfl
  | cons item items ih =>
      rw [Progress.foldlM_cons_of_ok (step_outside (h item List.mem_cons_self) root)]
      apply ih
      intro other hother
      exact h other (List.mem_cons_of_mem item hother)

mutual

theorem IsElement.foldlM : {level : Nat} → {items : List Item} → {e : Element} →
    IsElement options level items e → ∀ {path : List OpenElement}, path.length = level →
      items.foldlM (Progress.step options) ⟨path, none⟩ = .ok (Progress.attach ⟨path, none⟩ e)
  | _, _, _, .empty _ hattributes hlevel, path, hpath => by
      have hdepth : path.length + 1 ≤ options.depthLimit := hpath ▸ hlevel
      rw [Progress.foldlM_cons_of_ok (step_emptyTag hattributes hdepth _)]
      rfl
  | _, _, _, .tagged _ _ hattributes hlevel hbody hname, path, hpath => by
      have hdepth : path.length + 1 ≤ options.depthLimit := hpath ▸ hlevel
      rw [Progress.foldlM_cons_of_ok (step_startTag hattributes hdepth _),
        Progress.foldlM_append_of_ok (hbody.foldlM _ (congrArg (· + 1) hpath)),
        Progress.foldlM_cons_of_ok (step_endTag _ none hname _)]
      simp [OpenElement.extend, OpenElement.close, pure, Except.pure]

theorem IsContent.foldlM : {level : Nat} → {items : List Item} → {children : List Element} →
    {cs : List Char} → IsContent options level items children cs →
    ∀ (o : OpenElement) {path : List OpenElement}, path.length + 1 = level →
      items.foldlM (Progress.step options) ⟨o :: path, none⟩ =
        .ok ⟨o.extend children cs :: path, none⟩
  | _, _, _, _, .nil, o, path, _ => by
      simp [OpenElement.extend, pure, Except.pure]
  | _, _, _, _, .piece _ hbody hadds, o, path, hpath => by
      rw [Progress.foldlM_append_of_ok (hbody.foldlM o hpath),
        Progress.foldlM_cons_of_ok (step_adds hadds _ path _), OpenElement.extend_extend,
        List.append_nil]
      rfl
  | _, _, _, _, .child hbody hinner, o, path, hpath => by
      have hinside : ∀ o : OpenElement, (o :: path).length = _ := fun _ => hpath
      rw [Progress.foldlM_append_of_ok (hbody.foldlM o hpath), hinner.foldlM (hinside _)]
      simp [Progress.attach, OpenElement.extend]

end

theorem IsDocument.build_eq {items : List Item} {root : Element}
    (h : IsDocument options items root) : build options items = .ok root := by
  rcases h with ⟨before, inner, after, rfl, hbefore, hinner, hafter⟩
  have hprolog : before.foldlM (Progress.step options) ⟨[], none⟩ = .ok ⟨[], none⟩ :=
    foldlM_outside hbefore none
  have hroot := hinner.foldlM List.length_nil
  have hepilog : after.foldlM (Progress.step options) ⟨[], some root⟩ = .ok ⟨[], some root⟩ :=
    foldlM_outside hafter (some root)
  unfold build
  rw [List.append_assoc, Progress.foldlM_append_of_ok hprolog, Progress.foldlM_append_of_ok hroot]
  show (after.foldlM (Progress.step options) ⟨[], some root⟩ >>= _) = _
  rw [hepilog]
  rfl

end Read

/-!
# What is read has brackets

The elements that are open have brackets that are not closed yet. A step goes on with the innermost
of them, opens one inside it or closes it.
-/

section Brackets

variable {options : ReadingOptions}

/-- What has been read while elements are open, the innermost of them first. -/
inductive IsOpen (options : ReadingOptions) : List Item → List OpenElement → Prop where
  | outside {before : List Item} (hbefore : ∀ item ∈ before, IsOutside item) :
      IsOpen options before []
  | inside {before body : List Item} {path : List OpenElement} {content cs : List Char}
      {attributes : List (String × String)} {children : List Element} (offset : Nat)
      (hbefore : IsOpen options before path)
      (hattributes : tagAttributes content = .ok attributes)
      (hlevel : path.length < options.depthLimit)
      (hbody : IsContent options (path.length + 1) body children cs) :
      IsOpen options (before ++ .token offset (.startTag content) :: body)
        (⟨String.ofList (tagName content), attributes, children.reverse, String.ofList cs⟩ :: path)

/-- What has been read, as long as no root is closed and after that. -/
def Reached (options : ReadingOptions) (done : List Item) (p : Progress) : Prop :=
  match p.root with
  | none => IsOpen options done p.path
  | some root => p.path = [] ∧ IsDocument options done root

section Steps

variable {done inner : List Item} {path : List OpenElement} {o : OpenElement} {token : Token}
  {offset : Nat}

theorem IsOpen.attach {e : Element} (h : IsOpen options done path)
    (hinner : IsElement options path.length inner e) :
    Reached options (done ++ inner) (Progress.attach ⟨path, none⟩ e) := by
  cases h with
  | outside hbefore =>
      refine ⟨rfl, done, inner, [], ?_, hbefore, hinner, ?_⟩
      · rw [List.append_nil]
      · intro item hitem
        cases hitem
  | inside start hbefore hattributes hlevel hbody =>
      have hopen := IsOpen.inside start hbefore hattributes hlevel (hbody.child hinner)
      rw [List.reverse_append] at hopen
      rw [List.append_assoc]
      exact hopen

theorem IsOpen.adds {cs : List Char} (h : IsOpen options done (o :: path))
    (hadds : Adds options token cs) (offset : Nat) :
    IsOpen options (done ++ [.token offset token]) (o.extend [] cs :: path) := by
  cases h with
  | inside start hbefore hattributes hlevel hbody =>
      have hopen := IsOpen.inside start hbefore hattributes hlevel (IsContent.piece offset hbody hadds)
      rw [String.ofList_append] at hopen
      rw [List.append_assoc]
      exact hopen

theorem isOutside_concat {items : List Item} {item : Item} (h : ∀ item ∈ items, IsOutside item)
    (hitem : IsOutside item) : ∀ other ∈ items ++ [item], IsOutside other := by
  intro other hother
  cases List.mem_append.mp hother with
  | inl hmem =>
      exact h other hmem
  | inr hmem =>
      rw [List.mem_singleton.mp hmem]
      exact hitem

theorem exists_adds_of_step {q : Progress} (htag : isTag token = false)
    (h : Progress.step options ⟨o :: path, none⟩ (.token offset token) = .ok q) :
    ∃ cs, Adds options token cs := by
  cases token with
  | text raw =>
      simp only [Progress.step, Progress.addText] at h
      split at h
      · exact ⟨_, ‹_›⟩
      · cases h
  | cdata raw =>
      exact ⟨raw, rfl⟩
  | ignored =>
      exact ⟨[], rfl⟩
  | _ =>
      cases htag

theorem of_openTag_eq_ok {content : List Char}
    (h : Progress.openTag options ⟨path, none⟩ content = .ok o) :
    ∃ attributes, tagAttributes content = .ok attributes ∧ path.length < options.depthLimit ∧
      o = { name := String.ofList (tagName content), attributes } := by
  unfold Progress.openTag at h
  cases hattributes : tagAttributes content with
  | error fault =>
      simp only [hattributes] at h
      cases h
  | ok attributes =>
      simp only [hattributes] at h
      split at h
      · cases h
      · cases h
        exact ⟨attributes, rfl, by omega, rfl⟩

theorem IsOpen.step {q : Progress} {item : Item} (h : IsOpen options done path)
    (hstep : Progress.step options ⟨path, none⟩ item = .ok q) :
    Reached options (done ++ [item]) q := by
  cases item with
  | fault offset fault =>
      cases hstep
  | token offset token =>
      cases htag : isTag token with
      | false =>
          cases path with
          | nil =>
              have hitem : IsOutside (.token offset token) := ⟨offset, token, rfl, htag⟩
              rw [step_outside hitem] at hstep
              cases hstep
              cases h with
              | outside hbefore =>
                  exact IsOpen.outside (isOutside_concat hbefore hitem)
          | cons o path =>
              obtain ⟨cs, hadds⟩ := exists_adds_of_step htag hstep
              rw [step_adds hadds] at hstep
              cases hstep
              exact h.adds hadds offset
      | true =>
          cases token with
          | startTag content =>
              obtain ⟨o, hopen, hnext⟩ := Progress.of_bind_eq_ok hstep
              obtain ⟨attributes, hattributes, hlevel, rfl⟩ := of_openTag_eq_ok hopen
              cases hnext
              exact IsOpen.inside offset h hattributes hlevel .nil
          | emptyTag content =>
              obtain ⟨o, hopen, hnext⟩ := Progress.of_bind_eq_ok hstep
              obtain ⟨attributes, hattributes, hlevel, rfl⟩ := of_openTag_eq_ok hopen
              cases hnext
              exact h.attach (.empty offset hattributes hlevel)
          | endTag name =>
              cases h with
              | outside hbefore =>
                  cases hstep
              | inside start hbefore hattributes hlevel hbody =>
                  simp only [Progress.step, Progress.closeTag] at hstep
                  split at hstep
                  · next hname =>
                    -- the innermost element is complete and goes where its start tag stands
                    cases hstep
                    have hinner := IsElement.tagged start offset hattributes hlevel hbody hname
                    have hattach := hbefore.attach hinner
                    rw [List.append_assoc, List.cons_append]
                    simpa [OpenElement.close] using hattach
                  · cases hstep
          | _ =>
              cases htag

theorem IsDocument.step {item : Item} {root : Element} {q : Progress}
    (h : IsDocument options done root)
    (hstep : Progress.step options ⟨[], some root⟩ item = .ok q) :
    Reached options (done ++ [item]) q := by
  have hfold : [item].foldlM (Progress.step options) ⟨[], some root⟩ = .ok q := by
    rw [Progress.foldlM_cons_of_ok hstep]
    rfl
  have hitem : IsOutside item := by
    cases item with
    | fault offset fault =>
        cases hstep
    | token offset token =>
        have htag := isTag_eq_false_of_foldlM options root hfold offset token List.mem_cons_self
        exact ⟨offset, token, rfl, htag⟩
  rw [step_outside hitem] at hstep
  cases hstep
  obtain ⟨before, inner, after, rfl, hbefore, hinner, hafter⟩ := h
  exact ⟨rfl, before, inner, after ++ [item], List.append_assoc _ _ _, hbefore, hinner,
    isOutside_concat hafter hitem⟩

theorem Reached.foldlM {p q : Progress} {items : List Item} (h : Reached options done p)
    (hfold : items.foldlM (Progress.step options) p = .ok q) :
    Reached options (done ++ items) q := by
  induction items generalizing done p with
  | nil =>
      cases hfold
      rw [List.append_nil]
      exact h
  | cons item items ih =>
      obtain ⟨r, hstep, hrest⟩ := Progress.of_foldlM_cons_eq_ok hfold
      rw [List.append_cons]
      refine ih ?_ hrest
      cases p with
      | mk path root =>
          cases root with
          | none =>
              exact IsOpen.step h hstep
          | some root =>
              obtain ⟨rfl, hdocument⟩ := h
              exact hdocument.step hstep

end Steps

end Brackets

/-- The tree of a document is the one that its brackets spell. -/
theorem build_eq_ok_iff {options : ReadingOptions} {items : List Item} {root : Element} :
    build options items = .ok root ↔ IsDocument options items root := by
  constructor
  · intro h
    obtain ⟨q, hitems, hfinish⟩ := Progress.of_bind_eq_ok h
    cases Progress.finish_eq_ok_iff.mp hfinish
    have hnothing : Reached options [] {} := by
      apply IsOpen.outside
      intro item hitem
      cases hitem
    exact (hnothing.foldlM hitems).2
  · exact IsDocument.build_eq

end Document
end XmlShape
