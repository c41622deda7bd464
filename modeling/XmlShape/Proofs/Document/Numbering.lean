import XmlShape.Proofs.Document.Bracketing

/-!
# Numbered elements

The elements of a document are numbered in the order of the tags that open them, which is the order
of the tree with ancestors before descendants. From the items alone it can be told which number is
innermost at each of them; what a number is given there is what its element has in the tree.
-/

namespace XmlShape

/-!
# Ancestors before descendants
-/

namespace Element

mutual

def preorder : Element → List Element
  | ⟨name, attributes, children, text⟩ => ⟨name, attributes, children, text⟩ :: preorderAll children

def preorderAll : List Element → List Element
  | [] => []
  | e :: es => e.preorder ++ preorderAll es

end

theorem preorder_eq (e : Element) : e.preorder = e :: preorderAll e.children := by
  cases e
  rfl

theorem preorderAll_singleton (e : Element) : preorderAll [e] = e.preorder := by
  rw [preorderAll, preorderAll, List.append_nil]

theorem preorderAll_append (es fs : List Element) :
    preorderAll (es ++ fs) = preorderAll es ++ preorderAll fs := by
  induction es with
  | nil =>
      rfl
  | cons e es ih =>
      rw [List.cons_append, preorderAll, preorderAll, ih, List.append_assoc]

mutual

theorem length_preorder : (e : Element) → e.preorder.length = e.count
  | ⟨name, attributes, children, text⟩ => by
      rw [preorder, List.length_cons, length_preorderAll children, count, Nat.add_comm]

theorem length_preorderAll : (es : List Element) → (preorderAll es).length = countAll es
  | [] => rfl
  | e :: es => by
      rw [preorderAll, List.length_append, length_preorder e, length_preorderAll es, countAll]

end

/-- The text of an element by its number, if those of the trees begin with `first`. -/
def textAt (first : Nat) (es : List Element) (number : Nat) : List Char :=
  if number < first then []
  else (preorderAll es)[number - first]?.elim [] fun e => e.text.toList

theorem textAt_of_lt {first number : Nat} (h : number < first) (es : List Element) :
    textAt first es number = [] :=
  if_pos h

theorem textAt_nil (first number : Nat) : textAt first [] number = [] := by
  unfold textAt
  split <;> rfl

theorem textAt_singleton (first : Nat) (e : Element) (number : Nat) :
    textAt first [e] number =
      if number = first then e.text.toList else textAt (first + 1) e.children number := by
  unfold textAt
  rw [preorderAll_singleton, preorder_eq]
  by_cases hlt : number < first
  · have hne : number ≠ first := Nat.ne_of_lt hlt
    rw [if_pos hlt, if_neg hne, if_pos (Nat.lt_succ_of_lt hlt)]
  · by_cases heq : number = first
    · rw [if_neg hlt, if_pos heq, heq, Nat.sub_self]
      rfl
    · have hsub : number - first = number - (first + 1) + 1 := by
        omega
      have hge : ¬ number < first + 1 := by
        omega
      rw [if_neg hlt, if_neg heq, if_neg hge, hsub, List.getElem?_cons_succ]

theorem textAt_append (first : Nat) (es fs : List Element) (number : Nat) :
    textAt first (es ++ fs) number =
      textAt first es number ++ textAt (first + countAll es) fs number := by
  unfold textAt
  rw [preorderAll_append]
  by_cases hlt : number < first
  · rw [if_pos hlt, if_pos hlt, if_pos (Nat.lt_add_right _ hlt)]
    rfl
  · rw [if_neg hlt, if_neg hlt]
    by_cases hes : number < first + countAll es
    · have hindex : number - first < (preorderAll es).length := by
        rw [length_preorderAll]
        omega
      rw [if_pos hes, List.append_nil, List.getElem?_append_left hindex]
    · have hindex : (preorderAll es).length ≤ number - first := by
        rw [length_preorderAll]
        omega
      rw [if_neg hes, List.getElem?_append_right hindex, List.getElem?_eq_none hindex,
        length_preorderAll, Nat.sub_sub]
      rfl

theorem textAt_zero {root e : Element} {number : Nat} (h : root.preorder[number]? = some e) :
    textAt 0 [root] number = e.text.toList := by
  rw [textAt, if_neg (Nat.not_lt_zero _), preorderAll_singleton, Nat.sub_zero, h]
  rfl

end Element

namespace Document

open Markup Text

/-!
# Items in their places

Where an item stands is known from the tags before it: an opening tag gives the next number to its
element, and an end tag takes the innermost number off.
-/

/-- What the tags up to an item have opened. -/
structure Nesting where
  /-- How many elements there are so far, and so the number of the next one. -/
  opened : Nat := 0
  /-- The numbers of those that are still open, innermost first. -/
  path : List Nat := []

namespace Nesting

def after (n : Nesting) : Item → Nesting
  | .token _ (.startTag _) => ⟨n.opened + 1, n.opened :: n.path⟩
  | .token _ (.emptyTag _) => ⟨n.opened + 1, n.path⟩
  | .token _ (.endTag _) => ⟨n.opened, n.path.tail⟩
  | _ => n

end Nesting

/-- Each item with what has been opened before it. -/
def located (n : Nesting) : List Item → List (Nesting × Item)
  | [] => []
  | item :: items => (n, item) :: located (n.after item) items

theorem located_append (n : Nesting) (xs ys : List Item) :
    located n (xs ++ ys) = located n xs ++ located (xs.foldl Nesting.after n) ys := by
  induction xs generalizing n with
  | nil =>
      rfl
  | cons item xs ih =>
      rw [List.cons_append, located, located, ih, List.foldl_cons, List.cons_append]

inductive Bracket where
  | opens (number : Nat) (name : String)
  | closes (number : Option Nat) (name : String)
deriving DecidableEq

/-- The brackets that an item stands for. An end tag closes the innermost element. -/
def brackets : Nesting × Item → List Bracket
  | (n, .token _ (.startTag content)) => [.opens n.opened (String.ofList (tagName content))]
  | (n, .token _ (.emptyTag content)) =>
      [.opens n.opened (String.ofList (tagName content)),
        .closes (some n.opened) (String.ofList (tagName content))]
  | (n, .token _ (.endTag name)) => [.closes n.path.head? (String.ofList name)]
  | _ => []

mutual

def bracketsOf (first : Nat) : Element → List Bracket
  | ⟨name, _, children, _⟩ =>
      .opens first name :: (bracketsOfAll (first + 1) children ++ [.closes (some first) name])

def bracketsOfAll (first : Nat) : List Element → List Bracket
  | [] => []
  | e :: es => bracketsOf first e ++ bracketsOfAll (first + e.count) es

end

theorem bracketsOfAll_append (first : Nat) (es fs : List Element) :
    bracketsOfAll first (es ++ fs) =
      bracketsOfAll first es ++ bracketsOfAll (first + Element.countAll es) fs := by
  induction es generalizing first with
  | nil =>
      rfl
  | cons e es ih =>
      rw [List.cons_append, bracketsOfAll, bracketsOfAll, ih, Element.countAll, List.append_assoc,
        Nat.add_assoc]

def opening? : Item → Option (String × Except Markup.Fault (List (String × String)))
  | .token _ (.startTag content) => some (String.ofList (tagName content), tagAttributes content)
  | .token _ (.emptyTag content) => some (String.ofList (tagName content), tagAttributes content)
  | _ => none

theorem exists_content_of_opening? {item : Item} {name : String}
    {attributes : Except Markup.Fault (List (String × String))}
    (h : opening? item = some (name, attributes)) :
    ∃ content, name = String.ofList (tagName content) ∧ attributes = tagAttributes content := by
  unfold opening? at h
  split at h
  · next content =>
    rw [Option.some_inj, Prod.mk.injEq] at h
    exact ⟨content, h.1.symm, h.2.symm⟩
  · next content =>
    rw [Option.some_inj, Prod.mk.injEq] at h
    exact ⟨content, h.1.symm, h.2.symm⟩
  · cases h

/-- What an item adds to the text of the element it stands in. -/
def additions (options : ReadingOptions) : Item → List (Except ReferenceFault (List Char))
  | .token _ (.text raw) => [unescape (keptText options.trim raw)]
  | .token _ (.cdata raw) => [.ok raw]
  | _ => []

/-- What is added while the element with a number is the innermost one. -/
def additionsTo (options : ReadingOptions) (number : Nat) (entries : List (Nesting × Item)) :
    List (Except ReferenceFault (List Char)) :=
  entries.flatMap fun entry =>
    if entry.1.path.head? = some number then additions options entry.2 else []

theorem additionsTo_cons (options : ReadingOptions) (number : Nat) (n : Nesting) (item : Item)
    (entries : List (Nesting × Item)) :
    additionsTo options number ((n, item) :: entries) =
      (if n.path.head? = some number then additions options item else []) ++
        additionsTo options number entries :=
  List.flatMap_cons

theorem additionsTo_append (options : ReadingOptions) (number : Nat)
    (entries entries' : List (Nesting × Item)) :
    additionsTo options number (entries ++ entries') =
      additionsTo options number entries ++ additionsTo options number entries' :=
  List.flatMap_append

/-- Additions without a fault, and what they come to. -/
def Joins (added : List (Except ReferenceFault (List Char))) (cs : List Char) : Prop :=
  ∃ pieces : List (List Char), added = pieces.map .ok ∧ cs = pieces.flatten

theorem Joins.nil : Joins [] [] :=
  ⟨[], rfl, rfl⟩

theorem Joins.append {added added' : List (Except ReferenceFault (List Char))} {cs ds : List Char}
    (h : Joins added cs) (h' : Joins added' ds) : Joins (added ++ added') (cs ++ ds) := by
  obtain ⟨pieces, rfl, rfl⟩ := h
  obtain ⟨pieces', rfl, rfl⟩ := h'
  exact ⟨pieces ++ pieces', List.map_append.symm, List.flatten_append.symm⟩

theorem Adds.joins {options : ReadingOptions} {token : Token} {cs : List Char}
    (h : Adds options token cs) (offset : Nat) :
    Joins (additions options (.token offset token)) cs := by
  cases token with
  | text raw =>
      refine ⟨[cs], ?_, ?_⟩
      · have hraw : unescape (keptText options.trim raw) = .ok cs := h
        rw [additions, hraw]
        rfl
      · exact (List.flatten_singleton).symm
  | cdata raw =>
      have hcs : cs = raw := h
      subst hcs
      exact ⟨[cs], rfl, (List.flatten_singleton).symm⟩
  | ignored =>
      cases h
      exact .nil
  | _ =>
      cases h

/-!
# Items of trees

An element and its content leave the numbers of the open elements as they are, and use up a number
for each element in them.
-/

/-- What items tell of the trees that stand in them: the tags of their elements, and what is added
to each number. -/
structure Tells (options : ReadingOptions) (n : Nesting) (items : List Item) (es : List Element)
    (text : Nat → List Char) : Prop where
  after : items.foldl Nesting.after n = ⟨n.opened + Element.countAll es, n.path⟩
  tags : (located n items).flatMap brackets = bracketsOfAll n.opened es
  starts : items.filterMap opening? =
    (Element.preorderAll es).map fun e => (e.name, .ok e.attributes)
  texts : ∀ number, Joins (additionsTo options number (located n items)) (text number)

section Tells

variable {options : ReadingOptions}

theorem Tells.congr {n : Nesting} {items : List Item} {es : List Element}
    {text text' : Nat → List Char} (h : Tells options n items es text)
    (hsame : ∀ number, text number = text' number) : Tells options n items es text' :=
  funext hsame ▸ h

theorem Tells.append {n : Nesting} {xs ys : List Item} {es fs : List Element}
    {text text' : Nat → List Char} (h : Tells options n xs es text)
    (h' : Tells options ⟨n.opened + Element.countAll es, n.path⟩ ys fs text') :
    Tells options n (xs ++ ys) (es ++ fs) fun number => text number ++ text' number := by
  constructor
  · rw [List.foldl_append, h.after, h'.after, Element.countAll_append, Nat.add_assoc]
  · rw [located_append, List.flatMap_append, h.after, h.tags, h'.tags, bracketsOfAll_append]
  · rw [List.filterMap_append, h.starts, h'.starts, Element.preorderAll_append, List.map_append]
  · intro number
    rw [located_append, additionsTo_append, h.after]
    exact (h.texts number).append (h'.texts number)

theorem Adds.tells {token : Token} {cs : List Char} (h : Adds options token cs)
    (offset opened innermost : Nat) (path : List Nat) :
    Tells options ⟨opened, innermost :: path⟩ [.token offset token] []
      fun number => if number = innermost then cs else [] := by
  have htexts : ∀ number, Joins
      (additionsTo options number (located ⟨opened, innermost :: path⟩ [.token offset token]))
      (if number = innermost then cs else []) := by
    intro number
    rw [located, additionsTo_cons, List.head?_cons]
    by_cases hnumber : number = innermost
    · rw [if_pos hnumber, if_pos (congrArg some hnumber.symm)]
      rw [← List.append_nil cs]
      exact (h.joins offset).append .nil
    · have hne : some innermost ≠ some number := by
        intro heq
        exact hnumber (Option.some_inj.mp heq).symm
      rw [if_neg hnumber, if_neg hne]
      exact .nil
  cases token with
  | text raw =>
      exact ⟨rfl, rfl, rfl, htexts⟩
  | cdata raw =>
      exact ⟨rfl, rfl, rfl, htexts⟩
  | ignored =>
      exact ⟨rfl, rfl, rfl, htexts⟩
  | _ =>
      cases h

theorem Tells.tagged {n : Nesting} {content name cs : List Char} {body : List Item}
    {attributes : List (String × String)} {children : List Element} (start stop : Nat)
    (hattributes : tagAttributes content = .ok attributes)
    (hname : String.ofList (tagName content) = String.ofList name)
    (h : Tells options ⟨n.opened + 1, n.opened :: n.path⟩ body children fun number =>
      if number = n.opened then cs else Element.textAt (n.opened + 1) children number) :
    let e : Element := ⟨String.ofList (tagName content), attributes, children, String.ofList cs⟩
    Tells options n (.token start (.startTag content) :: (body ++ [.token stop (.endTag name)]))
      [e] (Element.textAt n.opened [e]) := by
  intro e
  have hafter : n.after (.token start (.startTag content)) =
      ⟨n.opened + 1, n.opened :: n.path⟩ := rfl
  constructor
  · rw [List.foldl_cons, hafter, List.foldl_append, h.after]
    simp [Nesting.after, Element.countAll, Element.count_eq, e, Nat.add_assoc]
  · rw [located, hafter, List.flatMap_cons, located_append, List.flatMap_append, h.tags, h.after]
    simp [located, brackets, bracketsOfAll, bracketsOf, e, hname]
  · rw [List.filterMap_cons, List.filterMap_append, h.starts]
    simp [opening?, hattributes, Element.preorderAll, Element.preorder, e]
  · intro number
    rw [located, additionsTo_cons, hafter, located_append, additionsTo_append,
      Element.textAt_singleton, String.toList_ofList]
    have hstart : additions options (.token start (.startTag content)) = [] := rfl
    have hstop : additionsTo options number
        (located (body.foldl Nesting.after ⟨n.opened + 1, n.opened :: n.path⟩)
          [.token stop (.endTag name)]) = [] := by
      simp [located, additionsTo, additions]
    rw [hstart, hstop, ite_self, List.nil_append, List.append_nil]
    exact h.texts number

mutual

theorem IsElement.tells : {level : Nat} → {items : List Item} → {e : Element} →
    IsElement options level items e → ∀ n : Nesting,
      Tells options n items [e] (Element.textAt n.opened [e])
  | _, _, _, .empty offset hattributes _, n => by
      refine ⟨rfl, rfl, ?_, ?_⟩
      · simp [opening?, hattributes, Element.preorderAll, Element.preorder]
      · intro number
        rw [Element.textAt_singleton, Element.textAt_nil, String.toList_empty, ite_self]
        simp [located, additionsTo, additions, Joins.nil]
  | _, _, _, .tagged start stop hattributes _ hbody hname, n =>
      .tagged start stop hattributes hname (hbody.tells (Nat.lt_succ_self n.opened) n.path)

theorem IsContent.tells : {level : Nat} → {items : List Item} → {children : List Element} →
    {cs : List Char} → IsContent options level items children cs →
    ∀ {opened innermost : Nat}, innermost < opened → ∀ path : List Nat,
      Tells options ⟨opened, innermost :: path⟩ items children fun number =>
        if number = innermost then cs else Element.textAt opened children number
  | _, _, _, _, .nil, opened, innermost, _, path => by
      refine ⟨rfl, rfl, rfl, ?_⟩
      intro number
      rw [Element.textAt_nil, ite_self]
      exact .nil
  | _, _, _, _, .piece offset hbody hadds, opened, innermost, hlt, path => by
      have hall := (hbody.tells hlt path).append (hadds.tells offset _ innermost path)
      rw [List.append_nil] at hall
      apply hall.congr
      intro number
      split
      · rfl
      · exact List.append_nil _
  | _, _, _, _, .child hbody hinner, opened, innermost, hlt, path => by
      apply ((hbody.tells hlt path).append (hinner.tells _)).congr
      intro number
      split
      · next hnumber =>
        -- the numbers in the child are above that of the element around it
        rw [hnumber, Element.textAt_of_lt (Nat.lt_add_right _ hlt), List.append_nil]
      · exact (Element.textAt_append _ _ _ number).symm

end

theorem tells_outside {items : List Item} (h : ∀ item ∈ items, IsOutside item) (opened : Nat) :
    Tells options ⟨opened, []⟩ items [] fun _ => [] := by
  induction items with
  | nil =>
      exact ⟨rfl, rfl, rfl, fun _ => .nil⟩
  | cons item items ih =>
      have hitems := ih fun other hother => h other (List.mem_cons_of_mem item hother)
      obtain ⟨offset, token, rfl, htag⟩ := h item List.mem_cons_self
      have hitem : Tells options ⟨opened, []⟩ [.token offset token] [] fun _ => [] := by
        cases token with
        | text raw =>
            exact ⟨rfl, rfl, rfl, fun _ => .nil⟩
        | cdata raw =>
            exact ⟨rfl, rfl, rfl, fun _ => .nil⟩
        | ignored =>
            exact ⟨rfl, rfl, rfl, fun _ => .nil⟩
        | _ =>
            cases htag
      exact hitem.append hitems

theorem IsDocument.tells {items : List Item} {root : Element} (h : IsDocument options items root) :
    Tells options {} items [root] (Element.textAt 0 [root]) := by
  obtain ⟨before, inner, after, rfl, hbefore, hinner, hafter⟩ := h
  apply (((tells_outside hbefore 0).append (hinner.tells _)).append (tells_outside hafter _)).congr
  intro number
  rw [List.nil_append, List.append_nil]
  rfl

end Tells

/-!
# Nothing is lost, doubled or moved
-/

/-- A tree with all that the items hold, and with nothing else. -/
structure Preserves (options : ReadingOptions) (items : List Item) (root : Element) : Prop where
  /-- The tags are the brackets of the tree, an end tag closing the element that it stands in. -/
  tags : (located {} items).flatMap brackets = bracketsOf 0 root
  /-- The tags that open elements list them with ancestors before descendants. -/
  starts : items.filterMap opening? = root.preorder.map fun e => (e.name, .ok e.attributes)
  count : root.count = items.countP fun item => (opening? item).isSome
  /-- A text is made of the pieces that are read while its element is the innermost one. -/
  texts : ∀ number e, root.preorder[number]? = some e →
    Joins (additionsTo options number (located {} items)) e.text.toList

/-- The tree of a document preserves its elements, their attributes and their texts. -/
theorem read_preserves (config : Config) {text : String} {root : Element}
    (h : read config.reading text = .ok root) :
    Preserves config.reading (items text.toList) root := by
  have htells := (build_eq_ok_iff.mp h).tells
  have hstarts := htells.starts
  rw [Element.preorderAll_singleton] at hstarts
  constructor
  · rw [htells.tags, bracketsOfAll, bracketsOfAll, List.append_nil]
  · exact hstarts
  · rw [← List.length_filterMap_eq_countP, hstarts, List.length_map, Element.length_preorder]
  · intro number e he
    rw [← Element.textAt_zero he]
    exact htells.texts number

theorem read_preserves_mixed :
    read ({} : Config).reading "x<a>1<b/>&amp;<!--2--><![CDATA[<]]></a>3" =
        .ok ⟨"a", [], [⟨"b", [], [], ""⟩], "1&<"⟩ ∧
      Preserves ({} : Config).reading (items "x<a>1<b/>&amp;<!--2--><![CDATA[<]]></a>3".toList)
        ⟨"a", [], [⟨"b", [], [], ""⟩], "1&<"⟩ := by
  have hread : read ({} : Config).reading "x<a>1<b/>&amp;<!--2--><![CDATA[<]]></a>3" =
      .ok ⟨"a", [], [⟨"b", [], [], ""⟩], "1&<"⟩ := rfl
  exact ⟨hread, read_preserves {} hread⟩

end Document
end XmlShape
