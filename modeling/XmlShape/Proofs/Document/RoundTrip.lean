import XmlShape.Config
import XmlShape.Proofs.Document.Source

/-!
# Reading written documents

A written document is read as the tree of its source. The reader is followed through the text of
the document: complete markup takes it from text to text, and the text before that markup is
settled into the element it stands in.
-/

namespace XmlShape
namespace Document

open Markup Text

def readFrom (options : ReadingOptions) (offset : Nat) (mode : Mode) (p : Progress)
    (cs : List Char) : Except DocumentFault Element := do
  let q ← (itemsFrom offset mode cs).foldlM (Progress.step options) p
  q.finish

/-- The text `raw`, newest character first, turns what has been built from `p` into `q`. -/
def Settles (options : ReadingOptions) (p : Progress) (raw : List Char) (q : Progress) : Prop :=
  ∀ offset, p.addText options offset raw.reverse = .ok q

section Steps

variable {options : ReadingOptions} {p q r : Progress} {raw : List Char}

theorem readFrom_text {cs : List Char} (h : '<' ∉ cs) (offset : Nat) (rest : List Char) :
    readFrom options offset (.text raw) p (cs ++ rest) =
      readFrom options (offset + byteSize cs) (.text (cs.reverse ++ raw)) p rest := by
  unfold readFrom
  rw [itemsFrom_append, run_text h]
  rfl

theorem readFrom_markup {markup : List Char} {token : Token} (hspells : Spells markup token)
    (hsettles : Settles options p raw q)
    (hstep : ∀ offset, q.step options (.token offset token) = .ok r)
    (offset : Nat) (rest : List Char) :
    readFrom options offset (.text raw) p (markup ++ rest) =
      readFrom options (offset + byteSize markup) (.text []) r rest := by
  have htext : p.step options (.token offset (.text raw.reverse)) = .ok q := hsettles offset
  unfold readFrom
  rw [itemsFrom_append, hspells offset raw]
  simp only [List.cons_append, List.nil_append, List.foldlM_cons, htext, bind, Except.bind, hstep]

theorem settles_outside (root : Option Element) (raw : List Char) :
    Settles options ⟨[], root⟩ raw ⟨[], root⟩ := by
  intro offset
  rfl

theorem settles_inside (parent : OpenElement) (path : List OpenElement) (root : Option Element)
    (chars : List Char) :
    Settles options ⟨parent :: path, root⟩ (escape textSpecial chars).reverse
      (Progress.append ⟨parent :: path, root⟩ (keptText options.trim chars)) := by
  have hspecial : ∀ c, isSpace c = true → textSpecial c = false := by
    intro c hc
    simp only [isSpace, Bool.or_eq_true, beq_iff_eq] at hc
    rcases hc with ((rfl | rfl) | rfl) | rfl <;> rfl
  have hraw : unescape (if options.trim then trim isSpace (escape textSpecial chars)
      else escape textSpecial chars) = .ok (keptText options.trim chars) := by
    cases htrim : options.trim with
    | true =>
        rw [if_pos rfl, trim_escape hspecial]
        exact unescape_escape rfl _
    | false =>
        rw [if_neg Bool.false_ne_true]
        exact unescape_escape rfl _
  intro offset
  rw [List.reverse_reverse]
  simp only [Progress.addText, hraw]

end Steps

/-!
# Tags

A tag opens an element with its name and its attributes, and the end tag of that name closes it.
-/

section Tags

variable {options : ReadingOptions} {path : List OpenElement}

theorem openTag_eq_ok {content : List Char} {attributes : List (String × String)}
    (hattributes : tagAttributes content = .ok attributes)
    (hdepth : path.length + 1 ≤ options.depthLimit) :
    Progress.openTag options ⟨path, none⟩ content =
      .ok { name := String.ofList (tagName content), attributes } := by
  have hlimit : ¬ options.depthLimit < path.length + 1 := Nat.not_lt.mpr hdepth
  unfold Progress.openTag
  simp only [hattributes, hlimit, if_false]

theorem step_startTag {content : List Char} {attributes : List (String × String)}
    (hattributes : tagAttributes content = .ok attributes)
    (hdepth : path.length + 1 ≤ options.depthLimit) (offset : Nat) :
    Progress.step options ⟨path, none⟩ (.token offset (.startTag content)) =
      .ok ⟨{ name := String.ofList (tagName content), attributes } :: path, none⟩ := by
  unfold Progress.step
  simp only [openTag_eq_ok hattributes hdepth]
  rfl

theorem step_emptyTag {content : List Char} {attributes : List (String × String)}
    (hattributes : tagAttributes content = .ok attributes)
    (hdepth : path.length + 1 ≤ options.depthLimit) (offset : Nat) :
    Progress.step options ⟨path, none⟩ (.token offset (.emptyTag content)) =
      .ok (Progress.attach ⟨path, none⟩
        ⟨String.ofList (tagName content), attributes, [], ""⟩) := by
  unfold Progress.step
  simp only [openTag_eq_ok hattributes hdepth]
  rfl

theorem step_endTag (current : OpenElement) (root : Option Element) {name : List Char}
    (h : current.name = String.ofList name) (offset : Nat) :
    Progress.step options ⟨current :: path, root⟩ (.token offset (.endTag name)) =
      .ok (Progress.attach ⟨path, root⟩ current.close) := by
  unfold Progress.step
  simp only [Progress.closeTag, h, if_true]

end Tags

/-!
# Elements and their content

The content of an element is read with the text before it still pending. As no text follows
another directly, a pending text is complete when the next markup settles it.
-/

def OpenElement.extend (o : OpenElement) (children : List Element) (text : List Char) :
    OpenElement :=
  { o with children := children.reverse ++ o.children, text := o.text ++ String.ofList text }

theorem OpenElement.extend_extend (o : OpenElement) (xs ys : List Element) (ts us : List Char) :
    (o.extend xs ts).extend ys us = o.extend (xs ++ ys) (ts ++ us) := by
  simp [OpenElement.extend, String.append_assoc]

@[simp] theorem keptText_nil (trimmed : Bool) : keptText trimmed [] = [] := by
  cases trimmed <;> rfl

theorem lt_not_mem_escape (chars : List Char) : '<' ∉ escape textSpecial chars :=
  not_mem_escape rfl (by decide) (by decide) chars

theorem readFrom_text_piece {options : ReadingOptions} {parent : OpenElement}
    {path : List OpenElement} (chars : List Char) (offset : Nat) (rest : List Char) :
    readFrom options offset (.text []) ⟨parent :: path, none⟩
        (escape textSpecial chars ++ rest) =
      readFrom options (offset + byteSize (escape textSpecial chars))
        (.text (escape textSpecial chars).reverse) ⟨parent :: path, none⟩ rest := by
  rw [readFrom_text (lt_not_mem_escape chars), List.append_nil]

section Elements

variable (options : ReadingOptions)

mutual

theorem readFrom_source : (source : Source) → source.separated = true →
    ∀ {p : Progress} {raw : List Char} {path : List OpenElement},
      Settles options p raw ⟨path, none⟩ → path.length + source.depth ≤ options.depthLimit →
      ∀ (offset : Nat) (rest : List Char),
        readFrom options offset (.text raw) p (source.written ++ rest) =
          readFrom options (offset + byteSize source.written) (.text [])
            (Progress.attach ⟨path, none⟩ (source.tree options.trim)) rest
  | ⟨tag, selfClosing, content⟩, hseparated, p, raw, path, hsettles, hdepth, offset, rest => by
      rw [Source.separated] at hseparated
      rw [Source.depth] at hdepth
      have htag : path.length + 1 ≤ options.depthLimit := by
        omega
      by_cases hempty : (content.isEmpty && selfClosing) = true
      · have hnil : content = [] := by
          simpa using (Bool.and_eq_true_iff.mp hempty).1
        subst hnil
        rw [Source.written, if_pos hempty,
          readFrom_markup tag.spells_empty hsettles (step_emptyTag tag.tagAttributes_inside htag),
          (takeWhile_inside tag).1]
        rfl
      · have hcontent := readFrom_content content hseparated
          { name := String.ofList tag.name.chars, attributes := tag.attributes.map (·.pair) }
          path [] rfl (Or.inl rfl) (by omega)
        rw [Source.written, if_neg hempty, List.append_assoc,
          readFrom_markup tag.spells_start hsettles (step_startTag tag.tagAttributes_inside htag),
          (takeWhile_inside tag).1, List.append_assoc, byteSize_append, ← Nat.add_assoc]
        refine (hcontent _ rest).trans ?_
        simp [OpenElement.extend, OpenElement.close, Source.tree]

theorem readFrom_piece : (piece : Piece) → piece.isText = false → piece.separated = true →
    ∀ {parent : OpenElement} {path : List OpenElement} {pending : List Char},
      path.length + 1 + piece.depth ≤ options.depthLimit →
      ∀ (offset : Nat) (rest : List Char),
        readFrom options offset (.text (escape textSpecial pending).reverse)
            ⟨parent :: path, none⟩ (piece.written ++ rest) =
          readFrom options (offset + byteSize piece.written) (.text [])
            ⟨parent.extend (piece.trees options.trim)
              (keptText options.trim pending ++ piece.kept options.trim) :: path, none⟩ rest
  | .text chars, htext, _, _, _, _, _, _, _ => by
      cases htext
  | .cdata body, _, _, parent, path, pending, _, offset, rest => by
      rw [Piece.written, CDataBody.written, readFrom_markup (spells_cdata body.unclosed)
        (settles_inside parent path none pending) (fun _ => rfl)]
      simp [Progress.append, OpenElement.extend, Piece.trees, Piece.kept, String.append_assoc]
  | .comment body, _, _, parent, path, pending, _, offset, rest => by
      rw [Piece.written, CommentBody.written, readFrom_markup (spells_comment body.unclosed)
        (settles_inside parent path none pending) (fun _ => rfl)]
      simp [Progress.append, OpenElement.extend, Piece.trees, Piece.kept]
  | .instruction body, _, _, parent, path, pending, _, offset, rest => by
      rw [Piece.written, InstructionBody.written,
        readFrom_markup (spells_instruction body.nonempty body.unclosed)
          (settles_inside parent path none pending) (fun _ => rfl)]
      simp [Progress.append, OpenElement.extend, Piece.trees, Piece.kept]
  | .child source, _, hseparated, parent, path, pending, hdepth, offset, rest => by
      rw [Piece.separated] at hseparated
      rw [Piece.depth] at hdepth
      rw [Piece.written, readFrom_source source hseparated
        (settles_inside parent path none pending) hdepth]
      simp [Progress.attach, OpenElement.extend, Piece.trees, Piece.kept]

theorem readFrom_content : (content : List Piece) → separatedAll content = true →
    ∀ (parent : OpenElement) (path : List OpenElement) (pending : List Char) {name : PlainName},
      parent.name = String.ofList name.chars →
      (pending = [] ∨ content.head?.any (·.isText) = false) →
      path.length + 1 + depthAll content ≤ options.depthLimit →
      ∀ (offset : Nat) (rest : List Char),
        readFrom options offset (.text (escape textSpecial pending).reverse)
            ⟨parent :: path, none⟩
            (writtenAll content ++ ('<' :: '/' :: (name.chars ++ ['>']) ++ rest)) =
          readFrom options
            (offset + byteSize (writtenAll content ++ '<' :: '/' :: (name.chars ++ ['>'])))
            (.text [])
            (Progress.attach ⟨path, none⟩ (parent.extend (treesOf options.trim content)
              (keptText options.trim pending ++ content.flatMap (·.kept options.trim))).close)
            rest
  | [], _, parent, path, pending, name, hname, _, _, offset, rest => by
      rw [writtenAll, List.nil_append, List.nil_append, readFrom_markup name.spells_end
        (settles_inside parent path none pending) (step_endTag _ none hname)]
      simp [OpenElement.extend, treesOf]
  | piece :: content, hseparated, parent, path, pending, name, hname, hpending, hdepth,
      offset, rest => by
      simp only [separatedAll, Bool.and_eq_true, Bool.not_eq_true'] at hseparated
      obtain ⟨⟨hnext, hpiece⟩, hcontent⟩ := hseparated
      rw [depthAll] at hdepth
      rw [writtenAll, List.append_assoc, List.append_assoc, byteSize_append, ← Nat.add_assoc]
      cases htext : piece.isText with
      | true =>
          obtain ⟨chars, rfl⟩ : ∃ chars, piece = .text chars := by
            cases piece <;> first | exact ⟨_, rfl⟩ | cases htext
          have hnil : pending = [] := by
            simpa [Piece.isText] using hpending
          have hrest : content.head?.any (·.isText) = false := by
            simpa [Piece.isText] using hnext
          subst hnil
          have h := readFrom_content content hcontent parent path chars hname (Or.inr hrest) (by omega)
          rw [Piece.written]
          refine (readFrom_text_piece chars _ _).trans ((h _ rest).trans ?_)
          simp [treesOf, Piece.trees, Piece.kept]
      | false =>
          have h := readFrom_content content hcontent
            (parent.extend (piece.trees options.trim)
              (keptText options.trim pending ++ piece.kept options.trim))
            path [] hname (Or.inl rfl) (by omega)
          rw [readFrom_piece piece htext hpiece (by omega)]
          refine (h _ rest).trans ?_
          simp [OpenElement.extend_extend, treesOf, List.append_assoc]

end

end Elements

/-!
# Documents

What stands around the root leaves nothing behind: its markup is ignored, and its texts are not
looked at. A byte order mark at the start is such a text.
-/

section Documents

variable (options : ReadingOptions)

theorem readFrom_misc (misc : List Misc) (root : Option Element) (offset : Nat)
    (raw rest : List Char) :
    ∃ stop raw',
      readFrom options offset (.text raw) ⟨[], root⟩ (misc.flatMap (·.written) ++ rest) =
        readFrom options stop (.text raw') ⟨[], root⟩ rest := by
  induction misc generalizing offset raw with
  | nil =>
      exact ⟨offset, raw, rfl⟩
  | cons first misc ih =>
      rw [List.flatMap_cons, List.append_assoc]
      cases first with
      | text chars plain =>
          obtain ⟨stop, raw', h⟩ := ih (offset + byteSize chars) (chars.reverse ++ raw)
          exact ⟨stop, raw', (readFrom_text plain offset _).trans h⟩
      | comment body =>
          obtain ⟨stop, raw', h⟩ := ih (offset + byteSize body.written) []
          exact ⟨stop, raw', (readFrom_markup (spells_comment body.unclosed)
            (settles_outside root raw) (fun _ => rfl) offset _).trans h⟩
      | instruction body =>
          obtain ⟨stop, raw', h⟩ := ih (offset + byteSize body.written) []
          exact ⟨stop, raw', (readFrom_markup (spells_instruction body.nonempty body.unclosed)
            (settles_outside root raw) (fun _ => rfl) offset _).trans h⟩

theorem readFrom_document (prolog epilog : List Misc) {source : Source}
    (hseparated : source.separated = true) (hdepth : source.depth ≤ options.depthLimit) :
    readFrom options 0 (.text []) {}
        (prolog.flatMap (·.written) ++ (source.written ++ epilog.flatMap (·.written))) =
      .ok (source.tree options.trim) := by
  obtain ⟨before, raw, hprolog⟩ := readFrom_misc options prolog none 0 []
    (source.written ++ epilog.flatMap (·.written))
  have hsource := readFrom_source options source hseparated
    (settles_outside none raw) (by simpa using hdepth) before (epilog.flatMap (·.written))
  obtain ⟨stop, raw', hepilog⟩ := readFrom_misc options epilog
    (some (source.tree options.trim)) (before + byteSize source.written) [] []
  rw [List.append_nil] at hepilog
  exact hprolog.trans (hsource.trans (hepilog.trans rfl))

end Documents

theorem Source.exists_written (source : Source) : ∃ cs, source.written = '<' :: cs := by
  obtain ⟨tag, selfClosing, content⟩ := source
  rw [Source.written]
  split
  · exact ⟨_, rfl⟩
  · exact ⟨_, rfl⟩

/-- Without its first character, a prolog that does not begin with markup is still a prolog. -/
theorem exists_prolog_of_cons {prolog : List Misc} {c : Char} {cs rest : List Char}
    (hc : c ≠ '<') (h : prolog.flatMap (·.written) ++ '<' :: rest = c :: cs) :
    ∃ shorter : List Misc, cs = shorter.flatMap (·.written) ++ '<' :: rest := by
  induction prolog with
  | nil =>
      exact absurd (List.cons.inj h).1.symm hc
  | cons first prolog ih =>
      cases first with
      | text chars plain =>
          cases chars with
          | nil =>
              exact ih h
          | cons d chars =>
              have hplain : '<' ∉ chars := by
                intro hmem
                exact plain (List.mem_cons_of_mem d hmem)
              refine ⟨.text chars hplain :: prolog, ?_⟩
              exact (List.cons.inj h).2.symm
      | comment body =>
          exact absurd (List.cons.inj h).1.symm hc
      | instruction body =>
          exact absurd (List.cons.inj h).1.symm hc

theorem items_eq (document : List Char) :
    items document = itemsFrom 0 (.text []) document ∨
      ∃ rest, document = '\uFEFF' :: rest ∧ items document = itemsFrom 0 (.text []) rest := by
  unfold items
  split
  · exact Or.inr ⟨_, rfl, rfl⟩
  · exact Or.inl rfl

/-- A written document is read as the tree of its source. -/
theorem read_documentText (config : Config) (prolog epilog : List Misc) (source : Source)
    (hseparated : source.separated = true) (hdepth : source.depth ≤ config.depthLimit) :
    read config.reading (documentText prolog source epilog) =
      .ok (source.tree config.trimText) := by
  obtain ⟨root, hroot⟩ := source.exists_written
  unfold read documentText
  rw [String.toList_ofList]
  rcases items_eq (prolog.flatMap (·.written) ++
    (source.written ++ epilog.flatMap (·.written))) with hitems | ⟨rest, hrest, hitems⟩
  · rw [hitems]
    exact readFrom_document config.reading prolog epilog hseparated hdepth
  · rw [hroot, List.cons_append] at hrest
    obtain ⟨shorter, hshorter⟩ := exists_prolog_of_cons (by decide) hrest
    rw [← List.cons_append, ← hroot] at hshorter
    rw [hitems, hshorter]
    exact readFrom_document config.reading shorter epilog hseparated hdepth

def sampleSource : Source :=
  let key : PlainName := ⟨['k'], by decide, by decide, by decide⟩
  ⟨⟨⟨['a'], by decide, by decide, by decide⟩, [⟨key, .double, ['>', '\x22', '&']⟩], by simp⟩, false,
    [.text [' ', '<', ' '], .comment ⟨['-'], by decide⟩, .text ['x'],
     .cdata ⟨[' ', ']', ']'], by decide⟩, .instruction ⟨['p'], by decide, by decide, by decide⟩,
     .child ⟨⟨⟨['b'], by decide, by decide, by decide⟩, [⟨key, .single, ['\x22']⟩], by simp⟩,
       true, []⟩]⟩

theorem read_sampleSource :
    sampleSource.separated = true ∧ sampleSource.depth ≤ ({} : Config).depthLimit ∧
      documentText [.text ['\uFEFF', '\n'] (by decide)] sampleSource [.text ['&'] (by decide)] =
        "\uFEFF\n<a k=\">&quot;&amp;\"> &lt; <!----->x<![CDATA[ ]]]]><?p?><b k='\"'/></a>&" ∧
      read ({} : Config).reading
          (documentText [.text ['\uFEFF', '\n'] (by decide)] sampleSource
            [.text ['&'] (by decide)]) =
        .ok ⟨"a", [("k", ">\"&")], [⟨"b", [("k", "\"")], [], ""⟩], "<x ]]"⟩ :=
  ⟨rfl, by decide, rfl, read_documentText {} _ _ sampleSource rfl (by decide)⟩

end Document
end XmlShape
