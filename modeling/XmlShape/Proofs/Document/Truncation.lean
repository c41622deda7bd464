import XmlShape.Failure
import XmlShape.Proofs.Document.Limit

/-!
# Documents that are cut off

A written document ends in a tag, which its last character completes. If a part of it that is cut
off before were a document already, that tag would come after the root, where no tag is taken in.
-/

namespace XmlShape
namespace Document

open Markup Text

/-!
# Joined texts

Texts that follow each other are written as one text, so every source is written like one in which
texts are separated.
-/

def joinPiece : Piece → List Piece → List Piece
  | .text xs, .text ys :: pieces => .text (xs ++ ys) :: pieces
  | piece, pieces => piece :: pieces

mutual

def Source.joined : Source → Source
  | ⟨tag, selfClosing, content⟩ => ⟨tag, selfClosing, joinedAll content⟩

def Piece.joined : Piece → Piece
  | .child source => .child source.joined
  | piece => piece

def joinedAll : List Piece → List Piece
  | [] => []
  | piece :: pieces => joinPiece piece.joined (joinedAll pieces)

end

theorem writtenAll_joinPiece (piece : Piece) (pieces : List Piece) :
    writtenAll (joinPiece piece pieces) = piece.written ++ writtenAll pieces := by
  unfold joinPiece
  split
  · next xs ys pieces =>
    simp only [writtenAll, Piece.written, escape_append, List.append_assoc]
  · rfl

theorem separatedAll_joinPiece {piece : Piece} {pieces : List Piece}
    (hpiece : piece.separated = true) (hpieces : separatedAll pieces = true) :
    separatedAll (joinPiece piece pieces) = true := by
  unfold joinPiece
  split
  · next xs ys pieces =>
    simpa only [separatedAll, Piece.isText, Piece.separated] using hpieces
  · next hjoin =>
    have hapart : (piece.isText && pieces.head?.any (·.isText)) = false := by
      cases piece with
      | text xs =>
          cases pieces with
          | nil =>
              rfl
          | cons next pieces =>
              cases next with
              | text ys =>
                  exact absurd rfl (hjoin xs ys pieces rfl)
              | _ =>
                  rfl
      | _ =>
          rfl
    rw [separatedAll, hapart, hpiece, hpieces]
    rfl

theorem isEmpty_joinPiece (piece : Piece) (pieces : List Piece) :
    (joinPiece piece pieces).isEmpty = false := by
  unfold joinPiece
  split <;> rfl

theorem isEmpty_joinedAll (pieces : List Piece) : (joinedAll pieces).isEmpty = pieces.isEmpty := by
  cases pieces with
  | nil =>
      rfl
  | cons piece pieces =>
      rw [joinedAll, isEmpty_joinPiece]
      rfl

mutual

theorem written_joined : (source : Source) → source.joined.written = source.written
  | ⟨tag, selfClosing, content⟩ => by
      rw [Source.joined, Source.written, Source.written, isEmpty_joinedAll,
        writtenAll_joinedAll content]

theorem Piece.written_joined : (piece : Piece) → piece.joined.written = piece.written
  | .text _ => rfl
  | .cdata _ => rfl
  | .comment _ => rfl
  | .instruction _ => rfl
  | .child source => written_joined source

theorem writtenAll_joinedAll : (pieces : List Piece) →
    writtenAll (joinedAll pieces) = writtenAll pieces
  | [] => rfl
  | piece :: pieces => by
      rw [joinedAll, writtenAll_joinPiece, piece.written_joined, writtenAll_joinedAll pieces,
        writtenAll]

end

mutual

theorem separated_joined : (source : Source) → source.joined.separated = true
  | ⟨_, _, content⟩ => separatedAll_joinedAll content

theorem Piece.separated_joined : (piece : Piece) → piece.joined.separated = true
  | .text _ => rfl
  | .cdata _ => rfl
  | .comment _ => rfl
  | .instruction _ => rfl
  | .child source => separated_joined source

theorem separatedAll_joinedAll : (pieces : List Piece) → separatedAll (joinedAll pieces) = true
  | [] => rfl
  | piece :: pieces =>
      separatedAll_joinPiece piece.separated_joined (separatedAll_joinedAll pieces)

end

/-!
# Complete parts

A part of a document that begins in a text and ends in one leaves no markup open.
-/

def Complete (cs : List Char) : Prop :=
  ∀ offset raw, ∃ raw', (run offset (.text raw) cs).2 = .text raw'

theorem complete_nil : Complete [] := by
  intro offset raw
  exact ⟨raw, rfl⟩

theorem complete_append {xs ys : List Char} (hx : Complete xs) (hy : Complete ys) :
    Complete (xs ++ ys) := by
  intro offset raw
  rcases hx offset raw with ⟨raw', hmode⟩
  rw [run_append, hmode]
  exact hy (offset + byteSize xs) raw'

theorem complete_text {cs : List Char} (h : '<' ∉ cs) : Complete cs := by
  intro offset raw
  rw [run_text h]
  exact ⟨_, rfl⟩

theorem complete_of_spells {markup : List Char} {token : Token} (h : Spells markup token) :
    Complete markup := by
  intro offset raw
  rw [h offset raw]
  exact ⟨[], rfl⟩

mutual

theorem complete_source : (source : Source) → Complete source.written
  | ⟨tag, selfClosing, content⟩ => by
      rw [Source.written]
      split
      · exact complete_of_spells tag.spells_empty
      · exact complete_append (complete_of_spells tag.spells_start)
          (complete_append (complete_content content) (complete_of_spells tag.name.spells_end))

theorem complete_piece : (piece : Piece) → Complete piece.written
  | .text chars => complete_text (lt_not_mem_escape chars)
  | .cdata body => complete_of_spells (spells_cdata body.unclosed)
  | .comment body => complete_of_spells (spells_comment body.unclosed)
  | .instruction body => complete_of_spells (spells_instruction body.nonempty body.unclosed)
  | .child source => complete_source source

theorem complete_content : (content : List Piece) → Complete (writtenAll content)
  | [] => complete_nil
  | piece :: content => complete_append (complete_piece piece) (complete_content content)

end

theorem complete_misc (misc : List Misc) : Complete (misc.flatMap (·.written)) := by
  induction misc with
  | nil =>
      exact complete_nil
  | cons first misc ih =>
      rw [List.flatMap_cons]
      apply complete_append _ ih
      cases first with
      | text chars plain =>
          exact complete_text plain
      | comment body =>
          exact complete_of_spells (spells_comment body.unclosed)
      | instruction body =>
          exact complete_of_spells (spells_instruction body.nonempty body.unclosed)

theorem Source.exists_last_tag (source : Source) :
    ∃ front markup token, source.written = front ++ markup ∧ Complete front ∧
      Spells markup token ∧ isTag token = true := by
  cases source with
  | mk tag selfClosing content =>
      rw [Source.written]
      split
      · exact ⟨[], _, _, rfl, complete_nil, tag.spells_empty, rfl⟩
      · refine ⟨'<' :: (tag.inside ++ ['>']) ++ writtenAll content, _, _, ?_, ?_,
          tag.name.spells_end, rfl⟩
        · rw [List.append_assoc]
        · exact complete_append (complete_of_spells tag.spells_start) (complete_content content)

/-!
# The last tag

Its last character belongs to the part that is cut off, so that part completes the tag.
-/

theorem tag_mem_of_cut {before markup front back : List Char} {token : Token} {mode : Mode}
    (hbefore : Complete before) (hspells : Spells markup token)
    (hcut : front ++ back = before ++ markup) (hback : back ≠ [])
    (hmode : (run 0 (.text []) front).2 = mode) :
    ∃ offset, .token offset token ∈ (run (0 + byteSize front) mode back).1 := by
  rcases hbefore 0 [] with ⟨raw, hraw⟩
  have hwhole := run_append 0 (.text []) before markup
  rw [hraw, hspells, ← hcut, run_append, hmode, Prod.mk.injEq] at hwhole
  rcases hwhole with ⟨hitems, hlast⟩
  have hne : (run (0 + byteSize front) mode back).1 ≠ [] := items_ne_nil_of_run hback hlast
  cases hend : (run (0 + byteSize front) mode back).1.getLast? with
  | none =>
      exact absurd (List.getLast?_eq_none_iff.mp hend) hne
  | some item =>
      have htoken := congrArg List.getLast? hitems
      rw [List.getLast?_append, List.getLast?_append, hend] at htoken
      cases htoken
      exact ⟨_, List.mem_of_getLast? hend⟩

/-!
# Cuts
-/

section Cuts

variable {trim : Bool} {limit : Nat} {body back : List Char} {prolog : List Misc} {source : Source}

theorem readFrom_cut_ne_ok
    (hcut : body ++ back = prolog.flatMap (·.written) ++ source.written) (hback : back ≠ [])
    (root : Element) : readFrom ⟨trim, limit⟩ 0 (.text []) {} body ≠ .ok root := by
  intro hbody
  -- with levels enough, the whole text is a document
  let wide : ReadingOptions := ⟨trim, max limit source.joined.depth⟩
  have hwide : readFrom wide 0 (.text []) {} body = .ok root := by
    rw [← hbody]
    apply build_raise (Nat.le_max_left limit source.joined.depth)
    intro depth bound hdeep
    cases hbody.symm.trans hdeep
  have hwhole : readFrom wide 0 (.text []) {} (body ++ back) =
      .ok (source.joined.tree trim) := by
    have h := readFrom_document wide prolog [] (separated_joined source)
      (Nat.le_max_right limit source.joined.depth)
    rw [List.flatMap_nil, List.append_nil, written_joined, ← hcut] at h
    exact h
  -- so the last tag is taken in after the root of the first part
  rcases closed_of_readFrom hwide with ⟨raw, hmode, hrun⟩
  rw [readFrom_append, hrun, hmode] at hwhole
  have hreadBack : readFrom wide (0 + byteSize body) (.text raw) ⟨[], some root⟩ back =
      .ok (source.joined.tree trim) := hwhole
  rcases Progress.of_bind_eq_ok hreadBack with ⟨q, hrest, _⟩
  rcases source.exists_last_tag with ⟨front, markup, token, hwritten, hfront, hspells, htag⟩
  rw [hwritten, ← List.append_assoc] at hcut
  rcases tag_mem_of_cut (complete_append (complete_misc prolog) hfront) hspells hcut hback hmode
    with ⟨offset, hmem⟩
  rw [itemsFrom_eq] at hrest
  have hnone := isTag_eq_false_of_foldlM wide root hrest offset token
    (List.mem_append_left _ hmem)
  rw [htag] at hnone
  cases hnone

end Cuts

/-- A written document without anything after its root is refused as soon as any characters are
missing at its end, and the refusal blames the input. -/
theorem read_cut_documentText (config : Config) (prolog : List Misc) (source : Source)
    {front back : String} (hcut : front ++ back = documentText prolog source [])
    (hback : back ≠ "") :
    ∃ fault, read config.reading front = .error fault ∧
      (Failure.document fault).isInputError = true := by
  cases hread : read config.reading front with
  | error fault =>
      exact ⟨fault, rfl, rfl⟩
  | ok root =>
      rcases exists_readFrom_of_read hread with ⟨body, hfront, _, hbody⟩
      have hlist : front.toList ++ back.toList =
          prolog.flatMap (·.written) ++ source.written := by
        rw [← String.toList_append, hcut, documentText, String.toList_ofList, List.flatMap_nil,
          List.append_nil]
      have hne : back.toList ≠ [] := by
        intro hnil
        exact hback (String.toList_eq_nil_iff.mp hnil)
      rcases hfront with hfront | hfront
      · rw [hfront] at hlist
        exact absurd hbody (readFrom_cut_ne_ok hlist hne root)
      · rcases source.exists_written with ⟨rest, hwritten⟩
        rw [hfront, hwritten, List.cons_append] at hlist
        rcases exists_prolog_of_cons (by decide) hlist.symm with ⟨shorter, hshorter⟩
        rw [← hwritten] at hshorter
        exact absurd hbody (readFrom_cut_ne_ok hshorter hne root)

def letterSource : Source :=
  let key : PlainName := ⟨['t'], by decide, by decide, by decide⟩
  let leaf : Source :=
    ⟨⟨⟨['s'], by decide, by decide, by decide⟩, [], List.Pairwise.nil⟩, true, []⟩
  ⟨⟨⟨['r'], by decide, by decide, by decide⟩, [⟨key, .single, ['>']⟩],
      List.pairwise_singleton _ _⟩, false,
    [.text ['1'], .text ['&'], .child leaf]⟩

theorem read_cut_letterSource :
    "<!--p--><r t='>'>1&am" ++ "p;<s/></r>" =
        documentText [.comment ⟨['p'], by decide⟩] letterSource [] ∧
      "p;<s/></r>" ≠ "" ∧
      ∃ fault, read ({} : Config).reading "<!--p--><r t='>'>1&am" = .error fault ∧
        (Failure.document fault).isInputError = true := by
  have hcut : "<!--p--><r t='>'>1&am" ++ "p;<s/></r>" =
      documentText [.comment ⟨['p'], by decide⟩] letterSource [] := rfl
  have hback : "p;<s/></r>" ≠ "" := by
    decide
  exact ⟨hcut, hback, read_cut_documentText {} _ letterSource hcut hback⟩

end Document
end XmlShape
