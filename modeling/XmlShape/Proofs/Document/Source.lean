import XmlShape.Document.Element
import XmlShape.Proofs.Markup.Tag

/-!
# Sources of documents

A source says how a document is written: an element with its tag and its content, piece by piece,
and what stands before and after it. From a source one has both the text of the document and the
tree that the text describes.
-/

namespace XmlShape
namespace Document

open Markup Text

/-!
# Pieces without structure
-/

structure CDataBody where
  chars : List Char
  unclosed : ¬ [']', ']', '>'] <:+: chars

structure CommentBody where
  chars : List Char
  unclosed : '>' ∉ chars

structure InstructionBody where
  chars : List Char
  nonempty : chars ≠ []
  unmarked : '?' ∉ chars
  unclosed : '>' ∉ chars

def CDataBody.written (body : CDataBody) : List Char :=
  '<' :: '!' :: '[' :: 'C' :: 'D' :: 'A' :: 'T' :: 'A' :: '[' :: (body.chars ++ [']', ']', '>'])

def CommentBody.written (body : CommentBody) : List Char :=
  '<' :: '!' :: '-' :: '-' :: (body.chars ++ ['-', '-', '>'])

def InstructionBody.written (body : InstructionBody) : List Char :=
  '<' :: '?' :: (body.chars ++ ['?', '>'])

def textSpecial (c : Char) : Bool :=
  c == '&' || c == '<'

/-!
# Elements
-/

mutual

/-- An element. Without content it is written as an empty tag if it is `selfClosing`. -/
inductive Source where
  | mk (tag : OpeningTag) (selfClosing : Bool) (content : List Piece)

inductive Piece where
  | text (chars : List Char)
  | cdata (body : CDataBody)
  | comment (body : CommentBody)
  | instruction (body : InstructionBody)
  | child (source : Source)

end

mutual

def Source.written : Source → List Char
  | ⟨tag, selfClosing, content⟩ =>
      if content.isEmpty && selfClosing then '<' :: (tag.inside ++ ['/', '>'])
      else '<' :: (tag.inside ++ ['>']) ++
        (writtenAll content ++ '<' :: '/' :: (tag.name.chars ++ ['>']))

def Piece.written : Piece → List Char
  | .text chars => escape textSpecial chars
  | .cdata body => body.written
  | .comment body => body.written
  | .instruction body => body.written
  | .child source => source.written

def writtenAll : List Piece → List Char
  | [] => []
  | piece :: pieces => piece.written ++ writtenAll pieces

end

def Piece.isText : Piece → Bool
  | .text _ => true
  | _ => false

mutual

/-- No text follows another directly, here or in any element further down. -/
def Source.separated : Source → Bool
  | ⟨_, _, content⟩ => separatedAll content

def Piece.separated : Piece → Bool
  | .child source => source.separated
  | _ => true

def separatedAll : List Piece → Bool
  | [] => true
  | piece :: pieces =>
      !(piece.isText && pieces.head?.any (·.isText)) && piece.separated && separatedAll pieces

end

mutual

def Source.depth : Source → Nat
  | ⟨_, _, content⟩ => depthAll content + 1

def Piece.depth : Piece → Nat
  | .child source => source.depth
  | _ => 0

def depthAll : List Piece → Nat
  | [] => 0
  | piece :: pieces => max piece.depth (depthAll pieces)

end

/-!
# Trees

A text is kept without the spaces at its ends if texts are trimmed, and a section as it is.
-/

def keptText (trimmed : Bool) (chars : List Char) : List Char :=
  if trimmed then trim isSpace chars else chars

def Piece.kept (trimmed : Bool) : Piece → List Char
  | .text chars => keptText trimmed chars
  | .cdata body => body.chars
  | _ => []

mutual

def Source.tree (trimmed : Bool) : Source → Element
  | ⟨tag, _, content⟩ =>
      { name := String.ofList tag.name.chars
        attributes := tag.attributes.map (·.pair)
        children := treesOf trimmed content
        text := String.ofList (content.flatMap (·.kept trimmed)) }

def Piece.trees (trimmed : Bool) : Piece → List Element
  | .child source => [source.tree trimmed]
  | _ => []

def treesOf (trimmed : Bool) : List Piece → List Element
  | [] => []
  | piece :: pieces => piece.trees trimmed ++ treesOf trimmed pieces

end

/-!
# Around the root
-/

inductive Misc where
  | text (chars : List Char) (plain : '<' ∉ chars)
  | comment (body : CommentBody)
  | instruction (body : InstructionBody)

def Misc.written : Misc → List Char
  | .text chars _ => chars
  | .comment body => body.written
  | .instruction body => body.written

def documentText (prolog : List Misc) (root : Source) (epilog : List Misc) : String :=
  String.ofList (prolog.flatMap (·.written) ++ (root.written ++ epilog.flatMap (·.written)))

end Document
end XmlShape
