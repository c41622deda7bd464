import XmlShape.Regex.Search

/-!
# Templates

A template says what a match is replaced by. It refers to groups by `$name`, where the name is as
long as possible, or by `${name}`; a name made of digits is the number of a group, and the whole
match is group zero. `$$` is a dollar sign, and a dollar sign that begins none of these stands
for itself.
-/

namespace XmlShape
namespace Regex

inductive Piece where
  | char (c : Char)
  | group (name : List Char)
deriving DecidableEq, Repr

def isNameChar (c : Char) : Bool :=
  c.isAlphanum || c == '_'

inductive TemplateMode where
  | plain
  | dollar
  | name (raw : List Char)
  | braced (raw : List Char)

/-- The pieces of a template. A brace begins a name only if it is closed. -/
def piecesFrom (mode : TemplateMode) : List Char → List Piece
  | [] =>
    match mode with
    | .plain => []
    | .dollar => [.char '$']
    | .name raw => [.group raw.reverse]
    | .braced raw => [.group raw.reverse]
  | c :: cs =>
    match mode with
    | .plain => if c = '$' then piecesFrom .dollar cs else .char c :: piecesFrom .plain cs
    | .dollar =>
      if c = '$' then .char '$' :: piecesFrom .plain cs
      else if c = '{' ∧ '}' ∈ cs then piecesFrom (.braced []) cs
      else if isNameChar c then piecesFrom (.name [c]) cs
      else .char '$' :: .char c :: piecesFrom .plain cs
    | .name raw =>
      if isNameChar c then piecesFrom (.name (c :: raw)) cs
      else if c = '$' then .group raw.reverse :: piecesFrom .dollar cs
      else .group raw.reverse :: .char c :: piecesFrom .plain cs
    | .braced raw =>
      if c = '}' then .group raw.reverse :: piecesFrom .plain cs
      else piecesFrom (.braced (c :: raw)) cs

def pieces (template : String) : List Piece :=
  piecesFrom .plain template.toList

/-! # Expansion -/

/-- The number that a name spells, which may begin with a plus sign and has 64 bits. -/
def groupNumber? (name : List Char) : Option Nat :=
  let digits :=
    match name with
    | '+' :: digits => digits
    | _ => name
  if digits.isEmpty || !digits.all (·.isDigit) then none
  else
    let value := digits.foldl (fun n c => n * 10 + (c.toNat - 48)) 0
    if value < Nat.pow 2 64 then some value else none

def Found.group (found : Found) (index : Nat) : List Char :=
  if index = 0 then found.matched else (found.captures.lookup index).getD []

def Piece.expand (names : List (String × Nat)) (found : Found) : Piece → List Char
  | .char c => [c]
  | .group name =>
    match groupNumber? name with
    | some index => found.group index
    | none =>
      match names.lookup (String.ofList name) with
      | some index => found.group index
      | none => []

def Expression.replace? (e : Expression) (template text : String) : Option String :=
  (find? e.pattern text.toList).map fun found =>
    String.ofList
      (found.before ++ (pieces template).flatMap (Piece.expand e.names found) ++ found.after)

end Regex
end XmlShape
