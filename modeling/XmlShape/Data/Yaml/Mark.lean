/-!
# Marked characters

The structure of a YAML text depends on where its characters stand, so each is marked with its line
and column. Line breaks take one form: all but the two separators of Unicode become line feeds.
-/

namespace XmlShape
namespace Data
namespace Yaml

/-! # Classes of characters -/

def isBreak (c : Char) : Bool :=
  [0x0A, 0x0D, 0x85, 0x2028, 0x2029].contains c.toNat

def isBlank (c : Char) : Bool :=
  c == ' ' || c == '\t'

def isGap (c : Char) : Bool :=
  isBlank c || isBreak c

def isAllowed (c : Char) : Bool :=
  let n := c.toNat
  n == 0x09 || n == 0x0A || n == 0x0D || (0x20 ≤ n && n ≤ 0x7E) || n == 0x85 ||
    (0xA0 ≤ n && n != 0xFEFF && n != 0xFFFE && n != 0xFFFF)

def isNameChar (c : Char) : Bool :=
  c.isAlphanum || c == '_' || c == '-'

/-! # Marks -/

structure Mark where
  char : Char
  line : Nat
  column : Nat
deriving DecidableEq, Repr

def marksFrom (line column : Nat) : List Char → List Mark
  | [] => []
  | '\r' :: '\n' :: cs => ⟨'\n', line, column⟩ :: marksFrom (line + 1) 0 cs
  | c :: cs =>
    if c = '\r' ∨ c.toNat = 0x85 then ⟨'\n', line, column⟩ :: marksFrom (line + 1) 0 cs
    else if isBreak c then ⟨c, line, column⟩ :: marksFrom (line + 1) 0 cs
    else ⟨c, line, column⟩ :: marksFrom line (column + 1) cs

/-- The marks of a text. A byte order mark before it is passed over; none are given if a character
may not stand in it. -/
def marks? (text : String) : Option (List Mark) :=
  let cs :=
    match text.toList with
    | '\uFEFF' :: cs => cs
    | cs => cs
  if cs.all isAllowed then some (marksFrom 0 0 cs) else none

/-! # Looking ahead -/

def endsHere (ms : List Mark) : Bool :=
  ms.head?.all fun m => isGap m.char

/-- Three dashes or points at the start of a line, which begin or end a document: the character of
which they are made. -/
def documentMark? : List Mark → Option Char
  | a :: b :: c :: ms =>
    if a.column = 0 && (a.char = '-' || a.char = '.') && b.char = a.char && c.char = a.char &&
        endsHere ms then
      some a.char
    else none
  | _ => none

def nextLine? (ms : List Mark) : Option (List Mark) :=
  let ms := ms.dropWhile (isBlank ·.char)
  let ms : List Mark :=
    match ms with
    | ⟨'#', _, _⟩ :: _ => ms.dropWhile (!isBreak ·.char)
    | _ => ms
  match ms with
  | [] => some []
  | m :: ms => if isBreak m.char then some ms else none

end Yaml
end Data
end XmlShape
