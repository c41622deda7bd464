import XmlShape.Document.Element
import XmlShape.Schema.ElementType
import XmlShape.Text.Blank

/-!
# Classification

The type of a leaf is read off its text, which is trimmed first: an integer of 32 bits, else a
double, else a truth value if those are looked for, else text.
-/

namespace XmlShape

open Text

/-! # Integers -/

def splitSign : List Char → Bool × List Char
  | '+' :: cs => (false, cs)
  | '-' :: cs => (true, cs)
  | cs => (false, cs)

def isDigits (cs : List Char) : Bool :=
  !cs.isEmpty && cs.all (·.isDigit)

def digitsValue (cs : List Char) : Nat :=
  cs.foldl (fun value c => value * 10 + (c.toNat - 48)) 0

/-- An optional sign and digits, with a value of 32 bits. -/
def isInteger (cs : List Char) : Bool :=
  let (negative, digits) := splitSign cs
  isDigits digits && digitsValue digits ≤ (if negative then Nat.pow 2 31 else Nat.pow 2 31 - 1)

/-! # Doubles -/

def isExponent : List Char → Bool
  | [] => true
  | c :: cs => (c == 'e' || c == 'E') && isDigits (splitSign cs).2

def isDecimal (cs : List Char) : Bool :=
  let whole := cs.takeWhile (·.isDigit)
  match cs.dropWhile (·.isDigit) with
  | '.' :: rest =>
    let fraction := rest.takeWhile (·.isDigit)
    !(whole.isEmpty && fraction.isEmpty) && isExponent (rest.dropWhile (·.isDigit))
  | rest => !whole.isEmpty && isExponent rest

/-- Drops one letter that marks a floating point literal from the end. -/
def dropMark (cs : List Char) : List Char :=
  match cs.getLast? with
  | some c => if c ∈ ['d', 'D', 'f', 'F'] then cs.dropLast else cs
  | none => cs

def isDouble (cs : List Char) : Bool :=
  let magnitude := (splitSign cs).2
  magnitude == "Infinity".toList || magnitude == "NaN".toList || isDecimal (dropMark magnitude)

/-! # Leaves and elements -/

def isTruthValue (cs : List Char) : Bool :=
  let lower := cs.map (·.toLower)
  lower == "true".toList || lower == "false".toList

def classifyChars (truthValues : Bool) (cs : List Char) : ElementType :=
  if cs.isEmpty then .string
  else if isInteger cs then .integer
  else if isDouble cs then .double
  else if truthValues && isTruthValue cs then .boolean
  else .string

def classifyText (truthValues : Bool) (text : String) : ElementType :=
  classifyChars truthValues (trim isBlank text.toList)

def classify (truthValues : Bool) (e : Element) : ElementType :=
  if e.hasChildren then .composite else classifyText truthValues e.text

end XmlShape
