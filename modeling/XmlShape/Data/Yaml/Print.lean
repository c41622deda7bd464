import XmlShape.Data.Value
import XmlShape.Data.Yaml.Mark
import XmlShape.Data.Yaml.Plain
import XmlShape.Decimal.Layout
import XmlShape.Text.Size

/-!
# Writing YAML

A value is written in block style: a field or an item a line, with lists indented no further than
the name they belong to. A text is written plain if it reads back as that text, as a literal block
if it has several lines, and otherwise in quotes.
-/

namespace XmlShape
namespace Data
namespace Yaml

/-! # Characters -/

def isPrintable (c : Char) : Bool :=
  let n := c.toNat
  n == 0x0A || (0x20 ≤ n && n ≤ 0x7E) || (0xA0 ≤ n && n != 0xFEFF && n != 0xFFFE && n != 0xFFFF)

/-! # Texts -/

structure Traits where
  /-- It begins like something else, or holds what would end it. -/
  indicators : Bool
  /-- It holds a character that cannot stand as it is. -/
  special : Bool
  breaks : Bool
  /-- It begins or ends with a space or a line break. -/
  edges : Bool
  trailingSpace : Bool
  breakSpace : Bool
  spaceBreak : Bool

def firstIndicators : List Char :=
  ['#', ',', '[', ']', '{', '}', '&', '*', '!', '|', '>', '\x27', '\x22', '%', '@', '\x60']

def startsOther (c : Char) (rest : List Char) : Bool :=
  firstIndicators.contains c || (['?', ':', '-'].contains c && rest.head?.all isGap)

/-- Whether a colon that ends a name or a sign that begins a comment comes after `previous`. -/
def holdsIndicator (previous : Char) : List Char → Bool
  | [] => false
  | c :: cs =>
    (c == ':' && cs.head?.all isGap) || (c == '#' && isGap previous) || holdsIndicator c cs

def hasPair (p q : Char → Bool) : List Char → Bool
  | a :: b :: cs => (p a && q b) || hasPair p q (b :: cs)
  | _ => false

def traits (cs : List Char) : Traits :=
  let isSpace := fun (c : Char) => c == ' '
  let edge := fun (c : Char) => isSpace c || isBreak c
  { indicators :=
      ["---".toList, "...".toList].any (·.isPrefixOf cs) ||
        match cs with
        | [] => false
        | c :: rest => startsOther c rest || holdsIndicator c rest
    special := cs.any fun c => !isPrintable c
    breaks := cs.any isBreak
    edges := cs.head?.any edge || cs.getLast?.any edge
    trailingSpace := cs.getLast?.any isSpace
    breakSpace := hasPair isBreak isSpace cs
    spaceBreak := hasPair isSpace isBreak cs }

inductive Form where
  | plain
  | single
  | double
  | literal
deriving DecidableEq

def formOf (isName : Bool) (text : String) : Form :=
  let t := traits text.toList
  let quoted :=
    if t.breakSpace || t.spaceBreak || t.special then .double else .single
  if text.contains '\n' then
    if isName || t.trailingSpace || t.spaceBreak || t.special then .double else .literal
  else if isName && t.breaks then .double
  else if needsQuotes text || t.indicators || t.edges || t.breaks || t.special then quoted
  else .plain

def margin (indent : Nat) : List Char :=
  List.replicate indent ' '

def indentLines (indent : Nat) (atStart : Bool) : List Char → List Char
  | [] => []
  | c :: cs =>
    if isBreak c then c :: indentLines indent true cs
    else (if atStart then margin indent else []) ++ c :: indentLines indent false cs

def singleQuoted (indent : Nat) (cs : List Char) : List Char :=
  let body := indentLines indent false (cs.flatMap fun c => if c = '\x27' then [c, c] else [c])
  let tail := if cs.getLast?.any isBreak then margin indent else []
  ['\x27'] ++ body ++ tail ++ ['\x27']

def hexDigits : Nat → Nat → List Char
  | 0, _ => []
  | count + 1, n =>
    let d := n / Nat.pow 16 count % 16
    Char.ofNat (if d < 10 then 48 + d else 55 + d) :: hexDigits count n

def escapeChar (c : Char) : List Char :=
  let letter? : Option Char :=
    [(0x00, '0'), (0x07, 'a'), (0x08, 'b'), (0x09, 't'), (0x0A, 'n'), (0x0B, 'v'), (0x0C, 'f'),
      (0x0D, 'r'), (0x1B, 'e'), (0x22, '\x22'), (0x5C, '\\'), (0x85, 'N'), (0x2028, 'L'),
      (0x2029, 'P')].lookup c.toNat
  match letter? with
  | some letter => ['\\', letter]
  | none =>
    if isPrintable c then [c]
    else if c.toNat ≤ 0xFF then '\\' :: 'x' :: hexDigits 2 c.toNat
    else if c.toNat ≤ 0xFFFF then '\\' :: 'u' :: hexDigits 4 c.toNat
    else '\\' :: 'U' :: hexDigits 8 c.toNat

def doubleQuoted (cs : List Char) : List Char :=
  ['\x22'] ++ cs.flatMap escapeChar ++ ['\x22']

/-- The mark that begins a literal block: how its indentation is found if it begins with a space or
an empty line, and what becomes of line breaks at its end. -/
def literalMark (cs : List Char) : List Char :=
  let indentation := if cs.head?.any (fun c => c == ' ' || isBreak c) then ['2'] else []
  let chomping :=
    match cs.reverse with
    | [] => ['-']
    | last :: before =>
      if !isBreak last then ['-']
      else if before.head?.all isBreak then ['+']
      else []
  '|' :: indentation ++ chomping

def textLine (indent : Nat) (isName : Bool) (text : String) : List Char :=
  let cs := text.toList
  match formOf isName text with
  | .plain => cs ++ ['\n']
  | .single => singleQuoted indent cs ++ ['\n']
  | .double => doubleQuoted cs ++ ['\n']
  | .literal =>
    literalMark cs ++ '\n' :: indentLines indent true cs ++
      if cs.getLast?.any isBreak then [] else ['\n']

/-! # Values -/

def realText (x : Float) : String :=
  match Decimal.Double.ofFloat x with
  | .finite negative b => Decimal.sign negative ++ Decimal.shortestText b
  | .infinite negative => Decimal.sign negative ++ ".inf"
  | .nan => ".nan"

def isSimpleName (name : String) : Bool :=
  !name.toList.any isBreak && name.utf8ByteSize ≤ 128

inductive Start where
  | dash
  | colon

def Start.line : Start → List Char → List Char
  | dash, cs => cs ++ ['\n']
  | colon, cs => ' ' :: cs ++ ['\n']

def Start.text (indent : Nat) (s : String) : Start → List Char
  | dash => textLine indent false s
  | colon => ' ' :: textLine (indent + 2) false s

mutual

/-- A value at `indent`, which for a value after a colon is the margin of its name. The lines of a
list stand at that margin and the lines of a record two further in. -/
def valueText (indent : Nat) (start : Start) : Value → List Char
  | .null => start.line "null".toList
  | .bool b => start.line (if b then "true".toList else "false".toList)
  | .integer i => start.line (toString i).toList
  | .real x => start.line (realText x).toList
  | .text s => start.text indent s
  | .list items =>
    if items.isEmpty then start.line ['[', ']']
    else
      match start with
      | .dash => (itemLines indent items).drop indent
      | .colon => '\n' :: itemLines indent items
  | .record fields =>
    if fields.isEmpty then start.line ['{', '}']
    else
      match start with
      | .dash => (fieldLines indent fields).drop indent
      | .colon => '\n' :: fieldLines (indent + 2) fields

def itemLines (indent : Nat) : List Value → List Char
  | [] => []
  | item :: items =>
    margin indent ++ '-' :: ' ' :: valueText (indent + 2) .dash item ++ itemLines indent items

def fieldLines (indent : Nat) : List (String × Value) → List Char
  | [] => []
  | (name, value) :: fields =>
    let field :=
      if isSimpleName name then
        (textLine indent true name).dropLast ++ ':' :: valueText indent .colon value
      else
        '?' :: ' ' :: textLine (indent + 2) false name ++ margin indent ++
          ':' :: ' ' :: valueText (indent + 2) .dash value
    margin indent ++ field ++ fieldLines indent fields

end

def print (value : Value) : String :=
  String.ofList (valueText 0 .dash value)

end Yaml
end Data
end XmlShape
