import XmlShape.Data.Value
import XmlShape.Decimal.Layout

/-!
# Writing JSON

A value is written either on one line without spaces or over several lines, each level being
indented by two spaces more than the one around it.
-/

namespace XmlShape
namespace Data
namespace Json

/-! # Scalars -/

def hexDigit (n : Nat) : Char :=
  if n < 10 then Char.ofNat (48 + n) else Char.ofNat (87 + n)

def escapeChar (c : Char) : List Char :=
  if c = '\x22' then ['\\', '\x22']
  else if c = '\\' then ['\\', '\\']
  else if c = '\x08' then ['\\', 'b']
  else if c = '\x0c' then ['\\', 'f']
  else if c = '\n' then ['\\', 'n']
  else if c = '\r' then ['\\', 'r']
  else if c = '\t' then ['\\', 't']
  else if c.toNat < 32 then
    ['\\', 'u', '0', '0', hexDigit (c.toNat / 16), hexDigit (c.toNat % 16)]
  else [c]

def quoted (s : String) : String :=
  String.ofList (['\x22'] ++ s.toList.flatMap escapeChar ++ ['\x22'])

/-- A number that JSON can hold is written in the shortest way that reads back. -/
def realText (x : Float) : String :=
  match Decimal.Double.ofFloat x with
  | .finite negative b => Decimal.sign negative ++ Decimal.shortestText b
  | _ => "null"

/-! # One line -/

mutual

def compact : Value → String
  | .null => "null"
  | .bool b => if b then "true" else "false"
  | .integer i => toString i
  | .real x => realText x
  | .text s => quoted s
  | .list items => "[" ++ ",".intercalate (compactItems items) ++ "]"
  | .record fields => "\x7b" ++ ",".intercalate (compactFields fields) ++ "\x7d"

def compactItems : List Value → List String
  | [] => []
  | item :: items => compact item :: compactItems items

def compactFields : List (String × Value) → List String
  | [] => []
  | (name, value) :: fields => (quoted name ++ ":" ++ compact value) :: compactFields fields

end

/-! # Several lines -/

def block (level : Nat) (first last : String) (lines : List String) : String :=
  let margin := String.ofList (List.replicate (2 * level) ' ')
  let indented := lines.map fun line => "\n" ++ margin ++ "  " ++ line
  match lines with
  | [] => first ++ last
  | _ => first ++ ",".intercalate indented ++ "\n" ++ margin ++ last

mutual

def prettyAt (level : Nat) : Value → String
  | .list items => block level "[" "]" (prettyItems (level + 1) items)
  | .record fields => block level "\x7b" "\x7d" (prettyFields (level + 1) fields)
  | value => compact value

def prettyItems (level : Nat) : List Value → List String
  | [] => []
  | item :: items => prettyAt level item :: prettyItems level items

def prettyFields (level : Nat) : List (String × Value) → List String
  | [] => []
  | (name, value) :: fields =>
    (quoted name ++ ": " ++ prettyAt level value) :: prettyFields level fields

end

def pretty (value : Value) : String :=
  prettyAt 0 value

end Json
end Data
end XmlShape
