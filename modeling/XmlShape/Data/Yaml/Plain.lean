import XmlShape.Text.Blank

/-!
# Plain scalars of YAML

A scalar without quotes stands for nothing, a truth value, a number or a text, depending on how it is
spelled. These spellings decide what a plain scalar is read as, and which texts must be quoted
when they are written.
-/

namespace XmlShape
namespace Data
namespace Yaml

/-! # Nothing and truth values -/

def isNull (text : String) : Bool :=
  ["null", "Null", "NULL", "~"].contains text

def bool? (text : String) : Option Bool :=
  if ["true", "True", "TRUE"].contains text then some true
  else if ["false", "False", "FALSE"].contains text then some false
  else none

/-! # Integers -/

def digit? (base : Nat) (c : Char) : Option Nat :=
  let value? :=
    if '0' ≤ c ∧ c ≤ '9' then some (c.toNat - 48)
    else if 'a' ≤ c ∧ c ≤ 'f' then some (c.toNat - 87)
    else if 'A' ≤ c ∧ c ≤ 'F' then some (c.toNat - 55)
    else none
  value?.filter (· < base)

def digits? (base : Nat) (cs : List Char) : Option Nat :=
  if cs.isEmpty then none
  else (cs.mapM (digit? base)).map fun values => values.foldl (fun n d => n * base + d) 0

def isSign (c : Char) : Bool :=
  c == '+' || c == '-'

/-- Digits after a zero: such a text is no number. -/
def isZeroPadded (cs : List Char) : Bool :=
  let cs :=
    match cs with
    | c :: rest => if isSign c then rest else cs
    | [] => []
  match cs with
  | '0' :: rest => !rest.isEmpty && rest.all (·.isDigit)
  | _ => false

def unsigned? (cs : List Char) : Option Nat :=
  match cs with
  | '0' :: 'x' :: digits => digits? 16 digits
  | '0' :: 'o' :: digits => digits? 8 digits
  | '0' :: 'b' :: digits => digits? 2 digits
  | _ => if isZeroPadded cs then none else digits? 10 cs

def natural? : List Char → Option Nat
  | '+' :: cs => unsigned? cs
  | cs => unsigned? cs

def isInteger (cs : List Char) : Bool :=
  match cs with
  | '-' :: magnitude => (unsigned? magnitude).isSome
  | _ => (natural? cs).isSome

/-! # Numbers with a fraction -/

def isDecimal (cs : List Char) : Bool :=
  let whole := cs.takeWhile (·.isDigit)
  let isExponent : List Char → Bool
    | [] => true
    | e :: power =>
      let digits :=
        match power with
        | c :: rest => if isSign c then rest else power
        | [] => []
      (e == 'e' || e == 'E') && !digits.isEmpty && digits.all (·.isDigit)
  match cs.dropWhile (·.isDigit) with
  | '.' :: rest =>
    let fraction := rest.takeWhile (·.isDigit)
    !(whole.isEmpty && fraction.isEmpty) && isExponent (rest.dropWhile (·.isDigit))
  | rest => !whole.isEmpty && isExponent rest

def isReal (cs : List Char) : Bool :=
  let text := String.ofList cs
  let magnitude :=
    match cs with
    | c :: rest => if isSign c then rest else cs
    | [] => []
  [".inf", ".Inf", ".INF"].contains (String.ofList magnitude) ||
    [".nan", ".NaN", ".NAN"].contains text ||
    (isDecimal magnitude && !isZeroPadded cs)

/-- Whether a plain scalar would be read as something other than a text, or is a number in all but
its leading zeros. -/
def needsQuotes (text : String) : Bool :=
  let cs := text.toList
  cs.isEmpty || isNull text || (bool? text).isSome || isInteger cs || isReal cs ||
    isZeroPadded cs

end Yaml
end Data
end XmlShape
