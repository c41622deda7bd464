import XmlShape.Decimal.Shortest

/-!
# Layout of decimals

The texts of a double in the formats that the library writes: the shortest text that reads back,
positional for exponents of a moderate size, and a fixed number of places.
-/

namespace XmlShape
namespace Decimal

def sign (negative : Bool) : String :=
  if negative then "-" else ""

def zeros (n : Nat) : String :=
  String.ofList (List.replicate n '0')

def withPoint (digits : String) (places : Nat) : String :=
  let padded := zeros (places + 1 - digits.length) ++ digits
  let whole := padded.length - places
  (padded.take whole).toString ++ "." ++ (padded.drop whole).toString

/-! # Shortest text

A number is written positionally, with at least one digit on either side of the point, if its
leading digit stands at most sixteen places before the point or five after it; otherwise it has
one digit before the point and an exponent. -/

def shortestText (b : Binary) : String :=
  let n := shortest b
  let digits := toString n.digits
  let lead := n.exponent + digits.length
  if b.significand = 0 then "0.0"
  else if 0 ≤ n.exponent ∧ lead ≤ 16 then digits ++ zeros n.exponent.toNat ++ ".0"
  else if -5 < lead ∧ lead ≤ 16 then withPoint digits (-n.exponent).toNat
  else
    let mantissa :=
      if digits.length = 1 then digits
      else withPoint digits (digits.length - 1)
    let power := lead - 1
    mantissa ++ "e" ++ (if power < 0 then "-" else "+") ++ toString power.natAbs

/-! # Fixed places -/

/-- The number with `places` digits after the point, rounded to nearest and on a tie to an even
last digit. -/
def fixedText (places : Nat) (b : Binary) : String :=
  let (num, den) := b.ratio places
  withPoint (toString (divNearest num den)) places

def fixed (places : Nat) (x : Float) : String :=
  match Double.ofFloat x with
  | .finite negative b => sign negative ++ fixedText places b
  | .infinite negative => sign negative ++ "inf"
  | .nan => "NaN"

end Decimal
end XmlShape
