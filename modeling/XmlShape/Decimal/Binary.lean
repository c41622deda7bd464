/-!
# Binary fractions

A finite double is `± m · 2 ^ q`. The decimal forms of a number are worked out from `m` and `q`
in exact arithmetic on natural numbers.
-/

namespace XmlShape
namespace Decimal

/-- The number `significand · 2 ^ exponent`. -/
structure Binary where
  significand : Nat
  exponent : Int
deriving DecidableEq, Repr

inductive Double where
  | finite (negative : Bool) (magnitude : Binary)
  | infinite (negative : Bool)
  | nan
deriving DecidableEq, Repr

def Double.ofBits (bits : Nat) : Double :=
  let negative := bits / Nat.pow 2 63 % 2 == 1
  let exponent : Nat := bits / Nat.pow 2 52 % Nat.pow 2 11
  let fraction := bits % Nat.pow 2 52
  if exponent = Nat.pow 2 11 - 1 then
    if fraction = 0 then .infinite negative else .nan
  else if exponent = 0 then .finite negative ⟨fraction, -1074⟩
  else .finite negative ⟨Nat.pow 2 52 + fraction, exponent - 1075⟩

def Double.ofFloat (x : Float) : Double :=
  .ofBits x.toBits.toNat

def isFinite (x : Float) : Bool :=
  match Double.ofFloat x with
  | .finite .. => true
  | _ => false

namespace Binary

/-- The numerator and the denominator of `b · 10 ^ shift`. -/
def ratio (b : Binary) (shift : Int) : Nat × Nat :=
  (b.significand * Nat.pow 2 b.exponent.toNat * Nat.pow 10 shift.toNat,
   Nat.pow 2 (-b.exponent).toNat * Nat.pow 10 (-shift).toNat)

end Binary

def roundsUp (numerator denominator : Nat) : Bool :=
  let rest := numerator % denominator
  denominator < 2 * rest || (denominator == 2 * rest && numerator / denominator % 2 == 1)

/-- The quotient of two numbers, rounded to the nearest integer and on a tie to an even one. -/
def divNearest (numerator denominator : Nat) : Nat :=
  numerator / denominator + if roundsUp numerator denominator then 1 else 0

end Decimal
end XmlShape
