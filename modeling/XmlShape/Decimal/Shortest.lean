import XmlShape.Decimal.Binary

/-!
# Shortest decimals

The shortest decimal of a double is a decimal that reads back as the double, has as few digits as
possible, and of those is the nearest. The reals that read back as `m · 2 ^ q` form an interval
around it, whose ends belong to it when `m` is even. The shortest decimal is the nearest multiple
of the greatest power of ten that has a multiple in this interval.
-/

namespace XmlShape
namespace Decimal

structure Numeral where
  digits : Nat
  exponent : Int
deriving DecidableEq, Repr

/-- The ends of the interval around a double, in quarters of its last place. Below a power of two
the neighbour is only half as far away. -/
def interval (b : Binary) : Nat × Nat :=
  let below := if b.significand = Nat.pow 2 52 ∧ -1074 < b.exponent then 1 else 2
  (4 * b.significand - below, 4 * b.significand + 2)

def readsBack (b : Binary) (n : Numeral) : Bool :=
  let (low, high) := interval b
  let (lowest, unit) := Binary.ratio ⟨low, b.exponent - 2⟩ (-n.exponent)
  let (highest, _) := Binary.ratio ⟨high, b.exponent - 2⟩ (-n.exponent)
  let point := n.digits * unit
  if b.significand % 2 = 0 then lowest ≤ point && point ≤ highest
  else lowest < point && point < highest

/-- The nearest multiple of `10 ^ exponent` among the two next to `b` that reads back. -/
def onGrid? (b : Binary) (exponent : Int) : Option Numeral :=
  let (num, den) := b.ratio (-exponent)
  let below : Numeral := ⟨num / den, exponent⟩
  let above : Numeral := ⟨num / den + 1, exponent⟩
  let byDistance := if roundsUp num den then [above, below] else [below, above]
  byDistance.find? (readsBack b)

def shortestFrom (b : Binary) (exponent : Int) : Nat → Numeral
  | 0 => ⟨0, 0⟩
  | steps + 1 =>
    match onGrid? b exponent with
    | some n => n
    | none => shortestFrom b (exponent - 1) steps

/-- A power of ten above every number that reads back as `b`. -/
def ceilingExponent (b : Binary) : Int :=
  (b.exponent + Nat.log2 b.significand + 2) * 30103 / 100000 + 1

def shortest (b : Binary) : Numeral :=
  shortestFrom b (ceilingExponent b) 20

end Decimal
end XmlShape
