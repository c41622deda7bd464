/-!
# Numbers in JSON

A number without a fraction and an exponent is an integer if it fits into 64 bits. Any other
number is a double: its digits are collected as long as they fit into 64 bits, and the double is
their nearest double, multiplied or divided once by a power of ten.
-/

namespace XmlShape
namespace Data
namespace Json

inductive Number where
  | integer (i : Int)
  | real (x : Float)

def powerOfTen (n : Nat) : Float :=
  Float.ofScientific 1 false n

/-- Scales a number by a power of ten, dividing in several steps when the power is out of the
range of doubles. A number too large to be a double is refused. -/
def scale (x : Float) (exponent : Int) : Nat → Option Float
  | 0 => none
  | steps + 1 =>
    if exponent.natAbs ≤ 308 then
      if 0 ≤ exponent then
        let scaled := x * powerOfTen exponent.natAbs
        if scaled.isInf then none else some scaled
      else some (x / powerOfTen exponent.natAbs)
    else if x == 0.0 then some x
    else if 0 ≤ exponent then none
    else scale (x / powerOfTen 308) (exponent + 308) steps

def double (negative : Bool) (significand : Nat) (exponent : Int) : Option Number :=
  (scale (Float.ofNat significand) exponent (exponent.natAbs / 308 + 1)).map fun x =>
    .real (if negative then -x else x)

def digit? (c : Char) : Option Nat :=
  if '0' ≤ c ∧ c ≤ '9' then some (c.toNat - 48) else none

/-- Collects digits into a significand of 64 bits: the significand, how many further digits there
were, and the rest of the text. -/
def significand (value : Nat) : List Char → Nat × Nat × List Char
  | [] => (value, 0, [])
  | c :: cs =>
    match digit? c with
    | none => (value, 0, c :: cs)
    | some digit =>
      if value * 10 + digit < Nat.pow 2 64 then significand (value * 10 + digit) cs
      else
        let further := cs.takeWhile (·.isDigit)
        (value, further.length + 1, cs.drop further.length)

/-- The exponent after `e`, of which all characters must be used. An exponent of more than 31 bits
gives zero or is refused. -/
def withExponent (negative : Bool) (significand : Nat) (exponent : Int) (cs : List Char) :
    Option Number := do
  let (down, digits) :=
    match cs with
    | '+' :: digits => (false, digits)
    | '-' :: digits => (true, digits)
    | digits => (false, digits)
  if digits.isEmpty || !digits.all (·.isDigit) then none
  else
    let power : Nat := digits.foldl (fun n c => n * 10 + (c.toNat - 48)) 0
    let shift : Int := if down then -(power : Int) else (power : Int)
    if power < Nat.pow 2 31 then
      double negative significand (exponent + shift)
    else if significand = 0 ∨ down then some (.real (if negative then -0.0 else 0.0))
    else none

def fraction (negative : Bool) (whole : Nat) (skipped : Nat) : List Char → Option Number
  | [] => double negative whole skipped
  | c :: cs =>
    if c = '.' then
      let used := (cs.takeWhile (·.isDigit)).length
      let (value, further, rest) := significand whole cs
      let exponent : Int := skipped - (used - further : Nat)
      if used = 0 then none
      else
        match rest with
        | [] => double negative value exponent
        | e :: power =>
          if e = 'e' ∨ e = 'E' then withExponent negative value exponent power else none
    else if c = 'e' ∨ c = 'E' then withExponent negative whole skipped cs
    else none

def number? (cs : List Char) : Option Number :=
  let (negative, digits) :=
    match cs with
    | '-' :: digits => (true, digits)
    | digits => (false, digits)
  match digits with
  | [] => none
  | '0' :: c :: _ =>
    if c.isDigit then none else fraction negative 0 0 digits.tail
  | ['0'] => if negative then some (.real (-0.0)) else some (.integer 0)
  | c :: _ =>
    if !c.isDigit then none
    else
      let (value, skipped, rest) := significand 0 digits
      match rest with
      | [] =>
        if skipped ≠ 0 then double negative value skipped
        else if !negative then some (.integer value)
        else if value ≤ Nat.pow 2 63 then some (.integer (-value))
        else some (.real (-(Float.ofNat value)))
      | _ => fraction negative value skipped rest

end Json
end Data
end XmlShape
