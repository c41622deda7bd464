import XmlShape.Data.Toml.Token

/-!
# Words of TOML

A value without quotes is a truth value, a number, or a date or time.
-/

namespace XmlShape
namespace Data
namespace Toml

inductive Word where
  | bool (b : Bool)
  | integer (i : Int)
  | real
  /-- A date, a time or both, in their usual form. -/
  | moment (text : String)
deriving DecidableEq, Repr

/-! # Integers -/

def digits? (base : Nat) : List Char → Option (List Nat)
  | [] => none
  | [c] => do
    let d ← hexDigit? c
    if d < base then some [d] else none
  | c :: '_' :: cs => do
    let d ← hexDigit? c
    if d < base then some (d :: (← digits? base cs)) else none
  | c :: cs => do
    let d ← hexDigit? c
    if d < base then some (d :: (← digits? base cs)) else none

def ofDigits (base : Nat) (digits : List Nat) : Nat :=
  digits.foldl (fun n d => n * base + d) 0

def decimal? (cs : List Char) : Option Nat := do
  let ds ← digits? 10 cs
  if 1 < cs.length ∧ ds.head? = some 0 then none else some (ofDigits 10 ds)

def unsigned (cs : List Char) : Bool × List Char :=
  match cs with
  | '-' :: cs => (true, cs)
  | '+' :: cs => (false, cs)
  | cs => (false, cs)

/-- An integer of 64 bits. Only one in base ten may have a sign. -/
def integer? (cs : List Char) : Option Int := do
  let i : Int ←
    match cs with
    | '0' :: 'x' :: cs => (digits? 16 cs).map fun ds => ofDigits 16 ds
    | '0' :: 'o' :: cs => (digits? 8 cs).map fun ds => ofDigits 8 ds
    | '0' :: 'b' :: cs => (digits? 2 cs).map fun ds => ofDigits 2 ds
    | cs =>
      let (negative, cs) := unsigned cs
      (decimal? cs).map fun n => if negative then -n else n
  if -(Nat.pow 2 63 : Int) ≤ i ∧ i < Nat.pow 2 63 then some i else none

/-! # Real numbers -/

def exponent? (cs : List Char) : Option Int :=
  let (negative, cs) := unsigned cs
  (digits? 10 cs).map fun ds =>
    let n : Int := ofDigits 10 ds
    if negative then -n else n

/-- Whether `m · 10 ^ e` is too large to be a double: it rounds to the power of two that follows the
largest one. -/
def isTooLarge (m : Nat) (e : Int) : Bool :=
  let least := Nat.pow 2 1024 - Nat.pow 2 970
  if m = 0 then false
  else if 0 ≤ e then 400 < e || least ≤ m * Nat.pow 10 e.toNat
  else
    let digits := (Nat.toDigits 10 m).length
    308 < digits + e && least * Nat.pow 10 e.natAbs ≤ m

/-- Whether a word is a real number: digits with a fraction or an exponent or both, or a word for
infinity or for no number. A positive one must not be too large to be a double. -/
def isReal (cs : List Char) : Bool :=
  let (negative, cs) := unsigned cs
  let isPower (c : Char) := c == 'e' || c == 'E'
  let whole := cs.takeWhile fun c => c.isDigit || c == '_'
  let real? : Option (Nat × Int) := do
    let n ← decimal? whole
    match cs.drop whole.length with
    | '.' :: cs =>
      let fraction := cs.takeWhile (!isPower ·)
      let ds ← digits? 10 fraction
      let m := n * Nat.pow 10 ds.length + ofDigits 10 ds
      match cs.drop fraction.length with
      | [] => some (m, -(ds.length : Int))
      | _ :: power => some (m, (← exponent? power) - ds.length)
    | c :: power => if isPower c then some (n, ← exponent? power) else none
    | [] => none
  cs = "inf".toList || cs = "nan".toList ||
    real?.any fun (m, e) => negative || !isTooLarge m e

/-! # Dates and times -/

def takeDigits? (count : Nat) (cs : List Char) : Option (Nat × List Char) :=
  let ds := cs.take count
  if ds.length = count && ds.all (·.isDigit) then
    some (ofDigits 10 (ds.filterMap hexDigit?), cs.drop count)
  else none

def takeChar? (c : Char) : List Char → Option (List Char)
  | d :: cs => if c = d then some cs else none
  | [] => none

def daysIn (year month : Nat) : Nat :=
  if month = 2 then
    if year % 4 = 0 ∧ (year % 100 ≠ 0 ∨ year % 400 = 0) then 29 else 28
  else if [4, 6, 9, 11].contains month then 30
  else 31

def padded (count n : Nat) : String :=
  let digits := toString n
  String.ofList (List.replicate (count - digits.length) '0') ++ digits

def date? (cs : List Char) : Option (String × List Char) := do
  let (year, cs) ← takeDigits? 4 cs
  let (month, cs) ← takeDigits? 2 (← takeChar? '-' cs)
  let (day, cs) ← takeDigits? 2 (← takeChar? '-' cs)
  if 1 ≤ month ∧ month ≤ 12 ∧ 1 ≤ day ∧ day ≤ daysIn year month then
    some (padded 4 year ++ "-" ++ padded 2 month ++ "-" ++ padded 2 day, cs)
  else none

/-- The fraction of a second, of which nine places count and zeros at the end are not written. -/
def secondFraction? (cs : List Char) : Option (String × List Char) :=
  match cs with
  | '.' :: cs =>
    let ds := cs.takeWhile (·.isDigit)
    let shown := ((ds.take 9).reverse.dropWhile (· = '0')).reverse
    if ds.isEmpty then none
    else
      some (if shown.isEmpty then "" else "." ++ String.ofList shown, cs.drop ds.length)
  | cs => some ("", cs)

def time? (cs : List Char) : Option (String × List Char) := do
  let (hour, cs) ← takeDigits? 2 cs
  let (minute, cs) ← takeDigits? 2 (← takeChar? ':' cs)
  let (second, cs) ← takeDigits? 2 (← takeChar? ':' cs)
  let (fraction, cs) ← secondFraction? cs
  if hour ≤ 23 ∧ minute ≤ 59 ∧ second ≤ 60 then
    some (padded 2 hour ++ ":" ++ padded 2 minute ++ ":" ++ padded 2 second ++ fraction, cs)
  else none

def offset? (cs : List Char) : Option String :=
  match cs with
  | [] => some ""
  | ['Z'] | ['z'] => some "Z"
  | c :: cs => do
    let (hour, cs) ← takeDigits? 2 cs
    let (minute, cs) ← takeDigits? 2 (← takeChar? ':' cs)
    let negative := c = '-' && hour * 60 + minute ≠ 0
    if cs.isEmpty ∧ (c = '+' ∨ c = '-') ∧ hour ≤ 23 ∧ minute ≤ 59 then
      some ((if negative then "-" else "+") ++ padded 2 hour ++ ":" ++ padded 2 minute)
    else none

def isTimeMark (c : Char) : Bool :=
  c == 'T' || c == 't' || c == ' '

def moment? (cs : List Char) : Option String :=
  match date? cs with
  | some (date, []) => some date
  | some (date, c :: cs) =>
    if isTimeMark c then do
      let (time, cs) ← time? cs
      some (date ++ "T" ++ time ++ (← offset? cs))
    else none
  | none =>
    match time? cs with
    | some (time, []) => some time
    | _ => none

/-! # Words -/

def word? (cs : List Char) : Option Word :=
  if cs = "true".toList then some (.bool true)
  else if cs = "false".toList then some (.bool false)
  else
    match moment? cs, integer? cs with
    | some text, _ => some (.moment text)
    | none, some i => some (.integer i)
    | none, none => if isReal cs then some .real else none

end Toml
end Data
end XmlShape
