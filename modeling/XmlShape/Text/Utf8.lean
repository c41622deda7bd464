/-!
# UTF-8

A byte sequence is read as UTF-8 one code point at a time. Where it is not UTF-8, the fault names
the offset of the offending code point and how many of its bytes were acceptable, or that the
input ended inside it.
-/

namespace XmlShape
namespace Text
namespace Utf8

inductive Fault where
  /-- The code point at `offset` is cut off by the end of the input. -/
  | incomplete (offset : Nat)
  /-- The first `length` bytes at `offset` begin no code point. -/
  | invalid (offset length : Nat)
deriving DecidableEq, Repr

def Fault.message : Fault → String
  | .incomplete offset => s!"incomplete utf-8 byte sequence from index {offset}"
  | .invalid offset length => s!"invalid utf-8 sequence of {length} bytes from index {offset}"

/-- The code points a leading byte announces: how many bytes follow it, and the least and the
greatest value of the first of them. -/
def follow (lead : UInt8) : Option (Nat × UInt8 × UInt8) :=
  if lead < 0x80 then some (0, 0x80, 0xBF)
  else if 0xC2 ≤ lead && lead ≤ 0xDF then some (1, 0x80, 0xBF)
  else if lead == 0xE0 then some (2, 0xA0, 0xBF)
  else if lead == 0xED then some (2, 0x80, 0x9F)
  else if 0xE1 ≤ lead && lead ≤ 0xEF then some (2, 0x80, 0xBF)
  else if lead == 0xF0 then some (3, 0x90, 0xBF)
  else if 0xF1 ≤ lead && lead ≤ 0xF3 then some (3, 0x80, 0xBF)
  else if lead == 0xF4 then some (3, 0x80, 0x8F)
  else none

/-- Where the reader stands inside a code point: its offset, the bytes read of it, the bytes
still to come, the range of the next one, and the value so far. -/
structure Pending where
  start : Nat
  seen : Nat
  left : Nat
  low : UInt8
  high : UInt8
  value : Nat

def decodeFrom (offset : Nat) : Option Pending → List UInt8 → Except Fault (List Char)
  | none, [] => .ok []
  | some p, [] => .error (.incomplete p.start)
  | none, b :: bs =>
    match follow b with
    | none => .error (.invalid offset 1)
    | some (0, _, _) => (Char.ofNat b.toNat :: ·) <$> decodeFrom (offset + 1) none bs
    | some (n + 1, low, high) =>
      let value := if n = 0 then b.toNat % 32 else if n = 1 then b.toNat % 16 else b.toNat % 8
      decodeFrom (offset + 1) (some ⟨offset, 1, n + 1, low, high, value⟩) bs
  | some p, b :: bs =>
    if p.low ≤ b && b ≤ p.high then
      let value := p.value * 64 + b.toNat % 64
      if p.left ≤ 1 then (Char.ofNat value :: ·) <$> decodeFrom (offset + 1) none bs
      else decodeFrom (offset + 1) (some ⟨p.start, p.seen + 1, p.left - 1, 0x80, 0xBF, value⟩) bs
    else .error (.invalid p.start p.seen)

def decode (bytes : List UInt8) : Except Fault String :=
  String.ofList <$> decodeFrom 0 none bytes

end Utf8
end Text
end XmlShape
