/-!
# Faults of markup

What a reader of markup can object to, in four groups: a piece of markup that does not end, a
piece that ends but is not well formed, a faulty attribute, and a faulty reference in a text or
an attribute value. Positions count bytes.
-/

namespace XmlShape
namespace Markup

inductive Unfinished where
  | declaration
  | instruction
  | comment
  | doctype
  | cdata
  | tag
deriving DecidableEq, Repr

inductive IllFormed where
  | missingDoctypeName
  | unmatchedEnd (name : String)
  | mismatchedEnd (expected found : String)
deriving DecidableEq, Repr

/-- A faulty attribute; positions count from the byte after the `<` of its tag. -/
inductive AttributeFault where
  | expectedEquals (position : Nat)
  | expectedValue (position : Nat)
  | unquotedValue (position : Nat)
  | expectedQuote (position : Nat) (quote : Char)
  | duplicated (position previous : Nat)
deriving DecidableEq, Repr

inductive DigitFault where
  | empty
  | invalid
  | tooLarge
deriving DecidableEq, Repr

inductive CharacterFault where
  | sign
  | digits (fault : DigitFault)
  | zero
  | notScalar (code : Nat)
deriving DecidableEq, Repr

/-- A faulty reference; positions count from the start of the text that holds it. -/
inductive ReferenceFault where
  | unterminated (start stop : Nat)
  | unknownEntity (start stop : Nat) (name : String)
  | character (fault : CharacterFault)
deriving DecidableEq, Repr

inductive Fault where
  | unfinished (fault : Unfinished)
  | illFormed (fault : IllFormed)
  | attribute (fault : AttributeFault)
  | reference (fault : ReferenceFault)
deriving DecidableEq, Repr

/-! # Wording -/

def Unfinished.message : Unfinished → String
  | .declaration => "unknown or missed symbol in markup"
  | .instruction =>
    "processing instruction or xml declaration not closed: `?>` not found before end of input"
  | .comment => "comment not closed: `-->` not found before end of input"
  | .doctype => "DOCTYPE not closed: `>` not found before end of input"
  | .cdata => "CDATA not closed: `]]>` not found before end of input"
  | .tag => "tag not closed: `>` not found before end of input"

def IllFormed.message : IllFormed → String
  | .missingDoctypeName =>
    "`<!DOCTYPE>` declaration does not contain a name of a document type"
  | .unmatchedEnd name => s!"close tag `</{name}>` does not match any open tag"
  | .mismatchedEnd expected found => s!"expected `</{expected}>`, but `</{found}>` was found"

def AttributeFault.message : AttributeFault → String
  | .expectedEquals position =>
    s!"position {position}: attribute key must be directly followed by `=` or space"
  | .expectedValue position => s!"position {position}: `=` must be followed by an attribute value"
  | .unquotedValue position =>
    s!"position {position}: attribute value must be enclosed in `\"` or `'`"
  | .expectedQuote position quote =>
    s!"position {position}: missing closing quote `{quote}` in attribute value"
  | .duplicated position previous =>
    s!"position {position}: duplicated attribute, previous declaration at position {previous}"

def DigitFault.message : DigitFault → String
  | .empty => "cannot parse integer from empty string"
  | .invalid => "invalid digit found in string"
  | .tooLarge => "number too large to fit in target type"

def CharacterFault.message : CharacterFault → String
  | .sign => "unexpected number sign"
  | .digits fault => fault.message
  | .zero => "0x0 character is not permitted in XML"
  | .notScalar code => s!"`{code}` is not a valid codepoint"

def ReferenceFault.message : ReferenceFault → String
  | .unterminated start stop =>
    s!"Error while escaping character at range {start}..{stop}: Cannot find ';' after '&'"
  | .unknownEntity start stop name => s!"at {start}..{stop}: unrecognized entity `{name}`"
  | .character fault => s!"invalid character reference: {fault.message}"

def Fault.message : Fault → String
  | .unfinished fault => s!"syntax error: {fault.message}"
  | .illFormed fault => s!"ill-formed document: {fault.message}"
  | .attribute fault => s!"error while parsing attribute: {fault.message}"
  | .reference fault => fault.message

/-! # Causes

A fault is explained from the outside in: its own wording, then that of what lies beneath it. -/

def CharacterFault.causes (fault : CharacterFault) : List String :=
  fault.message ::
    match fault with
    | .digits inner => [inner.message]
    | _ => []

def ReferenceFault.causes (fault : ReferenceFault) : List String :=
  fault.message ::
    match fault with
    | .character inner => inner.causes
    | _ => []

def Fault.causes (fault : Fault) : List String :=
  fault.message ::
    match fault with
    | .unfinished inner => [inner.message]
    | .illFormed inner => [inner.message]
    | .attribute inner => [inner.message]
    | .reference inner => inner.causes

end Markup
end XmlShape
