import XmlShape.Markup.Fault
import XmlShape.Text.Utf8

/-!
# Faults of documents

Why a text is not a document: it holds no element, its markup is faulty, or its elements do not
form one tree within the depth allowed.
-/

namespace XmlShape

inductive DocumentFault where
  | empty
  | markup (position : Nat) (fault : Markup.Fault)
  | attribute (element : String) (fault : Markup.Fault)
  | encoding (fault : Text.Utf8.Fault)
  | secondRoot (first second : String)
  | unclosed (element : String)
  | tooDeep (depth limit : Nat)
deriving DecidableEq, Repr

namespace DocumentFault

def message : DocumentFault → String
  | .empty => "Document is empty: no root element found"
  | .markup position fault => s!"XML parsing error at position {position}: {fault.message}"
  | .attribute element fault => s!"Malformed attribute on element '{element}': {fault.message}"
  | .encoding fault => s!"Document is not valid UTF-8: {fault.message}"
  | .secondRoot first second =>
    s!"Document has more than one root element: '{first}' and '{second}'"
  | .unclosed element => s!"Unexpected end of document: element '{element}' is not closed"
  | .tooDeep depth limit => s!"Maximum nesting depth exceeded: {depth} > {limit}"

def causes (fault : DocumentFault) : List String :=
  fault.message ::
    match fault with
    | .markup _ inner => inner.causes
    | .attribute _ inner => inner.causes
    | .encoding inner => [inner.message]
    | _ => []

end DocumentFault
end XmlShape
