import XmlShape.Document.Reading
import XmlShape.Naming.Convention
import XmlShape.Schema.Scan

/-!
# Configuration

How a document is read and scanned, and which naming convention its fields are resolved with.
-/

namespace XmlShape

structure Config where
  /-- How many levels of elements are accepted; at least one is. -/
  maxDepth : Nat := 256
  trimText : Bool := true
  /-- Whether `true` and `false` are told from other text. -/
  detectBooleans : Bool := false
  scope : Schema.Scope := .document
  naming : Naming.Settings := {}
deriving Repr, Inhabited

namespace Config

def depthLimit (c : Config) : Nat :=
  max c.maxDepth 1

def reading (c : Config) : ReadingOptions where
  trim := c.trimText
  depthLimit := c.depthLimit

def scanning (c : Config) : Schema.ScanOptions where
  truthValues := c.detectBooleans
  scope := c.scope

/-! # Changing a configuration -/

inductive Change where
  | maxDepth (depth : Nat)
  | trimText (trim : Bool)
  | detectBooleans (detect : Bool)
  | scope (scope : Schema.Scope)
  | naming (naming : Naming.Settings)

/-- Makes a change. A depth below one is taken for one. -/
def change (c : Config) : Change → Config
  | .maxDepth depth => { c with maxDepth := max depth 1 }
  | .trimText trim => { c with trimText := trim }
  | .detectBooleans detect => { c with detectBooleans := detect }
  | .scope scope => { c with scope }
  | .naming naming => { c with naming }

end Config
end XmlShape
