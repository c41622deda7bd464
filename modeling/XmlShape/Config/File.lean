import XmlShape.Codec.Config
import XmlShape.Data.Toml.Read
import XmlShape.Data.Yaml.Read
import XmlShape.Failure
import XmlShape.Text.Utf8

/-!
# Configurations in files

A configuration is written in one of three formats, which the extension of its file tells.
-/

namespace XmlShape

open Data

/-! # Formats -/

inductive ConfigFormat where
  | json
  | yaml
  | toml
deriving DecidableEq, Repr

def ConfigFormat.ofExtension? (extension : String) : Option ConfigFormat :=
  match extension with
  | "json" => some json
  | "yaml" | "yml" => some yaml
  | "toml" => some toml
  | _ => none

/-! # Extensions -/

/-- What follows the last point in the name of a file, in small letters. A point at the start of
the name begins no extension. -/
def extensionOf (name : String) : String :=
  let cs := name.toList
  let extension := (cs.reverse.takeWhile (· ≠ '.')).reverse
  if extension.length + 1 < cs.length then String.ofList (extension.map Char.toLower) else ""

def fileName (path : String) : String :=
  let parts := (path.splitOn "/").filter fun part => part ≠ "" ∧ part ≠ "."
  match parts.getLast? with
  | some part => if part = ".." then "" else part
  | none => ""

namespace Config

def ofText? (format : ConfigFormat) (text : String) : Option Config :=
  match format with
  | .json => Json.read text >>= read?
  | .yaml => Yaml.read text >>= read?
  | .toml => Toml.read text >>= read?

def parse (format : ConfigFormat) (text : String) : Except Failure Config :=
  match ofText? format text with
  | some c => .ok c
  | none => .error (.config .unreadable)

/-- The configuration in a file. That the file cannot be read is reported before its extension is
looked at. -/
def load (path : String) (content : Except FileFault (List UInt8)) : Except Failure Config := do
  let bytes ← content.mapError .file
  let text ← (Text.Utf8.decode bytes).mapError fun _ => .file .notUtf8
  let extension := extensionOf (fileName path)
  match ConfigFormat.ofExtension? extension with
  | some format => parse format text
  | none => .error (.config (.unsupported extension))

end Config
end XmlShape
