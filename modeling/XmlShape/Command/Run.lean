import XmlShape.Config.File
import XmlShape.Command.Line

/-!
# Running commands

A command reads the files it names, or its input in place of one, and answers with a text that is
printed or written to a file.
-/

namespace XmlShape
namespace Command

structure Surroundings where
  file : String → Except FileFault (List UInt8)
  input : Except FileFault (List UInt8)

structure Output where
  text : String
  file? : Option String := none
deriving DecidableEq, Repr

/-! # Files -/

def inputPath : String := "-"

def decodeFile (path : String) (content : Except FileFault (List UInt8)) :
    Except Fault String := do
  let bytes ← content.mapError (.reading path)
  (Text.Utf8.decode bytes).mapError fun _ => .reading path .notUtf8

def readDocument (s : Surroundings) (path : String) : Except Fault String :=
  if path = inputPath then decodeFile "<stdin>" s.input else decodeFile path (s.file path)

def readConfig (s : Surroundings) (path? : Option String) : Except Fault Config :=
  match path? with
  | none => .ok {}
  | some path => (Config.load path (s.file path)).mapError (.configuration path)

/-! # Requests -/

namespace Request

def document : Request → String
  | analyze file .. => file
  | relationships file .. => file
  | fields file .. => file

def config? : Request → Option String
  | analyze _ _ config? _ => config?
  | relationships .. => none
  | fields _ _ config? => config?

def files (r : Request) : List String :=
  r.config?.toList ++ if r.document = inputPath then [] else [r.document]

def context : Request → String
  | analyze file .. => s!"Failed to analyze {file}"
  | relationships file .. => s!"Failed to detect relationships in {file}"
  | fields file .. => s!"Failed to resolve fields of {file}"

def faultLine (r : Request) (fault : Fault) : String :=
  "Error: " ++ ": ".intercalate (r.context :: fault.causes) ++ "\n"

/-- Answers a request. The configuration is read before the document. A text that is printed ends
with a line break of its own, except for lists of fields, which end with their last line. -/
def run (s : Surroundings) : Request → Except Fault Output
  | analyze file format config? output? => do
    let config ← readConfig s config?
    let text ← renderAnalysis config format (← readDocument s file)
    match output? with
    | none => .ok { text := text ++ "\n" }
    | some _ => .ok { text, file? := output? }
  | relationships file kind format => do
    let text ← renderRelations kind format (← readDocument s file)
    .ok { text := text ++ "\n" }
  | fields file element? config? => do
    let config ← readConfig s config?
    let text ← renderFields config element? (← readDocument s file)
    .ok { text }

end Request
end Command
end XmlShape
