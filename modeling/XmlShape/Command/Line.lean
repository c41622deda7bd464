import XmlShape.Command.Rendering

/-!
# Command lines

The words of a command line name a command, the file it works on, and options. They are read from
left to right; the first word that cannot be made sense of, or that asks for help or for the
version, ends the reading.
-/

namespace XmlShape
namespace Command

/-! # Commands and options -/

inductive Verb where
  | analyze
  | relationships
  | fields
deriving DecidableEq, Repr

def Verb.name : Verb → String
  | analyze => "analyze"
  | relationships => "relationships"
  | fields => "fields"

def Verb.ofName? (name : String) : Option Verb :=
  [analyze, relationships, fields].find? fun verb => verb.name = name

inductive Flag where
  | verbose
  | quiet
  | help
  | version
deriving DecidableEq, Repr

inductive Setting where
  | format
  | config
  | output
  | kind
  | element
deriving DecidableEq, Repr

inductive Switch where
  | flag (f : Flag)
  | setting (s : Setting)
deriving DecidableEq, Repr

def Switch.names : Switch → String × Char
  | flag .verbose => ("verbose", 'v')
  | flag .quiet => ("quiet", 'q')
  | flag .help => ("help", 'h')
  | flag .version => ("version", 'V')
  | setting .format => ("format", 'f')
  | setting .config => ("config", 'c')
  | setting .output => ("output", 'o')
  | setting .kind => ("kind", 'k')
  | setting .element => ("element", 'e')

def Verb.settings : Verb → List Setting
  | analyze => [.format, .config, .output]
  | relationships => [.kind, .format]
  | fields => [.element, .config]

def switches : Option Verb → List Switch
  | none => [.flag .verbose, .flag .quiet, .flag .help, .flag .version]
  | some verb =>
    [.flag .verbose, .flag .quiet, .flag .help] ++ verb.settings.map .setting

def Verb.accepts (verb : Verb) (s : Setting) (value : String) : Bool :=
  match s with
  | .format => if verb = relationships then isRelationFormat value else isAnalysisFormat value
  | .kind => (Report.RelationKind.ofName? value).isSome
  | .config | .output => !value.isEmpty
  | .element => true

/-! # Requests -/

inductive Request where
  | analyze (file format : String) (config? output? : Option String)
  | relationships (file kind format : String)
  | fields (file : String) (element? config? : Option String)
deriving DecidableEq, Repr

inductive Halt where
  | misuse
  | help
  | version
deriving DecidableEq, Repr

/-! # Reading words -/

structure Given where
  flags : List Flag := []
  values : List (Setting × String) := []
  file? : Option String := none

inductive Stage where
  /-- Before the command. -/
  | start
  /-- After a command, with the flags that came before it. -/
  | command (verb : Verb) (before : List Flag)
  /-- After the word that asks for help, and perhaps after the command that help is asked on. -/
  | help (named : Bool)

structure Reading where
  stage : Stage := .start
  given : Given := {}
  /-- The setting that waits for its value. -/
  awaiting? : Option Setting := none
  operandsOnly : Bool := false

namespace Reading

def verb? (r : Reading) : Option Verb :=
  match r.stage with
  | .command verb _ => some verb
  | _ => none

def set (r : Reading) (s : Setting) (value : String) : Except Halt Reading :=
  let again := r.given.values.any (·.1 = s)
  if !again && r.verb?.any (·.accepts s value) then
    .ok { r with
      given := { r.given with values := (s, value) :: r.given.values }
      awaiting? := none }
  else .error .misuse

def raise (r : Reading) (f : Flag) : Except Halt Reading :=
  match f with
  | .help => .error .help
  | .version => .error .version
  | f =>
    if r.given.flags.contains f then .error .misuse
    else .ok { r with given := { r.given with flags := f :: r.given.flags } }

def operand (r : Reading) (word : String) : Except Halt Reading :=
  match r.stage with
  | .command .. =>
    if r.given.file?.isNone && !word.isEmpty then
      .ok { r with given := { r.given with file? := some word } }
    else .error .misuse
  | _ => .error .misuse

def long (r : Reading) (word : List Char) : Except Halt Reading :=
  let name := String.ofList (word.takeWhile (· ≠ '='))
  let value? :=
    match word.dropWhile (· ≠ '=') with
    | [] => none
    | _ :: value => some (String.ofList value)
  match (switches r.verb?).find? (·.names.1 = name), value? with
  | some (.flag f), none => r.raise f
  | some (.setting s), some value => r.set s value
  | some (.setting s), none => .ok { r with awaiting? := some s }
  | _, _ => .error .misuse

/-- Short options after a dash. One with a value takes the rest of the word or the next one. -/
def short (r : Reading) : List Char → Except Halt Reading
  | [] => .ok r
  | c :: cs =>
    match (switches r.verb?).find? (·.names.2 = c) with
    | some (.flag f) => do (← r.raise f).short cs
    | some (.setting s) =>
      match cs with
      | [] => .ok { r with awaiting? := some s }
      | '=' :: value => r.set s (String.ofList value)
      | value => r.set s (String.ofList value)
    | none => .error .misuse

def option (r : Reading) (word : List Char) : Except Halt Reading :=
  if r.awaiting?.isSome then .error .misuse
  else
    match word with
    | ['-'] => .ok { r with operandsOnly := true }
    | '-' :: name => r.long name
    | names => r.short names

def named (r : Reading) (word : String) : Except Halt Reading :=
  match Verb.ofName? word with
  | some verb => .ok { stage := .command verb r.given.flags }
  | none => if word = "help" then .ok { stage := .help false } else r.operand word

def word (r : Reading) (word : String) : Except Halt Reading :=
  match r.stage, word.toList with
  | .help named, _ =>
    if !named && (word = "help" || (Verb.ofName? word).isSome) then
      .ok { r with stage := .help true }
    else .error .misuse
  | stage, cs =>
    if r.operandsOnly then r.operand word
    else
      match cs, r.awaiting?, stage with
      | '-' :: c :: cs, _, _ => r.option (c :: cs)
      | _, some s, _ => r.set s word
      | _, none, .start => r.named word
      | _, none, _ => r.operand word

/-- The request, once all words have been read. Flags that contradict each other must not stand on
the same side of the command. -/
def request (r : Reading) : Except Halt Request :=
  let contradicts (flags : List Flag) := flags.contains .verbose && flags.contains .quiet
  match r.stage, r.given.file? with
  | .command verb before, some file =>
    if r.awaiting?.isSome || contradicts r.given.flags || contradicts before then .error .misuse
    else
      let value? (s : Setting) := r.given.values.lookup s
      match verb with
      | .analyze =>
        .ok (.analyze file ((value? .format).getD "json") (value? .config) (value? .output))
      | .relationships =>
        .ok (.relationships file ((value? .kind).getD "all") ((value? .format).getD "table"))
      | .fields => .ok (.fields file (value? .element) (value? .config))
  | .help _, _ => .error .help
  | _, _ => .error .misuse

end Reading

def Request.ofWords (words : List String) : Except Halt Request := do
  (← words.foldlM Reading.word {}).request

/-! # Texts -/

def versionText : String :=
  "xml-modelling-cli 0.3.0\n"

def usageText : String :=
  "Infer structure, field shapes and relationships from XML documents\n\n" ++
  "Usage: xml-modelling-cli [-v | -q] <COMMAND>\n\n" ++
  "Commands:\n" ++
  "  analyze <FILE> [-f json|yaml|summary] [-c <CONFIG>] [-o <OUTPUT>]\n" ++
  "  relationships <FILE> [-k all|one-to-many|many-to-many|hierarchical] [-f json|table]\n" ++
  "  fields <FILE> [-e <ELEMENT>] [-c <CONFIG>]\n"

end Command
end XmlShape
