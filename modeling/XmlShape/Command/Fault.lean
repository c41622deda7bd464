import XmlShape.Failure

/-!
# Faults of commands

Why a command fails: a file cannot be read or written, an argument names nothing that exists, or
the analysis fails.
-/

namespace XmlShape
namespace Command

inductive ArgumentFault where
  | relationKind (name : String)
  | format (name : String)
  | element (name : String)
deriving DecidableEq, Repr

def ArgumentFault.message : ArgumentFault → String
  | relationKind name => s!"Unknown relationship kind: {name}"
  | format name => s!"Unknown format: {name}"
  | element name => s!"No element named '{name}' in document"

inductive Fault where
  | argument (fault : ArgumentFault)
  | reading (path : String) (fault : FileFault)
  | writing (path : String) (fault : FileFault)
  | configuration (path : String) (failure : Failure)
  | analysis (failure : Failure)
deriving DecidableEq, Repr

namespace Fault

def message : Fault → String
  | argument fault => s!"Invalid argument: {fault.message}"
  | reading path fault => s!"Failed to read {path}: {fault.message}"
  | writing path fault => s!"Failed to write {path}: {fault.message}"
  | configuration path failure => s!"Failed to load configuration {path}: {failure.message}"
  | analysis failure => failure.message

/-- The wording of the fault and of what lies beneath it, from the outside in. A failed analysis is
shown by itself. -/
def causes (fault : Fault) : List String :=
  match fault with
  | argument _ => [fault.message]
  | reading _ cause => [fault.message, cause.message]
  | writing _ cause => [fault.message, cause.message]
  | configuration _ failure => fault.message :: failure.causes
  | analysis failure => failure.causes

end Fault
end Command
end XmlShape
