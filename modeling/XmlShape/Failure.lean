import XmlShape.Document.Fault

/-!
# Failures

Why an analysis fails: the document is faulty, the pattern of a naming rule cannot be read, the
configuration cannot be read, or a file cannot.
-/

namespace XmlShape

inductive FileFault where
  | missing
  | directory
  /-- The path leads through a file. -/
  | notDirectory
  | notUtf8
  | other (reason : String)
deriving DecidableEq, Repr

def FileFault.message : FileFault → String
  | missing => "No such file or directory (os error 2)"
  | directory => "Is a directory (os error 21)"
  | notDirectory => "Not a directory (os error 20)"
  | notUtf8 => "stream did not contain valid UTF-8"
  | other reason => reason

inductive ConfigFault where
  /-- The text is not one of its format or does not describe a configuration. -/
  | unreadable
  | unsupported (extension : String)
deriving DecidableEq, Repr

def ConfigFault.message : ConfigFault → String
  | unreadable => "the text does not describe a configuration"
  | unsupported extension => s!"unsupported configuration file extension '{extension}'"

inductive Failure where
  | document (fault : DocumentFault)
  | namingRule (pattern : String)
  | config (fault : ConfigFault)
  | file (fault : FileFault)
deriving DecidableEq, Repr

namespace Failure

def isInputError : Failure → Bool
  | document _ => true
  | _ => false

def message : Failure → String
  | document fault => fault.message
  | namingRule pattern => s!"Invalid naming rule '{pattern}': the pattern cannot be read"
  | config fault => s!"Configuration error: {fault.message}"
  | file fault => s!"IO error: {fault.message}"

def causes (failure : Failure) : List String :=
  match failure with
  | document fault => fault.causes
  | namingRule _ => [failure.message, "the pattern cannot be read"]
  | config _ => [failure.message]
  | file fault => [failure.message, fault.message]

end Failure
end XmlShape
