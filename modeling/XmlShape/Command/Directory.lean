import XmlShape.Command.Run

/-!
# Running in a directory

What a whole run of the program does, where all its files lie in one directory that holds no other
directory: what is printed, how the run ends, and which files there are after it.
-/

namespace XmlShape
namespace Command

abbrev Directory := NameMap (List UInt8)

inductive Target where
  | directory
  | file (name : String) (bytes : List UInt8)
  /-- No file, though one of this name could be made. -/
  | vacant (name : String)
  /-- Nothing, on the way there. -/
  | missing
  /-- Something within a file. -/
  | withinFile

namespace Directory

/-- Steps to the directory itself do not matter, except that a path which ends with one cannot lead
to a file. Outside the directory there are only directories. -/
def follow (d : Directory) (path : String) : Target :=
  let isStay (part : String) := part.isEmpty || part = "."
  let parts := path.splitOn "/"
  match parts.filter (!isStay ·) with
  | [] => if path.isEmpty then .missing else .directory
  | name :: further =>
    let ends := further.isEmpty && !parts.getLast?.any isStay
    if name = ".." && further.all (· = "..") then .directory
    else if name = ".." || path.startsWith "/" then .missing
    else
      match d.get? name with
      | some bytes => if ends then .file name bytes else .withinFile
      | none => if ends then .vacant name else .missing

def read (d : Directory) (path : String) : Except FileFault (List UInt8) :=
  match d.follow path with
  | .file _ bytes => .ok bytes
  | .directory => .error .directory
  | .vacant _ | .missing => .error .missing
  | .withinFile => .error .notDirectory

def write (d : Directory) (path text : String) : Except FileFault Directory :=
  match d.follow path with
  | .file name _ | .vacant name => .ok (d.insert name text.toUTF8.toList)
  | .directory => .error .directory
  | .missing => .error .missing
  | .withinFile => .error .notDirectory

end Directory

/-! # Runs -/

structure Ending where
  code : Nat
  printed : String := ""
  reported : String := ""
  directory : Directory

def Halt.ending (h : Halt) (d : Directory) : Ending :=
  match h with
  | .misuse => { code := 2, reported := usageText, directory := d }
  | .help => { code := 0, printed := usageText, directory := d }
  | .version => { code := 0, printed := versionText, directory := d }

def Output.deliver (o : Output) (d : Directory) : Except Fault Ending :=
  match o.file? with
  | none => .ok { code := 0, printed := o.text, directory := d }
  | some path => do
    let d ← (d.write path o.text).mapError (.writing path)
    .ok { code := 0, directory := d }

def execute (d : Directory) (input : List UInt8) (words : List String) : Ending :=
  match Request.ofWords words with
  | .error h => h.ending d
  | .ok r =>
    match r.run { file := d.read, input := .ok input } >>= (·.deliver d) with
    | .ok ending => ending
    | .error fault => { code := 1, reported := r.faultLine fault, directory := d }

end Command
end XmlShape
