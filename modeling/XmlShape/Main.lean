import XmlShape.Command.Run

/-!
# The program

Reads the files that the command line names, runs the command, and prints or writes its answer.
-/

namespace XmlShape
namespace Program

def faultOf (e : IO.Error) : FileFault :=
  match e with
  | .noFileOrDirectory .. => .missing
  | .inappropriateType .. => .directory
  | e => .other (toString e)

def contentOf (read : IO ByteArray) : IO (Except FileFault (List UInt8)) := do
  match ← read.toBaseIO with
  | .ok bytes => return .ok bytes.toList
  | .error e => return .error (faultOf e)

partial def readAll (stream : IO.FS.Stream) (before : ByteArray) : IO ByteArray := do
  let bytes ← stream.read 65536
  if bytes.isEmpty then return before else readAll stream (before ++ bytes)

def surroundingsOf (r : Command.Request) : IO Command.Surroundings := do
  let files ← r.files.mapM fun (path : String) => return (path, ← contentOf (IO.FS.readBinFile path))
  let input ←
    if r.document = Command.inputPath then contentOf (do readAll (← IO.getStdin) .empty)
    else pure (.ok [])
  return { file := fun path => (files.lookup path).getD (.error .missing), input }

def fail (r : Command.Request) (fault : Command.Fault) : IO UInt32 := do
  (← IO.getStderr).putStr (r.faultLine fault)
  return 1

def deliver (r : Command.Request) (o : Command.Output) : IO UInt32 := do
  match o.file? with
  | none =>
    (← IO.getStdout).putStr o.text
    return 0
  | some path =>
    match ← (IO.FS.writeFile path o.text).toBaseIO with
    | .ok _ => return 0
    | .error e => fail r (.writing path (faultOf e))

def halt (h : Command.Halt) : IO UInt32 := do
  match h with
  | .version =>
    (← IO.getStdout).putStr Command.versionText
    return 0
  | .help =>
    (← IO.getStdout).putStr Command.usageText
    return 0
  | .misuse =>
    (← IO.getStderr).putStr Command.usageText
    return 2

end Program
end XmlShape

open XmlShape in
def main (args : List String) : IO UInt32 := do
  match Command.Request.ofWords args with
  | .error h => Program.halt h
  | .ok r =>
    match r.run (← Program.surroundingsOf r) with
    | .ok o => Program.deliver r o
    | .error fault => Program.fail r fault
