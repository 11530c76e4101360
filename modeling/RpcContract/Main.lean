import RpcContract.CommandLine.Run
import RpcContract.Log.Session
import RpcContract.Sample.Probes
import Std.Time

/-!
# The program
-/

namespace RpcContract

/-- What a path leads to in the file system of this process, as far as it is there. -/
def readFile (path : Text) : IO Files := do
  let shown := (FilePath.ofText path).shown
  let place := (← IO.currentDir) / shown.toString
  try
    if ← place.isDir then return ⟨[], [shown]⟩
    let content ← IO.FS.readFile place
    return ⟨[(shown, content.text)], []⟩
  catch _ => return ⟨[], []⟩

/-- The files that a run reads, as far as they are there. -/
def readFiles (args : List Text) : IO Files := do
  match CommandLine.Arguments.read args with
  | .ok arguments =>
    match arguments.manifest? with
    | some path => readFile path
    | none => return ⟨[], []⟩
  | .error _ => return ⟨[], []⟩

/-- The text of the current time. -/
def currentTime : IO Text := do
  let now ← Std.Time.PlainDateTime.now
  return (now.format "uuuu-MM-dd HH:mm:ss").text

/-- Runs the command line on the arguments and files of this process. -/
def runProcess (args : List String) : IO UInt32 := do
  let args := args.map String.text
  let stdout ← IO.getStdout
  let stderr ← IO.getStderr
  match CommandLine.run Sample.sources (← readFiles args) args with
  | .error failure =>
    stderr.putStr (failure.kind ++ ": ".text ++ failure.message ++ "\n".text).toString
    return 1
  | .ok outcome =>
    for logged in outcome.logs do
      let made := fun n => Text.hexDigits 12 n
      let line := logged.record.line (← currentTime) (Session.callText made logged.call)
      stdout.putStr line.toString
    stdout.putStr outcome.output.toString
    stderr.putStr outcome.complaint.toString
    return outcome.exit.toUInt32

end RpcContract

def main (args : List String) : IO UInt32 := RpcContract.runProcess args
