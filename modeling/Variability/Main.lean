import Variability.Command.Run

/-! The command line. All files that a run can ask for are read ahead of it. -/
namespace Variability.Command

def inputs (o : Options) : List String :=
  [o.path, o.config.getD settingsFileName]

def readFault : IO.Error → ReadFault
  | .noFileOrDirectory .. => .notFound
  | .inappropriateType _ 21 _ => .isDirectory
  | .inappropriateType .. => .notDirectory
  | .permissionDenied _ code details => .other s!"{details} (os error {code})"
  | e => .other (toString e)

def readPath (path : String) : IO (Except ReadFault ByteArray) := do
  try
    return .ok (← IO.FS.readBinFile path)
  catch e =>
    return .error (readFault e)

end Variability.Command

open Variability

def main (args : List String) : IO UInt32 := do
  let paths :=
    match Options.parse args with
    | .ok o => Command.inputs o
    | .error _ => []
  let contents ← paths.mapM fun path => return (path, ← Command.readPath path)
  let files : Files := fun path => (contents.lookup path).getD (.error .notFound)
  let outcome := Command.execute files args
  for entry in outcome.log do
    IO.eprintln (entry.level.name ++ " " ++ entry.message)
  IO.eprint outcome.stderr
  IO.print outcome.stdout
  return outcome.exitCode.toUInt32
