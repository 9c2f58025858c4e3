import StreamRelay.Program

/-!
The command line. The host it knows has no route to any other, so bridges and collectors wait in
vain; without a time limit they wait for the end of standard input.
-/

namespace StreamRelay.Main

def readEnvironment : IO (List (String × String)) := do
  let names := CommandLine.RunOptions.options.filterMap (·.variableName)
  let values ← names.mapM fun name => do
    return (← IO.getEnv name).map fun value => (name, value)
  return values.filterMap fun v => v

def readFile (path : String) : IO (Except SystemError Bytes) := do
  try
    return .ok (← IO.FS.readBinFile path).toList
  catch e =>
    return .error (match e with
      | .noFileOrDirectory .. => SystemError.fileNotFound
      | .permissionDenied .. => SystemError.permissionDenied
      | .inappropriateType _ 20 _ => SystemError.notDirectory
      | .inappropriateType _ 21 _ => SystemError.isDirectory
      | e => ⟨.other, toString e⟩)

def fileOf : CommandLine.Command → Option String
  | .run o => o.config
  | .forward { payload := .file path, .. } => some path
  | _ => none

def readFiles (environment : List (String × String)) (words : List String) :
    IO Files := do
  match (CommandLine.Invocation.ofWords environment words).toOption.bind (fileOf ·.command) with
  | none => return fun _ => .error SystemError.fileNotFound
  | some path =>
    let content ← readFile path
    return fun _ => content

def printBytes (b : Bytes) : IO Unit := do
  let out ← IO.getStdout
  out.write ⟨b.toArray⟩
  out.flush

def conclude (e : Program.Ending) : IO UInt32 := do
  printBytes e.output
  if let some text := e.error then IO.eprintln s!"error: {text}"
  return UInt32.ofNat e.code

end StreamRelay.Main

open StreamRelay StreamRelay.Main in
def main (words : List String) : IO UInt32 := do
  let environment ← readEnvironment
  let files ← readFiles environment words
  let world : Program.World := { environment, files, host := Host.isolated }
  match Program.activity world words with
  | .ended e => conclude e
  | .waiting output millis after =>
    printBytes output
    match millis with
    | some n => IO.sleep (UInt32.ofNat (min n (UInt32.size - 1)))
    | none =>
      let _ ← (← IO.getStdin).readToEnd
    conclude after
