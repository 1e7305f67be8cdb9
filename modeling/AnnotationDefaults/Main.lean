import AnnotationDefaults.CommandLine.Run

set_option autoImplicit false

/-!
The program: it reads the files that its arguments name, runs the command, and prints
what the command leaves behind.
-/

open AnnotationDefaults

def AnnotationDefaults.Command.readContents (path : String) : IO (Except String (List UInt8)) := do
  try
    return .ok (← IO.FS.readBinFile path).toList
  catch failure =>
    return .error (toString failure)

def main (arguments : List String) : IO UInt32 := do
  let paths := match Command.ofArguments arguments with
    | .ok command => command.paths
    | .error _ => []
  let contents ← paths.mapM fun path => do return (path, ← Command.readContents path)
  let files : Files := fun path =>
    match contents.find? fun entry => entry.1 == path with
    | some entry => entry.2
    | none => .error "not read"
  let result := Command.runArguments files arguments
  (← IO.getStdout).putStr result.stdout
  (← IO.getStderr).putStr result.stderr
  return UInt32.ofNat result.exit
