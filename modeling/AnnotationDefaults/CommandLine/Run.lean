import AnnotationDefaults.CommandLine.Arguments
import AnnotationDefaults.Report.Dump
import AnnotationDefaults.Report.Output

set_option autoImplicit false

/-!
The commands as functions from arguments and files to what they print and the
status they exit with: zero if every comparison matched, one if some did not, and
two for every failure. The files are a function from a path to its contents or to
the platform's reason for having none.
-/

namespace AnnotationDefaults

structure CommandResult where
  exit : Nat
  stdout : String
  stderr : String
  deriving DecidableEq, Repr

abbrev Files := String → Except String (List UInt8)

namespace CommandResult

def failed (printed : String) (cause : Fault) : CommandResult :=
  ⟨2, printed, "error: " ++ cause.message ++ "\n"⟩

end CommandResult

namespace Command

def readFile (files : Files) (path : String) : Except Fault (List UInt8) :=
  (files path).mapError .unreadable

def openClass (files : Files) (path : String) : Except Fault ClassFile := do
  ClassFile.ofBytes (← readFile files path)

/-- The report of a check. The class file is read before the document. -/
def checkReport (files : Files) (path expect : String) (configuration : Configuration) :
    Except Fault ClassReport := do
  let file ← openClass files path
  let expectations ← ExpectationSet.ofBytes (← readFile files expect)
  ClassCheck.run file expectations configuration

def checkJson (path : String) (report : ClassReport) : Json :=
  .object [("path", .string path), ("passed", .bool report.passed), ("report", report.toJson)]

def runCheck (files : Files) (path expect : String) (configuration : Configuration)
    (json : Bool) : CommandResult :=
  match checkReport files path expect configuration with
  | .error cause => .failed "" cause
  | .ok report =>
      let printed :=
        if json then textOfLines [(checkJson path report).indented]
        else textOfLines (report.lines path)
      ⟨if report.passed then 0 else 1, printed, ""⟩

def dumpOf (files : Files) (path : String) : Except Fault (ClassFile × Dump) := do
  let file ← openClass files path
  return (file, ← Dump.ofClassFile file)

/-- Dumps a class file. The name of the class is resolved last, in text form after
the line that names the file. -/
def runDump (files : Files) (path : String) (json : Bool) : CommandResult :=
  match dumpOf files path with
  | .error cause => .failed "" cause
  | .ok (file, contents) =>
      let head := if json then "" else textOfLines [Dump.pathLine path]
      match file.name with
      | .error cause => .failed head cause
      | .ok className =>
          let printed :=
            if json then textOfLines [(contents.toJson className).indented]
            else head ++ textOfLines (contents.lines className)
          ⟨0, printed, ""⟩

def paths : Command → List String
  | .check path expect _ _ => [path, expect]
  | .dump path _ => [path]

def run (files : Files) : Command → CommandResult
  | .check path expect configuration json => runCheck files path expect configuration json
  | .dump path json => runDump files path json

def runArguments (files : Files) (arguments : List String) : CommandResult :=
  match ofArguments arguments with
  | .ok command => command.run files
  | .error fault => ⟨2, "", "error: " ++ fault.message ++ "\n"⟩

end Command

end AnnotationDefaults
