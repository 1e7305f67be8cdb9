import AnnotationDefaults.Report.Configuration

set_option autoImplicit false

/-!
Arguments of the command line. There are two commands, each with one path and
options; the log level may be given before or after the command. An option is given
at most once, its value follows it or an equals sign, and after a double dash every
argument is a path.
-/

namespace AnnotationDefaults

inductive Command where
  | check (path expect : String) (configuration : Configuration) (json : Bool)
  | dump (path : String) (json : Bool)
  deriving DecidableEq, Repr

inductive UsageFault where
  | noCommand
  | unknownCommand (name : String)
  | unexpectedArgument (argument : String)
  | repeatedOption (name : String)
  | missingValue (name : String)
  | invalidValue (name value : String)
  | missingArgument (name : String)
  deriving DecidableEq, Repr

def UsageFault.message : UsageFault → String
  | .noCommand => "a command is required: check or dump"
  | .unknownCommand name => "unrecognized command " ++ name
  | .unexpectedArgument value => "unexpected argument " ++ value
  | .repeatedOption name => "the option " ++ name ++ " cannot be used multiple times"
  | .missingValue name => "a value is required for " ++ name
  | .invalidValue name value => "invalid value " ++ value ++ " for " ++ name
  | .missingArgument name => "the argument " ++ name ++ " is required"

namespace Command

inductive Name where
  | check
  | dump
  deriving DecidableEq, Repr

def Name.ofText? (text : String) : Option Name :=
  if text = "check" then some .check else if text = "dump" then some .dump else none

def Name.valued : Name → List String
  | .check => ["--log-level", "--expect", "--retention"]
  | .dump => ["--log-level"]

def Name.flags : Name → List String
  | .check => ["--repeatable", "--stripped", "--json"]
  | .dump => ["--json"]

/-- What was given: options with their values, flags, and paths, each in order. -/
structure Given where
  values : List (String × String) := []
  flags : List String := []
  paths : List String := []
  deriving DecidableEq, Repr

namespace Given

def value? (given : Given) (name : String) : Option String :=
  (given.values.find? fun entry => entry.1 == name).map (·.2)

def addValue (given : Given) (name value : String) : Except UsageFault Given :=
  if (given.value? name).isSome then .error (.repeatedOption name)
  else if value.isEmpty && name ≠ "--log-level" then .error (.missingValue name)
  else .ok { given with values := given.values ++ [(name, value)] }

def addFlag (given : Given) (name : String) : Except UsageFault Given :=
  if given.flags.contains name then .error (.repeatedOption name)
  else .ok { given with flags := given.flags ++ [name] }

def addPath (given : Given) (path : String) : Except UsageFault Given :=
  if path.isEmpty then .error (.missingValue "<PATH>")
  else if given.paths.isEmpty then .ok { given with paths := [path] }
  else .error (.unexpectedArgument path)

end Given

/-- An argument that is read as an option: a dash and something after it. -/
def looksLikeOption (argument : String) : Bool :=
  match argument.toList with
  | '-' :: _ :: _ => true
  | _ => false

def splitEquals? (argument : String) : Option (String × String) :=
  let symbols := argument.toList
  let name := symbols.takeWhile (· != '=')
  match symbols.drop name.length with
  | [] => none
  | _ :: value => some (String.ofList name, String.ofList value)

def readOptions (command : Name) : Given → List String → Except UsageFault Given
  | given, [] => .ok given
  | given, "--" :: rest => rest.foldlM Given.addPath given
  | given, argument :: rest =>
      if command.flags.contains argument then do
        readOptions command (← given.addFlag argument) rest
      else if command.valued.contains argument then
        match rest with
        | [] => .error (.missingValue argument)
        | value :: rest =>
            if looksLikeOption value then .error (.missingValue argument)
            else do readOptions command (← given.addValue argument value) rest
      else if looksLikeOption argument then
        match splitEquals? argument with
        | none => .error (.unexpectedArgument argument)
        | some (name, value) =>
            if command.valued.contains name then do
              readOptions command (← given.addValue name value) rest
            else .error (.unexpectedArgument argument)
      else do readOptions command (← given.addPath argument) rest

def ofGiven (command : Name) (given : Given) : Except UsageFault Command :=
  let json := given.flags.contains "--json"
  match given.paths with
  | [] => .error (.missingArgument "<PATH>")
  | path :: _ =>
      match command with
      | .dump => .ok (.dump path json)
      | .check =>
          match given.value? "--expect" with
          | none => .error (.missingArgument "--expect <EXPECT>")
          | some expect =>
              let retention := (given.value? "--retention").getD Retention.runtime.name
              match Retention.ofName? retention with
              | none => .error (.invalidValue "--retention" retention)
              | some retention =>
                  .ok (.check path expect
                    { retention
                      repeatability :=
                        if given.flags.contains "--repeatable" then .repeatable else .single
                      defaults :=
                        if given.flags.contains "--stripped" then .stripped else .present }
                    json)

def ofCommandArguments : List String → Except UsageFault Command
  | [] => .error .noCommand
  | name :: rest =>
      match Name.ofText? name with
      | none => .error (if looksLikeOption name then .unexpectedArgument name
          else .unknownCommand name)
      | some command => do ofGiven command (← readOptions command {} rest)

/-- Reads all arguments; the log level may come first. -/
def ofArguments : List String → Except UsageFault Command
  | "--log-level" :: value :: rest =>
      if looksLikeOption value then .error (.missingValue "--log-level")
      else ofCommandArguments rest
  | argument :: rest =>
      match splitEquals? argument with
      | some ("--log-level", _) => ofCommandArguments rest
      | _ => ofCommandArguments (argument :: rest)
  | [] => .error .noCommand

end Command

end AnnotationDefaults
