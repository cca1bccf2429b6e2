import DocSchema.CommandLine.Arguments
import DocSchema.Config.Template

/-!
# Calls

A call of the program asks for a help page, for the version, or for a command to be run.

## Main definitions

* `Command`, `Call`
* `Call.ofArguments`: the call that arguments make
-/

namespace DocSchema.CommandLine

/-- The commands. -/
inductive Command
  | generateConfig (output : String)
  | validate (config : String)
  | compile (config : String) (outputDirectory : Option String)
  | report (config : String) (format output : Option String)
  deriving DecidableEq, Repr

/-- What a call asks for. -/
inductive Call
  | help (page : Page)
  | version
  | run (verbose : Bool) (command : Command)
  deriving DecidableEq, Repr

/-- The call that an option makes which asks for a text. -/
def Call.ofRequest (p : Page) : OptionName → Call
  | .version => version
  | _ => help p

namespace Reading

/-- Refuses a format that nobody knows. -/
def checkFormat (r : Reading) : Except UsageFault Unit :=
  match r.value? .format with
  | none => .ok ()
  | some name => if (ReportFormat.ofName? name).isSome then .ok () else .error (.badFormat name)

/-- The value of the option that all commands with a configuration need. -/
def config (r : Reading) (p : Page) : Except UsageFault String :=
  match r.value? .config with
  | some path => .ok path
  | none => .error (.missingConfig p)

/-- Refuses words, of which no command has any. -/
def checkWords (r : Reading) (p : Page) : Except UsageFault Unit :=
  if r.words = [] then .ok () else .error (.extraArguments p r.words)

/-- The command that the options on a page make. -/
def command (r : Reading) (p : Page) : Except UsageFault Command := do
  r.checkFormat
  match p with
  | .program => .error .missingCommand
  | .generateConfig =>
    r.checkWords p
    return .generateConfig ((r.value? .output).getD usualConfigName)
  | .validate =>
    let path ← r.config p
    r.checkWords p
    return .validate path
  | .compile =>
    let path ← r.config p
    r.checkWords p
    return .compile path (r.value? .outputDirectory)
  | .report =>
    let path ← r.config p
    r.checkWords p
    return .report path (r.value? .format) (r.value? .output)

end Reading

namespace Call

/-- The call that the arguments behind the name of a command make. -/
def ofCommandArguments (verbose : Bool) (p : Page) (arguments : List String) :
    Except UsageFault Call := do
  let r ← Reading.ofArguments p arguments
  match r.request? with
  | some name => return ofRequest p name
  | none => return .run verbose (← r.command p)

/-- The call for a command that nobody knows. Its name may look like an option if it stands behind
two dashes; then it is read again as one. -/
def ofUnknownCommand (name : String) (rest : List String) : Except UsageFault Call := do
  let r ← Reading.ofArguments .program (name :: rest)
  match r.request? with
  | some asked => return ofRequest .program asked
  | none => .error (.noSuchCommand name)

/-- The call that arguments make. -/
def ofArguments (arguments : List String) : Except UsageFault Call := do
  if arguments = [] then .error .noArguments
  else
    let r ← Reading.ofArguments .program arguments
    match r.request?, r.words with
    | some name, _ => return ofRequest .program name
    | none, [] => .error .missingCommand
    | none, name :: rest =>
      match Page.ofCommand? name with
      | some page => ofCommandArguments (r.has .verbose) page rest
      | none => ofUnknownCommand name rest

end Call

end DocSchema.CommandLine
