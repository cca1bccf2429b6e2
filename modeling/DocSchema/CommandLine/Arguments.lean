import DocSchema.CommandLine.Fault

/-!
# Arguments

The arguments of a call are options, some of them with a value, and words. An option is written
with two dashes, and its value follows as the next argument or after an equals sign. Options with
one dash and one letter can be written together. Two dashes alone end the options.

## Main definitions

* `OptionName`, `Page.options`
* `Reading.ofArguments`: the options and words among the arguments of a page
* `Reading.value?`: the value of an option; the last one counts
-/

namespace DocSchema.CommandLine

/-- The options. -/
inductive OptionName
  | version
  | verbose
  | help
  | config
  | outputDirectory
  | format
  | output
  deriving DecidableEq, Repr

namespace OptionName

/-- An option as it is written with two dashes. -/
def long : OptionName → String
  | version => "--version"
  | verbose => "--verbose"
  | help => "--help"
  | config => "--config"
  | outputDirectory => "--output-dir"
  | format => "--format"
  | output => "--output"

/-- The letter of an option that can be written with one dash. -/
def letter? : OptionName → Option Char
  | verbose => some 'v'
  | help => some 'h'
  | _ => none

/-- Whether an option has a value. -/
def takesValue : OptionName → Bool
  | version | verbose | help => false
  | _ => true

end OptionName

/-- The options that the commands of a page have. -/
def Page.options : Page → List OptionName
  | program => [.version, .verbose, .help]
  | generateConfig => [.output, .help]
  | validate => [.config, .help]
  | compile => [.config, .outputDirectory, .help]
  | report => [.config, .format, .output, .help]

/-- The option of a page that is written in a given way. -/
def Page.option? (p : Page) (long : String) : Option OptionName :=
  p.options.find? fun o => o.long == long

/-- The options of a page that are written as letters behind one dash. -/
def Page.letterOptions (p : Page) : List Char → Except UsageFault (List OptionName)
  | [] => .ok []
  | c :: rest =>
    match p.options.find? fun o => o.letter? == some c with
    | none => .error (.noSuchOption p (String.ofList ['-', c]))
    | some o => (p.letterOptions rest).map (o :: ·)

/-- What was read of the arguments: the options with their values, and the words. -/
structure Reading where
  options : List (OptionName × Option String)
  words : List String
  deriving DecidableEq, Repr

namespace Reading

/-- Whether an argument is an option: a dash with something behind it. -/
def isOption : List Char → Bool
  | '-' :: _ :: _ => true
  | _ => false

/-- The part of an argument in front of an equals sign, and the part behind it. -/
def splitValue (cs : List Char) : String × Option String :=
  (String.ofList (cs.takeWhile (· != '=')),
    match cs.dropWhile (· != '=') with
    | _ :: value => some (String.ofList value)
    | [] => none)

/-- A reading with options in front. -/
def withOptions (names : List OptionName) (value : Option String) (r : Reading) : Reading :=
  { r with options := names.map (fun name => (name, value)) ++ r.options }

/-- The options and words among arguments. What follows the command of a program is left to the
command. -/
def ofArguments (p : Page) : List String → Except UsageFault Reading
  | [] => .ok { options := [], words := [] }
  | argument :: rest =>
    let cs := argument.toList
    let (name, value) := splitValue cs
    if argument = "--" then .ok { options := [], words := rest }
    else if !isOption cs then
      if p = .program then .ok { options := [], words := argument :: rest }
      else (ofArguments p rest).map fun r => { r with words := argument :: r.words }
    else
      match p.option? name with
      | some o =>
        if o.takesValue then
          match value, rest with
          | some value, rest => (ofArguments p rest).map (withOptions [o] (some value))
          | none, value :: rest => (ofArguments p rest).map (withOptions [o] (some value))
          | none, [] => .error (.valueRequired name)
        else if value.isSome then .error (.valueRefused name)
        else (ofArguments p rest).map (withOptions [o] none)
      | none =>
        if cs.take 2 = ['-', '-'] then .error (.noSuchOption p name)
        else
          match p.letterOptions (cs.drop 1) with
          | .error fault => .error fault
          | .ok names => (ofArguments p rest).map (withOptions names none)

/-- Whether an option is given. -/
def has (r : Reading) (name : OptionName) : Bool := r.options.any fun o => o.1 == name

/-- The value of an option. -/
def value? (r : Reading) (name : OptionName) : Option String :=
  (r.options.reverse.find? fun o => o.1 == name).bind Prod.snd

/-- The first option that asks for a text instead of work. -/
def request? (r : Reading) : Option OptionName :=
  (r.options.map Prod.fst).find? fun name => name == .help || name == .version

end Reading

end DocSchema.CommandLine
