import DocSchema.CommandLine.Page
import DocSchema.Report.Format
import DocSchema.Text.Quoted

/-!
# Usage faults

## Main definitions

* `UsageFault`: why arguments ask for nothing that can be done
* `UsageFault.text`: what is printed about it
-/

namespace DocSchema.CommandLine

/-- Why arguments ask for nothing that can be done. -/
inductive UsageFault
  /-- There are no arguments. -/
  | noArguments
  | missingCommand
  | noSuchCommand (name : String)
  | noSuchOption (page : Page) (name : String)
  | missingConfig (page : Page)
  | extraArguments (page : Page) (arguments : List String)
  | badFormat (name : String)
  /-- An option comes last that has to be followed by a value. -/
  | valueRequired (name : String)
  /-- A value is given to an option that has none. -/
  | valueRefused (name : String)
  deriving DecidableEq, Repr

namespace UsageFault

/-- The wording of a fault. -/
def message : UsageFault → String
  | noArguments => Page.program.help
  | missingCommand => "Missing command."
  | noSuchCommand name => "No such command " ++ Text.quoted name ++ "."
  | noSuchOption _ name => "No such option: " ++ name
  | missingConfig _ => "Missing option '--config'."
  | extraArguments _ arguments =>
    (if arguments.length = 1 then "Got unexpected extra argument ("
      else "Got unexpected extra arguments (")
      ++ " ".intercalate arguments ++ ")"
  | badFormat name =>
    "Invalid value for '--format': " ++ Text.quoted name ++ " is not one of "
      ++ ", ".intercalate (ReportFormat.all.map fun f => Text.quoted f.name) ++ "."
  | valueRequired name => "Option " ++ Text.quoted name ++ " requires an argument."
  | valueRefused name => "Option " ++ Text.quoted name ++ " does not take a value."

/-- The page whose usage is shown with a fault. -/
def page? : UsageFault → Option Page
  | missingCommand => some .program
  | noSuchCommand _ => some .program
  | noSuchOption page _ => some page
  | missingConfig page => some page
  | extraArguments page _ => some page
  | badFormat _ => some .report
  | _ => none

/-- The lines on the usage. -/
def usageLines (p : Page) : List String :=
  [p.usage, "Try '" ++ p.call ++ " -h' for help.", ""]

/-- What is printed about a fault. -/
def text (f : UsageFault) : String :=
  match f with
  | noArguments => f.message
  | f => Text.unlines ((f.page?.map usageLines).getD [] ++ ["Error: " ++ f.message])

end UsageFault

end DocSchema.CommandLine
