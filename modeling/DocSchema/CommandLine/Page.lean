import DocSchema.Text.Lines

/-!
# Help pages

The program and each of its commands have a help page, which starts with a line on its usage.

## Main definitions

* `Page`, `Page.ofCommand?`
* `Page.help`: the text of a page
-/

namespace DocSchema.CommandLine

/-- The name of the program. -/
def programName : String := "schema-compiler"

/-- The version of the program. -/
def versionLine : String := programName ++ ", version 0.1.0"

/-- The help pages: that of the program and those of its commands. -/
inductive Page
  | program
  | generateConfig
  | validate
  | compile
  | report
  deriving DecidableEq, Repr

namespace Page

/-- The words that call what a page is about. -/
def call : Page → String
  | program => programName
  | generateConfig => programName ++ " generate-config"
  | validate => programName ++ " validate"
  | compile => programName ++ " compile"
  | report => programName ++ " report"

/-- The page of a command. -/
def ofCommand? (name : String) : Option Page :=
  if name = "generate-config" then some generateConfig
  else if name = "validate" then some validate
  else if name = "compile" then some compile
  else if name = "report" then some report
  else none

/-- What may follow the words of a call. -/
def operands : Page → String
  | program => "[OPTIONS] COMMAND [ARGS]..."
  | _ => "[OPTIONS]"

/-- The line on the usage. -/
def usage (p : Page) : String := "Usage: " ++ p.call ++ " " ++ p.operands

/-- The lines of a page below the usage. -/
def body : Page → List String
  | program =>
    ["",
     "  Compile a data model schema into access rules, indexes and reports.",
     "",
     "Options:",
     "  --version      Show the version and exit.",
     "  -v, --verbose  Log progress to stderr.",
     "  -h, --help     Show this message and exit.",
     "",
     "Commands:",
     "  compile          Write access rules and the composite index manifest...",
     "  generate-config  Generate a placeholder YAML compiler configuration...",
     "  report           Preview the schema structure, security policies and...",
     "  validate         Check the configured schema and list every violation."]
  | generateConfig =>
    ["",
     "  Generate a placeholder YAML compiler configuration with guidance comments.",
     "",
     "Options:",
     "  --output PATH  Path to the YAML compiler configuration template to write",
     "                 [default: schema-compiler.yaml]",
     "  -h, --help     Show this message and exit."]
  | validate =>
    ["",
     "  Check the configured schema and list every violation.",
     "",
     "Options:",
     "  --config PATH  Path to YAML/JSON compiler configuration file  [required]",
     "  -h, --help     Show this message and exit."]
  | compile =>
    ["",
     "  Write access rules and the composite index manifest for the schema.",
     "",
     "Options:",
     "  --config PATH      Path to YAML/JSON compiler configuration file  [required]",
     "  --output-dir PATH  Optional directory overriding output.directory",
     "  -h, --help         Show this message and exit."]
  | report =>
    ["",
     "  Preview the schema structure, security policies and capacity estimates.",
     "",
     "Options:",
     "  --config PATH                   Path to YAML/JSON compiler configuration",
     "                                  file  [required]",
     "  --format [structured|text|xlsx]",
     "                                  Report format; defaults to report.format",
     "  --output PATH                   Write the report to this file instead of",
     "                                  stdout",
     "  -h, --help                      Show this message and exit."]

/-- The text of a page. -/
def help (p : Page) : String := Text.unlines (p.usage :: p.body)

end Page

end DocSchema.CommandLine
