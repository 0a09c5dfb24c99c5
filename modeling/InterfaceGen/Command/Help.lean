import InterfaceGen.Command.Basic

/-! The help texts. -/

namespace InterfaceGen.Command

/-- A command or an option, and what it is for. -/
structure HelpItem where
  usage : String
  purpose : String

/-- Items under a heading, their purposes in one column. -/
def helpSection (heading : String) (items : List HelpItem) : List Text :=
  let width := (items.map (·.usage.length)).foldl max 0
  heading.toList :: items.map fun i =>
    ["  ".toList, i.usage.toList, List.replicate (width - i.usage.length + 2) ' ',
      i.purpose.toList].flatten

def helpItem : HelpItem := ⟨"-h, --help", "Print help"⟩

def programHelp : List Text :=
  ["MTT - Generate TypeScript interfaces from model classes".toList, [],
    "Usage: mtt <COMMAND>".toList, []]
  ++ helpSection "Commands:"
    [⟨"init", "Initialize a new MTT project"⟩,
      ⟨"convert", "Convert model files to TypeScript interfaces"⟩,
      ⟨"help", "Print this message or the help of the given subcommand(s)"⟩]
  ++ [[]]
  ++ helpSection "Options:" [helpItem, ⟨"-V, --version", "Print version"⟩]

def setupHelp : List Text :=
  ["Initialize a new MTT project".toList, [], "Usage: mtt init [OPTIONS]".toList, []]
  ++ helpSection "Options:"
    [⟨"-w, --working-dir <WORKING_DIR>",
        "Directory containing model files [default: Models]"⟩,
      ⟨"-o, --convert-dir <CONVERT_DIR>",
        "Directory to write interfaces to [default: models]"⟩,
      ⟨"-f, --force", "Force overwrite existing config"⟩,
      helpItem]

def convertHelp : List Text :=
  ["Convert model files to TypeScript interfaces".toList, [],
    "Usage: mtt convert [OPTIONS]".toList, []]
  ++ helpSection "Options:"
    [⟨"-w, --working-dir <WORKING_DIR>",
        "Directory containing model files (overrides config)"⟩,
      ⟨"-o, --convert-dir <CONVERT_DIR>",
        "Directory to write interfaces to (overrides config)"⟩,
      ⟨"    --no-banner", "Omit the auto-generated banner"⟩,
      ⟨"    --suffix <SUFFIX>", "Suffix stripped from model file names (overrides config)"⟩,
      ⟨"    --no-date", "Map DateTime to `any` instead of `Date`"⟩,
      ⟨"    --stdout", "Print generated files to stdout instead of writing them"⟩,
      ⟨"-v, --verbose", "Show info-level diagnostics too"⟩,
      helpItem]

def helpHelp : List Text :=
  ["Print this message or the help of the given subcommand(s)".toList, [],
    "Usage: mtt help [COMMAND]...".toList, []]
  ++ helpSection "Arguments:"
    [⟨"[COMMAND]...", "Print help for the subcommand(s)"⟩]

def Topic.lines : Topic → List Text
  | .program => programHelp
  | .setup => setupHelp
  | .convert => convertHelp
  | .help => helpHelp

end InterfaceGen.Command
