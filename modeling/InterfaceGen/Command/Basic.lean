import InterfaceGen.Command.Options

/-! The commands of the program and how they are written. -/

namespace InterfaceGen.Command

/-- What a conversion is asked to do differently from what the settings say. -/
structure ConvertRequest where
  working? : Option Text := none
  output? : Option Text := none
  noBanner : Bool := false
  suffix? : Option Text := none
  noDates : Bool := false
  /-- Print the generated files instead of writing them. -/
  toStdout : Bool := false
  /-- Show findings that are mere information, too. -/
  verbose : Bool := false
deriving DecidableEq, Repr

/-- What a new project is to look like. -/
structure SetupRequest where
  working : Text := "Models".toList
  output : Text := "models".toList
  /-- Replace settings that are already there. -/
  force : Bool := false
deriving DecidableEq, Repr

/-- The commands about which help can be had. -/
inductive Topic
  | program
  | setup
  | convert
  | help
deriving DecidableEq, Repr

inductive Request
  | setup (r : SetupRequest)
  | convert (r : ConvertRequest)
  | help (t : Topic)
  | version
deriving DecidableEq, Repr

inductive ConvertOption
  | working
  | output
  | noBanner
  | suffix
  | noDates
  | toStdout
  | verbose
deriving DecidableEq, Repr

inductive SetupOption
  | working
  | output
  | force
deriving DecidableEq, Repr

def convertOptions : List (OptionSpec ConvertOption) :=
  [⟨.working, some 'w', "working-dir".toList, true⟩,
    ⟨.output, some 'o', "convert-dir".toList, true⟩,
    ⟨.noBanner, none, "no-banner".toList, false⟩,
    ⟨.suffix, none, "suffix".toList, true⟩,
    ⟨.noDates, none, "no-date".toList, false⟩,
    ⟨.toStdout, none, "stdout".toList, false⟩,
    ⟨.verbose, some 'v', "verbose".toList, false⟩]

def setupOptions : List (OptionSpec SetupOption) :=
  [⟨.working, some 'w', "working-dir".toList, true⟩,
    ⟨.output, some 'o', "convert-dir".toList, true⟩,
    ⟨.force, some 'f', "force".toList, false⟩]

def ConvertRequest.ofGiven (g : Given ConvertOption) : ConvertRequest where
  working? := g.value? .working
  output? := g.value? .output
  noBanner := g.has .noBanner
  suffix? := g.value? .suffix
  noDates := g.has .noDates
  toStdout := g.has .toStdout
  verbose := g.has .verbose

def SetupRequest.ofGiven (g : Given SetupOption) : SetupRequest where
  working := (g.value? .working).getD ({} : SetupRequest).working
  output := (g.value? .output).getD ({} : SetupRequest).output
  force := g.has .force

/-- The topic that a list of command names leads to. -/
def topic? : List Text → Option Topic
  | [] => some .program
  | [name] =>
    if name = "init".toList then some .setup
    else if name = "convert".toList then some .convert
    else if name = "help".toList then some .help
    else none
  | _ => none

/-- The request that stops the reading of a command's options. -/
def stopped (t : Topic) : Stop → Option Request
  | .rejected => none
  | .help => some (.help t)

/-- The request for the program as a whole that an option in front of all commands makes. -/
def programOption? (a : Text) : Option Request :=
  match Argument.ofText a with
  | .long name none =>
    if name = "help".toList then some (.help .program)
    else if name = "version".toList then some .version
    else none
  | .short ('h' :: _) => some (.help .program)
  | .short ('V' :: _) => some .version
  | _ => none

/-- The request that the arguments of the program make, or none when they are wrong. -/
def Request.ofArguments : List Text → Option Request
  | [] => none
  | name :: rest =>
    if name = "init".toList then
      match readOptions setupOptions [] rest with
      | .ok given => some (.setup (.ofGiven given))
      | .error s => stopped .setup s
    else if name = "convert".toList then
      match readOptions convertOptions [] rest with
      | .ok given => some (.convert (.ofGiven given))
      | .error s => stopped .convert s
    else if name = "help".toList then (topic? rest).map .help
    else programOption? name

end InterfaceGen.Command
