import InterfaceGen.Text.Basic

/-! Command-line options. An option has a long name and may have a short one; it stands alone or
takes a value. A long option takes its value behind an equals sign or as the next argument; short
options may share one dash, and the first of them that takes a value takes the rest. No option may
be given twice, and nothing but options is accepted. -/

namespace InterfaceGen.Command

/-- Why the arguments are not carried out. -/
inductive Stop
  /-- They are wrong. -/
  | rejected
  | help
deriving DecidableEq, Repr

structure OptionSpec (κ : Type) where
  key : κ
  short? : Option Char
  long : Text
  takesValue : Bool

/-- The options given, in order, each with its value if it takes one. -/
abbrev Given (κ : Type) := List (κ × Option Text)

/-- What one argument is. -/
inductive Argument
  /-- The two dashes after which no option may come. -/
  | terminator
  | long (name : Text) (value? : Option Text)
  | short (cluster : Text)
  | word

def Argument.ofText : Text → Argument
  | '-' :: '-' :: [] => .terminator
  | '-' :: '-' :: t =>
    match Text.splitAt? '=' t with
    | some (name, value) => .long name (some value)
    | none => .long t none
  | '-' :: c :: t => .short (c :: t)
  | _ => .word

/-- Whether an argument cannot be the value of the option before it. -/
def Argument.isWord : Argument → Bool
  | .word => true
  | _ => false

/-- What a cluster of short options asks for. -/
inductive Demand (κ : Type)
  /-- Options that are complete. -/
  | complete (given : Given κ)
  /-- Options before one whose value is the next argument. -/
  | needsValue (given : Given κ) (key : κ)
  | stop (s : Stop)

section

variable {κ : Type} [DecidableEq κ]

/-- Adds an option unless it has been given before. -/
def give (given : Given κ) (key : κ) (value? : Option Text) : Except Stop (Given κ) :=
  if given.any (·.1 = key) then .error .rejected else .ok (given ++ [(key, value?)])

/-- Takes short options from a cluster. `h` asks for help. -/
def takeShort (specs : List (OptionSpec κ)) : Given κ → Text → Demand κ
  | given, [] => .complete given
  | given, c :: t =>
    match specs.find? (·.short? == some c) with
    | none => .stop (if c = 'h' then .help else .rejected)
    | some spec =>
      if spec.takesValue then
        if t.isEmpty then .needsValue given spec.key
        else
          match give given spec.key (some (if t.head? = some '=' then t.tail else t)) with
          | .ok given => .complete given
          | .error s => .stop s
      else
        match give given spec.key none with
        | .ok given => takeShort specs given t
        | .error s => .stop s

/-- Takes a long option. -/
def takeLong (specs : List (OptionSpec κ)) (given : Given κ) (name : Text)
    (value? : Option Text) : Demand κ :=
  match specs.find? (·.long == name) with
  | none => .stop (if name = "help".toList ∧ value?.isNone then .help else .rejected)
  | some spec =>
    if spec.takesValue && value?.isNone then .needsValue given spec.key
    else if !spec.takesValue && value?.isSome then .stop .rejected
    else
      match give given spec.key value? with
      | .ok given => .complete given
      | .error s => .stop s

/-- What the next argument asks for; no argument is a demand of its own. -/
def demand (specs : List (OptionSpec κ)) (given : Given κ) (a : Text) : Demand κ :=
  match Argument.ofText a with
  | .long name value? => takeLong specs given name value?
  | .short cluster => takeShort specs given cluster
  | .terminator | .word => .stop .rejected

/-- Reads the arguments of a command. -/
def readOptions (specs : List (OptionSpec κ)) : Given κ → List Text → Except Stop (Given κ)
  | given, [] => .ok given
  | given, [a] =>
    if a = "--".toList then .ok given
    else
      match demand specs given a with
      | .complete given => .ok given
      | .needsValue _ _ => .error .rejected
      | .stop s => .error s
  | given, a :: b :: rest =>
    match demand specs given a with
    | .complete given => readOptions specs given (b :: rest)
    | .needsValue given key =>
      if (Argument.ofText b).isWord then
        match give given key (some b) with
        | .ok given => readOptions specs given rest
        | .error s => .error s
      else .error .rejected
    | .stop s => .error s

end

/-- Whether a flag is among the options given. -/
def Given.has {κ : Type} [DecidableEq κ] (given : Given κ) (key : κ) : Bool :=
  given.any (·.1 = key)

/-- The value of an option, if it was given. -/
def Given.value? {κ : Type} [DecidableEq κ] (given : Given κ) (key : κ) : Option Text :=
  (given.lookup key).join

end InterfaceGen.Command
