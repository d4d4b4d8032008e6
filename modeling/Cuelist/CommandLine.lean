/-
  The command line.

  `Invocation.parse?` reads arguments.  Options stand before what they belong to:
  the settings file before the name of the subcommand, the rest behind it.  A
  value stands in the same argument as its option or in the next one, which
  then must not look like an option.  No option may be given twice.
-/
import Cuelist.Decimal.Numeral
import Cuelist.Settings.Saved

namespace Cuelist.CommandLine

/-! ## Options -/

/-- A kind of option. -/
structure OptionName where
  /-- The name behind two hyphens. -/
  long : String
  /-- The letter behind one hyphen. -/
  short : Option Char
  /-- Whether the option has a value. -/
  takesValue : Bool
deriving Repr, DecidableEq

/-- The options, with their values, and the other arguments of a command. -/
structure Arguments where
  options : List (OptionName × String) := []
  others : List String := []
deriving Repr, DecidableEq

namespace Arguments

/-- The arguments with an option that was not given yet. -/
def addOption? (a : Arguments) (o : OptionName) (value : String) : Option Arguments :=
  if a.options.any fun p => p.1 = o then none
  else some { a with options := a.options ++ [(o, value)] }

/-- The arguments with one more that is no option. -/
def addOther (a : Arguments) (text : String) : Arguments :=
  { a with others := a.others ++ [text] }

/-- The value of an option. -/
def value? (a : Arguments) (o : OptionName) : Option String :=
  a.options.lookup o

/-- Whether an option was given. -/
def has (a : Arguments) (o : OptionName) : Bool :=
  (a.value? o).isSome

end Arguments

/-- Whether an argument looks like an option. -/
def looksLikeOption (text : String) : Bool :=
  match text.toList with
  | '-' :: _ :: _ => true
  | _ => false

/-- An argument that names an option: the option, and its value if that stands in
    the same argument. -/
def readOption? (known : List OptionName) (text : String) : Option (OptionName × Option String) :=
  match text.toList with
  | '-' :: '-' :: rest =>
    match Text.cut '=' rest with
    | some (name, value) =>
      (known.find? fun o => o.long.toList = name).map fun o => (o, some (String.ofList value))
    | none => (known.find? fun o => o.long.toList = rest).map fun o => (o, none)
  | '-' :: letter :: rest =>
    (known.find? fun o => o.short = some letter).map fun o =>
      (o, match rest with
        | [] => none
        | '=' :: value => some (String.ofList value)
        | value => some (String.ofList value))
  | _ => none

/-- Reads the arguments of a command up to the end, or up to the first that is no
    option if `stops` is set; what follows is the rest. -/
def readArguments? (known : List OptionName) (stops : Bool) :
    Arguments → List String → Option (Arguments × List String)
  | a, [] => some (a, [])
  | a, "--" :: rest => if stops then none else some (rest.foldl Arguments.addOther a, [])
  | a, text :: rest =>
    if looksLikeOption text then
      match readOption? known text with
      | none => none
      | some (o, attached) =>
        match o.takesValue, attached, rest with
        | true, some value, rest =>
          (a.addOption? o value).bind fun a => readArguments? known stops a rest
        | true, none, value :: rest =>
          if looksLikeOption value then none
          else (a.addOption? o value).bind fun a => readArguments? known stops a rest
        | false, none, rest =>
          (a.addOption? o "").bind fun a => readArguments? known stops a rest
        | _, _, _ => none
    else if stops then some (a, text :: rest)
    else readArguments? known stops (a.addOther text) rest

/-! ## Invocations -/

/-- The option for the settings file. -/
def configOption : OptionName := ⟨"config", some 'c', true⟩

/-- The option for the delay after normal entries. -/
def intervalOption : OptionName := ⟨"tick-interval-ms", none, true⟩

/-- The option that turns reports off. -/
def quietOption : OptionName := ⟨"quiet", none, false⟩

/-- The option for the name of the queue. -/
def queueOption : OptionName := ⟨"queue", some 'q', true⟩

/-- What the program is asked to do. -/
inductive Invocation where
  /-- Save settings. -/
  | init (config : String) (interval : Nat) (quiet : Bool)
  /-- List the commands. -/
  | commands
  /-- Run a list of entries. -/
  | run (config entries queue : String)
deriving Repr, DecidableEq

/-- A text that is not empty. -/
def nonempty? (text : String) : Option String :=
  if text.isEmpty then none else some text

/-- Reads the arguments behind the name of a subcommand. -/
def readSubcommand? (config : String) (name : String) (rest : List String) :
    Option Invocation :=
  match name with
  | "init" => do
    let (a, _) ← readArguments? [intervalOption, quietOption] false {} rest
    let interval ← match a.value? intervalOption with
      | some text => Decimal.readUInt64? text.toList
      | none => some ({} : Settings).tickInterval
    if a.others.isEmpty then some (.init config interval (a.has quietOption)) else none
  | "commands" => do
    let (a, _) ← readArguments? [] false {} rest
    if a.others.isEmpty then some .commands else none
  | "run" => do
    let (a, _) ← readArguments? [queueOption] false {} rest
    match a.others with
    | [entries] =>
      some (.run config (← nonempty? entries) ((a.value? queueOption).getD "main"))
    | _ => none
  | _ => none

/-- Reads the arguments of the program. -/
def Invocation.parse? (arguments : List String) : Option Invocation := do
  let (a, rest) ← readArguments? [configOption] true {} arguments
  let config ← nonempty? ((a.value? configOption).getD Settings.standardFile)
  match rest with
  | name :: rest => readSubcommand? config name rest
  | [] => none

end Cuelist.CommandLine
