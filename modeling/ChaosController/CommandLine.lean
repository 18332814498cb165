/-
  ChaosController.CommandLine

  The command line of the controller, and the environment variables beside it.

  The arguments are read from left to right. The value of an option is looked at as late as
  possible: when the next option or flag comes, or at the end, so an unknown argument behind
  it is reported first. A value given with an equals sign is looked at at once. An environment
  variable counts where the command line says nothing, and only for the command that is
  given.
-/

import ChaosController.Duration.Text
import ChaosController.Settings
import ChaosController.Text.Terminal

namespace ChaosController.CommandLine

/-! ## Flags and options -/

/-- The name of the program. -/
def programName : String := "kubechaos"

/-- The version of the program. -/
def version : String := "0.1.0"

/-- Arguments without a value. -/
inductive Flag
  | crd | logJson | installCrds | noEvents | help | version
deriving DecidableEq, Repr

/-- The long name of a flag. -/
def Flag.name : Flag → String
  | crd => "crd"
  | logJson => "log-json"
  | installCrds => "install-crds"
  | noEvents => "no-events"
  | help => "help"
  | version => "version"

/-- The letter of a flag. -/
def Flag.letter? : Flag → Option Char
  | help => some 'h'
  | version => some 'V'
  | _ => none

/-- Arguments whose value is a duration. -/
inductive Delay
  | initRevisit | noTargetsBackoff | errorBackoff | conflictBackoff | recurringInterval
  | reconcileTimeout
deriving DecidableEq, Repr

namespace Delay

/-- All of them, in the order in which their variables are read. -/
def all : List Delay :=
  [initRevisit, noTargetsBackoff, errorBackoff, conflictBackoff, recurringInterval,
    reconcileTimeout]

/-- The long name. -/
def name : Delay → String
  | initRevisit => "init-revisit"
  | noTargetsBackoff => "no-targets-backoff"
  | errorBackoff => "error-backoff"
  | conflictBackoff => "conflict-backoff"
  | recurringInterval => "recurring-interval"
  | reconcileTimeout => "reconcile-timeout"

/-- Puts a duration into settings. -/
def put (settings : Settings) (d : Duration) : Delay → Settings
  | initRevisit => { settings with initRevisit := d }
  | noTargetsBackoff => { settings with noTargetsBackoff := d }
  | errorBackoff => { settings with errorBackoff := d }
  | conflictBackoff => { settings with conflictBackoff := d }
  | recurringInterval => { settings with recurringInterval := d }
  | reconcileTimeout => { settings with reconcileTimeout := d }

end Delay

/-- Arguments with a value. -/
inductive Setting
  | «namespace»
  | delay (which : Delay)
deriving DecidableEq, Repr

/-- The long name of an argument with a value. -/
def Setting.name : Setting → String
  | «namespace» => "namespace"
  | delay which => which.name

/-- An argument by its name. -/
inductive Known
  | flag (f : Flag)
  | setting (s : Setting)
deriving DecidableEq, Repr

/-- The long name of an argument. -/
def Known.name : Known → String
  | flag f => f.name
  | setting s => s.name

/-- Where arguments stand: before a command or behind `controller`. -/
inductive Level
  | root | controller
deriving DecidableEq, Repr

/-- The arguments that are known at a level. -/
def Level.known : Level → List Known
  | root => [.flag .crd, .flag .logJson, .flag .help, .flag .version]
  | controller =>
    [.setting .namespace, .flag .installCrds, .flag .noEvents] ++
      Delay.all.map (fun d => .setting (.delay d)) ++ [.flag .logJson, .flag .help]

/-- The argument with a long name. -/
def Level.long? (level : Level) (name : String) : Option Known :=
  level.known.find? fun k => k.name == name

/-- The flag with a letter. -/
def Level.letter? (level : Level) (c : Char) : Option Flag :=
  level.known.findSome? fun k =>
    match k with
    | .flag f => if f.letter? = some c then some f else none
    | .setting _ => none

/-- The name of the environment variable beside an argument. -/
def variableName (name : String) : String :=
  "KUBECHAOS_" ++ String.ofList (name.toList.map fun c => if c = '-' then '_' else c.toUpper)

/-! ## Errors -/

/-- Why the program does not start. -/
inductive Stop
  /-- The help text is asked for. -/
  | helpShown
  /-- The version is asked for. -/
  | versionShown
  | unknownArgument
  | unknownCommand
  /-- A value is missing, or is none of those that are possible. -/
  | invalidValue
  /-- An argument is given twice. -/
  | repeated
  /-- A flag is given a value. -/
  | surplusValue
  | badDuration (which : Delay) (value : String) (cause : Duration.TextError)
  /-- Reading a duration aborts the process. -/
  | abort
deriving DecidableEq, Repr

/-- The exit code of the program. -/
def Stop.exitCode : Stop → Nat
  | helpShown | versionShown => 0
  | _ => 2

/-- What the program prints for a version or a duration it cannot read. -/
def Stop.message? : Stop → Option String
  | versionShown => some (programName ++ " " ++ version ++ "\n")
  | badDuration which value cause =>
    let placeholder := which.name.toList.map fun c => if c = '-' then '_' else c.toUpper
    some ("error: invalid value '" ++ shownText value ++ "' for '--" ++ which.name ++ " <" ++
      String.ofList placeholder ++ ">': " ++ cause.message ++
      "\n\nFor more information, try '--help'.\n")
  | _ => none

/-- Reads a duration given for an argument. -/
def readDelay (which : Delay) (value : String) : Except Stop Duration :=
  match Duration.read value with
  | .ok d => .ok d
  | .error (.error cause) => .error (.badDuration which value cause)
  | .error .abort => .error .abort

/-! ## What has been given -/

/-- What has been given at a level. -/
structure Given where
  flags : List Flag
  «namespace» : Option String
  delays : List (Delay × Duration)
  /-- The argument whose value may follow, and its value once it has. -/
  pending : Option (Setting × Option String)

namespace Given

/-- Nothing. -/
def nothing : Given := ⟨[], none, [], none⟩

/-- Takes an argument with its value. -/
def take (g : Given) (setting : Setting) (value : String) : Except Stop Given :=
  match setting with
  | .namespace =>
    if g.namespace.isSome then .error .repeated else .ok { g with «namespace» := some value }
  | .delay which =>
    if (g.delays.lookup which).isSome then .error .repeated
    else do return { g with delays := (which, ← readDelay which value) :: g.delays }

/-- Takes the argument that is pending. -/
def settle (g : Given) : Except Stop Given :=
  match g.pending with
  | none => .ok g
  | some (_, none) => .error .invalidValue
  | some (setting, some value) => { g with pending := none }.take setting value

/-- Turns an argument down. The value of the argument that is pending is read all the same,
    and if that aborts the process, nothing is reported. -/
def refuse {α : Type} (g : Given) (stop : Stop) : Except Stop α :=
  match g.settle with
  | .error .abort => .error .abort
  | _ => .error stop

/-- Takes a flag. -/
def takeFlag (g : Given) (f : Flag) : Except Stop Given := do
  let g ← g.settle
  match f with
  | .help => throw .helpShown
  | .version => throw .versionShown
  | f => if g.flags.contains f then throw .repeated else return { g with flags := f :: g.flags }

/-- Takes an argument given by its long name, possibly with a value behind an equals sign. -/
def takeLong (g : Given) (level : Level) (name : String) (value : Option String) :
    Except Stop Given :=
  match level.long? name, value with
  | none, _ => g.refuse .unknownArgument
  | some (.flag f), none => g.takeFlag f
  | some (.flag _), some _ => g.refuse .surplusValue
  | some (.setting s), none => do return { ← g.settle with pending := some (s, none) }
  | some (.setting s), some value => do (← g.settle).take s value

/-- Takes flags given by their letters. -/
def takeLetters (g : Given) (level : Level) : List Char → Except Stop Given
  | [] => .ok g
  | c :: rest =>
    match level.letter? c with
    | none => g.refuse .unknownArgument
    | some f => do takeLetters (← g.takeFlag f) level rest

end Given

/-! ## Arguments -/

/-- What an argument looks like. -/
inductive Shape
  /-- Two hyphens: what follows are no options. -/
  | separator
  | long (name : String) (value : Option String)
  | letters (chars : List Char)
  | word

/-- What an argument looks like. A single hyphen is a word. -/
def shape (arg : String) : Shape :=
  match arg.toList with
  | ['-', '-'] => .separator
  | '-' :: '-' :: rest =>
    let name := rest.takeWhile (· != '=')
    let value := match rest.drop name.length with
      | _ :: value => some (String.ofList value)
      | [] => none
    .long (String.ofList name) value
  | '-' :: c :: rest => .letters (c :: rest)
  | _ => .word

/-- Reads the arguments behind `controller`. -/
def readController : List String → Given → Except Stop Given
  | [], g => g.settle
  | arg :: rest, g =>
    match shape arg with
    -- Behind the separator everything is a word, and no word has a meaning here.
    | .separator => if rest.isEmpty then g.settle else g.refuse .unknownArgument
    | .long name value => do readController rest (← g.takeLong .controller name value)
    | .letters chars => do readController rest (← g.takeLetters .controller chars)
    | .word =>
      match g.pending with
      | some (setting, none) => readController rest { g with pending := some (setting, some arg) }
      | _ => g.refuse .unknownArgument

/-- The commands. -/
def isCommand (word : String) : Bool := word == "controller" || word == "help"

/-- What comes of the command `help`, which may be followed by one command. -/
def help : List String → Stop
  | [] => .helpShown
  | [word] => if isCommand word then .helpShown else .unknownCommand
  | _ => .unknownCommand

/-- Reads the arguments of the program: what is given before a command, and behind
    `controller`. -/
def readRoot : List String → Given → Except Stop (Given × Option Given)
  | [], g => .ok (g, none)
  | arg :: rest, g =>
    match shape arg with
    | .separator =>
      match rest with
      | [] => .ok (g, none)
      | word :: _ => .error (if isCommand word then .unknownArgument else .unknownCommand)
    | .long name value => do readRoot rest (← g.takeLong .root name value)
    | .letters chars => do readRoot rest (← g.takeLetters .root chars)
    | .word =>
      if arg = "controller" then do return (g, some (← readController rest .nothing))
      else .error (if arg = "help" then help rest else .unknownCommand)

/-! ## The environment -/

/-- The environment variables that are set. -/
abbrev Environment := List (String × String)

/-- Whether a flag is on: given, or switched on by its variable. -/
def readFlag (env : Environment) (g : Given) (f : Flag) : Except Stop Bool :=
  if g.flags.contains f then .ok true
  else match env.lookup (variableName f.name) with
    | none => .ok false
    | some "true" => .ok true
    | some "false" => .ok false
    | some _ => .error .invalidValue

/-- Reads the delays that are given, or set by their variables. -/
def readDelays (env : Environment) (g : Given) : List Delay → Settings → Except Stop Settings
  | [], settings => .ok settings
  | which :: rest, settings =>
    match g.delays.lookup which, env.lookup (variableName which.name) with
    | some d, _ => readDelays env g rest (which.put settings d)
    | none, some value => do
      readDelays env g rest (which.put settings (← readDelay which value))
    | none, none => readDelays env g rest settings

/-! ## The program's options -/

/-- What the controller is run with. -/
structure ControllerOptions where
  /-- The only namespace that is watched. -/
  «namespace» : Option String
  /-- Whether the definition of experiments is installed first. -/
  installCrds : Bool
  settings : Settings
deriving DecidableEq, Repr

/-- What the program is run with. -/
structure Options where
  /-- Whether the definition of experiments is printed, and nothing else done. -/
  crd : Bool
  logJson : Bool
  controller : Option ControllerOptions
deriving DecidableEq, Repr

/-- What the controller is run with unless something else is said. -/
def ControllerOptions.standard : ControllerOptions := ⟨none, false, .standard⟩

/-- The options of the controller from what is given and the environment. -/
def readControllerOptions (env : Environment) (g : Given) : Except Stop ControllerOptions := do
  let ns := g.namespace <|> env.lookup (variableName (Setting.name .namespace))
  let installCrds ← readFlag env g .installCrds
  let noEvents ← readFlag env g .noEvents
  let settings ← readDelays env g Delay.all { Settings.standard with recordEvents := !noEvents }
  return ⟨ns, installCrds, settings⟩

/-- Reads the options of the program. -/
def read (args : List String) (env : Environment) : Except Stop Options := do
  let (root, behind) ← readRoot args .nothing
  let crd := root.flags.contains .crd
  match behind with
  | none => return ⟨crd, ← readFlag env root .logJson, none⟩
  | some g =>
    -- The environment is read for the command first, and then for the program.
    let options ← readControllerOptions env g
    let inner ← readFlag env g .logJson
    let outer ← readFlag env root .logJson
    return ⟨crd, inner || outer, some options⟩

end ChaosController.CommandLine
