/-
# The command line of a node

    -c, --config PATH    the configuration to load; needed
        --log-level L    the log level, in place of the configured one
        --stdin-traffic  read observations from the input
    -h, --help           the usage
    -V, --version        the version

Arguments are taken from left to right.  The value of an option is attached to it, after `=` or
right behind a short option, or is the next argument, unless that looks like an option.  An
option whose value is still awaited is *pending*; it is settled by the next known option or by the
end, and only then are a missing value, an empty path and a second use found out.  An unknown
argument is refused at once, whatever is pending.
-/
namespace FlowExport

/-- **What the command line asks for.** -/
structure Options where
  config : String
  logLevel : Option String
  trafficFromInput : Bool
  deriving DecidableEq, Repr, Inhabited

/-- **Why a command line is not followed.** -/
inductive Refusal where
  /-- The configuration is not named. -/
  | missingRequired
  | unknownArgument
  /-- An option lacks its value, or the value is not one it takes. -/
  | invalidValue
  /-- An option is given twice. -/
  | repeated
  /-- A flag is given a value. -/
  | unexpectedValue
  | helpWanted
  | versionWanted
  deriving DecidableEq, Repr

namespace CommandLine

/-! ## 1. What there is to give -/

/-- An option that takes a value. -/
inductive Valued where
  | config
  | logLevel
  deriving DecidableEq, Repr

/-- An argument that takes none. -/
inductive Flag where
  | trafficFromInput
  | help
  | version
  deriving DecidableEq, Repr

/-- Whatever can be named on the command line. -/
abbrev Name := Valued ⊕ Flag

/-- The argument of a long name. -/
def long? : String → Option Name
  | "config" => some (.inl .config)
  | "log-level" => some (.inl .logLevel)
  | "stdin-traffic" => some (.inr .trafficFromInput)
  | "help" => some (.inr .help)
  | "version" => some (.inr .version)
  | _ => none

/-- The argument of a short name. -/
def short? : Char → Option Name
  | 'c' => some (.inl .config)
  | 'h' => some (.inr .help)
  | 'V' => some (.inr .version)
  | _ => none

/-! ## 2. What has been given -/

/-- **What has been taken so far.** -/
structure Given where
  config : Option String := none
  logLevel : Option String := none
  trafficFromInput : Bool := false
  /-- The option that is not settled yet, and its value if there is one. -/
  pending : Option (Valued × Option String) := none
  deriving DecidableEq, Repr

namespace Given

/-- Gives an option its value. -/
def assign (g : Given) (name : Valued) (value : String) : Except Refusal Given :=
  match name with
  | .config =>
    if g.config.isSome then .error .repeated
    else if value.isEmpty then .error .invalidValue
    else .ok { g with config := some value }
  | .logLevel =>
    if g.logLevel.isSome then .error .repeated
    else .ok { g with logLevel := some value }

/-- **Settles the pending option**, which needs a value by now. -/
def settle (g : Given) : Except Refusal Given :=
  match g.pending with
  | none => .ok g
  | some (_, none) => .error .invalidValue
  | some (name, some value) => { g with pending := none }.assign name value

/-- Whether the next argument may be the value of the pending option. -/
def awaitsValue (g : Given) : Bool :=
  g.pending.any (·.2.isNone)

/-- Takes an option, with its value if that is attached. -/
def takeValued (g : Given) (name : Valued) (attached : Option String) : Except Refusal Given := do
  let g ← g.settle
  match attached with
  | some value => g.assign name value
  | none => return { g with pending := some (name, none) }

/-- Takes a flag. -/
def takeFlag (g : Given) (flag : Flag) : Except Refusal Given := do
  let g ← g.settle
  match flag with
  | .help => throw .helpWanted
  | .version => throw .versionWanted
  | .trafficFromInput =>
    if g.trafficFromInput then throw .repeated
    else return { g with trafficFromInput := true }

/-- Takes an argument with a long name. -/
def takeLong (g : Given) (name : String) (attached : Option String) : Except Refusal Given :=
  match long? name, attached with
  | none, _ => .error .unknownArgument
  | some (.inl name), attached => g.takeValued name attached
  | some (.inr flag), none => g.takeFlag flag
  | some (.inr _), some _ => .error .unexpectedValue

/-- **Takes a run of short names**; what follows an option is its value, with or without an equals
sign in front. -/
def takeShort (g : Given) : List Char → Except Refusal Given
  | [] => .ok g
  | c :: cs =>
    match short? c with
    | none => .error .unknownArgument
    | some (.inr flag) => do takeShort (← g.takeFlag flag) cs
    | some (.inl name) =>
      match cs with
      | [] => g.takeValued name none
      | '=' :: value => g.takeValued name (some (String.ofList value))
      | value => g.takeValued name (some (String.ofList value))

/-- Takes an argument that names nothing: the value of the pending option, or nothing known. -/
def takePlain (g : Given) (argument : String) : Except Refusal Given :=
  match g.pending with
  | some (name, none) => .ok { g with pending := some (name, some argument) }
  | _ => .error .unknownArgument

/-- **Takes one argument** by its form: `--name`, `--name=value`, short names after one dash, or
neither. -/
def take (g : Given) (argument : String) : Except Refusal Given :=
  match argument.toList with
  | '-' :: '-' :: cs =>
    let name := String.ofList (cs.takeWhile (· != '='))
    match cs.dropWhile (· != '=') with
    | [] => g.takeLong name none
    | _ :: value => g.takeLong name (some (String.ofList value))
  | '-' :: c :: cs => g.takeShort (c :: cs)
  | _ => g.takePlain argument

/-- What has been given, once the command line is over. -/
def options (g : Given) : Except Refusal Options := do
  let g ← g.settle
  match g.config with
  | none => throw .missingRequired
  | some config =>
    return { config, logLevel := g.logLevel, trafficFromInput := g.trafficFromInput }

end Given

/-- **Takes the arguments one by one.**  After `--` nothing is an option any more, and as no other
arguments are known, nothing may follow. -/
def takeAll (g : Given) : List String → Except Refusal Given
  | [] => .ok g
  | argument :: arguments =>
    if argument = "--" then
      if arguments.isEmpty then .ok g else .error .unknownArgument
    else do takeAll (← g.take argument) arguments

/-- **Reads a command line**, without the name of the program. -/
def read (arguments : List String) : Except Refusal Options := do
  (← takeAll {} arguments).options

/-- The usage of the program. -/
def usage : String :=
  "\n".intercalate [
    "Usage: [OPTIONS] --config <CONFIG>",
    "",
    "Options:",
    "  -c, --config <CONFIG>        Path to the configuration",
    "      --log-level <LOG_LEVEL>  Override the configured log level",
    "      --stdin-traffic          Read observations from the input, one a line",
    "  -h, --help                   Print help",
    "  -V, --version                Print version"]

/-- The version of the program. -/
def version : String := "0.2.0"

end CommandLine

/-- What is reported where a command line is not followed. -/
def Refusal.message : Refusal → String
  | missingRequired => "error: the configuration is not named: --config <CONFIG>"
  | unknownArgument => "error: unexpected argument"
  | invalidValue => "error: an option lacks its value"
  | repeated => "error: an option is given twice"
  | unexpectedValue => "error: a flag takes no value"
  | helpWanted => CommandLine.usage
  | versionWanted => CommandLine.version

end FlowExport
