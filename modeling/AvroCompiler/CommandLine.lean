namespace AvroCompiler

structure Arguments where
  config : Option String := none
  output : Option String := none
  packageName : Option String := none
  dryRun : Bool := false
  inputs : List String := []
  deriving DecidableEq, Repr

inductive CommandLine where
  | help
  | compile (arguments : Arguments)
  deriving DecidableEq, Repr

inductive ValueOption where
  | config
  | output
  | package
  deriving DecidableEq, Repr

inductive Argument where
  | input
  | inputsOnly
  | help
  | dryRun
  | valued (name : ValueOption) (attached : Option String)
  | unknown
  deriving DecidableEq, Repr

namespace Argument

def ofLong (name : String) (attached : Option String) : Argument :=
  match name, attached with
  | "config", value => .valued .config value
  | "output", value => .valued .output value
  | "package", value => .valued .package value
  | "dry-run", none => .dryRun
  | "help", none => .help
  | _, _ => .unknown

/-- The value that stands in the same argument as a short option, after an optional equals sign. -/
def attachedShort : List Char → Option String
  | [] => none
  | '=' :: cs => some (String.ofList cs)
  | cs => some (String.ofList cs)

def ofShort (c : Char) (rest : List Char) : Argument :=
  if c = 'c' then .valued .config (attachedShort rest)
  else if c = 'o' then .valued .output (attachedShort rest)
  else if c = 'p' then .valued .package (attachedShort rest)
  else if c = 'h' then .help
  else .unknown

def ofText (text : String) : Argument :=
  match text.toList with
  | ['-', '-'] => .inputsOnly
  | '-' :: '-' :: cs =>
    let name := String.ofList (cs.takeWhile (· ≠ '='))
    match cs.dropWhile (· ≠ '=') with
    | [] => ofLong name none
    | _ :: value => ofLong name (some (String.ofList value))
  | '-' :: c :: rest => ofShort c rest
  | _ => .input

end Argument

namespace Arguments

/-- Sets an option. It may be set once, and a path may not be empty. -/
def set? (arguments : Arguments) (value : String) : ValueOption → Option Arguments
  | .config =>
    if arguments.config.isSome ∨ value = "" then none
    else some { arguments with config := some value }
  | .output =>
    if arguments.output.isSome ∨ value = "" then none
    else some { arguments with output := some value }
  | .package =>
    if arguments.packageName.isSome then none
    else some { arguments with packageName := some value }

def addInput? (arguments : Arguments) (input : String) : Option Arguments :=
  if input = "" then none else some { arguments with inputs := arguments.inputs ++ [input] }

def finish? (arguments : Arguments) : Option CommandLine :=
  if arguments.inputs = [] then none else some (.compile arguments)

end Arguments

/-- Reads arguments from left to right. The value of an option is in the same argument or is the next
one, which must not look like an option. -/
def readArguments? (arguments : Arguments) : List String → Option CommandLine
  | [] => arguments.finish?
  | text :: rest =>
    match Argument.ofText text with
    | .input => do readArguments? (← arguments.addInput? text) rest
    | .inputsOnly => do (← rest.foldlM Arguments.addInput? arguments).finish?
    | .help => some .help
    | .dryRun =>
      if arguments.dryRun then none else readArguments? { arguments with dryRun := true } rest
    | .valued name (some value) => do readArguments? (← arguments.set? value name) rest
    | .valued name none =>
      match rest with
      | [] => none
      | value :: rest =>
        if Argument.ofText value = .input then do readArguments? (← arguments.set? value name) rest
        else none
    | .unknown => none

def CommandLine.read? (texts : List String) : Option CommandLine :=
  readArguments? {} texts

def CommandLine.helpText : String :=
  "Generate Rust types and binary codecs from Avro schemas\n\n" ++
  "Usage: avrogen [OPTIONS] <INPUTS>...\n\n" ++
  "Arguments:\n" ++
  "  <INPUTS>...  Schema files or directories containing *.avsc\n\n" ++
  "Options:\n" ++
  "  -c, --config <CONFIG>    Config file (defaults to avrogen.toml and friends)\n" ++
  "  -o, --output <OUTPUT>    Output directory (overrides [output] dir)\n" ++
  "  -p, --package <PACKAGE>  Package name (overrides [generate] package)\n" ++
  "      --dry-run            Render and validate, but only list the files\n" ++
  "  -h, --help               Print help\n"

end AvroCompiler
