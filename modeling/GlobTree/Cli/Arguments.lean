/-!
# Command lines

`Request.ofArguments` reads a command line. It starts with the name of a command; then come the
pattern, which has to be there, and options in any order.

Options start with two dashes. One that takes a value takes it after an equals sign or from the
next argument, which then may not look like an option itself. After a lone `--` nothing is an
option any more. Every option stands at most once.
-/

namespace GlobTree.Cli

/-- The form in which a pattern is rendered. -/
inductive Target
  | verbatim
  | regex
  deriving DecidableEq, Repr, Inhabited

/-- The source map that is asked for. -/
inductive MapArgument
  | «false»
  | «true»
  | generator
  deriving DecidableEq, Repr, Inhabited

/-- Where the pattern comes from and how it is parsed. -/
structure Input where
  /-- The pattern, or the file that it stands in. -/
  pattern : String
  file : Bool := false
  strict : Bool := false
  collect : Bool := false
  label : Option String := none
  deriving DecidableEq, Repr, Inhabited

/-- What is asked for. -/
inductive Request
  | parse (input : Input)
  | render (input : Input) (target : Target) (map : MapArgument)
  | check (input : Input)
  | version
  deriving DecidableEq, Repr

/-- The command line is not understood. -/
inductive UsageError
  | noCommand
  | unknownCommand (name : String)
  | unknownOption (argument : String)
  | repeatedOption (name : String)
  | missingValue (name : String)
  | unexpectedValue (name : String)
  | invalidValue (name : String) (value : String)
  | missingPattern
  | tooManyPatterns (argument : String)
  deriving DecidableEq, Repr

/-- What was read of the arguments of a command. -/
structure Arguments where
  pattern : Option String := none
  /-- The options that stood alone. -/
  flags : List String := []
  /-- The options with a value. -/
  values : List (String × String) := []
  deriving DecidableEq, Repr, Inhabited

/-- The commands. -/
inductive Command
  | parse
  | render
  | check
  deriving DecidableEq, Repr

namespace Command

/-- The command of a name. -/
def ofName? : String → Option Command
  | "parse" => some parse
  | "render" => some render
  | "check" => some check
  | _ => none

/-- The options without a value. -/
def flagNames : List String := ["file", "strict", "collect"]

/-- The options with a value. -/
def valueNames : Command → List String
  | render => ["label", "to", "sourcemap"]
  | parse | check => ["label"]

end Command

namespace Arguments

/-- Adds a pattern. -/
def addPattern (arguments : Arguments) (argument : String) : Except UsageError Arguments :=
  match arguments.pattern with
  | none => .ok { arguments with pattern := some argument }
  | some _ => .error (.tooManyPatterns argument)

/-- Adds an option without a value. -/
def addFlag (arguments : Arguments) (name : String) : Except UsageError Arguments :=
  if name ∈ arguments.flags then .error (.repeatedOption name)
  else .ok { arguments with flags := name :: arguments.flags }

/-- Adds an option with its value. -/
def addValue (arguments : Arguments) (name value : String) : Except UsageError Arguments :=
  if (arguments.values.lookup name).isSome then .error (.repeatedOption name)
  else .ok { arguments with values := (name, value) :: arguments.values }

/-- Whether an argument looks like an option: it starts with a dash and goes on. -/
def looksLikeOption (argument : String) : Bool :=
  match argument.toList with
  | '-' :: _ :: _ => true
  | _ => false

/-- The name of a long option, and its value if there is an equals sign. -/
def splitOption (option : List Char) : String × Option String :=
  let name := String.ofList (option.takeWhile (· ≠ '='))
  match option.dropWhile (· ≠ '=') with
  | [] => (name, none)
  | _ :: value => (name, some (String.ofList value))

/-- Reads the arguments of a command from left to right. -/
def read (command : Command) : Arguments → List String → Except UsageError Arguments
  | arguments, [] => .ok arguments
  | arguments, argument :: rest => do
    match argument.toList with
    | ['-', '-'] => rest.foldlM addPattern arguments
    | '-' :: '-' :: option =>
      let (name, value) := splitOption option
      if name ∈ Command.flagNames then
        if value.isSome then .error (.unexpectedValue name)
        else read command (← arguments.addFlag name) rest
      else if name ∈ command.valueNames then
        match value, rest with
        | some value, rest => read command (← arguments.addValue name value) rest
        | none, next :: rest =>
          if looksLikeOption next then .error (.missingValue name)
          else read command (← arguments.addValue name next) rest
        | none, [] => .error (.missingValue name)
      else .error (.unknownOption argument)
    | '-' :: _ :: _ => .error (.unknownOption argument)
    | _ => read command (← arguments.addPattern argument) rest

/-- The input that the arguments describe. -/
def input (arguments : Arguments) : Except UsageError Input :=
  match arguments.pattern with
  | none => .error .missingPattern
  | some pattern => .ok
    { pattern := pattern
      file := "file" ∈ arguments.flags
      strict := "strict" ∈ arguments.flags
      collect := "collect" ∈ arguments.flags
      label := arguments.values.lookup "label" }

/-- The form in which to render, which is verbatim unless said otherwise. -/
def target (arguments : Arguments) : Except UsageError Target :=
  match arguments.values.lookup "to" with
  | none | some "verbatim" => .ok .verbatim
  | some "regex" => .ok .regex
  | some other => .error (.invalidValue "to" other)

/-- The source map that is asked for, which is none unless said otherwise. -/
def map (arguments : Arguments) : Except UsageError MapArgument :=
  match arguments.values.lookup "sourcemap" with
  | none | some "false" => .ok .false
  | some "true" => .ok .true
  | some "generator" => .ok .generator
  | some other => .error (.invalidValue "sourcemap" other)

end Arguments

/-- Reads a command line. -/
def Request.ofArguments : List String → Except UsageError Request
  | [] => .error .noCommand
  | argument :: rest =>
    match argument.toList with
    | '-' :: 'V' :: _ => .ok .version
    | '-' :: _ =>
      if argument = "--version" then .ok .version else .error (.unknownOption argument)
    | _ =>
      match Command.ofName? argument with
      | none => .error (.unknownCommand argument)
      | some command => do
        let arguments ← Arguments.read command {} rest
        let input ← arguments.input
        match command with
        | .parse => return .parse input
        | .check => return .check input
        | .render => return .render input (← arguments.target) (← arguments.map)

end GlobTree.Cli
