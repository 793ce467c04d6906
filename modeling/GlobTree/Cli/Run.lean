import GlobTree.Cli.Arguments
import GlobTree.Export
import GlobTree.Extglob.Basic
/-!
# What the commands do

`run` answers a command line with a `Report`: what is written on the two output streams, and the exit
status. Files are read through a function that is given, so that the answer depends on nothing
else.
-/

namespace GlobTree.Cli

/-- What a run of the program leaves. -/
structure Report where
  exit : Nat := 0
  stdout : String := ""
  stderr : String := ""
  deriving DecidableEq, Repr, Inhabited

/-- Why a file could not be read. -/
inductive FileError
  | notFound
  | isDirectory
  /-- The contents are not text. -/
  | notText
  /-- Another reason, in the words of the system. -/
  | other (message : String)
  deriving DecidableEq, Repr

/-- The reason in words. -/
def FileError.message : FileError → String
  | notFound => "No such file or directory (os error 2)"
  | isDirectory => "Is a directory (os error 21)"
  | notText => "stream did not contain valid UTF-8"
  | other message => message

/-- A way to read the texts of files. -/
abbrev ReadFile := String → Except FileError String

namespace Report

/-- Adds a line to the output. -/
def say (report : Report) (line : String) : Report :=
  { report with stdout := report.stdout ++ line ++ "\n" }

/-- Adds a line to the error output. -/
def warn (report : Report) (line : String) : Report :=
  { report with stderr := report.stderr ++ line ++ "\n" }

/-- The same report with the exit status of a failure. -/
def failed (report : Report) : Report :=
  { report with exit := 1 }

end Report

/-- The version of the program. -/
def version : String := "0.7.0"

/-- A text without the line feeds and carriage returns at its end. -/
def trimLineEnds (text : String) : String :=
  String.ofList (text.toList.reverse.dropWhile fun c => c = '\n' || c = '\r').reverse

/-- The pattern, and the label that it goes by: the one that was given, or the name of the file,
or the word for a pattern on the command line. -/
def source (readFile : ReadFile) (input : Input) : Except String (String × String) :=
  if input.file then
    match readFile input.pattern with
    | .ok text => .ok (trimLineEnds text, input.label.getD input.pattern)
    | .error error =>
      let path := input.pattern
      let reason := error.message
      .error s!"Error reading pattern file {path}: {reason}"
  else .ok (input.pattern, input.label.getD "argv")

/-- The options that an input asks for. -/
def Input.options (input : Input) (label : String) : ParserOptions where
  sourceLabel := label
  strict := input.strict
  errorMode := if input.collect then .collect else .throw

/-- A parser that stopped, in words. -/
def parseStopMessage : ParseStop Extglob.Kind → String
  | .failed error => toString error
  | .outOfBounds => "out of bounds"

/-- A renderer that stopped, in words. -/
def renderStopMessage : RenderStop Extglob.Kind → String
  | .failed error => toString error
  | .outOfBounds => "out of bounds"
  | .tooDeep => "too deep"

/-- The document of an input, or the words that say why there is none. -/
def parseInput (readFile : ReadFile) (input : Input) :
    Except String (Document Extglob.Kind) := do
  let (text, label) ← source readFile input
  (Extglob.parse text (input.options label)).mapError parseStopMessage

/-- One warning for each problem that was noted. -/
def warnings (document : Document Extglob.Kind) : Report :=
  document.diagnostics.foldl (fun report note => report.warn s!"warning: {note}") {}

/-- Goes on with the document of an input, after its warnings. -/
def withDocument (readFile : ReadFile) (input : Input)
    (next : Document Extglob.Kind → Report → Report) : Report :=
  match parseInput readFile input with
  | .ok document => next document (warnings document)
  | .error message => (Report.warn {} message).failed

/-- Shows the tree of a pattern. -/
def runParse (readFile : ReadFile) (input : Input) : Report :=
  withDocument readFile input fun document report => report.say document.toJson.pretty

/-- The source map mode for an argument. -/
def MapArgument.mode : MapArgument → SourceMapMode
  | .false => .disabled
  | .true => .enabled
  | .generator => .generator

/-- The renderer for a target. -/
def Target.renderer (target : Target) (options : RenderOptions) : Renderer Extglob.Kind :=
  match target with
  | verbatim => Extglob.verbatimRenderer options
  | regex => Extglob.regexRenderer options

/-- Renders a pattern. With a source map the whole result is shown, without one the text alone.
If rendering fails, the text written up to there is shown, if there is any. -/
def runRender (readFile : ReadFile) (input : Input) (target : Target) (map : MapArgument) :
    Report :=
  withDocument readFile input fun document report =>
    match (target.renderer (RenderOptions.withSourceMap {} map.mode)).render document with
    | (.ok rendered, _) =>
      report.say (if rendered.sourceMap.isSome then rendered.toJson.pretty else rendered.output)
    | (.error stop, renderer) =>
      let report := report.warn (renderStopMessage stop)
      let written := renderer.partialOutput
      let report := if written.isEmpty then report else report.warn s!"Partial output: {written}"
      report.failed

/-- Checks a pattern. -/
def runCheck (readFile : ReadFile) (input : Input) : Report :=
  withDocument readFile input fun document report =>
    if document.hasDiagnostics then
      let count := document.diagnostics.size
      (report.warn s!"{count} problem(s) found").failed
    else report.warn s!"OK: {document.label}"

/-- Does what is asked for. -/
def runRequest (readFile : ReadFile) : Request → Report
  | .parse input => runParse readFile input
  | .render input target map => runRender readFile input target map
  | .check input => runCheck readFile input
  | .version => Report.say {} ("spindle " ++ version)

/-- Answers a command line. One that is not understood has the exit status two. -/
def run (readFile : ReadFile) (arguments : List String) : Report :=
  match Request.ofArguments arguments with
  | .ok request => runRequest readFile request
  | .error _ => { exit := 2 }

end GlobTree.Cli
