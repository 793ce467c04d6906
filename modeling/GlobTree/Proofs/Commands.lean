import GlobTree.Cli.Run
import GlobTree.Proofs.Extglob.RoundTrip
import GlobTree.Proofs.Parser.ErrorModes
/-!
# What the commands agree on

A pattern is valid if it is parsed where problems are errors. The command `check` ends well for valid
patterns only, whether it collects problems or not: problems that are collected are reported at the
end (`Cli.exit_check`), and the two modes of a parser find the same ones
(`Parser.throwing_eq_ok_iff`). The other commands end well whenever `check` does, and `render`
writes the pattern as it was (`Cli.commands_agree`).

The pattern is an argument or stands in a file, where the line ends after it do not count
(`Cli.Input.Gives`). Every input is asked for by some command line (`Cli.asks_arguments`).
-/

namespace GlobTree

/-! ## Valid patterns -/

/-- A parse that throws succeeds if one that collects notes nothing and succeeds. -/
theorem Parser.throwing_eq_ok_iff {K M : Type} [DecidableEq K] {parser : Parser K M}
    (plain : ∀ handler ∈ parser.handlers.toList, handler.Plain)
    (collects : parser.state.options.errorMode = .collect)
    (fresh : parser.state.diagnostics = #[]) (text : String) (document : Document K) :
    ((parser.mapOptions throwing).parse text).1 = .ok document ↔
      (parser.parse text).1 = .ok document ∧ document.diagnostics = #[] := by
  rw [parse_throwing plain collects fresh]
  constructor
  · intro h
    split at h
    next hnoted =>
      rw [noted_of_ok h] at hnoted
      exact ⟨h, Array.toList_eq_nil_iff.1 hnoted⟩
    next => cases h
  · rintro ⟨h, hempty⟩
    rw [noted_of_ok h, hempty]
    exact h

namespace Extglob

/-- A pattern is parsed and nothing is noted about it, in either mode, if and only if it is parsed
where problems are errors. -/
theorem exists_quiet_iff (pattern : String) (options : ParserOptions) :
    (∃ document, parse pattern options = .ok document ∧ document.diagnostics = #[]) ↔
      (parse pattern (throwing options)).isOk := by
  let collecting := options.withErrorMode .collect
  have hok (document : Document Kind) : parse pattern (throwing options) = .ok document ↔
      parse pattern collecting = .ok document ∧ document.diagnostics = #[] :=
    Parser.throwing_eq_ok_iff (plain_handlers collecting) rfl rfl pattern document
  have hisOk : (parse pattern (throwing options)).isOk ↔
      ∃ document, parse pattern (throwing options) = .ok document := by
    cases parse pattern (throwing options) <;> simp [Except.isOk, Except.toBool]
  rw [hisOk]
  obtain ⟨label, strict, mode⟩ := options
  cases mode with
  | collect => exact exists_congr fun document => (hok document).symm
  | throw => exact exists_congr fun document => and_iff_left_of_imp fun h => ((hok document).1 h).2

/-- **A document is written as its source**, without a source map if none is asked for. -/
theorem exists_rendered {pattern : String} {options : ParserOptions} {document : Document Kind}
    (h : parse pattern options = .ok document) :
    ∃ rendered renderer, (verbatimRenderer {}).render document = (.ok rendered, renderer) ∧
      rendered.output = pattern ∧ rendered.sourceMap = none := by
  have parsed := parsed_of_parse h
  have htiles : Tiles options.sourceLabel (Location.start.advance [])
      document.toArena.forest.preorder pattern.toList := by
    rw [Location.advance_nil]
    exact parsed.tiles
  have hexact := (exact_empty pattern.toList).emitAll htiles (List.append_nil _).symm
  refine ⟨_, _, by rw [Renderer.render, renderCanvas_verbatim {} parsed]; rfl, ?_, rfl⟩
  have houtput := hexact.output
  rwa [List.nil_append, String.ofList_toList] at houtput

end Extglob

namespace Cli

/-! ## Reports -/

namespace Report

variable (report : Report) (line : String)

@[simp] theorem stdout_say : (report.say line).stdout = report.stdout ++ line ++ "\n" := rfl

@[simp] theorem exit_warn : (report.warn line).exit = report.exit := rfl

@[simp] theorem stdout_warn : (report.warn line).stdout = report.stdout := rfl

theorem exit_failed_ne_zero : report.failed.exit ≠ 0 := Nat.one_ne_zero

end Report

/-- Warnings are no failure, and they are not written on the output. -/
theorem warnings_quiet (document : Document Extglob.Kind) :
    (warnings document).exit = 0 ∧ (warnings document).stdout = "" := by
  rw [warnings, ← Array.foldl_toList]
  generalize document.diagnostics.toList = notes
  have hkeeps (report : Report) : (notes.foldl (fun report note =>
      report.warn s!"warning: {note}") report).exit = report.exit ∧
        (notes.foldl (fun report note => report.warn s!"warning: {note}") report).stdout =
          report.stdout := by
    induction notes generalizing report with
    | nil => exact ⟨rfl, rfl⟩
    | cons note notes ih =>
      have hrest := ih (report.warn s!"warning: {note}")
      rwa [Report.exit_warn, Report.stdout_warn] at hrest
  exact hkeeps {}

/-! ## Where a pattern comes from -/

/-- The label that an input goes by. -/
def Input.labelled (input : Input) : String :=
  input.label.getD (if input.file then input.pattern else "argv")

/-- A character that ends a line. -/
def isLineEnd (c : Char) : Bool := c = '\n' || c = '\r'

/-- The pattern that an input gives: its argument, or what the file has but for the line ends after
it. -/
def Input.Gives (readFile : ReadFile) (input : Input) (text : String) : Prop :=
  if input.file then
    ∃ ending, readFile input.pattern = .ok (text ++ String.ofList ending) ∧ ending.all isLineEnd ∧
      ¬ text.toList.getLast?.any isLineEnd
  else text = input.pattern

theorem trimLineEnds_append {text : String} {ending : List Char} (hending : ending.all isLineEnd)
    (htext : ¬ text.toList.getLast?.any isLineEnd) :
    trimLineEnds (text ++ String.ofList ending) = text := by
  have hall : ∀ c ∈ ending.reverse, isLineEnd c := by simpa using hending
  have hhead : text.toList.reverse.dropWhile isLineEnd = text.toList.reverse := by
    rw [← List.head?_reverse] at htext
    cases hreverse : text.toList.reverse with
    | nil => rfl
    | cons c cs =>
      rw [hreverse] at htext
      exact List.dropWhile_cons_of_neg (by simpa using htext)
  show String.ofList ((text ++ String.ofList ending).toList.reverse.dropWhile isLineEnd).reverse = _
  rw [String.toList_append, String.toList_ofList, List.reverse_append,
    List.dropWhile_append_of_pos hall, hhead, List.reverse_reverse, String.ofList_toList]

theorem source_of_gives {readFile : ReadFile} {input : Input} {text : String}
    (gives : input.Gives readFile text) : source readFile input = .ok (text, input.labelled) := by
  rw [Input.Gives] at gives
  rw [source, Input.labelled]
  split at gives
  next hfile =>
    obtain ⟨ending, hread, hending, htext⟩ := gives
    rw [if_pos hfile, if_pos hfile, hread]
    simp only [trimLineEnds_append hending htext]
  next hfile =>
    subst gives
    rw [if_neg hfile, if_neg hfile]

/-! ## What a command does with a pattern -/

section Pattern

variable {readFile : ReadFile} {input : Input} {text : String}

theorem parseInput_of_gives (gives : input.Gives readFile text) :
    parseInput readFile input =
      (Extglob.parse text (input.options input.labelled)).mapError parseStopMessage := by
  rw [parseInput, source_of_gives gives]
  rfl

/-- A command ends well if the pattern is parsed and it goes on well. -/
theorem exit_withDocument (gives : input.Gives readFile text)
    (next : Document Extglob.Kind → Report → Report) :
    (withDocument readFile input next).exit = 0 ↔ ∃ document,
      Extglob.parse text (input.options input.labelled) = .ok document ∧
        (next document (warnings document)).exit = 0 := by
  rw [withDocument, parseInput_of_gives gives]
  cases Extglob.parse text (input.options input.labelled) with
  | error stop => simp [Except.mapError, Report.exit_failed_ne_zero]
  | ok document => simp [Except.mapError]

/-- **Checking ends well for valid patterns only**, in both modes. -/
theorem exit_check (gives : input.Gives readFile text) :
    (runCheck readFile input).exit = 0 ↔
      (Extglob.parse text ⟨input.labelled, input.strict, .throw⟩).isOk := by
  have hvalid := Extglob.exists_quiet_iff text (input.options input.labelled)
  rw [show throwing (input.options input.labelled) = ⟨input.labelled, input.strict, .throw⟩
    from rfl] at hvalid
  rw [runCheck, exit_withDocument gives, ← hvalid]
  refine exists_congr fun document => and_congr_right fun _ => ?_
  rw [Document.hasDiagnostics]
  cases hempty : document.diagnostics.isEmpty
  · have hne : document.diagnostics ≠ #[] := by simpa using hempty
    simp [hne, Report.exit_failed_ne_zero]
  · have heq : document.diagnostics = #[] := by simpa using hempty
    simp [heq, (warnings_quiet document).1]

/-- Showing the tree of a pattern ends well if the pattern is parsed. -/
theorem exit_parse (gives : input.Gives readFile text) {document : Document Extglob.Kind}
    (h : Extglob.parse text (input.options input.labelled) = .ok document) :
    (runParse readFile input).exit = 0 := by
  rw [runParse, exit_withDocument gives]
  exact ⟨document, h, (warnings_quiet document).1⟩

/-- **Rendering a pattern writes it as it was.** -/
theorem runRender_verbatim (gives : input.Gives readFile text) {document : Document Extglob.Kind}
    (h : Extglob.parse text (input.options input.labelled) = .ok document) :
    (runRender readFile input .verbatim .false).exit = 0 ∧
      (runRender readFile input .verbatim .false).stdout = text ++ "\n" := by
  obtain ⟨rendered, renderer, hrender, houtput, hmap⟩ := Extglob.exists_rendered h
  obtain ⟨hexit, hstdout⟩ := warnings_quiet document
  have hsay : runRender readFile input .verbatim .false = (warnings document).say text := by
    rw [runRender, withDocument, parseInput_of_gives gives, h]
    simp only [Except.mapError, MapArgument.mode, Target.renderer]
    rw [show RenderOptions.withSourceMap {} .disabled = {} from rfl, hrender]
    simp [hmap, houtput]
  rw [hsay]
  exact ⟨hexit, by rw [Report.stdout_say, hstdout, String.empty_append]⟩

end Pattern

/-! ## Command lines -/

/-- A command line asks for something. -/
def Asks (line : List String) (request : Request) : Prop := Request.ofArguments line = .ok request

theorem run_of_asks {line : List String} {request : Request} (asks : Asks line request)
    (readFile : ReadFile) : run readFile line = runRequest readFile request := by
  rw [run, asks]

/-- A name, if it is given. -/
def given (name : String) (isGiven : Bool) : List String := if isGiven then [name] else []

/-- The arguments that describe an input: its options, and its pattern after a lone `--`. -/
def Input.arguments (input : Input) : List String :=
  given ("--" ++ "file") input.file ++ (given ("--" ++ "strict") input.strict ++
    (given ("--" ++ "collect") input.collect ++
      ((input.label.map ("--label=" ++ ·)).toList ++ ["--", input.pattern])))

section Reading

variable (command : Command) (arguments : Arguments) (rest : List String)

/-- An option without a value, if it is there. -/
theorem read_flag {name : String} (hname : name ∈ Command.flagNames) (hnew : name ∉ arguments.flags)
    (isGiven : Bool) :
    Arguments.read command arguments (given ("--" ++ name) isGiven ++ rest) =
      Arguments.read command { arguments with flags := given name isGiven ++ arguments.flags }
        rest := by
  cases isGiven with
  | false => rfl
  | true =>
    have hadd : arguments.addFlag name = .ok { arguments with flags := name :: arguments.flags } := by
      rw [Arguments.addFlag, if_neg hnew]
    have hsplit : Arguments.splitOption name.toList = (name, none) := by
      simp only [Command.flagNames, List.mem_cons, List.not_mem_nil, or_false] at hname
      rcases hname with rfl | rfl | rfl <;> simp [Arguments.splitOption]
    have htext : ∃ c tail, name.toList = c :: tail := by
      simp only [Command.flagNames, List.mem_cons, List.not_mem_nil, or_false] at hname
      rcases hname with rfl | rfl | rfl <;> simp
    obtain ⟨c, tail, htail⟩ := htext
    have hargument : ("--" ++ name).toList = '-' :: '-' :: c :: tail := by simp [htail]
    rw [htail] at hsplit
    simp only [given, if_true, List.singleton_append]
    rw [Arguments.read, hargument]
    simp only [hsplit, if_pos hname, hadd, Option.isSome_none, Bool.false_eq_true, if_false]
    rfl

/-- An option with its value after the equals sign, if it is there. -/
theorem read_label (hnew : arguments.values = []) (label : Option String) :
    Arguments.read command arguments ((label.map ("--label=" ++ ·)).toList ++ rest) =
      Arguments.read command
        { arguments with values := (label.map fun label => ("label", label)).toList } rest := by
  cases label with
  | none =>
    rw [Option.map_none, Option.map_none, Option.toList_none, Option.toList_none, ← hnew]
    rfl
  | some label =>
    have hargument : ("--label=" ++ label).toList =
        '-' :: '-' :: 'l' :: ("abel=".toList ++ label.toList) := by simp
    have hsplit : Arguments.splitOption ('l' :: ("abel=".toList ++ label.toList)) =
        ("label", some label) := by simp [Arguments.splitOption]
    have hflag : "label" ∉ Command.flagNames := by simp [Command.flagNames]
    have hvalue : "label" ∈ command.valueNames := by cases command <;> simp [Command.valueNames]
    have hadd : arguments.addValue "label" label =
        .ok { arguments with values := [("label", label)] } := by
      simp [Arguments.addValue, hnew]
    generalize "abel=".toList ++ label.toList = tail at hargument hsplit
    simp only [Option.map_some, Option.toList_some, List.singleton_append]
    rw [Arguments.read, hargument]
    simp only [hsplit, if_neg hflag, if_pos hvalue, hadd]
    rfl

end Reading

theorem mem_given {name other : String} {isGiven : Bool} :
    name ∈ given other isGiven ↔ isGiven = true ∧ name = other := by
  cases isGiven <;> simp [given]

/-- The arguments for an input are read one option after the other, and then the pattern. -/
theorem read_arguments (command : Command) (input : Input) :
    Arguments.read command {} input.arguments = .ok
      { pattern := some input.pattern
        flags := given "collect" input.collect ++
          (given "strict" input.strict ++ (given "file" input.file ++ []))
        values := (input.label.map fun label => ("label", label)).toList } := by
  rw [Input.arguments, read_flag command {} _ (by simp [Command.flagNames]) (by simp),
    read_flag command _ _ (by simp [Command.flagNames]) (by simp [mem_given]),
    read_flag command _ _ (by simp [Command.flagNames]) (by simp [mem_given]), read_label]
  · simp [Arguments.read, Arguments.addPattern]
  · rfl

/-- **Every input is asked for by some command line**, of any command. -/
theorem asks_arguments (input : Input) :
    Asks ("parse" :: input.arguments) (.parse input) ∧
      Asks ("check" :: input.arguments) (.check input) ∧
      Asks ("render" :: input.arguments) (.render input .verbatim .false) := by
  have hread (command : Command) := read_arguments command input
  generalize harguments : ({ pattern := some input.pattern, flags := _, values := _ } : Arguments) =
    arguments at hread
  have hinput : arguments.input = .ok input := by
    rw [← harguments, Arguments.input]
    cases input with
    | mk pattern file strict collect label => cases label <;> simp [mem_given]
  have hvalues (name : String) (h : name ≠ "label") : arguments.values.lookup name = none := by
    have hne : (name == "label") = false := by simpa using h
    rw [← harguments]
    cases input.label <;> simp [List.lookup_cons, hne]
  have htarget : arguments.target = .ok .verbatim := by
    rw [Arguments.target, hvalues "to" (by simp)]
  have hmap : arguments.map = .ok .false := by
    rw [Arguments.map, hvalues "sourcemap" (by simp)]
  simp [Asks, Request.ofArguments, Command.ofName?, hread, hinput, htarget, hmap, bind, Except.bind,
    pure, Except.pure]

/-! ## Commands together -/

/-- **The commands agree on what is a valid pattern.** Whether problems are collected or not, `check`
ends well exactly if the pattern is parsed where problems are errors, and then `parse` and `render` end
well, and `render` writes the pattern as it was. -/
theorem commands_agree {readFile : ReadFile} {input : Input} {text : String}
    (gives : input.Gives readFile text) :
    (∀ line collect, Asks line (.check { input with collect := collect }) →
      ((run readFile line).exit = 0 ↔
        (Extglob.parse text ⟨input.labelled, input.strict, .throw⟩).isOk)) ∧
      ∀ line, Asks line (.check input) → (run readFile line).exit = 0 →
        (∀ other, Asks other (.parse input) → (run readFile other).exit = 0) ∧
        ∀ other, Asks other (.render input .verbatim .false) →
          (run readFile other).exit = 0 ∧ (run readFile other).stdout = text ++ "\n" := by
  constructor
  · intro line collect asks
    have hgives : { input with collect := collect }.Gives readFile text := gives
    rw [run_of_asks asks]
    exact exit_check hgives
  · intro line asks hexit
    rw [run_of_asks asks, runRequest, runCheck, exit_withDocument gives] at hexit
    obtain ⟨document, hparse, -⟩ := hexit
    constructor
    · intro other asks
      rw [run_of_asks asks]
      exact exit_parse gives hparse
    · intro other asks
      rw [run_of_asks asks]
      exact runRender_verbatim gives hparse

/-- A file with a pattern that has a group which is not closed, and a line end. The pattern is valid, but
not in strict mode. -/
theorem commands_agree_file :
    let readFile : ReadFile := fun _ => .ok "é@(a|b\r\n"
    let input : Input := { pattern := "p.glob", file := true }
    let strict : Input := { input with strict := true }
    input.Gives readFile "é@(a|b" ∧
      (run readFile ("check" :: { input with collect := true }.arguments)).exit = 0 ∧
      (run readFile ("check" :: { strict with collect := true }.arguments)).exit ≠ 0 ∧
      (run readFile ("render" :: input.arguments)).stdout = "é@(a|b" ++ "\n" := by
  intro readFile input strict
  have hgives : input.Gives readFile "é@(a|b" :=
    ⟨['\r', '\n'], by decide +kernel, by decide, by decide +kernel⟩
  have hgives' : strict.Gives readFile "é@(a|b" := hgives
  have hok : (Extglob.parse "é@(a|b" ⟨input.labelled, false, .throw⟩).isOk = true := by
    decide +kernel
  have hnot : (Extglob.parse "é@(a|b" ⟨strict.labelled, true, .throw⟩).isOk = false := by
    decide +kernel
  obtain ⟨hcheck, hothers⟩ := commands_agree hgives
  obtain ⟨-, hasks, hrender⟩ := asks_arguments input
  refine ⟨hgives, ?_, fun h => ?_, ?_⟩
  · exact (hcheck _ true (asks_arguments { input with collect := true }).2.1).2 hok
  · have hfails := (commands_agree hgives').1 _ true (asks_arguments { strict with collect := true }).2.1
    rw [hfails.1 h] at hnot
    cases hnot
  · exact ((hothers _ hasks ((hcheck _ false hasks).2 hok)).2 _ hrender).2

end Cli

end GlobTree
