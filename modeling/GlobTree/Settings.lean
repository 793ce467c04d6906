import GlobTree.Json
import GlobTree.Parser.Options
import GlobTree.Render.Options
import GlobTree.Text.Printable
/-!
# Options read from JSON

`ParserOptions.ofJson` and `RenderOptions.ofJson` read options from a JSON value: an object, whose
members are read in the order of their names, or a list of the options in their declared order.
What is missing keeps its default, and members with other names are passed over.

What is wrong with a value is an `OptionsError`.
-/

namespace GlobTree

/-- What is wrong with a value for options. -/
inductive OptionsError
  /-- The value is of the wrong type. -/
  | wrongType (found : Json) (expected : String)
  /-- An error mode is given by an object, which has not exactly one member. -/
  | notOneMember
  /-- There is no error mode of this name. -/
  | unknownErrorMode (name : String)
  /-- A source map mode is neither a truth value nor a text. -/
  | noSourceMapMode
  /-- There is no source map mode of this name. -/
  | unknownSourceMapMode (name : String)
  /-- A list has more entries than there are options. -/
  | tooManyEntries (count : Nat)
  deriving Repr

/-- A value in words. Only its type is told where the value may be large. -/
def Json.described : Json → String
  | null => "null"
  | bool true => "boolean \x60true\x60"
  | bool false => "boolean \x60false\x60"
  | integer value => s!"integer \x60{value}\x60"
  | decimal mantissa places =>
    let digits := decimalText mantissa places
    s!"floating point \x60{digits}\x60"
  | text value => "string " ++ debugQuote value
  | list _ => "sequence"
  | object _ => "map"

/-- What is wrong, in words. -/
def OptionsError.message : OptionsError → String
  | wrongType found expected =>
    let got := found.described
    s!"invalid type: {got}, expected {expected}"
  | notOneMember => "invalid value: map, expected map with a single key"
  | unknownErrorMode name => s!"unknown variant \x60{name}\x60, expected \x60throw\x60 or \x60collect\x60"
  | noSourceMapMode => "data did not match any variant of untagged enum SourceMapSetting"
  | unknownSourceMapMode name =>
    s!"unknown sourcemap setting '{name}', expected true, false or \"generator\""
  | tooManyEntries count => s!"invalid length {count}, expected fewer elements in array"

/-! ## Single values -/

/-- A truth value. -/
def Json.asBool : Json → Except OptionsError Bool
  | bool value => .ok value
  | found => .error (.wrongType found "a boolean")

/-- A text. -/
def Json.asText : Json → Except OptionsError String
  | text value => .ok value
  | found => .error (.wrongType found "a string")

/-- A text, or nothing if the value is null. -/
def Json.asText? : Json → Except OptionsError (Option String)
  | null => .ok none
  | found => found.asText.map some

/-- The error mode of a name. -/
def ErrorMode.ofName (name : String) : Except OptionsError ErrorMode :=
  match name with
  | "throw" => .ok .throw
  | "collect" => .ok .collect
  | _ => .error (.unknownErrorMode name)

/-- An error mode: its name, or an object with the name as its only key and nothing in it. -/
def ErrorMode.ofJson : Json → Except OptionsError ErrorMode
  | .text name => ofName name
  | .object [(name, value)] => do
    let mode ← ofName name
    match value with
    | .null => return mode
    | found => .error (.wrongType found "unit")
  | .object _ => .error .notOneMember
  | found => .error (.wrongType found "string or map")

/-- A source map mode: a truth value, or the name of the one mode that has a name. -/
def SourceMapMode.ofJson : Json → Except OptionsError SourceMapMode
  | .bool false => .ok .disabled
  | .bool true => .ok .enabled
  | .text "generator" => .ok .generator
  | .text name => .error (.unknownSourceMapMode name)
  | _ => .error .noSourceMapMode

/-! ## Options -/

/-- The value of a member, or the default if there is none. -/
def readMember {α : Type} (members : List (String × Json)) (key : String) (default : α)
    (read : Json → Except OptionsError α) : Except OptionsError α :=
  match members.lookup key with
  | some value => read value
  | none => .ok default

/-- The value of an entry of a list, or the default if there is none. -/
def readEntry {α : Type} (entries : List Json) (index : Nat) (default : α)
    (read : Json → Except OptionsError α) : Except OptionsError α :=
  match entries[index]? with
  | some value => read value
  | none => .ok default

/-- The options of a parser. -/
def ParserOptions.ofJson : Json → Except OptionsError ParserOptions
  | .object members => do
    let errorMode ← readMember members "errorMode" .throw ErrorMode.ofJson
    let sourceLabel ← readMember members "sourceLabel" "string" Json.asText
    let strict ← readMember members "strict" false Json.asBool
    return ⟨sourceLabel, strict, errorMode⟩
  | .list entries => do
    let sourceLabel ← readEntry entries 0 "string" Json.asText
    let strict ← readEntry entries 1 false Json.asBool
    let errorMode ← readEntry entries 2 .throw ErrorMode.ofJson
    if entries.length > 3 then throw (.tooManyEntries entries.length)
    return ⟨sourceLabel, strict, errorMode⟩
  | found => .error (.wrongType found "struct ParserOptions")

/-- The options of a renderer. -/
def RenderOptions.ofJson : Json → Except OptionsError RenderOptions
  | .object members => do
    let file ← readMember members "file" none Json.asText?
    let sourceMap ← readMember members "sourcemap" .disabled SourceMapMode.ofJson
    return ⟨sourceMap, file⟩
  | .list entries => do
    let sourceMap ← readEntry entries 0 .disabled SourceMapMode.ofJson
    let file ← readEntry entries 1 none Json.asText?
    if entries.length > 2 then throw (.tooManyEntries entries.length)
    return ⟨sourceMap, file⟩
  | found => .error (.wrongType found "struct RenderOptions")

end GlobTree
