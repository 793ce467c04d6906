/-!
# JSON

A JSON value, with the members of objects in the order in which they are written, and its text over
several lines.
-/

namespace GlobTree

/-- A JSON value. -/
inductive Json
  | null
  | bool (value : Bool)
  | integer (value : Int)
  /-- The number `mantissa` with its last `places` digits after the point. -/
  | decimal (mantissa : Int) (places : Nat)
  | text (value : String)
  | list (entries : List Json)
  | object (members : List (String × Json))
  deriving Repr, Inhabited

namespace Json

/-- A natural number. -/
def number (value : Nat) : Json := integer value

/-- A text, or null. -/
def ofText? : Option String → Json
  | some value => text value
  | none => null

/-- The lower-case hex digit of a value below sixteen. -/
def hexDigit (value : Nat) : Char :=
  Char.ofNat (if value < 10 then value + '0'.toNat else value - 10 + 'a'.toNat)

/-- A character inside of a quoted text. Only quotes, backslashes and control characters are
escaped. -/
def escapeChar (c : Char) : List Char :=
  match c with
  | '"' => ['\\', '"']
  | '\\' => ['\\', '\\']
  | '\x08' => ['\\', 'b']
  | '\t' => ['\\', 't']
  | '\n' => ['\\', 'n']
  | '\x0c' => ['\\', 'f']
  | '\r' => ['\\', 'r']
  | c =>
    if c.toNat < 32 then
      ['\\', 'u', '0', '0', hexDigit (c.toNat / 16), hexDigit (c.toNat % 16)]
    else [c]

/-- A text in quotes. -/
def quote (value : String) : String :=
  String.ofList ('"' :: (value.toList.flatMap escapeChar ++ ['"']))

/-- A line break and the indentation of a level. -/
def newline (level : Nat) : String :=
  String.ofList ('\n' :: List.replicate (2 * level) ' ')

/-- The entries of a list or an object between brackets, one a line. -/
def enclose (level : Nat) (before after : String) (entries : List String) : String :=
  if entries.isEmpty then before ++ after
  else
    let lines := String.intercalate ("," ++ newline (level + 1)) entries
    before ++ newline (level + 1) ++ lines ++ newline level ++ after

/-- A decimal number with all digits before the point, and after it as many as are needed but at
least one. -/
def decimalText (mantissa : Int) (places : Nat) : String :=
  let sign := if mantissa < 0 then "-" else ""
  let unit := Nat.pow 10 places
  let whole := mantissa.natAbs / unit
  let digits := Nat.toDigits 10 (mantissa.natAbs % unit)
  let padded := List.replicate (places - digits.length) '0' ++ digits
  let needed := (padded.reverse.dropWhile (· = '0')).reverse
  sign ++ toString whole ++ "." ++ (if needed.isEmpty then "0" else String.ofList needed)

mutual

/-- The text of a value over several lines, inside of `level` lists and objects. -/
def prettyAt (level : Nat) : Json → String
  | null => "null"
  | bool value => if value then "true" else "false"
  | integer value => toString value
  | decimal mantissa places => decimalText mantissa places
  | text value => quote value
  | list entries => enclose level "[" "]" (prettyEntries (level + 1) entries)
  | object members => enclose level "\x7b" "\x7d" (prettyMembers (level + 1) members)

/-- The texts of the entries of a list. -/
def prettyEntries (level : Nat) : List Json → List String
  | [] => []
  | entry :: entries => prettyAt level entry :: prettyEntries level entries

/-- The texts of the members of an object. -/
def prettyMembers (level : Nat) : List (String × Json) → List String
  | [] => []
  | (key, value) :: members =>
    (quote key ++ ": " ++ prettyAt level value) :: prettyMembers level members

end

/-- The text of a value over several lines, indented by two blanks a level. -/
def pretty (value : Json) : String := prettyAt 0 value

end Json

end GlobTree
