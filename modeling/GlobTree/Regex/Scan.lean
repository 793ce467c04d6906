import GlobTree.Regex.Engine
import GlobTree.Regex.Pattern
/-!
# The small parts of a regular expression

Scanners for what stands inside a regular expression: blanks and comments, decimal counts, hex
codes, escapes, flags and group names. A scanner is given the text after the mark that announces
its part, and returns what it read with the text that is left.

With the flag `ignoreSpace`, blanks are skipped, and so is everything from `#` to the end of the
line. `skipSpace` does this where it is allowed, and nothing if the flag is not set.

Without the flag `unicode`, classes and cases are those of ASCII, and what could match a part of a
character is refused: the complement of a class of bytes has bytes that are no characters. The
flags that decide what a character or a class stands for make up a `ScanMode`.
-/

namespace GlobTree

/-- The result of a scanner: what was read, and the text that is left. -/
abbrev Scan (α : Type) := Except SyntaxError (α × List Char)

/-- Drops blanks and comments, with `comment` set inside of a comment. -/
def dropSpace (comment : Bool) : List Char → List Char
  | [] => []
  | c :: cs =>
    if comment then dropSpace (c ≠ '\n') cs
    else if isBlank c then dropSpace false cs
    else if c = '#' then dropSpace true cs
    else c :: cs

/-- Drops blanks and comments where they are ignored. -/
def skipSpace (ignoreSpace : Bool) (cs : List Char) : List Char :=
  if ignoreSpace then dropSpace false cs else cs

/-- The characters of a kind at the head of a text, at most `n` of them, with blanks between them
where those are ignored. -/
def takeRun (ignoreSpace : Bool) (kind : Char → Bool) : Nat → List Char → List Char × List Char
  | n + 1, c :: cs =>
    if kind c then
      let (run, rest) := takeRun ignoreSpace kind n (skipSpace ignoreSpace cs)
      (c :: run, rest)
    else ([], c :: cs)
  | _, cs => ([], cs)

/-! ## Counts -/

/-- The greatest count that can be written, the greatest number of 32 bits. -/
def greatestCount : Nat := 0xffffffff

/-- A decimal count. There may be blanks on both sides of it, even where they are not ignored. -/
def scanCount (ignoreSpace : Bool) (cs : List Char) : Scan Nat :=
  let cs := cs.dropWhile isBlank
  let (digits, rest) := takeRun ignoreSpace (·.isDigit) cs.length cs
  let rest := skipSpace ignoreSpace (rest.dropWhile isBlank)
  if digits.isEmpty then .error .countEmpty
  else
    let count := Nat.ofDigitChars 10 digits 0
    if count ≤ greatestCount then .ok (count, rest) else .error .countTooLarge

/-! ## Modes -/

/-- What decides how characters and classes are read. -/
structure ScanMode where
  ignoreCase : Bool := false
  ignoreSpace : Bool := false
  unicode : Bool := true
  engine : Engine := {}

namespace ScanMode

/-- The class with the other cases of its members, if case is ignored. -/
def fold (mode : ScanMode) (a : CharClass) : CharClass :=
  if mode.unicode then .foldedIf mode.ignoreCase a
  else if mode.ignoreCase then .inter (.folded a) .ascii
  else a

/-- The class or its complement, which there is among the characters of all scripts only. -/
def complIf (mode : ScanMode) (negated : Bool) (a : CharClass) : Except SyntaxError CharClass :=
  if negated && !mode.unicode then .error .characterSplit else .ok (.complIf negated a)

def digits (mode : ScanMode) : CharClass :=
  if mode.unicode then .digits else .asciiDigits

def blanks (mode : ScanMode) : CharClass :=
  if mode.unicode then .blanks else .asciiBlanks

def words (mode : ScanMode) : CharClass :=
  if mode.unicode then .words else .asciiWords

end ScanMode

/-! ## Escapes -/

/-- What an escape stands for. -/
inductive Escaped
  | literal (c : Char)
  | members (set : CharClass)
  | condition (assertion : Assertion)
  deriving Repr

/-- The value of a hex digit. -/
def hexDigit? (c : Char) : Option Nat :=
  if c.isDigit then some (c.toNat - '0'.toNat)
  else if 'a' ≤ c ∧ c ≤ 'f' then some (c.toNat - 'a'.toNat + 10)
  else if 'A' ≤ c ∧ c ≤ 'F' then some (c.toNat - 'A'.toNat + 10)
  else none

/-- The character with a code, if there is one. -/
def charOfCode? (code : Nat) : Option Char :=
  if code.isValidChar then some (Char.ofNat code) else none

/-- The character with the given code, or a refusal. -/
def literalOfCode (code : Nat) (rest : List Char) : Scan Escaped :=
  match charOfCode? code with
  | some c => .ok (.literal c, rest)
  | none => .error .hexNoCharacter

/-- A code of exactly `n + 1` more hex digits. -/
def scanHexDigits (ignoreSpace : Bool) : Nat → Nat → List Char → Scan Escaped
  | _, _, [] => .error .escapeAtEnd
  | n, code, c :: cs =>
    match hexDigit? c with
    | none => .error .hexDigitInvalid
    | some d =>
      let rest := skipSpace ignoreSpace cs
      match n with
      | 0 => literalOfCode (16 * code + d) rest
      | n + 1 => scanHexDigits ignoreSpace n (16 * code + d) rest

/-- A code in braces, after the opening brace. -/
def scanHexBraced (ignoreSpace : Bool) : Nat → Option Nat → List Char → Scan Escaped
  | _, _, [] => .error .escapeAtEnd
  | 0, _, _ :: _ => .error .textLeft
  | n + 1, code, c :: cs =>
    let rest := skipSpace ignoreSpace cs
    if c = '}' then
      match code with
      | none => .error .hexEmpty
      | some code => literalOfCode code rest
    else
      match hexDigit? c with
      | none => .error .hexDigitInvalid
      | some d => scanHexBraced ignoreSpace n (some (16 * code.getD 0 + d)) rest

/-- What was read, unless it is a character beyond ASCII and the mode has only ASCII. -/
def asciiOnly (mode : ScanMode) (error : SyntaxError) :
    Escaped × List Char → Except SyntaxError (Escaped × List Char)
  | (.literal c, rest) =>
    if !mode.unicode && 127 < c.toNat then .error error else .ok (.literal c, rest)
  | (escaped, rest) => .ok (escaped, rest)

/-- A code of `digits` hex digits, or of any number of them in braces. Without the characters of
all scripts, two digits stand for a byte. -/
def scanHex (mode : ScanMode) (digits : Nat) (cs : List Char) :
    Except SyntaxError (Escaped × List Char) :=
  match skipSpace mode.ignoreSpace cs with
  | [] => .error .escapeAtEnd
  | c :: cs =>
    if c = '\x7b' then
      let cs := skipSpace mode.ignoreSpace cs
      scanHexBraced mode.ignoreSpace cs.length none cs
    else
      let scan : Except SyntaxError (Escaped × List Char) :=
        scanHexDigits mode.ignoreSpace (digits - 1) 0 (c :: cs)
      if digits = 2 then scan >>= asciiOnly mode .characterSplit else scan

/-- The ASCII characters that stand for themselves after a backslash: all but letters, digits and
the two angle brackets. -/
def isEscapable (c : Char) : Bool :=
  c.toNat < 128 && !c.isAlphanum && c ≠ '<' && c ≠ '>'

/-- The name of a property up to its closing brace. -/
def scanPropertyName (ignoreSpace : Bool) : Nat → List Char → Scan (List Char)
  | _, [] => .error .escapeAtEnd
  | 0, _ :: _ => .error .textLeft
  | n + 1, c :: cs =>
    if c = '}' then .ok ([], cs)
    else
      (scanPropertyName ignoreSpace n (skipSpace ignoreSpace cs)).map fun (name, rest) =>
        (c :: name, rest)

/-- The name of a property: one character, or a text in braces. -/
def scanPropertyText (ignoreSpace : Bool) (cs : List Char) : Scan (List Char) :=
  match skipSpace ignoreSpace cs with
  | [] => .error .escapeAtEnd
  | c :: cs =>
    if c = '\x7b' then
      let cs := skipSpace ignoreSpace cs
      scanPropertyName ignoreSpace cs.length cs
    else if c = '\\' then .error .propertyInvalid
    else .ok ([c], skipSpace ignoreSpace cs)

/-- The class of a property with the given name. -/
def ScanMode.property (mode : ScanMode) (negated : Bool) (name : List Char) :
    Except SyntaxError Escaped :=
  if mode.unicode then
    match mode.engine.property? negated mode.ignoreCase name with
    | some set => .ok (.members set)
    | none => .error .propertyUnknown
  else .error .unicodeNeeded

/-- A property of characters, after the letter that announces it. -/
def scanProperty (mode : ScanMode) (negated : Bool) (cs : List Char) :
    Except SyntaxError (Escaped × List Char) := do
  let (name, rest) ← scanPropertyText mode.ignoreSpace cs
  return (← mode.property negated name, rest)

/-- The edges that are written with their name in braces. -/
def WordEdge.named? : String → Option WordEdge
  | "start" => some .start
  | "end" => some .stop
  | "start-half" => some .startHalf
  | "end-half" => some .stopHalf
  | _ => none

/-- The characters of the names of edges. -/
def isEdgeChar (c : Char) : Bool := c.isAlpha || c = '-'

/-- The edge with the given name, if what follows is the closing brace. -/
def closeWordEdge (name : List Char) : List Char → Scan WordEdge
  | '}' :: rest =>
    match WordEdge.named? (String.ofList name) with
    | some edge => .ok (edge, rest)
    | none => .error .wordEdgeUnknown
  | _ => .error .wordEdgeUnclosed

/-- The edge of a word, after the letter that announces it. It may have a name in braces. If what
is in braces is no name, it counts repetitions. -/
def scanWordEdge (ignoreSpace : Bool) (cs : List Char) : Scan WordEdge :=
  match cs with
  | '\x7b' :: inner =>
    let inner := skipSpace ignoreSpace inner
    if inner.head?.any isEdgeChar then
      let (name, rest) := takeRun ignoreSpace isEdgeChar inner.length inner
      closeWordEdge name rest
    else .ok (.either, cs)
  | _ => .ok (.either, cs)

/-- An escape, after the backslash. -/
def scanEscape (mode : ScanMode) : List Char → Scan Escaped
  | [] => .error .escapeAtEnd
  | c :: cs =>
    let members (negated : Bool) (set : CharClass) : Scan Escaped :=
      (mode.complIf negated set).map fun set => (.members set, cs)
    if isEscapable c then .ok (.literal c, cs)
    else if c.isDigit then .error .backreference
    else match c with
      | 'x' => scanHex mode 2 cs
      | 'u' => scanHex mode 4 cs
      | 'U' => scanHex mode 8 cs
      | 'p' => scanProperty mode false cs
      | 'P' => scanProperty mode true cs
      | 'd' => members false mode.digits
      | 'D' => members true mode.digits
      | 's' => members false mode.blanks
      | 'S' => members true mode.blanks
      | 'w' => members false mode.words
      | 'W' => members true mode.words
      | 'a' => .ok (.literal '\x07', cs)
      | 'f' => .ok (.literal '\x0c', cs)
      | 't' => .ok (.literal '\t', cs)
      | 'n' => .ok (.literal '\n', cs)
      | 'r' => .ok (.literal '\r', cs)
      | 'v' => .ok (.literal '\x0b', cs)
      | 'A' => .ok (.condition .textStart, cs)
      | 'z' => .ok (.condition .textEnd, cs)
      | 'b' =>
        (scanWordEdge mode.ignoreSpace cs).map fun (edge, rest) =>
          (.condition (.word edge mode.words), rest)
      | 'B' => .ok (.condition (.word .neither mode.words), cs)
      | '<' => .ok (.condition (.word .start mode.words), cs)
      | '>' => .ok (.condition (.word .stop mode.words), cs)
      | _ => .error .escapeUnknown

/-! ## Flags and names -/

/-- Sets one flag, named by its letter. -/
def PatternFlags.set? (flags : PatternFlags) (letter : Char) (value : Bool) :
    Option PatternFlags :=
  match letter with
  | 'i' => some { flags with ignoreCase := value }
  | 'm' => some { flags with multiLine := value }
  | 's' => some { flags with dotMatchesNewline := value }
  | 'U' => some { flags with swapGreed := value }
  | 'x' => some { flags with ignoreSpace := value }
  | 'u' => some { flags with unicode := value }
  | 'R' => some { flags with returnEndsLine := value }
  | _ => none

/-- Flag letters up to `:` or `)`. A minus sign turns the letters after it off. Every letter
stands once, and so does the sign, with a letter after it. The result is the flags, whether any
sign was read, and the text from the end mark on. -/
def scanFlags (seen : List Char) (flags : PatternFlags) :
    List Char → Scan (PatternFlags × Bool)
  | [] => .error .flagsUnclosed
  | c :: cs =>
    if c = ':' ∨ c = ')' then
      if seen.head? = some '-' then .error .flagNegationDangling
      else .ok ((flags, !seen.isEmpty), c :: cs)
    else if c = '-' then
      if '-' ∈ seen then .error .flagNegationRepeated else scanFlags (c :: seen) flags cs
    else
      match flags.set? c ('-' ∉ seen) with
      | none => .error .flagUnknown
      | some flags => if c ∈ seen then .error .flagRepeated else scanFlags (c :: seen) flags cs

/-- The characters of a group name. -/
def isNameChar (first : Bool) (c : Char) : Bool :=
  c = '_' || isLetter c || (!first && (c = '.' || c = '[' || c = ']' || isNumber c))

/-- A group name up to its closing angle bracket. -/
def scanName (first : Bool) : List Char → Scan (List Char)
  | [] => .error .groupNameUnclosed
  | c :: cs =>
    if c = '>' then if first then .error .groupNameEmpty else .ok ([], cs)
    else if isNameChar first c then
      (scanName false cs).map fun (name, rest) => (c :: name, rest)
    else .error .groupNameInvalid

end GlobTree
