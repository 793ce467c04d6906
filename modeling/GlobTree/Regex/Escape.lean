import GlobTree.Regex.Pattern
/-!
# Texts as regular expressions

`escapeText t` is a regular expression that matches the text `t` and nothing else: every character
that has a meaning of its own gets a backslash.
-/

namespace GlobTree

/-- The characters that mean something in a regular expression. -/
def metaCharacters : List Char :=
  ['\\', '.', '+', '*', '?', '(', ')', '|', '[', ']', '\x7b', '\x7d', '^', '$', '#', '&', '-',
    '~']

/-- A text with a backslash before each of the given characters. -/
def backslashed (special : List Char) (text : List Char) : List Char :=
  text.flatMap fun c => if c ∈ special then ['\\', c] else [c]

/-- The regular expression of a text. -/
def escapeText (text : List Char) : List Char :=
  backslashed metaCharacters text

end GlobTree
