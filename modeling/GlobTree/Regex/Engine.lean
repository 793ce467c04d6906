import GlobTree.Regex.CharClass
/-!
# What comes with a reader of regular expressions

Three things about regular expressions are not a matter of how they are written. The properties of
characters that `\p` can name fill tables that change from one version of Unicode to the next. And
there are bounds: on how deep an expression may be nested, so that those who work on it may recur,
and on the size of what it is compiled to, so that no short text can use up the memory.

An `Engine` has all of them. What is said of rules holds for every engine, unless the one in use by
default is meant. It has no tables of properties, and no bound on sizes.
-/

namespace GlobTree

/-- The tables and bounds that regular expressions are read with. -/
structure Engine where
  /-- The class of `\p`, or of `\P` if negated, with the name of a property, if there is such a
  property. With the cases of its members if case is ignored. -/
  property? : (negated ignoreCase : Bool) → (name : List Char) → Option CharClass :=
    fun _ _ _ => none
  /-- How deep an expression may be nested. -/
  nesting : Nat := 250
  /-- Whether what an expression with the given text is compiled to is small enough. -/
  fits : (text : List Char) → Bool := fun _ => true

instance : Inhabited Engine := ⟨{}⟩

end GlobTree
