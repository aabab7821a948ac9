/-!
# Choices

A value that users choose by a word. It has one name that is listed to them, and may have others
that are taken for it as well. The size of letters counts or does not, as the reader of the word
wants it; where it does not, that is so for the letters of ASCII only.

* `Choice.accepts` compares a word with each name.
* `Choice.find?` is the first value that has a name which the word is.
-/

namespace LogOrder

/-- The names of a value. -/
structure Choice where
  /-- The name that is listed. -/
  name : String
  /-- Other names for the same value. -/
  aliases : List String := []
deriving DecidableEq, Repr

namespace Choice

/-- All names. -/
def names (c : Choice) : List String := c.name :: c.aliases

/-- Whether two words are the same. With `ignoreCase`, the two sizes of an ASCII letter are. -/
def sameWord (ignoreCase : Bool) (s t : String) : Bool :=
  if ignoreCase then s.toList.isEqv t.toList fun c d => c.toLower == d.toLower else s == t

/-- Whether a word is one of the names. -/
def accepts (c : Choice) (ignoreCase : Bool) (s : String) : Bool :=
  c.names.any (sameWord ignoreCase s)

/-- The first value of a list that has a name which the word is. -/
def find? {α : Type} (choice : α → Choice) (all : List α) (ignoreCase : Bool) (s : String) :
    Option α :=
  all.find? fun a => (choice a).accepts ignoreCase s

end Choice

end LogOrder
