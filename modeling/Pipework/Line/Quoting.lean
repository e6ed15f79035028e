/-!
# Quoting

Any text can be written on a line so that it is read back as one word: a text of safe
characters as it stands, every other one in single quotes. A single quote cannot stand
inside single quotes, so it is written by closing them, adding a quote in double quotes,
and opening them again.

## Main definitions

* `isSafe` — the character may stand outside quotes
* `quote` — a text as one word of a line
* `joinWords` — words as they stand on a line, one space between two
-/

namespace Pipework.Line

/-- A safe character means itself wherever it stands: an ASCII letter or digit, or one of
ten marks. -/
def isSafe (c : Char) : Bool :=
  c.isAlphanum || "_@%+=:,-./".toList.contains c

/-- The body of a word in single quotes: the quotes are closed around each single quote. -/
def quoteBody (cs : List Char) : List Char :=
  cs.flatMap fun c => if c == '\'' then "'\"'\"'".toList else [c]

@[simp] theorem quoteBody_nil : quoteBody [] = [] := rfl

/-- The characters of a quoted text. -/
def quoteChars (cs : List Char) : List Char :=
  if cs.isEmpty then "''".toList
  else if cs.all isSafe then cs
  else '\'' :: quoteBody cs ++ ['\'']

/-- A text as one word of a line. -/
def quote (s : String) : String := .ofList (quoteChars s.toList)

/-- Words as they stand on a line. -/
def joinWords (words : List String) : String := " ".intercalate (words.map quote)

end Pipework.Line
