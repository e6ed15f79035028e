import Pipework.Text.Printable

/-!
# Text as a literal

The literal of a text shows it on one line, with nothing hidden: between quotes, with
escapes for the quote, the backslash and every unprintable character.

## Main definitions

* `hexDigits` — a number in lower-case hexadecimal, of a given width at least
* `literalQuote` — the quote that a text is put between
* `literal` — the text between quotes, escaped
-/

namespace Pipework.Text

/-- A number in lower-case hexadecimal digits, zeros in front up to the given width. -/
def hexDigits (width n : Nat) : String :=
  let digits := Nat.toDigits 16 n
  .ofList (List.replicate (width - digits.length) '0' ++ digits)

/-- An unprintable character is escaped with the shortest of three widths that holds it. -/
def escapeCode (n : Nat) : String :=
  if n < 0x100 then "\\x" ++ hexDigits 2 n
  else if n < 0x10000 then "\\u" ++ hexDigits 4 n
  else "\\U" ++ hexDigits 8 n

/-- The single quote, except for a text that holds it and no double quote. -/
def literalQuote (cs : List Char) : Char :=
  if cs.contains '\'' && !cs.contains '"' then '"' else '\''

/-- One character of a literal that stands between the given quotes. -/
def literalChar (quote c : Char) : String :=
  if c == quote || c == '\\' then "\\" ++ c.toString
  else if c == '\n' then "\\n"
  else if c == '\r' then "\\r"
  else if c == '\t' then "\\t"
  else if isPrintable c then c.toString
  else escapeCode c.toNat

/-- The text between quotes, escaped. -/
def literal (s : String) : String :=
  let cs := s.toList
  let quote := literalQuote cs
  quote.toString ++ String.join (cs.map (literalChar quote)) ++ quote.toString

end Pipework.Text
