import Pipework.Line.Flaw
import Pipework.Text.Blank

/-!
# Lexemes of a line

A line is read character by character into lexemes. Each lexeme is what one or two
characters of the line mean: a character of a word, a quote that opens or closes, a blank,
or a pipe. Inside quotes blanks and pipes are characters of a word; a backslash makes the
next character one, except inside single quotes, where it is itself one. A backslash with
nothing after it stands for itself.

## Main definitions

* `Atom` — what a lexeme means
* `Lexeme` — an atom with the characters that it was read from
* `Reader` — how far a line was read
* `Reader.read` — reading one more character
* `Reader.finish` — the lexemes, once the line has ended
* `lexemes` — the lexemes of a line
-/

namespace Pipework.Line

/-- What a part of a line means. -/
inductive Atom where
  /-- A character of a word. -/
  | char (c : Char)
  /-- A quote that opens or closes: it makes a word, but adds nothing to it. -/
  | mark
  /-- A blank outside quotes, which ends a word. -/
  | blank
  /-- A pipe outside quotes, which ends a segment. -/
  | pipe
  deriving Repr, DecidableEq

/-- An atom with the characters of the line that it was read from. -/
structure Lexeme where
  atom : Atom
  source : List Char
  deriving Repr, DecidableEq

/-- Single and double quotes group the characters between them. -/
def isMark (c : Char) : Bool := c == '\'' || c == '"'

/-- How far a line was read: the number of characters, the quote that is open with its
position, whether a backslash waits for its character, and the lexemes, newest first. -/
structure Reader where
  position : Nat := 0
  quote : Option (Char × Nat) := none
  escaping : Bool := false
  lexemes : List Lexeme := []
  deriving Repr, DecidableEq

namespace Reader

/-- The lexeme that a character makes on its own, outside quotes and not after a backslash. -/
def bareAtom (c : Char) : Atom :=
  if isMark c then .mark
  else if Text.isBlank c then .blank
  else if c == '|' then .pipe
  else .char c

/-- Reads one more character. -/
def read (r : Reader) (c : Char) : Reader :=
  if r.escaping then
    { r with
      position := r.position + 1, escaping := false
      lexemes := ⟨.char c, ['\\', c]⟩ :: r.lexemes }
  else
    match r.quote with
    | none =>
      if c == '\\' then { r with position := r.position + 1, escaping := true }
      else
        { r with
          position := r.position + 1
          quote := if isMark c then some (c, r.position) else none
          lexemes := ⟨bareAtom c, [c]⟩ :: r.lexemes }
    | some (mark, opened) =>
      if c == '\\' && mark != '\'' then { r with position := r.position + 1, escaping := true }
      else if c == mark then
        { r with
          position := r.position + 1, quote := none
          lexemes := ⟨.mark, [c]⟩ :: r.lexemes }
      else
        { r with
          position := r.position + 1, quote := some (mark, opened)
          lexemes := ⟨.char c, [c]⟩ :: r.lexemes }

/-- Reads further characters. -/
def readAll (r : Reader) (cs : List Char) : Reader := cs.foldl read r

/-- The lexemes that were read, newest first; a backslash that still waits stands for itself. -/
def taken (r : Reader) : List Lexeme :=
  if r.escaping then ⟨.char '\\', ['\\']⟩ :: r.lexemes else r.lexemes

/-- The lexemes of a line that ends here, which must not be inside a quote. -/
def finish (r : Reader) : Except Flaw (List Lexeme) :=
  match r.quote with
  | none => .ok r.taken.reverse
  | some (mark, opened) => .error (.openQuote mark (r.lexemes.countP (·.atom == .pipe)) opened)

@[simp] theorem readAll_nil (r : Reader) : r.readAll [] = r := rfl

@[simp] theorem readAll_cons (r : Reader) (c : Char) (cs : List Char) :
    r.readAll (c :: cs) = (r.read c).readAll cs := rfl

/-- Reading a line in two parts is reading it whole. -/
theorem readAll_append (r : Reader) (xs ys : List Char) :
    r.readAll (xs ++ ys) = (r.readAll xs).readAll ys := List.foldl_append

end Reader

/-- The lexemes of a line. -/
def lexemes (cs : List Char) : Except Flaw (List Lexeme) := ({} : Reader).readAll cs |>.finish

end Pipework.Line
