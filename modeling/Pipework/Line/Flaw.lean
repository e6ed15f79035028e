/-!
# What can be wrong with a line

A flaw says why a line is not a pipeline and where. Segments are the parts of the line
between pipes, counted from zero; positions count characters from zero.

## Main definitions

* `Line.Flaw` — the causes
* `Line.Flaw.segment`, `Line.Flaw.position?` — the place that a flaw points at
* `Line.Flaw.summary` — what is wrong, in words
-/

namespace Pipework.Line

/-- Why a line is not a pipeline. -/
inductive Flaw where
  /-- The line ends inside the quote that was opened at the position. -/
  | openQuote (mark : Char) (segment position : Nat)
  /-- A pipe stands at the position, where a single command was asked for. -/
  | strayPipe (position : Nat)
  /-- The segment holds no word, and the line has no other. -/
  | noCommand (segment : Nat)
  /-- The first word of the segment is empty. -/
  | emptyProgram (segment : Nat)
  /-- The segment between two pipes, or beside one, holds no word. -/
  | emptySegment (segment position : Nat)
  deriving Repr, DecidableEq

namespace Flaw

/-- The segment that is flawed. -/
def segment : Flaw → Nat
  | openQuote _ segment _ => segment
  | strayPipe _ => 0
  | noCommand segment => segment
  | emptyProgram segment => segment
  | emptySegment segment _ => segment

/-- The character that is flawed, if there is a single one. -/
def position? : Flaw → Option Nat
  | openQuote _ _ position => some position
  | strayPipe position => some position
  | noCommand _ => none
  | emptyProgram _ => none
  | emptySegment _ position => some position

/-- What is wrong, in words. -/
def summary : Flaw → String
  | openQuote mark _ _ => "Unmatched " ++ mark.toString ++ " quote"
  | strayPipe _ => "Unexpected '|' in a single command"
  | noCommand _ => "Missing command"
  | emptyProgram _ => "Empty program name"
  | emptySegment _ _ => "Missing command before pipe or end of line"

end Flaw

end Pipework.Line
