import Pipework.Fault
import Pipework.Text.Decoding

/-!
# Lines of input

Input is read in blocks and decoded as UTF-8; a line ends with a line feed, a carriage
return, or both in this order. A block that cannot be decoded makes reading fail as soon as
the lines before it are used up, and so does an input that ends inside a character.

## Main definitions

* `splitLines` — the lines of a text
* `Input` — the lines that can be read, and the fault that comes after them
* `Input.ofBytes` — the input that bytes make
-/

namespace Pipework.Cli

/-- Cuts a text into lines; `line` holds the characters of the line so far, newest first. The
last item is what follows the last line end. -/
def splitLinesFrom (line : List Char) : List Char → List String
  | [] => [.ofList line.reverse]
  | '\r' :: '\n' :: cs => .ofList line.reverse :: splitLinesFrom [] cs
  | '\r' :: cs => .ofList line.reverse :: splitLinesFrom [] cs
  | '\n' :: cs => .ofList line.reverse :: splitLinesFrom [] cs
  | c :: cs => splitLinesFrom (c :: line) cs

/-- The lines of a text. A line end at the end of the text begins no further line. -/
def splitLines (cs : List Char) : List String :=
  let parts := splitLinesFrom [] cs
  if parts.getLast? == some "" then parts.dropLast else parts

/-- The lines of a text that more may follow: the last one counts only if it is known to have
ended. -/
def endedLines (cs : List Char) : List String :=
  (splitLinesFrom [] (if cs.getLast? == some '\r' then cs.dropLast else cs)).dropLast

/-- The lines that can be read, and the fault that comes in place of the end. -/
structure Input where
  lines : List String
  failure : Option Fault
  deriving Repr, DecidableEq

/-- How many bytes are read at a time. -/
def blockSize : Nat := 8192

/-- Decodes as much of the bytes as is complete: the text, and the bytes of a character that has
only begun. -/
def decodeComplete (bytes : Bytes) : Except Text.DecodeError (String × Bytes) :=
  match Text.decode .utf8 .strict bytes with
  | .ok s => .ok (s, [])
  | .error (.illFormed codec .ending first start further) =>
    match Text.decode .utf8 .strict (bytes.take start) with
    | .ok s => .ok (s, bytes.drop start)
    | .error _ => .error (.illFormed codec .ending first start further)
  | .error e => .error e

/-- Goes on reading blocks after the text so far, with the bytes of a character that has begun. -/
def Input.readBlocks (text : List Char) (pending : Bytes) : Nat → Bytes → Input
  | 0, _ => { lines := endedLines text, failure := none }
  | fuel + 1, bytes =>
    if bytes.isEmpty then
      match Text.decode .utf8 .strict pending with
      | .ok _ => { lines := splitLines text, failure := none }
      | .error e => { lines := endedLines text, failure := some e.fault }
    else
      match decodeComplete (pending ++ bytes.take blockSize) with
      | .ok (more, pending) =>
        readBlocks (text ++ more.toList) pending fuel (bytes.drop blockSize)
      | .error e => { lines := endedLines text, failure := some e.fault }

/-- The input that bytes make. -/
def Input.ofBytes (bytes : Bytes) : Input := .readBlocks [] [] (bytes.length + 1) bytes

end Pipework.Cli
