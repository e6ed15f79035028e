import Pipework.Text.Utf8

/-!
# Tools

A tool is a small program: from its arguments and the bytes on its standard input it makes
what it writes and the code that it ends with.

## Main definitions

* `Yield` — what a tool writes, and its return code
* `Tool` — arguments and input to a yield
* `splitAtNewlines`, `joinWithNewlines` — bytes as lines
* `shown` — a word within a complaint
-/

namespace Pipework.Userland

open Text (Utf8.encode)

/-- What a tool writes, and the code that it ends with; a negative code is the signal that
killed it. -/
structure Yield where
  stdout : Bytes := []
  stderr : Bytes := []
  code : Int := 0
  deriving Repr, DecidableEq

namespace Yield

/-- Output, and success. -/
def ofOutput (bs : Bytes) : Yield := { stdout := bs }

/-- One line of complaint, and a code. -/
def complaint (code : Int) (message : String) : Yield :=
  { stderr := Utf8.encode (message ++ "\n"), code }

/-- Output without end, of which these are the first bytes. It never ends by itself: once nobody
reads any more, the signal for that kills the tool. -/
def endless (bs : Bytes) : Yield := { stdout := bs, code := -13 }

/-- One yield after the other; the code is the later one, if it is not zero. -/
def followedBy (x y : Yield) : Yield where
  stdout := x.stdout ++ y.stdout
  stderr := x.stderr ++ y.stderr
  code := if y.code == 0 then x.code else y.code

end Yield

/-- How much is kept of output without end: more than any reader takes before it stops. -/
def endlessLength : Nat := 1048576

/-- A small program. -/
abbrev Tool := List String → Bytes → Yield

/-- The byte of a line feed. -/
def newline : UInt8 := 10

/-- Bytes cut at line feeds: the parts, the last one being what follows the last line feed. -/
def cutAtNewlines (bs : Bytes) : List Bytes :=
  bs.foldr
    (fun b parts =>
      if b == newline then [] :: parts
      else
        match parts with
        | [] => [[b]]
        | part :: rest => (b :: part) :: rest)
    [[]]

/-- The lines of bytes. A line feed at the end begins no further line. -/
def splitAtNewlines (bs : Bytes) : List Bytes :=
  let parts := cutAtNewlines bs
  if parts.getLast? == some [] then parts.dropLast else parts

/-- Lines as bytes, each with its line feed. -/
def joinWithNewlines (lines : List Bytes) : Bytes := lines.flatMap (· ++ [newline])

/-- A word of the command line as complaints show it. -/
def shown (word : String) : String := "‘" ++ word ++ "’"

/-- The number that decimal digits stand for. -/
def number? (cs : List Char) : Option Nat :=
  if cs.isEmpty || !cs.all Char.isDigit then none
  else some (cs.foldl (fun n c => n * 10 + (c.toNat - '0'.toNat)) 0)

end Pipework.Userland
