import Pipework.Text.Decoding
import Pipework.Userland.Pattern
import Pipework.Userland.Streams

/-!
# Searching lines

The tool that passes on the lines of its input in which a pattern matches.

## Main definitions

* `TextLine` — the characters of a line
* `grep` — the tool
-/

namespace Pipework.Userland

open Text (Utf8.encode)

/-- The characters of a line, with the way back to bytes. -/
structure TextLine where
  text : Array Char
  /-- Every character stands for one byte. -/
  raw : Bool

namespace TextLine

/-- The characters of bytes: their text, or one character for each byte if they are none. -/
def ofBytes (bs : Bytes) : TextLine :=
  match Text.decode .utf8 .strict bs with
  | .ok s => { text := s.toList.toArray, raw := false }
  | .error _ => { text := (bs.map fun b => Char.ofNat b.toNat).toArray, raw := true }

/-- The bytes of a part of the line. -/
def bytes (l : TextLine) (start stop : Nat) : Bytes :=
  let cs := (l.text.extract start stop).toList
  if l.raw then cs.map fun c => UInt8.ofNat c.toNat else Utf8.encode (.ofList cs)

end TextLine

/-- What is asked of a search. -/
structure Search where
  pattern : Pattern
  ignoreCase : Bool
  invert : Bool
  onlyMatching : Bool
  wholeLine : Bool
  count : Bool
  numbers : Bool
  quiet : Bool

namespace Search

/-- The parts of a line that match, or none if the line does not count. -/
def matchesOf (s : Search) (line : TextLine) : Option (List (Nat × Nat)) :=
  let text := if s.ignoreCase then line.text.map Char.toLower else line.text
  let found :=
    if s.wholeLine then (s.pattern.ends text 0).contains text.size
    else (s.pattern.firstMatch? text 0).isSome
  if found == s.invert then none
  else if s.invert then some []
  else some (s.pattern.matchesFrom text (text.size + 1) 0)

/-- What is passed on of the numbered lines that count. -/
def output (s : Search) (start : String)
    (lines : List (Nat × TextLine × List (Nat × Nat))) : Bytes :=
  let label (n : Nat) : Bytes :=
    Utf8.encode (start ++ if s.numbers then toString (n + 1) ++ ":" else "")
  if s.quiet then []
  else if s.count then Utf8.encode (start ++ toString lines.length ++ "\n")
  else
    lines.flatMap fun (n, line, places) =>
      if s.onlyMatching then
        places.flatMap fun (i, j) => label n ++ line.bytes i j ++ [newline]
      else label n ++ line.bytes 0 line.text.size ++ [newline]

end Search

/-- Passes on the lines in which a pattern matches. The code tells whether there were any. -/
def grep : Tool := fun args input =>
  let (options, operands) := splitOptions (args.filter (· != "-e"))
  match operands with
  | [] =>
    .complaint 2 ("Usage: grep [OPTION]... PATTERNS [FILE]...\n" ++
      "Try 'grep --help' for more information.")
  | description :: files =>
    let ignoreCase := options.contains 'i'
    let description :=
      if ignoreCase then .ofList (description.toList.map Char.toLower) else description
    let pattern :=
      if options.contains 'F' then .ok (Pattern.literally description)
      else Pattern.read (options.contains 'E') description
    match pattern with
    | .error message => .complaint 2 ("grep: " ++ message)
    | .ok pattern =>
      let s : Search := {
        pattern, ignoreCase
        invert := options.contains 'v'
        onlyMatching := options.contains 'o'
        wholeLine := options.contains 'x'
        count := options.contains 'c'
        numbers := options.contains 'n'
        quiet := options.contains 'q' }
      let (contents, y) := readOperands (plainComplaint "grep" 2) none files input
      let results := contents.map fun (name, bs) =>
        let lines := (splitAtNewlines bs).map TextLine.ofBytes
        (if files.length > 1 then name ++ ":" else "",
          lines.zipIdx.filterMap fun (line, n) => (s.matchesOf line).map fun m => (n, line, m))
      let found := results.any fun (_, lines) => !lines.isEmpty
      { y with
        stdout := results.flatMap fun (start, lines) => s.output start lines
        code := if y.code != 0 then y.code else if found then 0 else 1 }

end Pipework.Userland
