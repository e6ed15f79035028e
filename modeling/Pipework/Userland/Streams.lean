import Pipework.Userland.Files
import Pipework.Userland.Tool

/-!
# Tools that pass on what they read

## Main definitions

* `cat`, `head`, `tail` — all, the first or the last of the input
* `wc` — counting lines, words and bytes
* `sort`, `uniq` — ordering lines, and leaving out repeated ones
* `seq` — counting up
-/

namespace Pipework.Userland

open Text (Utf8.encode)

/-- Options and operands of a command line whose options are single letters. -/
def splitOptions (args : List String) : List Char × List String :=
  let isOption (arg : String) : Bool :=
    arg != "--" && arg.length > 1 && arg.toList.head? == some '-'
  let rest := args.dropWhile isOption
  ((args.takeWhile isOption).flatMap fun arg => arg.toList.drop 1,
    if rest.head? == some "--" then rest.tail else rest)

/-- The input of a tool that is given files: what the files hold, one after the other, with a
complaint for each that was not read. A dash, or no file at all, is the standard input. -/
def readOperands (complain : String → FileError → Yield) (limit : Option Nat)
    (operands : List String) (input : Bytes) : List (String × Bytes) × Yield :=
  match operands with
  | [] => ([("-", input)], {})
  | operands =>
    operands.foldl
      (fun (contents, y) operand =>
        if operand == "-" then (contents ++ [(operand, input)], y)
        else
          match readFile operand limit with
          | .ok bs => (contents ++ [(operand, bs)], y)
          | .error e => (contents, y.followedBy (complain operand e)))
      ([], {})

/-- A complaint about a file that was not read. -/
def plainComplaint (tool : String) (code : Int) (operand : String) (e : FileError) : Yield :=
  .complaint code (tool ++ ": " ++ operand ++ ": " ++ e.message)

/-- Passes on what it reads. Behind a file without end it reads nothing. -/
def cat : Tool := fun args input =>
  let (_, operands) := splitOptions args
  let isEndless (operand : String) : Bool := find [] operand == .zero
  let finite := operands.takeWhile (!isEndless ·)
  let (contents, y) :=
    if finite.isEmpty && operands.any isEndless then ([], {})
    else readOperands (plainComplaint "cat" 1) none finite input
  let bs := contents.flatMap (·.2)
  if operands.any isEndless then
    { Yield.endless (bs ++ List.replicate endlessLength 0) with stderr := y.stderr }
  else { y with stdout := bs }

/-- How much of its input a tool passes on: a number of bytes or of lines. -/
inductive Amount where
  | bytes (n : Nat)
  | lines (n : Nat)
  deriving Repr, DecidableEq

/-- Reads how much is asked for; the rest of the words are operands. -/
def readAmount (tool : String) : Amount → List String → Except String (Amount × List String)
  | amount, [] => .ok (amount, [])
  | amount, arg :: rest =>
    match arg.toList with
    | ['-', 'c'] | ['-', 'n'] =>
      match rest with
      | [] =>
        .error ("option requires an argument -- '" ++ (arg.drop 1).toString ++ "'\n" ++
          "Try '" ++ tool ++ " --help' for more information.")
      | value :: rest =>
        match number? value.toList with
        | none =>
          .error ("invalid number of " ++ (if arg == "-c" then "bytes" else "lines") ++ ": " ++
            shown value)
        | some n => readAmount tool (if arg == "-c" then .bytes n else .lines n) rest
    | '-' :: 'c' :: cs =>
      match number? cs with
      | none => .error ("invalid number of bytes: " ++ shown (.ofList cs))
      | some n => readAmount tool (.bytes n) rest
    | '-' :: 'n' :: cs =>
      match number? cs with
      | none => .error ("invalid number of lines: " ++ shown (.ofList cs))
      | some n => readAmount tool (.lines n) rest
    | '-' :: c :: cs =>
      match number? (c :: cs) with
      | none => .ok (amount, if arg == "--" then rest else arg :: rest)
      | some n => readAmount tool (.lines n) rest
    | _ => .ok (amount, arg :: rest)

/-- The bytes up to and with a number of line feeds. -/
def takeLines (n : Nat) (bs : Bytes) : Bytes :=
  (bs.foldl
    (fun (done, left) b =>
      if left == 0 then (done, 0) else (b :: done, if b == newline then left - 1 else left))
    (([] : Bytes), n)).1.reverse

/-- The bytes after all but a number of line feeds. -/
def takeLastLines (n : Nat) (bs : Bytes) : Bytes :=
  let count := (splitAtNewlines bs).length
  bs.drop (takeLines (count - n) bs).length

/-- Passes on the first of what it reads. -/
def head : Tool := fun args input =>
  match readAmount "head" (.lines 10) args with
  | .error message => .complaint 1 ("head: " ++ message)
  | .ok (amount, operands) =>
    let limit := match amount with
      | .bytes n => some n
      | .lines _ => none
    let complain (operand : String) (e : FileError) : Yield :=
      .complaint 1 ("head: cannot open '" ++ operand ++ "' for reading: " ++ e.message)
    let (contents, y) := readOperands complain limit operands input
    let cut (bs : Bytes) : Bytes := match amount with
      | .bytes n => bs.take n
      | .lines n => takeLines n bs
    { y with stdout := contents.flatMap fun (_, bs) => cut bs }

/-- Passes on the last of what it reads. -/
def tail : Tool := fun args input =>
  match readAmount "tail" (.lines 10) args with
  | .error message => .complaint 1 ("tail: " ++ message)
  | .ok (amount, operands) =>
    let complain (operand : String) (e : FileError) : Yield :=
      .complaint 1 ("tail: cannot open '" ++ operand ++ "' for reading: " ++ e.message)
    let (contents, y) := readOperands complain none operands input
    let cut (bs : Bytes) : Bytes := match amount with
      | .bytes n => bs.drop (bs.length - n)
      | .lines n => takeLastLines n bs
    { y with stdout := contents.flatMap fun (_, bs) => cut bs }

/-- The byte separates words. -/
def isSpaceByte (b : UInt8) : Bool := b == 32 || (9 ≤ b && b ≤ 13)

/-- The number of words. -/
def countWords (bs : Bytes) : Nat :=
  (bs.foldl
    (fun (count, inside) b =>
      if isSpaceByte b then (count, false) else (if inside then count else count + 1, true))
    (0, false)).1

/-- The counts that are asked for, in the order of lines, words, characters and bytes. -/
def counts (options : List Char) (bs : Bytes) : List Nat :=
  let asked (c : Char) : Bool :=
    if options.isEmpty then c != 'm' else options.contains c
  let isContinuation (b : UInt8) : Bool := 128 ≤ b && b < 192
  (if asked 'l' then [bs.count newline] else []) ++ (if asked 'w' then [countWords bs] else []) ++
    (if asked 'm' then [bs.countP (!isContinuation ·)] else []) ++
    (if asked 'c' then [bs.length] else [])

/-- Counts lines, words and bytes. Several counts stand in columns. -/
def wc : Tool := fun args input =>
  let (options, operands) := splitOptions args
  let (contents, y) := readOperands (plainComplaint "wc" 1) none operands input
  let rows := contents.map fun (name, bs) => (name, counts options bs)
  let total := rows.foldl (fun sums (_, ns) =>
    if sums.isEmpty then ns else List.zipWith (· + ·) sums ns) []
  let rows := if operands.length > 1 then rows ++ [("total", total)] else rows
  let width := if (total.length ≤ 1 && operands.length ≤ 1) then 1 else 7
  let column (n : Nat) : String :=
    let digits := toString n
    String.ofList (List.replicate (width - digits.length) ' ') ++ digits
  let row (name : String) (ns : List Nat) : String :=
    " ".intercalate (ns.map column) ++ (if operands.isEmpty then "" else " " ++ name) ++ "\n"
  { y with stdout := Utf8.encode (String.join (rows.map fun (name, ns) => row name ns)) }

/-- The number that a line begins with, for ordering by number. -/
def leadingNumber (line : Bytes) : Int :=
  let cs := (line.dropWhile fun b => b == 32 || b == 9).map fun b => Char.ofNat b.toNat
  match cs with
  | '-' :: cs => -((number? (cs.takeWhile Char.isDigit)).getD 0 : Nat)
  | cs => ((number? (cs.takeWhile Char.isDigit)).getD 0 : Nat)

/-- One line comes before another, or is the same. -/
def bytesLe : Bytes → Bytes → Bool
  | [], _ => true
  | _ :: _, [] => false
  | x :: xs, y :: ys => if x == y then bytesLe xs ys else x < y

/-- Neighbouring lines that are equal, together: how many, and which. -/
def groupLines (lines : List Bytes) : List (Nat × Bytes) :=
  lines.foldr
    (fun line groups =>
      match groups with
      | (n, other) :: rest => if line == other then (n + 1, line) :: rest else (1, line) :: groups
      | [] => [(1, line)])
    []

/-- Orders lines. -/
def sort : Tool := fun args input =>
  let (options, operands) := splitOptions args
  let complain (operand : String) (e : FileError) : Yield :=
    .complaint 2 ("sort: cannot read: " ++ operand ++ ": " ++ e.message)
  let (contents, y) := readOperands complain none operands input
  if y.code != 0 then y
  else
    let lines := contents.flatMap fun (_, bs) => splitAtNewlines bs
    let reverse := options.contains 'r'
    let byNumber := options.contains 'n'
    let le (x y : Bytes) : Bool :=
      let ascending (x y : Bytes) : Bool :=
        if byNumber && leadingNumber x != leadingNumber y then leadingNumber x ≤ leadingNumber y
        else bytesLe x y
      if reverse then ascending y x else ascending x y
    let sorted := lines.mergeSort le
    let kept := if options.contains 'u' then (groupLines sorted).map (·.2) else sorted
    { y with stdout := joinWithNewlines kept }

/-- Leaves one of several equal lines that follow one another. -/
def uniq : Tool := fun args input =>
  let (options, operands) := splitOptions args
  let (contents, y) := readOperands (plainComplaint "uniq" 1) none (operands.take 1) input
  let groups := groupLines (contents.flatMap fun (_, bs) => splitAtNewlines bs)
  let chosen := groups.filter fun (n, _) =>
    !(options.contains 'd' && n == 1) && !(options.contains 'u' && n != 1)
  let line (n : Nat) (bs : Bytes) : Bytes :=
    if options.contains 'c' then
      let digits := toString n
      Utf8.encode (String.ofList (List.replicate (7 - digits.length) ' ') ++ digits ++ " ") ++ bs
    else bs
  { y with stdout := joinWithNewlines (chosen.map fun (n, bs) => line n bs) }

/-- Counts from one number up to another. -/
def seq : Tool := fun args _ =>
  let numbers := args.map fun arg => (number? arg.toList).getD 0
  let (first, step, last) :=
    match numbers with
    | [last] => (1, 1, last)
    | [first, last] => (first, 1, last)
    | first :: step :: last :: _ => (first, step, last)
    | [] => (1, 1, 0)
  let count := if step == 0 || last < first then 0 else (last - first) / step + 1
  .ofOutput (joinWithNewlines ((List.range count).map fun i =>
    Utf8.encode (toString (first + i * step))))

end Pipework.Userland
