import Pipework.Userland.Tool

/-!
# Tools that need only their arguments

## Main definitions

* `Escape` — what a backslash sequence stands for
* `echo`, `shellEcho` — the arguments on one line
* `FormatFlaw` — what is wrong with a format or its arguments
* `printFormat`, `printf` — the arguments in a format
* `yes` — the arguments without end
* `sleep` — passing time
-/

namespace Pipework.Userland

open Text (Utf8.encode)

/-- The value of an octal digit. -/
def octalDigit? (c : Char) : Option Nat :=
  if '0' ≤ c && c ≤ '7' then some (c.toNat - '0'.toNat) else none

/-- The value of a hexadecimal digit. -/
def hexDigit? (c : Char) : Option Nat :=
  if c.isDigit then some (c.toNat - '0'.toNat)
  else if 'a' ≤ c && c ≤ 'f' then some (c.toNat - 'a'.toNat + 10)
  else if 'A' ≤ c && c ≤ 'F' then some (c.toNat - 'A'.toNat + 10)
  else none

/-- Reads at most so many digits: their value, how many there were, and the rest. -/
def readDigits (digit? : Char → Option Nat) (base : Nat) :
    Nat → List Char → Nat × Nat × List Char
  | 0, cs => (0, 0, cs)
  | _, [] => (0, 0, [])
  | most + 1, c :: cs =>
    match digit? c with
    | none => (0, 0, c :: cs)
    | some d =>
      let (value, count, rest) := readDigits digit? base most cs
      (d * base ^ count + value, count + 1, rest)

/-- What a backslash sequence stands for: bytes, or the end of all output. -/
inductive Escape where
  | bytes (bs : Bytes)
  | stop
  deriving Repr, DecidableEq

/-- The letters that stand for control characters after a backslash. -/
def controlLetters : List (Char × UInt8) :=
  [('a', 7), ('b', 8), ('e', 27), ('f', 12), ('n', 10), ('r', 13), ('t', 9), ('v', 11)]

/-- Reads what follows a backslash. With `zeroFirst` an octal number may have a zero in front of
its three digits. -/
def readEscape (zeroFirst : Bool) (cs : List Char) : Escape × List Char :=
  match cs with
  | [] => (.bytes [92], [])
  | c :: rest =>
    if (octalDigit? c).isSome then
      let digits := if zeroFirst && c == '0' then rest else cs
      let (value, _, rest) := readDigits octalDigit? 8 3 digits
      (.bytes [UInt8.ofNat value], rest)
    else if c == 'x' then
      let (value, count, rest') := readDigits hexDigit? 16 2 rest
      if count == 0 then (.bytes [92, 120], rest) else (.bytes [UInt8.ofNat value], rest')
    else if c == 'c' then (.stop, rest)
    else if c == '\\' then (.bytes [92], rest)
    else
      match controlLetters.lookup c with
      | some b => (.bytes [b], rest)
      | none => (.bytes (92 :: Utf8.encode c.toString), rest)

/-- The bytes of a text with its backslash sequences replaced, and whether one of them ends all
output. The number bounds how many characters are read. -/
def expandEscapes : Nat → List Char → Bytes × Bool
  | 0, _ => ([], false)
  | _, [] => ([], false)
  | fuel + 1, '\\' :: cs =>
    match readEscape true cs with
    | (.stop, _) => ([], true)
    | (.bytes bs, rest) =>
      let (more, stopped) := expandEscapes fuel rest
      (bs ++ more, stopped)
  | fuel + 1, c :: cs =>
    let (more, stopped) := expandEscapes fuel cs
    (Utf8.encode c.toString ++ more, stopped)

/-- The arguments on one line, with backslash sequences replaced or not, and with or without the
line feed. -/
def echoLine (escapes lineFeed : Bool) (args : List String) : Yield :=
  let text := " ".intercalate args
  let (bs, stopped) :=
    if escapes then expandEscapes (text.length + 1) text.toList else (Utf8.encode text, false)
  .ofOutput (bs ++ if lineFeed && !stopped then [newline] else [])

/-- Whether an argument is an option of `echo`. -/
def isEchoOption (arg : String) : Bool :=
  match arg.toList with
  | '-' :: c :: cs => (c :: cs).all fun c => c == 'n' || c == 'e' || c == 'E'
  | _ => false

/-- Prints its arguments. -/
def echo : Tool := fun args _ =>
  let options := (args.takeWhile isEchoOption).flatMap fun arg => arg.toList.drop 1
  let escapes := (options.filter fun c => c != 'n').getLast? == some 'e'
  echoLine escapes (!options.contains 'n') (args.dropWhile isEchoOption)

/-- Prints its arguments the way a shell does: backslash sequences are always replaced. -/
def shellEcho : Tool := fun args _ =>
  match args with
  | "-n" :: args => echoLine true false args
  | _ => echoLine true true args

/-- How a value is laid out in a format. -/
structure Layout where
  left : Bool := false
  zero : Bool := false
  plus : Bool := false
  space : Bool := false
  alternate : Bool := false
  width : Nat := 0
  precision : Option Nat := none
  deriving Repr, DecidableEq

/-- The parts of a format: bytes, the end of all output, a place that cannot be understood, or the
place of an argument. -/
inductive FormatPart where
  | bytes (bs : Bytes)
  | stop
  | unknown (text : String)
  | argument (layout : Layout) (conversion : Char)
  deriving Repr, DecidableEq

/-- Reads the marks of a place in a format. -/
def readMarks (l : Layout) : List Char → Layout × List Char
  | '-' :: cs => readMarks { l with left := true } cs
  | '0' :: cs => readMarks { l with zero := true } cs
  | '+' :: cs => readMarks { l with plus := true } cs
  | ' ' :: cs => readMarks { l with space := true } cs
  | '#' :: cs => readMarks { l with alternate := true } cs
  | cs => (l, cs)

/-- Reads the layout of a place in a format. -/
def readLayout (cs : List Char) : Layout × List Char :=
  let (l, cs) := readMarks {} cs
  let l := { l with width := (number? (cs.takeWhile Char.isDigit)).getD 0 }
  match cs.dropWhile Char.isDigit with
  | '.' :: cs =>
    let precision := (number? (cs.takeWhile Char.isDigit)).getD 0
    ({ l with precision := some precision }, cs.dropWhile Char.isDigit)
  | cs => (l, cs)

/-- The letter says how an argument is written in a layout. Escapes have no layout. -/
def isConversion (l : Layout) (c : Char) : Bool :=
  if c == 'b' then l == {} else ['s', 'c', 'd', 'i', 'u', 'o', 'x', 'X'].contains c

/-- The parts of a format. The number bounds how many characters are read. -/
def readFormat : Nat → List Char → List FormatPart
  | 0, _ => []
  | _, [] => []
  | fuel + 1, '\\' :: cs =>
    match readEscape false cs with
    | (.stop, _) => [.stop]
    | (.bytes bs, rest) => .bytes bs :: readFormat fuel rest
  | fuel + 1, '%' :: '%' :: cs => .bytes (Utf8.encode "%") :: readFormat fuel cs
  | fuel + 1, '%' :: cs =>
    match readLayout cs with
    | (_, []) => [.unknown (.ofList ('%' :: cs))]
    | (layout, c :: rest) =>
      if isConversion layout c then .argument layout c :: readFormat fuel rest
      else [.unknown (.ofList ('%' :: cs.take (cs.length - rest.length)))]
  | fuel + 1, c :: cs => .bytes (Utf8.encode c.toString) :: readFormat fuel cs

/-- Bytes laid out in the width of a place. -/
def Layout.pad (l : Layout) (bs : Bytes) : Bytes :=
  let fill := List.replicate (l.width - bs.length) (32 : UInt8)
  if l.left then bs ++ fill else fill ++ bs

/-- The digits of a number, in lower case. -/
def digitsOf (base n : Nat) : List Char := Nat.toDigits base n

/-- A number laid out in a place: sign, zeros and digits. -/
def Layout.padNumber (l : Layout) (negative : Bool) (start : String) (digits : List Char) :
    Bytes :=
  let digits := List.replicate (l.precision.getD 1 - digits.length) '0' ++ digits
  let sign := if negative then "-" else if l.plus then "+" else if l.space then " " else ""
  let before := (sign ++ start).toList
  let zeros :=
    if l.zero && !l.left && l.precision.isNone then
      List.replicate (l.width - before.length - digits.length) '0'
    else []
  l.pad (Utf8.encode (.ofList (before ++ zeros ++ digits)))

/-- What is wrong with a format or with its arguments. -/
inductive FormatFlaw where
  | missing
  | unknown (text : String)
  | notNumeric (arg : String)
  | partlyNumeric (arg : String)
  | excess (arg : String)
  deriving Repr, DecidableEq

/-- A flaw in words. -/
def FormatFlaw.message : FormatFlaw → String
  | missing => "missing operand\nTry 'printf --help' for more information."
  | unknown text => text ++ ": invalid conversion specification"
  | notNumeric arg => shown arg ++ ": expected a numeric value"
  | partlyNumeric arg => shown arg ++ ": value not completely converted"
  | excess arg => "warning: ignoring excess arguments, starting with " ++ shown arg

/-- The status of a shell for a flaw, and its words; it is silent about excess arguments. -/
def FormatFlaw.shellMessage? : FormatFlaw → Option (Int × String)
  | missing => some (2, "usage: printf format [arg ...]")
  | unknown "%" => some (2, "missing format character")
  | unknown text => some (2, text ++ ": invalid directive")
  | notNumeric arg => some (1, arg ++ ": expected numeric value")
  | partlyNumeric arg => some (1, arg ++ ": not completely converted")
  | excess _ => none

/-- The integer that a text begins with, and what is wrong with the text if it is not all of it. A
quote in front asks for the code of the character behind it. -/
def readInteger (s : String) : Int × Option FormatFlaw :=
  match s.toList with
  | [] => (0, none)
  | '\'' :: c :: _ => (c.toNat, none)
  | '"' :: c :: _ => (c.toNat, none)
  | cs =>
    let (negative, cs) :=
      match cs with
      | '-' :: cs => (true, cs)
      | '+' :: cs => (false, cs)
      | cs => (false, cs)
    let (value, count, rest) :=
      match cs with
      | '0' :: 'x' :: cs => readDigits hexDigit? 16 cs.length cs
      | '0' :: cs =>
        let (value, count, rest) := readDigits octalDigit? 8 cs.length cs
        (value, count + 1, rest)
      | cs => readDigits (fun c => number? [c]) 10 cs.length cs
    (if negative then -value else value,
      if count == 0 then some (.notNumeric s)
      else if rest.isEmpty then none
      else some (.partlyNumeric s))

/-- What a place in a format makes of its argument: bytes, whether they end all output, and what is
wrong with the argument. -/
def formatArgument (l : Layout) (conversion : Char) (arg : String) :
    Bytes × Bool × Option FormatFlaw :=
  let cut (bs : Bytes) : Bytes := (l.precision.map bs.take).getD bs
  let integer (f : Int → Bytes) : Bytes × Bool × Option FormatFlaw :=
    let (n, flaw) := readInteger arg
    (f n, false, flaw)
  match conversion with
  | 's' => (l.pad (cut (Utf8.encode arg)), false, none)
  | 'c' => (l.pad ((Utf8.encode arg).take 1), false, none)
  | 'b' =>
    let (bs, stopped) := expandEscapes (arg.length + 1) arg.toList
    (bs, stopped, none)
  | 'd' | 'i' => integer fun n => l.padNumber (n < 0) "" (digitsOf 10 n.natAbs)
  | 'u' => integer fun n => l.padNumber false "" (digitsOf 10 (n % 0x10000000000000000).toNat)
  | 'o' => integer fun n =>
    l.padNumber false (if l.alternate then "0" else "")
      (digitsOf 8 (n % 0x10000000000000000).toNat)
  | 'x' => integer fun n =>
    l.padNumber false (if l.alternate && n != 0 then "0x" else "")
      (digitsOf 16 (n % 0x10000000000000000).toNat)
  | 'X' => integer fun n =>
    l.padNumber false (if l.alternate && n != 0 then "0X" else "")
      ((digitsOf 16 (n % 0x10000000000000000).toNat).map Char.toUpper)
  | _ => ([], false, none)

/-- What came of a format. -/
structure Printed where
  bytes : Bytes := []
  flaws : List FormatFlaw := []
  deriving Repr, DecidableEq

/-- One after the other. -/
def Printed.followedBy (x y : Printed) : Printed := ⟨x.bytes ++ y.bytes, x.flaws ++ y.flaws⟩

/-- Prints the parts of a format once; the answer is what was printed, whether it ends all
output, and the arguments that are left. -/
def formatOnce : List FormatPart → List String → Printed × Bool × List String
  | [], args => ({}, false, args)
  | .bytes bs :: parts, args =>
    let (printed, stopped, args) := formatOnce parts args
    ({ printed with bytes := bs ++ printed.bytes }, stopped, args)
  | .stop :: _, args => ({}, true, args)
  | .unknown text :: _, args => ({ flaws := [.unknown text] }, true, args)
  | .argument layout conversion :: parts, args =>
    let (bytes, stopped, flaw) := formatArgument layout conversion (args.headD "")
    let first : Printed := { bytes, flaws := flaw.toList }
    if stopped then (first, true, args.tail)
    else
      let (printed, stopped, args) := formatOnce parts args.tail
      (first.followedBy printed, stopped, args)

/-- Prints a format again and again until no argument is left. A format without places is printed
once. -/
def formatAll (parts : List FormatPart) : Nat → List String → Printed
  | 0, _ => {}
  | fuel + 1, args =>
    let (printed, stopped, left) := formatOnce parts args
    if stopped then printed
    else
      match left with
      | [] => printed
      | first :: _ =>
        if left.length == args.length then printed.followedBy { flaws := [.excess first] }
        else printed.followedBy (formatAll parts fuel left)

/-- Prints a format, which is the first of the arguments, with the others. -/
def printFormat (args : List String) : Printed :=
  match (if args.head? == some "--" then args.tail else args) with
  | [] => { flaws := [.missing] }
  | format :: args =>
    formatAll (readFormat (format.length + 1) format.toList) (args.length + 1) args

/-- Prints its arguments in a format. -/
def printf : Tool := fun args _ =>
  let printed := printFormat args
  let harmless (f : FormatFlaw) : Bool := match f with
    | .excess _ => true
    | _ => false
  { stdout := printed.bytes
    stderr := printed.flaws.flatMap fun f => Utf8.encode ("printf: " ++ f.message ++ "\n")
    code := if printed.flaws.all harmless then 0 else 1 }


/-- Prints its arguments again and again, for as long as anyone reads them. -/
def yes : Tool := fun args _ =>
  let line := Utf8.encode (if args.isEmpty then "y\n" else " ".intercalate args ++ "\n")
  .endless (List.replicate (endlessLength / line.length + 1) line).flatten

/-- A length of time: a number, with or without a fraction, and the letter of a unit. -/
def isDuration (arg : String) : Bool :=
  let digits := arg.toList.takeWhile fun c => c.isDigit || c == '.'
  digits.any Char.isDigit && digits.count '.' ≤ 1 &&
    ["", "s", "m", "h", "d"].contains (.ofList (arg.toList.drop digits.length))

/-- Passes time, of which there is no record here. -/
def sleep : Tool := fun args _ =>
  let help := "\nTry 'sleep --help' for more information."
  if args.isEmpty then .complaint 1 ("sleep: missing operand" ++ help)
  else
    match args.filter (!isDuration ·) with
    | [] => {}
    | wrong =>
      .complaint 1 ("\n".intercalate (wrong.map fun arg =>
        "sleep: invalid time interval " ++ shown arg) ++ help)

end Pipework.Userland
