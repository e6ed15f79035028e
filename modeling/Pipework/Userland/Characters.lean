import Pipework.Userland.Printing

/-!
# Replacing characters

The tool that replaces, deletes and squeezes single bytes.

## Main definitions

* `characterClass?` — the bytes of a named class
* `readSet` — the bytes that a set stands for, in order
* `tr` — the tool
-/

namespace Pipework.Userland

open Text (Utf8.encode)

/-- All bytes in order. -/
def allBytes : Bytes := (List.range 256).map UInt8.ofNat

/-- The byte is an ASCII character with the property. -/
def hasProperty (p : Char → Bool) (b : UInt8) : Bool := b < 128 && p (Char.ofNat b.toNat)

/-- The bytes of a named class, in order. -/
def characterClass? (name : String) : Option (UInt8 → Bool) :=
  match name with
  | "upper" => some (hasProperty Char.isUpper)
  | "lower" => some (hasProperty Char.isLower)
  | "alpha" => some (hasProperty Char.isAlpha)
  | "digit" => some (hasProperty Char.isDigit)
  | "alnum" => some (hasProperty Char.isAlphanum)
  | "space" => some fun b => b == 32 || (9 ≤ b && b ≤ 13)
  | "blank" => some fun b => b == 32 || b == 9
  | "cntrl" => some fun b => b < 32 || b == 127
  | "print" => some fun b => 32 ≤ b && b < 127
  | "graph" => some fun b => 32 < b && b < 127
  | "punct" => some fun b => 32 < b && b < 127 && !hasProperty Char.isAlphanum b
  | "xdigit" => some (hasProperty fun c => (hexDigit? c).isSome)
  | _ => none

/-- Reads one byte of a set, which may be written with a backslash; the flag tells whether it
was. -/
def readSetByte (bs : Bytes) : Option ((UInt8 × Bool) × Bytes) :=
  match bs with
  | [] => none
  | 92 :: rest =>
    let cs := (rest.take 3).map fun b => Char.ofNat b.toNat
    let (value, count, _) := readDigits octalDigit? 8 3 cs
    if count != 0 then some ((UInt8.ofNat value, true), rest.drop count)
    else
      match rest with
      | [] => some ((92, true), [])
      | b :: rest =>
        match controlLetters.lookup (Char.ofNat b.toNat) with
        | some control => if b == 101 then some ((b, true), rest) else some ((control, true), rest)
        | none => some ((b, true), rest)
  | b :: rest => some ((b, false), rest)

/-- Reads a class at the start of a set, between brackets and colons. -/
def readClass? (bs : Bytes) : Option (Bytes × Bytes) :=
  match bs with
  | 91 :: 58 :: rest =>
    let name := rest.takeWhile (· != 58)
    match rest.dropWhile (· != 58) with
    | 58 :: 93 :: rest =>
      (characterClass? (.ofList (name.map fun b => Char.ofNat b.toNat))).map fun p =>
        (allBytes.filter p, rest)
    | _ => none
  | _ => none

/-- The bytes that a set stands for, in order, or the ends of a range that runs backwards. The
number bounds how many bytes are read. -/
def readSetFrom : Nat → Bytes → Except (UInt8 × UInt8) Bytes
  | 0, _ => .ok []
  | fuel + 1, bs =>
    match readClass? bs with
    | some (members, rest) => return members ++ (← readSetFrom fuel rest)
    | none =>
      match readSetByte bs with
      | none => .ok []
      | some ((low, _), 45 :: rest) =>
        match readSetByte rest with
        | none => .ok [low, 45]
        | some ((high, _), rest) =>
          if high < low then .error (low, high)
          else
            return allBytes.filter (fun b => low ≤ b && b ≤ high) ++ (← readSetFrom fuel rest)
      | some ((b, _), rest) => return b :: (← readSetFrom fuel rest)

/-- The bytes that a set stands for, in order. -/
def readSet (s : String) : Except Yield Bytes :=
  let bs := Utf8.encode s
  (readSetFrom (bs.length + 1) bs).mapError fun (low, high) =>
    .complaint 1 ("tr: range-endpoints of '" ++
      String.ofList [Char.ofNat low.toNat, '-', Char.ofNat high.toNat] ++
      "' are in reverse collating sequence order")

/-- The table that replaces the bytes of one set by those of another, whose last byte stands for
all that are missing. The last of several rules for a byte holds. -/
def replacementTable (source target : Bytes) : Array UInt8 :=
  let fill := target.getLast?.getD 0
  (source.zip (target ++ List.replicate (source.length - target.length) fill)).foldl
    (fun table (b, c) => table.set! b.toNat c) allBytes.toArray

/-- Leaves one of several equal bytes of a set that follow one another. -/
def squeeze (set : Bytes) (bs : Bytes) : Bytes :=
  (bs.foldl
    (fun (done, previous) b =>
      if previous == some b && set.contains b then (done, previous) else (b :: done, some b))
    (([] : Bytes), (none : Option UInt8))).1.reverse

/-- What is wrong with how many sets there are. -/
def complaintOfSets? (deletes squeezes : Bool) (sets : List String) : Option Yield :=
  let help := "\nTry 'tr --help' for more information."
  let complain (message : String) : Option Yield := some (.complaint 1 ("tr: " ++ message ++ help))
  match sets with
  | [] => complain "missing operand"
  | [set] =>
    if deletes && squeezes then
      complain ("missing operand after " ++ shown set ++
        "\nTwo strings must be given when both deleting and squeezing repeats.")
    else if !deletes && !squeezes then
      complain ("missing operand after " ++ shown set ++
        "\nTwo strings must be given when translating.")
    else none
  | [_, set] =>
    if deletes && !squeezes then
      complain ("extra operand " ++ shown set ++
        "\nOnly one string may be given when deleting without squeezing repeats.")
    else none
  | _ :: second :: third :: _ =>
    complain ("extra operand " ++ shown (if deletes && !squeezes then second else third))

/-- Replaces, deletes and squeezes bytes of its input. -/
def tr : Tool := fun args input =>
  let isOption (arg : String) : Bool := arg.length > 1 && arg.toList.head? == some '-'
  let options := (args.takeWhile isOption).flatMap fun arg => arg.toList.drop 1
  let sets := args.dropWhile isOption
  let complement := options.contains 'c' || options.contains 'C'
  let chosen (set : Bytes) : Bytes := if complement then allBytes.filter (!set.contains ·) else set
  let deletes := options.contains 'd'
  let squeezes := options.contains 's'
  let delete (set : Bytes) : Bytes :=
    let table := set.foldl (fun table b => table.set! b.toNat true) (Array.replicate 256 false)
    input.filter fun b => !(table[b.toNat]?.getD false)
  match complaintOfSets? deletes squeezes sets, sets.mapM readSet with
  | some y, _ | none, .error y => y
  | none, .ok [first] =>
    .ofOutput (if deletes then delete (chosen first) else squeeze (chosen first) input)
  | none, .ok (first :: second :: _) =>
    if deletes then .ofOutput (squeeze second (delete (chosen first)))
    else if second.isEmpty then
      .complaint 1 "tr: when not truncating set1, string2 must be non-empty"
    else
      let table := replacementTable (chosen first) second
      let replaced := input.map fun b => table[b.toNat]?.getD b
      .ofOutput (if squeezes then squeeze second replaced else replaced)
  | none, .ok [] => {}

end Pipework.Userland
