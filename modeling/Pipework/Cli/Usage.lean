import Pipework.Text.Digit
import Pipework.Text.Literal

/-!
# Usage of a command line

A command line is a list of words. Words that begin with a dash are options, unless they
could not be one; the others are arguments. A long option may be cut short as long as only
one option begins so, short options may be put together behind one dash, and after the word
`--` all words are arguments.

## Main definitions

* `Usage` — the options that a command takes, and the argument that it needs
* `UsageError` — what can be wrong with a command line, with `UsageError.message`
* `Token` — what a word counts for
* `Usage.classify` — what a word counts for in a usage
* `Usage.read` — the options, the argument and the words left over
-/

namespace Pipework.Cli

/-- The argument that a command needs: none, one, or the name of a further command with all the
words that follow it. -/
inductive Positional where
  | none
  | single (name : String)
  | subcommand (name : String)
  deriving Repr, DecidableEq

/-- The options that a command takes, each with its names and its meaning, and the argument that
it needs. -/
structure Usage (φ : Type) where
  options : List (List String × φ)
  positional : Positional

/-- What can be wrong with a command line. -/
inductive UsageError where
  /-- Several options begin like this. -/
  | ambiguous (word : String) (candidates : List String)
  /-- An option was given a value but takes none. -/
  | unusedValue (names : List String) (value : String)
  /-- The argument is missing. -/
  | missing (name : String)
  /-- There is no command of this name. -/
  | invalidChoice (name value : String) (choices : List String)
  /-- Words are left over. -/
  | unrecognized (words : List String)
  deriving Repr, DecidableEq

/-- What is wrong, in words. -/
def UsageError.message : UsageError → String
  | ambiguous word candidates =>
    "ambiguous option: " ++ word ++ " could match " ++ ", ".intercalate candidates
  | unusedValue names value =>
    "argument " ++ "/".intercalate names ++ ": ignored explicit argument " ++ Text.literal value
  | missing name => "the following arguments are required: " ++ name
  | invalidChoice name value choices =>
    "argument " ++ name ++ ": invalid choice: " ++ Text.literal value ++ " (choose from " ++
      ", ".intercalate (choices.map Text.literal) ++ ")"
  | unrecognized words => "unrecognized arguments: " ++ " ".intercalate words

/-- A value that is written in one word with its option, after an equals sign or right behind. -/
inductive Inline where
  | none
  | afterEquals (value : List Char)
  | attached (value : List Char)
  deriving Repr, DecidableEq

/-- What a word counts for: an argument, the word after which all are arguments, an option with
its names and the value in the same word, or an option that nobody knows. -/
inductive Token (φ : Type) where
  | argument (word : String)
  | separator
  | option (word spelled : String) (known : List String × φ) (inline : Inline)
  | unknown (word : String)

namespace Token

/-- The word itself. -/
def word {φ : Type} : Token φ → String
  | argument word => word
  | separator => "--"
  | option word _ _ _ => word
  | unknown word => word

end Token

/-- One optional last line feed does not keep a text from being a number. -/
def dropLastNewline (cs : List Char) : List Char :=
  if cs.getLast? == some '\n' then cs.dropLast else cs

/-- The word is a negative number: a dash, then digits that may have a point among or before
them. -/
def isNegativeNumber (word : String) : Bool :=
  match dropLastNewline word.toList with
  | '-' :: cs =>
    let whole := cs.takeWhile Text.isDecimalDigit
    match cs.dropWhile Text.isDecimalDigit with
    | [] => !whole.isEmpty
    | '.' :: fraction => !fraction.isEmpty && fraction.all Text.isDecimalDigit
    | _ => false
  | _ => false

namespace Usage

variable {φ : Type}

/-- The option of that name. -/
def find? (u : Usage φ) (name : String) : Option (List String × φ) :=
  u.options.find? (·.1.contains name)

/-- All names of options, in order. -/
def names (u : Usage φ) : List String := u.options.flatMap (·.1)

/-- The text before the first equals sign, and the value after it. -/
def splitEquals (cs : List Char) : List Char × Inline :=
  match cs.dropWhile (· != '=') with
  | [] => (cs, .none)
  | _ :: value => (cs.takeWhile (· != '='), .afterEquals value)

/-- The names that a word may be a shortened form of, with the value in the same word. -/
def candidates (u : Usage φ) (cs : List Char) : List (String × Inline) :=
  match cs with
  | '-' :: '-' :: _ =>
    let (start, inline) := splitEquals cs
    (u.names.filter fun name => start.isPrefixOf name.toList).map (·, inline)
  | _ =>
    u.names.filterMap fun name =>
      if name.toList == cs.take 2 then some (name, .attached (cs.drop 2))
      else if cs.isPrefixOf name.toList then some (name, .none)
      else none

/-- What a word counts for, if no separator stands before it. -/
def classify (u : Usage φ) (word : String) : Except UsageError (Token φ) :=
  if word == "--" then .ok .separator
  else
    match word.toList with
    | [] | ['-'] => .ok (.argument word)
    | '-' :: rest =>
      let cs := '-' :: rest
      let (start, inline) := splitEquals cs
      match u.find? word, u.find? (.ofList start) with
      | some known, _ => .ok (.option word word known .none)
      | none, some known => .ok (.option word (.ofList start) known inline)
      | none, none =>
        match u.candidates cs with
        | [(name, inline)] =>
          match u.find? name with
          | some known => .ok (.option word name known inline)
          | none => .ok (.unknown word)
        | [] =>
          if isNegativeNumber word || cs.contains ' ' then .ok (.argument word)
          else .ok (.unknown word)
        | several => .error (.ambiguous word (several.map (·.1)))
    | _ => .ok (.argument word)

/-- What the words of a command line count for. -/
def tokens (u : Usage φ) : List String → Except UsageError (List (Token φ))
  | [] => .ok []
  | word :: words => do
    match ← u.classify word with
    | .separator => return .separator :: words.map .argument
    | token => return token :: (← u.tokens words)

/-- Reads short options that stand together behind one dash, after the known one. The answer is
their meanings, and the part of the word that is left over. -/
def readShort (u : Usage φ) (known : List String × φ) (equals : Bool) (value : List Char) :
    Except UsageError (List φ × List String) :=
  match value with
  | [] => .error (.unusedValue known.1 "")
  | c :: cs =>
    if equals || c == '-' then .error (.unusedValue known.1 (.ofList (c :: cs)))
    else
      match u.find? (.ofList ['-', c]) with
      | none => .ok ([known.2], [.ofList ('-' :: c :: cs)])
      | some next =>
        if cs.isEmpty then .ok ([known.2, next.2], [])
        else do
          let equals := cs.head? == some '='
          let (meanings, left) ← u.readShort next equals (if equals then cs.tail else cs)
          return (known.2 :: meanings, left)
termination_by value.length
decreasing_by all_goals (split <;> simp only [List.length_cons, List.length_tail] <;> omega)

/-- The meanings of an option with what stands in the same word, and what is left over. Only
short options can be put together; no option takes a value. -/
def readOption (u : Usage φ) (spelled : String) (known : List String × φ) (inline : Inline) :
    Except UsageError (List φ × List String) :=
  let isShort := (spelled.toList.drop 1).head? != some '-'
  match inline with
  | .none => .ok ([known.2], [])
  | .afterEquals value =>
    if isShort then u.readShort known true value
    else .error (.unusedValue known.1 (.ofList value))
  | .attached value =>
    if isShort then u.readShort known false value
    else .error (.unusedValue known.1 (.ofList value))

end Usage

/-- What was read of a command line: the meanings of its options in order, its argument with
what belongs to it, and the words left over. -/
structure Reading (φ : Type) where
  meanings : List φ := []
  argument : Option (List String) := none
  leftOver : List String := []
  /-- A separator was read that the argument has yet to follow. -/
  held : Bool := false
  /-- A separator that comes next belongs to the argument before it. -/
  closing : Bool := false

namespace Usage

variable {φ : Type}

/-- The argument is still wanted. -/
def wants (u : Usage φ) (r : Reading φ) : Bool :=
  r.argument.isNone && u.positional != .none

/-- Goes on reading a command line. -/
def readFrom (u : Usage φ) (r : Reading φ) : List (Token φ) → Except UsageError (Reading φ)
  | [] => .ok { r with leftOver := r.leftOver ++ if r.held then ["--"] else [] }
  | .option _ spelled known inline :: rest => do
    let (meanings, left) ← u.readOption spelled known inline
    u.readFrom
      { r with
        meanings := r.meanings ++ meanings, leftOver := r.leftOver ++ left, closing := false }
      rest
  | .unknown word :: rest =>
    u.readFrom { r with leftOver := r.leftOver ++ [word], closing := false } rest
  | .separator :: rest =>
    if r.closing then u.readFrom { r with closing := false } rest
    else if u.wants r then u.readFrom { r with held := true } rest
    else u.readFrom { r with leftOver := r.leftOver ++ ["--"] } rest
  | .argument word :: rest =>
    if u.wants r then
      match u.positional with
      | .subcommand _ =>
        let words := (if r.held then ["--"] else []) ++ word :: rest.map (·.word)
        .ok { r with argument := some words, held := false }
      | _ =>
        u.readFrom { r with argument := some [word], held := false, closing := true } rest
    else u.readFrom { r with leftOver := r.leftOver ++ [word], closing := false } rest

/-- Reads a command line. -/
def read (u : Usage φ) (words : List String) : Except UsageError (Reading φ) := do
  u.readFrom {} (← u.tokens words)

/-- The name of the argument that was not given although it is needed. -/
def missing? (u : Usage φ) (r : Reading φ) : Option String :=
  match u.positional, r.argument with
  | .single name, none => some name
  | .subcommand name, none => some name
  | _, _ => none

end Usage

end Pipework.Cli
