import Pipework.Fault

/-!
# Scripts

A script is what a shell is told to do: lists of commands, joined by pipes and by conditions.
A word of a command is made of texts and of parameters that are replaced when it is run.

## Main definitions

* `Piece`, `Word` — what words are made of
* `Redirect`, `SimpleCommand` — a command with its words and where its streams lead
* `Job`, `Script` — commands joined by pipes, and jobs one after the other
* `Script.read` — the script that a text describes
-/

namespace Pipework.Userland

/-- A part of a word: a text, or a parameter, each in quotes or not. -/
inductive Piece where
  | text (s : String) (quoted : Bool)
  | parameter (name : String) (quoted : Bool)
  deriving Repr, DecidableEq

/-- A word as it is written. -/
abbrev Word := List Piece

/-- Where a stream is led: to or from a file, or to where another stream leads. -/
inductive RedirectKind where
  | input
  | output
  | append
  | duplicate
  deriving Repr, DecidableEq

/-- A stream of a command that is led elsewhere. -/
structure Redirect where
  descriptor : Nat
  kind : RedirectKind
  target : Word
  deriving Repr, DecidableEq

/-- A command with its words and redirected streams. -/
structure SimpleCommand where
  words : List Word := []
  redirects : List Redirect := []
  deriving Repr, DecidableEq

/-- When a job is run, depending on how the one before it ended. -/
inductive Condition where
  | always
  | afterSuccess
  | afterFailure
  deriving Repr, DecidableEq

/-- Commands joined by pipes, and when they are run; a negated job turns its status around. -/
structure Job where
  condition : Condition := .always
  negated : Bool := false
  commands : List SimpleCommand := []
  deriving Repr, DecidableEq

/-- Jobs in order. -/
abbrev Script := List Job

/-- What is read of a script: words, redirections that their target follows, and operators. -/
inductive Lexeme where
  | word (w : Word)
  | redirect (descriptor : Nat) (kind : RedirectKind)
  | operator (s : String)
  deriving Repr, DecidableEq

namespace Script

/-- The character can begin the name of a variable. -/
def isNameStart (c : Char) : Bool := c.isAlpha || c == '_'

/-- The character can stand in the name of a variable. -/
def isNameChar (c : Char) : Bool := c.isAlphanum || c == '_'

/-- Reads a parameter behind its dollar sign; none if the sign means itself. -/
def readParameter (cs : List Char) : Option (String × List Char) :=
  match cs with
  | '\x7b' :: rest =>
    match rest.dropWhile (· != '\x7d') with
    | _ :: after => some (.ofList (rest.takeWhile (· != '\x7d')), after)
    | [] => none
  | c :: rest =>
    if isNameStart c then some (.ofList (cs.takeWhile isNameChar), cs.dropWhile isNameChar)
    else if c.isDigit || ['$', '?', '#', '@', '*', '!'].contains c then
      some (c.toString, rest)
    else none
  | [] => none

/-- A word with a character added to its last text. -/
def addChar (quoted : Bool) (c : Char) (w : Word) : Word :=
  match w with
  | .text s q :: rest =>
    if q == quoted then .text (s.push c) q :: rest else .text c.toString quoted :: w
  | _ => .text c.toString quoted :: w

/-- Reads a text in double quotes up to its end; the word so far is newest first, and the number
bounds how many characters are read. -/
def readQuoted : Nat → Word → List Char → Option (Word × List Char)
  | 0, _, _ => none
  | _, _, [] => none
  | _ + 1, w, '"' :: cs => some (w, cs)
  | fuel + 1, w, '\\' :: c :: cs =>
    if c == '\n' then readQuoted fuel w cs
    else if ['$', '"', '\\'].contains c || c.toNat == 0x60 then
      readQuoted fuel (addChar true c w) cs
    else readQuoted fuel (addChar true c (addChar true '\\' w)) cs
  | fuel + 1, w, '$' :: cs =>
    match readParameter cs with
    | some (name, rest) => readQuoted fuel (.parameter name true :: w) rest
    | none => readQuoted fuel (addChar true '$' w) cs
  | fuel + 1, w, c :: cs => readQuoted fuel (addChar true c w) cs

/-- The number that a word is, if it is written without quotes. -/
def descriptor? : Option Word → Option Nat
  | some [.text s false] => if s.all Char.isDigit then s.toNat? else none
  | _ => none

/-- The complete word, if there is one. -/
def wordLexeme : Option Word → List Lexeme
  | some w => [.word w.reverse]
  | none => []

/-- Why a text is no script. -/
def unterminated : String := "Syntax error: Unterminated quoted string"

/-- Reads lexemes; the word so far is newest first, and the number bounds how many characters are
read. -/
def readLexemes : Nat → Option Word → List Char → Except String (List Lexeme)
  | 0, w, _ => .ok (wordLexeme w)
  | _, w, [] => .ok (wordLexeme w)
  | fuel + 1, w, c :: cs => do
    let operator (s : String) (cs : List Char) : Except String (List Lexeme) :=
      return wordLexeme w ++ .operator s :: (← readLexemes fuel none cs)
    let redirect (default : Nat) (kind : RedirectKind) (cs : List Char) :
        Except String (List Lexeme) := do
      let rest ← readLexemes fuel none cs
      match descriptor? w with
      | some n => return .redirect n kind :: rest
      | none => return wordLexeme w ++ .redirect default kind :: rest
    let so := w.getD []
    match c, cs with
    | ' ', _ | '\t', _ => return wordLexeme w ++ (← readLexemes fuel none cs)
    | '\n', _ => operator "\n" cs
    | ';', _ => operator ";" cs
    | '&', '&' :: cs => operator "&&" cs
    | '&', _ => operator "&" cs
    | '|', '|' :: cs => operator "||" cs
    | '|', _ => operator "|" cs
    | '(', _ => operator "(" cs
    | ')', _ => operator ")" cs
    | '>', '&' :: cs => redirect 1 .duplicate cs
    | '>', '>' :: cs => redirect 1 .append cs
    | '>', _ => redirect 1 .output cs
    | '<', '&' :: cs => redirect 0 .duplicate cs
    | '<', _ => redirect 0 .input cs
    | '\\', '\n' :: cs => readLexemes fuel w cs
    | '\\', d :: cs => readLexemes fuel (some (addChar true d so)) cs
    | '\'', _ =>
      match cs.dropWhile (· != '\'') with
      | [] => throw unterminated
      | _ :: rest =>
        readLexemes fuel (some (.text (.ofList (cs.takeWhile (· != '\''))) true :: so)) rest
    | '"', _ =>
      match readQuoted (cs.length + 1) (.text "" true :: so) cs with
      | some (w, rest) => readLexemes fuel (some w) rest
      | none => throw unterminated
    | '$', _ =>
      match readParameter cs with
      | some (name, rest) => readLexemes fuel (some (.parameter name false :: so)) rest
      | none => readLexemes fuel (some (addChar false '$' so)) cs
    | '#', _ =>
      if w.isNone then readLexemes fuel none (cs.dropWhile (· != '\n'))
      else readLexemes fuel (some (addChar false c so)) cs
    | _, _ => readLexemes fuel (some (addChar false c so)) cs

/-- A script that is being put together: the finished jobs, newest first, and the job and the
command under way. -/
structure Draft where
  jobs : List Job := []
  job : Job := {}
  command : SimpleCommand := {}
  /-- The redirection that waits for its target. -/
  waiting : Option (Nat × RedirectKind) := none
  /-- A command has to follow. -/
  demanding : Bool := false

/-- The command under way has something in it. -/
def Draft.hasCommand (d : Draft) : Bool :=
  !(d.command.words.isEmpty && d.command.redirects.isEmpty)

/-- What is said of a lexeme that stands where none of its kind may. -/
def unexpected (s : String) : String :=
  if s == "\n" then "Syntax error: newline unexpected"
  else "Syntax error: \"" ++ s ++ "\" unexpected"

/-- The draft with the job under way finished, and the next one to be run on a condition. -/
def Draft.finishJob (d : Draft) (condition : Condition) (demanding : Bool) : Draft where
  jobs := { d.job with commands := d.job.commands ++ [d.command] } :: d.jobs
  job := { condition }
  demanding := demanding

/-- Puts one more lexeme into a draft. -/
def Draft.add (d : Draft) : Lexeme → Except String Draft
  | .word w =>
    match d.waiting with
    | some (descriptor, kind) =>
      let redirects := d.command.redirects ++ [{ descriptor, kind, target := w }]
      .ok { d with command := { d.command with redirects }, waiting := none }
    | none =>
      if w == [.text "!" false] && !d.hasCommand && d.job.commands.isEmpty then
        .ok { d with job := { d.job with negated := !d.job.negated }, demanding := true }
      else
        .ok { d with
          command := { d.command with words := d.command.words ++ [w] }, demanding := false }
  | .redirect descriptor kind =>
    if d.waiting.isSome then .error "Syntax error: redirection unexpected"
    else .ok { d with waiting := some (descriptor, kind), demanding := false }
  | .operator s =>
    if d.waiting.isSome then .error (unexpected s)
    else if s == "\n" && !d.hasCommand then .ok d
    else if !d.hasCommand || s == "(" || s == ")" then .error (unexpected s)
    else
      match s with
      | "|" =>
        .ok { d with
          job := { d.job with commands := d.job.commands ++ [d.command] }, command := {}
          demanding := true }
      | "&&" => .ok (d.finishJob .afterSuccess true)
      | "||" => .ok (d.finishJob .afterFailure true)
      | _ => .ok (d.finishJob .always false)

/-- The script that a text describes. -/
def read (s : String) : Except String Script := do
  let lexemes ← readLexemes (s.length + 1) none s.toList
  let d ← lexemes.foldlM Draft.add {}
  if d.waiting.isSome || (d.demanding && !d.hasCommand) then
    throw "Syntax error: end of file unexpected"
  return (if d.hasCommand then d.finishJob .always false else d).jobs.reverse

end Script

end Pipework.Userland
