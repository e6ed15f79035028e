import Pipework.Signal
import Pipework.Userland.Script
import Pipework.Userland.Searching

/-!
# The shell

A shell runs a script: it replaces the parameters in the words of each command, leads its
streams to where they belong, and runs it, either by itself or as a program.

## Main definitions

* `tools` — the programs that there are, the shell apart
* `Shell` — the state of a shell
* `Shell.expand` — the words of a command with their parameters replaced
* `runProgram` — running any program
-/

namespace Pipework.Userland

open Text (Utf8.encode)

/-- The program reads its input if it is given no file. -/
def readsWithout (files : Nat) (args : List String) : Bool :=
  let (_, operands) := splitOptions args
  operands.length ≤ files || operands.contains "-"

/-- How much the program reads depends on words that its options take. -/
def readsAmount (args : List String) : Bool :=
  match readAmount "" (.lines 10) args with
  | .ok (_, operands) => operands.isEmpty || operands.contains "-"
  | .error _ => false

/-- The programs that there are, the shell apart: what they do, and whether they read their input,
given their arguments. -/
def tools : List (String × Tool × (List String → Bool)) :=
  [("true", fun _ _ => {}, fun _ => false),
   ("false", fun _ _ => { code := 1 }, fun _ => false),
   ("sleep", sleep, fun _ => false),
   ("echo", echo, fun _ => false), ("printf", printf, fun _ => false),
   ("cat", cat, readsWithout 0), ("head", head, readsAmount), ("tail", tail, readsAmount),
   ("wc", wc, readsWithout 0), ("sort", sort, readsWithout 0), ("uniq", uniq, readsWithout 0),
   ("seq", seq, fun _ => false), ("yes", yes, fun _ => false), ("tr", tr, fun _ => true),
   ("grep", grep, readsWithout 1)]

/-- The names of all programs. -/
def programNames : List String := ["sh", "dash"] ++ tools.map (·.1)

/-- The state of a shell. -/
structure Shell where
  /-- The number of the process. -/
  pid : Nat
  name : String
  parameters : List String
  bindings : List (String × String) := []
  input : Bytes := []
  stdout : Bytes := []
  stderr : Bytes := []
  status : Int := 0
  /-- The code that the shell ends with, once it is to end. -/
  ended : Option Int := none
  /-- A failure ends the shell. -/
  strict : Bool := false

/-- Where a stream of a command leads. -/
inductive Sink where
  | stdout
  | stderr
  | nowhere
  deriving Repr, DecidableEq

namespace Shell

/-- The value of a parameter. -/
def parameter (s : Shell) (name : String) : String :=
  match name with
  | "$" => toString s.pid
  | "?" => toString s.status
  | "#" => toString s.parameters.length
  | "@" | "*" => " ".intercalate s.parameters
  | "0" => s.name
  | _ =>
    match number? name.toList with
    | some n => s.parameters[n - 1]?.getD ""
    | none => (s.bindings.lookup name).getD ""

/-- The shell with a variable set. -/
def setVariable (s : Shell) (name value : String) : Shell :=
  { s with bindings := (name, value) :: s.bindings }

/-- Adds a text to the last of the fields, newest first. -/
def extendField (fields : List String) (started : Bool) (text : String) : List String :=
  match started, fields with
  | true, field :: rest => (field ++ text) :: rest
  | _, fields => text :: fields

/-- The fields that words between blanks make. -/
def splitFields (value : String) : List String :=
  (value.splitToList fun c => c == ' ' || c == '\t' || c == '\n').filter (!·.isEmpty)

/-- Adds a piece of a word to the fields, newest first; the flag tells whether the newest field is
still under way. -/
def expandPiece (s : Shell) (state : List String × Bool) (p : Piece) : List String × Bool :=
  let (fields, started) := state
  match p with
  | .text t _ => (extendField fields started t, true)
  | .parameter "@" true =>
    match s.parameters with
    | [] => (fields, started)
    | first :: rest => (rest.reverse ++ extendField fields started first, true)
  | .parameter name true => (extendField fields started (s.parameter name), true)
  | .parameter name false =>
    match splitFields (s.parameter name) with
    | [] => (fields, started)
    | first :: rest => (rest.reverse ++ extendField fields started first, true)

/-- The fields that a word makes. -/
def expand (s : Shell) (w : Word) : List String := (w.foldl s.expandPiece ([], false)).1.reverse

/-- The text that a word makes, in one piece. -/
def expandWhole (s : Shell) (w : Word) : String := " ".intercalate (s.expand w)

/-- The variable that a word sets, and the word for its value. -/
def assignment? (w : Word) : Option (String × Word) :=
  match w with
  | .text t false :: rest =>
    let cs := t.toList
    let name := cs.takeWhile Script.isNameChar
    match cs.dropWhile Script.isNameChar with
    | '=' :: value =>
      if name.isEmpty || name.any (fun c => c.isDigit) && !(name.head?.any Script.isNameStart) then
        none
      else some (.ofList name, .text (.ofList value) false :: rest)
    | _ => none
  | _ => none

/-- Where the streams of a command lead. -/
structure Streams where
  input : Option Bytes := none
  output : Sink := .stdout
  error : Sink := .stderr

/-- The streams after one of them is led elsewhere. -/
def redirect (s : Shell) (streams : Streams) (r : Redirect) : Except String Streams :=
  let target := s.expandWhole r.target
  let put (sink : Sink) : Streams :=
    match r.descriptor with
    | 1 => { streams with output := sink }
    | 2 => { streams with error := sink }
    | _ => streams
  match r.kind with
  | .input =>
    match readFile target none with
    | .ok bs => .ok { streams with input := some bs }
    | .error .missing => .error ("cannot open " ++ target ++ ": No such file")
    | .error e => .error ("cannot open " ++ target ++ ": " ++ e.message)
  | .output | .append =>
    if target == "/dev/stdout" then .ok (put streams.output)
    else if target == "/dev/stderr" then .ok (put streams.error)
    else
      match find [] target with
      | .directory => .error ("cannot create " ++ target ++ ": Is a directory")
      | _ => .ok (put .nowhere)
  | .duplicate =>
    match target with
    | "1" => .ok (put streams.output)
    | "2" => .ok (put streams.error)
    | "-" =>
      if r.descriptor == 0 then .ok { streams with input := some [] } else .ok (put .nowhere)
    | _ => .ok streams

/-- Leads bytes to a sink. -/
def emit (s : Shell) (sink : Sink) (bs : Bytes) : Shell :=
  match sink with
  | .stdout => { s with stdout := s.stdout ++ bs }
  | .stderr => { s with stderr := s.stderr ++ bs }
  | .nowhere => s

/-- How a process ended that a signal killed, in words. Of an interrupt and of a pipe that nobody
reads a shell says nothing. -/
def deathReport? (signal : Nat) : Option String :=
  [(1, "Hangup"), (3, "Quit"), (4, "Illegal instruction"), (5, "Trace/breakpoint trap"),
   (6, "Aborted"), (7, "Bus error"), (8, "Floating point exception"), (9, "Killed"),
   (10, "User defined signal 1"), (11, "Segmentation fault"), (12, "User defined signal 2"),
   (14, "Alarm clock"), (15, "Terminated"), (16, "Stack fault"),
   (24, "CPU time limit exceeded"), (25, "File size limit exceeded"),
   (26, "Virtual timer expired"), (27, "Profiling timer expired"), (29, "I/O possible"),
   (30, "Power failure"), (31, "Bad system call")].lookup signal

/-- Leads what a command wrote to its streams, and keeps its code as the status. -/
def accept (s : Shell) (streams : Streams) (y : Yield) : Shell :=
  let s := (s.emit streams.output y.stdout).emit streams.error y.stderr
  if y.code < 0 then
    match deathReport? y.code.natAbs with
    | some report =>
      { s.emit .stderr (Utf8.encode (report ++ "\n")) with status := 128 - y.code }
    | none => { s with status := 128 - y.code }
  else { s with status := y.code }

/-- Complains, with a status. -/
def complain (s : Shell) (streams : Streams) (status : Int) (message : String) : Shell :=
  { s.emit streams.error (Utf8.encode (s.name ++ ": 1: " ++ message ++ "\n")) with status }

/-- The number of a signal that is given by number or by name. -/
def signal? (name : String) : Option Nat :=
  match number? name.toList with
  | some n => if n ≤ 64 then some n else none
  | none => (Signal.standardNames.idxOf? ("SIG" ++ name.toUpper)).map (· + 1)

/-- The signals that do nothing to a process that does not ask for them. -/
def harmlessSignals : List Nat := [0, 17, 18, 19, 20, 21, 22, 23, 28]

/-- The signal that is to be sent, and the words for where to; or a complaint. -/
def readSignal (args : List String) : Except String (Nat × List String) :=
  match args with
  | "-s" :: name :: rest =>
    match signal? name with
    | some n => .ok (n, rest)
    | none => .error ("invalid signal number or name: " ++ name)
  | first :: rest =>
    match first.toList with
    | '-' :: c :: cs =>
      match signal? (.ofList (c :: cs)) with
      | some n => .ok (n, rest)
      | none => .error ("Illegal option -" ++ c.toString)
    | _ => .ok (15, args)
  | [] => .ok (15, [])

/-- Sends a signal to processes. Only the shell itself can be reached. -/
def kill (s : Shell) (streams : Streams) (args : List String) : Shell :=
  match readSignal args with
  | .error message => s.complain streams 2 ("kill: " ++ message)
  | .ok (_, []) =>
    s.complain streams 2
      ("kill: Usage: kill [-s sigspec | -signum | -sigspec] [pid | job]... or\n" ++
        "kill -l [exitstatus]")
  | .ok (n, targets) =>
    match targets.find? fun target => (number? target.toList).isNone with
    | some target => s.complain streams 2 ("kill: Illegal number: " ++ target)
    | none =>
      if !targets.contains (toString s.pid) then s.complain streams 1 "kill: No such process"
      else if harmlessSignals.contains n then { s with status := 0 }
      else { s with ended := some (-n) }

/-- Ends the shell with a code, or with the status. -/
def exit (s : Shell) (streams : Streams) (args : List String) : Shell :=
  match args with
  | [] => { s with ended := some s.status }
  | code :: _ =>
    match number? code.toList with
    | some n => { s with ended := some (n % 256 : Nat) }
    | none =>
      { s.complain streams 2 ("exit: Illegal number: " ++ code) with ended := some 2 }

/-- Tests a condition on texts, numbers or files. -/
def test (args : List String) : Bool :=
  let compare (f : Nat → Nat → Bool) (a b : String) : Bool :=
    match number? a.toList, number? b.toList with
    | some m, some n => f m n
    | _, _ => false
  match args with
  | ["!", a] => a.isEmpty
  | [a] => !a.isEmpty
  | ["-n", a] => !a.isEmpty
  | ["-z", a] => a.isEmpty
  | ["-e", a] => find programNames a != .missing && find programNames a != .notDirectory
  | ["-d", a] => find programNames a == .directory
  | ["-f", a] => find programNames a == .regular
  | [a, "=", b] => a == b
  | [a, "!=", b] => a != b
  | [a, "-eq", b] => compare (· == ·) a b
  | [a, "-ne", b] => compare (· != ·) a b
  | [a, "-lt", b] => compare (· < ·) a b
  | [a, "-le", b] => compare (· ≤ ·) a b
  | [a, "-gt", b] => compare (· > ·) a b
  | [a, "-ge", b] => compare (· ≥ ·) a b
  | _ => false

/-- Prints arguments in a format. -/
def printf (s : Shell) (streams : Streams) (args : List String) : Shell :=
  let printed := printFormat args
  let s := s.accept streams (.ofOutput printed.bytes)
  (printed.flaws.filterMap FormatFlaw.shellMessage?).foldl
    (fun s (status, message) => s.complain streams status ("printf: " ++ message)) s

/-- Reads a line of the input into a variable. -/
def readLine (s : Shell) (args : List String) : Shell :=
  let line := s.input.takeWhile (· != newline)
  let value := ((Text.decode .utf8 .replace line).toOption).getD ""
  { (match args.getLast? with
      | some name => s.setVariable name value
      | none => s) with
    input := s.input.drop (line.length + 1)
    status := if line.length < s.input.length then 0 else 1 }

end Shell

/-- What comes of running a program: what it writes, and the input that it leaves. -/
abbrev Runner := Nat → String → List String → Bytes → Yield × Bytes

namespace Shell

/-- The program that a name or a path leads to, or the status and the words of a complaint. -/
def locateCommand (name : String) : Except (Int × String) String :=
  if name.contains '/' then
    match find programNames name with
    | .program program => .ok program
    | .missing | .notDirectory => .error (127, "not found")
    | _ => .error (126, "Permission denied")
  else if programNames.contains name then .ok name
  else .error (127, "not found")

/-- Runs a program, or complains that there is none. -/
def runExternal (run : Runner) (s : Shell) (streams : Streams) (name : String)
    (args : List String) : Shell :=
  match locateCommand name with
  | .error (status, words) => s.complain streams status (name ++ ": " ++ words)
  | .ok program =>
    let (y, left) := run (s.pid + 1) program args (streams.input.getD s.input)
    let s := if streams.input.isNone then { s with input := left } else s
    s.accept streams y

/-- Becomes a program, with the number of the shell, or complains and ends. -/
def become (run : Runner) (s : Shell) (streams : Streams) (name : String) (args : List String) :
    Shell :=
  match locateCommand name with
  | .error (status, words) =>
    { s.complain streams status ("exec: " ++ name ++ ": " ++ words) with ended := some status }
  | .ok program =>
    let (y, left) := run s.pid program args (streams.input.getD s.input)
    { (s.emit streams.output y.stdout).emit streams.error y.stderr with
      ended := some y.code, input := left }

/-- Runs a command that has its fields. -/
def runFields (run : Runner) (s : Shell) (streams : Streams) : List String → Shell
  | [] => { s with status := 0 }
  | name :: args =>
    match name with
    | ":" | "true" => { s with status := 0 }
    | "false" => { s with status := 1 }
    | "echo" => s.accept streams (shellEcho args [])
    | "printf" => s.printf streams args
    | "exit" => s.exit streams args
    | "kill" => s.kill streams args
    | "test" => { s with status := if test args then 0 else 1 }
    | "[" => { s with status := if test args.dropLast then 0 else 1 }
    | "read" => s.readLine args
    | "shift" => { s with parameters := s.parameters.tail, status := 0 }
    | "cd" => { s with status := 0 }
    | "exec" =>
      match args with
      | [] => { s with status := 0 }
      | program :: args => s.become run streams program args
    | _ => s.runExternal run streams name args

/-- Runs one command: sets the bindings in front of it, leads its streams, and runs it. -/
def runCommand (run : Runner) (s : Shell) (c : SimpleCommand) : Shell :=
  let settings := (c.words.takeWhile fun w => (assignment? w).isSome).filterMap assignment?
  let words := c.words.dropWhile fun w => (assignment? w).isSome
  let fields := words.flatMap s.expand
  let s := settings.foldl (fun s (name, value) => s.setVariable name (s.expandWhole value)) s
  match c.redirects.foldlM s.redirect {} with
  | .error message => s.complain {} 2 message
  | .ok streams => s.runFields run streams fields

/-- Runs commands joined by pipes, each in a shell of its own. -/
def runPiped (run : Runner) (s : Shell) : List SimpleCommand → Shell
  | [] => s
  | [c] =>
    let inner := { s with stdout := [], stderr := [] }.runCommand run c
    let code := inner.ended.getD inner.status
    { s with
      stdout := s.stdout ++ inner.stdout
      stderr := s.stderr ++ inner.stderr
      status := if code < 0 then 128 - code else code }
  | c :: rest =>
    let inner := { s with stdout := [], stderr := [] }.runCommand run c
    let s' :=
      { s with stderr := s.stderr ++ inner.stderr, input := inner.stdout }.runPiped run rest
    { s' with input := [] }

/-- Runs a job, if its condition holds. -/
def runJob (run : Runner) (s : Shell) (j : Job) : Shell :=
  let wanted :=
    match j.condition with
    | .always => true
    | .afterSuccess => s.status == 0
    | .afterFailure => s.status != 0
  if s.ended.isSome || !wanted then s
  else
    let s :=
      match j.commands with
      | [c] => s.runCommand run c
      | cs => s.runPiped run cs
    if j.negated then { s with status := if s.status == 0 then 1 else 0 }
    else if s.strict && s.status != 0 && s.ended.isNone then { s with ended := some s.status }
    else s

/-- Runs a script. The answer is what was written, with the code that the shell ends with, and the
input that is left. -/
def runScript (run : Runner) (s : Shell) (text : String) : Yield × Bytes :=
  match Script.read text with
  | .error message =>
    let s := s.complain {} 2 message
    ({ stdout := s.stdout, stderr := s.stderr, code := 2 }, s.input)
  | .ok script =>
    let s := script.foldl (runJob run) s
    ({ stdout := s.stdout, stderr := s.stderr, code := s.ended.getD s.status }, s.input)

/-- Runs a shell with its arguments: a script among them, or on its input. -/
def start (run : Runner) (pid : Nat) (args : List String) (input : Bytes) : Yield × Bytes :=
  let isOption (arg : String) : Bool := arg.length > 1 && arg.toList.head? == some '-'
  let options := (args.takeWhile isOption).flatMap fun arg => arg.toList.drop 1
  let strict := options.contains 'e'
  match args.dropWhile isOption with
  | [] =>
    if options.contains 'c' then (.complaint 2 "sh: 0: -c requires an argument", input)
    else
      let text := ((Text.decode .utf8 .replace input).toOption).getD ""
      runScript run { pid, name := "sh", parameters := [], strict } text
  | script :: rest =>
    if options.contains 'c' then
      runScript run { pid, name := rest.headD "sh", parameters := rest.tail, input, strict } script
    else (.complaint 2 ("sh: 0: cannot open " ++ script ++ ": No such file"), input)

end Shell

/-- Runs a program; the first number bounds how deep shells run shells. -/
def runProgram : Nat → Runner
  | 0, _, _, _, input => (.complaint 2 "sh: 0: too many shells", input)
  | depth + 1, pid, name, args, input =>
    if name == "sh" || name == "dash" then Shell.start (runProgram depth) pid args input
    else
      match tools.lookup name with
      | some (tool, reads) => (tool args input, if reads args then [] else input)
      | none => ({ code := 127 }, input)

end Pipework.Userland
