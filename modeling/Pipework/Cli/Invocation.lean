import Pipework.Cli.Usage

/-!
# Invocations

The tool has three commands: one runs a pipeline, one shows how a line is split, and one
runs the pipelines of an interactive session. This module reads which of them was asked for
and with which options.

## Main definitions

* `Flags` — the options that change how pipelines are run
* `Invocation` — a command with its options
* `Refusal` — why a command line is none
* `Invocation.ofWords` — the invocation that a command line asks for
-/

namespace Pipework.Cli

/-- What an option means. -/
inductive Setting where
  | help
  | pipefail
  | noCapture
  | statuses
  | verbose
  deriving Repr, DecidableEq

/-- The options that change how pipelines are run and reported. -/
structure Flags where
  /-- The first stage without success decides about the exit code. -/
  pipefail : Bool := false
  /-- The output of pipelines is not captured. -/
  noCapture : Bool := false
  /-- The status of every stage is reported. -/
  statuses : Bool := false
  /-- All notes are shown. -/
  verbose : Bool := false
  deriving Repr, DecidableEq

/-- A command with its options. -/
inductive Invocation where
  | exec (line : String) (flags : Flags)
  | parse (line : String) (flags : Flags)
  | shell (flags : Flags)
  deriving Repr, DecidableEq

namespace Invocation

/-- The name of the command. -/
def name : Invocation → String
  | exec .. => "exec"
  | parse .. => "parse"
  | shell _ => "shell"

/-- The options of the command. -/
def flags : Invocation → Flags
  | exec _ flags => flags
  | parse _ flags => flags
  | shell flags => flags

end Invocation

/-- Why a command line is no invocation: it asks for help, or it is wrong for the command with
that name. -/
inductive Refusal where
  | help
  | wrong (command : String) (error : UsageError)
  deriving Repr, DecidableEq

/-- The option that asks for help. -/
def helpOption : List String × Setting := (["-h", "--help"], .help)

/-- The option that shows all notes. -/
def verboseOption : List String × Setting := (["-v", "--verbose"], .verbose)

/-- The options of the commands that run pipelines. -/
def runningOptions : List (List String × Setting) :=
  [helpOption, (["--pipefail"], .pipefail), (["--no-capture"], .noCapture),
   (["--statuses"], .statuses), verboseOption]

/-- The usage of the tool itself. -/
def toolUsage : Usage Setting where
  options := [helpOption]
  positional := .subcommand "command_name"

/-- The usage of the command that runs a pipeline. -/
def execUsage : Usage Setting where
  options := runningOptions
  positional := .single "pipeline"

/-- The usage of the command that shows how a line is split. -/
def parseUsage : Usage Setting where
  options := [helpOption, verboseOption]
  positional := .single "pipeline"

/-- The usage of the interactive command. -/
def shellUsage : Usage Setting where
  options := runningOptions
  positional := .none

/-- The name of the tool. -/
def toolName : String := "apipe"

/-- The flags that options set. -/
def Flags.ofOptions (options : List Setting) : Flags where
  pipefail := options.contains .pipefail
  noCapture := options.contains .noCapture
  statuses := options.contains .statuses
  verbose := options.contains .verbose

/-- Reads words as a usage asks for; the argument it needs has to be there. -/
def readComplete (name : String) (u : Usage Setting) (words : List String) :
    Except Refusal (Reading Setting) := do
  let reading ← (u.read words).mapError (.wrong name)
  if reading.meanings.contains .help then throw .help
  match u.missing? reading with
  | some argument => throw (.wrong name (.missing argument))
  | none => return reading

/-- Reads the words after the name of a command, and the words left over. -/
def readCommand (words : List String) : Except Refusal (Invocation × List String) := do
  let command := words.headD ""
  let label := toolName ++ " " ++ command
  let rest := words.tail
  let line (r : Reading Setting) := (r.argument.getD []).headD ""
  match command with
  | "exec" =>
    let r ← readComplete label execUsage rest
    return (.exec (line r) (.ofOptions r.meanings), r.leftOver)
  | "parse" =>
    let r ← readComplete label parseUsage rest
    return (.parse (line r) (.ofOptions r.meanings), r.leftOver)
  | "shell" =>
    let r ← readComplete label shellUsage rest
    return (.shell (.ofOptions r.meanings), r.leftOver)
  | _ =>
    throw (.wrong toolName (.invalidChoice "command_name" command ["exec", "parse", "shell"]))

/-- The invocation that a command line asks for. Words that are left over are refused last. -/
def Invocation.ofWords (words : List String) : Except Refusal Invocation := do
  let tool ← readComplete toolName toolUsage words
  let (invocation, leftOver) ← readCommand (tool.argument.getD [])
  match tool.leftOver ++ leftOver with
  | [] => return invocation
  | words => throw (.wrong toolName (.unrecognized words))

end Pipework.Cli
