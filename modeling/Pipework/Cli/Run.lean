import Pipework.Cli.Console
import Pipework.Cli.Input
import Pipework.Cli.Invocation
import Pipework.Line.Parse
import Pipework.Run.Handle

/-!
# Running the tool

Every command ends with an exit code or with a failure that it does not know how to handle.
Running a line reports what is wrong with it, or writes what its pipeline wrote and answers
with the exit code that a shell would report. The interactive command runs line after line
and stops at the end of its input or when it is told to.

## Main definitions

* `runLine` — running the pipeline of one line
* `showSplit` — showing the commands of one line
* `runShell` — running line after line
* `run` — running the tool with a command line
-/

namespace Pipework.Cli

/-- How a command ends: with an exit code, or with a failure that it lets through. -/
abbrev Ending := Except Failure Int

/-- Reports an error, with the name of the tool in front. -/
def Console.report (c : Console) (e : Error) : Console :=
  c.complain (toolName ++ ": " ++ e.message ++ "\n")

/-- Reports the status of every stage, the first of which has the given number. -/
def Console.reportStatuses (c : Console) (index : Nat) : List ExitStatus → Console
  | [] => c
  | s :: ss =>
    (c.complain ("stage " ++ toString index ++ ": " ++ s.describe ++ "\n")).reportStatuses
      (index + 1) ss

/-- Writes what a pipeline wrote, and the statuses if they are asked for. -/
def Console.reportResult (c : Console) (flags : Flags) (r : ExecutionResult) : Console :=
  let c := (c.write r.stdout).writeError r.stderr
  if flags.statuses then c.reportStatuses 0 r.statuses else c

/-- Runs the pipeline of one line. -/
def runLine (flags : Flags) (e : Executor) (line : String) (c : Console) : Ending × Console :=
  match Line.parse line with
  | .error f => (.ok 2, c.report f.error)
  | .ok p =>
    match c.perform (e.run (!flags.noCapture) p) with
    | (.ok r, c) => ((r.exitCode flags.pipefail).mapError .fault, c.reportResult flags r)
    | (.error (.error f), c) =>
      if f.isSpawn then (.ok 127, c.report f)
      else if f.isExecution then (.ok 1, c.report f)
      else (.error (.error f), c)
    | (.error (.fault f), c) => (.error (.fault f), c)

/-- Shows the commands of one line, one below the other. -/
def showSplit (line : String) (c : Console) : Ending × Console :=
  match Line.parse line with
  | .error f => (.ok 2, c.report f.error)
  | .ok p => (.ok 0, c.print (String.join (p.stages.map fun s => s.line ++ "\n")))

/-- What invites the user to write a line. -/
def prompt : String := "apipe> "

/-- The line tells the interactive command to stop. -/
def isQuit (line : String) : Bool := [":q", "exit", "quit"].contains (Text.trim line)

/-- The failure ends the interactive command without harm. -/
def endsShell : Failure → Bool
  | .fault f => f.kind == .endOfInput || f.kind == .interrupt
  | .error _ => false

/-- How the interactive command ends that met a failure. -/
def endingAfter (f : Failure) : Ending := if endsShell f then .ok 0 else .error f

/-- Runs line after line. The exit code of a line does not matter. -/
def runLines (flags : Flags) (e : Executor) (failure : Option Fault) :
    List String → Console → Ending × Console
  | [], c =>
    match failure with
    | none => (.ok 0, c.print prompt)
    | some f => (endingAfter (.fault f), c.print prompt)
  | line :: lines, c =>
    let c := c.print prompt
    if isQuit line then (.ok 0, c)
    else if (Text.trim line).isEmpty then runLines flags e failure lines c
    else
      match runLine flags e line c with
      | (.ok _, c) => runLines flags e failure lines c
      | (.error f, c) => (endingAfter f, c)

/-- Runs the lines of an input until one of them says to stop. -/
def runShell (flags : Flags) (input : Input) (c : Console) : Ending × Console :=
  runLines flags {} input.failure input.lines c

/-- Runs an invocation. -/
def Invocation.run (i : Invocation) (input : Input) (c : Console) : Ending × Console :=
  let c := { c with verbose := i.flags.verbose }.note (.running i.name)
  match i with
  | .exec line flags => runLine flags {} line c
  | .parse line _ => showSplit line c
  | .shell flags => runShell flags input c

/-- Runs the tool with the words of a command line and an input. -/
def run (words : List String) (input : Input) (c : Console) : Ending × Console :=
  match Invocation.ofWords words with
  | .error .help => (.ok 0, c)
  | .error (.wrong command e) => (.ok 2, c.complain (command ++ ": error: " ++ e.message ++ "\n"))
  | .ok i => i.run input c

end Pipework.Cli
