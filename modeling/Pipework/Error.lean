import Pipework.Fault
import Pipework.Line.Flaw
import Pipework.Status

/-!
# Errors

An error is what the library itself refuses: a line that is no pipeline, a builder used out
of turn, a pipeline that could not be run, or a run that failed under the chosen policy.

## Main definitions

* `Error` — the errors, each with what it was about
* `Error.message` — an error in words
* `Error.isParse`, `Error.isExecution` — the two families of errors
* `Line.Flaw.error` — the error that a flaw of a line is reported as
* `Misuse` — the ways to use a builder out of turn
* `Failure` — an error of the library or a fault from outside
-/

namespace Pipework

/-- What kind of thing is wrong with a line. -/
inductive ParseErrorKind where
  | general
  | openQuote
  | emptyCommand
  | emptySegment
  deriving Repr, DecidableEq

/-- What the library itself refuses. -/
inductive Error where
  | general (message : String)
  | parse (kind : ParseErrorKind) (summary : String) (segment position : Option Int)
  | misuse (message : String)
  | execution (message : String)
  | emptyPipeline (message : String)
  /-- The system refused to start a stage. -/
  | spawn (stage : Int) (program : Option String) (cause : Fault)
  /-- The final status of a stage was not to be had. -/
  | wait (stage : Int) (cause : Fault)
  /-- A captured stream was not read to its end. -/
  | capture (stream : String) (cause : Fault)
  /-- A stage ended otherwise than with success. -/
  | unsuccessful (stage : Int) (status : ExitStatus)
  deriving Repr, DecidableEq

namespace Error

/-- The refusal to run a pipeline that has no stages. -/
def noStages : Error := emptyPipeline "Cannot execute a pipeline with no commands"

/-- A stage with its program, if that has a name. -/
def stageLabel (stage : Int) (program : Option String) : String :=
  "stage " ++ toString stage ++
    match program with
    | some name => if name.isEmpty then "" else " (" ++ name ++ ")"
    | none => ""

/-- An error in words. -/
def message : Error → String
  | general message => message
  | parse _ summary _ none => summary
  | parse _ summary _ (some position) => summary ++ " (at position " ++ toString position ++ ")"
  | misuse message => message
  | execution message => message
  | emptyPipeline message => message
  | spawn stage program cause =>
    "Failed to spawn " ++ stageLabel stage program ++ ": " ++ cause.text
  | wait stage cause => "Failed to wait for stage " ++ toString stage ++ ": " ++ cause.text
  | capture stream cause => "Failed to read captured " ++ stream ++ ": " ++ cause.text
  | unsuccessful stage status => "Stage " ++ toString stage ++ " failed: " ++ status.describe

/-- The error is about a line that is no pipeline. -/
def isParse : Error → Bool
  | parse .. => true
  | _ => false

/-- The error is about running a pipeline. -/
def isExecution : Error → Bool
  | execution _ | emptyPipeline _ | spawn .. | wait .. | capture .. | unsuccessful .. => true
  | _ => false

/-- The error is about a stage that was not started. -/
def isSpawn : Error → Bool
  | spawn .. => true
  | _ => false

end Error

namespace Line.Flaw

/-- What kind of thing is wrong. -/
def kind : Flaw → ParseErrorKind
  | openQuote .. => .openQuote
  | strayPipe _ => .general
  | noCommand _ => .emptyCommand
  | emptyProgram _ => .emptyCommand
  | emptySegment .. => .emptySegment

/-- The error that a flaw of a line is reported as. -/
def error (f : Flaw) : Error :=
  .parse f.kind f.summary (some f.segment) (f.position?.map Int.ofNat)

end Line.Flaw

/-- A builder was used in a way that makes no sense; values are named by their kind. -/
inductive Misuse where
  /-- The program of a command is not a name. -/
  | unnamedProgram
  /-- A value of that kind was given as a stage. -/
  | notCommand (kind : String)
  /-- A value of that kind was given to continue a pipeline. -/
  | notCombinable (kind : String)
  /-- Arguments were given before any command. -/
  | noCommand
  deriving Repr, DecidableEq

namespace Misuse

/-- The misuse in words. -/
def message : Misuse → String
  | unnamedProgram => "Command needs a non-empty program name"
  | notCommand kind => "Expected a Command, got " ++ kind
  | notCombinable kind => "Cannot combine a pipeline with " ++ kind
  | noCommand => "No command in pipeline to add arguments to; call add_command first"

/-- The error that a misuse is reported as. -/
def error (m : Misuse) : Error := .misuse m.message

end Misuse

/-- An error of the library, or a fault from outside that it lets through. -/
inductive Failure where
  | error (e : Error)
  | fault (f : Fault)
  deriving Repr, DecidableEq

namespace Failure

/-- The failure in words. -/
def message : Failure → String
  | error e => e.message
  | fault f => f.text

end Failure

end Pipework
