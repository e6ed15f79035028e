import Pipework.Error
import Pipework.Line.Quoting

/-!
# Notes

While pipelines are run, notes are taken of what happens. Each note has a level, comes from one
part of the library, and has a text.

## Main definitions

* `Note` — what can be noted
* `Note.level`, `Note.source`, `Note.message` — the parts of a note
* `Note.render` — a note on one line
-/

namespace Pipework

/-- How much a note matters. -/
inductive Note.Level where
  | debug
  | warning
  deriving Repr, DecidableEq

/-- The name of a level. -/
def Note.Level.name : Note.Level → String
  | debug => "DEBUG"
  | warning => "WARNING"

/-- What happened while pipelines were run. -/
inductive Note where
  /-- A command of the command line begins. -/
  | running (command : String)
  | readerClosed (link : Int) (descriptor : Nat)
  | writerClosed (link : Int) (descriptor : Nat)
  | started (stage pid : Nat) (argv : List String)
  /-- A stage was not started, and the ones before it are given up. -/
  | givenUp (error : Error) (count : Nat)
  | killing (stage pid : Nat)
  | notReaped (stage pid : Nat) (fault : Fault)
  | drainFailed (stream : String) (fault : Fault)
  | waitFailed (stage pid : Nat) (fault : Fault)
  | finished (stage pid : Nat) (status : ExitStatus)
  deriving Repr, DecidableEq

namespace Note

/-- Faults that a run gets over are warnings. -/
def level : Note → Level
  | givenUp .. | notReaped .. | drainFailed .. | waitFailed .. => .warning
  | _ => .debug

/-- The part of the library that a note comes from. -/
def source : Note → String
  | running _ => "apipe.cli"
  | readerClosed .. | writerClosed .. => "apipe.runner.links"
  | _ => "apipe.runner.core"

/-- A stage with the process that runs it. -/
def stageName (stage pid : Nat) : String :=
  "stage " ++ toString stage ++ " (pid " ++ toString pid ++ ")"

/-- The text of a note. -/
def message : Note → String
  | running command => "running " ++ command
  | readerClosed link descriptor =>
    "closed read end of pipe " ++ toString link ++ " (fd " ++ toString descriptor ++ ")"
  | writerClosed link descriptor =>
    "closed write end of pipe " ++ toString link ++ " (fd " ++ toString descriptor ++ ")"
  | started stage pid argv => "spawned " ++ stageName stage pid ++ ": " ++ Line.joinWords argv
  | givenUp error count =>
    error.message ++ "; reaping " ++ toString count ++ " started stage(s)"
  | killing stage pid => "killing " ++ stageName stage pid
  | notReaped stage pid fault => "could not reap " ++ stageName stage pid ++ ": " ++ fault.text
  | drainFailed stream fault => "error draining " ++ stream ++ ": " ++ fault.text
  | waitFailed stage pid fault => "wait failed for " ++ stageName stage pid ++ ": " ++ fault.text
  | finished stage pid status => stageName stage pid ++ " finished: " ++ status.describe

/-- A note on one line, its parts set apart by the separator. -/
def render (separator : String) (n : Note) : String :=
  n.level.name ++ separator ++ n.source ++ separator ++ n.message

end Note

end Pipework
