import Pipework.Session.Item

/-!
# Requests

A session is a list of steps over named registers. A step makes something new or asks
something of the item in a register, and it may put the answer into a register. Other items
that a step needs are given as values or by the registers that hold them.

## Main definitions

* `Operand` — a value, or a register
* `Maker` — ways to make something new
* `Query` — what can be asked of an item
* `Request`, `Step` — one step of a session
* `Maker.resolve`, `Query.resolve` — a request with its operands looked up
-/

namespace Pipework

/-- A value, or the register that holds an item. -/
inductive Operand where
  | value (v : Value)
  | register (name : String)

/-- Ways to make something new. Other items that are needed are given as operands of type `ρ`. -/
inductive Maker (ρ : Type) where
  | command (program args : Value)
  | commandOfLine (line : String)
  | pipeline (stages : List ρ)
  | pipelineOfLine (line : String)
  | executor (captureStderr : Bool) (chunkSize : Int)
  | link (index : Int)

/-- What can be asked of an item. Other items that are needed are given as operands of type `ρ`. -/
inductive Query (ρ : Type) where
  -- building
  | arg (value : Value)
  | extend (values : Value)
  | args (values : Value)
  | setProgram (program : Value)
  | addCommand (program : Value)
  | add (x : ρ)
  | combine (x : ρ)
  | pipe (x : ρ)
  | equals (x : ρ)
  | copy
  -- looking
  | argv
  | argvs
  | stages
  | length
  | get (index : Int)
  | line
  | inspect
  -- running, with an executor for a pipeline or a pipeline for an executor
  | spawn (captured : Bool) (partner : Option ρ)
  | output (partner : Option ρ)
  | wait
  | stdout
  | stderr
  | statuses
  | pids
  | stageCount
  | isCaptured
  -- results
  | check (pipefail : Bool)
  | text (codec policy : String)
  | status
  | returnCode
  | success
  | allSucceeded
  | firstFailure
  -- links
  | close
  | closeReader
  | closeWriter
  | isClosed
  /-- A block that uses the item and then leaves it, perhaps with a fault of its own. -/
  | block (raised : Option Fault)

/-- What a step does: make something, or ask something of the item in a register. -/
inductive Request (ρ : Type) where
  | make (maker : Maker ρ)
  | ask (register : String) (query : Query ρ)

/-- One step of a session: what it does, and the register for its answer. -/
structure Step where
  request : Request Operand
  target : Option String := none

variable {ρ τ ε : Type}

/-- The maker with its operands looked up. -/
def Maker.resolve (look : ρ → Except ε τ) : Maker ρ → Except ε (Maker τ)
  | command program args => .ok (.command program args)
  | commandOfLine line => .ok (.commandOfLine line)
  | pipeline stages => return .pipeline (← stages.mapM look)
  | pipelineOfLine line => .ok (.pipelineOfLine line)
  | executor captureStderr chunkSize => .ok (.executor captureStderr chunkSize)
  | link index => .ok (.link index)

/-- The query with its operands looked up. -/
def Query.resolve (look : ρ → Except ε τ) : Query ρ → Except ε (Query τ)
  | add x => return .add (← look x)
  | combine x => return .combine (← look x)
  | pipe x => return .pipe (← look x)
  | equals x => return .equals (← look x)
  | spawn captured none => .ok (.spawn captured none)
  | spawn captured (some x) => return .spawn captured (some (← look x))
  | output none => .ok (.output none)
  | output (some x) => return .output (some (← look x))
  | arg value => .ok (.arg value)
  | extend values => .ok (.extend values)
  | args values => .ok (.args values)
  | setProgram program => .ok (.setProgram program)
  | addCommand program => .ok (.addCommand program)
  | copy => .ok .copy
  | argv => .ok .argv
  | argvs => .ok .argvs
  | stages => .ok .stages
  | length => .ok .length
  | get index => .ok (.get index)
  | line => .ok .line
  | inspect => .ok .inspect
  | wait => .ok .wait
  | stdout => .ok .stdout
  | stderr => .ok .stderr
  | statuses => .ok .statuses
  | pids => .ok .pids
  | stageCount => .ok .stageCount
  | isCaptured => .ok .isCaptured
  | check pipefail => .ok (.check pipefail)
  | text codec policy => .ok (.text codec policy)
  | status => .ok .status
  | returnCode => .ok .returnCode
  | success => .ok .success
  | allSucceeded => .ok .allSucceeded
  | firstFailure => .ok .firstFailure
  | close => .ok .close
  | closeReader => .ok .closeReader
  | closeWriter => .ok .closeWriter
  | isClosed => .ok .isClosed
  | block raised => .ok (.block raised)

end Pipework
