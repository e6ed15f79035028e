import Pipework.Result
import Pipework.Run.Executor

/-!
# Running pipelines

A handle stands for a pipeline that was started. Its captured outputs are read to their ends
as soon as it exists, so that no process has to wait for its reader; waiting for the handle
waits for every process and puts the result together. A result is kept, a failure is not:
after a failure the next wait asks every process again.

## Main definitions

* `Handle` — a started pipeline with what was read from it
* `Handle.open` — the handle of processes that were started
* `Handle.collect` — one pass over all processes
* `Handle.wait` — the result, from the first pass that succeeds
* `Executor.spawn`, `Executor.output` — starting a pipeline, and running it to its end
-/

namespace Pipework

/-- A started pipeline: its processes and their commands, whether its output is captured, what
was read from its outputs, and the result once there is one. -/
structure Handle where
  children : List Child
  argvs : List (List String)
  captured : Bool
  stdout : Bytes := []
  stageStderr : List Bytes := []
  captureErrors : List Error := []
  result : Option ExecutionResult := none
  deriving Repr, DecidableEq

namespace Handle

/-- Reads an output of a process to its end. A drain that ends early is an error after a fault
that is the system's or about a value. The reader lets out any other fault: as a thread of its own
it ends with it, and nobody hears of that; otherwise the fault goes on to where the reader runs. -/
def drain (size : Nat) (child : Child) (o : Output) (label : String) :
    Action World Fault (Bytes × Option Error) := do
  let drained ← World.drainOutput size child.pid o
  match drained.fault with
  | none => return (drained.bytes, none)
  | some f =>
    if f.isSystem || f.isInvalid then
      World.note (.drainFailed label f)
      return (drained.bytes, some (.capture label f))
    else if (← get).machine.threaded then return (drained.bytes, none)
    else throw f

/-- Reads the output of the last stage, which has the given index, if it is captured. -/
def drainStdout (size index : Nat) (child : Child) :
    Action World Fault (Bytes × Option Error) :=
  if child.stdout then drain size child .stdout ("stdout-" ++ toString index)
  else return ([], none)

/-- Reads the error outputs of the stages from the given index on, those that are captured. -/
def drainStderr (size index : Nat) :
    List Child → Action World Fault (List (Bytes × Option Error))
  | [] => return []
  | child :: children => do
    let first ←
      if child.stderr then drain size child .stderr ("stderr-" ++ toString index)
      else pure ([], none)
    return first :: (← drainStderr size (index + 1) children)

/-- The handle of processes that were started, its captured outputs read to their ends. There is
none if a reader fails where it runs, and those that come after it do not run then. -/
def «open» (size : Nat) (captured : Bool) (argvs : List (List String)) (children : List Child) :
    Action World Fault Handle := do
  let (stdout, stdoutError) ←
    match children.getLast? with
    | some child => drainStdout size (children.length - 1) child
    | none => pure ([], none)
  let outputs ← drainStderr size 0 children
  return {
    children, argvs, captured, stdout
    stageStderr := outputs.map (·.1)
    captureErrors := stdoutError.toList ++ outputs.filterMap (·.2) }

/-- Waits for the processes from the given stage on, for every one of them also after a wait
was refused. The answer is the statuses that were had, and the error of the first refusal. -/
def awaitAll (index : Nat) : List Child → Action World Fault (List ExitStatus × Option Error)
  | [] => return ([], none)
  | child :: children => do
    match ← (World.wait child.pid).attempt with
    | .ok code =>
      let status := ExitStatus.ofReturnCode code
      World.note (.finished index child.pid status)
      let (statuses, error) ← awaitAll (index + 1) children
      return (status :: statuses, error)
    | .error f =>
      unless f.isSystem do throw f
      World.note (.waitFailed index child.pid f)
      let (statuses, _) ← awaitAll (index + 1) children
      return (statuses, some (.wait index f))

/-- One pass over all processes: the result, unless a wait or the reading of an output failed. -/
def collect (h : Handle) : Action World Failure ExecutionResult := do
  let (statuses, waitError) ← (awaitAll 0 h.children).mapFailure .fault
  match waitError.or h.captureErrors.head? with
  | some e => throw (.error e)
  | none => return { statuses, stdout := h.stdout, stageStderr := h.stageStderr }

/-- The result, and the handle that keeps it. A pass is made only if there is no result yet. -/
def wait (h : Handle) : StateM World (Except Failure ExecutionResult × Handle) :=
  match h.result with
  | some r => return (.ok r, h)
  | none => do
    match ← h.collect.run with
    | .ok r => return (.ok r, { h with result := some r })
    | .error e => return (.error e, h)

/-- The numbers of the processes. -/
def pids (h : Handle) : List Nat := h.children.map (·.pid)

/-- The handle with its processes and commands shown. -/
def inspect (h : Handle) : String :=
  let commands := " | ".intercalate (h.argvs.map Line.joinWords)
  "<RunningPipeline pids=[" ++ ", ".intercalate (h.pids.map toString) ++ "] " ++
    Text.literal commands ++ ">"

end Handle

namespace Executor

/-- Starts a pipeline, its output captured or not. -/
def spawn (e : Executor) (captured : Bool) (p : Pipeline) : Action World Failure Handle := do
  let children ← e.launch captured p.argvs
  (Handle.open e.chunkSize captured p.argvs children).mapFailure .fault

/-- Runs a pipeline to its end, its output captured or not. -/
def run (e : Executor) (captured : Bool) (p : Pipeline) :
    Action World Failure ExecutionResult := do
  let h ← e.spawn captured p
  let (outcome, _) ← h.wait
  liftExcept outcome
where
  /-- An outcome that is known already. -/
  liftExcept : Except Failure ExecutionResult → Action World Failure ExecutionResult
    | .ok r => return r
    | .error f => throw f

end Executor

end Pipework
