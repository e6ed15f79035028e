import Pipework.Pipeline
import Pipework.Run.Link

/-!
# Starting a pipeline

An executor starts every stage of a pipeline as a process of its own, neighbours joined by a
link. The parent gives up the ends of a link as soon as the process that needs them has
them, so that every stage can meet the end of its input. If a stage cannot be started, what
is still held is given up, and the processes that were started are ended.

## Main definitions

* `Executor` — whether error output is captured, and how much is read at a time
* `Child` — a started process, as its parent knows it
* `Launch` — the links and processes of a start that is under way
* `Launch.startStage`, `Launch.releaseEnds` — what is done before and after a process runs
* `Launch.stage`, `Launch.stages` — starting one stage, and those that follow
* `closeLinks`, `reap` — what is done after a stage was not started
* `Executor.launch` — starting all stages, or none
-/

namespace Pipework

/-- How pipelines are run: whether the error output of the stages is captured, and how many
bytes are read at a time. -/
structure Executor where
  captureStderr : Bool := true
  chunkSize : Nat := 65536
  deriving Repr, DecidableEq

/-- An executor that reads so many bytes at a time, which must be at least one. -/
def Executor.make (captureStderr : Bool) (chunkSize : Int) : Except Fault Executor :=
  if chunkSize ≤ 0 then .error ⟨.invalid, "chunk_size must be positive"⟩
  else .ok { captureStderr, chunkSize := chunkSize.toNat }

/-- What becomes of the output of a pipeline: whether that of the last stage is captured, and
whether the error output of all is. -/
structure Capture where
  stdout : Bool
  stderr : Bool
  deriving Repr, DecidableEq

/-- The captures of an executor. Error output is captured only together with output. -/
def Executor.capture (e : Executor) (output : Bool) : Capture where
  stdout := output
  stderr := output && e.captureStderr

/-- A started process, as its parent knows it: its number, and which outputs it captures. -/
structure Child where
  pid : Nat
  stdout : Bool
  stderr : Bool
  deriving Repr, DecidableEq

/-- A start that is under way: the links, newest first, the processes in the order of the
stages, and the world. -/
structure Launch where
  links : List Link := []
  children : List Child := []
  world : World

namespace Launch

/-- An action on the world, during a start. -/
def call {α : Type} (a : Action World Fault α) (report : Fault → Failure) :
    Action Launch Failure α :=
  .ofFun fun l => let (r, world) := a.outcome l.world; (r.mapError report, { l with world })

/-- Takes a note, during a start. -/
def note (n : Note) : StateM Launch Unit := modify fun l => { l with world := l.world.takeNote n }

/-- The read end of the newest link, if it is held. -/
def newestReader (l : Launch) : Option Nat := l.links.head?.bind (·.reader)

/-- The write end of the newest link, if it is held. -/
def newestWriter (l : Launch) : Option Nat := l.links.head?.bind (·.writer)

/-- Where an end of a link leads. -/
def wiringOf : Option Nat → Wiring
  | some descriptor => .descriptor descriptor
  | none => .inherited

/-- The failure that a stage was not started, because of a fault. -/
def notStarted (stage : Nat) (program : String) (f : Fault) : Failure :=
  .error (.spawn stage (some program) f)

/-- Makes the link between a stage and the next. -/
def openLink (stage : Nat) (program : String) : Action Launch Failure Unit := do
  let link ← call (Link.make stage) fun f =>
    if f.isSystem then notStarted stage program f else .fault f
  modify fun l => { l with links := link :: l.links }

/-- Starts the process of a stage. -/
def startProcess (stage : Nat) (argv : List String) (stdin stdout stderr : Wiring) :
    Action Launch Failure Unit := do
  let pid ← call (World.start argv stdin stdout stderr) fun f =>
    if f.isSystem || f.isInvalid then notStarted stage (argv.headD "") f else .fault f
  let child : Child := { pid, stdout := stdout == .captured, stderr := stderr == .captured }
  modify fun l => { l with children := l.children ++ [child] }
  note (.started stage pid argv)

/-- Gives up the read end of a link, the newest being number zero. -/
def dropReader (n : Nat) : Action Launch Failure Unit := do
  if let some link := (← get).links[n]? then
    modify fun l => { l with links := l.links.modify n Link.withoutReader }
    call link.closeReader .fault

/-- Gives up the write end of a link, the newest being number zero. -/
def dropWriter (n : Nat) : Action Launch Failure Unit := do
  if let some link := (← get).links[n]? then
    modify fun l => { l with links := l.links.modify n Link.withoutWriter }
    call link.closeWriter .fault

/-- Makes the link of a stage to the next one, unless it is the last, and starts its process. -/
def startStage (capture : Capture) (index : Nat) (last : Bool) (argv : List String) :
    Action Launch Failure Unit := do
  let stdin := wiringOf (← get).newestReader
  unless last do openLink index (argv.headD "")
  let stdout ←
    if last then pure (if capture.stdout then Wiring.captured else Wiring.inherited)
    else pure (wiringOf (← get).newestWriter)
  startProcess index argv stdin stdout (if capture.stderr then .captured else .inherited)

/-- Gives up the ends that the process of a stage has now. -/
def releaseEnds (index : Nat) (last : Bool) : Action Launch Failure Unit := do
  unless index == 0 do dropReader (if last then 0 else 1)
  unless last do dropWriter 0

/-- Starts one stage, which may be the last, and gives up what only its process needs. -/
def stage (capture : Capture) (index : Nat) (last : Bool) (argv : List String) :
    Action Launch Failure Unit := do
  startStage capture index last argv
  releaseEnds index last

/-- Starts the stages from the given index on. -/
def stages (capture : Capture) (index : Nat) : List (List String) → Action Launch Failure Unit
  | [] => pure ()
  | argv :: rest => do
    stage capture index rest.isEmpty argv
    stages capture (index + 1) rest

end Launch

/-- Closes what the links still hold, in the given order. A fault does not stop the closing of
the other links; the last one is answered. -/
def closeLinks : List Link → StateM World (Option Fault)
  | [] => return none
  | link :: links => do
    let (fault, _) ← link.close
    let later ← closeLinks links
    return later.or fault

/-- Kills a process; it is fine if it has ended by itself. -/
def killIfRunning (pid : Nat) : Action World Fault Unit := do
  match ← (World.kill pid).attempt with
  | .ok () => pure ()
  | .error f => unless f.kind == .noProcess do throw f

/-- Ends a process that was started for nothing: closes its captured outputs, kills it if it
still runs, and waits for it. -/
def reapChild (index : Nat) (child : Child) : Action World Fault Unit := do
  if child.stdout then World.closeOutput child.pid .stdout
  if child.stderr then World.closeOutput child.pid .stderr
  if (← World.poll child.pid).isNone then
    World.note (.killing index child.pid)
    killIfRunning child.pid
  match ← (World.wait child.pid).attempt with
  | .ok _ => pure ()
  | .error f => if f.isSystem then World.note (.notReaped index child.pid f) else throw f

/-- Ends processes that were started for nothing, the first of which runs the given stage. -/
def reap (index : Nat) : List Child → Action World Fault Unit
  | [] => pure ()
  | child :: children => do
    reapChild index child
    reap (index + 1) children

/-- Undoes a start that failed: gives up the links, then the processes. A fault in this takes
the place of the failure. -/
def abandon {α : Type} (l : Launch) (failure : Failure) : Action World Failure α := do
  if let some f ← closeLinks l.links then throw (.fault f)
  if let .error e := failure then
    if e.isSpawn then World.note (.givenUp e l.children.length)
  (reap 0 l.children).mapFailure .fault
  throw failure

/-- Starts all stages, or none. -/
def Executor.launch (e : Executor) (output : Bool) (argvs : List (List String)) :
    Action World Failure (List Child) := do
  if argvs.isEmpty then throw (.error .noStages)
  let (outcome, l) := (Launch.stages (e.capture output) 0 argvs).outcome { world := ← get }
  set l.world
  match outcome with
  | .error failure => abandon l failure
  | .ok () =>
    if let some f ← closeLinks l.links then throw (.fault f)
    return l.children

end Pipework
