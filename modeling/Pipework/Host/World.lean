import Pipework.Host.Machine
import Pipework.Host.Note

/-!
# The world

The world is the system as a program that runs pipelines meets it: it answers the calls that
the program makes, as its machine decides, and keeps record of them. Every call is an action
on the world that may fail; what was done before a failure stays done.

## Main definitions

* `Action` — what is done to a state and may fail
* `Wiring` — where a standard stream of a process leads
* `Call` — the calls that are on record
* `Process`, `World` — processes that were started, and the state of everything
* `World.piped`, `World.closed`, `World.started` — the world after a call
* `World.pipe`, `World.close`, `World.start`, `World.wait`, `World.poll`, `World.kill` — the
  calls to the system
* `World.closeOutput`, `World.drainOutput` — what is done with captured streams
* `World.note` — taking a note

## Main results

* `Action.outcome_bind` — actions follow one another from state to state
* `World.outcome_pipe_of_none`, `World.outcome_close_of_none`, `World.outcome_start_of_ok` — the
  outcome of a call that the machine lets succeed, and likewise of one that it does not
-/

namespace Pipework

/-- What is done to a state. It may fail, and what it did before stays done. -/
abbrev Action (σ ε α : Type) := ExceptT ε (StateM σ) α

namespace Action

variable {σ ε α : Type}

/-- An action given as a function of the state. -/
def ofFun (f : σ → Except ε α × σ) : Action σ ε α := ExceptT.mk f

/-- The outcome of an action, and the state after it. -/
def outcome (a : Action σ ε α) (s : σ) : Except ε α × σ := a.run s

/-- An action that goes on after its failure, which it answers instead. -/
def attempt {δ : Type} (a : Action σ ε α) : Action σ δ (Except ε α) := ExceptT.lift a.run

/-- An action whose failures are reported in another form. -/
def mapFailure {δ : Type} (f : ε → δ) (a : Action σ ε α) : Action σ δ α :=
  ofFun fun s => let (r, s) := a.outcome s; (r.mapError f, s)

@[simp] theorem outcome_ofFun (f : σ → Except ε α × σ) (s : σ) : (ofFun f).outcome s = f s := rfl

@[simp] theorem outcome_pure (a : α) (s : σ) :
    (pure a : Action σ ε α).outcome s = (.ok a, s) := rfl

@[simp] theorem outcome_throw (e : ε) (s : σ) :
    (throw e : Action σ ε α).outcome s = (.error e, s) := rfl

@[simp] theorem outcome_get (s : σ) : (get : Action σ ε σ).outcome s = (.ok s, s) := rfl

@[simp] theorem outcome_modify (f : σ → σ) (s : σ) :
    (modify f : Action σ ε PUnit).outcome s = (.ok ⟨⟩, f s) := rfl

@[simp] theorem outcome_set (t s : σ) : (set t : Action σ ε PUnit).outcome s = (.ok ⟨⟩, t) := rfl

/-- What cannot fail does not fail as part of an action. -/
@[simp] theorem outcome_liftM (a : StateM σ α) (s : σ) :
    (liftM a : Action σ ε α).outcome s = (.ok (a.run s).1, (a.run s).2) := rfl

/-- An action goes on from where the one before it stopped, unless that one failed. -/
theorem outcome_bind {β : Type} (a : Action σ ε α) (f : α → Action σ ε β) (s : σ) :
    (a >>= f).outcome s =
      match a.outcome s with
      | (.ok x, t) => (f x).outcome t
      | (.error e, t) => (.error e, t) := by
  change ExceptT.bindCont f (a.outcome s).1 (a.outcome s).2 = _
  unfold outcome
  rcases a.run s with ⟨_ | _, t⟩ <;> rfl

/-- What follows an action that succeeds starts in its state. -/
theorem outcome_bind_of_ok {β : Type} {a : Action σ ε α} {f : α → Action σ ε β} {s t : σ} {x : α}
    (h : a.outcome s = (.ok x, t)) : (a >>= f).outcome s = (f x).outcome t := by
  rw [outcome_bind, h]

/-- What follows an action that fails is not done. -/
theorem outcome_bind_of_error {β : Type} {a : Action σ ε α} {f : α → Action σ ε β}
    {s t : σ} {e : ε} (h : a.outcome s = (.error e, t)) : (a >>= f).outcome s = (.error e, t) := by
  rw [outcome_bind, h]

/-- What is made of an answer changes nothing in a failure. -/
theorem outcome_bind_pure {β : Type} (a : Action σ ε α) (g : α → β) (s : σ) :
    (a >>= fun x => pure (g x)).outcome s = ((a.outcome s).1.map g, (a.outcome s).2) := by
  rw [outcome_bind]
  rcases a.outcome s with ⟨_ | _, t⟩ <;> rfl

/-- If all succeeds, then so does what comes first. -/
theorem outcome_bind_eq_ok_iff {β : Type} {a : Action σ ε α} {f : α → Action σ ε β} {s t : σ}
    {y : β} :
    (a >>= f).outcome s = (.ok y, t) ↔
      ∃ x u, a.outcome s = (.ok x, u) ∧ (f x).outcome u = (.ok y, t) := by
  rw [outcome_bind]
  rcases a.outcome s with ⟨_ | x, u⟩
  · simp
  · exact ⟨fun h => ⟨x, u, rfl, h⟩, by rintro ⟨_, _, ⟨rfl, rfl⟩, h⟩; exact h⟩

/-- What follows something that cannot fail starts in its state. -/
theorem run_bind_of_eq {β : Type} {a : StateM σ α} {f : α → StateM σ β} {s t : σ} {x : α}
    (h : a.run s = (x, t)) : (a >>= f).run s = (f x).run t := by
  rw [StateT.run_bind, h]
  rfl

@[simp] theorem outcome_attempt {δ : Type} (a : Action σ ε α) (s : σ) :
    (a.attempt : Action σ δ (Except ε α)).outcome s = (.ok (a.outcome s).1, (a.outcome s).2) := rfl

@[simp] theorem outcome_mapFailure {δ : Type} (f : ε → δ) (a : Action σ ε α) (s : σ) :
    (a.mapFailure f).outcome s = ((a.outcome s).1.mapError f, (a.outcome s).2) := rfl

end Action

/-- Where a standard stream of a process leads: where that of the parent leads, to a pipe end
with that descriptor, or to the parent, which captures it. -/
inductive Wiring where
  | inherited
  | descriptor (n : Nat)
  | captured
  deriving Repr, DecidableEq

/-- The two streams that a process writes. -/
inductive Output where
  | stdout
  | stderr
  deriving Repr, DecidableEq

/-- A call to the system, as it is kept on record. -/
inductive Call where
  | pipe (reader writer : Nat)
  | pipeFailed
  | close (descriptor : Nat)
  | start (argv : List String) (stdin stdout stderr : Wiring)
  | wait (pid : Nat)
  | poll (pid : Nat)
  | kill (pid : Nat)
  deriving Repr, DecidableEq

/-- A process that was started: what it will answer from now on, how its streams are wired, and
what was done with those that are captured. -/
structure Process where
  conduct : Conduct
  stdin : Wiring
  stdout : Wiring
  stderr : Wiring
  stdoutEvents : List Stream.Event := []
  stderrEvents : List Stream.Event := []
  deriving Repr, DecidableEq

namespace Process

/-- Where an output of the process leads. -/
def wiring (p : Process) : Output → Wiring
  | .stdout => p.stdout
  | .stderr => p.stderr

/-- What was done with an output of the process. -/
def events (p : Process) : Output → List Stream.Event
  | .stdout => p.stdoutEvents
  | .stderr => p.stderrEvents

/-- The output of a process, as a stream. -/
def stream (p : Process) : Output → Stream
  | .stdout => p.conduct.stdout
  | .stderr => p.conduct.stderr

/-- The process after something more was done with an output. -/
def record (p : Process) (o : Output) (events : List Stream.Event) : Process :=
  match o with
  | .stdout => { p with stdoutEvents := p.stdoutEvents ++ events }
  | .stderr => { p with stderrEvents := p.stderrEvents ++ events }

end Process

/-- The state of everything: the machine, how many calls of each sort were made and how many
pipes came of them, the processes in the order of their start, and the records. -/
structure World where
  machine : Machine
  pipeCalls : Nat := 0
  closeCalls : Nat := 0
  startCalls : Nat := 0
  pipes : Nat := 0
  processes : List Process := []
  calls : List Call := []
  notes : List Note := []

namespace World

/-- The number of the first process. -/
def firstPid : Nat := 1000

/-- The world with one more call on record. -/
def log (w : World) (c : Call) : World := { w with calls := w.calls ++ [c] }

/-- The world with one more note taken. -/
def takeNote (w : World) (n : Note) : World := { w with notes := w.notes ++ [n] }

/-- The process with that number. -/
def process? (w : World) (pid : Nat) : Option Process :=
  if pid < firstPid then none else w.processes[pid - firstPid]?

/-- The world with a process changed. -/
def change (w : World) (pid : Nat) (f : Process → Process) : World :=
  { w with processes := w.processes.modify (pid - firstPid) f }

/-- The write end of the pipe with that read end. -/
def writerOf? (w : World) (reader : Nat) : Option Nat :=
  ((List.range w.pipes).find? (w.machine.descriptors.reader · == reader)).map
    w.machine.descriptors.writer

/-- The bytes that a process will find on a standard input that is wired so: what the process
that writes into the same pipe writes. -/
def inputOf (w : World) : Wiring → Bytes
  | .descriptor reader =>
    match (w.writerOf? reader).bind fun d => w.processes.find? (·.stdout == .descriptor d) with
    | some p => p.conduct.piped
    | none => []
  | _ => []

/-- What was done with every captured output of every process, in order. -/
def capturedEvents (w : World) : List (Nat × Output × List Stream.Event) :=
  w.processes.zipIdx.flatMap fun (p, i) =>
    ([.stdout, .stderr].filter fun o => p.wiring o == .captured).map fun o =>
      (firstPid + i, o, p.events o)

@[simp] theorem calls_log (w : World) (c : Call) : (w.log c).calls = w.calls ++ [c] := rfl

@[simp] theorem calls_takeNote (w : World) (n : Note) : (w.takeNote n).calls = w.calls := rfl

@[simp] theorem notes_takeNote (w : World) (n : Note) :
    (w.takeNote n).notes = w.notes ++ [n] := rfl

@[simp] theorem calls_change (w : World) (pid : Nat) (f : Process → Process) :
    (w.change pid f).calls = w.calls := by
  unfold change
  rfl

/-- A change of a process starts none and ends none. -/
@[simp] theorem length_processes_change (w : World) (pid : Nat) (f : Process → Process) :
    (w.change pid f).processes.length = w.processes.length := by
  simp [change]

/-- Takes a note. -/
def note (n : Note) : StateM World Unit := modify (·.takeNote n)

/-- The read end of the next pipe. -/
def nextReader (w : World) : Nat := w.machine.descriptors.reader w.pipes

/-- The write end of the next pipe. -/
def nextWriter (w : World) : Nat := w.machine.descriptors.writer w.pipes

/-- The number of the next process. -/
def nextPid (w : World) : Nat := firstPid + w.processes.length

/-- The world after the next pipe was made. -/
def piped (w : World) : World :=
  { w with pipeCalls := w.pipeCalls + 1, pipes := w.pipes + 1 }.log
    (.pipe w.nextReader w.nextWriter)

/-- The world after a pipe was asked for in vain. -/
def unpiped (w : World) : World := { w with pipeCalls := w.pipeCalls + 1 }.log .pipeFailed

/-- The world after a descriptor was passed to a close, whatever came of it. -/
def closed (w : World) (descriptor : Nat) : World :=
  { w with closeCalls := w.closeCalls + 1 }.log (.close descriptor)

/-- The world after a start was refused. -/
def unstarted (w : World) (argv : List String) (stdin stdout stderr : Wiring) : World :=
  { w with startCalls := w.startCalls + 1 }.log (.start argv stdin stdout stderr)

/-- The world after a process was started, which behaves as it does for the bytes that it finds on
its input. -/
def started (w : World) (argv : List String) (stdin stdout stderr : Wiring)
    (conduct : Bytes → Conduct) : World :=
  let p : Process := { conduct := conduct (w.inputOf stdin), stdin, stdout, stderr }
  { w.unstarted argv stdin stdout stderr with processes := w.processes ++ [p] }

/-- Makes a pipe; its two ends have the next two descriptors, which are never used again. -/
def pipe : Action World Fault (Nat × Nat) := .ofFun fun w =>
  match w.machine.pipeFailure w.pipeCalls with
  | some f => (.error f, w.unpiped)
  | none => (.ok (w.nextReader, w.nextWriter), w.piped)

theorem outcome_pipe_of_none {w : World} (h : w.machine.pipeFailure w.pipeCalls = none) :
    pipe.outcome w = (.ok (w.nextReader, w.nextWriter), w.piped) := by
  simp only [pipe, Action.outcome_ofFun, h]

theorem outcome_pipe_of_some {w : World} {f : Fault}
    (h : w.machine.pipeFailure w.pipeCalls = some f) :
    pipe.outcome w = (.error f, w.unpiped) := by
  simp only [pipe, Action.outcome_ofFun, h]

/-- Closes a descriptor. -/
def close (descriptor : Nat) : Action World Fault Unit := .ofFun fun w =>
  match w.machine.closeFailure w.closeCalls with
  | some f => (.error f, w.closed descriptor)
  | none => (.ok (), w.closed descriptor)

theorem outcome_close_of_none {w : World} (h : w.machine.closeFailure w.closeCalls = none)
    (descriptor : Nat) : (close descriptor).outcome w = (.ok (), w.closed descriptor) := by
  simp only [close, Action.outcome_ofFun, h]

theorem outcome_close_of_some {w : World} {f : Fault}
    (h : w.machine.closeFailure w.closeCalls = some f) (descriptor : Nat) :
    (close descriptor).outcome w = (.error f, w.closed descriptor) := by
  simp only [close, Action.outcome_ofFun, h]

/-- Starts a process and answers its number. -/
def start (argv : List String) (stdin stdout stderr : Wiring) : Action World Fault Nat :=
  .ofFun fun w =>
    match w.machine.start w.startCalls argv with
    | .error f => (.error f, w.unstarted argv stdin stdout stderr)
    | .ok conduct => (.ok w.nextPid, w.started argv stdin stdout stderr conduct)

theorem outcome_start_of_ok {w : World} {argv : List String} {conduct : Bytes → Conduct}
    (h : w.machine.start w.startCalls argv = .ok conduct) (stdin stdout stderr : Wiring) :
    (start argv stdin stdout stderr).outcome w =
      (.ok w.nextPid, w.started argv stdin stdout stderr conduct) := by
  simp only [start, Action.outcome_ofFun, h]

theorem outcome_start_of_error {w : World} {argv : List String} {f : Fault}
    (h : w.machine.start w.startCalls argv = .error f) (stdin stdout stderr : Wiring) :
    (start argv stdin stdout stderr).outcome w =
      (.error f, w.unstarted argv stdin stdout stderr) := by
  simp only [start, Action.outcome_ofFun, h]

/-- Waits for a process to end and answers its return code. -/
def wait (pid : Nat) : Action World Fault Int := .ofFun fun w =>
  let w := w.log (.wait pid)
  match w.process? pid with
  | none => (.ok 0, w)
  | some p =>
    let w := w.change pid fun p =>
      { p with conduct := { p.conduct with waits := p.conduct.waits.tail } }
    match p.conduct.waits.head?.join with
    | some f => (.error f, w)
    | none => (.ok p.conduct.returnCode, w)

/-- Asks whether a process has ended, and with which return code. -/
def poll (pid : Nat) : Action World Fault (Option Int) := .ofFun fun w =>
  let w := w.log (.poll pid)
  match w.process? pid with
  | none => (.ok none, w)
  | some p =>
    let w := w.change pid fun p =>
      { p with conduct := { p.conduct with polls := p.conduct.polls.tail } }
    (.ok p.conduct.polls.head?.join, w)

/-- Kills a process. -/
def kill (pid : Nat) : Action World Fault Unit := .ofFun fun w =>
  let w := w.log (.kill pid)
  match (w.process? pid).bind (·.conduct.killFailure) with
  | some f => (.error f, w)
  | none => (.ok (), w)

/-- Closes an output of a process, if it is captured. -/
def closeOutput (pid : Nat) (o : Output) : Action World Fault Unit := .ofFun fun w =>
  match w.process? pid with
  | none => (.ok (), w)
  | some p =>
    if p.wiring o == .captured then
      let w := w.change pid (·.record o [.close])
      match (p.stream o).closeFailure with
      | some f => (.error f, w)
      | none => (.ok (), w)
    else (.ok (), w)

/-- Reads an output of a process to its end, `size` bytes at a time, and closes it. -/
def drainOutput (size pid : Nat) (o : Output) : StateM World Stream.Drained := fun w =>
  match w.process? pid with
  | none => (⟨[], [], none⟩, w)
  | some p =>
    let drained := (p.stream o).drain size
    (drained, w.change pid (·.record o drained.events))

end World

end Pipework
