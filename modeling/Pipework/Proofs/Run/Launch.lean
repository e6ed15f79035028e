import Pipework.Run.Executor

/-!
# The steps of a start

A start goes through four kinds of steps: it makes a link, starts a process, and gives up a read
end or a write end. This file says what each of them does to a start that is under way, if the
system lets it succeed, and what comes of a link or a process that the system refuses.

## Main definitions

* `Launch.linked`, `Launch.unlinked` — a start after the next link was made, or refused
* `Launch.joined`, `Launch.refused` — a start after the next process was started, or refused
* `Launch.dropped` — a start after an end of a link was given up
* `Launch.dropEnd` — giving up an end of a link, whichever it is

## Main results

* `Launch.outcome_openLink_of_none`, `Launch.outcome_startProcess_of_ok`,
  `Launch.outcome_dropReader_of_none`, `Launch.outcome_dropWriter_of_none` — the four steps
* `Launch.outcome_startStage_last`, `Launch.outcome_startStage_of_none` — how a stage is started
* `Launch.outcome_startStage_last_of_error`, `Launch.outcome_startStage_of_some`,
  `Launch.outcome_startStage_of_error` — how a stage is refused
* `closeLinks_of_forall_isClosed` — links that hold nothing are closed without a call
-/

namespace Pipework

namespace Launch

variable {l : Launch}

@[simp] theorem outcome_call {α : Type} (a : Action World Fault α) (report : Fault → Failure)
    (l : Launch) :
    (call a report).outcome l =
      ((a.outcome l.world).1.mapError report, { l with world := (a.outcome l.world).2 }) := rfl

/-- A start after the next link was made, between the given stage and the one that follows. -/
def linked (l : Launch) (stage : Nat) : Launch :=
  { l with
    links := ⟨stage, some l.world.nextReader, some l.world.nextWriter⟩ :: l.links
    world := l.world.piped }

/-- A start after the process of a stage was started. -/
def joined (l : Launch) (stage : Nat) (argv : List String) (stdin stdout stderr : Wiring)
    (conduct : Bytes → Conduct) : Launch :=
  { l with
    children := l.children ++ [⟨l.world.nextPid, stdout == .captured, stderr == .captured⟩]
    world := (l.world.started argv stdin stdout stderr conduct).takeNote
      (.started stage l.world.nextPid argv) }

/-- A start after the next link was refused. -/
def unlinked (l : Launch) : Launch := { l with world := l.world.unpiped }

/-- A start after the process of a stage was refused. -/
def refused (l : Launch) (argv : List String) (stdin stdout stderr : Wiring) : Launch :=
  { l with world := l.world.unstarted argv stdin stdout stderr }

/-- The failure that a stage gets no link, because of a fault. -/
def linkFailure (stage : Nat) (program : String) (f : Fault) : Failure :=
  if f.isSystem then notStarted stage program f else .fault f

/-- The failure that a stage gets no process, because of a fault. -/
def processFailure (stage : Nat) (program : String) (f : Fault) : Failure :=
  if f.isSystem || f.isInvalid then notStarted stage program f else .fault f

/-- A start after an end of a link was given up, which the link is left without. -/
def dropped (l : Launch) (n : Nat) (left : Link → Link) (descriptor : Nat) (taken : Note) :
    Launch :=
  { l with
    links := l.links.modify n left
    world := (l.world.closed descriptor).takeNote taken }

/-- Gives up an end of a link, the newest being number zero. -/
def dropEnd (n : Nat) (left : Link → Link) (close : Link → Action World Fault Unit) :
    Action Launch Failure Unit := do
  if let some link := (← get).links[n]? then
    modify fun l => { l with links := l.links.modify n left }
    call (close link) .fault

theorem dropReader_eq (n : Nat) :
    dropReader n = dropEnd n Link.withoutReader Link.closeReader := rfl

theorem dropWriter_eq (n : Nat) :
    dropWriter n = dropEnd n Link.withoutWriter Link.closeWriter := rfl

section DropEnd

variable {n : Nat} {link : Link} {left : Link → Link} {close : Link → Action World Fault Unit}

theorem outcome_dropEnd_of_some (hnewest : l.links[n]? = some link) :
    (dropEnd n left close).outcome l =
      (((close link).outcome l.world).1.mapError .fault,
        { l with links := l.links.modify n left, world := ((close link).outcome l.world).2 }) := by
  simp only [dropEnd, Action.outcome_bind, Action.outcome_get, hnewest, Action.outcome_modify,
    outcome_call]

theorem outcome_dropEnd_of_none (hmissing : l.links[n]? = none) :
    (dropEnd n left close).outcome l = (.ok (), l) := by
  simp only [dropEnd, Action.outcome_bind, Action.outcome_get, hmissing]
  rfl

end DropEnd

theorem outcome_openLink_of_none (h : l.world.machine.pipeFailure l.world.pipeCalls = none)
    (stage : Nat) (program : String) :
    (openLink stage program).outcome l = (.ok (), l.linked stage) := by
  have hmade : (Link.make stage).outcome l.world =
      (.ok ⟨stage, some l.world.nextReader, some l.world.nextWriter⟩, l.world.piped) := by
    rw [Link.make, Action.outcome_bind_of_ok (World.outcome_pipe_of_none h)]
    rfl
  rw [openLink, Action.outcome_bind, outcome_call, hmade]
  rfl

theorem outcome_openLink_of_some {f : Fault}
    (h : l.world.machine.pipeFailure l.world.pipeCalls = some f) (stage : Nat) (program : String) :
    (openLink stage program).outcome l = (.error (linkFailure stage program f), l.unlinked) := by
  have hmade : (Link.make stage).outcome l.world = (.error f, l.world.unpiped) := by
    rw [Link.make, Action.outcome_bind_of_error (World.outcome_pipe_of_some h)]
  rw [openLink, Action.outcome_bind, outcome_call, hmade]
  rfl

theorem outcome_startProcess_of_ok {argv : List String} {conduct : Bytes → Conduct}
    (h : l.world.machine.start l.world.startCalls argv = .ok conduct) (stage : Nat)
    (stdin stdout stderr : Wiring) :
    (startProcess stage argv stdin stdout stderr).outcome l =
      (.ok (), l.joined stage argv stdin stdout stderr conduct) := by
  rw [startProcess, Action.outcome_bind, outcome_call, World.outcome_start_of_ok h]
  rfl

theorem outcome_startProcess_of_error {argv : List String} {f : Fault}
    (h : l.world.machine.start l.world.startCalls argv = .error f) (stage : Nat)
    (stdin stdout stderr : Wiring) :
    (startProcess stage argv stdin stdout stderr).outcome l =
      (.error (processFailure stage (argv.headD "") f), l.refused argv stdin stdout stderr) := by
  rw [startProcess, Action.outcome_bind, outcome_call, World.outcome_start_of_error h]
  rfl

theorem outcome_dropReader_of_none {n descriptor : Nat} {link : Link}
    (hnewest : l.links[n]? = some link) (hheld : link.reader = some descriptor)
    (h : l.world.machine.closeFailure l.world.closeCalls = none) :
    (dropReader n).outcome l =
      (.ok (),
        l.dropped n Link.withoutReader descriptor (.readerClosed link.index descriptor)) := by
  have hgiven : link.closeReader.outcome l.world =
      (.ok (), (l.world.closed descriptor).takeNote (.readerClosed link.index descriptor)) := by
    rw [Link.closeReader, hheld]
    exact Action.outcome_bind_of_ok (World.outcome_close_of_none h descriptor)
  rw [dropReader_eq, outcome_dropEnd_of_some hnewest, hgiven]
  rfl

theorem outcome_dropWriter_of_none {n descriptor : Nat} {link : Link}
    (hnewest : l.links[n]? = some link) (hheld : link.writer = some descriptor)
    (h : l.world.machine.closeFailure l.world.closeCalls = none) :
    (dropWriter n).outcome l =
      (.ok (),
        l.dropped n Link.withoutWriter descriptor (.writerClosed link.index descriptor)) := by
  have hgiven : link.closeWriter.outcome l.world =
      (.ok (), (l.world.closed descriptor).takeNote (.writerClosed link.index descriptor)) := by
    rw [Link.closeWriter, hheld]
    exact Action.outcome_bind_of_ok (World.outcome_close_of_none h descriptor)
  rw [dropWriter_eq, outcome_dropEnd_of_some hnewest, hgiven]
  rfl

/-- The last stage is started without a link behind it. -/
theorem outcome_startStage_last {argv : List String} {conduct : Bytes → Conduct}
    (h : l.world.machine.start l.world.startCalls argv = .ok conduct) (capture : Capture)
    (stage : Nat) :
    (startStage capture stage true argv).outcome l =
      (.ok (), l.joined stage argv (wiringOf l.newestReader)
        (if capture.stdout then .captured else .inherited)
        (if capture.stderr then .captured else .inherited) conduct) := by
  simp only [startStage, Action.outcome_bind, Action.outcome_get, if_true, Action.outcome_pure,
    outcome_startProcess_of_ok h]

/-- Every other stage is started with a new link behind it, into which it writes. -/
theorem outcome_startStage_of_none {argv : List String} {conduct : Bytes → Conduct}
    (hpipe : l.world.machine.pipeFailure l.world.pipeCalls = none)
    (hstart : l.world.machine.start l.world.startCalls argv = .ok conduct) (capture : Capture)
    (stage : Nat) :
    (startStage capture stage false argv).outcome l =
      (.ok (), (l.linked stage).joined stage argv (wiringOf l.newestReader)
        (.descriptor l.world.nextWriter)
        (if capture.stderr then .captured else .inherited) conduct) := by
  have hstart' : (l.linked stage).world.machine.start (l.linked stage).world.startCalls argv =
      .ok conduct := hstart
  simp only [startStage, Action.outcome_bind, Action.outcome_get, Bool.false_eq_true, if_false,
    Action.outcome_pure, outcome_openLink_of_none hpipe, outcome_startProcess_of_ok hstart']
  rfl

/-- The process of the last stage is refused. -/
theorem outcome_startStage_last_of_error {argv : List String} {f : Fault}
    (h : l.world.machine.start l.world.startCalls argv = .error f) (capture : Capture)
    (stage : Nat) :
    (startStage capture stage true argv).outcome l =
      (.error (processFailure stage (argv.headD "") f), l.refused argv (wiringOf l.newestReader)
        (if capture.stdout then .captured else .inherited)
        (if capture.stderr then .captured else .inherited)) := by
  simp only [startStage, Action.outcome_bind, Action.outcome_get, if_true, Action.outcome_pure,
    outcome_startProcess_of_error h]

/-- The link of any other stage is refused, and no process is asked for. -/
theorem outcome_startStage_of_some {f : Fault}
    (h : l.world.machine.pipeFailure l.world.pipeCalls = some f) (capture : Capture)
    (stage : Nat) (argv : List String) :
    (startStage capture stage false argv).outcome l =
      (.error (linkFailure stage (argv.headD "") f), l.unlinked) := by
  simp only [startStage, Action.outcome_bind, Action.outcome_get, Bool.false_eq_true, if_false,
    outcome_openLink_of_some h]

/-- The process of any other stage is refused after its link was made. -/
theorem outcome_startStage_of_error {argv : List String} {f : Fault}
    (hpipe : l.world.machine.pipeFailure l.world.pipeCalls = none)
    (hstart : l.world.machine.start l.world.startCalls argv = .error f) (capture : Capture)
    (stage : Nat) :
    (startStage capture stage false argv).outcome l =
      (.error (processFailure stage (argv.headD "") f),
        (l.linked stage).refused argv (wiringOf l.newestReader) (.descriptor l.world.nextWriter)
          (if capture.stderr then .captured else .inherited)) := by
  have hstart' : (l.linked stage).world.machine.start (l.linked stage).world.startCalls argv =
      .error f := hstart
  simp only [startStage, Action.outcome_bind, Action.outcome_get, Bool.false_eq_true, if_false,
    Action.outcome_pure, outcome_openLink_of_none hpipe, outcome_startProcess_of_error hstart']
  rfl

end Launch

theorem run_closeLinks_cons (link : Link) (links : List Link) (w : World) :
    (closeLinks (link :: links)).run w =
      let (first, w) := link.close.run w
      let (later, w) := (closeLinks links).run w
      (later.or first.1, w) := rfl

/-- Links that hold nothing are closed without a call. -/
theorem closeLinks_of_forall_isClosed {links : List Link}
    (h : ∀ link ∈ links, link.isClosed = true) (w : World) :
    (closeLinks links).run w = (none, w) := by
  induction links with
  | nil => rfl
  | cons link links ih =>
    have hheld : link.reader = none ∧ link.writer = none := by
      simpa [Link.isClosed] using h link List.mem_cons_self
    have hclosed : link.close.run w = ((none, link.withoutWriter.withoutReader), w) := by
      simp only [Link.close, Link.closeWriter, Link.closeReader, hheld]
      rfl
    have hlater := ih fun link hmem => h link (List.mem_cons_of_mem _ hmem)
    simp only [run_closeLinks_cons, hclosed, hlater, Option.or_none]

end Pipework
