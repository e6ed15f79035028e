import Pipework.Proofs.Run.Concern
import Pipework.Proofs.Run.SideBySide

/-!
# Worlds side by side

Two worlds are side by side if they give the same answers to all calls, as far as the parent can
tell: their processes may write in another way, and their outputs may lead elsewhere, but only so
that it does not show in what is read. Every call leaves such worlds side by side.

## Main definitions

* `Tandem` — which streams and outputs correspond
* `Tandem.Conducts`, `Tandem.Machines`, `Tandem.Processes`, `Tandem.Calls`, `Tandem.Worlds` — what
  is the same but for streams and wirings that correspond

## Main results

* `Tandem.Worlds.inputOf` — a process finds the same on its input
* `Tandem.matches_pipe`, `Tandem.matches_close`, `Tandem.matches_start`, `Tandem.matches_wait`,
  `Tandem.matches_poll`, `Tandem.matches_kill` — the calls
* `Tandem.matches_closeCaptured`, `Tandem.matches_drain` — what is done with outputs
* `Tandem.accord` — runs in worlds that are side by side
-/

namespace Pipework

/-- What corresponds in two runs: besides their outputs, the streams that processes write. The
differences do not show in what is found on an input, and neither in the faults of readings and
closings. -/
structure Tandem extends Likeness where
  streams : Stream → Stream → Prop
  eq_descriptor_iff {x x' : Wiring} (h : wirings x x') (d : Nat) :
    x = .descriptor d ↔ x' = .descriptor d
  close_eq {b b' : Bool} {x x' : Wiring} {s s' : Stream} (hknown : captures b b')
    (hwired : wirings x x') (h : streams s s') :
    (if b && x == .captured then s.closeFailure else none) =
      if b' && x' == .captured then s'.closeFailure else none
  drain {size size' : Nat} {b b' : Bool} {s s' : Stream} (hpos : 0 < size) (hpos' : 0 < size')
    (hknown : captures b b') (h : streams s s') :
    readings (if b then (s.drain size).bytes else []) (if b' then (s'.drain size').bytes else []) ∧
      (if b then (s.drain size).fault else none) = if b' then (s'.drain size').fault else none

namespace Tandem

variable {T : Tandem}

/-! ### What corresponds -/

/-- Two processes answer the same, and the streams that they write correspond. -/
structure Conducts (T : Tandem) (c c' : Conduct) : Prop where
  returnCode : c.returnCode = c'.returnCode
  waits : c.waits = c'.waits
  polls : c.polls = c'.polls
  killFailure : c.killFailure = c'.killFailure
  piped : c.piped = c'.piped
  stdout : T.streams c.stdout c'.stdout
  stderr : T.streams c.stderr c'.stderr

/-- Two machines answer the same, and the processes that they start conduct themselves so if they
find the same on their inputs. -/
structure Machines (T : Tandem) (m m' : Machine) : Prop where
  threaded : m.threaded = m'.threaded
  pipeFailure : m.pipeFailure = m'.pipeFailure
  closeFailure : m.closeFailure = m'.closeFailure
  descriptors : m.descriptors = m'.descriptors
  start (n : Nat) (argv : List String) :
    Alike (fun conduct conduct' => ∀ input, T.Conducts (conduct input) (conduct' input))
      (m.start n argv) (m'.start n argv)

/-- Two processes conduct themselves so, and their outputs are wired so. -/
structure Processes (T : Tandem) (p p' : Process) : Prop where
  conduct : T.Conducts p.conduct p'.conduct
  stdin : p.stdin = p'.stdin
  stdout : T.wirings p.stdout p'.stdout
  stderr : T.wirings p.stderr p'.stderr

/-- Two calls are the same, but for the wirings of outputs. -/
inductive Calls (T : Tandem) : Call → Call → Prop where
  | same (c : Call) : Calls T c c
  | start (argv : List String) (stdin : Wiring) {stdout stdout' stderr stderr' : Wiring}
      (hout : T.wirings stdout stdout') (herr : T.wirings stderr stderr') :
      Calls T (.start argv stdin stdout stderr) (.start argv stdin stdout' stderr')

/-- Two worlds are side by side. -/
structure Worlds (T : Tandem) (w w' : World) : Prop where
  machine : T.Machines w.machine w'.machine
  pipeCalls : w.pipeCalls = w'.pipeCalls
  closeCalls : w.closeCalls = w'.closeCalls
  startCalls : w.startCalls = w'.startCalls
  pipes : w.pipes = w'.pipes
  processes : List.Forall₂ T.Processes w.processes w'.processes
  calls : List.Forall₂ T.Calls w.calls w'.calls
  notes : w.notes = w'.notes

namespace Processes

variable {p p' : Process}

theorem wiring (hboth : T.Processes p p') (o : Output) : T.wirings (p.wiring o) (p'.wiring o) := by
  cases o with
  | stdout => exact hboth.stdout
  | stderr => exact hboth.stderr

theorem stream (hboth : T.Processes p p') (o : Output) : T.streams (p.stream o) (p'.stream o) := by
  cases o with
  | stdout => exact hboth.conduct.stdout
  | stderr => exact hboth.conduct.stderr

/-- What was done with outputs does not matter. -/
theorem of_unread {q q' : Process} (hboth : T.Processes p p') (hsame : q.unread = p.unread)
    (hsame' : q'.unread = p'.unread) : T.Processes q q' := by
  have hunread : T.Processes p.unread p'.unread :=
    ⟨hboth.conduct, hboth.stdin, hboth.stdout, hboth.stderr⟩
  rw [← hsame, ← hsame'] at hunread
  exact ⟨hunread.conduct, hunread.stdin, hunread.stdout, hunread.stderr⟩

end Processes

/-! ### What the parent meets -/

namespace Worlds

variable {w w' : World}

theorem process? (hboth : T.Worlds w w') (n : Nat) :
    Option.Rel T.Processes (w.process? n) (w'.process? n) := by
  unfold World.process?
  split
  · exact .none
  · exact rel_getElem? hboth.processes _

theorem nextPid (hboth : T.Worlds w w') : w.nextPid = w'.nextPid := by
  rw [World.nextPid, World.nextPid, hboth.processes.length_eq]

theorem nextReader (hboth : T.Worlds w w') : w.nextReader = w'.nextReader := by
  rw [World.nextReader, World.nextReader, hboth.machine.descriptors, hboth.pipes]

theorem nextWriter (hboth : T.Worlds w w') : w.nextWriter = w'.nextWriter := by
  rw [World.nextWriter, World.nextWriter, hboth.machine.descriptors, hboth.pipes]

/-- A process finds the same on its input. -/
theorem inputOf (hboth : T.Worlds w w') (wiring : Wiring) :
    w.inputOf wiring = w'.inputOf wiring := by
  cases wiring with
  | inherited => rfl
  | captured => rfl
  | descriptor reader =>
    have hwriter : w.writerOf? reader = w'.writerOf? reader := by
      rw [World.writerOf?, World.writerOf?, hboth.machine.descriptors, hboth.pipes]
    rw [World.inputOf, World.inputOf, hwriter]
    cases w'.writerOf? reader with
    | none => rfl
    | some d =>
      -- The processes that write to the pipe are found at the same place.
      have hfound := rel_find? hboth.processes (·.stdout == .descriptor d)
        (·.stdout == .descriptor d) fun p p' hsame => by
          rw [Bool.eq_iff_iff, beq_iff_eq, beq_iff_eq]
          exact T.eq_descriptor_iff hsame.stdout d
      simp only [Option.bind_some]
      generalize w.processes.find? _ = p at hfound
      generalize w'.processes.find? _ = p' at hfound
      cases hfound with
      | none => rfl
      | some hsame => exact hsame.conduct.piped

theorem log (hboth : T.Worlds w w') {c c' : Call} (hsame : T.Calls c c') :
    T.Worlds (w.log c) (w'.log c') :=
  { hboth with calls := List.rel_append hboth.calls (.cons hsame .nil) }

theorem takeNote (hboth : T.Worlds w w') (n : Note) : T.Worlds (w.takeNote n) (w'.takeNote n) :=
  { hboth with notes := congrArg (· ++ [n]) hboth.notes }

theorem change (hboth : T.Worlds w w') (n : Nat) {f f' : Process → Process}
    (hkeeps : ∀ p p', T.Processes p p' → T.Processes (f p) (f' p')) :
    T.Worlds (w.change n f) (w'.change n f') := by
  unfold World.change
  generalize n - World.firstPid = i
  exact { hboth with processes := forall₂_modify hboth.processes i hkeeps }

theorem piped (hboth : T.Worlds w w') : T.Worlds w.piped w'.piped := by
  unfold World.piped
  rw [hboth.nextReader, hboth.nextWriter]
  refine log ?_ (.same _)
  exact { hboth with
    pipeCalls := congrArg (· + 1) hboth.pipeCalls
    pipes := congrArg (· + 1) hboth.pipes }

theorem unpiped (hboth : T.Worlds w w') : T.Worlds w.unpiped w'.unpiped := by
  refine log ?_ (.same _)
  exact { hboth with pipeCalls := congrArg (· + 1) hboth.pipeCalls }

theorem closed (hboth : T.Worlds w w') (d : Nat) : T.Worlds (w.closed d) (w'.closed d) := by
  refine log ?_ (.same _)
  exact { hboth with closeCalls := congrArg (· + 1) hboth.closeCalls }

variable {stdout stdout' stderr stderr' : Wiring}

theorem unstarted (hboth : T.Worlds w w') (argv : List String) (stdin : Wiring)
    (hout : T.wirings stdout stdout') (herr : T.wirings stderr stderr') :
    T.Worlds (w.unstarted argv stdin stdout stderr) (w'.unstarted argv stdin stdout' stderr') := by
  refine log ?_ (.start argv stdin hout herr)
  exact { hboth with startCalls := congrArg (· + 1) hboth.startCalls }

theorem started (hboth : T.Worlds w w') (argv : List String) (stdin : Wiring)
    (hout : T.wirings stdout stdout') (herr : T.wirings stderr stderr')
    {conduct conduct' : Bytes → Conduct}
    (hsame : ∀ input, T.Conducts (conduct input) (conduct' input)) :
    T.Worlds (w.started argv stdin stdout stderr conduct)
      (w'.started argv stdin stdout' stderr' conduct') := by
  unfold World.started
  rw [hboth.inputOf stdin]
  exact { hboth.unstarted argv stdin hout herr with
    processes := List.rel_append hboth.processes (.cons ⟨hsame _, rfl, hout, herr⟩ .nil) }

end Worlds

/-! ### Calls -/

theorem matches_note (n : Note) : Matches T.Worlds Eq (World.note n) (World.note n) :=
  .modify fun _ _ hboth => hboth.takeNote n

theorem matches_pipe : Action.Matches T.Worlds Eq World.pipe World.pipe := by
  apply Action.Matches.of_outcome
  intro w w' hboth
  have hsame : w.machine.pipeFailure w.pipeCalls = w'.machine.pipeFailure w'.pipeCalls := by
    rw [hboth.machine.pipeFailure, hboth.pipeCalls]
  cases hfault : w.machine.pipeFailure w.pipeCalls with
  | some f =>
    exact ⟨_, _, _, _, World.outcome_pipe_of_some hfault,
      World.outcome_pipe_of_some (hsame ▸ hfault), .error f, hboth.unpiped⟩
  | none =>
    refine ⟨_, _, _, _, World.outcome_pipe_of_none hfault,
      World.outcome_pipe_of_none (hsame ▸ hfault), .ok ?_, hboth.piped⟩
    rw [hboth.nextReader, hboth.nextWriter]

theorem matches_close (d : Nat) :
    Action.Matches T.Worlds Eq (World.close d) (World.close d) := by
  apply Action.Matches.of_outcome
  intro w w' hboth
  have hsame : w.machine.closeFailure w.closeCalls = w'.machine.closeFailure w'.closeCalls := by
    rw [hboth.machine.closeFailure, hboth.closeCalls]
  cases hfault : w.machine.closeFailure w.closeCalls with
  | some f =>
    exact ⟨_, _, _, _, World.outcome_close_of_some hfault d,
      World.outcome_close_of_some (hsame ▸ hfault) d, .error f, hboth.closed d⟩
  | none =>
    exact ⟨_, _, _, _, World.outcome_close_of_none hfault d,
      World.outcome_close_of_none (hsame ▸ hfault) d, .ok rfl, hboth.closed d⟩

theorem matches_start (argv : List String) (stdin : Wiring)
    {stdout stdout' stderr stderr' : Wiring} (hout : T.wirings stdout stdout')
    (herr : T.wirings stderr stderr') :
    Action.Matches T.Worlds Eq (World.start argv stdin stdout stderr)
      (World.start argv stdin stdout' stderr') := by
  apply Action.Matches.of_outcome
  intro w w' hboth
  have hstarts := hboth.machine.start w.startCalls argv
  have hagain : w'.machine.start w.startCalls argv = w'.machine.start w'.startCalls argv := by
    rw [hboth.startCalls]
  cases hstart : w.machine.start w.startCalls argv with
  | error f =>
    rw [hstart] at hstarts
    exact ⟨_, _, _, _, World.outcome_start_of_error hstart ..,
      World.outcome_start_of_error (hagain ▸ hstarts.eq_error) .., .error f,
      hboth.unstarted argv stdin hout herr⟩
  | ok conduct =>
    rw [hstart] at hstarts
    obtain ⟨conduct', hstart', hsame⟩ := hstarts.exists_ok
    exact ⟨_, _, _, _, World.outcome_start_of_ok hstart ..,
      World.outcome_start_of_ok (hagain ▸ hstart') .., .ok hboth.nextPid,
      hboth.started argv stdin hout herr hsame⟩

/-! ### What concerns one process -/

section Concerns

variable {β β' : Type} {S : β → β' → Prop} {n : Nat} {calls : List Call} {a : StateM World β}
  {a' : StateM World β'} {absent : β} {absent' : β'} {answer : Process → β}
  {answer' : Process → β'} {next next' : Process → Process → Process}

/-- Actions that concern two processes side by side match if their answers correspond. -/
theorem matches_of_concerns (h : World.Concerns n calls absent answer next a)
    (h' : World.Concerns n calls absent' answer' next' a') (hnothing : S absent absent')
    (hanswers : ∀ p p', T.Processes p p' → S (answer p) (answer' p'))
    (hkeeps : ∀ p p' q q', T.Processes q q' → T.Processes (next p q) (next' p' q')) :
    Matches T.Worlds S a a' := by
  intro w w' hboth
  -- The calls go on record first, whether or not there is such a process.
  have hbooked : T.Worlds (calls.foldl World.log w) (calls.foldl World.log w') := by
    clear h h'
    induction calls generalizing w w' with
    | nil => exact hboth
    | cons c calls ih => exact ih _ _ (hboth.log (.same c))
  have hfound := hboth.process? n
  rw [h, h']
  generalize w.process? n = p at hfound
  generalize w'.process? n = p' at hfound
  cases hfound with
  | none => exact ⟨hnothing, hbooked⟩
  | some hsame => exact ⟨hanswers _ _ hsame, hbooked.change n fun q q' => hkeeps _ _ q q'⟩

end Concerns

theorem matches_wait (pid : Nat) :
    Action.Matches T.Worlds Eq (World.wait pid) (World.wait pid) := by
  refine matches_of_concerns (World.concerns_wait pid) (World.concerns_wait pid) (.ok rfl)
    (fun p p' hsame => .of_eq ?_) fun _ _ q q' hsame =>
      { hsame with conduct := { hsame.conduct with
        waits := congrArg List.tail hsame.conduct.waits } }
  rw [Process.nextWait, Process.nextWait, hsame.conduct.waits, hsame.conduct.returnCode]

theorem matches_poll (pid : Nat) :
    Action.Matches T.Worlds Eq (World.poll pid) (World.poll pid) := by
  refine matches_of_concerns (World.concerns_poll pid) (World.concerns_poll pid) (.ok rfl)
    (fun p p' hsame => .of_eq ?_) fun _ _ q q' hsame =>
      { hsame with conduct := { hsame.conduct with
        polls := congrArg List.tail hsame.conduct.polls } }
  rw [hsame.conduct.polls]

theorem matches_kill (pid : Nat) :
    Action.Matches T.Worlds Eq (World.kill pid) (World.kill pid) := by
  refine matches_of_concerns (World.concerns_kill pid) (World.concerns_kill pid) (.ok rfl)
    (fun p p' hsame => .of_eq ?_) fun _ _ q q' hsame => hsame
  rw [hsame.conduct.killFailure]

/-! ### What is done with outputs -/

theorem matches_closeCaptured {b b' : Bool} (hknown : T.captures b b') (pid : Nat) (o : Output) :
    Action.Matches T.Worlds Eq (closeCaptured b pid o) (closeCaptured b' pid o) := by
  refine matches_of_concerns (concerns_closeCaptured b pid o) (concerns_closeCaptured b' pid o)
    (.ok rfl) (fun p p' hsame => .of_eq ?_) fun p p' q q' hsame => hsame.of_unread ?_ ?_
  · exact congrArg Fault.outcomeOf (T.close_eq hknown (hsame.wiring o) (hsame.stream o))
  · split
    · exact q.unread_record o _
    · rfl
  · split
    · exact q'.unread_record o _
    · rfl

theorem matches_report {x x' : Bytes × Option Fault} (hsame : T.readings x.1 x'.1 ∧ x.2 = x'.2)
    (label : String) :
    Action.Matches T.Worlds (fun y y' => T.readings y.1 y'.1 ∧ y.2 = y'.2) (Handle.report label x)
      (Handle.report label x') := by
  obtain ⟨bytes, fault⟩ := x
  obtain ⟨bytes', fault'⟩ := x'
  obtain ⟨hread, rfl⟩ : T.readings bytes bytes' ∧ fault = fault' := hsame
  cases fault with
  | none => exact .pure ⟨hread, rfl⟩
  | some f =>
    unfold Handle.report
    dsimp only
    -- A fault that is not heard of is let out by both or by neither.
    split
    · exact (Action.Matches.lift (matches_note _)).bind fun _ _ _ => .pure ⟨hread, rfl⟩
    · apply Action.Matches.get_bind
      intro w w' hboth
      rw [hboth.machine.threaded]
      split
      · exact .pure ⟨hread, rfl⟩
      · exact .throw _

/-- Outputs are read side by side, those of them that are captured. -/
theorem matches_drain {size size' : Nat} (hpos : 0 < size) (hpos' : 0 < size') {b b' : Bool}
    (hknown : T.captures b b') {child child' : Child} (hpid : child.pid = child'.pid) (o : Output)
    (label : String) :
    Action.Matches T.Worlds (fun x x' => T.readings x.1 x'.1 ∧ x.2 = x'.2)
      (if b then Handle.drain size child o label else pure ([], none))
      (if b' then Handle.drain size' child' o label else pure ([], none)) := by
  rw [Handle.drain_if_eq, Handle.drain_if_eq, hpid]
  have hread : Matches T.Worlds (fun x x' => T.readings x.1 x'.1 ∧ x.2 = x'.2)
      (Handle.readCaptured b size child'.pid o) (Handle.readCaptured b' size' child'.pid o) := by
    refine matches_of_concerns (Handle.concerns_readCaptured b size child'.pid o)
      (Handle.concerns_readCaptured b' size' child'.pid o) ⟨T.nothing, rfl⟩
      (fun p p' hsame => T.drain hpos hpos' hknown (hsame.stream o)) fun p p' q q' hsame =>
        hsame.of_unread ?_ ?_
    · split
      · exact q.unread_record o _
      · rfl
    · split
      · exact q'.unread_record o _
      · rfl
  exact (Action.Matches.lift hread).bind fun x x' hsame => matches_report hsame label

/-- Runs in worlds that are side by side go side by side. -/
def accord (T : Tandem) : Accord where
  toLikeness := T.toLikeness
  worlds := T.Worlds
  numbers _ := True
  sizes size size' := 0 < size ∧ 0 < size'
  note := matches_note
  pipe := matches_pipe
  close := matches_close
  start argv stdin _ _ _ _ hout herr :=
    (matches_start argv stdin hout herr).mono fun _ _ hsame => ⟨hsame, trivial⟩
  poll _ := matches_poll _
  kill _ := matches_kill _
  wait _ := matches_wait _
  closeCaptured _ o _ _ hknown := matches_closeCaptured hknown _ o
  drain hsame _ o label _ _ hknown _ _ hread := matches_drain hread.1 hread.2 hknown hsame o label

end Tandem

end Pipework
