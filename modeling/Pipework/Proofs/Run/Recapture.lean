import Pipework.Proofs.Host.Respect
import Pipework.Proofs.Run.Aftermath
import Pipework.Proofs.Run.Holding
import Pipework.Proofs.Run.SideBySide

/-!
# What is captured only changes where outputs lead

A pipeline can be run with its output captured or not, and with its error output captured or not. A
start does not look at what it captures: if all outputs that are captured are taken to be
inherited, then every call of it does the same as before. So two starts in the same world that
differ only in what they capture stop at the same place. What is left of the two runs is the same
as well, as long as what is captured can be read and closed.

## Main definitions

* `Wiring.bare`, `Call.bare`, `Process.bare`, `World.bare` — inherited in place of what is captured
* `Call.capturing` — a call, if what it would have a process inherit is captured
* `Footing.bare` — starts in worlds that are the same but for what is captured

## Main results

* `World.outcome_start_bare` — a process is started the same, whatever is captured of it
* `Executor.run_bare` — two runs are the same but for what is captured
* `Executor.captures_only_rewire` — what a run captures only changes where outputs lead
-/

namespace Pipework

/-! ### Nothing captured -/

/-- The wiring, if it is inherited in place of captured. -/
def Wiring.bare : Wiring → Wiring
  | captured => inherited
  | x => x

/-- The wiring, if what is inherited is captured, or not. -/
def Wiring.capturing (captured : Bool) : Wiring → Wiring
  | inherited => if captured then .captured else inherited
  | x => x

namespace Call

/-- The call, if nothing is captured. -/
def bare : Call → Call
  | start argv stdin stdout stderr => start argv stdin stdout.bare stderr.bare
  | c => c

/-- The call, if what a process would inherit for its outputs is captured. -/
def capturing (capture : Capture) : Call → Call
  | start argv stdin stdout stderr =>
    start argv stdin (stdout.capturing capture.stdout) (stderr.capturing capture.stderr)
  | c => c

/-- Only the starts of processes capture anything. -/
theorem capturing_bare_of_not_isStart {c : Call} (hother : c.isStart = false) (capture : Capture) :
    c.bare.capturing capture = c := by
  cases c with
  | start => cases hother
  | _ => rfl

/-- If nothing is to be captured, then nothing is. -/
theorem capturing_nothing (c : Call) : c.capturing ⟨false, false⟩ = c := by
  have hplain (x : Wiring) : x.capturing false = x := by cases x <;> rfl
  cases c with
  | start argv stdin stdout stderr => rw [capturing, hplain, hplain]
  | _ => rfl

end Call

/-- The calls of a plan are told from the plan where nothing is captured. -/
theorem Plan.capturing_bare_of_mem {plan : Plan} {argvs : List (List String)} {c : Call}
    (hmem : c ∈ plan.calls argvs) : c.bare.capturing plan.capture = c := by
  obtain ⟨cs, hget, hmem⟩ := List.mem_flatten.1 hmem
  obtain ⟨i, hlt, rfl⟩ := List.mem_mapIdx.1 hget
  rw [stageCalls_eq] at hmem
  have hquiet {cs : List Call} (hnone : cs.countP Call.isStart = 0) (hmem : c ∈ cs) :
      c.bare.capturing plan.capture = c :=
    c.capturing_bare_of_not_isStart (by simpa using List.countP_eq_zero.1 hnone c hmem) _
  -- Only a start has wirings, and its are those of the plan.
  rcases List.mem_append.1 hmem with hmem | hmem
  · exact hquiet (plan.countP_isStart_openCalls i) hmem
  rcases List.mem_cons.1 hmem with rfl | hmem
  · have hout : (plan.stdout i).bare.capturing plan.capture.stdout = plan.stdout i := by
      unfold stdout
      split_ifs with hlt hcaptured
      · rfl
      · simp [hcaptured, Wiring.bare, Wiring.capturing]
      · simp [hcaptured, Wiring.bare, Wiring.capturing]
    have herr : plan.stderr.bare.capturing plan.capture.stderr = plan.stderr := by
      unfold stderr
      split_ifs with hcaptured <;> simp [hcaptured, Wiring.bare, Wiring.capturing]
    rw [Call.bare, Call.capturing, hout, herr]
  · exact hquiet (plan.countP_isStart_closeCalls i) hmem

/-- What a start has on record is told from what it had there if nothing were captured. -/
theorem Plan.map_capturing_bare {plan : Plan} {argvs : List (List String)} {made later : List Call}
    (hstart : made <+: plan.calls argvs) (hquiet : ∀ c ∈ later, c.isStart = false) :
    ((made ++ later).map Call.bare).map (Call.capturing plan.capture) = made ++ later := by
  rw [List.map_map]
  refine (List.map_congr_left fun c hmem => ?_).trans (List.map_id _)
  rcases List.mem_append.1 hmem with hmem | hmem
  · exact capturing_bare_of_mem (hstart.subset hmem)
  · exact c.capturing_bare_of_not_isStart (hquiet c hmem) _

namespace Process

/-- The process, if nothing of it is captured. -/
def bare (p : Process) : Process := { p with stdout := p.stdout.bare, stderr := p.stderr.bare }

theorem conduct_bare (p : Process) : p.bare.conduct = p.conduct := rfl

theorem outputFault?_bare (p : Process) : p.bare.outputFault? = none := by
  have hoff (x : Wiring) : (x.bare == .captured) = false := by cases x <;> rfl
  have hone (o : Output) : p.bare.closeFault? o = none := by
    cases o <;> simp [closeFault?, wiring, bare, hoff]
  rw [outputFault?, hone, hone, Option.none_or]

end Process

namespace World

/-- The world, if nothing were captured. -/
def bare (w : World) : World :=
  { w with processes := w.processes.map Process.bare, calls := w.calls.map Call.bare }

variable (w : World)

theorem bare_log (c : Call) : (w.log c).bare = w.bare.log c.bare := by
  simp [bare, log]

theorem bare_piped : w.piped.bare = w.bare.piped := bare_log _ _

theorem bare_unpiped : w.unpiped.bare = w.bare.unpiped := bare_log _ _

theorem bare_closed (descriptor : Nat) : (w.closed descriptor).bare = w.bare.closed descriptor :=
  bare_log _ _

theorem bare_unstarted (argv : List String) (stdin stdout stderr : Wiring) :
    (w.unstarted argv stdin stdout stderr).bare =
      w.bare.unstarted argv stdin stdout.bare stderr.bare :=
  bare_log _ _

theorem nextPid_bare : w.bare.nextPid = w.nextPid := by
  simp [nextPid, bare]

/-- What is captured is nothing to those who read from a pipe. -/
theorem inputOf_bare (wiring : Wiring) : w.bare.inputOf wiring = w.inputOf wiring := by
  cases wiring with
  | inherited => rfl
  | captured => rfl
  | descriptor reader =>
    have hwrites (d : Nat) : (fun p : Process => p.bare.stdout == .descriptor d) =
        fun p => p.stdout == .descriptor d := by
      funext p
      cases hstdout : p.stdout <;> simp [Process.bare, Wiring.bare, hstdout]
    have hwriter : w.bare.writerOf? reader = w.writerOf? reader := rfl
    rw [inputOf, inputOf, hwriter]
    cases w.writerOf? reader with
    | none => rfl
    | some d =>
      simp only [Option.bind_some, bare, List.find?_map, Function.comp_def, hwrites]
      cases w.processes.find? _ <;> rfl

theorem bare_started (argv : List String) (stdin stdout stderr : Wiring)
    (conduct : Bytes → Conduct) :
    (w.started argv stdin stdout stderr conduct).bare =
      w.bare.started argv stdin stdout.bare stderr.bare conduct := by
  rw [started, started, inputOf_bare, ← bare_unstarted]
  simp [bare, Process.bare]

/-! ### Calls of a start -/

theorem respects_bare_pipe : Action.Respects (fun _ => True) bare (fun _ => True) pipe := by
  refine .of_outcome fun w _ => ?_
  cases hfault : w.machine.pipeFailure w.pipeCalls with
  | some f =>
    refine ⟨_, _, outcome_pipe_of_some hfault, trivial, trivial, ?_⟩
    rw [bare_unpiped]
    exact outcome_pipe_of_some hfault
  | none =>
    refine ⟨_, _, outcome_pipe_of_none hfault, trivial, trivial, ?_⟩
    rw [bare_piped]
    exact outcome_pipe_of_none hfault

theorem respects_bare_close (descriptor : Nat) :
    Action.Respects (fun _ => True) bare (fun _ => True) (close descriptor) := by
  refine .of_outcome fun w _ => ?_
  cases hfault : w.machine.closeFailure w.closeCalls with
  | some f =>
    refine ⟨_, _, outcome_close_of_some hfault descriptor, trivial, trivial, ?_⟩
    rw [bare_closed]
    exact outcome_close_of_some (w := w.bare) hfault descriptor
  | none =>
    refine ⟨_, _, outcome_close_of_none hfault descriptor, trivial, trivial, ?_⟩
    rw [bare_closed]
    exact outcome_close_of_none (w := w.bare) hfault descriptor

/-- A process is started the same, whatever is captured of it. -/
theorem outcome_start_bare (argv : List String) (stdin stdout stderr : Wiring) :
    (start argv stdin stdout.bare stderr.bare).outcome w.bare =
      (((start argv stdin stdout stderr).outcome w).1,
        ((start argv stdin stdout stderr).outcome w).2.bare) := by
  cases hstart : w.machine.start w.startCalls argv with
  | error f =>
    rw [outcome_start_of_error hstart, bare_unstarted]
    exact outcome_start_of_error (w := w.bare) hstart ..
  | ok conduct =>
    rw [outcome_start_of_ok hstart, bare_started, ← nextPid_bare]
    exact outcome_start_of_ok (w := w.bare) hstart ..

end World

/-- Starts in worlds that are the same but for what is captured. -/
def Footing.bare : Footing where
  wirings x x' := x.bare = x'.bare
  captures _ _ := True
  readings _ _ := True
  nothing := trivial
  wirings_refl _ := rfl
  wirings_of_captures {b b'} _ := by cases b <;> cases b' <;> rfl
  captures_of_wirings _ := trivial
  worlds w w' := w.bare = w'.bare
  numbers _ := True
  note n := .modify fun w w' hsame => congrArg (·.takeNote n) hsame
  pipe := World.respects_bare_pipe.matches_self
  close descriptor := (World.respects_bare_close descriptor).matches_self
  start argv stdin stdout stdout' stderr stderr' hout herr := by
    apply Action.Matches.of_outcome
    intro w w' hsame
    have hrun := w.outcome_start_bare argv stdin stdout stderr
    rw [hsame, hout, herr, w'.outcome_start_bare] at hrun
    obtain ⟨hanswers, hworlds⟩ := Prod.mk.inj hrun
    exact ⟨_, _, _, _, rfl, rfl, (Alike.of_eq hanswers.symm).mono fun _ _ heq => ⟨heq, trivial⟩,
      hworlds.symm⟩

/-! ### Whole runs -/

namespace Executor

open Launch (result stopped)

variable {p : Pipeline} {w : World}

/-- Wherever two starts of a pipeline stop, they have started the same processes, and giving up
their links comes to the same. -/
theorem bare_stopped (capture capture' : Capture) (argvs : List (List String)) (w : World) :
    let l := stopped capture argvs w
    let l' := stopped capture' argvs w
    result capture argvs w = result capture' argvs w ∧ l.world.bare = l'.world.bare ∧
      l.releaseFault? = l'.releaseFault? ∧ l.released.bare = l'.released.bare := by
  have hmodes : Footing.bare.Modes capture capture' := ⟨trivial, trivial⟩
  obtain ⟨hresults, hboth⟩ := Footing.stopped_alike hmodes argvs (rfl : w.bare = w.bare)
  obtain ⟨hfault, hreleased⟩ := hboth.released_alike
  exact ⟨hresults, hboth.worlds, hfault, hreleased⟩

/-- Two runs of a pipeline are the same but for what is captured, if that can be read and
closed. -/
theorem run_bare {e e' : Executor} {captured captured' : Bool} (hpos : 0 < e.chunkSize)
    (hpos' : 0 < e'.chunkSize) (hstages : p.stages ≠ [])
    (hlegible : ∀ q ∈ (stopped (e.capture captured) p.argvs w).world.startedSince w, q.Legible)
    (hlegible' : ∀ q ∈ (stopped (e'.capture captured') p.argvs w).world.startedSince w,
      q.Legible) :
    let outcome := (e.run captured p).outcome w
    let outcome' := (e'.run captured' p).outcome w
    outcome.1.map (·.statuses) = outcome'.1.map (·.statuses) ∧
      outcome.2.calls.map Call.bare = outcome'.2.calls.map Call.bare ∧
      ∀ r, outcome.1 = .ok r → r.stageStderr.length = p.stages.length := by
  obtain ⟨hresults, hworlds, hfault, hreleased⟩ :=
    bare_stopped (e.capture captured) (e'.capture captured') p.argvs w
  obtain ⟨hanswer, hcalls, hlength⟩ := e.run_aftermath captured hpos hstages hlegible
  obtain ⟨hanswer', hcalls', -⟩ := e'.run_aftermath captured' hpos' hstages hlegible'
  -- What is left of the runs goes by processes that are the same but for what is captured.
  have hsame : ((stopped (e.capture captured) p.argvs w).world.startedSince w).map Process.bare =
      ((stopped (e'.capture captured') p.argvs w).world.startedSince w).map Process.bare := by
    rw [World.startedSince, World.startedSince, List.map_drop, List.map_drop]
    exact congrArg (List.drop _) (congrArg World.processes hworlds)
  have hplain {qs : List Process} (hlegible : ∀ q ∈ qs, q.Legible) (q : Process) (hmem : q ∈ qs) :
      q.bare.outputFault? = q.outputFault? :=
    q.outputFault?_bare.trans (hlegible q hmem).outputFault?_eq_none.symm
  rw [← aftermath_map Process.conduct_bare (hplain hlegible), hsame,
    aftermath_map Process.conduct_bare (hplain hlegible'), hresults, hfault] at hanswer hcalls
  refine ⟨hanswer.trans hanswer'.symm, ?_, hlength⟩
  rw [hcalls, hcalls', List.map_append, List.map_append]
  exact congrArg (· ++ _) (congrArg World.calls hreleased)

/-- Let all that is captured of the processes of a pipeline be such that it can be read and closed,
whichever run it is. Then a run makes the calls that it makes with nothing captured, whatever it
captures and however much it reads at a time, only that what a process would inherit for its
outputs is captured: this is the output of the last stage, and the error output of any. All these
runs fail for the same reason or have the same statuses, and each result has an error output for
every stage. -/
theorem captures_only_rewire (p : Pipeline) (w : World) (hstages : p.stages ≠ [])
    (hlegible : ∀ (e : Executor) (captured : Bool),
      ∀ q ∈ (stopped (e.capture captured) p.argvs w).world.startedSince w, q.Legible) :
    ∃ (calls : List Call) (answer : Except Failure (List ExitStatus)),
      (∀ before argv stdin stdout stderr, before ++ [.start argv stdin stdout stderr] <+: calls →
        let k := before.countP Call.isStart
        p.argvs[k]? = some argv ∧ stderr = .inherited ∧
          if k + 1 = p.stages.length then stdout = .inherited else ∃ d, stdout = .descriptor d) ∧
      ∀ (e : Executor) (captured : Bool), 0 < e.chunkSize →
        let outcome := (e.run captured p).outcome w
        outcome.2.calls = w.calls ++ calls.map (Call.capturing (e.capture captured)) ∧
          outcome.1.map (·.statuses) = answer ∧
          ∀ r, outcome.1 = .ok r → r.stageStderr.length = p.stages.length := by
  -- The calls are those of a run that captures nothing.
  let plain : Executor := ⟨false, 1⟩
  obtain ⟨made, later, hstart, hquiet, hrecord, -⟩ :=
    exists_calls_of_confined (plain.confined_run false w p)
  have hunwired : (made ++ later).map Call.bare = made ++ later := by
    have hrewired := Plan.map_capturing_bare hstart fun c hmem => (hquiet c hmem).1
    have hnothing : Call.capturing (plain.capture false) = id := funext Call.capturing_nothing
    rwa [show Plan.capture _ = plain.capture false from rfl, hnothing, List.map_id] at hrewired
  refine ⟨made ++ later, ((plain.run false p).outcome w).1.map (·.statuses), ?_, ?_⟩
  · intro before argv stdin stdout stderr hmoment k
    have hplanned := (prefix_of_start (fun c hmem => (hquiet c hmem).1) hmoment).trans hstart
    obtain ⟨hstage, -, rfl, rfl, -⟩ := Plan.before_start hplanned
    refine ⟨hstage, rfl, ?_⟩
    have hlt : k < p.stages.length := by
      simpa [Pipeline.argvs] using (List.getElem?_eq_some_iff.1 hstage).1
    split_ifs with hlast
    · exact if_neg (by simp [Plan.of]; omega)
    · exact ⟨_, if_pos (by simp [Plan.of]; omega)⟩
  · intro e captured hpos outcome
    obtain ⟨made', later', hstart', hquiet', hrecord', -⟩ :=
      exists_calls_of_confined (e.confined_run captured w p)
    obtain ⟨hanswer, hbare, hlength⟩ :=
      run_bare hpos Nat.one_pos hstages (hlegible e captured) (hlegible plain false)
    have hsame : w.calls.map Call.bare ++ (made' ++ later').map Call.bare =
        w.calls.map Call.bare ++ (made ++ later).map Call.bare := by
      rw [← List.map_append, ← List.map_append, ← hrecord, ← hrecord']
      exact hbare
    have hrewired := Plan.map_capturing_bare hstart' fun c hmem => (hquiet' c hmem).1
    rw [List.append_cancel_left hsame, hunwired] at hrewired
    exact ⟨hrecord'.trans (congrArg _ hrewired.symm), hanswer, hlength⟩

/-- Two stages, the first of which is lost to the system. Its output could not be read to its end,
but it goes to the second stage in any case, and is not captured. -/
theorem captures_only_rewire_lost_stage :
    let lost : Fault := ⟨.noChild, "wait"⟩
    let w : World := { machine := .ofScript {
      processes := [{ waits := [some lost], stdout := { failure := some ⟨.system, "read"⟩ } },
        { stdout := { chunks := [[97]] } }] } }
    let run (captureStderr captured : Bool) :=
      (({ captureStderr } : Executor).run captured ⟨[⟨"a", []⟩, ⟨"b", []⟩]⟩).outcome w
    let calls : List Call :=
      [.pipe 10 11, .start ["a"] .inherited (.descriptor 11) .inherited, .close 11,
        .start ["b"] (.descriptor 10) .inherited .inherited, .close 10, .wait 1000, .wait 1001]
    (run true false).2.calls = calls ∧
      (run false true).2.calls = calls.map (Call.capturing ⟨true, false⟩) ∧
      (run true true).2.calls = calls.map (Call.capturing ⟨true, true⟩) ∧
      (run false true).1.map (·.statuses) = .error (.error (.wait 0 lost)) ∧
      (run true true).1.map (·.statuses) = .error (.error (.wait 0 lost)) := by
  intro lost w run calls
  have hlegible (capture : Capture) :
      ∀ q ∈ (stopped capture [["a"], ["b"]] w).world.startedSince w, q.Legible := by
    rcases capture with ⟨stdout, stderr⟩
    cases stdout <;> cases stderr <;> decide +kernel
  obtain ⟨calls', answer, -, hsame⟩ :=
    captures_only_rewire ⟨[⟨"a", []⟩, ⟨"b", []⟩]⟩ w (by decide) fun e captured => hlegible _
  have heach (captureStderr captured : Bool) :
      (run captureStderr captured).2.calls =
          calls'.map (Call.capturing ⟨captured, captured && captureStderr⟩) ∧
        (run captureStderr captured).1.map (·.statuses) = answer := by
    obtain ⟨hrecord, hanswered, -⟩ := hsame { captureStderr } captured (show 0 < 65536 by decide)
    simp only [run]
    exact ⟨hrecord, hanswered⟩
  have hplain : (run true false).2.calls = calls := by decide +kernel
  have hfailed : (run true false).1.map (·.statuses) = .error (.error (.wait 0 lost)) := by
    decide +kernel
  have hall : calls' = calls := by
    rw [← hplain, (heach true false).1]
    exact (List.map_id _).symm.trans (List.map_congr_left fun c _ => c.capturing_nothing.symm)
  rw [(heach true false).2] at hfailed
  rw [hfailed, hall] at heach
  exact ⟨hplain, (heach false true).1, (heach true true).1, (heach false true).2,
    (heach true true).2⟩

end Executor

end Pipework
