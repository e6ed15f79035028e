import Pipework.Proofs.Run.Ordinary

/-!
# What is left of a run after its start

Once a start has left its stages, what is still to come of the run is settled: the links are given
up, and then the processes are ended if the start failed, and waited for if not. What the run
answers about its stages, and by which calls, is told by the fault in giving up the links, by the
failure of the start, and by what the processes answer. What is captured of them has no share in
it, as long as it can be read and closed.

## Main definitions

* `Process.Legible` — all that is captured of a process can be read to its end and closed
* `Process.tally` — the statuses of processes, or the failure of a pass over them
* `Aftermath`, `aftermath` — what a run answers about its stages, and the calls after its start

## Main results

* `Launch.Crewed.exists_abandoned` — what is left of a run whose start failed
* `Executor.run_aftermath` — what is left of any run
-/

namespace Pipework

namespace Process

/-- All that is captured of the process can be read to its end and closed. -/
def Legible (p : Process) : Prop := ∀ o, p.wiring o = .captured → (p.stream o).fault? = none

instance (p : Process) : Decidable p.Legible :=
  decidable_of_iff (∀ o ∈ [Output.stdout, .stderr],
    p.wiring o = .captured → (p.stream o).fault? = none)
    ⟨fun hboth o => hboth o (by cases o <;> simp), fun hall o _ => hall o⟩

/-- What comes of a pass over the processes if all readers ended well: their statuses, unless a
fault ends the pass or a wait is refused. -/
def tally (ps : List Process) : Except Failure (List ExitStatus) :=
  match ps.findSome? waitFault? with
  | some f => .error (.fault f)
  | none =>
    match refusedWait? 0 ps with
    | some e => .error (.error e)
    | none => .ok (statuses ps)

variable {p : Process} {ps : List Process}

/-- What is captured of a legible process can be closed. -/
theorem Legible.outputFault?_eq_none (h : p.Legible) : p.outputFault? = none := by
  refine outputFault?_eq_none_iff.2 fun o hcaptured => ?_
  have hfine := h o hcaptured
  rw [Stream.fault?, Option.or_eq_none_iff] at hfine
  exact hfine.1

/-- The readers of legible processes end well. -/
theorem captureErrors_of_legible {capture : Capture} (hwired : WiredFor capture ps)
    (hlegible : ∀ p ∈ ps, p.Legible) : captureErrors ps = [] := by
  refine filterMap_captureError?_eq_nil fun r hmem => ?_
  by_contra hfailed
  obtain ⟨q, hmem, o, hcaptured, hfailed⟩ :=
    (hwired.exists_mem_readers_iff fun s => s.fault? ≠ none).1 ⟨r, hmem, hfailed⟩
  exact hfailed (hlegible q hmem o hcaptured)

theorem tally_map {change : Process → Process} (hkept : ∀ p, (change p).conduct = p.conduct)
    (ps : List Process) : tally (ps.map change) = tally ps := by
  rw [tally, tally, findSome?_waitFault?_map hkept, refusedWait?_map hkept, statuses_map hkept]

end Process

/-- The statuses that a pass has, if all readers of the handle ended well. -/
theorem Handle.map_statuses_verdict {h : Handle} (hread : h.captureErrors = [])
    (ps : List Process) : (h.verdict ps).map (·.statuses) = Process.tally ps := by
  rw [verdict, Process.tally, hread, List.head?_nil, Option.or_none]
  cases ps.findSome? Process.waitFault? with
  | some f => rfl
  | none => cases Process.refusedWait? 0 ps <;> rfl

/-- A result has what the handle has read. -/
theorem Handle.stageStderr_of_verdict {h : Handle} {ps : List Process} {r : ExecutionResult}
    (hanswer : h.verdict ps = .ok r) : r.stageStderr = h.stageStderr := by
  unfold verdict at hanswer
  split at hanswer
  · cases hanswer
  · split at hanswer
    · cases hanswer
    · rw [← Except.ok.inj hanswer]

/-- What is left of a run after its start: what it answers about the stages, and its calls once the
links are given up. -/
structure Aftermath where
  answer : Except Failure (List ExitStatus)
  calls : List Call

/-- What is left of a run whose start has come to the given outcome and left processes with numbers
from the given one on, and that met the given fault in giving up the links. -/
def aftermath (released : Option Fault) (outcome : Except Failure Unit) (pid : Nat)
    (ps : List Process) : Aftermath :=
  match released, outcome with
  | some f, _ => ⟨.error (.fault f), []⟩
  | none, .error failure =>
    ⟨.error ((ps.findSome? Process.reapFault?).elim failure .fault), Process.reapAllCalls pid ps⟩
  | none, .ok _ => ⟨Process.tally ps, Process.passCalls pid ps⟩

/-! ### What it depends on -/

section Change

variable {change : Process → Process} {ps : List Process}

/-! Besides the faults in closing their outputs, the ending of processes goes by their conduct
only. -/

theorem Process.reap_congr {p q : Process} (hkept : q.conduct = p.conduct)
    (houtput : q.outputFault? = p.outputFault?) :
    q.reapFault? = p.reapFault? ∧ q.reapCalls = p.reapCalls := by
  have hruns : q.stillRuns = p.stillRuns := by rw [stillRuns, stillRuns, hkept]
  have hkill : q.killFault? = p.killFault? := by rw [killFault?, killFault?, hruns, hkept]
  have hwait : q.waitFault? = p.waitFault? := by rw [waitFault?, waitFault?, hkept]
  refine ⟨by rw [reapFault?, reapFault?, houtput, hkill, hwait], funext fun pid => ?_⟩
  rw [reapCalls, reapCalls, houtput, hruns, hkill]

theorem Process.reapAllCalls_map (hkept : ∀ p, (change p).conduct = p.conduct)
    (houtput : ∀ p ∈ ps, (change p).outputFault? = p.outputFault?) (pid : Nat) :
    reapAllCalls pid (ps.map change) = reapAllCalls pid ps := by
  induction ps generalizing pid with
  | nil => rfl
  | cons p ps ih =>
    obtain ⟨hfault, hcalls⟩ := reap_congr (hkept p) (houtput p List.mem_cons_self)
    rw [List.map_cons, reapAllCalls, reapAllCalls, hfault, hcalls,
      ih fun p hmem => houtput p (List.mem_cons_of_mem _ hmem)]

theorem Process.findSome?_reapFault?_map (hkept : ∀ p, (change p).conduct = p.conduct)
    (houtput : ∀ p ∈ ps, (change p).outputFault? = p.outputFault?) :
    (ps.map change).findSome? reapFault? = ps.findSome? reapFault? := by
  induction ps with
  | nil => rfl
  | cons p ps ih =>
    rw [List.map_cons, List.findSome?_cons, List.findSome?_cons,
      (reap_congr (hkept p) (houtput p List.mem_cons_self)).1,
      ih fun p hmem => houtput p (List.mem_cons_of_mem _ hmem)]

theorem aftermath_map (hkept : ∀ p, (change p).conduct = p.conduct)
    (houtput : ∀ p ∈ ps, (change p).outputFault? = p.outputFault?) (released : Option Fault)
    (outcome : Except Failure Unit) (pid : Nat) :
    aftermath released outcome pid (ps.map change) = aftermath released outcome pid ps := by
  cases released with
  | some f => rfl
  | none =>
    cases outcome with
    | error failure =>
      rw [aftermath, aftermath, Process.findSome?_reapFault?_map hkept houtput,
        Process.reapAllCalls_map hkept houtput]
    | ok _ => rw [aftermath, aftermath, Process.tally_map hkept, Process.passCalls_map hkept]

end Change

/-! ### What is left of a run -/

open Launch (result stopped)

variable {e : Executor} {captured : Bool} {p : Pipeline} {w : World} {ps : List Process}

/-- What is left of a run whose start failed: the processes are ended, up to a fault that stops
it. -/
theorem Launch.Crewed.exists_abandoned {l : Launch} (hcrewed : l.Crewed w ps) (failure : Failure) :
    let a := aftermath l.releaseFault? (.error failure) w.nextPid ps
    ∃ g w',
      (abandon l failure : Action World Failure (List Child)).outcome l.world = (.error g, w') ∧
      a.answer = .error g ∧ w'.calls = l.released.calls ++ a.calls := by
  intro a
  rw [outcome_abandon]
  cases hreleased : l.releaseFault? with
  | some f => exact ⟨.fault f, l.released, rfl, by simp [a, hreleased, aftermath]⟩
  | none =>
    obtain ⟨w', hended, hcalls, -⟩ := outcome_reap (hcrewed.knows (l.processes_warned failure)) 0
    rw [l.calls_warned] at hcalls
    rw [hcrewed.children, hended]
    simp only [a, hreleased, aftermath]
    cases ps.findSome? Process.reapFault? with
    | some f => exact ⟨.fault f, w', rfl, rfl, hcalls⟩
    | none => exact ⟨failure, w', rfl, rfl, hcalls⟩

namespace Executor

/-- A start that came to the end of its stages answers a handle, if the links can be given up and
nothing keeps its readers from reading. -/
theorem exists_spawn_of_stopped (hpos : 0 < e.chunkSize) (hstages : p.argvs ≠ [])
    (hfine : result (e.capture captured) p.argvs w = .ok ())
    (hreleased : (stopped (e.capture captured) p.argvs w).releaseFault? = none)
    (hlegible : ∀ q ∈ (stopped (e.capture captured) p.argvs w).world.startedSince w, q.Legible) :
    ∃ h w', (e.spawn captured p).outcome w = (.ok h, w') ∧
      w'.calls = (stopped (e.capture captured) p.argvs w).released.calls := by
  refine exists_spawn_of_heard hpos (e.launch_of_released captured hstages hfine hreleased)
    fun q hmem o hwired f hfault => ?_
  rw [World.startedSince, (Launch.releases_given _).processes] at hmem
  cases (hlegible q hmem o hwired).symm.trans hfault

/-- What is left of a run whose start succeeded: the processes are waited for, up to a fault that
ends the pass. -/
theorem exists_run_of_spawn {w₁ : World} {h : Handle} (hpos : 0 < e.chunkSize)
    (hspawned : (e.spawn captured p).outcome w = (.ok h, w₁))
    (hlegible : ∀ q ∈ (stopped (e.capture captured) p.argvs w).world.startedSince w, q.Legible) :
    let ps := (stopped (e.capture captured) p.argvs w).world.startedSince w
    ∃ r w', (e.run captured p).outcome w = (r, w') ∧ r.map (·.statuses) = Process.tally ps ∧
      w'.calls = w₁.calls ++ Process.passCalls w.nextPid ps ∧
      ∀ x, r = .ok x → x.stageStderr.length = p.stages.length := by
  intro ps
  obtain ⟨rfl, hlength, hwired⟩ := exists_processes_of_spawn hpos hspawned
  -- Reading the outputs has left the processes as they were started.
  have hsame : (w₁.startedSince w).map Process.unread = ps.map Process.unread :=
    World.unread_startedSince (unread_of_spawn hspawned) w
  obtain ⟨w', hwaited, hpasses⟩ := Handle.run_wait
    (h := .ofProcesses captured p.argvs w.nextPid (w₁.startedSince w))
    (w₁.knows_startedSince w) rfl rfl
  generalize w₁.startedSince w = qs at *
  have hread : (Handle.ofProcesses captured p.argvs w.nextPid qs).captureErrors = [] := by
    rw [Handle.ofProcesses_congr hsame]
    exact Process.captureErrors_of_legible (hwired.congr hsame) hlegible
  have hkept (q : Process) : q.unread.conduct = q.conduct := rfl
  refine ⟨_, w', by rw [outcome_run_of_ok hspawned, hwaited], ?_, ?_, fun x hanswer => ?_⟩
  · rw [Handle.map_statuses_verdict hread, ← Process.tally_map hkept qs, hsame,
      Process.tally_map hkept]
  · rw [hpasses.calls, ← Process.passCalls_map hkept w.nextPid qs, hsame,
      Process.passCalls_map hkept]
  · rw [Handle.stageStderr_of_verdict hanswer, ← hlength]
    exact List.length_map _

/-- What is left of any run after its start. If what is captured of its processes can be read and
closed, it does not matter what that is. -/
theorem run_aftermath (e : Executor) (captured : Bool) (hpos : 0 < e.chunkSize)
    (hstages : p.stages ≠ [])
    (hlegible : ∀ q ∈ (stopped (e.capture captured) p.argvs w).world.startedSince w, q.Legible) :
    let l := stopped (e.capture captured) p.argvs w
    let a := aftermath l.releaseFault? (result (e.capture captured) p.argvs w) w.nextPid
      (l.world.startedSince w)
    let outcome := (e.run captured p).outcome w
    outcome.1.map (·.statuses) = a.answer ∧ outcome.2.calls = l.released.calls ++ a.calls ∧
      ∀ r, outcome.1 = .ok r → r.stageStderr.length = p.stages.length := by
  intro l a outcome
  have hargvs : p.argvs ≠ [] := by simpa [Pipeline.argvs] using hstages
  cases hfine : result (e.capture captured) p.argvs w with
  | error failure =>
    obtain ⟨g, w', hundone, hanswer, hcalls⟩ :=
      (Launch.crewed_stopped (e.capture captured) p.argvs w).exists_abandoned failure
    have hrun : outcome = (.error g, w') :=
      outcome_run_of_error (outcome_spawn_of_abandon hargvs hfine hundone)
    simp only [a, hfine, hrun]
    refine ⟨hanswer.symm, hcalls, fun r hok => ?_⟩
    cases hok
  | ok _ =>
    cases hreleased : l.releaseFault? with
    | some f =>
      -- The stages run, but nobody has a handle of them.
      have hlaunched : (e.launch captured p.argvs).outcome w =
          (.error (.fault f), l.released) := by
        rw [e.outcome_launch captured hargvs w, hfine]
        simp only [show (stopped (e.capture captured) p.argvs w).releaseFault? = some f from
          hreleased, l]
      have hrun : outcome = (.error (.fault f), l.released) :=
        outcome_run_of_error (Action.outcome_bind_of_error hlaunched)
      simp only [a, hfine, hreleased, hrun, aftermath]
      refine ⟨rfl, (List.append_nil _).symm, fun r hok => ?_⟩
      cases hok
    | none =>
      obtain ⟨h, w₁, hspawned, hcalls₁⟩ :=
        exists_spawn_of_stopped hpos hargvs hfine hreleased hlegible
      obtain ⟨r, w', hrun, hanswer, hcalls, hlength⟩ := exists_run_of_spawn hpos hspawned hlegible
      rw [hcalls₁] at hcalls
      have hrun' : outcome = (r, w') := hrun
      simp only [a, hfine, hreleased, hrun', aftermath]
      exact ⟨hanswer, hcalls, hlength⟩

end Executor

end Pipework
