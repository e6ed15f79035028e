import Pipework.Proofs.Run.Refusal
import Pipework.Proofs.Run.Waiting

/-!
# Running a pipeline on an ordinary system

On an ordinary system no close of a descriptor fails, a kill fails at most because the process is
gone, and everything else fails at most for reasons that a run handles. There a run has four ways
to go: a stage is refused, a wait is refused, a reader fails, or all is well. Which of them it
takes is decided by the first call for a stage that fails, then by the first wait, and then by the
first reader.

## Main definitions

* `Stream.Ordinary`, `Conduct.Ordinary`, `Machine.Ordinary` — only faults that a run handles
* `Executor.Cleans` — when a start is refused a stage, the captured outputs can be closed

## Main results

* `World.grants_of_not_refuses` — a start is granted all its calls, or it is refused a stage
* `Launch.ordinary_stopped` — the processes of a start are ordinary
* `Executor.run_of_refuses`, `Executor.run_of_not_refuses` — what comes of a run
-/

namespace Pipework

/-! ### Ordinary faults -/

/-- Reading the stream and closing it fail at most with faults that are heard of. -/
structure Stream.Ordinary (s : Stream) : Prop where
  read : ∀ f, s.failure = some f → f.isHeard = true
  close : ∀ f, s.closeFailure = some f → f.isHeard = true

/-- Waits fail at most because the system refuses them, a kill at most because the process is gone,
and the outputs are ordinary. -/
structure Conduct.Ordinary (c : Conduct) : Prop where
  wait : ∀ f, some f ∈ c.waits → f.isSystem = true
  kill : ∀ f, c.killFailure = some f → f.kind = .noProcess
  stdout : c.stdout.Ordinary
  stderr : c.stderr.Ordinary

/-- Descriptors can always be closed, and pipes and processes are refused at most for reasons that
are reported. -/
structure Machine.Ordinary (m : Machine) : Prop where
  close : ∀ n, m.closeFailure n = none
  pipe : ∀ n f, m.pipeFailure n = some f → f.isSystem = true
  refusal : ∀ n argv f, m.start n argv = .error f → f.isHeard = true
  conduct : ∀ n argv conduct, m.start n argv = .ok conduct → ∀ input, (conduct input).Ordinary

/-- A script makes an ordinary system if it lets every close succeed, and all its faults are
ordinary. -/
theorem Machine.ordinary_ofScript {s : Script} (hclose : s.closeFailures = [])
    (hpipe : ∀ x ∈ s.pipeFailures, x.2.isSystem = true)
    (hprocesses : ∀ b ∈ s.processes,
      (∀ f, b.refusal = some f → f.isHeard = true) ∧ b.toConduct.Ordinary) :
    (Machine.ofScript s).Ordinary := by
  -- What is not listed is fine, and so is what is listed.
  have hbehaviour (n : Nat) :
      (∀ f, (s.processes[n]?.getD ({} : Behaviour)).refusal = some f → f.isHeard = true) ∧
        (s.processes[n]?.getD ({} : Behaviour)).toConduct.Ordinary := by
    cases hget : s.processes[n]? with
    | none => exact ⟨nofun, nofun, nofun, ⟨nofun, nofun⟩, ⟨nofun, nofun⟩⟩
    | some b => exact hprocesses b (List.mem_of_getElem? hget)
  refine ⟨fun n => by rw [Machine.ofScript, hclose]; rfl, fun n f hfailed => ?_,
    fun n argv f hrefused => ?_, fun n argv conduct hstart input => ?_⟩
  · obtain ⟨before, after, hsplit, -⟩ := List.lookup_eq_some_iff.1 hfailed
    exact hpipe (n, f) (by simp [hsplit])
  · cases hrefusal : (s.processes[n]?.getD ({} : Behaviour)).refusal with
    | none => simp [Machine.ofScript, hrefusal] at hrefused
    | some g =>
      obtain rfl : g = f := by simpa [Machine.ofScript, hrefusal] using hrefused
      exact (hbehaviour n).1 g hrefusal
  · cases hrefusal : (s.processes[n]?.getD ({} : Behaviour)).refusal with
    | none =>
      obtain rfl : _ = conduct := by simpa [Machine.ofScript, hrefusal] using hstart
      exact (hbehaviour n).2
    | some g => simp [Machine.ofScript, hrefusal] at hstart

theorem Stream.Ordinary.isHeard_of_fault? {s : Stream} (h : s.Ordinary) {f : Fault}
    (hfailed : s.fault? = some f) : f.isHeard = true := by
  rw [fault?, Option.or_eq_some_iff] at hfailed
  rcases hfailed with hclose | ⟨-, hread⟩
  · exact h.close f hclose
  · rw [readFault?] at hread
    split at hread
    · cases hread
    · exact h.read f hread

namespace Process

variable {p : Process}

theorem ordinary_stream (h : p.conduct.Ordinary) (o : Output) : (p.stream o).Ordinary := by
  cases o with
  | stdout => exact h.stdout
  | stderr => exact h.stderr

theorem isSystem_of_head (h : p.conduct.Ordinary) {f : Fault}
    (hfailed : p.conduct.waits.head?.join = some f) : f.isSystem = true := by
  obtain ⟨x, hhead, rfl⟩ : ∃ x, p.conduct.waits.head? = some x ∧ x = some f := by
    simpa [Option.join_eq_some_iff] using hfailed
  exact h.wait f (List.mem_of_head? hhead)

/-- An ordinary process can be ended if its captured outputs can be closed. -/
theorem reapable_of_ordinary (h : p.conduct.Ordinary)
    (hclose : ∀ o, p.wiring o = .captured → (p.stream o).closeFailure = none) : p.Reapable where
  close := hclose
  kill _ := h.kill
  wait _ := isSystem_of_head h

theorem isSystem_of_nextWait (h : p.conduct.Ordinary) {f : Fault}
    (hfailed : p.nextWait = .error f) : f.isSystem = true := by
  rw [nextWait] at hfailed
  split at hfailed
  · rename_i g hhead
    rw [← Except.error.inj hfailed]
    exact isSystem_of_head h hhead
  · cases hfailed

end Process

/-! ### What is captured -/

namespace Process.WiredFor

variable {capture : Capture} {ps : List Process}

/-- What the last process delivers is read exactly if the output of a pipeline is captured. -/
theorem lastRead_eq (h : WiredFor capture ps) :
    lastRead ps =
      if capture.stdout then ps.getLast?.elim [] fun q => (q.stream .stdout).delivered
      else [] := by
  rw [lastRead]
  cases hlast : ps.getLast? with
  | none => simp
  | some q =>
    have hwired : q.wiring .stdout = _ := h.last q hlast
    rw [Option.elim_some, Option.elim_some, Process.read, hwired]
    cases capture.stdout <;> rfl

/-- What the processes deliver on their error outputs is read exactly if these are captured. -/
theorem flatten_read_stderr (h : WiredFor capture ps) :
    (ps.map (·.read .stderr)).flatten =
      if capture.stderr then ps.flatMap fun q => (q.stream .stderr).delivered else [] := by
  have heach : ps.map (·.read .stderr) =
      ps.map fun q => if capture.stderr then (q.stream .stderr).delivered else [] := by
    apply List.map_congr_left
    intro q hmem
    have hwired : q.wiring .stderr = _ := h.stderr q hmem
    rw [Process.read, hwired]
    cases capture.stderr <;> rfl
  rw [heach, ← List.flatMap_def]
  cases capture.stderr <;> simp

end Process.WiredFor

/-! ### What a start is granted -/

namespace World

variable {w : World} {argvs : List (List String)}

/-- On an ordinary system the first calls of a start are granted, or one of them is refused. -/
theorem grantsFirst_or_refuses (hordinary : w.machine.Ordinary) (argvs : List (List String))
    {count : Nat} (hmore : count < argvs.length) :
    w.GrantsFirst argvs count ∨ ∃ k refusal, w.Refuses argvs k refusal := by
  induction count with
  | zero => exact .inl ⟨nofun, fun _ hlt => hordinary.close _, nofun⟩
  | succ k ih =>
    rcases ih (Nat.lt_of_succ_lt hmore) with hbefore | hrefused
    · -- The calls for one more stage are its link and its process.
      cases hpipe : w.machine.pipeFailure (w.pipeCalls + k) with
      | some f => exact .inr ⟨k, .link f, Nat.lt_of_succ_lt hmore, hbefore, hmore, hpipe⟩
      | none =>
        cases hstart : w.machine.start (w.startCalls + k) argvs[k] with
        | error f =>
          exact .inr ⟨k, .process f, Nat.lt_of_succ_lt hmore, hbefore, fun _ => hpipe, hstart⟩
        | ok conduct =>
          left
          refine ⟨fun i hlt => ?_, fun _ _ => hordinary.close _, fun i hstage hlt => ?_⟩
          · rcases Nat.lt_succ_iff_lt_or_eq.1 hlt with hlt | rfl
            · exact hbefore.pipe i hlt
            · exact hpipe
          · rcases Nat.lt_succ_iff_lt_or_eq.1 hlt with hlt | rfl
            · exact hbefore.start i hstage hlt
            · exact ⟨conduct, hstart⟩
    · exact .inr hrefused

/-- On an ordinary system a start is granted all its calls, if no stage is refused. -/
theorem grants_of_not_refuses (hordinary : w.machine.Ordinary) (hstages : argvs ≠ [])
    (hfine : ∀ k refusal, ¬ w.Refuses argvs k refusal) : w.Grants argvs := by
  obtain ⟨last, hlength⟩ : ∃ last, argvs.length = last + 1 :=
    Nat.exists_eq_succ_of_ne_zero (by simpa using hstages)
  have hlt : last < argvs.length := by omega
  have hbefore : w.GrantsFirst argvs last := by
    rcases grantsFirst_or_refuses hordinary argvs hlt with hbefore | ⟨k, refusal, hrefused⟩
    · exact hbefore
    · exact absurd hrefused (hfine k refusal)
  -- The last stage has no link, so that only its process could be refused.
  refine ⟨fun i hmore => hbefore.pipe i (by omega), fun _ _ => hordinary.close _,
    fun i hstage => ?_⟩
  rcases Nat.lt_or_eq_of_le (show i ≤ last by omega) with hinner | rfl
  · exact hbefore.start i hstage hinner
  · cases hstart : w.machine.start (w.startCalls + i) argvs[i] with
    | ok conduct => exact ⟨conduct, rfl⟩
    | error f =>
      exact absurd ⟨hlt, hbefore, fun hmore => absurd hmore (by omega), hstart⟩
        (hfine i (.process f))

end World

/-! ### The processes of a start -/

namespace Launch

variable {l l' : Launch} {capture : Capture} {first : Nat}

/-- The processes of a start with numbers from the given one on are ordinary, and so will be all
that are still to come. -/
structure Staffed (first : Nat) (l : Launch) : Prop where
  machine : l.world.machine.Ordinary
  conduct : ∀ q ∈ l.world.processes.drop first, q.conduct.Ordinary

theorem Staffed.congr (h : Staffed first l) (hmachine : l'.world.machine = l.world.machine)
    (hprocesses : l'.world.processes = l.world.processes) : Staffed first l' where
  machine := hmachine ▸ h.machine
  conduct := hprocesses ▸ h.conduct

/-- One more process is as the machine says. -/
theorem Staffed.joined (h : Staffed first l) {n : Nat} {argv : List String}
    {conduct : Bytes → Conduct} (hstart : l.world.machine.start n argv = .ok conduct) (stage : Nat)
    (stdin stdout stderr : Wiring) :
    Staffed first (l.joined stage argv stdin stdout stderr conduct) where
  machine := h.machine
  conduct q hmem := by
    change q ∈ (l.world.processes ++ [_]).drop first at hmem
    rw [List.drop_append] at hmem
    rcases List.mem_append.1 hmem with hold | hnew
    · exact h.conduct q hold
    · obtain rfl := List.mem_singleton.1 (List.mem_of_mem_drop hnew)
      exact h.machine.conduct n argv conduct hstart _

theorem Staffed.startStage (h : Staffed first l) (index : Nat) (last : Bool) (argv : List String) :
    Staffed first ((startStage capture index last argv).outcome l).2 := by
  cases last with
  | true =>
    cases hstart : l.world.machine.start l.world.startCalls argv with
    | error f =>
      rw [outcome_startStage_last_of_error hstart]
      exact h.congr rfl rfl
    | ok conduct =>
      rw [outcome_startStage_last hstart]
      exact h.joined hstart _ _ _ _
  | false =>
    cases hpipe : l.world.machine.pipeFailure l.world.pipeCalls with
    | some f =>
      rw [outcome_startStage_of_some hpipe]
      exact h.congr rfl rfl
    | none =>
      have hlinked : Staffed first (l.linked index) := h.congr rfl rfl
      cases hstart : l.world.machine.start l.world.startCalls argv with
      | error f =>
        rw [outcome_startStage_of_error hpipe hstart]
        exact hlinked.congr rfl rfl
      | ok conduct =>
        rw [outcome_startStage_of_none hpipe hstart]
        exact hlinked.joined (n := l.world.startCalls) hstart _ _ _ _

theorem Staffed.releaseEnds (h : Staffed first l) (index : Nat) (last : Bool) :
    Staffed first ((releaseEnds index last).outcome l).2 := by
  apply h.congr
  · exact (l.moves_releaseEnds index last).machine
  · exact l.processes_releaseEnds index last

theorem Staffed.stages (h : Staffed first l) (index : Nat) (argvs : List (List String)) :
    Staffed first ((stages capture index argvs).outcome l).2 := by
  -- A step may stop at its start or at its close; the invariant holds there as well.
  induction argvs generalizing l index with
  | nil => exact h
  | cons argv rest ih =>
    have hstarted : Staffed first
        ((Launch.startStage capture index rest.isEmpty argv).outcome l).2 :=
      h.startStage index rest.isEmpty argv
    rw [Launch.stages, Action.outcome_bind, stage, Action.outcome_bind]
    rcases hrun : (Launch.startStage capture index rest.isEmpty argv).outcome l with
      ⟨_ | _, l₁⟩ <;> rw [hrun] at hstarted
    · exact hstarted
    · have hreleased := hstarted.releaseEnds index rest.isEmpty
      dsimp only
      rcases hrun' : (Launch.releaseEnds index rest.isEmpty).outcome l₁ with ⟨_ | _, l₂⟩ <;>
        rw [hrun'] at hreleased
      · exact hreleased
      · exact ih hreleased (index + 1)

/-- Wherever a start stops on an ordinary system, the processes that it has started are
ordinary. -/
theorem ordinary_stopped {w : World} (hordinary : w.machine.Ordinary) (capture : Capture)
    (argvs : List (List String)) {q : Process}
    (hmem : q ∈ (stopped capture argvs w).world.processes.drop w.processes.length) :
    q.conduct.Ordinary := by
  have hbegun : Staffed w.processes.length { world := w } := ⟨hordinary, by simp⟩
  exact (hbegun.stages 0 argvs).conduct q hmem

end Launch

namespace Executor

open Launch (stopped)

variable {e : Executor} {captured : Bool} {p : Pipeline} {w w' : World}

/-- A launch leaves the processes as they were when its stages had been started, for giving up the
links is nothing to them. -/
theorem unread_of_launch {children : List Child}
    (hlaunched : (e.launch captured p.argvs).outcome w = (.ok children, w')) :
    w'.unread = (stopped (e.capture captured) p.argvs w).world.unread := by
  obtain ⟨-, -, -, -, rfl⟩ := stopped_of_launch hlaunched
  rw [World.unread, World.unread, (Launch.releases_given _).processes]

/-- The same for a start that answers a handle, but for what was read from them. -/
theorem unread_of_spawn {h : Handle} (hrun : (e.spawn captured p).outcome w = (.ok h, w')) :
    w'.unread = (stopped (e.capture captured) p.argvs w).world.unread := by
  obtain ⟨children, w₁, hlaunched, -⟩ := Action.outcome_bind_eq_ok_iff.1 hrun
  obtain ⟨-, hunread, -⟩ := spawn_of_launch hlaunched
  rw [hrun] at hunread
  exact hunread.trans (unread_of_launch hlaunched)

/-- On an ordinary system the processes are ordinary, whatever was read from them. -/
theorem ordinary_of_unread (hordinary : w.machine.Ordinary)
    (hunread : w'.unread = (stopped (e.capture captured) p.argvs w).world.unread) {q : Process}
    (hmem : q ∈ w'.startedSince w) : q.conduct.Ordinary := by
  have hget := List.mem_map_of_mem (f := Process.unread) hmem
  rw [World.unread_startedSince hunread] at hget
  obtain ⟨r, hmem', hunread⟩ := List.mem_map.1 hget
  have hconduct : r.unread.conduct = q.unread.conduct := by rw [hunread]
  rw [show q.conduct = r.conduct from hconduct.symm]
  exact Launch.ordinary_stopped hordinary _ _ hmem'

/-! ### What comes of a run -/

theorem outcome_run_of_error {f : Failure}
    (hspawned : (e.spawn captured p).outcome w = (.error f, w')) :
    (e.run captured p).outcome w = (.error f, w') := by
  rw [run, Action.outcome_bind_of_error hspawned]

theorem outcome_run_of_ok {h : Handle} (hspawned : (e.spawn captured p).outcome w = (.ok h, w')) :
    (e.run captured p).outcome w = ((h.wait.run w').1.1, (h.wait.run w').2) := by
  rw [run, Action.outcome_bind_of_ok hspawned, Action.outcome_bind, Action.outcome_liftM]
  dsimp only
  cases (h.wait.run w').1.1 <;> rfl

/-- Whenever a start of the pipeline is refused a stage, the captured outputs of the processes that
it has started by then can be closed. -/
def Cleans (e : Executor) (captured : Bool) (p : Pipeline) (w : World) : Prop :=
  ∀ k refusal, w.Refuses p.argvs k refusal →
    ∀ q ∈ (stopped (e.capture captured) p.argvs w).world.processes.drop w.processes.length,
      ∀ o, q.wiring o = .captured → (q.stream o).closeFailure = none

/-- On an ordinary system a run that is refused a stage fails with the error that names the
stage. -/
theorem run_of_refuses (hordinary : w.machine.Ordinary) (hcleans : e.Cleans captured p w) {k : Nat}
    {refusal : Refusal} (hrefuses : w.Refuses p.argvs k refusal) :
    ∃ s w', p.stages[k]? = some s ∧ (e.run captured p).outcome w =
      (.error (.error (.spawn k (some s.program) refusal.fault)), w') := by
  have hreported : refusal.Reported := by
    cases refusal with
    | link f => exact hordinary.pipe _ f hrefuses.refused.2
    | process f =>
      have hheard := hordinary.refusal _ _ f hrefuses.refused.2
      simpa [Fault.isHeard, Refusal.Reported] using hheard
  obtain ⟨s, hget, hfailed, -, -, hcrewed, -⟩ := exists_refused_stage e captured p hrefuses
  rw [Refusal.failure_of_reported hreported] at hfailed
  -- Nothing stops the undoing of the start.
  have hreleasable : (stopped (e.capture captured) p.argvs w).Releasable := by
    obtain ⟨calls, hbalanced⟩ :=
      (Launch.moves_stopped (e.capture captured) p.argvs w).exists_balanced
    intro n _
    rw [hbalanced.leads.machine]
    exact hordinary.close _
  obtain ⟨w', hundone, -⟩ := hcrewed.exists_undone (α := List Child) hreleasable
    (fun q hmem => Process.reapable_of_ordinary (Launch.ordinary_stopped hordinary _ _ hmem)
      (hcleans k refusal hrefuses q hmem))
    (.error (.spawn k (some s.program) refusal.fault))
  have hstages : p.argvs ≠ [] := List.ne_nil_of_length_pos (Nat.zero_lt_of_lt hrefuses.stage)
  exact ⟨s, w', hget, outcome_run_of_error (outcome_spawn_of_abandon hstages hfailed hundone)⟩

/-- On an ordinary system a run that is refused no stage has a process for each, and comes out as
the pass over these does. -/
theorem run_of_not_refuses (captured : Bool) (hordinary : w.machine.Ordinary)
    (hpos : 0 < e.chunkSize)
    (hstages : p.stages ≠ []) (hfine : ∀ k refusal, ¬ w.Refuses p.argvs k refusal) :
    ∃ h w₁ w', (e.spawn captured p).outcome w = (.ok h, w₁) ∧
      (e.run captured p).outcome w = (h.verdict (w₁.startedSince w), w') ∧
      h = .ofProcesses captured p.argvs w.nextPid (w₁.startedSince w) ∧
      (w₁.startedSince w).length = p.stages.length ∧
      Process.WiredFor (e.capture captured) (w₁.startedSince w) ∧
      ∀ q ∈ w₁.startedSince w, q.conduct.Ordinary := by
  have hargvs : p.argvs ≠ [] := by simpa [Pipeline.argvs] using hstages
  have hgrants := World.grants_of_not_refuses hordinary hargvs hfine
  obtain ⟨children, w₀, hlaunched, -⟩ := e.exists_launch captured hargvs hgrants
  obtain ⟨h, w₁, hspawned, -⟩ := exists_spawn_of_heard hpos hlaunched fun q hmem o _ f hfault =>
    (Process.ordinary_stream (ordinary_of_unread hordinary (unread_of_launch hlaunched) hmem)
      o).isHeard_of_fault? hfault
  obtain ⟨rfl, hlength, hwired⟩ := exists_processes_of_spawn hpos hspawned
  obtain ⟨w', hwaited, -⟩ := Handle.run_wait (h := .ofProcesses captured p.argvs w.nextPid _)
    (w₁.knows_startedSince w) rfl rfl
  refine ⟨_, w₁, w', hspawned, ?_, rfl, hlength, hwired, fun q =>
    ordinary_of_unread hordinary (unread_of_spawn hspawned)⟩
  rw [outcome_run_of_ok hspawned, hwaited]

end Executor

end Pipework
