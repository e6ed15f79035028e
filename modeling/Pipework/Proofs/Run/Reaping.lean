import Pipework.Proofs.Run.Confinement

/-!
# Ending processes

After a start that failed, every child is ended: its captured outputs are closed, it is polled, it
is killed if it still runs, and it is waited for. What comes of this is determined by what the
process answers, and no child has a share in what another one answers. A fault that is not got over
ends the whole: the children after it are left as they are.

## Main definitions

* `Process.outputFault?`, `Process.killFault?`, `Process.waitFault?` — what is not got over
* `Process.reapFault?`, `Process.reapCalls` — what comes of ending a process, and by which calls
* `Process.Reapable` — ending the process meets nothing that is not got over
* `World.Turns` — some calls that concern one process alone
* `closeOutputs`, `stopChild`, `awaitChild` — the three steps by which a child is ended
* `Process.reapAllCalls`, `Process.endings` — the calls by which several processes are ended
* `World.EndsInOrder` — one process is ended after the other, its outputs closed before its poll

## Main results

* `Process.reapFault?_eq_none_iff` — when nothing stops the ending of a process
* `outcome_reapChild`, `outcome_reap` — what comes of ending one child, and several
* `endsInOrder_of_reapable` — if nothing stops it, several children are ended in order
* `confines_reap` — ending processes is confined to calls on processes
-/

namespace Pipework

/-! ### What a process answers -/

namespace Process

/-- The fault in closing an output, if it is captured. -/
def closeFault? (p : Process) (o : Output) : Option Fault :=
  if p.wiring o == .captured then (p.stream o).closeFailure else none

/-- The fault in closing the captured outputs. -/
def outputFault? (p : Process) : Option Fault := (p.closeFault? .stdout).or (p.closeFault? .stderr)

/-- A poll answers that the process still runs. -/
def stillRuns (p : Process) : Bool := p.conduct.polls.head?.join.isNone

/-- The fault in killing the process, unless it ended by itself meanwhile. -/
def killFault? (p : Process) : Option Fault :=
  if p.stillRuns then p.conduct.killFailure.filter (·.kind != .noProcess) else none

/-- The fault in waiting for the process, unless the system refused the wait. -/
def waitFault? (p : Process) : Option Fault := p.conduct.waits.head?.join.filter (!·.isSystem)

/-- The fault that stops the ending of the process. -/
def reapFault? (p : Process) : Option Fault := p.outputFault?.or (p.killFault?.or p.waitFault?)

/-- The calls by which the process is ended, up to a fault that stops it. -/
def reapCalls (p : Process) (pid : Nat) : List Call :=
  if p.outputFault?.isSome then []
  else [.poll pid] ++ (if p.stillRuns then [.kill pid] else []) ++
    if p.killFault?.isSome then [] else [.wait pid]

/-- The calls by which the process is ended, if nothing stops that: it is polled, killed if it
still runs, and waited for. -/
def ending (p : Process) (pid : Nat) : List Call :=
  [.poll pid] ++ (if p.stillRuns then [.kill pid] else []) ++ [.wait pid]

/-- Ending the process meets nothing that is not got over: its captured outputs can be closed, a
kill that it needs fails at most because the process is gone, and a wait at most because the system
refuses it. -/
structure Reapable (p : Process) : Prop where
  close : ∀ o, p.wiring o = .captured → (p.stream o).closeFailure = none
  kill : p.stillRuns = true → ∀ f, p.conduct.killFailure = some f → f.kind = .noProcess
  wait : ∀ f, p.conduct.waits.head?.join = some f → f.isSystem = true

variable {p : Process}

theorem outputFault?_eq_none_iff :
    p.outputFault? = none ↔ ∀ o, p.wiring o = .captured → (p.stream o).closeFailure = none := by
  have hone : ∀ o, p.closeFault? o = none ↔
      (p.wiring o = .captured → (p.stream o).closeFailure = none) := by
    intro o
    simp [closeFault?]
  rw [outputFault?, Option.or_eq_none_iff, hone, hone]
  exact ⟨fun ⟨hout, herr⟩ o => by cases o <;> assumption, fun hall => ⟨hall _, hall _⟩⟩

theorem killFault?_eq_none_iff :
    p.killFault? = none ↔
      (p.stillRuns = true → ∀ f, p.conduct.killFailure = some f → f.kind = .noProcess) := by
  simp [killFault?, Option.filter_eq_none_iff]

theorem waitFault?_eq_none_iff :
    p.waitFault? = none ↔ ∀ f, p.conduct.waits.head?.join = some f → f.isSystem = true := by
  simp [waitFault?, Option.filter_eq_none_iff]

/-- Nothing stops the ending of a process exactly if all it meets is got over. -/
theorem reapFault?_eq_none_iff : p.reapFault? = none ↔ p.Reapable := by
  rw [reapFault?, Option.or_eq_none_iff, Option.or_eq_none_iff, outputFault?_eq_none_iff,
    killFault?_eq_none_iff, waitFault?_eq_none_iff]
  exact ⟨fun ⟨hclose, hkill, hwait⟩ => ⟨hclose, hkill, hwait⟩, fun h => ⟨h.close, h.kill, h.wait⟩⟩

instance (p : Process) : Decidable p.Reapable :=
  decidable_of_iff (p.reapFault? = none) reapFault?_eq_none_iff

/-- A process that nothing stops the ending of is polled, killed if it still runs, and waited
for. -/
theorem Reapable.reapCalls_eq (h : p.Reapable) (pid : Nat) : p.reapCalls pid = p.ending pid := by
  have houtput := outputFault?_eq_none_iff.2 h.close
  have hkill := killFault?_eq_none_iff.2 h.kill
  simp [reapCalls, ending, houtput, hkill]

/-- The process after an output was closed, if it is captured. -/
def closedOutput (p : Process) (o : Output) : Process :=
  if p.wiring o == .captured then p.record o [.close] else p

@[simp] theorem conduct_closedOutput (p : Process) (o : Output) :
    (p.closedOutput o).conduct = p.conduct := by
  unfold closedOutput record
  split
  · cases o <;> rfl
  · rfl

@[simp] theorem wiring_closedOutput (p : Process) (o o' : Output) :
    (p.closedOutput o).wiring o' = p.wiring o' := by
  unfold closedOutput record
  split
  · cases o <;> cases o' <;> rfl
  · rfl

theorem events_closedOutput (p : Process) (o o' : Output) :
    (p.closedOutput o).events o' =
      if o = o' ∧ p.wiring o = .captured then p.events o' ++ [.close] else p.events o' := by
  by_cases hcaptured : p.wiring o = .captured
  · cases o <;> cases o' <;> simp [closedOutput, hcaptured, record, events]
  · simp [closedOutput, hcaptured]

/-- The process after its captured outputs were closed. -/
def closedOutputs (p : Process) : Process := (p.closedOutput .stdout).closedOutput .stderr

theorem events_closedOutputs (p : Process) (o : Output) :
    p.closedOutputs.events o =
      if p.wiring o = .captured then p.events o ++ [.close] else p.events o := by
  rw [closedOutputs, events_closedOutput, events_closedOutput, wiring_closedOutput]
  cases o <;> simp

end Process

/-! ### One process at a time -/

/-- The outcome of what meets a fault, or none. -/
def Fault.outcomeOf : Option Fault → Except Fault Unit
  | none => .ok ()
  | some f => .error f

open Fault (outcomeOf)

/-- Some calls were made that turn one process into another and leave the other ones alone. -/
structure World.Turns (w : World) (pid : Nat) (cs : List Call) (q : Process) (w' : World) :
    Prop where
  calls : w'.calls = w.calls ++ cs
  self : w'.process? pid = some q
  others : ∀ other, other ≠ pid → w'.process? other = w.process? other

namespace World

variable {w w₁ w₂ : World} {pid : Nat} {cs cs' : List Call} {p q r : Process}

theorem firstPid_le_of_process? (h : w.process? pid = some p) : firstPid ≤ pid := by
  unfold process? at h
  split at h
  · cases h
  · omega

theorem process?_change (hknown : w.process? pid = some p) (f : Process → Process) :
    (w.change pid f).process? pid = some (f p) := by
  have hle := firstPid_le_of_process? hknown
  unfold process? at hknown ⊢
  rw [if_neg (by omega)] at hknown ⊢
  simp [change, hknown]

theorem process?_change_of_ne (hknown : w.process? pid = some p) {other : Nat} (hne : other ≠ pid)
    (f : Process → Process) : (w.change pid f).process? other = w.process? other := by
  have hle := firstPid_le_of_process? hknown
  unfold process?
  split
  · rfl
  · have hne' : pid - firstPid ≠ other - firstPid := by omega
    simp [change, hne']

namespace Turns

theorem refl (hknown : w.process? pid = some p) : w.Turns pid [] p w :=
  ⟨by simp, hknown, fun _ _ => rfl⟩

theorem trans (h : w.Turns pid cs q w₁) (h' : w₁.Turns pid cs' r w₂) :
    w.Turns pid (cs ++ cs') r w₂ where
  calls := by rw [h'.calls, h.calls, List.append_assoc]
  self := h'.self
  others other hne := (h'.others other hne).trans (h.others other hne)

theorem log (hknown : w.process? pid = some p) (c : Call) : w.Turns pid [c] p (w.log c) :=
  ⟨rfl, hknown, fun _ _ => rfl⟩

theorem takeNote (h : w.Turns pid cs q w₁) (n : Note) : w.Turns pid cs q (w₁.takeNote n) :=
  ⟨h.calls, h.self, h.others⟩

theorem change (hknown : w.process? pid = some p) (f : Process → Process) :
    w.Turns pid [] (f p) (w.change pid f) where
  calls := by simp
  self := process?_change hknown f
  others _ hne := process?_change_of_ne hknown hne f

end Turns

theorem outcome_closeOutput (hknown : w.process? pid = some p) (o : Output) :
    ∃ w', (closeOutput pid o).outcome w = (outcomeOf (p.closeFault? o), w') ∧
      w.Turns pid [] (p.closedOutput o) w' := by
  by_cases hcaptured : p.wiring o = .captured
  · have hclosed : p.closedOutput o = p.record o [.close] := by
      simp [Process.closedOutput, hcaptured]
    refine ⟨w.change pid (·.record o [.close]), ?_, hclosed ▸ .change hknown (·.record o [.close])⟩
    simp only [closeOutput, Action.outcome_ofFun, hknown, Process.closeFault?, hcaptured,
      beq_self_eq_true, if_true]
    cases (p.stream o).closeFailure <;> rfl
  · have hsame : p.closedOutput o = p := by simp [Process.closedOutput, hcaptured]
    refine ⟨w, ?_, hsame.symm ▸ .refl hknown⟩
    simp [closeOutput, hknown, Process.closeFault?, hcaptured, outcomeOf]

theorem outcome_poll (hknown : w.process? pid = some p) :
    ∃ w' q, (poll pid).outcome w = (.ok p.conduct.polls.head?.join, w') ∧
      w.Turns pid [.poll pid] q w' ∧ q.conduct.killFailure = p.conduct.killFailure ∧
      q.conduct.waits = p.conduct.waits ∧ q.events = p.events := by
  have hlogged : (w.log (.poll pid)).process? pid = some p := hknown
  let next (p : Process) : Process :=
    { p with conduct := { p.conduct with polls := p.conduct.polls.tail } }
  refine ⟨_, next p, ?_, (Turns.log hknown (.poll pid)).trans (.change hlogged next),
    rfl, rfl, rfl⟩
  simp only [poll, Action.outcome_ofFun, hlogged]
  rfl

theorem outcome_kill (hknown : w.process? pid = some p) :
    ∃ w', (kill pid).outcome w = (outcomeOf p.conduct.killFailure, w') ∧
      w.Turns pid [.kill pid] p w' := by
  have hlogged : (w.log (.kill pid)).process? pid = some p := hknown
  refine ⟨_, ?_, .log hknown (.kill pid)⟩
  simp only [kill, Action.outcome_ofFun, hlogged, Option.bind_some]
  cases p.conduct.killFailure <;> rfl

theorem outcome_wait (hknown : w.process? pid = some p) :
    ∃ w' q, (wait pid).outcome w =
        ((match p.conduct.waits.head?.join with
          | some f => .error f
          | none => .ok p.conduct.returnCode), w') ∧
      w.Turns pid [.wait pid] q w' ∧ q.events = p.events := by
  have hlogged : (w.log (.wait pid)).process? pid = some p := hknown
  let next (p : Process) : Process :=
    { p with conduct := { p.conduct with waits := p.conduct.waits.tail } }
  refine ⟨_, next p, ?_, (Turns.log hknown (.wait pid)).trans (.change hlogged next), rfl⟩
  simp only [wait, Action.outcome_ofFun, hlogged]
  cases p.conduct.waits.head?.join <;> rfl

end World

/-! ### One child -/

/-- A process as its parent knows it. -/
def Process.child (p : Process) (pid : Nat) : Child where
  pid := pid
  stdout := p.stdout == .captured
  stderr := p.stderr == .captured

/-- Closes an output of a child, if it is captured. -/
def closeCaptured (captured : Bool) (pid : Nat) (o : Output) : Action World Fault Unit :=
  if captured then World.closeOutput pid o else pure ()

/-- Closes the outputs of a child that are captured. -/
def closeOutputs (child : Child) : Action World Fault Unit := do
  closeCaptured child.stdout child.pid .stdout
  closeCaptured child.stderr child.pid .stderr

/-- Polls a child and kills it if it still runs. -/
def stopChild (index : Nat) (child : Child) : Action World Fault Unit := do
  if (← World.poll child.pid).isNone then
    World.note (.killing index child.pid)
    killIfRunning child.pid

/-- Waits for a child that is ended. -/
def awaitChild (index : Nat) (child : Child) : Action World Fault Unit := do
  match ← (World.wait child.pid).attempt with
  | .ok _ => pure ()
  | .error f => if f.isSystem then World.note (.notReaped index child.pid f) else throw f

/-- A child is ended in three steps. -/
theorem reapChild_eq (index : Nat) (child : Child) :
    reapChild index child = (do
      closeOutputs child
      stopChild index child
      awaitChild index child) := by
  -- What follows a kill that may be needed is written into both branches there.
  have hguarded :
    ∀ (b : Bool) (a : Action World Fault Unit) (rest : Unit → Action World Fault Unit),
      ((if b then a else pure ()) >>= rest) = if b then a >>= rest else rest () := by
    intro b a rest
    cases b
    · exact pure_bind () rest
    · rfl
  have hwaits : reapChild index child = (do
      if child.stdout then World.closeOutput child.pid .stdout
      if child.stderr then World.closeOutput child.pid .stderr
      if (← World.poll child.pid).isNone then
        World.note (.killing index child.pid)
        killIfRunning child.pid
      awaitChild index child) := rfl
  rw [hwaits]
  unfold closeOutputs closeCaptured stopChild
  cases child.stdout <;> cases child.stderr <;>
    simp only [if_true, Bool.false_eq_true, if_false, bind_assoc, pure_bind, hguarded]

section Child

variable {w : World} {pid : Nat} {p : Process}

theorem Process.closeFault?_closedOutput (p : Process) (o o' : Output) :
    (p.closedOutput o).closeFault? o' = p.closeFault? o' := by
  have hstream : (p.closedOutput o).stream o' = p.stream o' := by
    cases o' <;> simp [Process.stream]
  rw [closeFault?, closeFault?, wiring_closedOutput, hstream]

/-- An output that is not captured is as good as closed. -/
theorem outcome_closeCaptured (hknown : w.process? pid = some p) (o : Output) :
    (closeCaptured (p.wiring o == .captured) pid o).outcome w =
      (World.closeOutput pid o).outcome w := by
  by_cases hcaptured : p.wiring o = .captured
  · simp [closeCaptured, hcaptured]
  · simp [closeCaptured, World.closeOutput, hcaptured, hknown]

theorem outcome_closeOutputs (hknown : w.process? pid = some p) :
    ∃ w' q, (closeOutputs (p.child pid)).outcome w = (outcomeOf p.outputFault?, w') ∧
      w.Turns pid [] q w' ∧ q.conduct = p.conduct ∧
      (p.outputFault? = none → q.events = p.closedOutputs.events) := by
  obtain ⟨w₁, hfirst, hturns₁⟩ := World.outcome_closeOutput hknown .stdout
  obtain ⟨w₂, hsecond, hturns₂⟩ := World.outcome_closeOutput hturns₁.self .stderr
  rw [Process.closeFault?_closedOutput] at hsecond
  have hstdout := outcome_closeCaptured hknown .stdout
  have hstderr := outcome_closeCaptured hturns₁.self .stderr
  rw [Process.wiring_closedOutput] at hstderr
  rw [hfirst] at hstdout
  rw [hsecond] at hstderr
  have hboth : closeOutputs (p.child pid) = (do
      closeCaptured (p.wiring .stdout == .captured) pid .stdout
      closeCaptured (p.wiring .stderr == .captured) pid .stderr) := rfl
  rw [hboth]
  -- The error output is closed only if closing the output did not fail.
  cases hfault : p.closeFault? .stdout with
  | some f =>
    rw [hfault] at hstdout
    refine ⟨w₁, _, ?_, hturns₁, Process.conduct_closedOutput p .stdout, fun hnone => ?_⟩
    · rw [Action.outcome_bind_of_error hstdout, Process.outputFault?, hfault]
      rfl
    · simp [Process.outputFault?, hfault] at hnone
  | none =>
    rw [hfault] at hstdout
    refine ⟨w₂, _, ?_, hturns₁.trans hturns₂, ?_, fun _ => rfl⟩
    · rw [Action.outcome_bind_of_ok hstdout, hstderr, Process.outputFault?, hfault, Option.none_or]
    · rw [Process.conduct_closedOutput, Process.conduct_closedOutput]

theorem outcome_killIfRunning (hknown : w.process? pid = some p) :
    ∃ w', (killIfRunning pid).outcome w =
        (outcomeOf (p.conduct.killFailure.filter (·.kind != .noProcess)), w') ∧
      w.Turns pid [.kill pid] p w' := by
  obtain ⟨w', hkill, hturns⟩ := World.outcome_kill hknown
  refine ⟨w', ?_, hturns⟩
  simp only [killIfRunning, Action.outcome_bind, Action.outcome_attempt, hkill]
  cases p.conduct.killFailure with
  | none => rfl
  | some f =>
    by_cases hgone : f.kind = .noProcess
    · simp [outcomeOf, hgone, Option.filter]
    · simp [outcomeOf, hgone, Option.filter]

/-- A child that still runs is killed, and one that has ended is left alone. -/
theorem outcome_stopChild (hknown : w.process? pid = some p) (index : Nat) {child : Child}
    (hsame : child.pid = pid) :
    ∃ w' q, (stopChild index child).outcome w = (outcomeOf p.killFault?, w') ∧
      w.Turns pid ([.poll pid] ++ if p.stillRuns then [.kill pid] else []) q w' ∧
      q.conduct.waits = p.conduct.waits ∧ q.events = p.events := by
  obtain ⟨w₁, q, hpoll, hturns₁, hkill, hwaits, hevents⟩ := World.outcome_poll hknown
  subst hsame
  -- A process that has ended is not killed.
  cases hruns : p.conduct.polls.head?.join with
  | some code =>
    refine ⟨w₁, q, ?_, ?_, hwaits, hevents⟩
    · simp [stopChild, Action.outcome_bind, hpoll, hruns, Process.killFault?, Process.stillRuns,
        outcomeOf]
    · simpa [Process.stillRuns, hruns] using hturns₁
  | none =>
    have hnoted := hturns₁.takeNote (.killing index child.pid)
    obtain ⟨w₂, hkilled, hturns₂⟩ := outcome_killIfRunning hnoted.self
    refine ⟨w₂, q, ?_, ?_, hwaits, hevents⟩
    · rw [hkill] at hkilled
      simp only [stopChild, Action.outcome_bind, hpoll, hruns, Option.isNone_none, if_true,
        Process.killFault?, Process.stillRuns]
      exact hkilled
    · simpa [Process.stillRuns, hruns] using hnoted.trans hturns₂

theorem outcome_awaitChild (hknown : w.process? pid = some p) (index : Nat) {child : Child}
    (hsame : child.pid = pid) :
    ∃ w' q, (awaitChild index child).outcome w = (outcomeOf p.waitFault?, w') ∧
      w.Turns pid [.wait pid] q w' ∧ q.events = p.events := by
  obtain ⟨w₁, q, hwait, hturns, hevents⟩ := World.outcome_wait hknown
  subst hsame
  simp only [awaitChild, Action.outcome_bind, Action.outcome_attempt, hwait, Process.waitFault?]
  cases p.conduct.waits.head?.join with
  | none => exact ⟨w₁, q, rfl, hturns, hevents⟩
  | some f =>
    by_cases hsystem : f.isSystem = true
    · refine ⟨_, q, ?_, hturns.takeNote (.notReaped index child.pid f), hevents⟩
      simp only [hsystem, if_true]
      simp [Option.filter, hsystem, outcomeOf]
      rfl
    · refine ⟨w₁, q, ?_, hturns, hevents⟩
      simp [Option.filter, hsystem, outcomeOf]

/-- What comes of ending a child: the fault that stops it, if there is one, and the calls up to
there. If its outputs can be closed, each that is captured was closed once. -/
theorem outcome_reapChild (hknown : w.process? pid = some p) (index : Nat) :
    ∃ w' q, (reapChild index (p.child pid)).outcome w = (outcomeOf p.reapFault?, w') ∧
      w.Turns pid (p.reapCalls pid) q w' ∧
      (p.outputFault? = none → q.events = p.closedOutputs.events) := by
  obtain ⟨w₁, q₁, hclosed, hturns₁, hconduct, hevents₁⟩ := outcome_closeOutputs hknown
  rw [reapChild_eq]
  cases houtput : p.outputFault? with
  | some f =>
    rw [houtput] at hclosed
    refine ⟨w₁, q₁, ?_, ?_, fun hnone => nomatch hnone⟩
    · rw [Action.outcome_bind_of_error hclosed, Process.reapFault?, houtput]
      rfl
    · simpa [Process.reapCalls, houtput] using hturns₁
  | none =>
    rw [houtput] at hclosed
    -- Closing outputs leaves the conduct alone, and what follows depends on nothing else.
    have hkills : q₁.killFault? = p.killFault? := by
      rw [Process.killFault?, Process.killFault?, Process.stillRuns, Process.stillRuns, hconduct]
    have hruns : q₁.stillRuns = p.stillRuns := by
      rw [Process.stillRuns, Process.stillRuns, hconduct]
    obtain ⟨w₂, q₂, hstopped, hturns₂, hwaits, hevents₂⟩ :=
      outcome_stopChild hturns₁.self index (rfl : (p.child pid).pid = pid)
    rw [hkills] at hstopped
    rw [hruns] at hturns₂
    rw [Action.outcome_bind_of_ok hclosed]
    cases hkill : p.killFault? with
    | some f =>
      rw [hkill] at hstopped
      refine ⟨w₂, q₂, ?_, ?_, fun _ => hevents₂.trans (hevents₁ houtput)⟩
      · rw [Action.outcome_bind_of_error hstopped, Process.reapFault?, houtput, hkill]
        rfl
      · simpa [Process.reapCalls, houtput, hkill] using hturns₁.trans hturns₂
    | none =>
      rw [hkill] at hstopped
      have hawaits : q₂.waitFault? = p.waitFault? := by
        rw [Process.waitFault?, Process.waitFault?, hwaits, hconduct]
      obtain ⟨w₃, q₃, hawaited, hturns₃, hevents₃⟩ :=
        outcome_awaitChild hturns₂.self index (rfl : (p.child pid).pid = pid)
      rw [hawaits] at hawaited
      refine ⟨w₃, q₃, ?_, ?_, fun _ => hevents₃.trans (hevents₂.trans (hevents₁ houtput))⟩
      · rw [Action.outcome_bind_of_ok hstopped, hawaited, Process.reapFault?, houtput, hkill]
        rfl
      · simpa [Process.reapCalls, houtput, hkill] using (hturns₁.trans hturns₂).trans hturns₃

end Child

/-! ### Several children -/

/-- Processes as their parent knows them, with numbers from the given one on. -/
def Process.children (pid : Nat) (ps : List Process) : List Child :=
  ps.mapIdx fun j p => p.child (pid + j)

/-- The calls by which processes are ended in turn, up to a fault that stops it. -/
def Process.reapAllCalls (pid : Nat) : List Process → List Call
  | [] => []
  | p :: ps => p.reapCalls pid ++ if p.reapFault?.isSome then [] else reapAllCalls (pid + 1) ps

/-- The calls by which processes are ended in turn, if nothing stops that. -/
def Process.endings (pid : Nat) (ps : List Process) : List Call :=
  (ps.mapIdx fun j p => p.ending (pid + j)).flatten

/-- The processes of a world with numbers from the given one on. -/
def World.Knows (w : World) (pid : Nat) (ps : List Process) : Prop :=
  ∀ j p, ps[j]? = some p → w.process? (pid + j) = some p

section Children

variable {w w' : World} {pid : Nat} {p q : Process} {ps : List Process}

theorem Process.children_cons (pid : Nat) (p : Process) (ps : List Process) :
    children pid (p :: ps) = p.child pid :: children (pid + 1) ps := by
  simp [children, Nat.add_comm, Nat.add_left_comm]

theorem Process.endings_cons (pid : Nat) (p : Process) (ps : List Process) :
    endings pid (p :: ps) = p.ending pid ++ endings (pid + 1) ps := by
  simp [endings, Nat.add_comm, Nat.add_left_comm]

/-- Processes that nothing stops the ending of are ended one after another. -/
theorem Process.reapAllCalls_of_reapable (hreapable : ∀ p ∈ ps, p.Reapable) (pid : Nat) :
    reapAllCalls pid ps = endings pid ps := by
  induction ps generalizing pid with
  | nil => rfl
  | cons p ps ih =>
    have hfirst := hreapable p List.mem_cons_self
    have hfine := reapFault?_eq_none_iff.2 hfirst
    have hrest := ih (fun p hmem => hreapable p (List.mem_cons_of_mem _ hmem)) (pid + 1)
    rw [reapAllCalls, endings_cons, hfirst.reapCalls_eq, hfine, hrest]
    rfl

/-- Once the first process has turned into another one, the others are as they were. -/
theorem World.Knows.tail {cs : List Call} (h : w.Knows pid (p :: ps))
    (hturns : w.Turns pid cs q w') : w'.Knows (pid + 1) ps := by
  intro j r hget
  have hknown := h (j + 1) r hget
  rw [hturns.others _ (by omega), Nat.add_right_comm, Nat.add_assoc]
  exact hknown

/-- What comes of ending children: the fault that stops it, if there is one, and the calls up to
there. -/
theorem outcome_reap (hknown : w.Knows pid ps) (index : Nat) :
    ∃ w', (reap index (Process.children pid ps)).outcome w =
        (outcomeOf (ps.findSome? Process.reapFault?), w') ∧
      w'.calls = w.calls ++ Process.reapAllCalls pid ps ∧
      (∀ other, other < pid ∨ pid + ps.length ≤ other → w'.process? other = w.process? other) ∧
      ((∀ p ∈ ps, p.Reapable) → ∀ j p, ps[j]? = some p →
        (w'.process? (pid + j)).map Process.events = some p.closedOutputs.events) := by
  induction ps generalizing w pid index with
  | nil => exact ⟨w, rfl, by simp [Process.reapAllCalls], fun _ _ => rfl, by simp⟩
  | cons p ps ih =>
    have hself : w.process? pid = some p := hknown 0 p rfl
    obtain ⟨w₁, q, hfirst, hturns, hevents⟩ := outcome_reapChild hself index
    rw [Process.children_cons, reap]
    -- A fault here ends the whole. Without one the other processes are as they were.
    cases hfault : p.reapFault? with
    | some f =>
      rw [hfault] at hfirst
      refine ⟨w₁, ?_, ?_, fun other hout => hturns.others other ?_, fun hreapable => ?_⟩
      · rw [Action.outcome_bind_of_error hfirst, List.findSome?_cons, hfault]
        rfl
      · simpa [Process.reapAllCalls, hfault] using hturns.calls
      · rw [List.length_cons] at hout
        omega
      · have hfine := Process.reapFault?_eq_none_iff.2 (hreapable p List.mem_cons_self)
        exact absurd (hfault.symm.trans hfine) (Option.some_ne_none f)
    | none =>
      rw [hfault] at hfirst
      obtain ⟨w₂, hrest, hcalls, hothers, hclosed⟩ := ih (hknown.tail hturns) (index + 1)
      refine ⟨w₂, ?_, ?_, fun other hout => ?_, fun hreapable j r hget => ?_⟩
      · rw [Action.outcome_bind_of_ok hfirst, hrest, List.findSome?_cons, hfault]
      · rw [hcalls, hturns.calls, Process.reapAllCalls, hfault, List.append_assoc]
        rfl
      · rw [List.length_cons] at hout
        rw [hothers other (by omega), hturns.others other (by omega)]
      · cases j with
        | zero =>
          obtain rfl := Option.some.inj hget
          have houtput : p.outputFault? = none :=
            Process.outputFault?_eq_none_iff.2 (hreapable p List.mem_cons_self).close
          rw [Nat.add_zero, hothers pid (by omega), hturns.self, Option.map_some, hevents houtput]
        | succ j =>
          have hlater := hclosed (fun p hmem => hreapable p (List.mem_cons_of_mem _ hmem)) j r hget
          rw [Nat.add_right_comm, Nat.add_assoc] at hlater
          exact hlater

/-- The ending of several children, as seen from one of them. -/
theorem reap_split (index : Nat) (before : List Child) (child : Child) (after : List Child) :
    reap index (before ++ child :: after) = (do
      reap index before
      closeOutputs child
      stopChild (index + before.length) child
      awaitChild (index + before.length) child
      reap (index + before.length + 1) after) := by
  induction before generalizing index with
  | nil =>
    change (reapChild index child >>= fun _ => reap (index + 1) after) = _
    rw [reapChild_eq]
    simp only [bind_assoc]
    rfl
  | cons first before ih =>
    have hshift : index + 1 + before.length = index + (first :: before).length := by
      simp [Nat.add_comm, Nat.add_left_comm]
    rw [List.cons_append, reap, ih, hshift, reap, bind_assoc]

theorem Process.children_append (pid : Nat) (before : List Process) (q : Process)
    (after : List Process) :
    children pid (before ++ q :: after) =
      children pid before ++ q.child (pid + before.length) ::
        children (pid + before.length + 1) after := by
  induction before generalizing pid with
  | nil => exact children_cons pid q after
  | cons p before ih =>
    have hshift : pid + 1 + before.length = pid + (p :: before).length := by
      simp [Nat.add_comm, Nat.add_left_comm]
    rw [List.cons_append, children_cons, ih, hshift, children_cons, List.cons_append]

/-- On the way from one world to another, processes are ended in order. When the captured outputs
of one of them are closed, the ones before it have been ended, and no captured output of one after
it has been closed; after that it is polled, and the ones after it are ended in turn. -/
def World.EndsInOrder (w : World) (pid : Nat) (ps : List Process) (w' : World) : Prop :=
  ∀ before q after, ps = before ++ q :: after →
    let child := q.child (pid + before.length)
    ∃ v, (do reap 0 (Process.children pid before); closeOutputs child).outcome w = (.ok (), v) ∧
      v.calls = w.calls ++ Process.endings pid before ∧
      (∀ i p, ps[i]? = some p → (v.process? (pid + i)).map Process.events =
        some (if i ≤ before.length then p.closedOutputs.events else p.events)) ∧
      (do
        stopChild before.length child
        awaitChild before.length child
        reap (before.length + 1) (Process.children (pid + before.length + 1) after)).outcome v =
          (.ok (), w')

/-- Processes that nothing stops the ending of are ended in order. -/
theorem endsInOrder_of_reapable (hknown : w.Knows pid ps) (hreapable : ∀ p ∈ ps, p.Reapable)
    (hended : (reap 0 (Process.children pid ps)).outcome w = (.ok (), w')) :
    w.EndsInOrder pid ps w' := by
  rintro before q after rfl
  have hknownBefore : w.Knows pid before := fun i p hget =>
    hknown i p (by rw [List.getElem?_append_left (List.getElem?_eq_some_iff.1 hget).1, hget])
  have hreapableBefore : ∀ p ∈ before, p.Reapable := fun p hmem =>
    hreapable p (List.mem_append_left _ hmem)
  have hfine : before.findSome? Process.reapFault? = none :=
    List.findSome?_eq_none_iff.2 fun p hmem =>
      Process.reapFault?_eq_none_iff.2 (hreapableBefore p hmem)
  -- Between the processes before it and its own turn stands the world `u`.
  obtain ⟨u, hendedBefore, hcalls, hothers, hclosed⟩ := outcome_reap hknownBefore 0
  rw [hfine] at hendedBefore
  have hknownSelf : u.process? (pid + before.length) = some q := by
    rw [hothers _ (.inr (Nat.le_refl _))]
    exact hknown before.length q (by simp)
  obtain ⟨v, q', hgiven, hturns, -, hevents⟩ := outcome_closeOutputs hknownSelf
  have hclosable : q.outputFault? = none :=
    Process.outputFault?_eq_none_iff.2 (hreapable q (by simp)).close
  rw [hclosable] at hgiven
  refine ⟨v, ?_, ?_, fun i p hget => ?_, ?_⟩
  · rw [Action.outcome_bind_of_ok hendedBefore, hgiven]
    rfl
  · rw [hturns.calls, hcalls, Process.reapAllCalls_of_reapable hreapableBefore, List.append_nil]
  · rcases Nat.lt_trichotomy i before.length with hlt | rfl | hgt
    · rw [List.getElem?_append_left hlt] at hget
      rw [hturns.others _ (by omega), hclosed hreapableBefore i p hget, if_pos (Nat.le_of_lt hlt)]
    · obtain rfl : q = p := by simpa using hget
      rw [hturns.self, Option.map_some, hevents hclosable, if_pos (Nat.le_refl _)]
    · rw [hturns.others _ (by omega), hothers _ (.inr (by omega)), hknown i p hget,
        if_neg (Nat.not_le_of_lt hgt), Option.map_some]
  · rw [Process.children_append, reap_split, Action.outcome_bind_of_ok hendedBefore,
      Action.outcome_bind_of_ok hgiven] at hended
    simpa [Process.children] using hended

theorem Process.count_wait_endings (pid : Nat) (ps : List Process) (m : Nat) :
    (endings pid ps).count (.wait m) = if pid ≤ m ∧ m < pid + ps.length then 1 else 0 := by
  induction ps generalizing pid with
  | nil =>
    rw [if_neg (by simp)]
    rfl
  | cons p ps ih =>
    have hone : (p.ending pid).count (.wait m) = if pid = m then 1 else 0 := by
      unfold ending
      split_ifs <;> simp_all
    rw [endings_cons, List.count_append, ih, hone, List.length_cons]
    split_ifs <;> omega

theorem Process.kill_mem_endings {j : Nat} (hget : ps[j]? = some p) (hruns : p.stillRuns = true)
    (pid : Nat) : .kill (pid + j) ∈ endings pid ps := by
  obtain ⟨hlt, rfl⟩ := List.getElem?_eq_some_iff.1 hget
  refine List.mem_flatten.2 ⟨ps[j].ending (pid + j), List.mem_mapIdx.2 ⟨j, hlt, rfl⟩, ?_⟩
  simp [ending, hruns]

end Children

/-! ### Ending processes leaves the descriptors alone -/

theorem confines_killIfRunning (pid : Nat) :
    Action.Confines Call.isOnProcess (killIfRunning pid) := by
  refine (World.confines_kill pid).attempt.bind fun result => ?_
  cases result with
  | ok _ => exact .pure _
  | error f =>
    dsimp only
    split
    · exact .pure _
    · exact .throw _

theorem confines_closeCaptured (captured : Bool) (pid : Nat) (o : Output) :
    Action.Confines Call.isOnProcess (closeCaptured captured pid o) := by
  unfold closeCaptured
  split
  · exact World.confines_closeOutput pid o
  · exact .pure _

theorem confines_stopChild (index : Nat) (child : Child) :
    Action.Confines Call.isOnProcess (stopChild index child) := by
  refine (World.confines_poll child.pid).bind fun polled => ?_
  split
  · exact (Action.Confines.lift (.note _)).bind fun _ => confines_killIfRunning _
  · exact .pure _

theorem confines_awaitChild (index : Nat) (child : Child) :
    Action.Confines Call.isOnProcess (awaitChild index child) := by
  refine (World.confines_wait child.pid).attempt.bind fun result => ?_
  cases result with
  | ok _ => exact .pure _
  | error f =>
    dsimp only
    split
    · exact .lift (.note _)
    · exact .throw _

/-- Ending processes is confined to calls on processes. -/
theorem confines_reap (index : Nat) (children : List Child) :
    Action.Confines Call.isOnProcess (reap index children) := by
  induction children generalizing index with
  | nil => exact .pure _
  | cons child children ih =>
    refine .bind ?_ fun _ => ih (index + 1)
    rw [reapChild_eq]
    refine .bind ?_ fun _ => (confines_stopChild _ _).bind fun _ => confines_awaitChild _ _
    exact (confines_closeCaptured _ _ _).bind fun _ => confines_closeCaptured _ _ _

end Pipework
