import Pipework.Proofs.Run.Ledger
import Pipework.Run.Handle

/-!
# What leaves the descriptors alone

Waiting for processes, ending them and reading what they write are no matter of descriptors: such
an action makes no pipe, closes none and hands none to a process. An action is confined to calls of
some sort if it makes no others, and no pipe. What is made of confined actions is confined.

## Main definitions

* `Call.isOnProcess` — the calls that are about a process that runs
* `World.Confined` — from one world to another only calls of some sort were made
* `Action.Confines`, `World.Confines` — actions that are confined, wherever they start

## Main results

* `Handle.confines_open`, `Handle.silent_open` — reading what is captured makes no call
* `Handle.confines_wait` — waiting for a handle only waits for processes
* `World.Confined.leads` — confined calls are orderly
-/

namespace Pipework

/-- The call is about a process that runs. -/
def Call.isOnProcess : Call → Prop
  | .wait _ | .poll _ | .kill _ => True
  | _ => False

/-- From one world to another only such calls were made, and no pipe. -/
structure World.Confined (P : Call → Prop) (w w' : World) : Prop where
  machine : w'.machine = w.machine
  pipes : w'.pipes = w.pipes
  calls : ∃ cs, w'.calls = w.calls ++ cs ∧ ∀ c ∈ cs, P c

/-- The action makes only such calls, and no pipe. -/
def World.Confines {α : Type} (P : Call → Prop) (a : StateM World α) : Prop :=
  ∀ w : World, w.Confined P (a.run w).2

/-- The action makes only such calls, and no pipe, whether it fails or not. -/
def Action.Confines {ε α : Type} (P : Call → Prop) (a : Action World ε α) : Prop :=
  ∀ w : World, w.Confined P (a.outcome w).2

variable {P : Call → Prop} {w w₁ w₂ : World} {α β ε δ : Type}

namespace World.Confined

theorem refl (w : World) : w.Confined P w := ⟨rfl, rfl, [], by simp⟩

theorem trans (h : w.Confined P w₁) (h' : w₁.Confined P w₂) : w.Confined P w₂ := by
  obtain ⟨cs, hrecord, hall⟩ := h.calls
  obtain ⟨cs', hrecord', hall'⟩ := h'.calls
  refine ⟨h'.machine.trans h.machine, h'.pipes.trans h.pipes, cs ++ cs', ?_, fun c hmem => ?_⟩
  · rw [hrecord', hrecord, List.append_assoc]
  · exact (List.mem_append.1 hmem).elim (hall c) (hall' c)

theorem log {c : Call} (h : P c) (w : World) : w.Confined P (w.log c) :=
  ⟨rfl, rfl, [c], rfl, by simpa using h⟩

theorem takeNote (w : World) (n : Note) : w.Confined P (w.takeNote n) := ⟨rfl, rfl, [], by simp⟩

theorem change (w : World) (pid : Nat) (f : Process → Process) :
    w.Confined P (w.change pid f) := by
  refine ⟨?_, ?_, [], by simp⟩ <;> rw [World.change]

/-- Calls on processes are orderly, for they work with no descriptor. -/
theorem leads (h : w.Confined Call.isOnProcess w₁) :
    ∃ cs, (∀ c ∈ cs, c.isOnProcess) ∧ w.Leads cs w₁ := by
  obtain ⟨cs, hrecord, hall⟩ := h.calls
  refine ⟨cs, hall, h.machine, hrecord, Nat.le_of_eq h.pipes.symm, fun r s => ?_, ?_⟩
  · rw [h.pipes]
    refine iff_of_false (fun hmem => hall _ hmem) ?_
    rintro ⟨m, hlower, hupper, -⟩
    omega
  · intro before call after hsplit d hmem
    have honProcess := hall call (by simp [hsplit])
    cases call <;> simp [Call.isOnProcess, Call.used, Call.dropped, Call.wired] at honProcess hmem

end World.Confined

namespace World.Confines

theorem pure (x : α) : Confines P (pure x) := fun w => .refl w

theorem bind {a : StateM World α} {f : α → StateM World β} (ha : Confines P a)
    (hf : ∀ x, Confines P (f x)) : Confines P (a >>= f) :=
  fun w => (ha w).trans (hf _ _)

theorem note (n : Note) : Confines P (World.note n) := fun w => .takeNote w n

theorem drainOutput (size pid : Nat) (o : Output) : Confines P (World.drainOutput size pid o) := by
  intro w
  change w.Confined P (World.drainOutput size pid o w).2
  unfold World.drainOutput
  split
  · exact .refl w
  · exact .change w _ _

end World.Confines

namespace Action.Confines

theorem pure (x : α) : Confines P (pure x : Action World ε α) := fun w => .refl w

theorem throw (e : ε) : Confines P (throw e : Action World ε α) := fun w => .refl w

theorem get : Confines P (get : Action World ε World) := fun w => .refl w

theorem bind {a : Action World ε α} {f : α → Action World ε β} (ha : Confines P a)
    (hf : ∀ x, Confines P (f x)) : Confines P (a >>= f) := by
  intro w
  have hfirst := ha w
  rw [outcome_bind]
  rcases hrun : a.outcome w with ⟨_ | x, w'⟩ <;> rw [hrun] at hfirst
  · exact hfirst
  · exact hfirst.trans (hf x w')

theorem lift {a : StateM World α} (ha : World.Confines P a) :
    Confines P (liftM a : Action World ε α) := ha

theorem attempt {a : Action World ε α} (ha : Confines P a) :
    Confines P (a.attempt : Action World δ (Except ε α)) := ha

theorem mapFailure {a : Action World ε α} (ha : Confines P a) (f : ε → δ) :
    Confines P (a.mapFailure f) := ha

/-- An action that does not fail outside is confined as what is done by it. -/
theorem run {a : Action World ε α} (ha : Confines P a) : World.Confines P a.run := ha

end Action.Confines

/-! ### Calls -/

theorem World.confines_wait (pid : Nat) : Action.Confines Call.isOnProcess (World.wait pid) := by
  intro w
  have hlogged : w.Confined Call.isOnProcess (w.log (.wait pid)) := .log trivial w
  unfold World.wait
  simp only [Action.outcome_ofFun]
  split
  · exact hlogged
  · split <;> exact hlogged.trans (.change _ _ _)

theorem World.confines_poll (pid : Nat) : Action.Confines Call.isOnProcess (World.poll pid) := by
  intro w
  have hlogged : w.Confined Call.isOnProcess (w.log (.poll pid)) := .log trivial w
  unfold World.poll
  simp only [Action.outcome_ofFun]
  split
  · exact hlogged
  · exact hlogged.trans (.change _ _ _)

theorem World.confines_kill (pid : Nat) : Action.Confines Call.isOnProcess (World.kill pid) := by
  intro w
  have hlogged : w.Confined Call.isOnProcess (w.log (.kill pid)) := .log trivial w
  unfold World.kill
  simp only [Action.outcome_ofFun]
  split <;> exact hlogged

theorem World.confines_closeOutput (pid : Nat) (o : Output) :
    Action.Confines P (World.closeOutput pid o) := by
  intro w
  unfold World.closeOutput
  simp only [Action.outcome_ofFun]
  split
  · exact .refl w
  · split
    · split <;> exact .change _ _ _
    · exact .refl w

/-! ### Handles -/

namespace Handle

theorem confines_drain (size : Nat) (child : Child) (o : Output) (label : String) :
    Action.Confines P (drain size child o label) := by
  refine (Action.Confines.lift (.drainOutput size child.pid o)).bind fun drained => ?_
  split
  · exact .pure _
  · split
    · exact (Action.Confines.lift (.note _)).bind fun _ => .pure _
    · refine Action.Confines.get.bind fun w => ?_
      split
      · exact .pure _
      · exact .throw _

theorem confines_drainStdout (size index : Nat) (child : Child) :
    Action.Confines P (drainStdout size index child) := by
  unfold drainStdout
  split
  · exact confines_drain _ _ _ _
  · exact .pure _

theorem confines_drainStderr (size index : Nat) (children : List Child) :
    Action.Confines P (drainStderr size index children) := by
  induction children generalizing index with
  | nil => exact .pure _
  | cons child children ih =>
    unfold drainStderr
    split
    · exact (confines_drain _ _ _ _).bind fun _ => (ih _).bind fun _ => .pure _
    · exact (Action.Confines.pure _).bind fun _ => (ih _).bind fun _ => .pure _

/-- A handle reads what is captured, which takes no call of any sort. -/
theorem confines_open (size : Nat) (captured : Bool) (argvs : List (List String))
    (children : List Child) : Action.Confines P (Handle.open size captured argvs children) := by
  unfold Handle.open
  split
  · exact (confines_drainStdout _ _ _).bind fun _ =>
      (confines_drainStderr _ _ _).bind fun _ => .pure _
  · exact (Action.Confines.pure _).bind fun _ => (confines_drainStderr _ _ _).bind fun _ => .pure _

/-- No call goes on record when a handle is opened, whether it succeeds or not. -/
theorem silent_open (size : Nat) (captured : Bool) (argvs : List (List String))
    (children : List Child) (w : World) :
    ((Handle.open size captured argvs children).outcome w).2.calls = w.calls := by
  obtain ⟨cs, hrecord, hnone⟩ :=
    (confines_open (P := fun _ => False) size captured argvs children w).calls
  rw [hrecord, List.eq_nil_iff_forall_not_mem.2 hnone, List.append_nil]

theorem confines_awaitAll (index : Nat) (children : List Child) :
    Action.Confines Call.isOnProcess (awaitAll index children) := by
  induction children generalizing index with
  | nil => exact .pure _
  | cons child children ih =>
    refine (World.confines_wait child.pid).attempt.bind fun result => ?_
    cases result with
    | ok code =>
      exact (Action.Confines.lift (.note _)).bind fun _ => (ih _).bind fun _ => .pure _
    | error f =>
      dsimp only
      split
      · exact (Action.Confines.lift (.note _)).bind fun _ => (ih _).bind fun _ => .pure _
      · exact .throw _

theorem confines_collect (h : Handle) : Action.Confines Call.isOnProcess h.collect := by
  refine ((confines_awaitAll 0 h.children).mapFailure Failure.fault).bind fun (_, waitError) => ?_
  dsimp only
  split
  · exact .throw _
  · exact .pure _

/-- Waiting for a handle is confined to calls on processes. -/
theorem confines_wait (h : Handle) : World.Confines Call.isOnProcess h.wait := by
  unfold wait
  split
  · exact .pure _
  · refine h.confines_collect.run.bind fun result => ?_
    split <;> exact .pure _

end Handle

end Pipework
