import Pipework.Proofs.Run.Waiting

/-!
# What concerns one process

Waiting for a process, polling or killing it, and what is done with its outputs concern this
process alone: it determines the answer, and it may be changed, but nothing else is except for the
record. This file says so for each of these calls, also where there is no such process.

## Main definitions

* `World.Concerns` — what an action on one process answers and does

## Main results

* `World.concerns_wait`, `World.concerns_poll`, `World.concerns_kill`,
  `World.concerns_closeOutput`, `World.concerns_drainOutput` — the five actions on one process
-/

namespace Pipework

namespace World

/-- The action concerns the process with that number. It puts the calls on record, answers what the
process determines, and changes it; without such a process it only answers. -/
def Concerns {β : Type} (n : Nat) (calls : List Call) (absent : β) (answer : Process → β)
    (next : Process → Process → Process) (a : StateM World β) : Prop :=
  ∀ w, a.run w = match w.process? n with
    | none => (absent, calls.foldl World.log w)
    | some p => (answer p, (calls.foldl World.log w).change n (next p))

theorem change_id (w : World) (n : Nat) : w.change n id = w := by
  rw [World.change, List.modify_id]

variable (n : Nat)

theorem concerns_wait :
    Concerns n [.wait n] (.ok 0) Process.nextWait (fun _ => Process.awaited)
      (World.wait n).run := by
  intro w
  change (World.wait n).outcome w = _
  cases hknown : w.process? n with
  | none =>
    have hlogged : (w.log (.wait n)).process? n = none := hknown
    simp only [World.wait, Action.outcome_ofFun, hlogged]
    rfl
  | some p => exact outcome_wait_eq hknown

theorem concerns_poll :
    Concerns n [.poll n] (.ok none) (fun p => .ok p.conduct.polls.head?.join)
      (fun _ p => { p with conduct := { p.conduct with polls := p.conduct.polls.tail } })
      (World.poll n).run := by
  intro w
  change (World.poll n).outcome w = _
  have hlogged : (w.log (.poll n)).process? n = w.process? n := rfl
  simp only [World.poll, Action.outcome_ofFun, hlogged]
  cases w.process? n <;> rfl

theorem concerns_kill :
    Concerns n [.kill n] (.ok ()) (fun p => Fault.outcomeOf p.conduct.killFailure) (fun _ => id)
      (World.kill n).run := by
  intro w
  change (World.kill n).outcome w = _
  have hlogged : (w.log (.kill n)).process? n = w.process? n := rfl
  simp only [World.kill, Action.outcome_ofFun, hlogged]
  cases w.process? n with
  | none => rfl
  | some p =>
    simp only [Option.bind_some, change_id]
    cases p.conduct.killFailure <;> rfl

theorem concerns_closeOutput (o : Output) :
    Concerns n [] (.ok ()) (fun p => Fault.outcomeOf (p.closeFault? o))
      (fun p => if p.wiring o == .captured then (·.record o [.close]) else id)
      (World.closeOutput n o).run := by
  intro w
  change (World.closeOutput n o).outcome w = _
  simp only [World.closeOutput, Action.outcome_ofFun]
  cases w.process? n with
  | none => rfl
  | some p =>
    by_cases hcaptured : p.wiring o = .captured
    · simp only [hcaptured, beq_self_eq_true, if_true, Process.closeFault?]
      cases (p.stream o).closeFailure <;> rfl
    · have hoff : (p.wiring o == .captured) = false := by simpa using hcaptured
      simp only [hoff, Bool.false_eq_true, if_false, Process.closeFault?, change_id]
      rfl

theorem concerns_drainOutput (size : Nat) (o : Output) :
    Concerns n [] ⟨[], [], none⟩ (fun p => (p.stream o).drain size)
      (fun p => (·.record o ((p.stream o).drain size).events)) (World.drainOutput size n o) := by
  intro w
  change World.drainOutput size n o w = _
  unfold World.drainOutput
  cases w.process? n <;> rfl

/-- What does nothing concerns any process. -/
theorem concerns_pure {β : Type} (x : β) :
    Concerns n [] x (fun _ => x) (fun _ => id) (pure x) := by
  intro w
  cases w.process? n with
  | none => rfl
  | some p =>
    dsimp only
    rw [List.foldl_nil, change_id]
    rfl

end World

open World (Concerns)

/-- Closing an output only if it is captured. -/
theorem concerns_closeCaptured (captured : Bool) (n : Nat) (o : Output) :
    Concerns n [] (.ok ())
      (fun p => Fault.outcomeOf
        (if captured && p.wiring o == .captured then (p.stream o).closeFailure else none))
      (fun p => if captured && p.wiring o == .captured then (·.record o [.close]) else id)
      (closeCaptured captured n o).run := by
  cases captured with
  | true => simpa [closeCaptured, Process.closeFault?] using World.concerns_closeOutput n o
  | false =>
    simpa [closeCaptured, Fault.outcomeOf] using
      World.concerns_pure n (Except.ok () : Except Fault Unit)

namespace Handle

/-- Reads an output to its end, if it is captured: the bytes, and the fault that the reading ends
with. -/
def readCaptured (captured : Bool) (size pid : Nat) (o : Output) :
    StateM World (Bytes × Option Fault) :=
  if captured then do
    let drained ← World.drainOutput size pid o
    return (drained.bytes, drained.fault)
  else return ([], none)

/-- Takes a note of the fault that a reading ended with, if anyone hears of it. Any other is let
out. -/
def report (label : String) (read : Bytes × Option Fault) :
    Action World Fault (Bytes × Option Error) :=
  match read.2 with
  | none => return (read.1, none)
  | some f =>
    if f.isSystem || f.isInvalid then do
      World.note (.drainFailed label f)
      return (read.1, some (.capture label f))
    else do
      if (← get).machine.threaded then return (read.1, none) else throw f

/-- A drain reads an output, and then reports what came of it. -/
theorem drain_if_eq (captured : Bool) (size : Nat) (child : Child) (o : Output) (label : String) :
    (if captured then drain size child o label else pure ([], none)) =
      liftM (readCaptured captured size child.pid o) >>= report label := by
  cases captured <;> rfl

theorem concerns_readCaptured (captured : Bool) (size n : Nat) (o : Output) :
    Concerns n [] ([], none)
      (fun p => (if captured then ((p.stream o).drain size).bytes else [],
        if captured then ((p.stream o).drain size).fault else none))
      (fun p => if captured then (·.record o ((p.stream o).drain size).events) else id)
      (readCaptured captured size n o) := by
  cases captured with
  | true =>
    intro w
    have hread := World.concerns_drainOutput n size o w
    simp only [readCaptured, if_true]
    rw [StateT.run_bind, hread]
    cases w.process? n <;> rfl
  | false => simpa [readCaptured] using World.concerns_pure n (([], none) : Bytes × Option Fault)

end Handle

end Pipework
