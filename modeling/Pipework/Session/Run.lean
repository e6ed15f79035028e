import Pipework.Session.Reply

/-!
# Sessions

A session runs steps one after another over registers and one world. For every step it
reports what came of it: the answer, a failure, or a register that holds nothing; the
registers that were seen to change; and the calls and notes of the step.

## Main definitions

* `Registers` — items by name
* `Outcome`, `Report` — what came of a step
* `Session.step` — running one step
* `Session.run` — running all steps
-/

namespace Pipework

/-- Items by name, in the order in which the names were first used. -/
abbrev Registers := List (String × Item)

namespace Registers

/-- The item in a register, or the name of the register that holds none. -/
def get (rs : Registers) (name : String) : Except String Item :=
  match rs.lookup name with
  | some x => .ok x
  | none => .error name

/-- The registers with an item put into one of them. -/
def put (rs : Registers) (name : String) (x : Item) : Registers :=
  match rs with
  | [] => [(name, x)]
  | (n, y) :: rest => if n == name then (n, x) :: rest else (n, y) :: Registers.put rest name x

/-- A register holds what was put into it. -/
@[simp] theorem lookup_put_self (rs : Registers) (name : String) (x : Item) :
    (rs.put name x).lookup name = some x := by
  induction rs with
  | nil => simp [put]
  | cons entry rest ih =>
    obtain ⟨n, y⟩ := entry
    by_cases h : n = name
    · simp [put, h]
    · have h' : (name == n) = false := beq_false_of_ne fun he => h he.symm
      simp [put, h, List.lookup_cons, h', ih]

/-- Putting into a register leaves the others alone. -/
theorem lookup_put_of_ne (rs : Registers) {name other : String} (x : Item) (hne : other ≠ name) :
    (rs.put name x).lookup other = rs.lookup other := by
  have hne' : (other == name) = false := beq_false_of_ne hne
  induction rs with
  | nil => simp [put, List.lookup_cons, hne']
  | cons entry rest ih =>
    obtain ⟨n, y⟩ := entry
    by_cases h : n = name
    · subst h
      simp [put, List.lookup_cons, hne']
    · simp [put, h, List.lookup_cons, ih]

/-- The item that an operand stands for. -/
def operand (rs : Registers) : Operand → Except String Item
  | .value v => .ok (.value v)
  | .register name => rs.get name

/-- The registers whose content can be seen to differ from what it was before. -/
def changed (before after : Registers) : Registers :=
  after.filter fun (name, x) =>
    match x.view?, (before.lookup name).bind Item.view? with
    | none, _ => false
    | some _, none => true
    | some new, some old => !new.same old

end Registers

/-- What came of a step. -/
inductive Outcome where
  | answer (x : Item)
  | failure (f : Failure)
  | unset (register : String)

/-- What is reported of a step. -/
structure Report where
  outcome : Outcome
  changed : Registers
  calls : List Call
  notes : List Note

/-- A session: its registers and its world. -/
structure Session where
  registers : Registers := []
  world : World

namespace Session

/-- The session after a reply, and the outcome. The answer goes into the target register. If a
command or a pipeline answers itself after a change, then what goes there is a copy of it: a later
change of the one does not show in the other. -/
def settle (s : Session) (target : Option String) (reply : Except Failure Item) :
    Outcome × Session :=
  match reply with
  | .error f => (.failure f, s)
  | .ok x =>
    match target with
    | none => (.answer x, s)
    | some name => (.answer x, { s with registers := s.registers.put name x })

/-- Makes something new. -/
def make (s : Session) (target : Option String) (m : Maker Item) : Outcome × Session :=
  let (reply, world) := m.perform.outcome s.world
  settle { s with world } target reply

/-- Asks something of the item in a register, which holds its changed state afterwards. -/
def ask (s : Session) (target : Option String) (register : String) (x : Item) (q : Query Item) :
    Outcome × Session :=
  let ((reply, object), world) := (q.perform x).run s.world
  settle { registers := s.registers.put register object, world } target reply

/-- What a step does: nothing, if it needs a register that holds nothing. -/
def execute (s : Session) (step : Step) : Outcome × Session :=
  match step.request with
  | .make m =>
    match m.resolve s.registers.operand with
    | .error name => (.unset name, s)
    | .ok m => s.make step.target m
  | .ask register q =>
    match s.registers.get register, q.resolve s.registers.operand with
    | .error name, _ => (.unset name, s)
    | .ok _, .error name => (.unset name, s)
    | .ok x, .ok q => s.ask step.target register x q

/-- Runs one step and reports it. -/
def step (s : Session) (step : Step) : Report × Session :=
  let (outcome, t) := s.execute step
  let report : Report := {
    outcome
    changed := s.registers.changed t.registers
    calls := t.world.calls.drop s.world.calls.length
    notes := t.world.notes.drop s.world.notes.length }
  (report, t)

/-- Runs all steps and reports each. -/
def run (s : Session) : List Step → List Report × Session
  | [] => ([], s)
  | step :: steps =>
    let (report, s) := s.step step
    let (reports, s) := s.run steps
    (report :: reports, s)

end Session

end Pipework
