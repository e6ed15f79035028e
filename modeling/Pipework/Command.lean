import Pipework.Error
import Pipework.Value

/-!
# Commands

A command is one program with its arguments while it is being built: arguments are appended
to it, and its program may be set to anything. Only a command whose program is a non-empty
text can be used as a stage of a pipeline.

## Main definitions

* `Stage` — a program with its arguments, ready to be run
* `Command` — the same while it is being built
* `Command.ofValues` — a new command, if its program has a name
* `Command.copy` — a command with the same content, if its program has a name
* `Command.stage` — the stage that a command stands for
* `Command.line`, `Command.inspect` — the command on a line and for inspection
-/

namespace Pipework

/-- A program with its arguments, as they are run. -/
structure Stage where
  program : String
  args : List String := []
  deriving Repr, DecidableEq

namespace Stage

/-- Program and arguments in one list. -/
def argv (s : Stage) : List String := s.program :: s.args

@[simp] theorem argv_inj {s t : Stage} : s.argv = t.argv ↔ s = t := by
  cases s
  cases t
  simp [argv]

/-- The stage as it stands on a line. -/
def line (s : Stage) : String := Line.joinWords s.argv

end Stage

/-- A program with its arguments, while it is being built. -/
structure Command where
  program : Value
  args : List String := []

namespace Command

/-- The program has a name. -/
def isNamed (c : Command) : Bool :=
  match c.program with
  | .text s => !s.isEmpty
  | _ => false

/-- A new command, which must have a name for its program. -/
def ofValues (program : Value) (args : List Value) : Except Misuse Command :=
  let c : Command := { program, args := args.map (·.display) }
  if c.isNamed then .ok c else .error .unnamedProgram

/-- The command that runs a stage. -/
def ofStage (s : Stage) : Command where
  program := .text s.program
  args := s.args

/-- A command with a name for its program is that of a stage with a name. -/
theorem isNamed_iff {c : Command} : c.isNamed ↔ ∃ s : Stage, s.program ≠ "" ∧ c = ofStage s := by
  obtain ⟨program, args⟩ := c
  constructor
  · intro hnamed
    cases program with
    | text name =>
      refine ⟨⟨name, args⟩, ?_, rfl⟩
      rintro rfl
      cases hnamed
    | _ => cases hnamed
  · rintro ⟨s, hnamed, hsame⟩
    obtain ⟨rfl, rfl⟩ := Command.mk.inj hsame
    simpa [isNamed, String.isEmpty_iff] using hnamed

/-- The stage that the command stands for, if its program has a name. -/
def stage (c : Command) : Except Misuse Stage :=
  match c.program with
  | .text s => if s.isEmpty then .error .unnamedProgram else .ok { program := s, args := c.args }
  | _ => .error .unnamedProgram

/-- A command with the same content, if its program has a name. -/
def copy (c : Command) : Except Misuse Command := c.stage.map ofStage

/-- The command with one more argument. -/
def arg (c : Command) (value : Value) : Command := { c with args := c.args ++ [value.display] }

/-- The command with more arguments. -/
def extend (c : Command) (values : List Value) : Command :=
  { c with args := c.args ++ values.map (·.display) }

/-- The command with another program, which is not looked at. -/
def setProgram (c : Command) (program : Value) : Command := { c with program }

/-- Program and arguments in one list. -/
def argv (c : Command) : List Value := c.program :: c.args.map .text

/-- The command as it stands on a line. -/
def line (c : Command) : Except Fault String :=
  return " ".intercalate (← c.argv.mapM (·.quote))

/-- The command with program and arguments shown. -/
def inspect (c : Command) : String :=
  "Command(program=" ++ c.program.inspect ++ ", args=" ++
    (Value.list (c.args.map .text)).inspect ++ ")"

/-- Commands are equal if program and arguments are. -/
def same (c d : Command) : Bool := c.program.same d.program && c.args == d.args

end Command

end Pipework
