import Pipework.Command

/-!
# Pipelines

A pipeline is a list of stages, each of which writes into the next. Pipelines are built by
adding commands, by giving arguments to the last one, and by joining pipelines.

## Main definitions

* `Pipeline` — a list of stages
* `Joinable` — what a pipeline can be continued with: a command or a pipeline
* `Pipeline.add`, `Pipeline.addCommand`, `Pipeline.args`, `Pipeline.combine` — building
* `Pipeline.line` — the pipeline on a line
-/

namespace Pipework

/-- Stages, each of which writes into the next. -/
structure Pipeline where
  stages : List Stage := []
  deriving Repr, DecidableEq

/-- What a pipeline can be continued with. Anything else is known by its kind only. -/
inductive Joinable where
  | command (c : Command)
  | pipeline (p : Pipeline)
  | other (kind : String)

namespace Joinable

/-- The word for what is offered to be joined. -/
def kind : Joinable → String
  | command _ => "Command"
  | pipeline _ => "Pipeline"
  | other kind => kind

end Joinable

namespace Pipeline

/-- The pipeline with a stage at its end. -/
def push (p : Pipeline) (s : Stage) : Pipeline := { p with stages := p.stages ++ [s] }

/-- The pipeline with the stage of a command at its end. -/
def addCommand (p : Pipeline) (c : Command) : Except Misuse Pipeline := c.stage.map p.push

/-- The pipeline with one more stage, which only a command can give. -/
def add (p : Pipeline) : Joinable → Except Misuse Pipeline
  | .command c => p.addCommand c
  | x => .error (.notCommand x.kind)

/-- The pipeline of the commands, in order. -/
def ofCommands (xs : List Joinable) : Except Misuse Pipeline := xs.foldlM add {}

/-- The pipeline with more arguments for its last stage. -/
def args (p : Pipeline) (values : List Value) : Except Misuse Pipeline :=
  match p.stages.getLast? with
  | none => .error .noCommand
  | some s =>
    .ok { stages := p.stages.dropLast ++ [{ s with args := s.args ++ values.map (·.display) }] }

/-- The pipeline continued with a command or with the stages of a pipeline. -/
def combine (p : Pipeline) : Joinable → Except Misuse Pipeline
  | .command c => p.addCommand c
  | .pipeline q => .ok { stages := p.stages ++ q.stages }
  | x => .error (.notCombinable x.kind)

/-- Program and arguments of every stage. -/
def argvs (p : Pipeline) : List (List String) := p.stages.map (·.argv)

/-- A pipeline is told by the words of its stages. -/
@[simp] theorem argvs_inj {p q : Pipeline} : p.argvs = q.argvs ↔ p = q := by
  cases p
  cases q
  simp [argvs, List.map_inj_right fun _ _ => Stage.argv_inj.1]

/-- The pipeline as it stands on a line. -/
def line (p : Pipeline) : String := " | ".intercalate (p.stages.map (·.line))

/-- The pipeline with its commands shown. -/
def inspect (p : Pipeline) : String :=
  "Pipeline([" ++ ", ".intercalate (p.stages.map fun s => (Command.ofStage s).inspect) ++ "])"

/-- The stage at an index, a negative one counting from the end. -/
def get (p : Pipeline) (index : Int) : Except Fault Stage :=
  let index := if index < 0 then index + p.stages.length else index
  match if index < 0 then none else p.stages[index.toNat]? with
  | some s => .ok s
  | none => .error (.outOfRange "list")

end Pipeline

/-- The pipeline that begins with a command and is continued with something else. -/
def Command.pipe (c : Command) (other : Joinable) : Except Misuse Pipeline := do
  (← ({} : Pipeline).addCommand c).combine other

end Pipework
