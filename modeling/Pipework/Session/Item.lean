import Pipework.Run.Handle

/-!
# Items

An item is anything that a session works with: what its registers hold, and what its steps
answer.

## Main definitions

* `Item` — values, bytes, commands, pipelines, executors, handles, results, statuses and links
* `Item.kind` — the word for what an item is
* `Item.joinable` — what an item counts for when a pipeline is to be continued with it
* `View`, `Item.view?` — what can be seen to change in a register
-/

namespace Pipework

/-- Anything that a session works with. -/
inductive Item where
  | value (v : Value)
  | bytes (bs : Bytes)
  | command (c : Command)
  | commands (cs : List Command)
  | pipeline (p : Pipeline)
  | executor (e : Executor)
  | handle (h : Handle)
  | result (r : ExecutionResult)
  | status (s : ExitStatus)
  | statuses (ss : List ExitStatus)
  | link (l : Link)

namespace Item

/-- The word for what an item is. -/
def kind : Item → String
  | value v => v.kind
  | bytes _ => "bytes"
  | command _ => "Command"
  | commands _ => "list"
  | pipeline _ => "Pipeline"
  | executor _ => "Executor"
  | handle _ => "RunningPipeline"
  | result _ => "ExecutionResult"
  | status _ => "ExitStatus"
  | statuses _ => "tuple"
  | link _ => "PipeLink"

/-- The item that says nothing. -/
def nothing : Item := value .null

/-- A truth value as an item. -/
def ofBool (b : Bool) : Item := value (.bool b)

/-- A number as an item. -/
def ofNat (n : Nat) : Item := value (.int n)

/-- A text as an item. -/
def ofText (s : String) : Item := value (.text s)

/-- Lists of words as an item. -/
def ofArgvs (argvs : List (List String)) : Item :=
  value (.list (argvs.map fun argv => .list (argv.map .text)))

/-- What the item counts for when a pipeline is to be continued with it. -/
def joinable : Item → Joinable
  | command c => .command c
  | pipeline p => .pipeline p
  | x => .other x.kind

/-- Two items are equal: commands with the same content, pipelines with the same stages, and
no two items of different kinds. -/
def same : Item → Item → Bool
  | command c, command d => c.same d
  | pipeline p, pipeline q => p == q
  | value v, value w => v.same w
  | _, _ => false

end Item

/-- What can be seen to change in a register: the content of commands, pipelines and links. -/
inductive View where
  | command (argv : List Value)
  | pipeline (argvs : List (List String))
  | link (reader writer : Option Nat)

namespace View

/-- Nothing can be seen to have changed from one view to the other. -/
def same : View → View → Bool
  | command xs, command ys => Value.sameAll xs ys
  | pipeline xs, pipeline ys => xs == ys
  | link r w, link r' w' => r == r' && w == w'
  | _, _ => false

end View

/-- What can be seen of an item, if it is of a kind that can change. -/
def Item.view? : Item → Option View
  | command c => some (.command c.argv)
  | pipeline p => some (.pipeline p.argvs)
  | link l => some (.link l.reader l.writer)
  | _ => none

end Pipework
