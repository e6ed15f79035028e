import Pipework.Line.Parse
import Pipework.Session.Request

/-!
# Replies

What each kind of item replies to a query. A reply is an answer or a failure, together with
the item as it is afterwards: commands and pipelines are left as they were by a failure,
while a link has lost an end also if closing it failed.

## Main definitions

* `Maker.perform` — making something new
* `Query.onCommand`, `Query.onPipeline`, `Query.onResult`, `Query.onHandle`, `Query.onLink` — what
  items reply
* `Query.run` — running or starting a pipeline with an executor
* `Query.ofAwaited?` — what the requests that wait take from the result
* `Query.perform` — the reply of any item
-/

namespace Pipework

/-- What an item replies to a query it does not understand. -/
def Item.refuse (x : Item) : Failure :=
  .fault ⟨.internal, "'" ++ x.kind ++ "' object does not understand the request"⟩

/-- A misuse as a failure. -/
def orMisuse {α : Type} (x : Except Misuse α) : Except Failure α :=
  x.mapError fun m => .error m.error

/-- A flaw of a line as a failure. -/
def orFlaw {α : Type} (x : Except Line.Flaw α) : Except Failure α :=
  x.mapError fun f => .error f.error

/-- A fault as a failure. -/
def orFault {α : Type} (x : Except Fault α) : Except Failure α := x.mapError .fault

namespace Maker

/-- A new command of a program with the arguments that a value consists of. The program is
looked at first. -/
def newCommand (program args : Value) : Except Failure Command := do
  discard (orMisuse (Command.ofValues program []))
  orMisuse (Command.ofValues program (← orFault args.items))

/-- Makes something new. -/
def perform : Maker Item → Action World Failure Item
  | command program args => .ofFun fun w => ((newCommand program args).map .command, w)
  | commandOfLine line => .ofFun fun w =>
    ((orFlaw (Line.parseCommand line)).map .command, w)
  | pipeline stages => .ofFun fun w =>
    ((orMisuse (Pipeline.ofCommands (stages.map Item.joinable))).map .pipeline, w)
  | pipelineOfLine line => .ofFun fun w => ((orFlaw (Line.parse line)).map .pipeline, w)
  | executor captureStderr chunkSize => .ofFun fun w =>
    ((orFault (Executor.make captureStderr chunkSize)).map .executor, w)
  | link index => return .link (← (Link.make index).mapFailure .fault)

end Maker

namespace Query

/-- What a command replies, with the command afterwards. -/
def onCommand (c : Command) : Query Item → Except Failure (Item × Command)
  | arg value => .ok (.command (c.arg value), c.arg value)
  | extend values => do
    let c := c.extend (← orFault values.items)
    return (.command c, c)
  | setProgram program => .ok (.nothing, c.setProgram program)
  | pipe x => return (.pipeline (← orMisuse (c.pipe x.joinable)), c)
  | equals x => .ok (.ofBool ((Item.command c).same x), c)
  | copy => return (.command (← orMisuse c.copy), c)
  | argv => .ok (.value (.list c.argv), c)
  | line => return (.ofText (← orFault c.line), c)
  | inspect => .ok (.ofText c.inspect, c)
  | _ => .error (Item.command c).refuse

/-- What a pipeline replies to a query that runs nothing, with the pipeline afterwards. -/
def onPipeline (p : Pipeline) : Query Item → Except Failure (Item × Pipeline)
  | addCommand program => do
    let p ← orMisuse (p.addCommand (← orMisuse (Command.ofValues program [])))
    return (.pipeline p, p)
  | add x => changed (p.add x.joinable)
  | combine x => changed (p.combine x.joinable)
  | arg value => changed (p.args [value])
  | args values => do
    discard (orMisuse (p.args []))
    changed (p.args (← orFault values.items))
  | pipe x => return (.pipeline (← orMisuse (p.combine x.joinable)), p)
  | equals x => .ok (.ofBool ((Item.pipeline p).same x), p)
  | argvs => .ok (.ofArgvs p.argvs, p)
  | stages => .ok (.commands (p.stages.map .ofStage), p)
  | length => .ok (.ofNat p.stages.length, p)
  | get index => return (.command (.ofStage (← orFault (p.get index))), p)
  | line => .ok (.ofText p.line, p)
  | inspect => .ok (.ofText p.inspect, p)
  | _ => .error (Item.pipeline p).refuse
where
  /-- A change of the pipeline answers the pipeline. -/
  changed (outcome : Except Misuse Pipeline) : Except Failure (Item × Pipeline) :=
    (orMisuse outcome).map fun p => (.pipeline p, p)

/-- What comes of running a pipeline with an executor. -/
def run (e : Executor) (p : Pipeline) : Query Item → Action World Failure Item
  | spawn captured _ => return .handle (← e.spawn captured p)
  | output _ => return .result (← e.run true p)
  | _ => throw (Item.executor e).refuse

/-- What a result replies. -/
def onResult (r : ExecutionResult) : Query Item → Except Failure Item
  | check pipefail => (r.check pipefail).map .result
  | text codec policy => (orFault (r.text codec policy)).map .ofText
  | status => (orFault r.status?).map .status
  | returnCode => (orFault r.returnCode?).map fun n => .value ((n.map Value.int).getD .null)
  | success => (orFault r.success?).map .ofBool
  | allSucceeded => .ok (.ofBool r.allSucceeded)
  | firstFailure => .ok (.value ((r.firstFailure?.map fun n => Value.int n).getD .null))
  | stdout => .ok (.bytes r.stdout)
  | stderr => .ok (.bytes r.stderr)
  | statuses => .ok (.statuses r.statuses)
  | _ => .error (Item.result r).refuse

/-- What is taken from the result that a handle waits for, if the query is for that. -/
def ofAwaited? : Query Item → Option (ExecutionResult → Except Failure Item)
  | wait | output _ => some fun r => .ok (.result r)
  | stdout => some fun r => .ok (.bytes r.stdout)
  | stderr => some fun r => .ok (.bytes r.stderr)
  | statuses => some fun r => .ok (.statuses r.statuses)
  | block none => some fun _ => .ok (.ofBool true)
  | block (some raised) => some fun _ => .error (.fault raised)
  | _ => none

/-- What a handle replies without waiting. -/
def ofHandle (h : Handle) : Query Item → Except Failure Item
  | pids => .ok (.value (.list (h.pids.map fun pid : Nat => .int pid)))
  | stageCount => .ok (.ofNat h.children.length)
  | argvs => .ok (.ofArgvs h.argvs)
  | isCaptured => .ok (.ofBool h.captured)
  | inspect | line => .ok (.ofText h.inspect)
  | _ => .error (Item.handle h).refuse

/-- What a handle replies, with the handle afterwards. -/
def onHandle (h : Handle) (q : Query Item) : StateM World (Except Failure Item × Handle) :=
  match q.ofAwaited? with
  | none => return (q.ofHandle h, h)
  | some take => do
    let (outcome, h) ← h.wait
    return (outcome.bind take, h)

/-- What a link replies, with the link afterwards. -/
def onLink (l : Link) : Query Item → StateM World (Except Failure Item × Link)
  | close => do
    let (fault, l) ← l.close
    return (answer fault .nothing, l)
  | closeReader => do
    match ← l.closeReader.run with
    | .ok () => return (.ok .nothing, l.withoutReader)
    | .error f => return (.error (.fault f), l.withoutReader)
  | closeWriter => do
    match ← l.closeWriter.run with
    | .ok () => return (.ok .nothing, l.withoutWriter)
    | .error f => return (.error (.fault f), l.withoutWriter)
  | isClosed => return (.ok (.ofBool l.isClosed), l)
  | inspect | line => return (.ok (.ofText l.inspect), l)
  | block raised => do
    let (fault, l) ← l.close
    return (answer (fault.or raised) (.ofBool true), l)
  | _ => return (.error (Item.link l).refuse, l)
where
  /-- The answer, unless there is a fault. -/
  answer (fault : Option Fault) (x : Item) : Except Failure Item :=
    match fault with
    | some f => .error (.fault f)
    | none => .ok x

/-- The reply of an item whose change is a part of the answer; a failure leaves it as it was. -/
def keeping {α : Type} (wrap : α → Item) (x : Item) (outcome : Except Failure (Item × α)) :
    Except Failure Item × Item :=
  match outcome with
  | .ok (answer, object) => (.ok answer, wrap object)
  | .error f => (.error f, x)

/-- The executor and the pipeline of a query that runs one with the other. -/
def runner? (x : Item) : Query Item → Option (Executor × Pipeline)
  | spawn _ partner | output partner =>
    match x, partner with
    | .pipeline p, none => some ({}, p)
    | .pipeline p, some (.executor e) => some (e, p)
    | .executor e, some (.pipeline p) => some (e, p)
    | _, _ => none
  | _ => none

/-- The reply of an item, with the item afterwards. -/
def perform (q : Query Item) (x : Item) : StateM World (Except Failure Item × Item) :=
  match q.runner? x with
  | some (e, p) => return (← (q.run e p).run, x)
  | none =>
    match x with
    | .command c => return keeping .command x (q.onCommand c)
    | .pipeline p => return keeping .pipeline x (q.onPipeline p)
    | .result r => return (q.onResult r, x)
    | .handle h => do
      let (outcome, h) ← q.onHandle h
      return (outcome, .handle h)
    | .link l => do
      let (outcome, l) ← q.onLink l
      return (outcome, .link l)
    | _ => return (.error x.refuse, x)

end Query

end Pipework
