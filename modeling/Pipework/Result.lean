import Pipework.Error

/-!
# Results

The result of a run holds the status of every stage and the output that was captured. What
counts as success is a policy: a plain shell looks at the last stage only, and the strict
policy at the first stage that failed.

## Main definitions

* `ExecutionResult` — statuses and captured output
* `ExecutionResult.status?` — the status of the last stage
* `ExecutionResult.firstFailure?` — the first stage without success
* `ExecutionResult.check` — the result, if the policy is content
* `ExecutionResult.exitCode` — the one number that a shell reports for the run
-/

namespace Pipework

/-- The outcome of a run. Stages whose error stream was not captured have an empty entry for it. -/
structure ExecutionResult where
  statuses : List ExitStatus
  stdout : Bytes := []
  stageStderr : List Bytes := []
  deriving Repr, DecidableEq

namespace ExecutionResult

/-- The error output of all stages, in the order of the stages. -/
def stderr (r : ExecutionResult) : Bytes := r.stageStderr.flatten

/-- The status of the last stage. -/
def status? (r : ExecutionResult) : Except Fault ExitStatus :=
  match r.statuses.getLast? with
  | some s => .ok s
  | none => .error (.outOfRange "tuple")

/-- The exit code of the last stage, which has none if it was killed. -/
def returnCode? (r : ExecutionResult) : Except Fault (Option Int) := r.status?.map (·.code)

/-- The last stage succeeded. -/
def success? (r : ExecutionResult) : Except Fault Bool := r.status?.map (·.success)

/-- Every stage succeeded. -/
def allSucceeded (r : ExecutionResult) : Bool := r.statuses.all (·.success)

/-- The first stage without success. -/
def firstFailure? (r : ExecutionResult) : Option Nat := r.statuses.findIdx? (!·.success)

/-- No stage failed exactly if all succeeded. -/
theorem firstFailure?_eq_none_iff (r : ExecutionResult) :
    r.firstFailure? = none ↔ r.allSucceeded = true := by
  simp [firstFailure?, allSucceeded]

/-- The captured output as text, codec and policy for ill-formed parts given by name. -/
def text (r : ExecutionResult) (codec policy : String) : Except Fault String :=
  (Text.decodeNamed codec policy r.stdout).mapError (·.fault)

/-- The error that a stage did not succeed. Negative stage numbers count from the end. -/
def unsuccessful (r : ExecutionResult) (stage : Int) : Except Fault Error :=
  let index := if stage < 0 then stage + r.statuses.length else stage
  match if index < 0 then none else r.statuses[index.toNat]? with
  | some status => .ok (.unsuccessful stage status)
  | none => .error (.outOfRange "tuple")

/-- The failure that a stage did not succeed. -/
def unsuccessfulFailure (r : ExecutionResult) (stage : Int) : Failure :=
  match r.unsuccessful stage with
  | .ok e => .error e
  | .error f => .fault f

/-- The result itself if the policy is content with it: with `pipefail` every stage has to
succeed, without it the last one. -/
def check (r : ExecutionResult) (pipefail : Bool) : Except Failure ExecutionResult :=
  if pipefail then
    match r.firstFailure? with
    | some stage => .error (r.unsuccessfulFailure stage)
    | none => .ok r
  else
    match r.success? with
    | .ok true => .ok r
    | .ok false => .error (r.unsuccessfulFailure (r.statuses.length - 1))
    | .error f => .error (.fault f)

/-- The one number that a shell reports for the run: that of the last stage, or with `pipefail`
that of the first stage without success. -/
def exitCode (r : ExecutionResult) (pipefail : Bool) : Except Fault Int :=
  let last := r.statuses.length - 1
  let index := if pipefail then r.firstFailure?.getD last else last
  match r.statuses[index]? with
  | some status => .ok status.shellCode
  | none => .error (.outOfRange "tuple")

end ExecutionResult

end Pipework
