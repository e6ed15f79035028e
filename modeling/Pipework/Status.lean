import Pipework.Signal

/-!
# Exit status

The status of a stage says how it ended: by itself with an exit code, or killed by a signal.

## Main definitions

* `ExitStatus` — exit code and signal
* `ExitStatus.ofReturnCode` — the status that a return code stands for
* `ExitStatus.success` — the stage ended by itself with code zero
* `ExitStatus.shellCode` — the one number a shell reports
* `ExitStatus.describe` — the status in words
-/

namespace Pipework

/-- How a stage ended. -/
structure ExitStatus where
  code : Option Int := none
  signal : Option Int := none
  deriving Repr, DecidableEq

namespace ExitStatus

/-- A negative return code stands for the signal that killed the process. -/
def ofReturnCode (n : Int) : ExitStatus :=
  if n < 0 then { signal := some (-n) } else { code := some n }

/-- The stage ended by itself with code zero. -/
def success (s : ExitStatus) : Bool := s.code == some 0

/-- The one number a shell reports: a signal is counted from 128 on, and a status that says
nothing is a failure. -/
def shellCode (s : ExitStatus) : Int :=
  match s.signal with
  | some n => 128 + n
  | none => s.code.getD 1

/-- Only the return code zero is a success. -/
@[simp] theorem success_ofReturnCode (n : Int) : (ofReturnCode n).success = (n == 0) := by
  unfold ofReturnCode success
  split
  · have : n ≠ 0 := by omega
    simp [this]
  · simp

/-- A return code is what a shell reports, unless it stands for a signal. -/
theorem shellCode_ofReturnCode (n : Int) :
    (ofReturnCode n).shellCode = if n < 0 then 128 - n else n := by
  unfold ofReturnCode
  by_cases hnegative : n < 0
  · simp only [hnegative, if_true, shellCode]
    omega
  · simp only [hnegative, if_false, shellCode, Option.getD_some]

/-- An optional number, or the word for none. -/
def describeNumber : Option Int → String
  | some n => toString n
  | none => "None"

/-- The status in words. -/
def describe (s : ExitStatus) : String :=
  match s.signal with
  | some n => "killed by signal " ++ (Signal.name? n).getD (toString n)
  | none => "exit code " ++ describeNumber s.code

/-- The status with both its fields shown. -/
def inspect (s : ExitStatus) : String :=
  "ExitStatus(code=" ++ describeNumber s.code ++ ", signal=" ++ describeNumber s.signal ++ ")"

end ExitStatus

end Pipework
