import Pipework.Result

/-!
# What a policy makes of a result

The check of a result and the exit code that a shell reports for it are computed apart, from
different notions of failure: a stage is a success if it ended by itself with code zero, and a
shell goes by a number that also counts signals. They agree since both look at one stage only, and
at the same one, and since no return code but zero is reported as zero.

## Main definitions

* `ExecutionResult.judged` — the stage that the policy looks at

## Main results

* `ExecutionResult.exitCode_of_judged`, `ExecutionResult.check_of_judged` — exit code and check are
  those of the judged stage
* `ExecutionResult.policies_agree` — the check rejects a result exactly if the exit code is not
  zero, and then both are about the same stage
-/

namespace Pipework

namespace ExitStatus

/-- A shell reports zero only for the return code zero: what it adds to the number of a signal
keeps that away from zero. -/
theorem shellCode_ofReturnCode_eq_zero_iff (n : Int) : (ofReturnCode n).shellCode = 0 ↔ n = 0 := by
  rw [shellCode_ofReturnCode]
  split <;> omega

end ExitStatus

namespace ExecutionResult

/-- The stage that the policy looks at: the last one, or with `pipefail` the first one without
success, if there is any. -/
def judged (r : ExecutionResult) (pipefail : Bool) : Nat :=
  (if pipefail then r.firstFailure? else none).getD (r.statuses.length - 1)

variable {r : ExecutionResult} {codes : List Int} {pipefail : Bool}

theorem exitCode_of_judged {s : ExitStatus} (hjudged : r.statuses[r.judged pipefail]? = some s) :
    r.exitCode pipefail = .ok s.shellCode := by
  cases pipefail <;> simp_all [exitCode, ExecutionResult.judged]

/-- A stage that there is can be named in the failure of the check. -/
theorem unsuccessfulFailure_of_stage {i : Nat} {s : ExitStatus}
    (hstage : r.statuses[i]? = some s) : r.unsuccessfulFailure i = .error (.unsuccessful i s) := by
  have hfromStart : ¬ (i : Int) < 0 := by omega
  simp only [unsuccessfulFailure, unsuccessful, hfromStart, if_false, Int.toNat_natCast, hstage]

/-- With `pipefail` there may be no stage without success. Then the policy looks at the last stage,
and is content with it for the same reason as without `pipefail`. -/
theorem check_of_judged {s : ExitStatus} (hjudged : r.statuses[r.judged pipefail]? = some s) :
    r.check pipefail = if s.success then .ok r else
      .error (.error (.unsuccessful (r.judged pipefail) s)) := by
  cases pipefail with
  | false =>
    have hplace : r.statuses[r.statuses.length - 1]? = some s := hjudged
    have hne : r.statuses.length ≠ 0 := fun hnone => by simp_all
    have hlast : r.success? = .ok s.success := by
      simp [success?, status?, List.getLast?_eq_getElem?, hplace, Except.map]
    have hnumber : (r.statuses.length : Int) - 1 = (r.statuses.length - 1 : Nat) := by omega
    cases hsuccess : s.success <;>
      simp [check, hlast, hsuccess, hnumber, unsuccessfulFailure_of_stage hplace,
        ExecutionResult.judged]
  | true =>
    cases hfailed : r.firstFailure? with
    | none =>
      have hall : r.allSucceeded = true := r.firstFailure?_eq_none_iff.1 hfailed
      have hsuccess : s.success = true :=
        List.all_eq_true.1 hall s (List.mem_of_getElem? hjudged)
      simp [check, hfailed, hsuccess]
    | some i =>
      have hplace : r.statuses[i]? = some s := by
        simpa [ExecutionResult.judged, hfailed] using hjudged
      have hfailure : s.success = false := by
        simpa [List.findIdx?_eq_some_iff_getElem, (List.getElem?_eq_some_iff.1 hplace).2] using
          (List.findIdx?_eq_some_iff_getElem.1 hfailed).2.1
      simp [check, hfailed, hfailure, unsuccessfulFailure_of_stage hplace, ExecutionResult.judged]

section ReturnCodes

variable (hstatuses : r.statuses = codes.map .ofReturnCode)
include hstatuses

/-- Stages that stand for return codes all succeed exactly if these are all zero. -/
theorem allSucceeded_iff_of_returnCodes : r.allSucceeded = true ↔ ∀ code ∈ codes, code = 0 := by
  simp [allSucceeded, hstatuses]

theorem firstFailure?_of_returnCodes : r.firstFailure? = codes.findIdx? (· != 0) := by
  simp only [firstFailure?, hstatuses, List.findIdx?_map]
  congr 1
  funext code
  simp [bne]

/-- The policy looks at a stage of the result: the last one, or with `pipefail` one before which
there are only successes. It is the last one in either case unless it failed. -/
theorem exists_judged (hstages : codes ≠ []) (pipefail : Bool) :
    ∃ code, codes[r.judged pipefail]? = some code ∧
      r.statuses[r.judged pipefail]? = some (.ofReturnCode code) ∧
      (code ≠ 0 → if pipefail then ∀ earlier ∈ codes.take (r.judged pipefail), earlier = 0
        else r.judged pipefail + 1 = codes.length) := by
  have hlength : r.statuses.length = codes.length := by simp [hstatuses]
  have hpos : 0 < codes.length := List.length_pos_iff.2 hstages
  suffices hplace : r.judged pipefail < codes.length ∧
      (codes[r.judged pipefail]? ≠ some 0 →
        if pipefail then ∀ earlier ∈ codes.take (r.judged pipefail), earlier = 0
        else r.judged pipefail + 1 = codes.length) by
    have hhere := List.getElem?_eq_getElem hplace.1
    exact ⟨_, hhere, by simp [hstatuses, hhere],
      fun hfailed => hplace.2 (by simpa [hhere] using hfailed)⟩
  cases pipefail with
  | false =>
    simp only [judged, hlength, Bool.false_eq_true, if_false, Option.getD_none]
    omega
  | true =>
    have hfound := firstFailure?_of_returnCodes hstatuses
    cases hfailed : r.firstFailure? with
    | none =>
      -- Without a failure the last code is zero, and nothing is said about it.
      have hzero : ∀ code ∈ codes, code = 0 := by
        simpa using List.findIdx?_eq_none_iff.1 (hfound.symm.trans hfailed)
      have hlast : codes.length - 1 < codes.length := by omega
      have hlastZero : codes[codes.length - 1] = 0 := hzero _ (List.getElem_mem hlast)
      simp [judged, hfailed, hlength, hlast, hlastZero]
    | some i =>
      obtain ⟨hlt, -, hbefore⟩ := List.findIdx?_eq_some_iff_getElem.1 (hfound.symm.trans hfailed)
      simp only [judged, hfailed, if_true, Option.getD_some]
      refine ⟨hlt, fun _ earlier hmem => ?_⟩
      obtain ⟨j, hsmall, rfl⟩ := List.mem_take_iff_getElem.1 hmem
      simpa using hbefore j (by omega)

/-- Let a result have stages with statuses that stand for return codes. Its exit code is zero
exactly if the check returns the result. If the check fails, it names a stage that failed, the last
one, or with `pipefail` the first that did; the exit code is then the code that a shell reports for
this stage. That all stages succeeded, that none failed, and that all return codes are zero is one
and the same. -/
theorem policies_agree (hstages : codes ≠ []) (pipefail : Bool) :
    (∃ exit, r.exitCode pipefail = .ok exit ∧ (exit = 0 ↔ r.check pipefail = .ok r)) ∧
    (∀ failure, r.check pipefail = .error failure →
      ∃ (i : Nat) (code : Int), codes[i]? = some code ∧ code ≠ 0 ∧
        failure = .error (.unsuccessful i (.ofReturnCode code)) ∧
        (if pipefail then ∀ earlier ∈ codes.take i, earlier = 0 else i + 1 = codes.length) ∧
        r.exitCode pipefail = .ok (ExitStatus.ofReturnCode code).shellCode ∧
        (ExitStatus.ofReturnCode code).shellCode = if 0 < code then code else 128 - code) ∧
    (r.allSucceeded = true ↔ ∀ code ∈ codes, code = 0) ∧
    (r.firstFailure? = none ↔ ∀ code ∈ codes, code = 0) := by
  have hzeros := allSucceeded_iff_of_returnCodes hstatuses
  obtain ⟨code, hhere, hstatus, hearlier⟩ := exists_judged hstatuses hstages pipefail
  have hexit := exitCode_of_judged hstatus
  have hverdict := check_of_judged hstatus
  rw [ExitStatus.success_ofReturnCode] at hverdict
  refine ⟨⟨_, hexit, ?_⟩, fun failure hrejected => ?_, hzeros,
    r.firstFailure?_eq_none_iff.trans hzeros⟩
  · rw [ExitStatus.shellCode_ofReturnCode_eq_zero_iff, hverdict]
    by_cases hzero : code = 0 <;> simp [hzero]
  · have hfailed : code ≠ 0 := by
      rintro rfl
      simp [hverdict] at hrejected
    refine ⟨_, code, hhere, hfailed, ?_, hearlier hfailed, hexit, ?_⟩
    · simpa [hverdict, hfailed] using hrejected.symm
    · rw [ExitStatus.shellCode_ofReturnCode]
      split <;> split <;> omega

end ReturnCodes

/-- A success, a stage that was killed, and an exit with an error: with `pipefail` the killed stage
is reported, and without it the last one. -/
theorem policies_agree_killed_stage :
    let r : ExecutionResult := { statuses := [0, -9, 3].map .ofReturnCode }
    r.check true = .error (.error (.unsuccessful 1 { signal := some 9 })) ∧
      r.exitCode true = .ok 137 ∧
      r.check false = .error (.error (.unsuccessful 2 { code := some 3 })) ∧
        r.exitCode false = .ok 3 := by
  intro r
  refine ⟨rfl, ?_, rfl, ?_⟩
  · obtain ⟨i, code, hhere, -, hnamed, -, hexit, -⟩ :=
      (policies_agree (r := r) rfl (by decide) true).2.1
        (.error (.unsuccessful 1 { signal := some 9 })) rfl
    have hnumber : (1 : Int) = i := (Error.unsuccessful.inj (Failure.error.inj hnamed)).1
    obtain rfl : 1 = i := by omega
    obtain rfl : -9 = code := by simpa using hhere
    exact hexit
  · obtain ⟨i, code, hhere, -, -, hlast, hexit, -⟩ :=
      (policies_agree (r := r) rfl (by decide) false).2.1 _ rfl
    obtain rfl : i = 2 := by simpa using hlast
    obtain rfl : 3 = code := by simpa using hhere
    exact hexit

end ExecutionResult

end Pipework
