import Pipework.Cli.Run
import Mathlib.Tactic.SplitIfs

/-!
# What a console shows

Notes are shown one by one, and each adds to the error output what its level and the console's
verbosity ask for. So a console on which an action was performed is told from the world after
the action. Nothing that runs a line looks at the standard output: what was written there before
only stands in front of what is written later.

## Main definitions

* `Note.shown` — what is shown of a note
* `Console.caughtUp` — the console when its world has gone on to another
* `conclude` — how a line ends whose pipeline was run
* `Console.begun` — the console on which an invocation goes to work
* `Console.after` — the console when something had been written before all else

## Main results

* `Console.perform_eq` — an action is performed on the world, and its notes are shown
* `runLine_of_ok` — a line is concluded as the run of its pipeline comes out
* `exists_runLine_written` — what a line writes does not depend on what was written before
-/

namespace Pipework

/-- What a console shows of a note. -/
def Note.shown (verbose : Bool) (n : Note) : Bytes :=
  if verbose then Text.Utf8.encode (n.render " - " ++ "\n")
  else
    match n.level with
    | .warning => Text.Utf8.encode (n.message ++ "\n")
    | .debug => []

namespace Cli

namespace Console

/-- The console when its world has gone on to another one and the new notes have been shown. -/
def caughtUp (c : Console) (w : World) : Console where
  world := w
  verbose := c.verbose
  stdout := c.stdout
  stderr := c.stderr ++ (w.notes.drop c.world.notes.length).flatMap (Note.shown c.verbose)

/-- The console on which an invocation goes to work: as verbose as it is asked to be, and with the
note that it begins. -/
def begun (c : Console) (i : Invocation) : Console :=
  { c with verbose := i.flags.verbose }.note (.running i.name)

/-- The console if something had been written to its standard output before all else. -/
def after (c : Console) (written : Bytes) : Console := { c with stdout := written ++ c.stdout }

variable {c : Console} {written : Bytes}

theorem showNote_eq (c : Console) (n : Note) :
    c.showNote n = c.writeError (n.shown c.verbose) := by
  unfold showNote Note.shown
  split
  · rfl
  · cases n.level with
    | warning => rfl
    | debug => simp only [writeError, List.append_nil]

@[simp] theorem stdout_begun (c : Console) (i : Invocation) : (c.begun i).stdout = c.stdout := by
  rw [begun, note, showNote_eq, writeError]

@[simp] theorem world_begun (c : Console) (i : Invocation) :
    (c.begun i).world = c.world.takeNote (.running i.name) := by
  rw [begun, note, showNote_eq, writeError]

theorem foldl_showNote (ns : List Note) (c : Console) :
    ns.foldl showNote c = c.writeError (ns.flatMap (Note.shown c.verbose)) := by
  induction ns generalizing c with
  | nil => simp [writeError]
  | cons n ns ih =>
    rw [List.foldl_cons, ih, showNote_eq]
    simp only [writeError, List.flatMap_cons, List.append_assoc]

/-- An action is performed on the world, and the notes that it takes are shown. -/
theorem perform_eq {ε α : Type} (c : Console) (a : Action World ε α) :
    c.perform a = ((a.outcome c.world).1, c.caughtUp (a.outcome c.world).2) := by
  change (_, ((a.outcome c.world).2.notes.drop _).foldl showNote _) = _
  rw [foldl_showNote]
  rfl

@[simp] theorem world_after : (c.after written).world = c.world := rfl

@[simp] theorem caughtUp_after (w : World) :
    (c.after written).caughtUp w = (c.caughtUp w).after written := rfl

@[simp] theorem complain_after (s : String) :
    (c.after written).complain s = (c.complain s).after written := rfl

@[simp] theorem report_after (e : Error) :
    (c.after written).report e = (c.report e).after written := rfl

@[simp] theorem reportStatuses_after (index : Nat) (ss : List ExitStatus) :
    (c.after written).reportStatuses index ss = (c.reportStatuses index ss).after written := by
  induction ss generalizing c index with
  | nil => rfl
  | cons s ss ih => simp only [reportStatuses, complain_after, ih]

@[simp] theorem reportResult_after (flags : Flags) (r : ExecutionResult) :
    (c.after written).reportResult flags r = (c.reportResult flags r).after written := by
  have hwrote : ((c.after written).write r.stdout).writeError r.stderr =
      ((c.write r.stdout).writeError r.stderr).after written := by
    simp [write, writeError, after]
  unfold reportResult
  rw [hwrote]
  split
  · exact reportStatuses_after 0 r.statuses
  · rfl

end Console

/-- How a line ends whose pipeline was run with that outcome, and what is still written then. -/
def conclude (flags : Flags) (c : Console) : Except Failure ExecutionResult → Ending × Console
  | .ok r => ((r.exitCode flags.pipefail).mapError .fault, c.reportResult flags r)
  | .error (.error e) =>
    if e.isSpawn then (.ok 127, c.report e)
    else if e.isExecution then (.ok 1, c.report e)
    else (.error (.error e), c)
  | .error (.fault f) => (.error (.fault f), c)

/-- The conclusion adds to the standard output without a look at it. -/
theorem conclude_after (flags : Flags) (c : Console) (written : Bytes)
    (outcome : Except Failure ExecutionResult) :
    conclude flags (c.after written) outcome =
      ((conclude flags c outcome).1, (conclude flags c outcome).2.after written) := by
  rcases outcome with (e | f) | r
  · simp only [conclude]
    split_ifs <;> simp only [Console.report_after]
  · rfl
  · simp only [conclude, Console.reportResult_after]

/-- The errors about running a pipeline all have an exit code, and are not let through. -/
theorem not_isExecution_of_conclude {flags : Flags} {c : Console}
    {outcome : Except Failure ExecutionResult} {err : Error}
    (hthrough : (conclude flags c outcome).1 = .error (.error err)) : err.isExecution = false := by
  rcases outcome with (e | f) | r
  · rw [conclude] at hthrough
    split_ifs at hthrough with hspawn hexecution
    obtain rfl : e = err := by simpa using hthrough
    exact Bool.eq_false_iff.2 hexecution
  · simp [conclude] at hthrough
  · rw [conclude] at hthrough
    cases hexit : r.exitCode flags.pipefail <;> simp [hexit, Except.mapError] at hthrough

theorem runLine_of_error {line : String} {flaw : Line.Flaw}
    (hrefused : Line.parse line = .error flaw) (flags : Flags) (e : Executor) (c : Console) :
    runLine flags e line c = (.ok 2, c.report flaw.error) := by
  simp only [runLine, hrefused]

/-- A line that is a pipeline is concluded as its run comes out. -/
theorem runLine_of_ok {line : String} {p : Pipeline} (hparsed : Line.parse line = .ok p)
    (flags : Flags) (e : Executor) (c : Console) :
    runLine flags e line c =
      conclude flags (c.caughtUp ((e.run (!flags.noCapture) p).outcome c.world).2)
        ((e.run (!flags.noCapture) p).outcome c.world).1 := by
  simp only [runLine, hparsed, Console.perform_eq]
  rcases ((e.run (!flags.noCapture) p).outcome c.world).1 with (err | f) | r <;> rfl

/-- Running a line does not look at what was written to the standard output before. -/
theorem runLine_after (flags : Flags) (e : Executor) (line : String) (c : Console)
    (written : Bytes) :
    runLine flags e line (c.after written) =
      ((runLine flags e line c).1, (runLine flags e line c).2.after written) := by
  cases hparsed : Line.parse line with
  | error flaw => simp only [runLine_of_error hparsed, Console.report_after]
  | ok p =>
    simp only [runLine_of_ok hparsed, Console.world_after, Console.caughtUp_after]
    apply conclude_after

/-- What a line adds to the standard output does not depend on what is there already. -/
theorem exists_runLine_written (flags : Flags) (e : Executor) (line : String) (c : Console) :
    ∃ out, (runLine flags e line c).2.stdout = c.stdout ++ out ∧
      ∀ written, runLine flags e line { c with stdout := written } =
        ((runLine flags e line c).1,
          { (runLine flags e line c).2 with stdout := written ++ out }) := by
  -- Whatever is there stands in front of what the line writes to an empty output.
  have halone := runLine_after flags e line { c with stdout := [] }
  have hhere := halone c.stdout
  simp only [Console.after, List.append_nil] at halone hhere
  refine ⟨_, congrArg (·.2.stdout) hhere, fun written => ?_⟩
  rw [halone written, hhere]

end Cli

end Pipework
