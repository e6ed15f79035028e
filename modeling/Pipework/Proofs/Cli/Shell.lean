import Pipework.Proofs.Cli.Console
import Mathlib.Data.List.DropRight

/-!
# An interactive session as a sequence of runs

The interactive command reads line after line, and writes its prompt before each. The prompts
aside, nothing else comes of it than of the lines that it runs: those that are not blank and come
before the first line that says to stop, one after the other over one world. A line that fails is
no reason to stop. Only a failure that running a line lets through ends the session, and two kinds
of them end it without harm.

## Main definitions

* `linesRead`, `linesToRun` — the lines before the one that says to stop, and those of them that
  are run
* `execEach` — running one line after the other
* `sessionEnding` — how a session ends

## Main results

* `exists_runLines_eq` — the loop over the lines, from any console on
* `shell_eq_execEach` — a session as a whole
-/

namespace Pipework

namespace Text

/-- Nothing is left of a text without the blanks at its ends exactly if it has nothing else. -/
theorem trim_isEmpty_eq_all (s : String) : (trim s).isEmpty = s.toList.all isBlank := by
  rw [Bool.eq_iff_iff, String.isEmpty_iff, ← String.toList_inj, List.all_eq_true]
  change (String.ofList (List.rdropWhile isBlank (s.toList.dropWhile isBlank))).toList = [] ↔ _
  rw [String.toList_ofList, List.rdropWhile_eq_nil_iff]
  constructor
  · intro hrest c hmem
    rw [← List.takeWhile_append_dropWhile (p := isBlank) (l := s.toList)] at hmem
    rcases List.mem_append.1 hmem with hfirst | hlater
    · exact List.mem_takeWhile_imp hfirst
    · exact hrest c hlater
  · intro hall c hmem
    exact hall c ((List.dropWhile_suffix isBlank).mem hmem)

end Text

namespace Cli

/-- The lines of a session that are read before one says to stop. -/
def linesRead (lines : List String) : List String := lines.takeWhile (!isQuit ·)

/-- The lines of a session that are run: those before one says to stop, without the blank ones. -/
def linesToRun (lines : List String) : List String :=
  (linesRead lines).filter fun line => !line.toList.all Text.isBlank

/-- Runs one line after the other, each with a new executor, until one of them lets a failure
through. What exit code a line has does not matter. -/
def execEach (flags : Flags) : List String → Console → Option Failure × Console
  | [], c => (none, c)
  | line :: lines, c =>
    match runLine flags {} line c with
    | (.ok _, c) => execEach flags lines c
    | (.error f, c) => (some f, c)

/-- How a session ends in which running a line let that failure through, if any did. Otherwise it
ends because a line says so, or because no further line can be read. -/
def sessionEnding (input : Input) : Option Failure → Ending
  | some f => endingAfter f
  | none =>
    if input.lines.any isQuit then .ok 0
    else
      match input.failure with
      | some f => endingAfter (.fault f)
      | none => .ok 0

/-- The bytes with the prompt in front. -/
def prompted (out : Bytes) : Bytes := Text.Utf8.encode prompt ++ out

variable {flags : Flags} {failure : Option Fault} {line : String} {lines : List String}
  {c d : Console} {stop : Option Failure}

section Lines

variable (lines)

theorem linesRead_of_isQuit (hquit : isQuit line = true) : linesRead (line :: lines) = [] := by
  simp [linesRead, hquit]

theorem linesRead_of_not_isQuit (hmore : isQuit line = false) :
    linesRead (line :: lines) = line :: linesRead lines := by
  simp [linesRead, hmore]

theorem linesToRun_of_isQuit (hquit : isQuit line = true) : linesToRun (line :: lines) = [] := by
  rw [linesToRun, linesRead_of_isQuit lines hquit, List.filter_nil]

theorem linesToRun_of_blank (hmore : isQuit line = false)
    (hblank : line.toList.all Text.isBlank = true) :
    linesToRun (line :: lines) = linesToRun lines := by
  simp only [linesToRun, linesRead_of_not_isQuit lines hmore, List.filter_cons, hblank,
    Bool.not_true, Bool.false_eq_true, if_false]

theorem linesToRun_of_not_blank (hmore : isQuit line = false)
    (hfull : line.toList.all Text.isBlank = false) :
    linesToRun (line :: lines) = line :: linesToRun lines := by
  simp only [linesToRun, linesRead_of_not_isQuit lines hmore, List.filter_cons, hfull,
    Bool.not_false, if_true]

theorem runLines_of_isQuit (hquit : isQuit line = true) (e : Executor) (c : Console) :
    runLines flags e failure (line :: lines) c = (.ok 0, c.print prompt) := by
  rw [runLines, if_pos hquit]

theorem runLines_of_blank (hmore : isQuit line = false)
    (hblank : line.toList.all Text.isBlank = true) (e : Executor) (c : Console) :
    runLines flags e failure (line :: lines) c =
      runLines flags e failure lines (c.print prompt) := by
  rw [← Text.trim_isEmpty_eq_all] at hblank
  rw [runLines, if_neg (by simp [hmore]), if_pos hblank]

theorem runLines_of_ok {e : Executor} {code : Int} (hmore : isQuit line = false)
    (hfull : line.toList.all Text.isBlank = false)
    (hrun : runLine flags e line (c.print prompt) = (.ok code, d)) :
    runLines flags e failure (line :: lines) c = runLines flags e failure lines d := by
  rw [← Text.trim_isEmpty_eq_all] at hfull
  simp only [runLines, hmore, hfull, Bool.false_eq_true, if_false, hrun]

theorem runLines_of_error {e : Executor} {f : Failure} (hmore : isQuit line = false)
    (hfull : line.toList.all Text.isBlank = false)
    (hrun : runLine flags e line (c.print prompt) = (.error f, d)) :
    runLines flags e failure (line :: lines) c = (endingAfter f, d) := by
  rw [← Text.trim_isEmpty_eq_all] at hfull
  simp only [runLines, hmore, hfull, Bool.false_eq_true, if_false, hrun]

/-- A line that does not say to stop has no part in how the session ends. -/
theorem sessionEnding_cons (hmore : isQuit line = false) (stop : Option Failure) :
    sessionEnding ⟨line :: lines, failure⟩ stop = sessionEnding ⟨lines, failure⟩ stop := by
  cases stop <;> simp [sessionEnding, hmore]

end Lines

/-- The loop over the lines runs the ones that are to be run, and writes its prompt before each
line that is read. What was written to the standard output before does not matter. -/
theorem exists_runLines_eq (hdone : execEach flags (linesToRun lines) c = (stop, d))
    (failure : Option Fault) (written : Bytes) :
    ∃ outs : List Bytes,
      runLines flags {} failure lines { c with stdout := written } =
        (sessionEnding ⟨lines, failure⟩ stop,
          { d with stdout := written ++ outs.flatMap prompted }) ∧
      d.stdout = c.stdout ++ outs.flatten ∧
      outs.length ≤ (linesRead lines).length + 1 ∧
      (stop = none → outs.length = (linesRead lines).length + 1) := by
  induction lines generalizing c written with
  | nil =>
    obtain ⟨rfl, rfl⟩ := Prod.mk.inj hdone
    refine ⟨[[]], ?_, by simp, by simp, by simp [linesRead]⟩
    cases failure <;> simp [runLines, Console.print, Console.write, sessionEnding, prompted]
  | cons line lines ih =>
    cases hquit : isQuit line with
    | true =>
      rw [linesToRun_of_isQuit lines hquit] at hdone
      obtain ⟨rfl, rfl⟩ := Prod.mk.inj hdone
      refine ⟨[[]], ?_, by simp, by simp, by simp [linesRead_of_isQuit lines hquit]⟩
      rw [runLines_of_isQuit lines hquit]
      simp [Console.print, Console.write, sessionEnding, hquit, prompted]
    | false =>
      rw [sessionEnding_cons lines hquit, linesRead_of_not_isQuit lines hquit]
      cases hblank : line.toList.all Text.isBlank with
      | true =>
        -- Nothing but the prompt is written for the line.
        rw [linesToRun_of_blank lines hquit hblank] at hdone
        obtain ⟨outs, hrun, hwrote, hfew, hall⟩ := ih hdone (written ++ prompted [])
        refine ⟨[] :: outs, ?_, by simpa using hwrote, by simpa using hfew, by simpa using hall⟩
        rw [List.append_assoc] at hrun
        rw [runLines_of_blank lines hquit hblank, List.flatMap_cons, ← hrun]
        simp [Console.print, Console.write, prompted]
      | false =>
        obtain ⟨out, hwrote, hsame⟩ := exists_runLine_written flags {} line c
        have hfirst := hsame (written ++ Text.Utf8.encode prompt)
        rw [linesToRun_of_not_blank lines hquit hblank, execEach] at hdone
        rcases hrun : runLine flags {} line c with ⟨f | code, c₁⟩ <;>
          rw [hrun] at hdone hwrote hfirst
        · -- The failure ends the session and the runs alike.
          obtain ⟨rfl, rfl⟩ := Prod.mk.inj hdone
          refine ⟨[out], ?_, by simpa using hwrote, by simp, by simp⟩
          rw [runLines_of_error lines hquit hblank hfirst, List.flatMap_singleton, prompted,
            ← List.append_assoc]
          rfl
        · obtain ⟨outs, hlater, hwrote', hfew, hall⟩ :=
            ih hdone (written ++ Text.Utf8.encode prompt ++ out)
          refine ⟨out :: outs, ?_, ?_, by simpa using hfew, by simpa using hall⟩
          · rw [runLines_of_ok lines hquit hblank hfirst, List.flatMap_cons, prompted,
              ← List.append_assoc, ← List.append_assoc]
            exact hlater
          · rw [hwrote', hwrote, List.flatten_cons, List.append_assoc]

/-- What running a line lets through is no error about running a pipeline. -/
theorem not_isExecution_of_runLine {e : Executor} {err : Error}
    (hrun : runLine flags e line c = (.error (.error err), d)) : err.isExecution = false := by
  cases hparsed : Line.parse line with
  | error flaw => simp [runLine_of_error hparsed] at hrun
  | ok p =>
    rw [runLine_of_ok hparsed] at hrun
    exact not_isExecution_of_conclude (congrArg Prod.fst hrun)

theorem not_isExecution_of_execEach {err : Error}
    (hdone : execEach flags lines c = (some (.error err), d)) : err.isExecution = false := by
  induction lines generalizing c with
  | nil => simp [execEach] at hdone
  | cons line lines ih =>
    rw [execEach] at hdone
    rcases hrun : runLine flags {} line c with ⟨f | code, c₁⟩ <;> rw [hrun] at hdone
    · obtain ⟨hsame, -⟩ := Prod.mk.inj hdone
      obtain rfl := Option.some.inj hsame
      exact not_isExecution_of_runLine hrun
    · exact ih hdone

/-- The lines after the first one that says to stop are not looked at. -/
theorem runLines_append_quit (flags : Flags) {quit : String} (hstops : isQuit quit = true)
    (before after rest : List String) (failure failure' : Option Fault) (e : Executor)
    (c : Console) :
    runLines flags e failure (before ++ quit :: after) c =
      runLines flags e failure' (before ++ quit :: rest) c := by
  induction before generalizing c with
  | nil =>
    rw [List.nil_append, List.nil_append, runLines_of_isQuit _ hstops, runLines_of_isQuit _ hstops]
  | cons line before ih => simp only [List.cons_append, runLines, ih]

/-- A session does what the runs of its lines do, one after the other over one world, and leaves
the console that they leave but for the prompts, one for each line that is read. It ends with the
exit code zero unless running a line, or reading the next one, lets something worse through than
the end of the input or an interrupt. No error about running a pipeline is let through, so that a
line that fails does not stop the ones after it. What follows the line that says to stop is not
looked at. -/
theorem shell_eq_execEach (flags : Flags) (input : Input) (c : Console) :
    let c₀ := c.begun (.shell flags)
    let done := execEach flags (linesToRun input.lines) c₀
    let session := (Invocation.shell flags).run input c
    (∃ outs : List Bytes,
      session.2 = { done.2 with stdout := c₀.stdout ++ outs.flatMap prompted } ∧
      done.2.stdout = c₀.stdout ++ outs.flatten ∧
      outs.length ≤ (linesRead input.lines).length + 1 ∧
      (done.1 = none → outs.length = (linesRead input.lines).length + 1)) ∧
    ((∀ f, done.1 = some f → endsShell f = true) →
      (∀ f, input.failure = some f → endsShell (.fault f) = true) → session.1 = .ok 0) ∧
    (∀ e, done.1 = some (.error e) → e.isExecution = false) ∧
    (∀ before quit after rest failure, input.lines = before ++ quit :: after → isQuit quit = true →
      (Invocation.shell flags).run ⟨before ++ quit :: rest, failure⟩ c = session) := by
  intro c₀ done session
  obtain ⟨outs, hrun, hwrote, hfew, hall⟩ :=
    exists_runLines_eq (show execEach flags _ c₀ = (done.1, done.2) from rfl)
      input.failure c₀.stdout
  have hends : session = _ := hrun
  refine ⟨⟨outs, congrArg Prod.snd hends, hwrote, hfew, hall⟩, fun hharmless hread => ?_,
    fun e hstop => ?_, fun before quit after rest failure hsplit hstops => ?_⟩
  · have hending : session.1 = sessionEnding input done.1 := congrArg Prod.fst hends
    rw [hending]
    cases hstop : done.1 with
    | some f => exact if_pos (hharmless f hstop)
    | none =>
      -- No line has ended the session, so that the end of the input or a line to stop has.
      rw [sessionEnding]
      split
      · rfl
      · cases hfailure : input.failure with
        | none => rfl
        | some f => exact if_pos (hread f hfailure)
  · exact not_isExecution_of_execEach (d := done.2) (by rw [← hstop])
  · have hsame := runLines_append_quit flags hstops before rest after failure input.failure {} c₀
    rw [← hsplit] at hsame
    exact hsame

/-- A session in which one line is blank, one is no pipeline, and one has a program that is
missing. The first line is run, and so is the one whose program is missing, but none after the line
that says to stop. -/
theorem shell_eq_execEach_failing_lines :
    let c : Console := { world := { machine := .ofScript {
      processes := [{ returnCode := 3, stdout := { chunks := [[97]] } },
        { refusal := some ⟨.notFound, "c"⟩ }] } } }
    let input : Input := ⟨["a", " ", "b |", "c", " quit", "d"], none⟩
    ∃ (d : Console) (outs : List Bytes), (Invocation.shell {}).run input c = (.ok 0, d) ∧
      d.stdout = outs.flatMap prompted ∧ outs.flatten = [97] ∧ outs.length = 5 ∧
      d.world.calls =
        [.start ["a"] .inherited .captured .captured, .wait 1000,
          .start ["c"] .inherited .captured .captured] := by
  intro c input
  have hruns :
      let done := execEach {} (linesToRun input.lines) (c.begun (.shell {}))
      done.1 = none ∧ done.2.stdout = [97] ∧
        done.2.world.calls = [.start ["a"] .inherited .captured .captured, .wait 1000,
          .start ["c"] .inherited .captured .captured] := by
    decide +kernel
  have hread : (linesRead input.lines).length + 1 = 5 := by decide +kernel
  have hsession := shell_eq_execEach {} input c
  simp only [Console.stdout_begun] at hsession
  -- From here on it does not matter how the lines are run.
  generalize execEach {} (linesToRun input.lines) _ = done at hruns hsession
  obtain ⟨hfinished, hplain, hcalls⟩ := hruns
  obtain ⟨⟨outs, hconsole, hwrote, -, hall⟩, hends, -, -⟩ := hsession
  have hending := hends (fun f hstop => nomatch hfinished.symm.trans hstop) nofun
  exact ⟨_, outs, Prod.ext hending hconsole, List.nil_append _, hwrote.symm.trans hplain,
    (hall hfinished).trans hread, hcalls⟩

end Cli

end Pipework
