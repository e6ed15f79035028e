import Pipework.Proofs.Cli.Console
import Pipework.Proofs.Line.Rows

/-!
# How a line is split, shown without ambiguity

The command that shows how a line is split writes one row for each stage of its pipeline. What it
writes tells the pipeline: two lines are shown alike only if they hold the same pipeline, whatever
stands in its arguments. And it can be read again, row by row or as one command.

## Main results

* `run_parse_of_ok` — the stages of the pipeline are written in rows
* `split_shown_unambiguous` — what is written tells the pipeline, and can be read again
-/

namespace Pipework.Cli

open Line (joinRows)

variable {line line' : String} {p q : Pipeline}

/-- The stages of the pipeline on a line are written in rows. -/
theorem showSplit_of_ok (hparsed : Line.parse line = .ok p) (c : Console) :
    showSplit line c = (.ok 0, c.print (joinRows p.argvs)) := by
  have hrows : p.argvs.map (fun ws => Line.joinWords ws ++ "\n") =
      p.stages.map fun s => s.line ++ "\n" := List.map_map
  simp only [showSplit, hparsed, joinRows, hrows]

/-- The command writes the stages to the standard output, and nothing else. -/
theorem run_parse_of_ok (hparsed : Line.parse line = .ok p) (flags : Flags) (input : Input)
    (c : Console) :
    ((Invocation.parse line flags).run input c).1 = .ok 0 ∧
      ((Invocation.parse line flags).run input c).2.stdout =
        c.stdout ++ Text.Utf8.encode (joinRows p.argvs) := by
  have hshown : (Invocation.parse line flags).run input c =
      showSplit line (c.begun (.parse line flags)) := rfl
  rw [hshown, showSplit_of_ok hparsed]
  refine ⟨rfl, ?_⟩
  rw [Console.print, Console.write, Console.stdout_begun]

/-- Let two lines hold pipelines. The command that shows how they are split writes the same for
both if and only if the pipelines are the same. What it writes for a line is text whose rows are
the stages of the pipeline, and which is read as one command with the words of all stages in
order. -/
theorem split_shown_unambiguous (hparsed : Line.parse line = .ok p)
    (hparsed' : Line.parse line' = .ok q) (flags flags' : Flags) (input input' : Input)
    {c c' : Console} (hsame : c.stdout = c'.stdout) :
    let shown := (Invocation.parse line flags).run input c
    let shown' := (Invocation.parse line' flags').run input' c'
    shown.1 = .ok 0 ∧ shown'.1 = .ok 0 ∧ (shown.2.stdout = shown'.2.stdout ↔ p = q) ∧
      ∃ text, shown.2.stdout = c.stdout ++ Text.Utf8.encode text ∧
        Line.rows text = .ok p.argvs ∧ Line.tokenize text = .ok p.argvs.flatten := by
  intro shown shown'
  obtain ⟨hending, houtput⟩ := run_parse_of_ok hparsed flags input c
  obtain ⟨hending', houtput'⟩ := run_parse_of_ok hparsed' flags' input' c'
  obtain ⟨_, _, _, hnamed⟩ := Line.parse_eq_ok_iff.1 hparsed
  refine ⟨hending, hending', ⟨fun halike => ?_, ?_⟩, joinRows p.argvs, houtput,
    Line.rows_joinRows _, Line.tokenize_joinRows (Line.stages_ne_nil_of_parse hparsed) hnamed⟩
  · -- The same bytes are written, so the same text, and this has the same rows.
    have hprinted : c.stdout ++ Text.Utf8.encode (joinRows p.argvs) =
        c.stdout ++ Text.Utf8.encode (joinRows q.argvs) := by
      rw [← houtput, hsame, ← houtput']
      exact halike
    have htext := Text.Utf8.encode_inj.1 (List.append_cancel_left hprinted)
    exact Pipeline.argvs_inj.1 (Line.joinRows_injective htext)
  · rintro rfl
    exact houtput.trans ((congrArg (· ++ _) hsame).trans houtput'.symm)

/-- A line with a line break in a quoted argument is not shown like one with two stages, and one
with two stages is shown alike however it is written. -/
theorem split_shown_unambiguous_line_break :
    let c : Console := { world := { machine := .ofScript {} } }
    let shown (line : String) := (Invocation.parse line {}).run ⟨[], none⟩ c
    Line.parse "echo 'a\nb'" = .ok ⟨[⟨"echo", ["a\nb"]⟩]⟩ ∧
      Line.parse "echo a | b" = .ok ⟨[⟨"echo", ["a"]⟩, ⟨"b", []⟩]⟩ ∧
      Line.parse "'echo' \\a|b " = .ok ⟨[⟨"echo", ["a"]⟩, ⟨"b", []⟩]⟩ ∧
      (shown "echo 'a\nb'").2.stdout ≠ (shown "echo a | b").2.stdout ∧
      (shown "echo a | b").2.stdout = (shown "'echo' \\a|b ").2.stdout ∧
      ∃ text, (shown "echo 'a\nb'").2.stdout = Text.Utf8.encode text ∧
        Line.rows text = .ok [["echo", "a\nb"]] ∧ Line.tokenize text = .ok ["echo", "a\nb"] := by
  intro c shown
  have hquoted : Line.parse "echo 'a\nb'" = .ok ⟨[⟨"echo", ["a\nb"]⟩]⟩ := rfl
  have hpiped : Line.parse "echo a | b" = .ok ⟨[⟨"echo", ["a"]⟩, ⟨"b", []⟩]⟩ := rfl
  have hescaped : Line.parse "'echo' \\a|b " = .ok ⟨[⟨"echo", ["a"]⟩, ⟨"b", []⟩]⟩ := rfl
  obtain ⟨-, -, hdiffer, text, houtput, hrows, hwords⟩ :=
    split_shown_unambiguous hquoted hpiped {} {} ⟨[], none⟩ ⟨[], none⟩ (c := c) rfl
  obtain ⟨-, -, halike, -⟩ :=
    split_shown_unambiguous hpiped hescaped {} {} ⟨[], none⟩ ⟨[], none⟩ (c := c) rfl
  refine ⟨hquoted, hpiped, hescaped, fun hsame => ?_, halike.2 rfl, text, houtput, hrows, hwords⟩
  exact absurd (hdiffer.1 hsame) (by decide)

end Pipework.Cli
