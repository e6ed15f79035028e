import Pipework.Proofs.Line.Ending
import Pipework.Proofs.Line.EntryPoints
import Pipework.Session.Reply

/-!
# Lines that are joined by a pipe

Right behind a pipe that is one the reader is as at the beginning of a line. So two lines with a
pipe between them are scanned one after the other: the segments of the second follow those of the
first, further right by what stands before them, and a quote that the second line leaves open is
the same quote further right. The first line must be read to a settled end, for otherwise the pipe
belongs to a quote, or a backslash takes it.

Conversely, a line is cut in two at each of the pipes between its segments.

## Main definitions

* `Segment.later` — a segment, seen from further left

## Main results

* `Grammar.Parts.join`, `Grammar.Parts.split` — a pipe between two lines, and a line cut at a pipe
* `scan_joined` — the scan of two lines with a pipe between them
* `joined_lines` — splitting and parsing such a line
-/

namespace Pipework.Line

open Grammar

/-- The segment, on a line with more characters in front. -/
def Segment.later (characters : Nat) (s : Segment) : Segment :=
  { s with start := characters + s.start }

section Parts

variable {before rest text : List Char} {front back : List (List Char × List (List Char))}
  {ls : List Lexeme}

theorem layout_add (characters start : Nat) (parts : List (List Char × List (List Char))) :
    layout (characters + start) parts = (layout start parts).map (.later characters) := by
  induction parts generalizing start with
  | nil => rfl
  | cons part parts ih =>
    rw [layout, layout, List.map_cons, ← ih, Nat.add_assoc, Nat.add_assoc, Nat.add_assoc]
    rfl

/-- What follows the parts of a line stands behind the line and a pipe. -/
theorem Grammar.Parts.layout_append (h : Parts before front) (start : Nat)
    (back : List (List Char × List (List Char))) :
    layout start (front ++ back) =
      layout start front ++ layout (start + before.length + 1) back := by
  induction h generalizing start with
  | last _ => rfl
  | @more text rest words parts _ _ ih =>
    have hplace : start + text.length + 1 + rest.length + 1 =
        start + (text ++ '|' :: rest).length + 1 := by
      rw [List.length_append, List.length_cons]
      omega
    rw [List.cons_append, layout, layout, List.cons_append, ih, hplace]

/-- A pipe between two lines joins their parts, if the first line is read to a settled end. -/
theorem Grammar.Parts.join (h : Parts before front) (hreads : Reads false before ls)
    (h' : Parts rest back) : Parts (before ++ '|' :: rest) (front ++ back) := by
  obtain ⟨_, hlexemes, hcut⟩ := h.exists_lexemes
  obtain rfl := Except.ok.inj (hreads.lexemes_eq.symm.trans hlexemes)
  obtain ⟨ms, hlexemes', hcut'⟩ := h'.exists_lexemes
  have hjoined : lexemes (before ++ '|' :: rest) = .ok (ls ++ ⟨.pipe, ['|']⟩ :: ms) := by
    rw [hreads.lexemes_append, ← List.singleton_append, reads_pipe.lexemes_append, hlexemes']
    rfl
  -- The line has lexemes, so it has parts, and these are cut at the pipe.
  rcases exists_parts_or_unfinished (before ++ '|' :: rest) with ⟨parts, hparts⟩ | ⟨_, _, _, hopen⟩
  · obtain ⟨_, hlexemes'', hcut''⟩ := hparts.exists_lexemes
    obtain rfl := Except.ok.inj (hjoined.symm.trans hlexemes'')
    rw [cut_append_pipe ls rfl, List.map_append, hcut, hcut'] at hcut''
    rwa [hcut'']
  · rw [hopen.lexemes_eq] at hjoined
    cases hjoined

/-- Between two of its parts a line is cut by a pipe, and what stands before it is read to a
settled end. -/
theorem Grammar.Parts.split (h : Parts text (front ++ back)) (hfront : front ≠ [])
    (hback : back ≠ []) :
    ∃ before rest ls, text = before ++ '|' :: rest ∧ Parts before front ∧ Parts rest back ∧
      Reads false before ls := by
  induction front generalizing text with
  | nil => exact absurd rfl hfront
  | cons part front ih =>
    have hlater : front ++ back ≠ [] := List.append_ne_nil_of_right_ne_nil _ hback
    rw [List.cons_append] at h
    generalize hparts : front ++ back = later at h hlater
    cases h with
    | last _ => exact absurd rfl hlater
    | @more text rest words _ hwords hrest =>
      subst hparts
      obtain ⟨ls, hreads, -⟩ := hwords.exists_reads
      cases front with
      | nil => exact ⟨text, rest, ls, rfl, .last hwords.mono, hrest, hreads⟩
      | cons next front =>
        obtain ⟨before, later, ms, rfl, hbefore, hlater, hreads'⟩ :=
          ih hrest (List.cons_ne_nil _ _)
        refine ⟨text ++ '|' :: before, later, ls ++ ([⟨.pipe, ['|']⟩] ++ ms), by simp,
          .more hwords hbefore, hlater, ?_⟩
        exact hreads.append (reads_pipe.append hreads')

end Parts

variable {a b : String} {segments : List Segment}

/-- Two lines with a pipe between them are scanned one after the other. -/
theorem scan_joined (hscan : scan a = .ok segments) (hend : ¬ EndsEscaping a) (b : String) :
    scan (a ++ "|" ++ b) =
      ((scan b).map (segments ++ ·.map (.later (a.length + 1)))).mapError
        (.later segments.length (a.length + 1)) := by
  obtain ⟨ls, hreads⟩ := exists_reads ⟨segments, hscan⟩ hend
  obtain ⟨front, hfront, rfl⟩ := exists_parts_of_scan hscan
  have hline : (a ++ "|" ++ b).toList = a.toList ++ '|' :: b.toList := by
    rw [String.toList_append, String.toList_append, List.append_assoc]
    rfl
  rcases exists_parts_or_unfinished b.toList with ⟨back, hback⟩ | ⟨_, _, _, hopen⟩
  · rw [scan_of_parts (hline ▸ hfront.join hreads hback), scan_of_parts hback,
      hfront.layout_append, ← String.length_toList]
    have hplace : 0 + a.toList.length + 1 = a.toList.length + 1 + 0 := by omega
    rw [hplace, layout_add]
    rfl
  · -- One segment of the first line is there even without a pipe in it.
    have hcount : (layout 0 front).length = countPipes ls + 1 := by
      rw [scan, hreads.lexemes_eq] at hscan
      rw [← Except.ok.inj hscan, length_place, length_cut, countPipes]
    rw [scan_of_unfinished hopen, scan, hline, hreads.lexemes_append, ← List.singleton_append,
      reads_pipe.lexemes_append, hopen.lexemes_eq, hcount, String.length_toList]
    refine congrArg Except.error ?_
    rw [countPipes_pipe, List.length_singleton]
    simp only [Flaw.later, Nat.add_assoc]

/-- Let a line be scanned to its end without a backslash left that escapes nothing, and put a pipe
and another line behind it. If the other line is scanned as well, then its segments follow those of
the first; if a quote is left open in it, then that is the quote that is left open, behind the
segments and the characters that come first; and if both lines are pipelines, then this is the one
continued with the other. -/
theorem joined_lines (hscan : scan a = .ok segments) (hend : ¬ EndsEscaping a) :
    (∀ found, scan b = .ok found → ∃ texts texts', segmentTexts a = .ok texts ∧
      segmentTexts b = .ok texts' ∧ segmentTexts (a ++ "|" ++ b) = .ok (texts ++ texts')) ∧
    (∀ mark segment position, scan b = .error (.openQuote mark segment position) →
      let f := Flaw.openQuote mark (segment + segments.length) (position + a.length + 1)
      scan (a ++ "|" ++ b) = .error f ∧ segmentTexts (a ++ "|" ++ b) = .error f ∧
      tokenize (a ++ "|" ++ b) = .error f ∧ parse (a ++ "|" ++ b) = .error f) ∧
    ∀ p q, parse a = .ok p → parse b = .ok q → ∃ r,
      Query.onPipeline p (.pipe (.pipeline q)) = .ok (.pipeline r, p) ∧
      parse (a ++ "|" ++ b) = .ok r := by
  have hjoined := scan_joined hscan hend b
  refine ⟨fun found hb => ?_, fun mark segment position hb => ?_, fun p q hp hq => ?_⟩
  · rw [hb] at hjoined
    refine ⟨_, _, segmentTexts_eq_ok_iff.mpr ⟨_, hscan, rfl⟩,
      segmentTexts_eq_ok_iff.mpr ⟨_, hb, rfl⟩, segmentTexts_eq_ok_iff.mpr ⟨_, hjoined, ?_⟩⟩
    rw [List.map_append, List.map_map]
    rfl
  · rw [hb] at hjoined
    have hflaw : Flaw.later segments.length (a.length + 1) (.openQuote mark segment position) =
        .openQuote mark (segment + segments.length) (position + a.length + 1) := by
      rw [Flaw.later, Nat.add_comm segments.length, Nat.add_comm _ position, Nat.add_assoc]
    have herror : scan (a ++ "|" ++ b) =
        .error (.openQuote mark (segment + segments.length) (position + a.length + 1)) := by
      rw [hjoined, ← hflaw]
      rfl
    exact ⟨herror, segmentTexts_eq_error_iff.mpr herror,
      tokenize_eq_error_iff.mpr (parseStage_eq_openQuote_iff.mpr herror),
      parse_eq_openQuote_iff.mpr herror⟩
  · obtain ⟨found, ha, hwords, hnamed⟩ := parse_eq_ok_iff.mp hp
    obtain ⟨found', hb, hwords', hnamed'⟩ := parse_eq_ok_iff.mp hq
    obtain rfl := Except.ok.inj (hscan.symm.trans ha)
    rw [hb] at hjoined
    -- Parsing looks at the words of segments only, and these do not move.
    refine ⟨{ stages := p.stages ++ q.stages }, rfl, parse_eq_ok_iff.mpr ⟨_, hjoined, ?_, ?_⟩⟩
    · have hlater : (found'.map (Segment.later (a.length + 1))).map Segment.words =
          found'.map (·.words) := by
        rw [List.map_map]
        rfl
      rw [List.map_append, hlater, hwords, hwords', Pipeline.argvs, Pipeline.argvs, Pipeline.argvs,
        List.map_append]
    · exact fun s hmem => (List.mem_append.mp hmem).elim (hnamed s) (hnamed' s)

/-- A line with a pipe that is quoted and a backslash that is escaped, a line with an escaped pipe,
and a line that leaves a quote open. -/
theorem joined_lines_quoted_pipe :
    let a := "a 'x|' | b\\\\"
    let segments : List Segment := [⟨0, "a 'x|' ", ["a", "x|"]⟩, ⟨8, " b\\\\", ["b\\"]⟩]
    scan a = .ok segments ∧ ¬ EndsEscaping a ∧
      (∃ r, Query.onPipeline ⟨[⟨"a", ["x|"]⟩, ⟨"b\\", []⟩]⟩ (.pipe (.pipeline ⟨[⟨"c", ["|"]⟩]⟩)) =
          .ok (.pipeline r, ⟨[⟨"a", ["x|"]⟩, ⟨"b\\", []⟩]⟩) ∧
        parse (a ++ "|" ++ "c \\|") = .ok r) ∧
      parse (a ++ "|" ++ "c | \"") = .error (.openQuote '"' 3 17) := by
  intro a segments
  have hscan : scan a = .ok segments := by decide +kernel
  have hend : ¬ EndsEscaping a := by
    unfold EndsEscaping
    decide
  refine ⟨hscan, hend, ?_, ?_⟩
  · exact (joined_lines (b := "c \\|") hscan hend).2.2 _ _ (by decide +kernel) (by decide +kernel)
  · have hopen := ((joined_lines (b := "c | \"") hscan hend).2.1 '"' 1 4 (by decide +kernel)).2.2.2
    have hlength : a.length = 12 := by decide +kernel
    rw [hlength] at hopen
    exact hopen

end Pipework.Line
