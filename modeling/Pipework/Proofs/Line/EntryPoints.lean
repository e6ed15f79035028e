import Pipework.Proofs.Line.Parsing

/-!
# The ways to parse a line agree

A line can be split into the texts of its segments, it can be read as one command, and it can be
read as a pipeline. All three rest on one scan, which goes over the line once and carries what it
knows from segment to segment. Cutting a segment out and reading it on its own gives nevertheless
the same words, because a part of a derivation is itself a derivation.

## Main results

* `Grammar.Parts.intercalate_texts` — the texts of the parts, with pipes between, are the line
* `scan_part` — a part that is cut out is scanned into one segment with the same words
* `parsers_agree` — splitting, reading a command and reading a pipeline agree on every line
-/

namespace Pipework.Line

open Grammar

variable {line : String} {text : List Char} {parts : List (List Char × List (List Char))}

/-- The texts of the parts, with pipes between them, are the line. -/
theorem Grammar.Parts.intercalate_texts (h : Parts text parts) :
    ['|'].intercalate (parts.map (·.1)) = text := by
  induction h with
  | last _ => rw [List.map_singleton, List.intercalate_singleton]
  | more _ hparts ih =>
    have hne := hparts.ne_nil
    rw [List.map_cons, List.intercalate_cons_of_ne_nil (by simpa using hne), ih, List.append_assoc,
      List.singleton_append]

/-- A part that is cut out is scanned into one segment with the same words. -/
theorem scan_part (h : Parts text parts) {part : List Char × List (List Char)}
    (hmem : part ∈ parts) :
    scan (.ofList part.1) = .ok [⟨0, .ofList part.1, part.2.map .ofList⟩] := by
  have hpart : Parts (String.ofList part.1).toList [part] := by
    rw [String.toList_ofList]
    exact .last (h.words_of_mem hmem)
  exact scan_of_parts hpart

/-- The words of a part that is cut out are those it has on the line, if they begin with the name
of a program. -/
theorem tokenize_part (h : Parts text parts) {part : List Char × List (List Char)}
    (hmem : part ∈ parts) {words : List String} :
    tokenize (.ofList part.1) = .ok words ↔
      ∃ s : Stage, (part.2.map .ofList = s.argv ∧ s.program ≠ "") ∧ s.argv = words := by
  rw [tokenize_eq_ok_iff]
  refine exists_congr fun s => and_congr_left fun _ => ?_
  rw [parseStage_eq_ok_iff, scan_part h hmem]
  constructor
  · rintro ⟨segment, hsegment, hs⟩
    obtain rfl := List.singleton_inj.mp (Except.ok.inj hsegment)
    exact hs
  · intro hs
    exact ⟨_, rfl, hs⟩

/-- Words that begin with names of programs are those of stages with such names. -/
theorem exists_named_iff (words : List (List String)) :
    (∃ stages, words = stages.map Stage.argv ∧ Named stages) ↔
      ∀ ws ∈ words, ∃ s : Stage, ws = s.argv ∧ s.program ≠ "" := by
  constructor
  · rintro ⟨stages, rfl, hnamed⟩ ws hmem
    obtain ⟨s, hs, rfl⟩ := List.mem_map.mp hmem
    exact ⟨s, rfl, hnamed s hs⟩
  · intro h
    induction words with
    | nil => exact ⟨[], rfl, nofun⟩
    | cons ws words ih =>
      obtain ⟨hfirst, hrest⟩ := List.forall_mem_cons.mp h
      obtain ⟨s, rfl, hname⟩ := hfirst
      obtain ⟨stages, rfl, hnamed⟩ := ih hrest
      exact ⟨s :: stages, rfl, named_cons.mpr ⟨hname, hnamed⟩⟩

/-- Parsing a line that has parts. -/
theorem parse_of_parts (h : Parts line.toList parts) {p : Pipeline} :
    parse line = .ok p ↔ parts.map (fun part => part.2.map .ofList) = p.argvs ∧
      Named p.stages := by
  rw [parse_eq_ok_iff, scan_of_parts h]
  constructor
  · rintro ⟨segments, hsegments, hwords, hnamed⟩
    obtain rfl := Except.ok.inj hsegments
    rw [map_words_layout] at hwords
    exact ⟨hwords, hnamed⟩
  · rintro ⟨hwords, hnamed⟩
    exact ⟨_, rfl, (map_words_layout 0 parts).trans hwords, hnamed⟩

/-- Splitting gives the texts of the parts. -/
theorem exists_parts_of_segmentTexts {texts : List String} (h : segmentTexts line = .ok texts) :
    ∃ parts, Parts line.toList parts ∧ texts = parts.map fun part => .ofList part.1 := by
  obtain ⟨segments, hscan, rfl⟩ := segmentTexts_eq_ok_iff.mp h
  obtain ⟨parts, hparts, rfl⟩ := exists_parts_of_scan hscan
  exact ⟨parts, hparts, map_source_layout 0 parts⟩

/-- Splitting loses nothing but the pipes. -/
theorem intercalate_segmentTexts {texts : List String} (h : segmentTexts line = .ok texts) :
    "|".intercalate texts = line := by
  obtain ⟨parts, hparts, rfl⟩ := exists_parts_of_segmentTexts h
  have hline := hparts.intercalate_texts
  rw [← String.toList_inj, String.toList_intercalate, List.map_map]
  simpa [Function.comp_def] using hline

/-- A line holds a pipeline if each of its segments, cut out, holds a command. -/
theorem exists_parse_iff {texts : List String} (h : segmentTexts line = .ok texts) :
    (∃ p, parse line = .ok p) ↔ ∀ t ∈ texts, ∃ words, tokenize t = .ok words := by
  obtain ⟨parts, hparts, rfl⟩ := exists_parts_of_segmentTexts h
  have hparse : (∃ p, parse line = .ok p) ↔
      ∃ stages, parts.map (fun part => part.2.map .ofList) = stages.map Stage.argv ∧
        Named stages := by
    simp only [parse_of_parts hparts]
    exact ⟨fun ⟨p, hp⟩ => ⟨p.stages, hp⟩, fun ⟨stages, hstages⟩ => ⟨{ stages }, hstages⟩⟩
  -- What is asked of all stages together is asked of each part by itself.
  rw [hparse, exists_named_iff]
  simp only [List.forall_mem_map]
  refine forall₂_congr fun part hmem => ?_
  simp only [tokenize_part hparts hmem]
  exact ⟨fun ⟨s, hs⟩ => ⟨_, s, hs, rfl⟩, fun ⟨_, s, hs, _⟩ => ⟨s, hs⟩⟩

/-- The stages of a pipeline on a line are the commands that its segments, cut out, hold. -/
theorem map_tokenize_eq {texts : List String} (h : segmentTexts line = .ok texts) {p : Pipeline}
    (hparse : parse line = .ok p) : texts.map tokenize = p.argvs.map .ok := by
  obtain ⟨parts, hparts, rfl⟩ := exists_parts_of_segmentTexts h
  obtain ⟨hwords, hnamed⟩ := (parse_of_parts hparts).mp hparse
  rw [← hwords, List.map_map, List.map_map]
  refine List.map_congr_left fun part hmem => ?_
  have hargv : part.2.map .ofList ∈ p.argvs := hwords ▸ List.mem_map_of_mem hmem
  obtain ⟨s, hs, heq⟩ := List.mem_map.mp hargv
  exact (tokenize_part hparts hmem).mpr ⟨s, ⟨heq.symm, hnamed s hs⟩, heq⟩

/-- The first segment starts with the line. -/
theorem stop_of_scan {s : Segment} {rest : List Segment} (h : scan line = .ok (s :: rest)) :
    s.stop = s.source.length := by
  obtain ⟨parts, hparts, hlayout⟩ := exists_parts_of_scan h
  cases parts with
  | nil => cases hlayout
  | cons part parts =>
    obtain ⟨rfl, -⟩ := List.cons.inj hlayout
    exact Nat.zero_add _

theorem kind_of_stageOfWords {index : Nat} {words : List String} {f : Flaw}
    (h : stageOfWords index words = .error f) : f.kind = .emptyCommand := by
  unfold stageOfWords at h
  repeat' split at h
  all_goals cases h
  all_goals rfl

/-- Only pipes that stand on the line are unexpected where one command is read, and the first of
them is the one that is reported. -/
theorem parseStage_eq_strayPipe_iff {f : Flaw} :
    parseStage line = .error f ∧ f.kind = .general ↔
      ∃ first second rest, segmentTexts line = .ok (first :: second :: rest) ∧
        f = .strayPipe first.length := by
  constructor
  · rintro ⟨h, hkind⟩
    rcases bind_eq_error_iff.mp h with hscan | ⟨segments, hscan, h⟩
    · obtain ⟨mark, segment, position, -, rfl⟩ := exists_unfinished_of_scan hscan
      cases hkind
    -- Of the three numbers of segments that are told apart only the last gives such a flaw.
    split at h
    · cases h
      cases hkind
    · rw [kind_of_stageOfWords h] at hkind
      cases hkind
    · next first segments hmany =>
      cases segments with
      | nil => exact absurd rfl hmany
      | cons second rest =>
        refine ⟨_, _, _, segmentTexts_eq_ok_iff.mpr ⟨_, hscan, rfl⟩, ?_⟩
        rw [← stop_of_scan hscan]
        exact (Except.error.inj h).symm
  · rintro ⟨first, second, rest, htexts, rfl⟩
    obtain ⟨segments, hscan, hmap⟩ := segmentTexts_eq_ok_iff.mp htexts
    obtain ⟨s, later, rfl, rfl, hlater⟩ := List.map_eq_cons_iff.mp hmap
    obtain ⟨t, others, rfl, rfl, -⟩ := List.map_eq_cons_iff.mp hlater
    refine ⟨?_, rfl⟩
    rw [parseStage, hscan, ← stop_of_scan hscan]
    rfl

/-- Splitting a line, reading it as one command and reading it as a pipeline agree: the texts of
the segments make up the line, a pipeline is found exactly if every segment on its own holds a
command, and then it is these commands; only several segments make a pipe unexpected; one command
is a pipeline of one stage; and an open quote is the same flaw for all. -/
theorem parsers_agree (line : String) :
    (∀ texts, segmentTexts line = .ok texts → "|".intercalate texts = line) ∧
    (∀ texts, segmentTexts line = .ok texts →
      ((∃ p, parse line = .ok p) ↔ ∀ t ∈ texts, ∃ words, tokenize t = .ok words) ∧
      ∀ p, parse line = .ok p → texts.map tokenize = p.argvs.map .ok) ∧
    (∀ f : Flaw, tokenize line = .error f ∧ f.kind = .general ↔
      ∃ first second rest, segmentTexts line = .ok (first :: second :: rest) ∧
        f.error = .parse .general "Unexpected '|' in a single command" (some 0)
          (some first.length)) ∧
    (∀ c, parseCommand line = .ok c ↔
      ∃ s, parse line = .ok { stages := [s] } ∧ Command.ofStage s = c) ∧
    ∀ mark segment position,
      (tokenize line = .error (.openQuote mark segment position) ↔
        segmentTexts line = .error (.openQuote mark segment position)) ∧
      (parse line = .error (.openQuote mark segment position) ↔
        segmentTexts line = .error (.openQuote mark segment position)) := by
  refine ⟨fun texts h => intercalate_segmentTexts h,
    fun texts h => ⟨exists_parse_iff h, fun p hp => map_tokenize_eq h hp⟩, fun f => ?_,
    fun c => ?_, fun mark segment position => ?_⟩
  · rw [tokenize_eq_error_iff, parseStage_eq_strayPipe_iff]
    refine exists_congr fun first => exists_congr fun second => exists_congr fun rest =>
      and_congr_right fun _ => ⟨?_, fun h => ?_⟩
    · rintro rfl
      rfl
    · -- Only this flaw has these words, and its position is the one in the error.
      cases f with
      | strayPipe position =>
        simp only [Flaw.error, Flaw.position?, Option.map_some, Error.parse.injEq,
          Option.some.injEq] at h
        rw [Int.ofNat.inj h.2.2.2]
      | _ => cases h
  · rw [parseCommand_eq_ok_iff]
    exact exists_congr fun s => and_congr_left fun _ => parseStage_eq_ok_iff_parse
  · rw [tokenize_eq_error_iff, parseStage_eq_openQuote_iff, parse_eq_openQuote_iff,
      segmentTexts_eq_error_iff]
    exact ⟨Iff.rfl, Iff.rfl⟩

/-- Three commands, in one of which a pipe means itself. -/
theorem parsers_agree_three_commands :
    "|".intercalate ["a ", " 'b|c' ", "d\\|"] = "a | 'b|c' |d\\|" ∧
    [tokenize "a ", tokenize " 'b|c' ", tokenize "d\\|"] = [.ok ["a"], .ok ["b|c"], .ok ["d|"]] :=
  have hagree := parsers_agree "a | 'b|c' |d\\|"
  ⟨hagree.1 _ rfl, (hagree.2.1 _ rfl).2 ⟨[⟨"a", []⟩, ⟨"b|c", []⟩, ⟨"d|", []⟩]⟩ rfl⟩

end Pipework.Line
