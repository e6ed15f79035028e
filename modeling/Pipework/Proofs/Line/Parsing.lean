import Pipework.Line.Parse
import Pipework.Proofs.Line.Recognition

/-!
# What parsing takes from a scan

A pipeline is read off the words of the segments that were scanned: each segment gives one stage,
its first word is the program, and the program must not be empty. The results here say so of
each function that parses, once for the outcome in which it succeeds and once for the flaw that
they leave to the scan.

## Main definitions

* `Named` — stages with names for their programs

## Main results

* `parse_eq_ok_iff` — the pipeline on a line has the words of the segments for its stages
* `parseStage_eq_ok_iff`, `tokenize_eq_ok_iff`, `parseCommand_eq_ok_iff` — the same for a line
  that holds one command
* `parseStage_eq_ok_iff_parse` — one command is a pipeline of one stage
* `parse_eq_openQuote_iff`, `parseStage_eq_openQuote_iff` — an open quote is the scan's flaw
-/

namespace Pipework.Line

variable {line : String} {index : Nat}

section Except

variable {ε α β : Type} {x : Except ε α} {f : α → Except ε β}

theorem bind_eq_ok_iff {b : β} : (x >>= f) = .ok b ↔ ∃ a, x = .ok a ∧ f a = .ok b := by
  cases x with
  | error e => exact ⟨nofun, nofun⟩
  | ok a =>
    constructor
    · intro h
      exact ⟨a, rfl, h⟩
    · rintro ⟨a', ha, h⟩
      obtain rfl := Except.ok.inj ha
      exact h

theorem bind_eq_error_iff {e : ε} :
    (x >>= f) = .error e ↔ x = .error e ∨ ∃ a, x = .ok a ∧ f a = .error e := by
  cases x with
  | error e' =>
    constructor
    · intro h
      exact .inl (congrArg Except.error (Except.error.inj h))
    · rintro (h | ⟨a, ha, -⟩)
      · exact congrArg Except.error (Except.error.inj h)
      · cases ha
  | ok a =>
    constructor
    · intro h
      exact .inr ⟨a, rfl, h⟩
    · rintro (h | ⟨a', ha, h⟩)
      · cases h
      · obtain rfl := Except.ok.inj ha
        exact h

end Except

/-- The stages have names for their programs. -/
def Named (stages : List Stage) : Prop := ∀ s ∈ stages, s.program ≠ ""

theorem named_cons {s : Stage} {stages : List Stage} :
    Named (s :: stages) ↔ s.program ≠ "" ∧ Named stages := List.forall_mem_cons

/-! ### Pipelines and commands that are found -/

theorem stageOfWords_eq_ok_iff {words : List String} {s : Stage} :
    stageOfWords index words = .ok s ↔ words = s.argv ∧ s.program ≠ "" := by
  cases words with
  | nil => exact ⟨nofun, nofun⟩
  | cons word words =>
    rw [stageOfWords]
    split
    · next hempty =>
      constructor
      · exact nofun
      · rintro ⟨hwords, hne⟩
        cases hwords
        exact absurd (String.isEmpty_iff.mp hempty) hne
    · next hempty =>
      constructor
      · rintro h
        cases h
        exact ⟨rfl, fun hword => hempty (String.isEmpty_iff.mpr hword)⟩
      · rintro ⟨hwords, _⟩
        cases hwords
        rfl

/-- A segment among several gives the same stage that its words give alone. -/
theorem segmentStage_eq_ok_iff {segment : Segment} {s : Stage} :
    segmentStage index segment = .ok s ↔ segment.words = s.argv ∧ s.program ≠ "" := by
  unfold segmentStage
  split
  · next hempty =>
    rw [List.isEmpty_iff.mp hempty]
    exact ⟨nofun, nofun⟩
  · exact stageOfWords_eq_ok_iff

theorem segmentStages_eq_ok_iff {segments : List Segment} {stages : List Stage} :
    segmentStages index segments = .ok stages ↔
      segments.map (·.words) = stages.map (·.argv) ∧ Named stages := by
  induction segments generalizing index stages with
  | nil =>
    constructor
    · intro h
      obtain rfl := Except.ok.inj h
      exact ⟨rfl, nofun⟩
    · rintro ⟨hwords, -⟩
      rw [List.map_eq_nil_iff.mp hwords.symm]
      rfl
  | cons segment segments ih =>
    simp only [segmentStages, bind_eq_ok_iff, segmentStage_eq_ok_iff, ih]
    constructor
    · rintro ⟨s, ⟨hfirst, hname⟩, rest, ⟨hwords, hnamed⟩, hstages⟩
      obtain rfl := Except.ok.inj hstages
      rw [List.map_cons, List.map_cons, hfirst, hwords]
      exact ⟨rfl, named_cons.mpr ⟨hname, hnamed⟩⟩
    · rintro ⟨hwords, hnamed⟩
      cases stages with
      | nil => cases hwords
      | cons s rest =>
        obtain ⟨hname, hnamed⟩ := named_cons.mp hnamed
        obtain ⟨hfirst, hrest⟩ := List.cons.inj hwords
        exact ⟨s, ⟨hfirst, hname⟩, rest, ⟨hrest, hnamed⟩, rfl⟩

/-- The pipeline on a line has the words of the segments for its stages. -/
theorem parse_eq_ok_iff {p : Pipeline} :
    parse line = .ok p ↔
      ∃ segments,
        scan line = .ok segments ∧ segments.map (·.words) = p.argvs ∧ Named p.stages := by
  obtain ⟨stages⟩ := p
  unfold parse
  rw [bind_eq_ok_iff]
  refine exists_congr fun segments => and_congr_right fun _ => ?_
  -- A segment that stands alone is looked at first, but a success is that of the general case.
  split
  · next hsegment =>
    simp only [bind_eq_ok_iff, stageOfWords_eq_ok_iff]
    constructor
    · rintro ⟨s, ⟨hwords, hname⟩, hstages⟩
      cases hstages
      exact ⟨congrArg (· :: []) hwords, named_cons.mpr ⟨hname, nofun⟩⟩
    · rintro ⟨hwords, hnamed⟩
      obtain ⟨s, rfl, hfirst⟩ := List.map_eq_singleton_iff.mp hwords.symm
      exact ⟨s, ⟨hfirst.symm, (named_cons.mp hnamed).1⟩, rfl⟩
  · rw [bind_eq_ok_iff]
    constructor
    · rintro ⟨found, hfound, hstages⟩
      cases hstages
      exact segmentStages_eq_ok_iff.mp hfound
    · intro h
      exact ⟨stages, segmentStages_eq_ok_iff.mpr h, rfl⟩

/-- A line holds one command if it has one segment. -/
theorem parseStage_eq_ok_iff {s : Stage} :
    parseStage line = .ok s ↔
      ∃ segment, scan line = .ok [segment] ∧ segment.words = s.argv ∧ s.program ≠ "" := by
  unfold parseStage
  rw [bind_eq_ok_iff]
  constructor
  · rintro ⟨segments, hscan, h⟩
    split at h
    · cases h
    · next segment => exact ⟨segment, hscan, stageOfWords_eq_ok_iff.mp h⟩
    · cases h
  · rintro ⟨segment, hscan, h⟩
    exact ⟨[segment], hscan, stageOfWords_eq_ok_iff.mpr h⟩

theorem tokenize_eq_ok_iff {words : List String} :
    tokenize line = .ok words ↔ ∃ s, parseStage line = .ok s ∧ s.argv = words := by
  unfold tokenize
  rw [bind_eq_ok_iff]
  exact exists_congr fun s => and_congr_right fun _ => ⟨Except.ok.inj, congrArg Except.ok⟩

theorem parseCommand_eq_ok_iff {c : Command} :
    parseCommand line = .ok c ↔ ∃ s, parseStage line = .ok s ∧ .ofStage s = c := by
  unfold parseCommand
  rw [bind_eq_ok_iff]
  exact exists_congr fun s => and_congr_right fun _ => ⟨Except.ok.inj, congrArg Except.ok⟩

/-- A line holds one command if and only if it holds a pipeline of one stage. -/
theorem parseStage_eq_ok_iff_parse {s : Stage} :
    parseStage line = .ok s ↔ parse line = .ok { stages := [s] } := by
  rw [parseStage_eq_ok_iff, parse_eq_ok_iff]
  constructor
  · rintro ⟨segment, hscan, hwords, hname⟩
    exact ⟨[segment], hscan, congrArg (· :: []) hwords, named_cons.mpr ⟨hname, nofun⟩⟩
  · rintro ⟨segments, hscan, hwords, hnamed⟩
    obtain ⟨segment, rfl, hfirst⟩ := List.map_eq_singleton_iff.mp hwords
    exact ⟨segment, hscan, hfirst, (named_cons.mp hnamed).1⟩

/-! ### Quotes that are left open

No function that parses finds an open quote by itself. -/

variable {mark : Char} {segment position : Nat}

theorem stageOfWords_ne_openQuote (words : List String) :
    stageOfWords index words ≠ .error (.openQuote mark segment position) := by
  unfold stageOfWords
  repeat' split
  all_goals exact nofun

theorem segmentStage_ne_openQuote (s : Segment) :
    segmentStage index s ≠ .error (.openQuote mark segment position) := by
  unfold segmentStage
  split
  · exact nofun
  · exact stageOfWords_ne_openQuote _

theorem segmentStages_ne_openQuote (segments : List Segment) :
    segmentStages index segments ≠ .error (.openQuote mark segment position) := by
  induction segments generalizing index with
  | nil => exact nofun
  | cons s segments ih =>
    simp only [segmentStages, ne_eq, bind_eq_error_iff, not_or, not_exists, not_and]
    exact ⟨segmentStage_ne_openQuote s, fun _ _ => ⟨ih, fun _ _ => nofun⟩⟩

theorem parse_eq_openQuote_iff :
    parse line = .error (.openQuote mark segment position) ↔
      scan line = .error (.openQuote mark segment position) := by
  unfold parse
  rw [bind_eq_error_iff]
  refine or_iff_left ?_
  rintro ⟨segments, -, h⟩
  split at h
  · rcases bind_eq_error_iff.mp h with h | ⟨_, _, h⟩
    · exact stageOfWords_ne_openQuote _ h
    · cases h
  · rcases bind_eq_error_iff.mp h with h | ⟨_, _, h⟩
    · exact segmentStages_ne_openQuote _ h
    · cases h

theorem parseStage_eq_openQuote_iff :
    parseStage line = .error (.openQuote mark segment position) ↔
      scan line = .error (.openQuote mark segment position) := by
  unfold parseStage
  rw [bind_eq_error_iff]
  refine or_iff_left ?_
  rintro ⟨segments, -, h⟩
  split at h
  · cases h
  · exact stageOfWords_ne_openQuote _ h
  · cases h

/-- Words are found if and only if a command is, and what is wrong with a line is the same. -/
theorem tokenize_eq_error_iff {f : Flaw} :
    tokenize line = .error f ↔ parseStage line = .error f := by
  unfold tokenize
  rw [bind_eq_error_iff]
  exact or_iff_left (fun ⟨_, _, h⟩ => nomatch h)

theorem segmentTexts_eq_error_iff {f : Flaw} :
    segmentTexts line = .error f ↔ scan line = .error f := by
  unfold segmentTexts
  rw [bind_eq_error_iff]
  exact or_iff_left (fun ⟨_, _, h⟩ => nomatch h)

theorem segmentTexts_eq_ok_iff {texts : List String} :
    segmentTexts line = .ok texts ↔
      ∃ segments, scan line = .ok segments ∧ segments.map (·.source) = texts := by
  unfold segmentTexts
  rw [bind_eq_ok_iff]
  exact exists_congr fun _ => and_congr_right fun _ => ⟨Except.ok.inj, congrArg Except.ok⟩

end Pipework.Line
