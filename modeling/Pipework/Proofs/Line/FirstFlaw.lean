import Pipework.Proofs.Line.Joining
import Pipework.Proofs.Line.OpenQuote

/-!
# The first flaw on a line

A line that leaves no quote open is a pipeline unless one of its segments has no words, or an empty
word for its program. The first such segment, from the left, is the one that is reported. If it has
no words, then the report points at a pipe that is one: the pipe before the segment, or the one
after it if the segment is the first. Only a line of nothing but blanks has no pipe to point at.

Nothing else can be wrong with a line. A pipeline is put together from commands, and a command
looks at the name of its program when it is made and once more when it is added; but whatever the
line lets pass has a name.

## Main definitions

* `Segment.Faulty` — a segment gives no stage
* `PipeBehind` — a pipe that is one stands behind some segments
* `assemble` — the pipeline on a line, made of commands that are added one by one

## Main results

* `Grammar.Words.eq_nil_iff` — a text has no words if it is blank
* `segmentStages_eq_error_iff`, `segmentStages_eq_error_of_first` — the first faulty segment is the
  one that is reported
* `exists_pipeBehind` — where the report about a segment without words points to
* `assemble_eq` — commands that are made from a line are not refused
* `first_flaw_reported` — what parsing a line comes to
-/

namespace Pipework.Line

open Grammar

/-! ### Segments without words -/

section Blank

variable {final : Bool} {text meaning : List Char} {words : List (List Char)}

theorem Grammar.Piece.exists_not_blank (h : Piece final text meaning) :
    ∃ c ∈ text, Text.isBlank c = false := by
  cases h with
  | plain hblank _ => exact ⟨_, List.mem_cons_self, hblank⟩
  | escaped c => exact ⟨'\\', List.mem_cons_self, rfl⟩
  | single _ => exact ⟨'\'', List.mem_cons_self, rfl⟩
  | double _ => exact ⟨'"', List.mem_cons_self, rfl⟩
  | backslash _ => exact ⟨'\\', List.mem_cons_self, rfl⟩

theorem Grammar.Word.exists_not_blank (h : Word final text meaning) :
    ∃ c ∈ text, Text.isBlank c = false := by
  cases h with
  | one hpiece => exact hpiece.exists_not_blank
  | more hpiece _ =>
    obtain ⟨c, hmem, hblank⟩ := hpiece.exists_not_blank
    exact ⟨c, List.mem_append_left _ hmem, hblank⟩

/-- A text has no words if and only if it is blank. -/
theorem Grammar.Words.eq_nil_iff (h : Words final text words) :
    words = [] ↔ ∀ c ∈ text, Text.isBlank c = true := by
  induction h with
  | nil => exact iff_of_true rfl nofun
  | blank hblank _ ih => rw [List.forall_mem_cons, and_iff_right hblank, ih]
  | last hword =>
    obtain ⟨c, hmem, hblank⟩ := hword.exists_not_blank
    exact iff_of_false (List.cons_ne_nil _ _) fun hall => by simp [hall c hmem] at hblank
  | more hword _ _ _ =>
    obtain ⟨c, hmem, hblank⟩ := hword.exists_not_blank
    refine iff_of_false (List.cons_ne_nil _ _) fun hall => ?_
    simp [hall c (List.mem_append_left _ hmem)] at hblank

/-- A blank line is one part without words. -/
theorem Grammar.Parts.eq_singleton_of_blank {parts : List (List Char × List (List Char))}
    (h : Parts text parts) (hall : ∀ c ∈ text, Text.isBlank c = true) : parts = [(text, [])] := by
  cases h with
  | last hwords => rw [hwords.eq_nil_iff.mpr hall]
  | more _ _ => exact absurd (hall '|' (by simp)) (by decide)

end Blank

theorem length_layout (start : Nat) (parts : List (List Char × List (List Char))) :
    (layout start parts).length = parts.length := by
  rw [← List.length_map (·.source), map_source_layout, List.length_map]

/-- A segment has no words if and only if its text is blank. -/
theorem words_eq_nil_iff_of_mem {line : String} {segments : List Segment}
    (hscan : scan line = .ok segments) {s : Segment} (hmem : s ∈ segments) :
    s.words = [] ↔ ∀ c ∈ s.source.toList, Text.isBlank c = true := by
  obtain ⟨parts, hparts, rfl⟩ := exists_parts_of_scan hscan
  obtain ⟨i, hi⟩ := List.mem_iff_getElem?.mp hmem
  have hsource := congrArg (·[i]?) (map_source_layout 0 parts)
  have hwords := congrArg (·[i]?) (map_words_layout 0 parts)
  simp only [List.getElem?_map, hi, Option.map_some] at hsource hwords
  -- The segment is a part of the line, cut out.
  cases hpart : parts[i]? with
  | none => simp [hpart] at hsource
  | some part =>
    simp only [hpart, Option.map_some, Option.some.injEq] at hsource hwords
    rw [hsource, hwords, String.toList_ofList, List.map_eq_nil_iff]
    exact (hparts.words_of_mem (List.mem_of_getElem? hpart)).eq_nil_iff

/-! ### The first segment that is faulty -/

/-- The segment gives no stage: it has no words, or its first word is empty. -/
def Segment.Faulty (s : Segment) : Prop := s.words = [] ∨ s.words.head? = some ""

/-- What is wrong with a segment among several. -/
theorem segmentStage_eq_error_iff {index : Nat} {s : Segment} {f : Flaw} :
    segmentStage index s = .error f ↔
      s.words = [] ∧ f = .emptySegment index (if index = 0 then s.stop else s.start - 1) ∨
      s.words.head? = some "" ∧ f = .emptyProgram index := by
  cases hwords : s.words with
  | nil =>
    have hstage : segmentStage index s =
        .error (.emptySegment index (if index = 0 then s.stop else s.start - 1)) := by
      simp [segmentStage, hwords]
    rw [hstage]
    constructor
    · intro h
      exact .inl ⟨rfl, (Except.error.inj h).symm⟩
    · rintro (⟨-, rfl⟩ | ⟨hfirst, -⟩)
      · rfl
      · cases hfirst
  | cons word words =>
    have hstage : segmentStage index s = stageOfWords index (word :: words) := by
      simp [segmentStage, hwords]
    rw [hstage, stageOfWords]
    constructor
    · intro h
      split at h
      · next hempty =>
        rw [String.isEmpty_iff.mp hempty]
        exact .inr ⟨rfl, (Except.error.inj h).symm⟩
      · cases h
    · rintro (⟨hnone, -⟩ | ⟨hfirst, rfl⟩)
      · cases hnone
      · rw [Option.some.inj hfirst]
        rfl

theorem exists_segmentStage_iff {index : Nat} {s : Segment} :
    (∃ stage, segmentStage index s = .ok stage) ↔ ¬ s.Faulty := by
  have hfaulty : s.Faulty ↔ ∃ f, segmentStage index s = .error f := by
    simp only [segmentStage_eq_error_iff, exists_or, exists_and_left, exists_eq, and_true]
    rfl
  rw [hfaulty]
  cases segmentStage index s with
  | ok stage => simp
  | error f => simp

/-- The first faulty segment is the one that is reported. -/
theorem segmentStages_eq_error_iff {index : Nat} {segments : List Segment} {f : Flaw} :
    segmentStages index segments = .error f ↔
      ∃ front s back, segments = front ++ s :: back ∧ (∀ t ∈ front, ¬ t.Faulty) ∧
        segmentStage (index + front.length) s = .error f := by
  induction segments generalizing index with
  | nil =>
    constructor
    · intro h
      cases h
    · rintro ⟨front, s, back, hsplit, -⟩
      cases front <;> cases hsplit
  | cons t rest ih =>
    simp only [segmentStages, bind_eq_error_iff, ih]
    -- Either this segment is the faulty one, or it joins those before the faulty one of the rest,
    -- where the indices start one further.
    constructor
    · rintro (hfirst | ⟨stage, hstage, ⟨front, s, back, rfl, hfine, hf⟩ | ⟨_, _, h⟩⟩)
      · exact ⟨[], t, rest, rfl, List.forall_mem_nil _, hfirst⟩
      · refine ⟨t :: front, s, back, rfl, ?_, ?_⟩
        · exact List.forall_mem_cons.mpr ⟨exists_segmentStage_iff.mp ⟨stage, hstage⟩, hfine⟩
        · rwa [List.length_cons, Nat.add_comm _ 1, ← Nat.add_assoc]
      · cases h
    · rintro ⟨front, s, back, hsplit, hfine, hf⟩
      cases front with
      | nil =>
        obtain ⟨rfl, rfl⟩ := List.cons.inj hsplit
        exact .inl hf
      | cons t' front =>
        obtain ⟨rfl, rfl⟩ := List.cons.inj hsplit
        obtain ⟨hfirst, hfine⟩ := List.forall_mem_cons.mp hfine
        obtain ⟨stage, hstage⟩ := exists_segmentStage_iff.mpr hfirst
        rw [List.length_cons, Nat.add_comm _ 1, ← Nat.add_assoc] at hf
        exact .inr ⟨stage, hstage, .inl ⟨front, s, back, rfl, hfine, hf⟩⟩

/-- The first faulty segment, told by its place among the segments. -/
theorem segmentStages_eq_error_of_first {segments : List Segment} {i : Nat} {s : Segment}
    (hi : segments[i]? = some s) (hfirst : ∀ j < i, ∀ t, segments[j]? = some t → ¬ t.Faulty)
    {f : Flaw} (hf : segmentStage i s = .error f) : segmentStages 0 segments = .error f := by
  obtain ⟨hlt, hget⟩ := List.getElem?_eq_some_iff.mp hi
  refine segmentStages_eq_error_iff.mpr ⟨segments.take i, s, segments.drop (i + 1), ?_, ?_, ?_⟩
  · rw [← hget, List.getElem_cons_drop, List.take_append_drop]
  · intro t hmem
    obtain ⟨j, hj, ht⟩ := List.mem_take_iff_getElem.mp hmem
    apply hfirst j (by omega) t
    rw [← ht, List.getElem?_eq_getElem]
  · rwa [List.length_take_of_le (Nat.le_of_lt hlt), Nat.zero_add]

/-- If no segment is faulty, each of them gives a stage. -/
theorem exists_segmentStages {segments : List Segment} (hfine : ∀ s ∈ segments, ¬ s.Faulty) :
    ∃ stages, segmentStages 0 segments = .ok stages := by
  cases hstages : segmentStages 0 segments with
  | ok stages => exact ⟨stages, rfl⟩
  | error f =>
    obtain ⟨front, s, back, rfl, -, hs⟩ := segmentStages_eq_error_iff.mp hstages
    obtain ⟨stage, hstage⟩ := exists_segmentStage_iff.mpr (hfine s (by simp))
    rw [hstage] at hs
    cases hs

/-- A line without words and without a pipe has no command. -/
theorem parse_eq_noCommand {line : String} {s : Segment} (hscan : scan line = .ok [s])
    (hnone : s.words = []) : parse line = .error (.noCommand 0) := by
  have hstage : stageOfWords 0 s.words = .error (.noCommand 0) := by
    rw [hnone]
    rfl
  rw [parse, hscan]
  change (stageOfWords 0 s.words >>= fun stage => Except.ok (Pipeline.mk [stage])) = _
  rw [hstage]
  rfl

/-- A line that is not blank is parsed segment by segment, also if it has only one. -/
theorem parse_eq_of_scan {line : String} {segments : List Segment}
    (hscan : scan line = .ok segments) (hlone : ∀ s, segments = [s] → s.words ≠ []) :
    parse line = (segmentStages 0 segments).map Pipeline.mk := by
  rw [parse, hscan]
  rcases segments with _ | ⟨s, _ | ⟨t, rest⟩⟩
  · rfl
  · -- A lone segment goes another way, to the same stage.
    have hwords : s.words.isEmpty = false := by simpa using hlone s rfl
    have hstage : segmentStage 0 s = stageOfWords 0 s.words := by
      rw [segmentStage, hwords, if_neg Bool.false_ne_true]
    rw [segmentStages, hstage]
    change (stageOfWords 0 s.words >>= fun stage => Except.ok (Pipeline.mk [stage])) = _
    cases stageOfWords 0 s.words <;> rfl
  · change (segmentStages 0 (s :: t :: rest) >>= fun stages => Except.ok (Pipeline.mk stages)) = _
    cases segmentStages 0 (s :: t :: rest) <;> rfl

/-! ### Where a report points to -/

/-- A pipe that is neither quoted nor escaped stands at the position, and these are the segments
before it. -/
structure PipeBehind (line : String) (position : Nat) (segments : List Segment) : Prop where
  pipe_at : line.toList[position]? = some '|'
  scanned : scan (.ofList (line.toList.take position)) = .ok segments
  notEscaping : ¬ EndsEscaping (.ofList (line.toList.take position))

/-- Behind each segment but the last stands a pipe, and behind the pipe stands the next segment. -/
theorem exists_pipeBehind {line : String} {segments : List Segment}
    (hscan : scan line = .ok segments) {k : Nat} (hpos : 0 < k) {next : Segment}
    (hnext : segments[k]? = some next) :
    ∃ position, PipeBehind line position (segments.take k) ∧ next.start = position + 1 ∧
      ∀ s, k = 1 → segments[0]? = some s → s.stop = position := by
  obtain ⟨parts, hparts, rfl⟩ := exists_parts_of_scan hscan
  have hlt : k < parts.length := by
    rw [← length_layout 0 parts]
    exact (List.getElem?_eq_some_iff.mp hnext).1
  have hsplit : parts = parts.take k ++ parts.drop k := (List.take_append_drop k parts).symm
  have htake : (parts.take k).length = k := List.length_take_of_le (Nat.le_of_lt hlt)
  -- Both halves have parts, since `k` is positive and a segment follows.
  obtain ⟨before, rest, ls, hline, hfront, hback, hreads⟩ := Parts.split (hsplit ▸ hparts)
    (List.ne_nil_of_length_pos (by rwa [htake]))
    (List.ne_nil_of_length_pos (by rw [List.length_drop]; omega))
  have hlayout := hfront.layout_append 0 (parts.drop k)
  rw [← hsplit, Nat.zero_add] at hlayout
  have hlength : (layout 0 (parts.take k)).length = k := (length_layout _ _).trans htake
  have hbefore : line.toList.take before.length = before := by rw [hline, List.take_left]
  refine ⟨before.length, ⟨?_, ?_, ?_⟩, ?_, ?_⟩
  · rw [hline, List.getElem?_append_right (Nat.le_refl _), Nat.sub_self, List.getElem?_cons_zero]
  · rw [hbefore, hlayout, List.take_left' hlength]
    exact scan_of_parts (by rwa [String.toList_ofList])
  · rw [hbefore]
    refine (settled_iff.mp ?_).2
    rw [String.toList_ofList]
    exact hreads.settled rfl
  · -- The next segment is the first one behind the pipe.
    rw [hlayout, List.getElem?_append_right (Nat.le_of_eq hlength), hlength, Nat.sub_self] at hnext
    cases hdrop : parts.drop k with
    | nil => rw [hdrop] at hnext; cases hnext
    | cons part _ =>
      rw [hdrop] at hnext
      obtain rfl := Option.some.inj hnext
      rfl
  · rintro s rfl hs
    -- The text before the pipe is that of the first segment alone.
    obtain ⟨part, hpart⟩ := List.length_eq_one_iff.mp htake
    rw [hpart] at hfront hlayout
    have htext := hfront.intercalate_texts
    rw [List.map_singleton, List.intercalate_singleton] at htext
    rw [hlayout] at hs
    obtain rfl := Option.some.inj hs
    rw [← htext]
    simp [Segment.stop]

/-- A line that is not blank has words or a pipe. -/
theorem words_ne_nil_of_lone {line : String} {segments : List Segment}
    (hscan : scan line = .ok segments) (hline : ¬ ∀ c ∈ line.toList, Text.isBlank c = true)
    (s : Segment) (hs : segments = [s]) : s.words ≠ [] := by
  subst hs
  have htext := intercalate_segmentTexts (segmentTexts_eq_ok_iff.mpr ⟨_, hscan, rfl⟩)
  rw [List.map_singleton, String.intercalate_singleton] at htext
  rw [Ne, words_eq_nil_iff_of_mem hscan List.mem_cons_self, htext]
  exact hline

/-- The report about a segment without words points at the pipe before it, or at the one after it
if it is the first. -/
theorem exists_pipeBehind_of_wordless {line : String} {segments : List Segment}
    (hscan : scan line = .ok segments) (hline : ¬ ∀ c ∈ line.toList, Text.isBlank c = true)
    {i : Nat} {s : Segment} (hi : segments[i]? = some s) (hnone : s.words = []) :
    PipeBehind line (if i = 0 then s.stop else s.start - 1) (segments.take (max i 1)) ∧
      (0 < i → s.start = s.start - 1 + 1) := by
  cases i with
  | zero =>
    cases hnext : segments[1]? with
    | none =>
      -- The segment would be the only one.
      cases segments with
      | nil => cases hi
      | cons first rest =>
        obtain rfl := Option.some.inj hi
        cases rest with
        | nil => exact absurd hnone (words_ne_nil_of_lone hscan hline _ rfl)
        | cons _ _ => cases hnext
    | some next =>
      obtain ⟨position, hpipe, -, hstop⟩ := exists_pipeBehind hscan Nat.one_pos hnext
      rw [if_pos rfl, hstop s rfl hi]
      exact ⟨hpipe, fun h => absurd h (Nat.lt_irrefl 0)⟩
  | succ i =>
    obtain ⟨position, hpipe, hstart, -⟩ := exists_pipeBehind hscan (Nat.succ_pos i) hi
    rw [if_neg (Nat.succ_ne_zero i), hstart, Nat.add_sub_cancel, Nat.max_eq_left (by omega)]
    exact ⟨hpipe, fun _ => rfl⟩

/-! ### Pipelines that are made of commands -/

/-- The pipeline continued with the stages of segments. Each stage is a command that is made, and
then it is added. -/
def addSegments (index : Nat) (p : Pipeline) : List Segment → Except Failure Pipeline
  | [] => .ok p
  | s :: rest => do
    let stage ← orFlaw (segmentStage index s)
    let c ← orMisuse (Command.ofValues (.text stage.program) (stage.args.map .text))
    let p ← orMisuse (p.add (.command c))
    addSegments (index + 1) p rest

/-- The pipeline that a line holds, made of commands that are added one by one. -/
def assemble (line : String) : Except Failure Pipeline := do
  match ← orFlaw (scan line) with
  | [segment] =>
    if segment.words.isEmpty then orFlaw (.error (.noCommand 0)) else addSegments 0 {} [segment]
  | segments => addSegments 0 {} segments

/-- A command with a name for its program is made and added. -/
theorem add_ofValues {s : Stage} (hname : s.program ≠ "") (p : Pipeline) :
    (do
      let c ← orMisuse (Command.ofValues (.text s.program) (s.args.map .text))
      orMisuse (p.add (.command c))) = .ok (p.push s) := by
  have hempty : s.program.isEmpty = false := by simpa using hname
  have hargs : (s.args.map Value.text).map (·.display) = s.args := by
    rw [List.map_map]
    exact List.map_id _
  have hmade : Command.ofValues (.text s.program) (s.args.map .text) = .ok (.ofStage s) := by
    simp [Command.ofValues, Command.isNamed, hempty, hargs, Command.ofStage]
  have hadded : p.add (.command (.ofStage s)) = .ok (p.push s) := by
    simp [Pipeline.add, Pipeline.addCommand, Command.stage, Command.ofStage, hempty, Except.map]
  rw [hmade]
  exact congrArg orMisuse hadded

theorem addSegments_eq (index : Nat) (p : Pipeline) (segments : List Segment) :
    addSegments index p segments =
      orFlaw ((segmentStages index segments).map fun stages =>
        { stages := p.stages ++ stages }) := by
  induction segments generalizing index p with
  | nil => simp [addSegments, segmentStages, orFlaw, Except.map, Except.mapError]
  | cons s rest ih =>
    rw [addSegments, segmentStages]
    cases hstage : segmentStage index s with
    | error f => rfl
    | ok stage =>
      -- The stage has a name, for otherwise the segment would have been a flaw.
      have hadd := add_ofValues (segmentStage_eq_ok_iff.mp hstage).2 p
      change (do
        let c ← orMisuse (Command.ofValues (.text stage.program) (stage.args.map .text))
        let p ← orMisuse (p.add (.command c))
        addSegments (index + 1) p rest) = _
      rw [← bind_assoc, hadd]
      change addSegments (index + 1) (p.push stage) rest = _
      rw [ih, Pipeline.push]
      cases segmentStages (index + 1) rest with
      | error f => rfl
      | ok stages =>
        exact congrArg (fun stages => Except.ok (Pipeline.mk stages))
          (List.append_assoc p.stages [stage] stages)

/-- What a line lets pass is not refused by the commands that are made from it. -/
theorem assemble_eq (line : String) : assemble line = orFlaw (parse line) := by
  unfold assemble
  cases hscan : scan line with
  | error f =>
    rw [parse, hscan]
    rfl
  | ok segments =>
    have hsegments := addSegments_eq 0 {} segments
    change (match segments with
      | [segment] => _
      | segments => _) = _
    split
    · next segment =>
      by_cases hempty : segment.words = []
      · rw [parse_eq_noCommand hscan hempty, hempty]
        rfl
      · rw [parse_eq_of_scan hscan (by rintro _ ⟨⟩; exact hempty), hsegments,
          if_neg (by simpa using hempty)]
        rfl
    · next hmany =>
      rw [parse_eq_of_scan hscan fun s hs => absurd hs (hmany s), hsegments]
      rfl

/-! ### What parsing comes to -/

/-- A blank line has no command. -/
theorem parse_of_blank {line : String} (hline : ∀ c ∈ line.toList, Text.isBlank c = true) :
    parse line = .error (.noCommand 0) := by
  rcases exists_parts_or_unfinished line.toList with ⟨parts, hparts⟩ | ⟨_, _, _, hopen⟩
  · have hscan := scan_of_parts hparts
    rw [hparts.eq_singleton_of_blank hline] at hscan
    exact parse_eq_noCommand hscan rfl
  · -- A quote is no blank.
    obtain ⟨_, hmark, -⟩ := scan_eq_openQuote_iff.mp (scan_of_unfinished hopen)
    rw [isMark, Bool.or_eq_true, beq_iff_eq, beq_iff_eq] at hmark
    have hblank := hline _ (List.mem_of_getElem? ‹_›)
    rcases hmark with rfl | rfl <;> cases hblank

/-- A flaw that has a position points at a character of the line. -/
theorem position_lt_of_parse {line : String} {f : Flaw} {position : Nat}
    (h : parse line = .error f) (hf : f.position? = some position) : position < line.length := by
  rw [← String.length_toList]
  cases hscan : scan line with
  | error g =>
    obtain ⟨mark, segment, place, -, rfl⟩ := exists_unfinished_of_scan hscan
    obtain rfl := Except.error.inj (h.symm.trans (parse_eq_openQuote_iff.mpr hscan))
    obtain rfl := Option.some.inj hf
    exact (List.getElem?_eq_some_iff.mp (scan_eq_openQuote_iff.mp hscan).mark_at).1
  | ok segments =>
    by_cases hline : ∀ c ∈ line.toList, Text.isBlank c = true
    · rw [parse_of_blank hline] at h
      obtain rfl := Except.error.inj h
      cases hf
    · rw [parse_eq_of_scan hscan (words_ne_nil_of_lone hscan hline)] at h
      obtain ⟨_, hstages, rfl⟩ : ∃ g, segmentStages 0 segments = .error g ∧ g = f := by
        cases hstages : segmentStages 0 segments with
        | ok stages => rw [hstages] at h; cases h
        | error g => rw [hstages] at h; exact ⟨g, rfl, Except.error.inj h⟩
      obtain ⟨front, s, back, rfl, -, hs⟩ := segmentStages_eq_error_iff.mp hstages
      rcases segmentStage_eq_error_iff.mp hs with ⟨hnone, rfl⟩ | ⟨-, rfl⟩
      · obtain rfl := Option.some.inj hf
        have hi : (front ++ s :: back)[0 + front.length]? = some s := by simp
        exact (List.getElem?_eq_some_iff.mp
          (exists_pipeBehind_of_wordless hscan hline hi hnone).1.pipe_at).1
      · cases hf

/-- What parsing comes to on a line that leaves no quote open. A blank line has no command. Any
other line is a pipeline of the words of its segments, or its first faulty segment is reported: one
without words, which is one with a blank text, with the position of the pipe before it, or of the
pipe after it if it is the first; and one with an empty first word without a position. On all
lines, the commands that are made of the words are not refused, and what is wrong is a flaw of the
line, which points at a character of it if it has a position. -/
theorem first_flaw_reported (line : String) :
    (∀ segments, scan line = .ok segments →
      ((∀ c ∈ line.toList, Text.isBlank c = true) → orFlaw (parse line) =
        .error (.error (.parse .emptyCommand "Missing command" (some 0) none))) ∧
      (∀ s ∈ segments, s.words = [] ↔ ∀ c ∈ s.source.toList, Text.isBlank c = true) ∧
      ((¬ ∀ c ∈ line.toList, Text.isBlank c = true) →
        ((∀ s ∈ segments, ¬ s.Faulty) →
          ∃ p, orFlaw (parse line) = .ok p ∧ p.argvs = segments.map (·.words)) ∧
        ∀ (i : Nat) (s : Segment), segments[i]? = some s → s.Faulty →
          (∀ j < i, ∀ t, segments[j]? = some t → ¬ t.Faulty) →
          (s.words = [] → ∃ position : Nat,
            orFlaw (parse line) = .error (.error (.parse .emptySegment
              "Missing command before pipe or end of line" (some i) (some position))) ∧
            PipeBehind line position (segments.take (max i 1)) ∧
            (0 < i → s.start = position + 1) ∧ (i = 0 → s.stop = position)) ∧
          (s.words.head? = some "" → orFlaw (parse line) =
            .error (.error (.parse .emptyCommand "Empty program name" (some i) none))))) ∧
    assemble line = orFlaw (parse line) ∧
    ∀ e, assemble line = .error e → ∃ (kind : ParseErrorKind) (summary : String) (segment : Nat)
      (position : Option Nat), e =
        .error (.parse kind summary (some segment) (position.map Int.ofNat)) ∧
        ∀ n, position = some n → n < line.length := by
  refine ⟨fun segments hscan => ⟨fun hline => ?_, fun s => words_eq_nil_iff_of_mem hscan,
    fun hline => ?_⟩, assemble_eq line, fun e he => ?_⟩
  · rw [parse_of_blank hline]
    rfl
  · have hparse := parse_eq_of_scan hscan (words_ne_nil_of_lone hscan hline)
    refine ⟨fun hfine => ?_, fun i s hi hfaulty hfirst => ?_⟩
    · obtain ⟨stages, hstages⟩ := exists_segmentStages hfine
      rw [hparse, hstages]
      exact ⟨_, rfl, (segmentStages_eq_ok_iff.mp hstages).1.symm⟩
    · have hreport {f : Flaw} (hf : segmentStage i s = .error f) :
          orFlaw (parse line) = .error (.error f.error) := by
        rw [hparse, segmentStages_eq_error_of_first hi hfirst hf]
        rfl
      constructor
      · intro hnone
        obtain ⟨hpipe, hstart⟩ := exists_pipeBehind_of_wordless hscan hline hi hnone
        refine ⟨_, hreport (segmentStage_eq_error_iff.mpr (.inl ⟨hnone, rfl⟩)), hpipe, ?_, ?_⟩
        · intro hpos
          rw [if_neg (Nat.ne_of_gt hpos)]
          exact hstart hpos
        · intro hzero
          rw [if_pos hzero]
      · exact fun hempty => hreport (segmentStage_eq_error_iff.mpr (.inr ⟨hempty, rfl⟩))
  · rw [assemble_eq] at he
    cases hparse : parse line with
    | ok p => rw [hparse] at he; cases he
    | error f =>
      rw [hparse] at he
      obtain rfl := Except.error.inj he
      exact ⟨f.kind, f.summary, f.segment, f.position?, rfl,
        fun n hn => position_lt_of_parse hparse hn⟩

/-- Two segments are faulty, and the first of them is reported, with the pipe before it. -/
theorem first_flaw_reported_two_flaws :
    let line := "a 'x|' |\t| '' b"
    let segments : List Segment :=
      [⟨0, "a 'x|' ", ["a", "x|"]⟩, ⟨8, "\t", []⟩, ⟨10, " '' b", ["", "b"]⟩]
    scan line = .ok segments ∧ (¬ ∀ c ∈ line.toList, Text.isBlank c = true) ∧
      ∃ position : Nat, orFlaw (parse line) = .error (.error (.parse .emptySegment
        "Missing command before pipe or end of line" (some 1) (some position))) ∧
        PipeBehind line position (segments.take 1) ∧ 8 = position + 1 := by
  intro line segments
  have hscan : scan line = .ok segments := by decide +kernel
  have hline : ¬ ∀ c ∈ line.toList, Text.isBlank c = true := by
    intro hblank
    exact absurd (hblank 'a' (by decide +kernel)) (by decide)
  refine ⟨hscan, hline, ?_⟩
  have hreport := (((first_flaw_reported line).1 segments hscan).2.2 hline).2 1 ⟨8, "\t", []⟩ rfl
    (.inl rfl) (fun j hj t ht => ?_)
  · obtain ⟨position, hparse, hpipe, hstart, -⟩ := hreport.1 rfl
    exact ⟨position, hparse, hpipe, hstart Nat.one_pos⟩
  · obtain rfl : j = 0 := by omega
    obtain rfl := Option.some.inj ht
    rintro (h | h) <;> simp at h

end Pipework.Line
