import Pipework.Proofs.Line.Parsing

/-!
# What is written on a line is read back

A text is quoted so that it is one word of a line, whatever its characters are: safe characters
are pieces that mean themselves, and all others stand between single quotes, which are closed and
opened again around each single quote. Words are written with a space between two, and stages with
a pipe between two spaces. So the line of a pipeline has a derivation with the words of its stages,
and parsing finds them.

## Main results

* `word_quoteChars` — a quoted text is one word that means the text
* `words_joinWords` — words written on a line are the words of that line
* `parse_line` — the line of a pipeline with named programs holds that pipeline
* `rendered_parses_back` — pipelines and commands are read back from their lines
-/

namespace Pipework.Line

open Grammar

variable {final : Bool}

/-! ### Quoted texts -/

/-- Safe characters are visible ASCII characters. -/
theorem toNat_of_isSafe {c : Char} (h : isSafe c = true) : 0x21 ≤ c.toNat ∧ c.toNat ≤ 0x7E := by
  rw [isSafe, Bool.or_eq_true] at h
  rcases h with halnum | hmark
  · delta Char.isAlphanum Char.isAlpha Char.isUpper Char.isLower Char.isDigit at halnum
    simp only [Bool.or_eq_true, Bool.and_eq_true, decide_eq_true_eq, UInt32.le_iff_toNat_le,
      ge_iff_le] at halnum
    rcases halnum with (⟨hlow, hhigh⟩ | ⟨hlow, hhigh⟩) | ⟨hlow, hhigh⟩
    all_goals exact ⟨Nat.le_trans (by decide) hlow, Nat.le_trans hhigh (by decide)⟩
  · have hmem : c ∈ ['_', '@', '%', '+', '=', ':', ',', '-', '.', '/'] :=
      List.contains_iff_mem.mp hmark
    simp only [List.mem_cons, List.not_mem_nil, or_false] at hmem
    rcases hmem with rfl | rfl | rfl | rfl | rfl | rfl | rfl | rfl | rfl | rfl <;> decide

theorem piece_of_isSafe {c : Char} (h : isSafe c = true) : Piece final [c] [c] := by
  refine .plain ?_ ?_
  · have hrange := toNat_of_isSafe h
    simp only [Text.isBlank, Bool.or_eq_false_iff, Bool.and_eq_false_iff, decide_eq_false_iff_not,
      beq_eq_false_iff_ne]
    omega
  · intro hspecial
    simp only [List.mem_cons, List.not_mem_nil, or_false] at hspecial
    rcases hspecial with rfl | rfl | rfl | rfl <;> exact absurd h (by decide)

theorem word_of_safe {cs : List Char} (hne : cs ≠ []) (h : ∀ c ∈ cs, isSafe c = true) :
    Word final cs cs := by
  induction cs with
  | nil => exact absurd rfl hne
  | cons c cs ih =>
    obtain ⟨hc, hrest⟩ := List.forall_mem_cons.mp h
    cases cs with
    | nil => exact .one (piece_of_isSafe hc)
    | cons d cs => exact .more (piece_of_isSafe hc) (ih (List.cons_ne_nil d cs) hrest)

/-- A text between single quotes, closed and opened again around each single quote, is one word.
The characters since the last opening are kept in `front`. -/
theorem word_quoteBody (front cs : List Char) (hfront : '\'' ∉ front) :
    Word final ('\'' :: front ++ quoteBody cs ++ ['\'']) (front ++ cs) := by
  induction cs generalizing front with
  | nil =>
    rw [quoteBody_nil, List.append_nil, List.append_nil]
    exact .one (.single hfront)
  | cons c cs ih =>
    by_cases hc : c = '\''
    · -- Three pieces touch here: what was quoted so far, the single quote in double quotes, and
      -- the rest, which begins with a new opening.
      subst hc
      have hquote : Piece false ('"' :: ['\''] ++ ['"']) ['\''] :=
        .double (.plain (by decide) (by decide) .nil)
      have hword : Word final _ (front ++ (['\''] ++ ([] ++ cs))) :=
        .more (.single hfront) (.more hquote (ih [] List.not_mem_nil))
      have hbody : quoteBody ('\'' :: cs) = "'\"'\"'".toList ++ quoteBody cs := rfl
      rw [hbody]
      simpa using hword
    · have hbody : quoteBody (c :: cs) = [c] ++ quoteBody cs := by simp [quoteBody, hc]
      have hword := ih (front ++ [c]) (by simp [hfront, Ne.symm hc])
      rw [hbody]
      simpa using hword

/-- A quoted text is one word that means the text. -/
theorem word_quoteChars (cs : List Char) : Word final (quoteChars cs) cs := by
  unfold quoteChars
  split
  · next hempty =>
    obtain rfl := List.isEmpty_iff.mp hempty
    exact .one (.single List.not_mem_nil)
  · next hempty =>
    split
    · next hsafe =>
      have hne : cs ≠ [] := fun hnil => hempty (List.isEmpty_iff.mpr hnil)
      exact word_of_safe hne (List.all_eq_true.mp hsafe)
    · exact word_quoteBody [] cs List.not_mem_nil

/-! ### Words and stages on a line -/

theorem toList_quote (s : String) : (quote s).toList = quoteChars s.toList := by
  rw [quote, String.toList_ofList]

theorem toList_joinWords_cons_cons (w w' : String) (ws : List String) :
    (joinWords (w :: w' :: ws)).toList =
      quoteChars w.toList ++ ' ' :: (joinWords (w' :: ws)).toList := by
  rw [joinWords, List.map_cons, List.map_cons, String.intercalate_cons_cons,
    String.toList_append, String.toList_append, toList_quote, List.append_assoc]
  rfl

/-- Words written on a line are the words of that line. -/
theorem words_joinWords (ws : List String) :
    Words final (joinWords ws).toList (ws.map String.toList) := by
  induction ws with
  | nil => exact .nil
  | cons w ws ih =>
    cases ws with
    | nil =>
      rw [joinWords, List.map_singleton, String.intercalate_singleton, toList_quote]
      exact .last (word_quoteChars w.toList)
    | cons w' ws =>
      rw [toList_joinWords_cons_cons]
      exact .more (word_quoteChars w.toList) rfl ih

/-- Stages written on a line are the parts of that line. -/
theorem exists_parts_of_stages {stages : List Stage} (hne : stages ≠ []) :
    ∃ parts, Parts (" | ".intercalate (stages.map Stage.line)).toList parts ∧
      parts.map (·.2) = stages.map fun s => s.argv.map String.toList := by
  induction stages with
  | nil => exact absurd rfl hne
  | cons s stages ih =>
    cases stages with
    | nil =>
      refine ⟨_, .last ?_, rfl⟩
      exact words_joinWords s.argv
    | cons t stages =>
      obtain ⟨parts, hparts, hwords⟩ := ih (List.cons_ne_nil t stages)
      -- One of the two spaces around the pipe ends this part, and the other begins the next.
      obtain ⟨parts', hparts', hwords'⟩ := hparts.prepend_blank (c := ' ') rfl
      have hfirst : Words false (s.line.toList ++ [' ']) (s.argv.map String.toList) :=
        (words_joinWords s.argv).append_blank rfl
      have hline : (" | ".intercalate ((s :: t :: stages).map Stage.line)).toList =
          (s.line.toList ++ [' ']) ++
            '|' :: ' ' :: (" | ".intercalate ((t :: stages).map Stage.line)).toList := by
        rw [List.map_cons, List.map_cons, String.intercalate_cons_cons, String.toList_append,
          String.toList_append, List.append_assoc, List.append_assoc]
        rfl
      rw [hline]
      refine ⟨_, .more hfirst hparts', ?_⟩
      exact congrArg (s.argv.map String.toList :: ·) (hwords'.trans hwords)

/-! ### Reading back -/

/-- The line of a pipeline with named programs holds that pipeline. -/
theorem parse_line {p : Pipeline} (hne : p.stages ≠ []) (hnamed : Named p.stages) :
    parse p.line = .ok p := by
  obtain ⟨parts, hparts, hwords⟩ := exists_parts_of_stages hne
  refine parse_eq_ok_iff.mpr ⟨_, scan_of_parts hparts, ?_, hnamed⟩
  have hback : parts.map (fun part => part.2.map String.ofList) =
      (parts.map (·.2)).map (List.map String.ofList) := by
    rw [List.map_map]
    rfl
  rw [map_words_layout, hback, hwords, Pipeline.argvs, List.map_map]
  refine List.map_congr_left fun s _ => ?_
  simp

/-- A pipeline that was found on a line can be written down again. -/
theorem stages_ne_nil_of_parse {line : String} {p : Pipeline} (h : parse line = .ok p) :
    p.stages ≠ [] := by
  obtain ⟨segments, hscan, hwords, -⟩ := parse_eq_ok_iff.mp h
  obtain ⟨parts, hparts, rfl⟩ := exists_parts_of_scan hscan
  rintro hnil
  rw [map_words_layout, Pipeline.argvs, hnil] at hwords
  exact hparts.ne_nil (List.map_eq_nil_iff.mp hwords)

/-- The line of a stage holds a command that runs it. -/
theorem parseStage_line {s : Stage} (hname : s.program ≠ "") : parseStage s.line = .ok s := by
  rw [parseStage_eq_ok_iff_parse]
  have hline : s.line = ({ stages := [s] } : Pipeline).line := by
    rw [Pipeline.line, List.map_singleton, String.intercalate_singleton]
  rw [hline]
  exact parse_line (List.cons_ne_nil s []) (named_cons.mpr ⟨hname, nofun⟩)

theorem mapM_quote_text (ws : List String) :
    (ws.map Value.text).mapM Value.quote = .ok (ws.map quote) := by
  induction ws with
  | nil => rfl
  | cons w ws ih =>
    rw [List.map_cons, List.mapM_cons, ih]
    rfl

/-- The line of a command that runs a stage is the line of the stage. -/
theorem line_ofStage (s : Stage) : (Command.ofStage s).line = .ok s.line := by
  have hargv : (Command.ofStage s).argv = s.argv.map Value.text := rfl
  have hquoted : (Command.ofStage s).argv.mapM (·.quote) = .ok (s.argv.map quote) := by
    rw [hargv, mapM_quote_text]
  rw [Command.line, hquoted]
  rfl

/-- A command with a name for its program runs a stage. -/
theorem exists_ofStage_eq {c : Command} (h : c.isNamed = true) :
    ∃ s : Stage, s.program ≠ "" ∧ Command.ofStage s = c := by
  obtain ⟨s, hname, rfl⟩ := Command.isNamed_iff.mp h
  exact ⟨s, hname, rfl⟩

/-- Pipelines and commands are read back from their lines: every pipeline that has stages and
names for all programs, every command that has a name for its program, and so every pipeline
that was found on a line. -/
theorem rendered_parses_back :
    (∀ p : Pipeline, p.stages ≠ [] → (∀ s ∈ p.stages, s.program ≠ "") → parse p.line = .ok p) ∧
    (∀ c : Command, c.isNamed = true → ∃ text, c.line = .ok text ∧ parseCommand text = .ok c) ∧
    ∀ line p, parse line = .ok p → parse p.line = .ok p := by
  refine ⟨fun p hne hnamed => parse_line hne hnamed, fun c hc => ?_, fun line p hparse => ?_⟩
  · obtain ⟨s, hname, rfl⟩ := exists_ofStage_eq hc
    exact ⟨s.line, line_ofStage s, parseCommand_eq_ok_iff.mpr ⟨s, parseStage_line hname, rfl⟩⟩
  · obtain ⟨_, _, _, hnamed⟩ := parse_eq_ok_iff.mp hparse
    exact parse_line (stages_ne_nil_of_parse hparse) hnamed

theorem rendered_parses_back_hostile_words :
    let p : Pipeline := ⟨[⟨"a b", ["", "it's", "x|y", "back\\slash"]⟩, ⟨"'", ["\n"]⟩]⟩
    let c : Command := ⟨.text "\"", ["|", "\\"]⟩
    parse p.line = .ok p ∧ (∃ text, c.line = .ok text ∧ parseCommand text = .ok c) ∧
      (parse "a\\ b | c" = .ok ⟨[⟨"a b", []⟩, ⟨"c", []⟩]⟩ ∧
        parse (⟨[⟨"a b", []⟩, ⟨"c", []⟩]⟩ : Pipeline).line = .ok ⟨[⟨"a b", []⟩, ⟨"c", []⟩]⟩) :=
  ⟨rendered_parses_back.1 _ (by simp) (by simp), rendered_parses_back.2.1 _ rfl,
    rfl, rendered_parses_back.2.2 "a\\ b | c" _ rfl⟩

end Pipework.Line
