import Pipework.Proofs.Line.RoundTrip

/-!
# Words in rows

Words can be written in rows, with a line break after each row. A word may itself hold line breaks,
but there they stand in quotes. So the rows are found again: they are what the line breaks outside
quotes end, and each has its own words. To a reader that takes a line break for a blank like any
other, the text has the words of all rows, one row after the other.

## Main definitions

* `joinRows` — words written in rows
* `rows` — the words of the rows of a text

## Main results

* `Spells.blank_notMem` — a word has no blank among its lexemes
* `rows_joinRows`, `joinRows_injective` — what is written in rows is found again
* `words_joinRows` — the words of all rows are the words of the text
* `tokenize_joinRows` — stages written in rows are one command, with the words of all of them
-/

namespace Pipework.Line

open Grammar

variable {final : Bool}

/-- A line break outside quotes. -/
def lineBreak : Lexeme := ⟨.blank, ['\n']⟩

/-- Words written in rows, with a line break after each of them. -/
def joinRows (wss : List (List String)) : String :=
  .join (wss.map fun ws => joinWords ws ++ "\n")

/-- The words that the lexemes of a row make. -/
def rowWords (row : List Lexeme) : List String := (wordsOf (row.map (·.atom))).map .ofList

/-- The words of the rows of a text. What comes after the last line break is no row. -/
def rows (text : String) : Except Flaw (List (List String)) :=
  return ((← lexemes text.toList).splitOn lineBreak).dropLast.map rowWords

/-! ### Words without blanks -/

namespace Phrase

/-- Atoms in front of words do not make them disappear. -/
theorem words_foldr_ne_nil (atoms : List Atom) {p : Phrase} (h : p.words ≠ []) :
    (atoms.foldr before p).words ≠ [] := by
  induction atoms with
  | nil => exact h
  | cons a atoms ih =>
    rw [List.foldr_cons]
    cases a <;> simp_all [before, words]

/-- A blank in front of words completes one of them, and then it stays complete. -/
theorem complete_foldr_ne_nil {atoms : List Atom} (hmem : .blank ∈ atoms) {p : Phrase}
    (h : p.words ≠ []) : (atoms.foldr before p).complete ≠ [] := by
  induction atoms with
  | nil => cases hmem
  | cons a atoms ih =>
    rw [List.foldr_cons]
    rcases List.mem_cons.mp hmem with rfl | hlater
    · exact words_foldr_ne_nil atoms h
    · have hcomplete := ih hlater
      cases a <;> simp_all [before, words]

end Phrase

/-- A word has no blank among its lexemes, for a blank would end it. -/
theorem Spells.blank_notMem {ls : List Lexeme} {meaning : List Char} (h : Spells ls meaning) :
    .blank ∉ ls.map (·.atom) := by
  intro hmem
  let p : Phrase := ⟨some [], []⟩
  have hcomplete := Phrase.complete_foldr_ne_nil hmem (p := p) (List.cons_ne_nil _ _)
  rw [h.foldr_before] at hcomplete
  exact hcomplete rfl

/-! ### Rows that are written -/

/-- A quoted text is read without a line break outside quotes. -/
theorem exists_reads_quoteChars (cs : List Char) :
    ∃ ls, Reads false (quoteChars cs) ls ∧ lineBreak ∉ ls := by
  have hword : Word false (quoteChars cs) cs := word_quoteChars cs
  obtain ⟨ls, hreads, hspells⟩ := hword.exists_reads
  exact ⟨ls, hreads, fun hmem => hspells.blank_notMem (List.mem_map_of_mem hmem)⟩

/-- Words on a line are read without a line break outside quotes. -/
theorem exists_reads_joinWords (ws : List String) :
    ∃ ls, Reads false (joinWords ws).toList ls ∧ lineBreak ∉ ls := by
  induction ws with
  | nil => exact ⟨[], .nil, List.not_mem_nil⟩
  | cons w ws ih =>
    obtain ⟨ls, hreads, hls⟩ := exists_reads_quoteChars w.toList
    cases ws with
    | nil =>
      rw [joinWords, List.map_singleton, String.intercalate_singleton, toList_quote]
      exact ⟨ls, hreads, hls⟩
    | cons w' ws =>
      obtain ⟨ms, hreads', hms⟩ := ih
      have hspace : lineBreak ≠ ⟨.blank, [' ']⟩ := by decide
      rw [toList_joinWords_cons_cons]
      refine ⟨_, hreads.append ((reads_blank (c := ' ') rfl).append hreads'), ?_⟩
      simp [hls, hms, hspace]

theorem map_ofList_toList (ws : List String) : (ws.map String.toList).map .ofList = ws := by
  simp

/-- The lexemes of words on a line make these words. -/
theorem rowWords_of_reads {ws : List String} {ls : List Lexeme}
    (h : Reads final (joinWords ws).toList ls) : rowWords ls = ws := by
  have hwords : Words final (joinWords ws).toList (ws.map String.toList) := words_joinWords ws
  obtain ⟨ms, hreads, -, hms⟩ := hwords.exists_reads
  obtain rfl := Except.ok.inj (h.lexemes_eq.symm.trans hreads.lexemes_eq)
  rw [rowWords, hms, map_ofList_toList]

theorem toList_joinRows_cons (ws : List String) (wss : List (List String)) :
    (joinRows (ws :: wss)).toList = (joinWords ws).toList ++ '\n' :: (joinRows wss).toList := by
  rw [joinRows, List.map_cons, String.join_cons, String.toList_append, String.toList_append,
    List.append_assoc]
  rfl

/-- The line breaks outside quotes are those that end the rows. -/
theorem exists_reads_joinRows (wss : List (List String)) :
    ∃ ls parts, Reads false (joinRows wss).toList ls ∧ ls.splitOn lineBreak = parts ++ [[]] ∧
      parts.map rowWords = wss := by
  induction wss with
  | nil => exact ⟨[], [], .nil, rfl, rfl⟩
  | cons ws wss ih =>
    obtain ⟨ls, hreads, hls⟩ := exists_reads_joinWords ws
    obtain ⟨ms, parts, hreads', hparts, hwords⟩ := ih
    have hrow := rowWords_of_reads hreads
    rw [toList_joinRows_cons]
    refine ⟨_, ls :: parts, hreads.append ((reads_blank (c := '\n') rfl).append hreads'), ?_, ?_⟩
    · exact (List.splitOn_append_cons_self_of_not_mem hls ms).trans (congrArg (ls :: ·) hparts)
    · rw [List.map_cons, hrow, hwords]

/-- What is written in rows is found again. -/
theorem rows_joinRows (wss : List (List String)) : rows (joinRows wss) = .ok wss := by
  obtain ⟨ls, parts, hreads, hparts, hwords⟩ := exists_reads_joinRows wss
  rw [rows, hreads.lexemes_eq]
  change Except.ok ((ls.splitOn lineBreak).dropLast.map rowWords) = _
  rw [hparts, List.dropLast_concat, hwords]

theorem joinRows_injective : Function.Injective joinRows := by
  intro wss wss' h
  have hrows := rows_joinRows wss
  rw [h, rows_joinRows] at hrows
  exact (Except.ok.inj hrows).symm

/-! ### Rows that are read as one -/

/-- The words of all rows are the words of the text, since a line break is a blank. -/
theorem words_joinRows (wss : List (List String)) :
    Words final (joinRows wss).toList (wss.flatten.map String.toList) := by
  induction wss with
  | nil => exact .nil
  | cons ws wss ih =>
    rw [toList_joinRows_cons, List.flatten_cons, List.map_append]
    exact (words_joinWords ws).append rfl ih

/-- Stages written in rows are one command, with the words of all of them. -/
theorem tokenize_joinRows {p : Pipeline} (hne : p.stages ≠ []) (hnamed : Named p.stages) :
    tokenize (joinRows p.argvs) = .ok p.argvs.flatten := by
  obtain ⟨s, stages, hstages⟩ := List.exists_cons_of_ne_nil hne
  have hname : s.program ≠ "" := hnamed s (hstages ▸ List.mem_cons_self)
  -- The first stage gives the program, and all that follows are arguments.
  let whole : Stage := ⟨s.program, s.args ++ (stages.map Stage.argv).flatten⟩
  have hwhole : p.argvs.flatten = whole.argv := by
    rw [Pipeline.argvs, hstages]
    rfl
  have hscan := scan_of_parts (.last (words_joinRows p.argvs))
  rw [tokenize_eq_ok_iff, hwhole]
  refine ⟨whole, parseStage_eq_ok_iff.mpr ⟨_, hscan, ?_, hname⟩, rfl⟩
  exact (map_ofList_toList _).trans hwhole

end Pipework.Line
