import Pipework.Line.Segment
import Pipework.Proofs.Line.Grammar
import Pipework.Proofs.Line.Reading

/-!
# Scanning recognizes the grammar

Scanning finds segments on exactly those lines that the grammar derives, and it finds the texts
and the words that the grammar gives them. Every derivation is followed by the reader, piece by
piece, and a line that is read to its end has a derivation, because each text either begins with
something that the grammar knows or stays inside a quote. So no line has two derivations, and all
that can be wrong with a scan is that the line ends inside a quote.

## Main definitions

* `Spells` — lexemes that belong to one word
* `layout` — the segments that the parts of a derivation become

## Main results

* `Grammar.Piece.exists_reads`, `Grammar.Word.exists_reads`, `Grammar.Words.exists_reads` — a
  derivation is followed by the reader
* `scan_of_parts` — a line that has parts is scanned into them
* `exists_parts_or_unfinished` — a line has parts, or it ends inside a quote
* `Grammar.Derives.unique` — the grammar is unambiguous
* `scan_iff_derives` — scanning and the grammar agree on every line
-/

namespace Pipework.Line

open Grammar

/-! ### Lexemes of a word -/

namespace Phrase

/-- The phrase with characters in front of its first word, which they join. -/
def lead (meaning : List Char) (p : Phrase) : Phrase :=
  { p with joining := some (meaning ++ p.joining.getD []) }

@[simp] theorem lead_lead (xs ys : List Char) (p : Phrase) :
    (p.lead ys).lead xs = p.lead (xs ++ ys) := by
  simp [lead]

@[simp] theorem before_char (c : Char) (p : Phrase) : p.before (.char c) = p.lead [c] := rfl

@[simp] theorem before_mark (p : Phrase) : p.before .mark = p.lead [] := rfl

@[simp] theorem before_blank (p : Phrase) :
    p.before .blank = { joining := none, complete := p.words } := rfl

/-- Characters that touch a word join it one by one. -/
theorem foldr_before_chars (xs ys : List Char) (p : Phrase) :
    (xs.map Atom.char).foldr before (p.lead ys) = p.lead (xs ++ ys) := by
  induction xs with
  | nil => rfl
  | cons x xs ih =>
    rw [List.map_cons, List.foldr_cons, ih, before_char, lead_lead, List.singleton_append,
      List.cons_append]

end Phrase

/-- The lexemes belong to one word, to which they contribute these characters. -/
structure Spells (ls : List Lexeme) (meaning : List Char) : Prop where
  foldr_before (p : Phrase) : (ls.map (·.atom)).foldr Phrase.before p = p.lead meaning
  countPipes_eq : countPipes ls = 0

theorem Spells.append {ls ms : List Lexeme} {xs ys : List Char} (h : Spells ls xs)
    (h' : Spells ms ys) : Spells (ls ++ ms) (xs ++ ys) where
  foldr_before p := by
    rw [List.map_append, List.foldr_append, h'.foldr_before, h.foldr_before, Phrase.lead_lead]
  countPipes_eq := by rw [countPipes_append, h.countPipes_eq, h'.countPipes_eq]

/-- A character of a word is a word, or a part of one. -/
theorem Spells.char (c : Char) (source : List Char) : Spells [⟨.char c, source⟩] [c] :=
  ⟨fun _ => rfl, rfl⟩

/-- No pipe is among the characters of a word. -/
theorem countPipes_eq_zero_of_chars {ls : List Lexeme} {meaning : List Char}
    (h : ls.map (·.atom) = meaning.map .char) : countPipes ls = 0 := by
  have hcount : countPipes ls = (ls.map (·.atom)).countP (· == .pipe) := by
    rw [List.countP_map]
    rfl
  rw [hcount, h, List.countP_eq_zero]
  intro a ha
  obtain ⟨c, _, rfl⟩ := List.mem_map.mp ha
  exact Bool.false_ne_true

/-- A pair of quotes around characters of a word is a word, or a part of one. -/
theorem Spells.quoted {ls : List Lexeme} {meaning : List Char} (source : List Char)
    (h : ls.map (·.atom) = meaning.map .char) :
    Spells (⟨.mark, source⟩ :: ls ++ [⟨.mark, source⟩]) meaning where
  foldr_before p := by
    have hclose : [Atom.mark].foldr Phrase.before p = p.lead [] := rfl
    rw [List.map_append, List.map_cons, h, List.foldr_append, List.map_singleton, hclose,
      List.foldr_cons, Phrase.foldr_before_chars, Phrase.before_mark, Phrase.lead_lead,
      List.append_nil, List.nil_append]
  countPipes_eq := by
    have hopen : countPipes [(⟨.mark, source⟩ : Lexeme)] = 0 := rfl
    rw [← List.singleton_append, countPipes_append, countPipes_append, hopen,
      countPipes_eq_zero_of_chars h]

/-! ### Derivations are followed by the reader -/

/-- A text without single quotes is read as it stands between two of them. -/
theorem readsInside_single {body : List Char} (hbody : '\'' ∉ body) :
    ∃ ls, ReadsInside '\'' body ls ∧ ls.map (·.atom) = body.map .char := by
  induction body with
  | nil => exact ⟨[], .nil, rfl⟩
  | cons c body ih =>
    rw [List.mem_cons, not_or] at hbody
    obtain ⟨hc, hrest⟩ := hbody
    obtain ⟨ls, hreads, hatoms⟩ := ih hrest
    refine ⟨_, hreads.cons (Ne.symm hc) (.inr rfl), ?_⟩
    rw [List.map_cons, List.map_cons, hatoms]

theorem Grammar.DoubleBody.readsInside {body meaning : List Char} (h : DoubleBody body meaning) :
    ∃ ls, ReadsInside '"' body ls ∧ ls.map (·.atom) = meaning.map .char := by
  induction h with
  | nil => exact ⟨[], .nil, rfl⟩
  | plain hmark hback _ ih =>
    obtain ⟨ls, hreads, hatoms⟩ := ih
    refine ⟨_, hreads.cons hmark (.inl hback), ?_⟩
    rw [List.map_cons, List.map_cons, hatoms]
  | escaped _ ih =>
    obtain ⟨ls, hreads, hatoms⟩ := ih
    refine ⟨_, hreads.escaped (by decide), ?_⟩
    rw [List.map_cons, List.map_cons, hatoms]

variable {final : Bool} {text meaning : List Char}

theorem Grammar.Piece.exists_reads (h : Piece final text meaning) :
    ∃ ls, Reads final text ls ∧ Spells ls meaning := by
  cases h with
  | @plain c hblank hspecial =>
    simp only [List.mem_cons, List.not_mem_nil, or_false, not_or] at hspecial
    obtain ⟨hpipe, hsingle, hdouble, hback⟩ := hspecial
    have hmark : isMark c = false := by simp [isMark, hsingle, hdouble]
    have hatom : Reader.bareAtom c = .char c := by simp [Reader.bareAtom, hmark, hblank, hpipe]
    refine ⟨_, .bare hmark hback, ?_⟩
    rw [hatom]
    exact .char c [c]
  | escaped c => exact ⟨_, .escaped c, .char c _⟩
  | single hbody =>
    obtain ⟨ls, hreads, hatoms⟩ := readsInside_single hbody
    exact ⟨_, hreads.reads rfl, .quoted _ hatoms⟩
  | double hbody =>
    obtain ⟨ls, hreads, hatoms⟩ := hbody.readsInside
    exact ⟨_, hreads.reads rfl, .quoted _ hatoms⟩
  | backslash hfinal =>
    subst hfinal
    exact ⟨_, .backslash, .char _ _⟩

theorem Grammar.Word.exists_reads (h : Word final text meaning) :
    ∃ ls, Reads final text ls ∧ Spells ls meaning := by
  induction h with
  | one hpiece => exact hpiece.exists_reads
  | more hpiece _ ih =>
    obtain ⟨ls, hreads, hspells⟩ := hpiece.exists_reads
    obtain ⟨ms, hreads', hspells'⟩ := ih
    exact ⟨_, hreads.append hreads', hspells.append hspells'⟩

/-- A blank is read as one. -/
theorem reads_blank {c : Char} (hblank : Text.isBlank c = true) :
    Reads final [c] [⟨.blank, [c]⟩] := by
  have hmark : isMark c = false := by
    rw [isMark, Bool.or_eq_false_iff]
    constructor <;> refine beq_false_of_ne ?_ <;> rintro rfl <;> exact absurd hblank (by decide)
  have hback : c ≠ '\\' := by
    rintro rfl
    exact absurd hblank (by decide)
  have hatom : Reader.bareAtom c = .blank := by simp [Reader.bareAtom, hmark, hblank]
  have hreads : Reads final [c] [⟨Reader.bareAtom c, [c]⟩] := .bare hmark hback
  rwa [hatom] at hreads

/-- A pipe is read as one. -/
theorem reads_pipe : Reads false ['|'] [⟨.pipe, ['|']⟩] := .bare rfl (by decide)

@[simp] theorem countPipes_pipe : countPipes [(⟨.pipe, ['|']⟩ : Lexeme)] = 1 := rfl

/-- The words of a text are those that its lexemes are grouped into. -/
theorem Grammar.Words.exists_reads {words : List (List Char)} (h : Words final text words) :
    ∃ ls, Reads final text ls ∧ countPipes ls = 0 ∧ wordsOf (ls.map (·.atom)) = words := by
  induction h with
  | nil => exact ⟨[], .nil, rfl, rfl⟩
  -- A blank adds nothing to the words, and between two words it is what keeps them apart.
  | blank hblank _ ih =>
    obtain ⟨ls, hreads, hpipes, hwords⟩ := ih
    refine ⟨_, (reads_blank hblank).append hreads, ?_, ?_⟩
    · rw [countPipes_append, hpipes]
      rfl
    · rw [← hwords]
      rfl
  | last hword =>
    obtain ⟨ls, hreads, hspells⟩ := hword.exists_reads
    refine ⟨ls, hreads, hspells.countPipes_eq, ?_⟩
    rw [wordsOf, hspells.foldr_before]
    simp [Phrase.lead, Phrase.words]
  | more hword hblank _ ih =>
    obtain ⟨ls, hreads, hspells⟩ := hword.exists_reads
    obtain ⟨ms, hreads', hpipes, hwords⟩ := ih
    refine ⟨_, hreads.append ((reads_blank hblank).append hreads'), ?_, ?_⟩
    · rw [countPipes_append, countPipes_append, hspells.countPipes_eq, hpipes]
      rfl
    · rw [← hwords, wordsOf, List.map_append, List.foldr_append, hspells.foldr_before]
      simp [Phrase.lead, Phrase.words, wordsOf]

/-! ### Parts and segments -/

/-- A part of a line, as the lexemes between two pipes make it. -/
def partOf (ls : List Lexeme) : List Char × List (List Char) :=
  (ls.flatMap (·.source), wordsOf (ls.map (·.atom)))

/-- Lexemes on the two sides of a pipe are cut by themselves. -/
theorem cut_append_pipe (ls : List Lexeme) {l : Lexeme} (hpipe : l.atom = .pipe)
    (ms : List Lexeme) : cut (ls ++ l :: ms) = cut ls ++ cut ms := by
  induction ls with
  | nil =>
    change cutBefore l (cut ms) = [] :: cut ms
    cases hcut : cut ms with
    | nil => exact absurd hcut (cut_ne_nil ms)
    | cons part parts => simp [cutBefore, hpipe]
  | cons x ls ih =>
    change cutBefore x (cut (ls ++ l :: ms)) = cutBefore x (cut ls) ++ cut ms
    rw [ih]
    cases hcut : cut ls with
    | nil => exact absurd hcut (cut_ne_nil ls)
    | cons part parts => by_cases hx : x.atom == .pipe <;> simp [cutBefore, hx]

theorem cut_of_countPipes_eq_zero {ls : List Lexeme} (hpipes : countPipes ls = 0) :
    cut ls = [ls] := by
  induction ls with
  | nil => rfl
  | cons x ls ih =>
    simp only [countPipes, List.countP_eq_zero, List.mem_cons, forall_eq_or_imp] at hpipes
    obtain ⟨hx, hrest⟩ := hpipes
    change cutBefore x (cut ls) = _
    rw [ih (List.countP_eq_zero.mpr hrest)]
    simp [cutBefore, hx]

/-- The lexemes of a line, cut at the pipes, are its parts. -/
theorem Grammar.Parts.exists_lexemes {parts : List (List Char × List (List Char))}
    (h : Parts text parts) : ∃ ls, lexemes text = .ok ls ∧ (cut ls).map partOf = parts := by
  induction h with
  | last hwords =>
    obtain ⟨ls, hreads, hpipes, hwords⟩ := hwords.exists_reads
    refine ⟨ls, hreads.lexemes_eq, ?_⟩
    rw [cut_of_countPipes_eq_zero hpipes, List.map_singleton, partOf,
      hreads.flatMap_source, hwords]
  | more hwords _ ih =>
    obtain ⟨ls, hreads, hpipes, hwords⟩ := hwords.exists_reads
    obtain ⟨ms, hlexemes, hcut⟩ := ih
    refine ⟨ls ++ ⟨.pipe, ['|']⟩ :: ms, ?_, ?_⟩
    · rw [hreads.lexemes_append, ← List.singleton_append, reads_pipe.lexemes_append, hlexemes]
      rfl
    · rw [cut_append_pipe ls rfl, cut_of_countPipes_eq_zero hpipes, List.singleton_append,
        List.map_cons, hcut, partOf, hreads.flatMap_source, hwords]

/-- The segments that parts become, the first at the given position. -/
def layout (start : Nat) : List (List Char × List (List Char)) → List Segment
  | [] => []
  | (text, words) :: parts =>
    ⟨start, .ofList text, words.map .ofList⟩ :: layout (start + text.length + 1) parts

theorem place_eq_layout (start : Nat) (parts : List (List Lexeme)) :
    place start parts = layout start (parts.map partOf) := by
  induction parts generalizing start with
  | nil => rfl
  | cons part parts ih =>
    rw [place, List.map_cons, ih]
    simp [layout, partOf, Segment.stop, Segment.ofLexemes]

/-- A line that has parts is scanned into them. -/
theorem scan_of_parts {line : String} {parts : List (List Char × List (List Char))}
    (h : Parts line.toList parts) : scan line = .ok (layout 0 parts) := by
  obtain ⟨ls, hlexemes, hcut⟩ := h.exists_lexemes
  rw [scan, hlexemes, ← hcut, ← place_eq_layout]
  rfl

@[simp] theorem map_source_layout (start : Nat) (parts : List (List Char × List (List Char))) :
    (layout start parts).map (·.source) = parts.map fun part => .ofList part.1 := by
  induction parts generalizing start with
  | nil => rfl
  | cons part parts ih => rw [layout, List.map_cons, List.map_cons, ih]

@[simp] theorem map_words_layout (start : Nat) (parts : List (List Char × List (List Char))) :
    (layout start parts).map (·.words) = parts.map fun part => part.2.map .ofList := by
  induction parts generalizing start with
  | nil => rfl
  | cons part parts ih => rw [layout, List.map_cons, List.map_cons, ih]

/-- A segment stands on the line where it says that it does. -/
theorem slice_of_mem_layout {parts : List (List Char × List (List Char))} (h : Parts text parts)
    (front : List Char) {s : Segment} (hmem : s ∈ layout front.length parts) :
    ((front ++ text).drop s.start).take s.source.length = s.source.toList := by
  induction h generalizing front with
  | last _ =>
    obtain rfl := List.mem_singleton.mp hmem
    simp
  | @more text rest words parts _ _ ih =>
    rcases List.mem_cons.mp hmem with rfl | hlater
    · simp
    · have hline : front ++ (text ++ '|' :: rest) = (front ++ text ++ ['|']) ++ rest := by simp
      rw [hline]
      exact ih (front ++ text ++ ['|']) (by simpa [Nat.add_assoc] using hlater)

/-! ### Every line has a derivation, or stays inside a quote -/

/-- A quote that stays open is what the reader reports. -/
theorem Grammar.StaysOpen.lexemes_eq {mark : Char} {rest : List Char} (h : StaysOpen mark rest) :
    lexemes (mark :: rest) = .error (.openQuote mark 0 0) := by
  cases h with
  | single hbody =>
    obtain ⟨ls, hreads, hatoms⟩ := readsInside_single hbody
    exact hreads.lexemes_opened rfl (countPipes_eq_zero_of_chars hatoms)
  | double hbody =>
    obtain ⟨ls, hreads, hatoms⟩ := hbody.readsInside
    exact hreads.lexemes_opened rfl (countPipes_eq_zero_of_chars hatoms)
  | doubleBackslash hbody =>
    obtain ⟨ls, hreads, hatoms⟩ := hbody.readsInside
    exact hreads.lexemes_opened_backslash rfl (by decide) (countPipes_eq_zero_of_chars hatoms)

/-- A line that ends inside a quote is not read, and the quote is the reason. -/
theorem Grammar.Unfinished.lexemes_eq {cs : List Char} {mark : Char} {segment position : Nat}
    (h : Unfinished cs mark segment position) :
    lexemes cs = .error (.openQuote mark segment position) := by
  induction h with
  | here hwords hopen =>
    obtain ⟨ls, hreads, hpipes, -⟩ := hwords.exists_reads
    rw [hreads.lexemes_append, hopen.lexemes_eq, hpipes]
    rfl
  | later hwords _ ih =>
    obtain ⟨ls, hreads, hpipes, -⟩ := hwords.exists_reads
    rw [hreads.lexemes_append, ← List.singleton_append, reads_pipe.lexemes_append, ih, hpipes]
    refine congrArg Except.error ?_
    rw [Flaw.later, countPipes_pipe, List.length_singleton, Flaw.later]
    congr 1 <;> omega

theorem Grammar.Piece.length_pos (h : Piece final text meaning) : 0 < text.length := by
  cases h <;> simp

/-- A line has parts, or it ends inside a quote. -/
theorem exists_parts_or_unfinished (cs : List Char) :
    (∃ parts, Parts cs parts) ∨ ∃ mark segment position, Unfinished cs mark segment position := by
  -- What follows the beginning of a text is shorter, and settled already.
  match cs, beginning cs with
  | _, .nil => exact .inl ⟨_, .last .nil⟩
  | _, .blank rest hblank =>
    rcases exists_parts_or_unfinished rest with ⟨parts, hparts⟩ | ⟨_, _, _, hopen⟩
    · obtain ⟨parts', hparts', -⟩ := hparts.prepend_blank hblank
      exact .inl ⟨parts', hparts'⟩
    · exact .inr ⟨_, _, _, hopen.prepend_blank hblank⟩
  | _, .pipe rest =>
    rcases exists_parts_or_unfinished rest with ⟨parts, hparts⟩ | ⟨_, _, _, hopen⟩
    · exact .inl ⟨_, .more .nil hparts⟩
    · exact .inr ⟨_, _, _, .later .nil hopen⟩
  | _, .piece rest hpiece =>
    have := hpiece.length_pos
    rcases exists_parts_or_unfinished rest with ⟨parts, hparts⟩ | ⟨_, _, _, hopen⟩
    · exact .inl (hparts.prepend hpiece)
    · exact .inr ⟨_, _, _, hopen.prepend hpiece⟩
  -- The line ends with these two, so nothing is left to look at.
  | _, .backslash => exact .inl ⟨_, .last (.last (.one (.backslash rfl)))⟩
  | _, .staysOpen hopen => exact .inr ⟨_, _, _, .here .nil hopen⟩
termination_by cs.length
decreasing_by all_goals simp_all

theorem scan_of_unfinished {line : String} {mark : Char} {segment position : Nat}
    (h : Unfinished line.toList mark segment position) :
    scan line = .error (.openQuote mark segment position) := by
  rw [scan, h.lexemes_eq]
  rfl

/-- What is scanned are the parts of the line. -/
theorem exists_parts_of_scan {line : String} {segments : List Segment}
    (h : scan line = .ok segments) :
    ∃ parts, Parts line.toList parts ∧ segments = layout 0 parts := by
  rcases exists_parts_or_unfinished line.toList with ⟨parts, hparts⟩ | ⟨_, _, _, hopen⟩
  · refine ⟨parts, hparts, ?_⟩
    rw [scan_of_parts hparts] at h
    exact (Except.ok.inj h).symm
  · rw [scan_of_unfinished hopen] at h
    cases h

/-- What can be wrong with a scan is that the line ends inside a quote. -/
theorem exists_unfinished_of_scan {line : String} {f : Flaw} (h : scan line = .error f) :
    ∃ mark segment position, Unfinished line.toList mark segment position ∧
      f = .openQuote mark segment position := by
  rcases exists_parts_or_unfinished line.toList with ⟨parts, hparts⟩ | ⟨_, _, _, hopen⟩
  · rw [scan_of_parts hparts] at h
    cases h
  · rw [scan_of_unfinished hopen] at h
    exact ⟨_, _, _, hopen, (Except.error.inj h).symm⟩

/-- The grammar is unambiguous: a line has one derivation at most, because it has one scan. -/
theorem Grammar.Derives.unique {line : String} {texts texts' : List String}
    {words words' : List (List String)} (h : Derives line texts words)
    (h' : Derives line texts' words') : texts = texts' ∧ words = words' := by
  obtain ⟨parts, hparts, rfl, rfl⟩ := h
  obtain ⟨parts', hparts', rfl, rfl⟩ := h'
  have hlayout : layout 0 parts = layout 0 parts' :=
    Except.ok.inj ((scan_of_parts hparts).symm.trans (scan_of_parts hparts'))
  constructor
  · rw [← map_source_layout 0 parts, hlayout, map_source_layout]
  · rw [← map_words_layout 0 parts, hlayout, map_words_layout]

/-- Scanning finds segments on exactly those lines that the grammar derives, with the texts and
the words that it gives them. A segment stands where it says that it does. Every other line ends
inside a quote, and that quote is what is reported. -/
theorem scan_iff_derives (line : String) :
    (∀ texts words,
      (∃ segments, scan line = .ok segments ∧ segments.map (·.source) = texts ∧
        segments.map (·.words) = words) ↔ Derives line texts words) ∧
    (∀ segments, scan line = .ok segments → ∀ s ∈ segments,
      (line.toList.drop s.start).take (s.stop - s.start) = s.source.toList) ∧
    ((∃ mark segment position, scan line = .error (.openQuote mark segment position)) ↔
      ¬ ∃ texts words, Derives line texts words) ∧
    ∀ f, scan line = .error f ↔ ∃ mark segment position,
      Unfinished line.toList mark segment position ∧ f = .openQuote mark segment position := by
  refine ⟨fun texts words => ⟨?_, ?_⟩, ?_, ⟨?_, ?_⟩, fun f => ⟨exists_unfinished_of_scan, ?_⟩⟩
  · rintro ⟨segments, hscan, rfl, rfl⟩
    obtain ⟨parts, hparts, rfl⟩ := exists_parts_of_scan hscan
    exact ⟨parts, hparts, map_source_layout 0 parts, map_words_layout 0 parts⟩
  · rintro ⟨parts, hparts, rfl, rfl⟩
    exact ⟨_, scan_of_parts hparts, map_source_layout 0 parts, map_words_layout 0 parts⟩
  · intro segments hscan s hmem
    obtain ⟨parts, hparts, rfl⟩ := exists_parts_of_scan hscan
    rw [Segment.stop, Nat.add_sub_cancel_left]
    exact slice_of_mem_layout hparts [] hmem
  · rintro ⟨mark, segment, position, hscan⟩ ⟨texts, words, parts, hparts, _⟩
    rw [scan_of_parts hparts] at hscan
    cases hscan
  · -- A line without a derivation must end inside a quote.
    intro hnone
    rcases exists_parts_or_unfinished line.toList with ⟨parts, hparts⟩ | ⟨_, _, _, hopen⟩
    · exact absurd ⟨_, _, parts, hparts, rfl, rfl⟩ hnone
    · exact ⟨_, _, _, scan_of_unfinished hopen⟩
  · rintro ⟨mark, segment, position, hopen, rfl⟩
    exact scan_of_unfinished hopen

/-- A line with quotes of both kinds, a pipe and a mark that mean themselves, and an empty word;
and a line that ends inside a quote, behind a pipe. -/
theorem scan_iff_derives_quoted_line :
    Derives "a 'b|' | \"c\\\"\" ''" ["a 'b|' ", " \"c\\\"\" ''"] [["a", "b|"], ["c\"", ""]] ∧
    ¬ ∃ texts words, Derives "a | \"b" texts words :=
  ⟨((scan_iff_derives _).1 _ _).1 ⟨_, rfl, rfl, rfl⟩,
    (scan_iff_derives _).2.2.1.1 ⟨'"', 1, 4, rfl⟩⟩

end Pipework.Line
