import Pipework.Proofs.Line.Ending
import Pipework.Proofs.Line.RoundTrip

/-!
# A quoted text stays one word

A line may be put together from a text before, a quoted text, and a text after it. If the text
before leaves no quote open and no backslash waiting, then whatever stands in quotes is a part of
one word, and the line around it is read as if something else were quoted there. So the quoted text
decides about nothing but that word: not about the segments, the other words, or the quote that the
line may end in.

## Main definitions

* `segmentWords` — the words of each segment that lexemes make

## Main results

* `exists_foldr_before` — atoms in front of a word that is complete leave it so or lead it
* `cut_append` — lexemes that are put together are cut as those in front and those behind are
* `Spells.exists_context` — the lexemes of a word are found in one word, the same for all words
* `embedded_quote_confined` — two lines that differ by a quoted text differ by a part of a word
-/

namespace Pipework.Line

/-! ### Words around a word -/

/-- Atoms that come before a word either join it, or they leave it complete behind words that do
not depend on it. -/
theorem exists_foldr_before (atoms : List Atom) :
    (∃ x, ∀ z complete, atoms.foldr Phrase.before ⟨some z, complete⟩ = ⟨some (x ++ z), complete⟩) ∨
      ∃ joining left x, ∀ z complete, atoms.foldr Phrase.before ⟨some z, complete⟩ =
        ⟨joining, left ++ (x ++ z) :: complete⟩ := by
  induction atoms with
  | nil => exact .inl ⟨[], fun _ _ => rfl⟩
  | cons a atoms ih =>
    simp only [List.foldr_cons]
    rcases ih with ⟨x, hjoins⟩ | ⟨joining, left, x, hcomplete⟩
    · simp only [hjoins]
      cases a with
      | char c => exact .inl ⟨c :: x, fun _ _ => rfl⟩
      | mark => exact .inl ⟨x, fun _ _ => rfl⟩
      -- A blank or a pipe completes the word.
      | blank => exact .inr ⟨none, [], x, fun _ _ => rfl⟩
      | pipe => exact .inr ⟨none, [], x, fun _ _ => rfl⟩
    · simp only [hcomplete]
      right
      cases a with
      | char c => exact ⟨some (c :: joining.getD []), left, x, fun _ _ => rfl⟩
      | mark => exact ⟨some (joining.getD []), left, x, fun _ _ => rfl⟩
      | blank =>
        refine ⟨none, joining.toList ++ left, x, fun z complete => ?_⟩
        simp [Phrase.before, Phrase.words]
      | pipe =>
        refine ⟨none, joining.toList ++ left, x, fun z complete => ?_⟩
        simp [Phrase.before, Phrase.words]

/-- A word with lexemes before and after it is found in one of the words that they make together.
What is around it does not depend on it. -/
theorem exists_wordsOf (before after : List Atom) :
    ∃ left x y right, ∀ (ls : List Lexeme) meaning, Spells ls meaning →
      wordsOf (before ++ (ls.map (·.atom) ++ after)) = left ++ (x ++ meaning ++ y) :: right := by
  let phrase := after.foldr Phrase.before {}
  have hfold (ls : List Lexeme) (meaning : List Char) (h : Spells ls meaning) :
      wordsOf (before ++ (ls.map (·.atom) ++ after)) =
        (before.foldr Phrase.before
          ⟨some (meaning ++ phrase.joining.getD []), phrase.complete⟩).words := by
    rw [wordsOf, List.foldr_append, List.foldr_append, h.foldr_before]
    rfl
  rcases exists_foldr_before before with ⟨x, hjoins⟩ | ⟨joining, left, x, hcomplete⟩
  · refine ⟨[], x, phrase.joining.getD [], phrase.complete, fun ls meaning h => ?_⟩
    rw [hfold ls meaning h, hjoins]
    simp [Phrase.words]
  · refine ⟨joining.toList ++ left, x, phrase.joining.getD [], phrase.complete,
      fun ls meaning h => ?_⟩
    rw [hfold ls meaning h, hcomplete]
    simp [Phrase.words]

/-! ### Segments around a segment -/

/-- Lexemes in front of others are cut by themselves, and what follows their last pipe joins the
first part of the others. -/
theorem cut_append (ls : List Lexeme) :
    ∃ front last, ∀ ms part parts, cut ms = part :: parts →
      cut (ls ++ ms) = front ++ (last ++ part) :: parts := by
  induction ls with
  | nil => exact ⟨[], [], fun _ _ _ hcut => hcut⟩
  | cons l ls ih =>
    obtain ⟨front, last, hcut⟩ := ih
    by_cases hpipe : l.atom == .pipe
    · refine ⟨[] :: front, last, fun ms part parts h => ?_⟩
      change cutBefore l (cut (ls ++ ms)) = _
      rw [hcut ms part parts h]
      cases front <;> simp [cutBefore, hpipe]
    · -- The lexeme joins the first part, which is in front or is the one that both share.
      cases front with
      | nil =>
        refine ⟨[], l :: last, fun ms part parts h => ?_⟩
        change cutBefore l (cut (ls ++ ms)) = _
        rw [hcut ms part parts h]
        simp [cutBefore, hpipe]
      | cons first front =>
        refine ⟨(l :: first) :: front, last, fun ms part parts h => ?_⟩
        change cutBefore l (cut (ls ++ ms)) = _
        rw [hcut ms part parts h]
        simp [cutBefore, hpipe]

/-- Lexemes without a pipe among them join the first part. -/
theorem cut_append_of_countPipes_eq_zero {ls ms : List Lexeme} {part : List Lexeme}
    {parts : List (List Lexeme)} (hpipes : countPipes ls = 0) (hcut : cut ms = part :: parts) :
    cut (ls ++ ms) = (ls ++ part) :: parts := by
  induction ls with
  | nil => exact hcut
  | cons l ls ih =>
    simp only [countPipes, List.countP_eq_zero, List.mem_cons, forall_eq_or_imp] at hpipes
    obtain ⟨hl, hrest⟩ := hpipes
    change cutBefore l (cut (ls ++ ms)) = _
    rw [ih (List.countP_eq_zero.mpr hrest)]
    simp [cutBefore, hl]

/-- The words of each segment that lexemes make. -/
def segmentWords (ls : List Lexeme) : List (List (List Char)) :=
  (cut ls).map fun part => wordsOf (part.map (·.atom))

/-- The lexemes of a word, with others in front and behind, are found in one word of one segment.
All the other words, and what that word has in front and behind, are the same for all lexemes of a
word. -/
theorem Spells.exists_context (front back : List Lexeme) :
    ∃ segments left x y right later, ∀ ls meaning, Spells ls meaning →
      segmentWords (front ++ (ls ++ back)) =
        segments ++ (left ++ (x ++ meaning ++ y) :: right) :: later := by
  obtain ⟨part, parts, hback⟩ := List.exists_cons_of_ne_nil (cut_ne_nil back)
  obtain ⟨segments, last, hcut⟩ := cut_append front
  obtain ⟨left, x, y, right, hwords⟩ :=
    exists_wordsOf (last.map (·.atom)) (part.map (·.atom))
  refine ⟨segments.map fun part => wordsOf (part.map (·.atom)), left, x, y, right,
    parts.map fun part => wordsOf (part.map (·.atom)), fun ls meaning h => ?_⟩
  have hmiddle : cut (ls ++ back) = (ls ++ part) :: parts :=
    cut_append_of_countPipes_eq_zero h.countPipes_eq hback
  rw [segmentWords, hcut _ _ _ hmiddle, List.map_append, List.map_cons, List.map_append,
    List.map_append, hwords ls meaning h]

/-! ### A quoted text on a line -/

/-- The words of the segments that are scanned are those that the lexemes make. -/
theorem exists_scan_of_lexemes {line : String} {ls : List Lexeme}
    (h : lexemes line.toList = .ok ls) :
    ∃ segments, scan line = .ok segments ∧
      segments.map (·.words) = (segmentWords ls).map (List.map .ofList) := by
  refine ⟨place 0 (cut ls), ?_, ?_⟩
  · rw [scan, h]
    rfl
  · rw [place_eq_layout, map_words_layout, List.map_map, segmentWords, List.map_map]
    rfl

/-- A quoted text between others that are put around it is read in its place, between what they are
read into. -/
theorem lexemes_embed {before : List Char} {ls : List Lexeme} (h : Reads false before ls)
    (s after : List Char) :
    ∃ ms, Spells ms s ∧ lexemes (before ++ (quoteChars s ++ after)) =
      ((lexemes after).map fun ns => ls ++ (ms ++ ns)).mapError
        (.later (countPipes ls) (before.length + (quoteChars s).length)) := by
  have hword : Grammar.Word false (quoteChars s) s := word_quoteChars s
  obtain ⟨ms, hreads, hspells⟩ := hword.exists_reads
  refine ⟨ms, hspells, ?_⟩
  have hboth := (h.append hreads).lexemes_append after
  rw [List.append_assoc, countPipes_append, hspells.countPipes_eq, List.length_append,
    Nat.add_zero] at hboth
  rw [hboth]
  simp only [List.append_assoc]

/-- A quoted text is confined to one word. Let the text before it be scanned to its end without a
backslash left that escapes nothing. Then the line with one text quoted and the line with another
one quoted are both scanned, into segments with the same words but for one, and that word has the
quoted text in the same place. Or else both lines end inside the same quote, which stands further
right by as much as the quoted text is longer. -/
theorem embedded_quote_confined (before after s t : String)
    (hscan : ∃ segments, scan before = .ok segments) (hend : ¬ EndsEscaping before) :
    let line := before ++ quote s ++ after
    let other := before ++ quote t ++ after
    (∃ found found' front left x y right back,
      scan line = .ok found ∧ scan other = .ok found' ∧
      found.map (·.words) = front ++ (left ++ (x ++ s ++ y) :: right) :: back ∧
      found'.map (·.words) = front ++ (left ++ (x ++ t ++ y) :: right) :: back) ∨
    ∃ mark segment position position',
      scan line = .error (.openQuote mark segment position) ∧
      scan other = .error (.openQuote mark segment position') ∧
      (position' : Int) - position = ((quote t).length : Int) - (quote s).length := by
  intro line other
  obtain ⟨ls, hreads⟩ := exists_reads hscan hend
  have htext (u : String) : (before ++ quote u ++ after).toList =
      before.toList ++ (quoteChars u.toList ++ after.toList) := by
    rw [String.toList_append, String.toList_append, toList_quote, List.append_assoc]
  have hlength (u : String) : (quote u).length = (quoteChars u.toList).length := by
    rw [← toList_quote, String.length_toList]
  obtain ⟨ms, hspells, hlexemes⟩ := lexemes_embed hreads s.toList after.toList
  obtain ⟨ms', hspells', hlexemes'⟩ := lexemes_embed hreads t.toList after.toList
  rw [← htext] at hlexemes hlexemes'
  cases hafter : scan after with
  | ok segments =>
    left
    -- The text after is read by itself, and the context that it makes is one for both texts.
    obtain ⟨ns, hns⟩ : ∃ ns, lexemes after.toList = .ok ns := by
      cases hns : lexemes after.toList with
      | ok ns => exact ⟨ns, rfl⟩
      | error f =>
        rw [scan, hns] at hafter
        cases hafter
    obtain ⟨front, left, x, y, right, back, hcontext⟩ := Spells.exists_context ls ns
    rw [hns] at hlexemes hlexemes'
    obtain ⟨found, hfound, hwords⟩ := exists_scan_of_lexemes hlexemes
    obtain ⟨found', hfound', hwords'⟩ := exists_scan_of_lexemes hlexemes'
    rw [hcontext ms _ hspells] at hwords
    rw [hcontext ms' _ hspells'] at hwords'
    refine ⟨found, found', front.map (List.map .ofList), left.map .ofList, .ofList x, .ofList y,
      right.map .ofList, back.map (List.map .ofList), hfound, hfound', ?_, ?_⟩
    · rw [hwords]
      simp [String.append_assoc]
    · rw [hwords']
      simp [String.append_assoc]
  | error f =>
    right
    obtain ⟨mark, segment, position, hopen, rfl⟩ := exists_unfinished_of_scan hafter
    rw [hopen.lexemes_eq] at hlexemes hlexemes'
    refine ⟨mark, countPipes ls + segment, before.toList.length + (quoteChars s.toList).length +
      position, before.toList.length + (quoteChars t.toList).length + position, ?_, ?_, ?_⟩
    · rw [scan, hlexemes]
      rfl
    · rw [scan, hlexemes']
      rfl
    · rw [hlength, hlength]
      omega

/-- An option that ends in a quoted text and in more: a hostile text in its place changes nothing
but that one word. -/
theorem embedded_quote_confined_option :
    let before := "grep --file="
    let after := "\\ x | wc"
    (∃ segments, scan before = .ok segments) ∧ ¬ EndsEscaping before ∧
      ∃ found found' front left x y right back,
        scan (before ++ quote "a" ++ after) = .ok found ∧
        scan (before ++ quote "' | rm -r '" ++ after) = .ok found' ∧
        found.map (·.words) = front ++ (left ++ (x ++ "a" ++ y) :: right) :: back ∧
        found'.map (·.words) = front ++ (left ++ (x ++ "' | rm -r '" ++ y) :: right) :: back := by
  intro before after
  have hscan : ∃ segments, scan before = .ok segments :=
    ⟨[⟨0, "grep --file=", ["grep", "--file="]⟩], by decide +kernel⟩
  have hend : ¬ EndsEscaping before := by
    unfold EndsEscaping
    decide
  refine ⟨hscan, hend, ?_⟩
  rcases embedded_quote_confined before after "a" "' | rm -r '" hscan hend with hfound | hopen
  · exact hfound
  · obtain ⟨mark, segment, position, _, hline, _⟩ := hopen
    have hcloses : (scan (before ++ quote "a" ++ after)).isOk = true := by decide +kernel
    rw [hline] at hcloses
    cases hcloses

end Pipework.Line
