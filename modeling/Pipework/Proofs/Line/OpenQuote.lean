import Pipework.Error
import Pipework.Proofs.Line.Ending
import Pipework.Proofs.Line.Recognition

/-!
# Where a quote is left open

A line that ends inside a quote is told from its two halves around that quote. What stands before
it is a line that is scanned to a settled end, so that the quote opens one. What stands behind it
has nothing that closes it: no single quote, or no double quote but behind an odd number of
backslashes, for these escape one another in pairs and the last one takes the quote. No other place
on the line is like that, because the scan reports one place only.

## Main definitions

* `NeverCloses` — a text does not close the quote that it stands behind
* `LeftOpen` — the quote at a position is opened there and never closed

## Main results

* `Grammar.staysOpen_iff` — what never closes a quote stays inside it
* `scan_eq_openQuote_iff` — the scan fails exactly at the quote that is left open
* `open_quote_reported` — the error names that quote and its place, and there is no other such
  place
-/

namespace Pipework.Line

open Grammar

/-! ### Backslashes at the end of a text -/

theorem trailingBackslashes_le_length (cs : List Char) : trailingBackslashes cs ≤ cs.length := by
  rw [trailingBackslashes, ← cs.length_reverse]
  exact (List.takeWhile_sublist _).length_le

/-- A character in front counts only if it is a backslash with nothing but backslashes behind
it. -/
theorem trailingBackslashes_cons (c : Char) (cs : List Char) :
    trailingBackslashes (c :: cs) =
      if trailingBackslashes cs = cs.length ∧ c = '\\' then cs.length + 1
      else trailingBackslashes cs := by
  have hall : (cs.reverse.takeWhile (· == '\\')).length = cs.reverse.length ↔
      trailingBackslashes cs = cs.length := by
    rw [List.length_reverse]
    rfl
  rw [trailingBackslashes, List.reverse_cons, List.takeWhile_append]
  split
  · next hlength =>
    by_cases hback : c = '\\' <;> simp [hback, hall.mp hlength]
  · next hlength =>
    rw [if_neg fun h => hlength (hall.mpr h.1)]
    rfl

theorem trailingBackslashes_cons_of_ne {c : Char} (hback : c ≠ '\\') (cs : List Char) :
    trailingBackslashes (c :: cs) = trailingBackslashes cs := by
  rw [trailingBackslashes_cons, if_neg (fun h => hback h.2)]

/-- An escaped character in front leaves the backslashes at the end as odd or even as they were. -/
theorem trailingBackslashes_escaped_mod_two (c : Char) (cs : List Char) :
    trailingBackslashes ('\\' :: c :: cs) % 2 = trailingBackslashes cs % 2 := by
  have hle := trailingBackslashes_le_length cs
  rw [trailingBackslashes_cons, trailingBackslashes_cons c cs, List.length_cons]
  by_cases hall : trailingBackslashes cs = cs.length ∧ c = '\\'
  · -- The two characters lengthen a run of backslashes by two.
    rw [if_pos hall, if_pos ⟨rfl, rfl⟩, hall.1]
    omega
  · rw [if_neg hall, if_neg fun h => absurd h.1 (by omega)]

/-! ### Texts that never close a quote -/

/-- The text does not close the quote of the kind that it stands behind: it has no single quote, or
each double quote in it has an odd number of backslashes right before it. -/
def NeverCloses (mark : Char) (rest : List Char) : Prop :=
  (mark = '\'' → '\'' ∉ rest) ∧
  (mark = '"' → ∀ before after, rest = before ++ '"' :: after →
    trailingBackslashes before % 2 = 1)

/-- What may stand between double quotes ends in backslashes that escape one another. -/
theorem Grammar.DoubleBody.trailingBackslashes_even {text meaning : List Char}
    (h : DoubleBody text meaning) : trailingBackslashes text % 2 = 0 := by
  induction h with
  | nil => rfl
  | plain _ hback _ ih => rw [trailingBackslashes_cons_of_ne hback, ih]
  | escaped _ ih => rw [trailingBackslashes_escaped_mod_two, ih]

/-- A double quote that may stand between double quotes is escaped. -/
theorem Grammar.DoubleBody.odd_before_mark {text meaning before after : List Char}
    (h : DoubleBody text meaning) (hsplit : text = before ++ '"' :: after) :
    trailingBackslashes before % 2 = 1 := by
  induction h generalizing before with
  | nil => cases before <;> cases hsplit
  | plain hmark hback _ ih =>
    cases before with
    | nil => exact absurd (List.cons.inj hsplit).1 hmark
    | cons b before =>
      obtain ⟨rfl, htail⟩ := List.cons.inj hsplit
      rw [trailingBackslashes_cons_of_ne hback, ih htail]
  | escaped _ ih =>
    match before with
    | [] => exact absurd (List.cons.inj hsplit).1 (by decide)
    | [b] =>
      obtain ⟨rfl, -⟩ := List.cons.inj hsplit
      rfl
    | b :: d :: before =>
      obtain ⟨rfl, htail⟩ := List.cons.inj hsplit
      rw [trailingBackslashes_escaped_mod_two, ih (List.cons.inj htail).2]

/-- A text stays inside a quote exactly if it never closes it. -/
theorem Grammar.staysOpen_iff {mark : Char} {rest : List Char} :
    StaysOpen mark rest ↔ isMark mark = true ∧ NeverCloses mark rest := by
  constructor
  · intro h
    cases h with
    | single hbody => exact ⟨rfl, fun _ => hbody, fun h => absurd h (by decide)⟩
    | double hbody =>
      exact ⟨rfl, fun h => absurd h (by decide), fun _ _ _ hsplit => hbody.odd_before_mark hsplit⟩
    | doubleBackslash hbody =>
      refine ⟨rfl, fun h => absurd h (by decide), fun _ before after hsplit => ?_⟩
      -- The backslash at the end is no quote, so the quote stands in the text before it.
      rcases List.eq_nil_or_concat after with rfl | ⟨init, last, rfl⟩
      · have hlast := congrArg List.getLast? hsplit
        simp at hlast
      · rw [List.concat_eq_append, ← List.cons_append, ← List.append_assoc] at hsplit
        exact hbody.odd_before_mark (List.append_inj_left' hsplit rfl)
  · rintro ⟨hmark, hsingle, hdouble⟩
    rw [isMark, Bool.or_eq_true, beq_iff_eq, beq_iff_eq] at hmark
    rcases hmark with rfl | rfl
    · exact .single (hsingle rfl)
    · rcases closes_double_or_staysOpen rest with ⟨body, meaning, later, hbody, hrest⟩ | hopen
      · have hodd := hdouble rfl body later hrest
        rw [hbody.trailingBackslashes_even] at hodd
        cases hodd
      · exact hopen

/-! ### The quote that is left open -/

/-- The quote at the position is left open: what stands before it is scanned into all segments up
to the one that it stands in, no backslash is left there to escape it, and what stands behind it
never closes it. -/
structure LeftOpen (line : String) (mark : Char) (segment position : Nat) : Prop where
  mark_at : line.toList[position]? = some mark
  marks : isMark mark = true
  scanned : ∃ segments, scan (.ofList (line.toList.take position)) = .ok segments ∧
    segments.length = segment + 1
  notEscaping : ¬ EndsEscaping (.ofList (line.toList.take position))
  neverCloses : NeverCloses mark (line.toList.drop (position + 1))

/-- There is one segment more than there are pipes among the lexemes. -/
theorem exists_scan_of_reads {final : Bool} {cs : List Char} {ls : List Lexeme}
    (h : Reads final cs ls) :
    ∃ segments, scan (.ofList cs) = .ok segments ∧ segments.length = countPipes ls + 1 := by
  refine ⟨place 0 (cut ls), ?_, ?_⟩
  · rw [scan, String.toList_ofList, h.lexemes_eq]
    rfl
  · rw [length_place, length_cut, countPipes]

/-- A line that ends inside a quote is read to a settled end before the quote, and stays inside the
quote behind it. -/
theorem Grammar.Unfinished.exists_reads {cs : List Char} {mark : Char} {segment position : Nat}
    (h : Unfinished cs mark segment position) :
    ∃ before rest ls, cs = before ++ mark :: rest ∧ before.length = position ∧
      Reads false before ls ∧ countPipes ls = segment ∧ StaysOpen mark rest := by
  induction h with
  | @here text rest words mark hwords hopen =>
    obtain ⟨ls, hreads, hpipes, -⟩ := hwords.exists_reads
    exact ⟨text, rest, ls, rfl, rfl, hreads, hpipes, hopen⟩
  | @later text rest words mark segment position hwords _ ih =>
    obtain ⟨ls, hreads, hpipes, -⟩ := hwords.exists_reads
    obtain ⟨before, later, ms, rfl, rfl, hreads', rfl, hopen⟩ := ih
    refine ⟨text ++ (['|'] ++ before), later, ls ++ ([⟨.pipe, ['|']⟩] ++ ms), by simp, ?_,
      hreads.append (reads_pipe.append hreads'), ?_, hopen⟩
    · rw [List.length_append, List.length_append, List.length_singleton, Nat.add_assoc]
    · rw [countPipes_append, countPipes_append, hpipes, countPipes_pipe, Nat.zero_add,
        Nat.add_comm]

/-- The scan fails exactly at the quote that is left open. -/
theorem scan_eq_openQuote_iff {line : String} {mark : Char} {segment position : Nat} :
    scan line = .error (.openQuote mark segment position) ↔
      LeftOpen line mark segment position := by
  constructor
  · intro h
    obtain ⟨_, _, _, hopen, hflaw⟩ := exists_unfinished_of_scan h
    cases hflaw
    obtain ⟨before, rest, ls, hline, rfl, hreads, rfl, hstays⟩ := hopen.exists_reads
    obtain ⟨hmark, hnever⟩ := staysOpen_iff.mp hstays
    have hbefore : line.toList.take before.length = before := by rw [hline, List.take_left]
    -- The quote begins something new, so that nothing before it is pending.
    have hsettled : (({} : Reader).readAll (String.ofList before).toList).Settled := by
      rw [String.toList_ofList]
      exact hreads.settled rfl
    refine ⟨?_, hmark, ?_, ?_, ?_⟩
    · rw [hline, List.getElem?_append_right (Nat.le_refl _), Nat.sub_self, List.getElem?_cons_zero]
    · rw [hbefore]
      exact exists_scan_of_reads hreads
    · rw [hbefore]
      exact (settled_iff.mp hsettled).2
    · rwa [hline, ← List.drop_drop, List.drop_left]
  · rintro ⟨hat, hmark, ⟨segments, hscan, hlength⟩, hend, hnever⟩
    obtain ⟨ls, hreads⟩ := exists_reads ⟨segments, hscan⟩ hend
    rw [String.toList_ofList] at hreads
    obtain ⟨hlt, hget⟩ := List.getElem?_eq_some_iff.mp hat
    have hline : line.toList =
        line.toList.take position ++ mark :: line.toList.drop (position + 1) := by
      rw [← hget, List.getElem_cons_drop, List.take_append_drop]
    have hcount : countPipes ls = segment := by
      obtain ⟨_, hscan', hlength'⟩ := exists_scan_of_reads hreads
      obtain rfl := Except.ok.inj (hscan.symm.trans hscan')
      omega
    -- What stands behind the prefix is a line of its own, and it fails at its first character.
    have hopen := (staysOpen_iff.mpr ⟨hmark, hnever⟩).lexemes_eq
    rw [scan, hline, hreads.lexemes_append, hopen, hcount, List.length_take,
      Nat.min_eq_left (Nat.le_of_lt hlt)]
    rfl

/-- A scan fails with an error exactly if a quote is left open, and the error names the quote, its
segment and its position. No line has two places where a quote is left open. -/
theorem open_quote_reported (line : String) :
    (∀ e : Error, (∃ f, scan line = .error f ∧ f.error = e) ↔
      ∃ (mark : Char) (segment position : Nat), LeftOpen line mark segment position ∧
        e = .parse .openQuote ("Unmatched " ++ mark.toString ++ " quote") (some segment)
          (some position)) ∧
    ∀ mark segment position mark' segment' position',
      LeftOpen line mark segment position → LeftOpen line mark' segment' position' →
        mark = mark' ∧ segment = segment' ∧ position = position' := by
  constructor
  · intro e
    constructor
    · rintro ⟨f, hscan, rfl⟩
      obtain ⟨mark, segment, position, -, rfl⟩ := exists_unfinished_of_scan hscan
      exact ⟨mark, segment, position, scan_eq_openQuote_iff.mp hscan, rfl⟩
    · rintro ⟨mark, segment, position, hopen, rfl⟩
      exact ⟨_, scan_eq_openQuote_iff.mpr hopen, rfl⟩
  · intro mark segment position mark' segment' position' hopen hopen'
    have hscan := scan_eq_openQuote_iff.mpr hopen
    rw [scan_eq_openQuote_iff.mpr hopen'] at hscan
    cases hscan
    exact ⟨rfl, rfl, rfl⟩

/-- Behind a pipe, a double quote that is left open though an escaped one follows it. -/
theorem open_quote_reported_escaped_mark :
    let line := "a | \"b\\\" c\\"
    LeftOpen line '"' 1 4 ∧
      ∀ mark segment position, LeftOpen line mark segment position → position = 4 := by
  intro line
  have hscan : scan line = .error (.openQuote '"' 1 4) := by decide +kernel
  have hopen : LeftOpen line '"' 1 4 := scan_eq_openQuote_iff.mp hscan
  exact ⟨hopen, fun mark segment position hother =>
    ((open_quote_reported line).2 _ _ _ _ _ _ hother hopen).2.2⟩

end Pipework.Line
