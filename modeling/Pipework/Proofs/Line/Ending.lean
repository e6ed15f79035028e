import Mathlib.Data.List.Induction
import Pipework.Line.Segment
import Pipework.Proofs.Line.Reading

/-!
# How a line ends

A line whose scan ends outside quotes may still end in a backslash that has nothing to escape.
Whatever follows such a line is not read as a line of its own, because the backslash takes the next
character with it. Outside quotes of the single kind backslashes escape one another in pairs, so
that the last one is left alone exactly if the line ends with an odd number of them.

## Main definitions

* `trailingBackslashes` — how many backslashes a text ends with
* `EndsEscaping` — the last character of a line is a backslash that escapes nothing
* `Reader.Paired` — how many backslashes a reader has come over last

## Main results

* `Reader.paired_readAll` — a backslash waits exactly after an odd number of them
* `settled_iff` — a reader is settled at the end of a line that is scanned and does not end so
* `exists_reads` — such a line is read into lexemes, and what follows it is a line of its own
-/

namespace Pipework.Line

/-- How many backslashes a text ends with. -/
def trailingBackslashes (cs : List Char) : Nat := (cs.reverse.takeWhile (· == '\\')).length

/-- The last character of the line is a backslash that escapes nothing: the backslashes before it
escape one another in pairs. -/
def EndsEscaping (line : String) : Prop := trailingBackslashes line.toList % 2 = 1

theorem trailingBackslashes_append_singleton (cs : List Char) (c : Char) :
    trailingBackslashes (cs ++ [c]) = if c = '\\' then trailingBackslashes cs + 1 else 0 := by
  by_cases hback : c = '\\' <;> simp [trailingBackslashes, hback]

namespace Reader

/-- The reader has come over so many backslashes last: outside single quotes one of them still
waits exactly if their number is odd, and between single quotes none ever does. -/
structure Paired (r : Reader) (count : Nat) : Prop where
  single : ∀ opened, r.quote = some ('\'', opened) → r.escaping = false
  outside : (∀ opened, r.quote ≠ some ('\'', opened)) → (r.escaping = true ↔ count % 2 = 1)

/-- One more backslash is paired with the one that waits, or it waits itself. Any other character
leaves none to wait. -/
theorem Paired.read {r : Reader} {count : Nat} (h : r.Paired count) (c : Char) :
    (r.read c).Paired (if c = '\\' then count + 1 else 0) := by
  obtain ⟨position, quote, escaping, lexemes⟩ := r
  obtain ⟨hsingle, houtside⟩ := h
  cases escaping with
  | true =>
    -- The character is taken by the backslash before it, be it a backslash or not.
    have hopen : ∀ opened, quote ≠ some ('\'', opened) := by
      intro opened heq
      exact absurd (hsingle opened heq) (by simp)
    have hodd := (houtside hopen).mp rfl
    refine ⟨fun _ _ => rfl, fun _ => ?_⟩
    change false = true ↔ _
    simp only [Bool.false_eq_true, false_iff]
    split <;> omega
  | false =>
    by_cases hback : c = '\\'
    · subst hback
      rw [if_pos rfl]
      cases quote with
      | none =>
        have heven := (houtside (by simp)).not.mp (by simp)
        refine ⟨fun opened hquote => by simp [Reader.read] at hquote, fun _ => ?_⟩
        change true = true ↔ _
        simp only [true_iff]
        omega
      | some before =>
        obtain ⟨mark, place⟩ := before
        by_cases hmark : mark = '\''
        · -- Between single quotes the backslash is a character like any other.
          subst hmark
          refine ⟨fun _ _ => rfl, fun hopen => ?_⟩
          exact absurd rfl (hopen place)
        · have heven := (houtside (by simp [hmark])).not.mp (by simp)
          have hread : (Reader.read ⟨position, some (mark, place), false, lexemes⟩ '\\') =
              ⟨position + 1, some (mark, place), true, lexemes⟩ := by
            simp [Reader.read, hmark]
          rw [hread]
          refine ⟨fun opened hquote => by simp [hmark] at hquote, fun _ => ?_⟩
          simp only [true_iff]
          omega
    · -- Nothing waits after any other character.
      have hnone : (Reader.read ⟨position, quote, false, lexemes⟩ c).escaping = false := by
        cases quote with
        | none => simp [Reader.read, hback]
        | some before =>
          by_cases hmark : c == before.1 <;> simp [Reader.read, hback, hmark]
      rw [if_neg hback]
      refine ⟨fun _ _ => hnone, fun _ => ?_⟩
      rw [hnone]
      decide

theorem paired_readAll (cs : List Char) :
    (({} : Reader).readAll cs).Paired (trailingBackslashes cs) := by
  induction cs using List.reverseRecOn with
  | nil => exact ⟨fun _ _ => rfl, fun _ => by decide⟩
  | append_singleton cs c ih =>
    rw [readAll_append, readAll_cons, readAll_nil, trailingBackslashes_append_singleton]
    exact ih.read c

end Reader

/-- The reader is settled at the end of a line that is scanned and does not end in a backslash that
escapes nothing. -/
theorem settled_iff {line : String} :
    (({} : Reader).readAll line.toList).Settled ↔
      (∃ segments, scan line = .ok segments) ∧ ¬ EndsEscaping line := by
  have hscan : (∃ segments, scan line = .ok segments) ↔
      (({} : Reader).readAll line.toList).quote = none := by
    unfold scan lexemes Reader.finish
    cases (({} : Reader).readAll line.toList).quote with
    | none => exact ⟨fun _ => rfl, fun _ => ⟨_, rfl⟩⟩
    | some opened =>
      constructor
      · rintro ⟨_, hok⟩
        cases hok
      · intro hnone
        cases hnone
  -- Outside of quotes the reader is escaping just if the backslashes at the end are odd in number.
  rw [hscan, EndsEscaping]
  constructor
  · intro hsettled
    have hiff := (Reader.paired_readAll line.toList).outside (by simp [hsettled.quote_eq])
    refine ⟨hsettled.quote_eq, ?_⟩
    rw [← hiff, hsettled.escaping_eq]
    exact Bool.false_ne_true
  · rintro ⟨hquote, hend⟩
    have hiff := (Reader.paired_readAll line.toList).outside (by simp [hquote])
    rw [← hiff, Bool.not_eq_true] at hend
    exact ⟨hquote, hend⟩

/-- A line that is scanned and does not end in a backslash that escapes nothing is read into
lexemes, and the reader is settled at its end. -/
theorem exists_reads {line : String} (hscan : ∃ segments, scan line = .ok segments)
    (hend : ¬ EndsEscaping line) : ∃ ls, Reads false line.toList ls := by
  have hsettled := settled_iff.mpr ⟨hscan, hend⟩
  refine ⟨(({} : Reader).readAll line.toList).taken.reverse, ?_, fun _ => hsettled⟩
  rw [lexemes, Reader.finish, hsettled.quote_eq]

end Pipework.Line
