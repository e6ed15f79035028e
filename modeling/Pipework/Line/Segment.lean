import Pipework.Line.Lexeme

/-!
# Segments and words

The lexemes of a line are cut at its pipes into segments, and the lexemes of a segment are
grouped into words. A word is a longest run of characters and quotes, so a pair of quotes
with nothing between them is an empty word.

## Main definitions

* `Segment` — a part of a line between pipes, with its words
* `cut` — lexemes cut at the pipes
* `wordsOf` — the words that atoms make
* `scan` — the segments of a line

## Main results

* `length_cut` — there is one part more than there are pipes
-/

namespace Pipework.Line

/-- A part of a line between pipes: where it starts, the characters it was read from, and
its words. -/
structure Segment where
  start : Nat
  source : String
  words : List String
  deriving Repr, DecidableEq

/-- The position after the last character of the segment. -/
def Segment.stop (s : Segment) : Nat := s.start + s.source.length

/-- Puts a lexeme in front of lexemes that are cut already; a pipe begins a new part. -/
def cutBefore (l : Lexeme) : List (List Lexeme) → List (List Lexeme)
  | [] => [[l]]
  | part :: parts => if l.atom == .pipe then [] :: part :: parts else (l :: part) :: parts

/-- The lexemes between pipes. There is always one part more than there are pipes. -/
def cut (ls : List Lexeme) : List (List Lexeme) := ls.foldr cutBefore [[]]

/-- There is always a part, though it may hold no lexeme. -/
theorem cut_ne_nil (ls : List Lexeme) : cut ls ≠ [] := by
  cases ls with
  | nil => exact List.cons_ne_nil _ _
  | cons l ls =>
    change cutBefore l (cut ls) ≠ []
    unfold cutBefore
    split
    · exact List.cons_ne_nil _ _
    · split <;> exact List.cons_ne_nil _ _

/-- Every pipe begins one more part. -/
theorem length_cut (ls : List Lexeme) : (cut ls).length = ls.countP (·.atom == .pipe) + 1 := by
  induction ls with
  | nil => rfl
  | cons l ls ih =>
    change (cutBefore l (cut ls)).length = _
    rw [List.countP_cons]
    cases h : cut ls with
    | nil => exact absurd h (cut_ne_nil ls)
    | cons part parts =>
      rw [h] at ih
      by_cases hpipe : l.atom == .pipe <;> simp_all [cutBefore]

/-- Words, read from the right: the one that a character further left may still join, and
those that are complete. -/
structure Phrase where
  joining : Option (List Char) := none
  complete : List (List Char) := []
  deriving Repr, DecidableEq

namespace Phrase

/-- All words of the phrase. -/
def words (p : Phrase) : List (List Char) := p.joining.toList ++ p.complete

/-- The phrase with an atom put in front. -/
def before (a : Atom) (p : Phrase) : Phrase :=
  match a with
  | .char c => { p with joining := some (c :: p.joining.getD []) }
  | .mark => { p with joining := some (p.joining.getD []) }
  | .blank | .pipe => { joining := none, complete := p.words }

end Phrase

/-- The words that atoms make: characters and quotes that touch are one word. -/
def wordsOf (atoms : List Atom) : List (List Char) := (atoms.foldr Phrase.before {}).words

/-- The segment that starts at a position and is made of the lexemes. -/
def Segment.ofLexemes (start : Nat) (ls : List Lexeme) : Segment where
  start := start
  source := .ofList (ls.flatMap (·.source))
  words := (wordsOf (ls.map (·.atom))).map .ofList

/-- Segments in their places, the first at the given position and one pipe between two. -/
def place (start : Nat) : List (List Lexeme) → List Segment
  | [] => []
  | part :: parts =>
    let segment := Segment.ofLexemes start part
    segment :: place (segment.stop + 1) parts

@[simp] theorem length_place (start : Nat) (parts : List (List Lexeme)) :
    (place start parts).length = parts.length := by
  induction parts generalizing start with
  | nil => rfl
  | cons part parts ih => simp [place, ih]

/-- The segments of a line. -/
def scan (line : String) : Except Flaw (List Segment) :=
  return place 0 (cut (← lexemes line.toList))

end Pipework.Line
