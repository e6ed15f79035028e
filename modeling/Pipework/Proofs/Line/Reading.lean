import Pipework.Line.Lexeme

/-!
# Reading a line in two parts

A reader looks at one character after another, so what it has read so far only matters for what
comes next through the quote that is open and the backslash that waits. Where neither is the
case the reader is settled, and it reads on as if the line began there; only the places in its
flaws count from the true beginning.

Everything here is about texts that were read to a settled end. They can be put together, and
their lexemes are then put together as well.

## Main definitions

* `Reader.Settled` — no quote is open and no backslash waits
* `Reader.after` — a reader, seen from where another one stopped
* `Flaw.later` — a flaw, seen from further left
* `Reads` — a text is read into lexemes
* `ReadsInside` — a text between quotes is read into lexemes

## Main results

* `Reads.append` — texts that are put together are read one after the other
* `Reads.lexemes_append` — what follows a text is read as a line of its own
* `flatMap_source_of_lexemes` — lexemes keep every character of their line
-/

namespace Pipework.Line

/-- The flaw of a line, on a line that has more segments and characters in front. -/
def Flaw.later (segments characters : Nat) : Flaw → Flaw
  | openQuote mark segment position => openQuote mark (segments + segment) (characters + position)
  | strayPipe position => strayPipe (characters + position)
  | noCommand segment => noCommand (segments + segment)
  | emptyProgram segment => emptyProgram (segments + segment)
  | emptySegment segment position => emptySegment (segments + segment) (characters + position)

/-- The number of pipes among lexemes. -/
def countPipes (ls : List Lexeme) : Nat := ls.countP (·.atom == .pipe)

@[simp] theorem countPipes_append (ls ms : List Lexeme) :
    countPipes (ls ++ ms) = countPipes ls + countPipes ms := List.countP_append

@[simp] theorem countPipes_reverse (ls : List Lexeme) : countPipes ls.reverse = countPipes ls :=
  List.countP_reverse

namespace Reader

/-- The reader is between two lexemes, and outside quotes. -/
structure Settled (r : Reader) : Prop where
  quote_eq : r.quote = none
  escaping_eq : r.escaping = false

/-- A reader that began where another one stopped, with what both have read. -/
def after (r first : Reader) : Reader where
  position := first.position + r.position
  quote := r.quote.map fun opened => (opened.1, first.position + opened.2)
  escaping := r.escaping
  lexemes := r.lexemes ++ first.lexemes

/-- A settled reader is one that has just begun, seen from where it stands. -/
theorem Settled.eq_after {r : Reader} (h : r.Settled) : r = ({} : Reader).after r := by
  obtain ⟨position, quote, escaping, lexemes⟩ := r
  obtain ⟨rfl, rfl⟩ := h
  rfl

/-- Reading a character does not depend on what was read before the reader began. -/
theorem read_after (r first : Reader) (c : Char) :
    (r.after first).read c = (r.read c).after first := by
  -- Both sides ask the same questions of the character. Only an opening quote looks at a position,
  -- and there the two positions differ by the characters of the first reader.
  obtain ⟨position, quote, escaping, lexemes⟩ := r
  cases escaping with
  | true => rfl
  | false =>
    cases quote with
    | none =>
      by_cases hback : c == '\\'
      · simp [read, after, hback, Nat.add_assoc]
      · by_cases hmark : isMark c <;> simp [read, after, hback, hmark, Nat.add_assoc]
    | some opened =>
      obtain ⟨mark, opened⟩ := opened
      by_cases hback : c == '\\' && mark != '\''
      · simp [read, after, hback, Nat.add_assoc]
      · by_cases hmark : c == mark <;> simp [read, after, hback, hmark, Nat.add_assoc]

theorem readAll_after (r first : Reader) (cs : List Char) :
    (r.after first).readAll cs = (r.readAll cs).after first := by
  induction cs generalizing r with
  | nil => rfl
  | cons c cs ih => rw [readAll_cons, readAll_cons, read_after, ih]

theorem taken_after (r first : Reader) : (r.after first).taken = r.taken ++ first.lexemes := by
  cases hescaping : r.escaping <;> simp [taken, after, hescaping]

/-- A line that ends here has the lexemes that were read first in front, and its flaw counts
them in. -/
theorem finish_after (r first : Reader) :
    (r.after first).finish =
      (r.finish.map (first.lexemes.reverse ++ ·)).mapError
        (.later (countPipes first.lexemes) first.position) := by
  obtain ⟨position, quote, escaping, lexemes⟩ := r
  cases quote with
  | none =>
    simp only [finish, taken_after, List.reverse_append]
    rfl
  | some opened =>
    simp only [finish, after, List.countP_append, Nat.add_comm (List.countP _ lexemes)]
    rfl

/-- The reader has gone over as many characters as it has read. -/
theorem position_readAll (r : Reader) (cs : List Char) :
    (r.readAll cs).position = r.position + cs.length := by
  induction cs generalizing r with
  | nil => rfl
  | cons c cs ih =>
    have hstep : (r.read c).position = r.position + 1 := by
      unfold read
      repeat' split
      all_goals rfl
    rw [readAll_cons, ih, hstep, List.length_cons, Nat.add_right_comm, Nat.add_assoc]

/-- The characters behind the lexemes, if the line ended here. -/
def covered (r : Reader) : List Char := r.taken.reverse.flatMap (·.source)

theorem covered_read (r : Reader) (c : Char) : (r.read c).covered = r.covered ++ [c] := by
  obtain ⟨position, quote, escaping, lexemes⟩ := r
  cases escaping with
  | true => simp [covered, taken, read]
  | false =>
    cases quote with
    | none => by_cases hback : c = '\\' <;> simp [covered, taken, read, hback]
    | some opened =>
      obtain ⟨mark, opened⟩ := opened
      by_cases hback : c == '\\' && mark != '\''
      · -- The waiting backslash counts as the lexeme that it becomes if the line ends here.
        obtain ⟨hc, hmark⟩ := Bool.and_eq_true_iff.mp hback
        simp [covered, taken, read, eq_of_beq hc, hmark]
      · by_cases hmark : c == mark <;> simp [covered, taken, read, hback, hmark]

/-- No character is lost in reading. -/
theorem covered_readAll (r : Reader) (cs : List Char) :
    (r.readAll cs).covered = r.covered ++ cs := by
  induction cs generalizing r with
  | nil => rw [readAll_nil, List.append_nil]
  | cons c cs ih => rw [readAll_cons, ih, covered_read, List.append_assoc, List.singleton_append]

end Reader

/-- The lexemes of a line, put together again, are the line. -/
theorem flatMap_source_of_lexemes {cs : List Char} {ls : List Lexeme} (h : lexemes cs = .ok ls) :
    ls.flatMap (·.source) = cs := by
  have hcovered := Reader.covered_readAll {} cs
  unfold lexemes Reader.finish at h
  split at h
  · obtain rfl := Except.ok.inj h
    exact hcovered
  · cases h

/-- The text is read into these lexemes, and if it is not the end of the line then the reader is
settled afterwards. -/
structure Reads (final : Bool) (cs : List Char) (ls : List Lexeme) : Prop where
  lexemes_eq : lexemes cs = .ok ls
  settled : final = false → (({} : Reader).readAll cs).Settled

namespace Reads

variable {final : Bool} {xs ys cs : List Char} {ls ms : List Lexeme}

theorem nil : Reads final [] [] := ⟨rfl, fun _ => ⟨rfl, rfl⟩⟩

/-- What the reader has taken when it has read the text. -/
theorem lexemes_readAll (h : Reads false cs ls) :
    (({} : Reader).readAll cs).lexemes.reverse = ls := by
  have heq := h.lexemes_eq
  obtain ⟨hquote, hescaping⟩ := h.settled rfl
  simp only [lexemes, Reader.finish, hquote, Reader.taken, hescaping] at heq
  exact Except.ok.inj heq

/-- Reading on after a settled text is reading a line of its own. -/
theorem readAll_append (h : Reads false xs ls) (ys : List Char) :
    ({} : Reader).readAll (xs ++ ys) =
      (({} : Reader).readAll ys).after (({} : Reader).readAll xs) := by
  have hsettled := h.settled rfl
  rw [Reader.readAll_append, hsettled.eq_after, Reader.readAll_after, ← hsettled.eq_after]

/-- What follows a settled text is read as a line of its own, in its place. -/
theorem lexemes_append (h : Reads false xs ls) (ys : List Char) :
    lexemes (xs ++ ys) =
      ((lexemes ys).map (ls ++ ·)).mapError (.later (countPipes ls) xs.length) := by
  have hcount : countPipes (({} : Reader).readAll xs).lexemes = countPipes ls := by
    rw [← h.lexemes_readAll, countPipes_reverse]
  have hposition : (({} : Reader).readAll xs).position = xs.length := by
    rw [Reader.position_readAll, Nat.zero_add]
  unfold lexemes
  rw [h.readAll_append, Reader.finish_after, h.lexemes_readAll, hcount, hposition]

/-- Texts that are put together are read one after the other. -/
theorem append (h : Reads false xs ls) (h' : Reads final ys ms) :
    Reads final (xs ++ ys) (ls ++ ms) where
  lexemes_eq := by
    rw [h.lexemes_append, h'.lexemes_eq]
    rfl
  settled := by
    intro hfinal
    obtain ⟨hquote, hescaping⟩ := h'.settled hfinal
    rw [h.readAll_append]
    exact ⟨by simp [Reader.after, hquote], hescaping⟩

/-- The lexemes of a text, put together again, are the text. -/
theorem flatMap_source (h : Reads final cs ls) : ls.flatMap (·.source) = cs :=
  flatMap_source_of_lexemes h.lexemes_eq

/-- A character that is neither quote nor backslash is a lexeme of its own. -/
theorem bare {c : Char} (hmark : isMark c = false) (hback : c ≠ '\\') :
    Reads final [c] [⟨Reader.bareAtom c, [c]⟩] := by
  have hread : ({} : Reader).read c =
      { position := 1, lexemes := [⟨Reader.bareAtom c, [c]⟩] } := by
    simp [Reader.read, hmark, hback]
  refine ⟨?_, fun _ => ?_⟩
  · rw [lexemes, Reader.readAll_cons, Reader.readAll_nil, hread]
    rfl
  · rw [Reader.readAll_cons, Reader.readAll_nil, hread]
    exact ⟨rfl, rfl⟩

/-- A backslash with the character after it is one lexeme. -/
theorem escaped (c : Char) : Reads final ['\\', c] [⟨.char c, ['\\', c]⟩] :=
  ⟨rfl, fun _ => ⟨rfl, rfl⟩⟩

/-- A backslash at the end of the line stands for itself. -/
theorem backslash : Reads true ['\\'] [⟨.char '\\', ['\\']⟩] :=
  ⟨rfl, fun h => absurd h.symm Bool.false_ne_true⟩

end Reads

/-! ### Between quotes -/

/-- Between quotes of the kind, the text is read into these lexemes and leaves the quote open. -/
def ReadsInside (mark : Char) (body : List Char) (ls : List Lexeme) : Prop :=
  ∀ (r : Reader) (opened : Nat), r.quote = some (mark, opened) → r.escaping = false →
    r.readAll body =
      { r with position := r.position + body.length, lexemes := ls.reverse ++ r.lexemes }

namespace ReadsInside

variable {final : Bool} {mark c : Char} {body : List Char} {ls : List Lexeme}

theorem nil : ReadsInside mark [] [] := fun _ _ _ _ => rfl

/-- A character that means nothing special between the quotes means itself. -/
theorem cons (hmark : c ≠ mark) (hback : c ≠ '\\' ∨ mark = '\'') (h : ReadsInside mark body ls) :
    ReadsInside mark (c :: body) (⟨.char c, [c]⟩ :: ls) := by
  intro r opened hquote hescaping
  have hspecial : (c == '\\' && mark != '\'') = false := by
    rcases hback with hback | rfl
    · rw [beq_false_of_ne hback, Bool.false_and]
    · exact Bool.and_false _
  let next : Reader :=
    { r with position := r.position + 1, lexemes := ⟨.char c, [c]⟩ :: r.lexemes }
  have hread : r.read c = next := by
    simp [next, Reader.read, hquote, hescaping, hspecial, hmark]
  rw [Reader.readAll_cons, hread, h next opened hquote hescaping]
  simp [next, Nat.add_assoc, Nat.add_comm 1]

/-- A backslash makes the next character mean itself, except between single quotes. -/
theorem escaped (hmark : mark ≠ '\'') (h : ReadsInside mark body ls) :
    ReadsInside mark ('\\' :: c :: body) (⟨.char c, ['\\', c]⟩ :: ls) := by
  intro r opened hquote hescaping
  let next : Reader :=
    { r with position := r.position + 1 + 1, lexemes := ⟨.char c, ['\\', c]⟩ :: r.lexemes }
  have hread : (r.read '\\').read c = next := by
    simp [next, Reader.read, hquote, hescaping, hmark]
  rw [Reader.readAll_cons, Reader.readAll_cons, hread, h next opened hquote hescaping]
  simp [next, Nat.add_assoc, Nat.add_comm 2]

/-- The reader behind an opening quote and the text after it. -/
theorem readAll_opened (hmark : isMark mark = true) (h : ReadsInside mark body ls) :
    ({} : Reader).readAll (mark :: body) =
      { position := 1 + body.length, quote := some (mark, 0)
        lexemes := ls.reverse ++ [⟨.mark, [mark]⟩] } := by
  have hback : mark ≠ '\\' := by
    rintro rfl
    exact absurd hmark (by decide)
  have hread : ({} : Reader).read mark =
      { position := 1, quote := some (mark, 0), lexemes := [⟨.mark, [mark]⟩] } := by
    simp [Reader.read, Reader.bareAtom, hmark, hback]
  rw [Reader.readAll_cons, hread, h _ 0 rfl rfl]

/-- A text in quotes is read with the two quotes around it. -/
theorem reads (hmark : isMark mark = true) (h : ReadsInside mark body ls) :
    Reads final (mark :: body ++ [mark]) (⟨.mark, [mark]⟩ :: ls ++ [⟨.mark, [mark]⟩]) := by
  have hback : mark ≠ '\\' := by
    rintro rfl
    exact absurd hmark (by decide)
  have hread : ({} : Reader).readAll (mark :: body ++ [mark]) =
      { position := 1 + body.length + 1
        lexemes := ⟨.mark, [mark]⟩ :: (ls.reverse ++ [⟨.mark, [mark]⟩]) } := by
    rw [Reader.readAll_append, h.readAll_opened hmark]
    simp [Reader.read, hback]
  refine ⟨?_, fun _ => ?_⟩
  · rw [lexemes, hread]
    simp [Reader.finish, Reader.taken]
  · rw [hread]
    exact ⟨rfl, rfl⟩

/-- A line that ends between quotes points at the one that is open. -/
theorem lexemes_opened (hmark : isMark mark = true) (h : ReadsInside mark body ls)
    (hpipes : countPipes ls = 0) : lexemes (mark :: body) = .error (.openQuote mark 0 0) := by
  have hcount : countPipes (ls.reverse ++ [⟨.mark, [mark]⟩]) = 0 := by
    rw [countPipes_append, countPipes_reverse, hpipes]
    rfl
  rw [lexemes, h.readAll_opened hmark]
  simp only [Reader.finish]
  exact congrArg (fun n => Except.error (Flaw.openQuote mark n 0)) hcount

/-- A backslash at the end of the line does not close the quote either. -/
theorem lexemes_opened_backslash (hmark : isMark mark = true) (hsingle : mark ≠ '\'')
    (h : ReadsInside mark body ls) (hpipes : countPipes ls = 0) :
    lexemes (mark :: body ++ ['\\']) = .error (.openQuote mark 0 0) := by
  have hread : ({} : Reader).readAll (mark :: body ++ ['\\']) =
      { ({} : Reader).readAll (mark :: body) with
        position := 1 + body.length + 1, escaping := true } := by
    rw [Reader.readAll_append, h.readAll_opened hmark]
    simp [Reader.read, hsingle]
  -- The flaw does not depend on the backslash that waits, so it is that of the line without it.
  have hopened := h.lexemes_opened hmark hpipes
  rw [lexemes, h.readAll_opened hmark] at hopened
  rw [lexemes, hread, h.readAll_opened hmark]
  exact hopened

end ReadsInside

end Pipework.Line
