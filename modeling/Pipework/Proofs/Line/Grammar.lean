import Pipework.Text.Blank

/-!
# The grammar of lines

What a line means, said without reading it. A line is parts with pipes between them. A part is
words with blanks between them, and more blanks may stand around them. A word is pieces that
touch, at least one, and each piece is a character that means itself, a character after a
backslash, or a pair of quotes with what they group. A backslash with nothing after it means
itself, so it is a piece only where the line ends.

Each relation holds of a text and what the text means. Where it matters whether the line ends
with the text, the relation is told by the flag `final`.

## Main definitions

* `Grammar.DoubleBody` — what may stand between double quotes
* `Grammar.Piece`, `Grammar.Word`, `Grammar.Words`, `Grammar.Parts` — the levels of the grammar
* `Grammar.Derives` — a line with the texts and the words of its parts
* `Grammar.StaysOpen` — a text that does not close the quote it stands in
* `Grammar.Unfinished` — a line that ends inside a quote

## Main results

* `Grammar.Parts.prepend` — a piece in front of a line makes a line
* `Grammar.Parts.words_of_mem` — a part of a line, cut out, is a line with one part
* `Grammar.beginning` — the ways in which a text can begin
-/

namespace Pipework.Line.Grammar

/-- What stands between double quotes: a backslash makes the next character mean itself. -/
inductive DoubleBody : List Char → List Char → Prop where
  | nil : DoubleBody [] []
  | plain {c : Char} {text meaning : List Char} : c ≠ '"' → c ≠ '\\' →
      DoubleBody text meaning → DoubleBody (c :: text) (c :: meaning)
  | escaped {c : Char} {text meaning : List Char} :
      DoubleBody text meaning → DoubleBody ('\\' :: c :: text) (c :: meaning)

/-- A piece of a word. -/
inductive Piece (final : Bool) : List Char → List Char → Prop where
  | plain {c : Char} : Text.isBlank c = false → c ∉ ['|', '\'', '"', '\\'] → Piece final [c] [c]
  | escaped (c : Char) : Piece final ['\\', c] [c]
  /-- A backslash is nothing special between single quotes. -/
  | single {body : List Char} : '\'' ∉ body → Piece final ('\'' :: body ++ ['\'']) body
  | double {body meaning : List Char} : DoubleBody body meaning →
      Piece final ('"' :: body ++ ['"']) meaning
  /-- The line ends, so there is nothing for the backslash to escape. -/
  | backslash : final = true → Piece final ['\\'] ['\\']

/-- A word: pieces that touch, only the last of which the line may end with. -/
inductive Word (final : Bool) : List Char → List Char → Prop where
  | one {text meaning : List Char} : Piece final text meaning → Word final text meaning
  | more {text meaning rest further : List Char} : Piece false text meaning →
      Word final rest further → Word final (text ++ rest) (meaning ++ further)

/-- Words with blanks between them, and perhaps around them. -/
inductive Words (final : Bool) : List Char → List (List Char) → Prop where
  | nil : Words final [] []
  | blank {c : Char} {text : List Char} {words : List (List Char)} : Text.isBlank c = true →
      Words final text words → Words final (c :: text) words
  | last {text meaning : List Char} : Word final text meaning → Words final text [meaning]
  | more {c : Char} {text meaning rest : List Char} {words : List (List Char)} :
      Word false text meaning → Text.isBlank c = true → Words final rest words →
      Words final (text ++ c :: rest) (meaning :: words)

/-- The parts of a line, each with its words. -/
inductive Parts : List Char → List (List Char × List (List Char)) → Prop where
  | last {text : List Char} {words : List (List Char)} : Words true text words →
      Parts text [(text, words)]
  | more {text rest : List Char} {words : List (List Char)}
      {parts : List (List Char × List (List Char))} : Words false text words →
      Parts rest parts → Parts (text ++ '|' :: rest) ((text, words) :: parts)

/-- The line has parts with these texts and these words. -/
def Derives (line : String) (texts : List String) (words : List (List String)) : Prop :=
  ∃ parts, Parts line.toList parts ∧ texts = parts.map (fun part => .ofList part.1) ∧
    words = parts.map fun part => part.2.map .ofList

/-- A text that does not close the quote it stands in. After a double quote it may end in a
backslash, which then means itself but closes nothing. -/
inductive StaysOpen : Char → List Char → Prop where
  | single {text : List Char} : '\'' ∉ text → StaysOpen '\'' text
  | double {text meaning : List Char} : DoubleBody text meaning → StaysOpen '"' text
  | doubleBackslash {text meaning : List Char} : DoubleBody text meaning →
      StaysOpen '"' (text ++ ['\\'])

/-- The line ends inside a quote: which one, in which part it was opened, and at which position.
What stands before the quote is as the grammar has it. -/
inductive Unfinished : List Char → Char → Nat → Nat → Prop where
  | here {text rest : List Char} {words : List (List Char)} {mark : Char} :
      Words false text words → StaysOpen mark rest →
      Unfinished (text ++ mark :: rest) mark 0 text.length
  | later {text rest : List Char} {words : List (List Char)} {mark : Char}
      {segment position : Nat} : Words false text words → Unfinished rest mark segment position →
      Unfinished (text ++ '|' :: rest) mark (segment + 1) (text.length + 1 + position)

/-! ### A text in front of another -/

variable {final : Bool} {text meaning rest : List Char}

/-- A piece that can be followed by more may also be the last. -/
theorem Piece.mono (h : Piece false text meaning) : Piece final text meaning := by
  cases h with
  | plain hblank hspecial => exact .plain hblank hspecial
  | escaped c => exact .escaped c
  | single hbody => exact .single hbody
  | double hbody => exact .double hbody
  | backslash hfinal => exact absurd hfinal Bool.false_ne_true

theorem Word.mono (h : Word false text meaning) : Word final text meaning := by
  induction h with
  | one hpiece => exact .one hpiece.mono
  | more hpiece _ ih => exact .more hpiece ih

theorem Words.mono {words : List (List Char)} (h : Words false text words) :
    Words final text words := by
  induction h with
  | nil => exact .nil
  | blank hblank _ ih => exact .blank hblank ih
  | last hword => exact .last hword.mono
  | more hword hblank _ ih => exact .more hword hblank ih

/-- A piece in front of words joins the first of them, or is a word of its own. -/
theorem Words.prepend {words : List (List Char)} (hpiece : Piece false text meaning)
    (h : Words final rest words) : ∃ words', Words final (text ++ rest) words' := by
  cases h with
  | nil =>
    rw [List.append_nil]
    exact ⟨_, .last (.one hpiece.mono)⟩
  | blank hblank hwords => exact ⟨_, .more (.one hpiece) hblank hwords⟩
  | last hword => exact ⟨_, .last (.more hpiece hword)⟩
  | more hword hblank hwords =>
    rw [← List.append_assoc]
    exact ⟨_, .more (.more hpiece hword) hblank hwords⟩

/-- A piece in front of a line makes a line. -/
theorem Parts.prepend {parts : List (List Char × List (List Char))}
    (hpiece : Piece false text meaning) (h : Parts rest parts) :
    ∃ parts', Parts (text ++ rest) parts' := by
  cases h with
  | last hwords =>
    obtain ⟨words', hwords'⟩ := hwords.prepend hpiece
    exact ⟨_, .last hwords'⟩
  | more hwords hparts =>
    obtain ⟨words', hwords'⟩ := hwords.prepend hpiece
    rw [← List.append_assoc]
    exact ⟨_, .more hwords' hparts⟩

/-- A blank in front of a line makes a line with the same words. -/
theorem Parts.prepend_blank {c : Char} {parts : List (List Char × List (List Char))}
    (hblank : Text.isBlank c = true) (h : Parts rest parts) :
    ∃ parts', Parts (c :: rest) parts' ∧ parts'.map (·.2) = parts.map (·.2) := by
  cases h with
  | last hwords => exact ⟨_, .last (.blank hblank hwords), rfl⟩
  | more hwords hparts =>
    rw [← List.cons_append]
    exact ⟨_, .more (.blank hblank hwords) hparts, rfl⟩

/-- A piece in front of a line that ends inside a quote moves the quote. -/
theorem Unfinished.prepend {mark : Char} {segment position : Nat}
    (hpiece : Piece false text meaning) (h : Unfinished rest mark segment position) :
    Unfinished (text ++ rest) mark segment (text.length + position) := by
  cases h with
  | here hwords hopen =>
    obtain ⟨words', hwords'⟩ := hwords.prepend hpiece
    rw [← List.append_assoc, ← List.length_append]
    exact .here hwords' hopen
  | later hwords hrest =>
    obtain ⟨words', hwords'⟩ := hwords.prepend hpiece
    rw [← List.append_assoc, ← Nat.add_assoc, ← Nat.add_assoc, ← List.length_append]
    exact .later hwords' hrest

theorem Unfinished.prepend_blank {c mark : Char} {segment position : Nat}
    (hblank : Text.isBlank c = true) (h : Unfinished rest mark segment position) :
    Unfinished (c :: rest) mark segment (position + 1) := by
  cases h with
  | here hwords hopen =>
    rw [← List.cons_append, ← List.length_cons (a := c)]
    exact .here (.blank hblank hwords) hopen
  | @later text rest words _ segment position hwords hrest =>
    have hlength : text.length + 1 + position + 1 = (c :: text).length + 1 + position := by
      rw [List.length_cons]
      omega
    rw [← List.cons_append, hlength]
    exact .later (.blank hblank hwords) hrest

/-- A blank between two texts separates their words. -/
theorem Words.append {c : Char} {words more : List (List Char)} (h : Words false text words)
    (hblank : Text.isBlank c = true) (h' : Words final rest more) :
    Words final (text ++ c :: rest) (words ++ more) := by
  induction h with
  | nil => exact .blank hblank h'
  | blank hfirst _ ih => exact .blank hfirst ih
  | last hword => exact .more hword hblank h'
  | more hword hfirst _ ih =>
    rw [List.append_assoc, List.cons_append]
    exact .more hword hfirst ih

/-- A blank after words does not belong to any of them. -/
theorem Words.append_blank {c : Char} {words : List (List Char)} (hblank : Text.isBlank c = true)
    (h : Words false text words) : Words final (text ++ [c]) words := by
  simpa using h.append hblank .nil

/-- A line has a part, though that may be empty. -/
theorem Parts.ne_nil {parts : List (List Char × List (List Char))} (h : Parts text parts) :
    parts ≠ [] := by
  cases h <;> exact List.cons_ne_nil _ _

/-- A part of a line, cut out, has the same words. -/
theorem Parts.words_of_mem {parts : List (List Char × List (List Char))} (h : Parts text parts)
    {part : List Char × List (List Char)} (hmem : part ∈ parts) : Words true part.1 part.2 := by
  induction h with
  | last hwords =>
    obtain rfl := List.mem_singleton.mp hmem
    exact hwords
  | more hwords _ ih =>
    rcases List.mem_cons.mp hmem with rfl | hlater
    · exact hwords.mono
    · exact ih hlater

/-! ### How a text begins -/

/-- What a text begins with: the left-hand side of every step through a line. -/
inductive Beginning : List Char → Prop where
  | nil : Beginning []
  | blank {c : Char} (rest : List Char) : Text.isBlank c = true → Beginning (c :: rest)
  | pipe (rest : List Char) : Beginning ('|' :: rest)
  | piece {text meaning : List Char} (rest : List Char) : Piece false text meaning →
      Beginning (text ++ rest)
  | backslash : Beginning ['\\']
  | staysOpen {mark : Char} {rest : List Char} : StaysOpen mark rest → Beginning (mark :: rest)

/-- A text after a single quote closes it somewhere, or not at all. -/
theorem closes_single_or_staysOpen (rest : List Char) :
    (∃ body later, '\'' ∉ body ∧ rest = body ++ '\'' :: later) ∨ StaysOpen '\'' rest := by
  by_cases hmem : '\'' ∈ rest
  · obtain ⟨body, later, hrest, hbody⟩ := List.eq_append_cons_of_mem hmem
    exact .inl ⟨body, later, hbody, hrest⟩
  · exact .inr (.single hmem)

theorem StaysOpen.cons_plain {c : Char} {rest : List Char} (hmark : c ≠ '"') (hback : c ≠ '\\')
    (h : StaysOpen '"' rest) : StaysOpen '"' (c :: rest) := by
  cases h with
  | double hbody => exact .double (.plain hmark hback hbody)
  | doubleBackslash hbody => exact .doubleBackslash (.plain hmark hback hbody)

theorem StaysOpen.cons_escaped {rest : List Char} (c : Char) (h : StaysOpen '"' rest) :
    StaysOpen '"' ('\\' :: c :: rest) := by
  cases h with
  | double hbody => exact .double (.escaped hbody)
  | doubleBackslash hbody => exact .doubleBackslash (.escaped hbody)

/-- A text after a double quote closes it somewhere, or not at all. -/
theorem closes_double_or_staysOpen (rest : List Char) :
    (∃ body meaning later, DoubleBody body meaning ∧ rest = body ++ '"' :: later) ∨
      StaysOpen '"' rest := by
  match rest with
  | [] => exact .inr (.double .nil)
  | c :: rest =>
    by_cases hmark : c = '"'
    · exact .inl ⟨[], [], rest, .nil, by rw [hmark, List.nil_append]⟩
    by_cases hback : c = '\\'
    · -- A backslash takes the next character with it, so a quote after it closes nothing.
      subst hback
      match rest with
      | [] => exact .inr (.doubleBackslash .nil)
      | d :: rest =>
        rcases closes_double_or_staysOpen rest with ⟨body, meaning, later, hbody, rfl⟩ | hopen
        · exact .inl ⟨_, _, later, .escaped hbody, rfl⟩
        · exact .inr (hopen.cons_escaped d)
    · rcases closes_double_or_staysOpen rest with ⟨body, meaning, later, hbody, rfl⟩ | hopen
      · exact .inl ⟨_, _, later, .plain hmark hback hbody, rfl⟩
      · exact .inr (hopen.cons_plain hmark hback)

/-- Every text begins in one of these ways. -/
theorem beginning (cs : List Char) : Beginning cs := by
  match cs with
  | [] => exact .nil
  | c :: rest =>
    by_cases hsingle : c = '\''
    · subst hsingle
      rcases closes_single_or_staysOpen rest with ⟨body, later, hbody, rfl⟩ | hopen
      · have hpiece := Beginning.piece later (.single hbody)
        rwa [List.append_assoc] at hpiece
      · exact .staysOpen hopen
    by_cases hdouble : c = '"'
    · subst hdouble
      rcases closes_double_or_staysOpen rest with ⟨body, meaning, later, hbody, rfl⟩ | hopen
      · have hpiece := Beginning.piece later (.double hbody)
        rwa [List.append_assoc] at hpiece
      · exact .staysOpen hopen
    by_cases hback : c = '\\'
    · subst hback
      match rest with
      | [] => exact .backslash
      | d :: rest => exact .piece rest (.escaped d)
    by_cases hpipe : c = '|'
    · subst hpipe
      exact .pipe rest
    cases hblank : Text.isBlank c with
    | true => exact .blank rest hblank
    | false => exact .piece rest (.plain hblank (by simp [hpipe, hsingle, hdouble, hback]))

end Pipework.Line.Grammar
