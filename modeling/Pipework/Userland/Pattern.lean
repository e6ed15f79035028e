import Pipework.Userland.Characters

/-!
# Patterns

Patterns describe pieces of text. They are written in two forms, basic and extended, which
differ in whether a mark needs a backslash to be special. Matching finds all ends of a match
at a place, so that the longest one can be taken.

## Main definitions

* `Pattern` — what a piece of text can look like
* `Pattern.ends` — where matches at a place can end
* `Pattern.read` — the pattern that a text describes
* `Pattern.firstMatch?` — the leftmost, longest match
-/

namespace Pipework.Userland

/-- What a piece of text can look like. -/
inductive Pattern where
  | empty
  | char (accepts : Char → Bool)
  | lineStart
  | lineEnd
  | both (first second : Pattern)
  | either (first second : Pattern)
  /-- So many times at least, and at most if there is a limit. -/
  | times (least : Nat) (most : Option Nat) (p : Pattern)

namespace Pattern

/-- Places without repetition. -/
def distinct (places : List Nat) : List Nat :=
  places.foldl (fun seen place => if seen.contains place then seen else seen ++ [place]) []

/-- Places that are reached in at most so many further steps. -/
def reach (step : Nat → List Nat) : Nat → List Nat → List Nat
  | 0, places => places
  | n + 1, places =>
    let further := distinct (places ++ places.flatMap step)
    if further.length == places.length then places else reach step n further

/-- Places that are reached in exactly so many steps. -/
def advance (step : Nat → List Nat) : Nat → List Nat → List Nat
  | 0, places => places
  | n + 1, places => advance step n (distinct (places.flatMap step))

/-- Where matches that begin at a place can end. -/
def ends (text : Array Char) : Pattern → Nat → List Nat
  | empty, place => [place]
  | char accepts, place =>
    match text[place]? with
    | some c => if accepts c then [place + 1] else []
    | none => []
  | lineStart, place => if place == 0 then [place] else []
  | lineEnd, place => if place == text.size then [place] else []
  | both first second, place => distinct ((first.ends text place).flatMap (second.ends text))
  | either first second, place => distinct (first.ends text place ++ second.ends text place)
  | times least most p, place =>
    let further := match most with
      | some n => n - least
      | none => text.size + 1
    reach (p.ends text) further (advance (p.ends text) least [place])

/-- The longest match that begins at a place. -/
def longest? (p : Pattern) (text : Array Char) (place : Nat) : Option Nat :=
  (p.ends text place).max?

/-- The leftmost match from a place on, and of those the longest; the number bounds how many places
are tried. -/
def firstMatchFrom (p : Pattern) (text : Array Char) : Nat → Nat → Option (Nat × Nat)
  | 0, _ => none
  | fuel + 1, place =>
    match p.longest? text place with
    | some stop => some (place, stop)
    | none => firstMatchFrom p text fuel (place + 1)

/-- The leftmost match from a place on, and of those the longest. -/
def firstMatch? (p : Pattern) (text : Array Char) (place : Nat) : Option (Nat × Nat) :=
  p.firstMatchFrom text (text.size + 1 - place) place

/-- All matches that are not empty and do not overlap, from a place on; the number bounds how many
are looked for. -/
def matchesFrom (p : Pattern) (text : Array Char) : Nat → Nat → List (Nat × Nat)
  | 0, _ => []
  | fuel + 1, place =>
    match p.firstMatch? text place with
    | none => []
    | some (start, stop) =>
      if stop ≤ start then p.matchesFrom text fuel (start + 1)
      else (start, stop) :: p.matchesFrom text fuel stop

/-- The marks of a pattern, whichever form it is written in. -/
inductive Mark where
  | single (accepts : Char → Bool)
  | repeated (least : Nat) (most : Option Nat)
  | opened
  | closed
  | alternative
  | lineStart
  | lineEnd

/-- A letter, a digit or an underscore. -/
def isWordChar (c : Char) : Bool := c.isAlphanum || c == '_'

/-- The character is a space of ASCII. -/
def isSpaceChar (c : Char) : Bool := c == ' ' || ('\t' ≤ c && c ≤ '\r')

/-- What a letter behind a backslash accepts. -/
def letterClass? : Char → Option (Char → Bool)
  | 'w' => some isWordChar
  | 'W' => some (!isWordChar ·)
  | 's' => some isSpaceChar
  | 'S' => some (!isSpaceChar ·)
  | _ => none

/-- Reads the members of a bracket, up to its end; the number bounds how many are read. -/
def readMembers : Nat → Bool → List Char → Option ((Char → Bool) × List Char)
  | 0, _, _ => none
  | _, _, [] => none
  | fuel + 1, first, c :: cs =>
    if c == ']' && !first then some (fun _ => false, cs)
    else
      let after (accepts : Char → Bool) (rest : List Char) :=
        (readMembers fuel false rest).map fun (others, rest) =>
          ((fun d => accepts d || others d), rest)
      match c, cs with
      | '[', ':' :: rest =>
        let name := rest.takeWhile (· != ':')
        match characterClass? (.ofList name), rest.dropWhile (· != ':') with
        | some p, ':' :: ']' :: rest =>
          after (fun d => d.toNat < 128 && p (UInt8.ofNat d.toNat)) rest
        | _, _ => none
      | low, '-' :: high :: rest =>
        if high == ']' then after (· == low) ('-' :: high :: rest)
        else after (fun d => low ≤ d && d ≤ high) rest
      | c, cs => after (· == c) cs

/-- Reads a bracket behind its opening mark. -/
def readBracket (cs : List Char) : Option ((Char → Bool) × List Char) :=
  match cs with
  | '^' :: rest => (readMembers (cs.length + 1) true rest).map fun (p, rest) => ((!p ·), rest)
  | _ => readMembers (cs.length + 1) true cs

/-- Reads how often something is repeated, behind the opening brace: the least, the most, and what
follows the closing one. -/
def readBounds (cs : List Char) : Option (Nat × Option Nat × List Char) :=
  let least := number? (cs.takeWhile Char.isDigit)
  match least, cs.dropWhile Char.isDigit with
  | some n, '}' :: rest => some (n, some n, rest)
  | least, ',' :: rest =>
    match rest.takeWhile Char.isDigit, rest.dropWhile Char.isDigit with
    | [], '}' :: rest => some (least.getD 0, none, rest)
    | digits, '}' :: rest => some (least.getD 0, number? digits, rest)
    | _, _ => none
  | _, _ => none

/-- The mark that a character makes where it is special. -/
def specialMark? : Char → Option Mark
  | '(' => some .opened
  | ')' => some .closed
  | '|' => some .alternative
  | '+' => some (.repeated 1 none)
  | '?' => some (.repeated 0 (some 1))
  | _ => none

/-- Reads the marks of a pattern, extended or basic; `first` tells whether something may begin
here, and the number bounds how many marks are read. -/
def readMarks (extended : Bool) : Nat → Bool → List Char → Except String (List Mark)
  | 0, _, _ => .ok []
  | _, _, [] => .ok []
  | fuel + 1, first, c :: cs => do
    let single (c : Char) : Mark := .single (· == c)
    let goOn (m : Mark) (first : Bool) (cs : List Char) : Except String (List Mark) :=
      return m :: (← readMarks extended fuel first cs)
    let bounds (cs : List Char) : Except String (List Mark) :=
      match readBounds cs with
      | some (least, most, rest) => goOn (.repeated least most) false rest
      | none => goOn (single '{') false cs
    match c, cs with
    | '\\', [] => throw "Trailing backslash"
    | '\\', d :: rest =>
      match letterClass? d, if extended then none else specialMark? d with
      | some p, _ => goOn (.single p) false rest
      | none, some m => goOn m (d == '(' || d == '|') rest
      | none, none =>
        if d == '{' && !extended then
          -- the closing brace of a basic pattern has a backslash too
          let inside := rest.takeWhile (· != '\\')
          bounds (inside ++ '}' :: (rest.drop (inside.length + 2)))
        else goOn (single d) false rest
    | '.', _ => goOn (.single fun _ => true) false cs
    | '[', _ =>
      match readBracket cs with
      | some (p, rest) => goOn (.single p) false rest
      | none => throw "Invalid regular expression"
    | '*', _ => if first then goOn (single c) false cs else goOn (.repeated 0 none) false cs
    | '^', _ => if extended || first then goOn .lineStart true cs else goOn (single c) false cs
    | '$', _ => if extended || cs.isEmpty then goOn .lineEnd false cs else goOn (single c) false cs
    | '{', _ => if extended && !first then bounds cs else goOn (single c) false cs
    | _, _ =>
      match if extended then specialMark? c else none with
      | some m => goOn m (c == '(' || c == '|') cs
      | none => goOn (single c) false cs

/-- A group that is being put together: its finished alternatives, and the parts of the one under
way, newest first. -/
structure Group where
  alternatives : List Pattern := []
  parts : List Pattern := []

/-- The pattern of the alternative under way. -/
def Group.current (g : Group) : Pattern := g.parts.foldl (fun later p => .both p later) .empty

/-- The pattern of a group. -/
def Group.pattern (g : Group) : Pattern :=
  g.alternatives.foldl (fun later p => .either p later) g.current

/-- A group with one more part. -/
def Group.push (g : Group) (p : Pattern) : Group := { g with parts := p :: g.parts }

/-- Puts a mark into the innermost of the open groups. In an extended pattern a closing mark means
itself where no group is open. -/
def assemble (extended : Bool) (groups : List Group) : Mark → Except String (List Group)
  | .opened => .ok ({} :: groups)
  | .closed =>
    match groups with
    | inner :: outer :: rest => .ok (outer.push inner.pattern :: rest)
    | _ => if extended then .ok (add (.char (· == ')'))) else .error "Unmatched ) or \\)"
  | .alternative =>
    match groups with
    | g :: rest => .ok ({ alternatives := g.current :: g.alternatives } :: rest)
    | [] => .ok []
  | .repeated least most =>
    match groups with
    | { alternatives, parts := p :: parts } :: rest =>
      .ok ({ alternatives, parts := .times least most p :: parts } :: rest)
    | groups => .ok groups
  | .single accepts => .ok (add (.char accepts))
  | .lineStart => .ok (add .lineStart)
  | .lineEnd => .ok (add .lineEnd)
where
  /-- The groups with a part put into the innermost. -/
  add (p : Pattern) : List Group :=
    match groups with
    | g :: rest => g.push p :: rest
    | [] => [({} : Group).push p]

/-- The pattern that a text describes, extended or basic. -/
def read (extended : Bool) (s : String) : Except String Pattern := do
  let marks ← readMarks extended (s.length + 1) true s.toList
  match ← marks.foldlM (assemble extended) [{}] with
  | [g] => return g.pattern
  | _ => throw "Unmatched ( or \\("

/-- The pattern of a text that means itself. -/
def literally (s : String) : Pattern :=
  s.toList.foldr (fun c later => .both (.char (· == c)) later) .empty

end Pattern

end Pipework.Userland
