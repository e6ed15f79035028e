import Pipework.Text.Utf8

/-!
# Decoding bytes to text

Bytes are decoded with a codec, and a policy says what happens to ill-formed parts: they
are refused, replaced by U+FFFD, one for each, or left out.

## Main definitions

* `Codec`, `Policy` — how bytes are read, and what happens to ill-formed parts
* `DecodeError` — why bytes were not decoded
* `decode` — the text of bytes
* `decodeNamed` — the same, codec and policy given by their names
-/

namespace Pipework.Text

/-- How bytes are read as characters. -/
inductive Codec where
  | utf8
  | ascii
  | latin1
  deriving Repr, DecidableEq

namespace Codec

/-- The name of the codec. -/
def name : Codec → String
  | utf8 => "utf-8"
  | ascii => "ascii"
  | latin1 => "latin-1"

/-- The codec of that name. -/
def ofName? (s : String) : Option Codec := [utf8, ascii, latin1].find? (·.name == s)

/-- The piece that bytes begin with. -/
def firstPiece (codec : Codec) (first : UInt8) (rest : Bytes) : Piece :=
  match codec with
  | utf8 => Utf8.firstPiece first rest
  | ascii =>
    if first.toNat < 0x80 then ⟨0, .ok (Char.ofNat first.toNat)⟩ else ⟨0, .error .range⟩
  | latin1 => ⟨0, .ok (Char.ofNat first.toNat)⟩

end Codec

/-- What happens to ill-formed parts. A policy that nobody knows does no harm until it is
needed. -/
inductive Policy where
  | strict
  | replace
  | ignore
  | unknown (name : String)
  deriving Repr, DecidableEq

/-- The policy of that name. -/
def Policy.ofName (s : String) : Policy :=
  if s == "strict" then strict
  else if s == "replace" then replace
  else if s == "ignore" then ignore
  else unknown s

/-- Why bytes were not decoded. -/
inductive DecodeError where
  | unknownCodec (name : String)
  | unknownPolicy (name : String)
  /-- The part that begins with the byte at `start` and has `further` bytes more. -/
  | illFormed (codec : Codec) (reason : IllFormed) (first : UInt8) (start further : Nat)
  deriving Repr, DecidableEq

/-- Decodes bytes; `start` counts the bytes before them, and `done` holds the characters of
those, newest first. -/
def decodeFrom (codec : Codec) (policy : Policy) (start : Nat) (done : List Char) :
    Bytes → Except DecodeError String
  | [] => .ok (.ofList done.reverse)
  | b :: bs =>
    let piece := codec.firstPiece b bs
    let continueWith := fun done =>
      decodeFrom codec policy (start + piece.further + 1) done (bs.drop piece.further)
    match piece.content with
    | .ok c => continueWith (c :: done)
    | .error reason =>
      match policy with
      | .strict => .error (.illFormed codec reason b start piece.further)
      | .replace => continueWith ('\uFFFD' :: done)
      | .ignore => continueWith done
      | .unknown name => .error (.unknownPolicy name)
termination_by bytes => bytes.length
decreasing_by all_goals (simp only [List.length_drop, List.length_cons]; omega)

/-- The text of bytes. -/
def decode (codec : Codec) (policy : Policy) (bytes : Bytes) : Except DecodeError String :=
  decodeFrom codec policy 0 [] bytes

/-- The text of bytes, codec and policy given by their names. No bytes need no codec. -/
def decodeNamed (codec policy : String) (bytes : Bytes) : Except DecodeError String :=
  if bytes.isEmpty then .ok ""
  else
    match Codec.ofName? codec with
    | some c => decode c (.ofName policy) bytes
    | none => .error (.unknownCodec codec)

end Pipework.Text
