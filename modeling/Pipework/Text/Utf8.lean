/-!
# UTF-8

Bytes are read as UTF-8 piece by piece. A piece is either a whole character or a maximal
ill-formed part: the longest run of bytes that begins some character and is not followed by
a byte that could continue it, or a single byte that begins none.

## Main definitions

* `Bytes` — a sequence of bytes
* `IllFormed` — why a part of the bytes is no character
* `Piece` — a character or an ill-formed part, with its length
* `Utf8.firstPiece` — the piece that bytes begin with
* `Utf8.encode` — the bytes of a text

## Main results

* `Utf8.encode_inj` — no two texts have the same bytes
-/

namespace Pipework

/-- A sequence of bytes. -/
abbrev Bytes := List UInt8

namespace Text

/-- Why a part of the bytes is no character. -/
inductive IllFormed where
  /-- No character begins with this byte. -/
  | start
  /-- The byte after the part does not continue the character that the part begins. -/
  | continuation
  /-- The bytes end inside a character. -/
  | ending
  /-- The byte is no ASCII character. -/
  | range
  deriving Repr, DecidableEq

/-- A character or an ill-formed part, with the number of its bytes after the first. -/
structure Piece where
  further : Nat
  content : Except IllFormed Char

namespace Utf8

/-- Reads the continuation bytes of a character: `wanted` of them are still to come, `code` is
the value so far, and the next of them lies between `low` and `high`. -/
def continueFrom (wanted code low high further : Nat) : Bytes → Piece
  | [] =>
    match wanted with
    | 0 => ⟨further, .ok (Char.ofNat code)⟩
    | _ + 1 => ⟨further, .error .ending⟩
  | b :: bs =>
    match wanted with
    | 0 => ⟨further, .ok (Char.ofNat code)⟩
    | wanted + 1 =>
      if low ≤ b.toNat && b.toNat ≤ high then
        continueFrom wanted (code * 64 + (b.toNat - 0x80)) 0x80 0xBF (further + 1) bs
      else ⟨further, .error .continuation⟩

/-- The piece that bytes begin with, given the first byte and the others. The ranges of the
second byte leave out overlong forms, surrogates and codes above U+10FFFF. -/
def firstPiece (first : UInt8) (rest : Bytes) : Piece :=
  let b := first.toNat
  if b < 0x80 then ⟨0, .ok (Char.ofNat b)⟩
  else if b < 0xC2 || 0xF4 < b then ⟨0, .error .start⟩
  else if b < 0xE0 then continueFrom 1 (b - 0xC0) 0x80 0xBF 0 rest
  else if b < 0xF0 then
    continueFrom 2 (b - 0xE0) (if b == 0xE0 then 0xA0 else 0x80) (if b == 0xED then 0x9F else 0xBF)
      0 rest
  else
    continueFrom 3 (b - 0xF0) (if b == 0xF0 then 0x90 else 0x80) (if b == 0xF4 then 0x8F else 0xBF)
      0 rest

/-- The bytes of a text. -/
def encode (s : String) : Bytes := s.toUTF8.toList

theorem toList_loop (bs : ByteArray) (i : Nat) (acc : Bytes) :
    ByteArray.toList.loop bs i acc = acc.reverse ++ bs.data.toList.drop i := by
  fun_induction ByteArray.toList.loop bs i acc with
  | case1 i acc hlt ih =>
    have hnext : bs.data.toList.drop i = bs.get! i :: bs.data.toList.drop (i + 1) := by
      rw [List.drop_eq_getElem_cons (by simpa using hlt)]
      congr 1
      simp [ByteArray.get!, getElem!_pos, hlt]
    rw [ih, hnext, List.reverse_cons, List.append_assoc, List.singleton_append]
  | case2 i acc hge => rw [List.drop_of_length_le (by simpa using hge), List.append_nil]

/-- Two texts have the same bytes only if they are the same. -/
theorem encode_inj {s t : String} : encode s = encode t ↔ s = t := by
  refine ⟨fun hsame => ?_, congrArg encode⟩
  have hdata : s.toUTF8.data.toList = t.toUTF8.data.toList := by
    simpa only [encode, ByteArray.toList, toList_loop, List.reverse_nil, List.nil_append,
      List.drop_zero] using hsame
  exact String.toByteArray_inj.1 (ByteArray.ext (Array.toList_inj.1 hdata))

end Utf8

end Text

end Pipework
