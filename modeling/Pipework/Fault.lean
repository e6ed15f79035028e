import Pipework.Text.Decoding
import Pipework.Text.Literal

/-!
# Faults

A fault is what a call to the system, or to a value that cannot answer it, raises in place
of an answer: its kind, which decides who may handle it, and a text for people.

## Main definitions

* `Fault.Kind` — the kinds of fault
* `Fault` — a kind with a text
* `Fault.isSystem`, `Fault.isInvalid` — the two families that are handled when a stage is
  started, waited for or read from
-/

namespace Pipework

/-- The kinds of fault. -/
inductive Fault.Kind where
  /-- The system refused a call. -/
  | system
  | notFound
  | notPermitted
  | notDirectory
  | noChild
  | noProcess
  | wouldBlock
  | brokenPipe
  /-- A value was not acceptable. -/
  | invalid
  | invalidText
  | undecodable
  /-- Neither of the two. -/
  | internal
  | wrongType
  | noMemory
  | lookup
  | index
  | endOfInput
  | interrupt
  deriving Repr, DecidableEq

/-- What a call raises in place of an answer. -/
structure Fault where
  kind : Fault.Kind
  text : String
  deriving Repr, DecidableEq

namespace Fault

/-- The system refused a call. -/
def isSystem (f : Fault) : Bool :=
  match f.kind with
  | .system | .notFound | .notPermitted | .notDirectory | .noChild | .noProcess | .wouldBlock
  | .brokenPipe => true
  | _ => false

/-- A value was not acceptable. -/
def isInvalid (f : Fault) : Bool :=
  match f.kind with
  | .invalid | .invalidText | .undecodable => true
  | _ => false

/-- An index lies outside the sequence it was meant for. -/
def outOfRange (sequence : String) : Fault := ⟨.index, sequence ++ " index out of range"⟩

end Fault

namespace Text

/-- Why the part is no character, in words. -/
def IllFormed.message : IllFormed → String
  | start => "invalid start byte"
  | continuation => "invalid continuation byte"
  | ending => "unexpected end of data"
  | range => "ordinal not in range(128)"

/-- The bytes that could not be decoded: one byte is named, several only counted. -/
def illFormedPlace (first : UInt8) (start further : Nat) : String :=
  if further == 0 then
    "byte 0x" ++ hexDigits 2 first.toNat ++ " in position " ++ toString start
  else "bytes in position " ++ toString start ++ "-" ++ toString (start + further)

/-- The fault that a decoding error is reported as. -/
def DecodeError.fault : DecodeError → Fault
  | unknownCodec name => ⟨.lookup, "unknown encoding: " ++ name⟩
  | unknownPolicy name => ⟨.lookup, "unknown error handler name " ++ literal name⟩
  | illFormed codec reason first start further =>
    ⟨.undecodable,
      "'" ++ codec.name ++ "' codec can't decode " ++ illFormedPlace first start further ++ ": " ++
        reason.message⟩

end Text

end Pipework
