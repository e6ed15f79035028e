import Pipework.Host.World

/-!
# Links

A link is a pipe between two neighbouring stages, as the parent holds it. Each of its ends is
given up at most once: an end that is passed to a close is no longer held, also if the close
fails.

## Main definitions

* `Link` — the ends that are still held
* `Link.make` — a link on a new pipe
* `Link.closeReader`, `Link.closeWriter` — giving up one end
* `Link.close` — giving up what is still held, the write end first
-/

namespace Pipework

/-- A pipe between stage `index` and the next, with the ends that are still held. -/
structure Link where
  index : Int
  reader : Option Nat
  writer : Option Nat
  deriving Repr, DecidableEq

namespace Link

/-- A link on a new pipe. -/
def make (index : Int) : Action World Fault Link := do
  let (reader, writer) ← World.pipe
  return { index, reader := some reader, writer := some writer }

/-- The link without its read end. -/
def withoutReader (l : Link) : Link := { l with reader := none }

/-- The link without its write end. -/
def withoutWriter (l : Link) : Link := { l with writer := none }

/-- Closes the read end, if it is held. Whatever comes of it, the end is no longer held. -/
def closeReader (l : Link) : Action World Fault Unit :=
  match l.reader with
  | none => pure ()
  | some descriptor => do
    World.close descriptor
    World.note (.readerClosed l.index descriptor)

/-- Closes the write end, if it is held. Whatever comes of it, the end is no longer held. -/
def closeWriter (l : Link) : Action World Fault Unit :=
  match l.writer with
  | none => pure ()
  | some descriptor => do
    World.close descriptor
    World.note (.writerClosed l.index descriptor)

/-- Closes what is still held, the write end first. The answer is the link afterwards, with the
fault that came up: if the write end cannot be closed, the read end is not tried. -/
def close (l : Link) : StateM World (Option Fault × Link) := do
  match ← l.closeWriter.run with
  | .error f => return (some f, l.withoutWriter)
  | .ok () =>
    match ← l.closeReader.run with
    | .error f => return (some f, l.withoutWriter.withoutReader)
    | .ok () => return (none, l.withoutWriter.withoutReader)

/-- Neither end is held. -/
def isClosed (l : Link) : Bool := l.reader.isNone && l.writer.isNone

/-- The link with its ends shown. -/
def inspect (l : Link) : String :=
  let showEnd (e : Option Nat) := ExitStatus.describeNumber (e.map Int.ofNat)
  "PipeLink(index=" ++ toString l.index ++ ", read_fd=" ++ showEnd l.reader ++
    ", write_fd=" ++ showEnd l.writer ++ ")"

end Link

end Pipework
