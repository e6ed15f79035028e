import Pipework.Fault

/-!
# Captured streams

A captured stream delivers its bytes in chunks. A read takes at most as many bytes as it asks
for, from the current chunk only; when no chunk is left it answers with no bytes, which is
the end, or it fails. A drain reads a stream to its end and closes it, and it closes it also
when a read fails.

## Main definitions

* `Stream` — the chunks still to come, and how reading and closing may fail
* `Stream.read` — one read
* `Stream.Event` — what was done with a stream
* `Stream.drain` — reading to the end, and closing

## Main results

* `Stream.weight_read_lt` — a read that delivers something leaves less to come
-/

namespace Pipework

/-- A captured stream: the chunks that are still to come, the fault in place of the end, and the
fault in closing. -/
structure Stream where
  chunks : List Bytes := []
  failure : Option Fault := none
  closeFailure : Option Fault := none
  deriving Repr, DecidableEq

namespace Stream

/-- What was done with a stream: a read with the number of bytes asked for and delivered, a read
that failed, or the closing. -/
inductive Event where
  | read (size length : Nat)
  | readFailed (size : Nat)
  | close
  deriving Repr, DecidableEq

/-- One read of at most `size` bytes, and the stream after it. -/
def read (size : Nat) (s : Stream) : Except Fault Bytes × Stream :=
  match s.chunks with
  | [] =>
    match s.failure with
    | none => (.ok [], s)
    | some f => (.error f, s)
  | chunk :: rest =>
    let left := chunk.drop size
    (.ok (chunk.take size), { s with chunks := if left.isEmpty then rest else left :: rest })

/-- All that is still to come: the bytes, and one for each chunk. -/
def weight (s : Stream) : Nat := s.chunks.foldr (fun chunk rest => chunk.length + 1 + rest) 0

/-- A read that delivers something leaves less to come. -/
theorem weight_read_lt {size : Nat} {s t : Stream} {got : Bytes}
    (h : s.read size = (.ok got, t)) (hne : got ≠ []) : t.weight < s.weight := by
  rcases s with ⟨chunks, failure, closeFailure⟩
  cases chunks with
  | nil =>
    cases failure with
    | none =>
      simp only [read, Prod.mk.injEq, Except.ok.injEq] at h
      exact absurd h.1.symm hne
    | some f => simp [read] at h
  | cons chunk rest =>
    simp only [read, Prod.mk.injEq, Except.ok.injEq] at h
    obtain ⟨rfl, rfl⟩ := h
    have hsize_pos : 0 < size := Nat.pos_of_ne_zero fun h0 => hne (by simp [h0])
    have hchunk_pos : 0 < chunk.length :=
      List.length_pos_iff.2 fun h0 => hne (by simp [h0])
    by_cases hleft : (chunk.drop size).isEmpty
    · simp [weight, hleft]
    · simp only [weight, hleft, Bool.false_eq_true, if_false, List.foldr_cons, List.length_drop]
      omega

/-- The outcome of a drain: what was done, the bytes that were delivered, and the fault that
ended it early. -/
structure Drained where
  events : List Event
  bytes : Bytes
  fault : Option Fault
  deriving Repr, DecidableEq

/-- Closes the stream after the events so far, newest first, with the chunks that were delivered,
newest first. A fault in closing takes the place of one in reading. -/
def finish (s : Stream) (events : List Event) (got : List Bytes) (fault : Option Fault) :
    Drained where
  events := (Event.close :: events).reverse
  bytes := got.reverse.flatten
  fault := s.closeFailure.or fault

/-- Goes on reading after the events so far, newest first, which delivered the chunks, newest
first. -/
def drainFrom (size : Nat) (events : List Event) (got : List Bytes) (s : Stream) : Drained :=
  match _h : s.read size with
  | (.error f, t) => t.finish (.readFailed size :: events) got (some f)
  | (.ok bytes, t) =>
    if _e : bytes = [] then t.finish (.read size 0 :: events) got none
    else drainFrom size (.read size bytes.length :: events) (bytes :: got) t
termination_by s.weight
decreasing_by exact weight_read_lt ‹_› ‹_›

/-- Reads a stream to its end, `size` bytes at a time, and closes it. -/
def drain (size : Nat) (s : Stream) : Drained := s.drainFrom size [] []

end Stream

end Pipework
