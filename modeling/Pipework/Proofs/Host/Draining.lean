import Mathlib.Data.List.TakeWhile
import Pipework.Host.Stream

/-!
# What a drain comes to

A drain goes on reading until a read answers no bytes or fails. So it comes to what the stream
delivers up to there, however many bytes are asked for at a time.

## Main definitions

* `Stream.delivered` — the bytes up to the first read that answers none
* `Stream.readFault?` — the fault that a read meets in place of the end
* `Stream.fault?` — the fault that ends the reading, the closing included

## Main results

* `Stream.bytes_drain`, `Stream.fault_drain` — what a drain answers
-/

namespace Pipework

namespace Stream

/-- The bytes that the stream delivers. A chunk without bytes reads as the end. -/
def delivered (s : Stream) : Bytes := (s.chunks.takeWhile (!·.isEmpty)).flatten

/-- The fault that a read meets in place of the end, unless an end comes before it. -/
def readFault? (s : Stream) : Option Fault := if [] ∈ s.chunks then none else s.failure

/-- The fault that ends the reading of the stream. One in closing takes the place of one in a
read. -/
def fault? (s : Stream) : Option Fault := s.closeFailure.or s.readFault?

/-- A stream in which no chunk is empty delivers all of them. -/
theorem delivered_of_nil_notMem {s : Stream} (hfull : [] ∉ s.chunks) :
    s.delivered = s.chunks.flatten := by
  have hall : s.chunks.takeWhile (!·.isEmpty) = s.chunks := by
    refine List.takeWhile_eq_self_iff.2 fun chunk hmem => ?_
    have hne : chunk ≠ [] := fun hempty => hfull (hempty ▸ hmem)
    simpa using hne
  rw [delivered, hall]

/-- A read that answers bytes takes them from what the stream delivers, and leaves the rest of it
with the same end. -/
theorem delivered_read {size : Nat} {s t : Stream} {got : Bytes}
    (hread : s.read size = (.ok got, t))
    (hsome : got ≠ []) : s.delivered = got ++ t.delivered ∧ t.fault? = s.fault? := by
  rcases s with ⟨chunks, failure, closeFailure⟩
  cases chunks with
  | nil =>
    cases failure with
    | none =>
      obtain ⟨rfl, -⟩ : [] = got ∧ _ := by simpa [Stream.read] using hread
      exact absurd rfl hsome
    | some f => simp [Stream.read] at hread
  | cons chunk rest =>
    simp only [Stream.read, Prod.mk.injEq, Except.ok.injEq] at hread
    obtain ⟨rfl, rfl⟩ := hread
    have hchunk_ne : chunk ≠ [] := fun hempty => hsome (by simp [hempty])
    have hfull : chunk.isEmpty = false := by simpa using hchunk_ne
    by_cases hleft : chunk.drop size = []
    · -- The chunk is used up by this read.
      have hall : chunk.take size = chunk := by
        simpa [hleft] using List.take_append_drop size chunk
      constructor
      · simp [delivered, hleft, hall, hfull]
      · simp [fault?, readFault?, hleft, hchunk_ne.symm]
    · -- What is left of the chunk comes first in the next read.
      have hleft' : (chunk.drop size).isEmpty = false := by simpa using hleft
      constructor
      · simp [delivered, hleft', hfull, ← List.append_assoc]
      · simp [fault?, readFault?, hleft', hchunk_ne.symm, Ne.symm hleft]

/-- A read that answers no bytes though it asks for some has met the end. -/
theorem delivered_of_read_nil {size : Nat} {s t : Stream} (hpos : 0 < size)
    (hread : s.read size = (.ok [], t)) :
    s.delivered = [] ∧ s.readFault? = none ∧ t.closeFailure = s.closeFailure := by
  rcases s with ⟨chunks, failure, closeFailure⟩
  cases chunks with
  | nil =>
    cases failure with
    | none =>
      obtain rfl : _ = t := by simpa [Stream.read] using hread
      exact ⟨rfl, rfl, rfl⟩
    | some f => simp [Stream.read] at hread
  | cons chunk rest =>
    simp only [Stream.read, Prod.mk.injEq, Except.ok.injEq] at hread
    obtain ⟨hempty, rfl⟩ := hread
    obtain rfl : chunk = [] := by simpa [Nat.ne_of_gt hpos] using hempty
    exact ⟨by simp [delivered], by simp [readFault?], rfl⟩

/-- A read that fails has met the fault in place of the end. -/
theorem delivered_of_read_error {size : Nat} {s t : Stream} {f : Fault}
    (hread : s.read size = (.error f, t)) :
    s.delivered = [] ∧ s.readFault? = some f ∧ t.closeFailure = s.closeFailure := by
  rcases s with ⟨chunks, failure, closeFailure⟩
  cases chunks with
  | nil =>
    cases failure with
    | none => simp [Stream.read] at hread
    | some g =>
      obtain ⟨rfl, rfl⟩ : g = f ∧ _ = t := by simpa [Stream.read] using hread
      exact ⟨rfl, rfl, rfl⟩
  | cons chunk rest => simp [Stream.read] at hread

/-- However far a drain has come, it goes on to the end of what is left. -/
theorem drainFrom_spec {size : Nat} (hpos : 0 < size) (events : List Event) (got : List Bytes)
    (s : Stream) :
    (drainFrom size events got s).bytes = got.reverse.flatten ++ s.delivered ∧
      (drainFrom size events got s).fault = s.fault? := by
  fun_induction drainFrom size events got s with
  | case1 events got s f t hread =>
    obtain ⟨hnothing, hfault, hclose⟩ := delivered_of_read_error hread
    simp [finish, hnothing, fault?, hfault, hclose]
  | case2 events got s t hread =>
    obtain ⟨hnothing, hfault, hclose⟩ := delivered_of_read_nil hpos hread
    simp [finish, hnothing, fault?, hfault, hclose]
  | case3 events got s bytes t hread hsome ih =>
    -- What was read goes before what the rest of the stream delivers.
    obtain ⟨hsplit, hfault⟩ := delivered_read hread hsome
    rw [ih.1, ih.2, hsplit, hfault]
    simp

/-- A drain answers all that the stream delivers. -/
theorem bytes_drain {size : Nat} (hpos : 0 < size) (s : Stream) :
    (s.drain size).bytes = s.delivered := by
  simpa [drain] using (drainFrom_spec hpos [] [] s).1

/-- A drain answers the fault that ends the reading. -/
theorem fault_drain {size : Nat} (hpos : 0 < size) (s : Stream) :
    (s.drain size).fault = s.fault? :=
  (drainFrom_spec hpos [] [] s).2

end Stream

end Pipework
