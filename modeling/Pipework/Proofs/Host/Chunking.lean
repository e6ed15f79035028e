import Pipework.Proofs.Host.Draining

/-!
# Reads that answer in parts

A read may answer less than it asks for: any part of what comes next in the stream that is not
empty, as long as it is not too long, and nothing only at the end. How much it is depends on the
system. A drain collects the same bytes whatever the reads answer, it comes to its end, and it
closes the stream once, right after the only read that answered nothing.

## Main definitions

* `Stream.Faultless` — no chunk is empty, and neither a read nor the closing fails
* `Stream.Answers` — what a read may answer, and the stream after it
* `Stream.Drains` — a drain by such reads
* `Stream.Exhausts` — all bytes are collected, and the stream is closed right after the end was met
* `Stream.SameBytes` — the same bytes in other chunks

## Main results

* `Stream.acc_goesOn` — reads that answer something do not go on for ever
* `Stream.Drains.exhausts` — every drain of a faultless stream exhausts it
* `Stream.drains_drain` — the drain that takes as much as it can is one of them
* `Stream.SameBytes.bytes_drain`, `Stream.SameBytes.fault_drain` — drains of the same bytes
-/

namespace Pipework

namespace Stream

variable {size : Nat} {s t : Stream} {got : Bytes} {d : Drained}

/-- A stream that delivers its chunks, none of which is empty, without failing in a read or in the
closing. -/
structure Faultless (s : Stream) : Prop where
  full : [] ∉ s.chunks
  readable : s.failure = none
  closable : s.closeFailure = none

/-- What a read of at most `size` bytes may answer, and the stream after it: a part of the chunk
that comes next, and nothing where no chunk is left. -/
inductive Answers (size : Nat) : Stream → Bytes → Stream → Prop where
  | part {got left : Bytes} {rest : List Bytes} {failure closeFailure : Option Fault}
      (hsome : got ≠ []) (hle : got.length ≤ size) :
      Answers size { chunks := (got ++ left) :: rest, failure, closeFailure } got
        { chunks := if left.isEmpty then rest else left :: rest, failure, closeFailure }
  | nothing {closeFailure : Option Fault} :
      Answers size { closeFailure } [] { closeFailure }

/-- A drain by such reads. It goes on while they answer something, and then closes the stream. -/
inductive Drains (size : Nat) : Stream → Drained → Prop where
  | ended {s t : Stream} (hread : Answers size s [] t) :
      Drains size s ⟨[.read size 0, .close], [], t.closeFailure⟩
  | goesOn {s t : Stream} {got : Bytes} {d : Drained} (hread : Answers size s got t)
      (hsome : got ≠ []) (hrest : Drains size t d) :
      Drains size s ⟨.read size got.length :: d.events, got ++ d.bytes, d.fault⟩

/-- The drain collected all bytes of the stream. It read them in parts that are not empty and at
most `size` bytes long, met the end in one more read, and then closed the stream. -/
structure Exhausts (size : Nat) (s : Stream) (d : Drained) : Prop where
  bytes : d.bytes = s.chunks.flatten
  fault : d.fault = none
  events : ∃ parts : List Bytes, parts.flatten = s.chunks.flatten ∧
    (∀ part ∈ parts, part ≠ [] ∧ part.length ≤ size) ∧
    d.events = parts.map (fun part => .read size part.length) ++ [.read size 0, .close]

/-! ### One read -/

namespace Answers

theorem flatten (hread : Answers size s got t) : s.chunks.flatten = got ++ t.chunks.flatten := by
  cases hread with
  | @part _ left =>
    cases left <;> simp
  | nothing => rfl

theorem length_le (hread : Answers size s got t) : got.length ≤ size := by
  cases hread with
  | part hsome hle => exact hle
  | nothing => exact Nat.zero_le size

theorem faultless (hread : Answers size s got t) (hfine : s.Faultless) : t.Faultless := by
  cases hread with
  | @part _ left =>
    refine ⟨?_, hfine.readable, hfine.closable⟩
    have hrest := List.not_mem_of_not_mem_cons hfine.full
    cases left with
    | nil => exact hrest
    | cons b left => simpa using hrest
  | nothing => exact hfine

/-- A read answers nothing at the end only. -/
theorem chunks_of_nil (hread : Answers size s [] t) : s.chunks = [] := by
  cases hread with
  | part hsome => exact absurd rfl hsome
  | nothing => rfl

/-- A read that answers something leaves fewer bytes. -/
theorem length_lt (hread : Answers size s got t) (hsome : got ≠ []) :
    t.chunks.flatten.length < s.chunks.flatten.length := by
  have hpos : 0 < got.length := List.length_pos_iff.2 hsome
  rw [hread.flatten, List.length_append]
  omega

end Answers

/-- A read answers something and leaves the stream `t`. -/
def GoesOn (size : Nat) (t s : Stream) : Prop := ∃ got ≠ [], s.Answers size got t

/-- Reads that answer something do not go on for ever, for each of them leaves fewer bytes. -/
theorem acc_goesOn (size : Nat) (s : Stream) : Acc (GoesOn size) s := by
  have hfewer : Subrelation (GoesOn size)
      (InvImage (· < ·) fun s : Stream => s.chunks.flatten.length) :=
    fun ⟨_, hne, hread⟩ => hread.length_lt hne
  exact (hfewer.wf (InvImage.wf _ Nat.lt_wfRel.wf)).apply s

/-- What the stream answers when it is asked for as much as it has. -/
theorem answers_read (hfine : s.Faultless) (hpos : 0 < size) (hread : s.read size = (.ok got, t)) :
    s.Answers size got t := by
  obtain ⟨chunks, failure, closeFailure⟩ := s
  cases chunks with
  | nil =>
    obtain rfl : failure = none := hfine.readable
    obtain ⟨rfl, rfl⟩ : [] = got ∧ _ = t := by simpa [Stream.read] using hread
    exact .nothing
  | cons chunk rest =>
    have hne : chunk ≠ [] := fun hempty => hfine.full (hempty ▸ List.mem_cons_self)
    simp only [Stream.read, Prod.mk.injEq, Except.ok.injEq] at hread
    obtain ⟨rfl, rfl⟩ := hread
    have hsome : chunk.take size ≠ [] := by simpa [Nat.ne_of_gt hpos] using hne
    have hpart : Answers size ⟨(chunk.take size ++ chunk.drop size) :: rest, failure, closeFailure⟩
      (chunk.take size) _ := .part hsome (List.length_take_le size chunk)
    rwa [List.take_append_drop] at hpart

/-! ### A drain -/

/-- Every drain of a faultless stream exhausts it. What was collected and what is left always make
up the whole. -/
theorem Drains.exhausts (hdrains : s.Drains size d) (hfine : s.Faultless) : s.Exhausts size d := by
  induction hdrains with
  | @ended s t hread =>
    have hempty := hread.chunks_of_nil
    exact ⟨by simp [hempty], (hread.faultless hfine).closable, [], by simp [hempty], by simp, rfl⟩
  | @goesOn s t got d hread hne _ ih =>
    obtain ⟨hbytes, hfault, parts, hflatten, heach, hevents⟩ := ih (hread.faultless hfine)
    have hsplit := hread.flatten
    refine ⟨by rw [hsplit, hbytes], hfault, got :: parts, ?_, ?_, ?_⟩
    · rw [List.flatten_cons, hflatten, hsplit]
    · intro part hmem
      rcases List.mem_cons.1 hmem with rfl | hmem
      · exact ⟨hne, hread.length_le⟩
      · exact heach part hmem
    · rw [hevents]
      rfl

/-- However far the drain has come, what it does from there is a drain of what is left. -/
theorem exists_drains_drainFrom (hpos : 0 < size) (events : List Event) (chunks : List Bytes)
    (hfine : s.Faultless) : ∃ d, s.Drains size d ∧
      drainFrom size events chunks s =
        ⟨events.reverse ++ d.events, chunks.reverse.flatten ++ d.bytes, d.fault⟩ := by
  fun_induction drainFrom size events chunks s with
  | case1 events chunks s f t hread =>
    -- A read that fails has met a fault, and there is none to meet.
    have hmet := (delivered_of_read_error hread).2.1
    rw [readFault?, if_neg hfine.full, hfine.readable] at hmet
    cases hmet
  | case2 events chunks s t hread =>
    exact ⟨_, .ended (answers_read hfine hpos hread), by simp [finish]⟩
  | case3 events chunks s bytes t hread hsome ih =>
    have hanswers := answers_read hfine hpos hread
    obtain ⟨d, hdrains, heq⟩ := ih (hanswers.faultless hfine)
    exact ⟨_, .goesOn hanswers hsome hdrains, by rw [heq]; simp⟩

/-- The drain of a faultless stream, which always takes as much as it can. -/
theorem drains_drain (hpos : 0 < size) (hfine : s.Faultless) : s.Drains size (s.drain size) := by
  obtain ⟨d, hdrains, heq⟩ := exists_drains_drainFrom hpos [] [] hfine
  have hsame : s.drain size = d := heq
  rwa [hsame]

/-! ### Streams with the same bytes -/

/-- Two streams carry and deliver the same bytes, in chunks of whatever lengths, and end alike. -/
structure SameBytes (s t : Stream) : Prop where
  flatten : s.chunks.flatten = t.chunks.flatten
  delivered : s.delivered = t.delivered
  readFault : s.readFault? = t.readFault?
  closeFailure : s.closeFailure = t.closeFailure

namespace SameBytes

theorem refl (s : Stream) : s.SameBytes s := ⟨rfl, rfl, rfl, rfl⟩

/-- Where no chunk is empty, all bytes are delivered. -/
theorem of_full (hfull : [] ∉ s.chunks) (hfull' : [] ∉ t.chunks)
    (hflatten : s.chunks.flatten = t.chunks.flatten) (hfailure : s.failure = t.failure)
    (hcloseFailure : s.closeFailure = t.closeFailure) : s.SameBytes t where
  flatten := hflatten
  delivered := by
    rw [delivered_of_nil_notMem hfull, delivered_of_nil_notMem hfull', hflatten]
  readFault := by rw [readFault?, readFault?, if_neg hfull, if_neg hfull', hfailure]
  closeFailure := hcloseFailure

variable {size' : Nat}

/-- Drains of streams with the same bytes collect the same, whatever they read at a time. -/
theorem bytes_drain (hsame : s.SameBytes t) (hpos : 0 < size) (hpos' : 0 < size') :
    (s.drain size).bytes = (t.drain size').bytes := by
  rw [Stream.bytes_drain hpos, Stream.bytes_drain hpos', hsame.delivered]

/-- They also end with the same fault. -/
theorem fault_drain (hsame : s.SameBytes t) (hpos : 0 < size) (hpos' : 0 < size') :
    (s.drain size).fault = (t.drain size').fault := by
  rw [Stream.fault_drain hpos, Stream.fault_drain hpos', fault?, fault?, hsame.readFault,
    hsame.closeFailure]

end SameBytes

end Stream

end Pipework
