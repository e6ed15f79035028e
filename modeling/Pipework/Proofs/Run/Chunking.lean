import Pipework.Proofs.Host.Chunking
import Pipework.Proofs.Run.Tandem

/-!
# The same bytes in other chunks

How the system cuts the output of a process into chunks, and how much of it is read at a time,
makes no difference to a run. Two worlds whose processes write the same bytes go side by side: the
answers are the same, the same goes on record, and only what was done with the captured streams
tells them apart.

## Main definitions

* `Tandem.rechunked` — streams with the same bytes correspond, and all else is the same
* `World.SameBytes` — the same but for the chunks that bytes are written in

## Main results

* `Executor.outcome_run_of_sameBytes` — runs in such worlds come to the same
* `Tandem.rechunked_ofScript` — scripts with the same bytes in other chunks
* `Executor.draining_exact` — drains collect all bytes, and a run does not depend on how they do
-/

namespace Pipework

/-- Streams with the same bytes correspond, and everything else is the same. -/
def Tandem.rechunked : Tandem where
  toLikeness := .exact
  streams := Stream.SameBytes
  eq_descriptor_iff hsame _ := by
    cases hsame
    rfl
  close_eq hknown hwired hsame := by
    cases hknown
    cases hwired
    rw [hsame.closeFailure]
  drain hpos hpos' hknown hsame := by
    cases hknown
    rw [hsame.bytes_drain hpos hpos', hsame.fault_drain hpos hpos']
    exact ⟨rfl, rfl⟩

/-- Two worlds are the same, except that their processes write and have written the same bytes in
other chunks, and for what was done with these outputs. -/
def World.SameBytes (w w' : World) : Prop := Tandem.rechunked.Worlds w w'

/-- In worlds that are the same but for chunks, a run comes to the same and leaves such worlds,
however much is read at a time. -/
theorem Executor.outcome_run_of_sameBytes {size size' : Nat} (hpos : 0 < size) (hpos' : 0 < size')
    {w w' : World} (hsame : w.SameBytes w') (captureStderr captured : Bool) (p : Pipeline) :
    (((⟨captureStderr, size⟩ : Executor).run captured p).outcome w).1 =
        (((⟨captureStderr, size'⟩ : Executor).run captured p).outcome w').1 ∧
      (((⟨captureStderr, size⟩ : Executor).run captured p).outcome w).2.SameBytes
        (((⟨captureStderr, size'⟩ : Executor).run captured p).outcome w').2 := by
  have hread : Tandem.rechunked.accord.sizes size size' := ⟨hpos, hpos'⟩
  have hboth : Action.Matches Tandem.rechunked.accord.worlds Tandem.rechunked.accord.Results
      ((⟨captureStderr, size⟩ : Executor).run captured p)
      ((⟨captureStderr, size'⟩ : Executor).run captured p) :=
    Accord.matches_run ⟨rfl, rfl⟩ hread p
  obtain ⟨hresults, hworlds⟩ := hboth w w' hsame
  exact ⟨(hresults.mono fun _ _ hsame => hsame.eq fun _ _ hread => hread).eq, hworlds⟩

/-- Scripts that differ only in the chunks of what processes write. -/
theorem Tandem.rechunked_ofScript {s s' : Script} (hpipes : s.pipeFailures = s'.pipeFailures)
    (hcloses : s.closeFailures = s'.closeFailures)
    (hprocesses : List.Forall₂ (fun b b' : Behaviour =>
      b.refusal = b'.refusal ∧ rechunked.Conducts b.toConduct b'.toConduct)
      s.processes s'.processes) :
    rechunked.Machines (.ofScript s) (.ofScript s') where
  threaded := rfl
  pipeFailure := by rw [Machine.ofScript, Machine.ofScript, hpipes]
  closeFailure := by rw [Machine.ofScript, Machine.ofScript, hcloses]
  descriptors := rfl
  start n argv := by
    have hsame : (s.processes[n]?.getD {}).refusal = (s'.processes[n]?.getD {}).refusal ∧
        rechunked.Conducts (s.processes[n]?.getD {}).toConduct
          (s'.processes[n]?.getD {}).toConduct := by
      have hfound := rel_getElem? hprocesses n
      generalize s.processes[n]? = b at hfound
      generalize s'.processes[n]? = b' at hfound
      cases hfound with
      | some hsame => exact hsame
      | none =>
        -- A process that is not listed writes nothing.
        exact ⟨rfl, rfl, rfl, rfl, rfl, rfl, .refl {}, .refl {}⟩
    unfold Machine.ofScript
    dsimp only
    generalize s.processes[n]?.getD {} = b at hsame
    generalize s'.processes[n]?.getD {} = b' at hsame
    obtain ⟨hrefusal, hconduct⟩ := hsame
    rw [hrefusal]
    cases b'.refusal with
    | some f => exact .error f
    | none => exact .ok fun _ => hconduct

namespace Executor

/-- A drain of a stream that neither fails in a read nor in the closing comes to its end, whatever
part of the next chunk each read answers. It collects all bytes and closes the stream once, right
after the only read that answered nothing. And so two runs come to the same if their streams carry
the same bytes, however these come in chunks and however many of them are read at a time. -/
theorem draining_exact :
    (∀ (size : Nat) (s : Stream), 0 < size → s.Faultless →
      Acc (Stream.GoesOn size) s ∧ s.Drains size (s.drain size) ∧
        ∀ d, s.Drains size d → s.Exhausts size d) ∧
    ∀ (captureStderr captured : Bool) (size size' : Nat) (p : Pipeline) (w w' : World),
      0 < size → 0 < size' → w.SameBytes w' →
        (((⟨captureStderr, size⟩ : Executor).run captured p).outcome w).1 =
            (((⟨captureStderr, size'⟩ : Executor).run captured p).outcome w').1 ∧
          (((⟨captureStderr, size⟩ : Executor).run captured p).outcome w).2.SameBytes
            (((⟨captureStderr, size'⟩ : Executor).run captured p).outcome w').2 := by
  refine ⟨fun size s hpos hfine =>
    ⟨Stream.acc_goesOn size s, Stream.drains_drain hpos hfine, ?_⟩, ?_⟩
  · exact fun d hdrains => hdrains.exhausts hfine
  · exact fun captureStderr captured size size' p w w' hpos hpos' hsame =>
      outcome_run_of_sameBytes hpos hpos' hsame captureStderr captured p

/-- Five bytes in two chunks, read one at a time, or in one chunk, read eight at a time. -/
theorem draining_exact_five_bytes :
    (∀ d, Stream.Drains 2 { chunks := [[1, 2, 3], [4, 5]] } d → d.bytes = [1, 2, 3, 4, 5]) ∧
    ((run ⟨true, 1⟩ true ⟨[{ program := "a" }]⟩).outcome
        { machine := .ofScript
            { processes := [{ stdout := { chunks := [[1, 2, 3], [4, 5]] } }] } }).1 =
      ((run ⟨true, 8⟩ true ⟨[{ program := "a" }]⟩).outcome
        { machine := .ofScript
            { processes := [{ stdout := { chunks := [[1, 2, 3, 4, 5]] } }] } }).1 := by
  refine ⟨fun d hdrains => ?_, ?_⟩
  · exact ((draining_exact.1 2 _ (by decide) ⟨by decide, rfl, rfl⟩).2.2 d hdrains).bytes
  · refine (draining_exact.2 true true 1 8 _ _ _ (by decide) (by decide) ?_).1
    refine ⟨Tandem.rechunked_ofScript rfl rfl (.cons
      ⟨rfl, rfl, rfl, rfl, rfl, rfl, ?_, .refl {}⟩ .nil), rfl, rfl, rfl, rfl, .nil, .nil, rfl⟩
    exact .of_full (by decide) (by decide) rfl rfl rfl

end Executor

end Pipework
