import Pipework.Proofs.Session.History

/-!
# Handles as their scripts tell

Whatever else happens to a pipeline, what its handle has to say is told from the scripts of its
processes: how they answer waits, what they deliver, and which outputs are captured. It does not
matter which numbers the processes have, what their streams lead to otherwise, or what was done
with them.

## Main definitions

* `Query.showsNumbers` — the query asks for the numbers of processes

## Main results

* `Handle.verdict_script`, `Handle.replyAt_script` — passes and replies as scripts tell
* `Handle.replyAt_ofProcesses` — handles of the same scripts reply the same
-/

namespace Pipework

namespace Process

/-- The script of a process keeps its conduct. -/
theorem conduct_script (p : Process) : p.script.conduct = p.conduct := rfl

/-- A pass uses up waits of scripts as it does of processes. -/
theorem passed_script (ps : List Process) : passed (ps.map script) = (passed ps).map script := by
  rw [passed, passed, reach_map conduct_script, List.map_append, ← List.map_take, ← List.map_drop,
    List.map_map, List.map_map]
  rfl

theorem afterPasses_script (k : Nat) (ps : List Process) :
    afterPasses k (ps.map script) = (afterPasses k ps).map script := by
  induction k generalizing ps with
  | zero => rfl
  | succ k ih => rw [afterPasses, afterPasses, passed_script, ih]

end Process

/-- The query asks for the numbers of processes, which the system gives out. -/
def Query.showsNumbers {ρ : Type} : Query ρ → Bool
  | pids | inspect | line => true
  | _ => false

namespace Handle

/-- What comes of a pass is told from the scripts of the processes. -/
theorem verdict_script (h : Handle) (ps : List Process) :
    h.verdict (ps.map Process.script) = h.verdict ps := by
  rw [verdict, verdict, Process.findSome?_waitFault?_map Process.conduct_script,
    Process.refusedWait?_map Process.conduct_script, Process.statuses_map Process.conduct_script]

theorem found?_script (h : Handle) (k : Nat) (ps : List Process) :
    h.found? k (ps.map Process.script) = h.found? k ps := by
  induction k generalizing ps with
  | zero => rfl
  | succ k ih => rw [found?, found?, verdict_script, Process.passed_script, ih]

/-- A reply is told from the scripts of the processes. -/
theorem replyAt_script (h : Handle) (pid k : Nat) (ps : List Process) (q : Query Item) :
    h.replyAt pid k (ps.map Process.script) q = h.replyAt pid k ps q := by
  have hawaited : h.awaitedAt pid k (ps.map Process.script) = h.awaitedAt pid k ps := by
    rw [awaitedAt, awaitedAt, found?_script, Process.afterPasses_script, verdict_script,
      Process.passCalls_map Process.conduct_script]
  rw [replyAt, replyAt, hawaited]

/-- What a wait comes to is told from what comes of passes. -/
theorem awaitedAt_congr {h h' : Handle} (hsame : h.verdict = h'.verdict) (pid pid' k : Nat)
    (ps : List Process) : (h.awaitedAt pid k ps).1 = (h'.awaitedAt pid' k ps).1 := by
  have hfound (k : Nat) (ps : List Process) : h.found? k ps = h'.found? k ps := by
    induction k generalizing ps with
    | zero => rfl
    | succ k ih => rw [found?, found?, hsame, ih]
  rw [awaitedAt, awaitedAt, hfound, hsame]
  cases h'.found? k ps <;> rfl

/-- Handles of processes with the same scripts reply the same to all but a query for numbers. -/
theorem replyAt_ofProcesses {ps ps' : List Process}
    (hsame : ps.map Process.script = ps'.map Process.script) {q : Query Item}
    (hquiet : q.showsNumbers = false) (captured : Bool) (argvs : List (List String))
    (pid pid' k : Nat) :
    ((ofProcesses captured argvs pid ps).replyAt pid k ps q).1 =
      ((ofProcesses captured argvs pid' ps').replyAt pid' k ps' q).1 := by
  rw [← replyAt_script _ _ _ ps, ← replyAt_script _ _ _ ps', ← ofProcesses_script _ _ _ ps,
    ← ofProcesses_script _ _ _ ps', hsame]
  generalize ps'.map Process.script = scripts
  -- The numbers are in the children only, which a pass does not look at.
  have hverdict : (ofProcesses captured argvs pid scripts).verdict =
      (ofProcesses captured argvs pid' scripts).verdict := rfl
  rw [replyAt, replyAt]
  cases q.ofAwaited? with
  | some take => exact congrArg (fun outcome => outcome.bind take) (awaitedAt_congr hverdict ..)
  | none =>
    cases q with
    | pids | inspect | line => cases hquiet
    | stageCount =>
      refine congrArg (fun n => Except.ok (Item.ofNat n)) ?_
      rw [ofProcesses, ofProcesses, Process.children, Process.children, List.length_mapIdx,
        List.length_mapIdx]
    | _ => rfl

end Handle

end Pipework
