import Pipework.Proofs.Run.Waiting
import Pipework.Session.Reply

/-!
# What a handle has to say over time

A handle is asked again and again. Until a pass over its processes comes to a result, every
question that needs one makes a pass of its own, and what a failed pass had is forgotten. The first
result is kept, and from then on all questions are answered from it and nothing is done any more. A
wait that fails spoils only its own pass, while a reader that failed is held against the handle for
good.

## Main definitions

* `Process.afterPasses` — processes after so many passes
* `Query.awaits` — the query is for something that a handle has to wait for
* `Handle.replies` — what a handle replies to one query after another
* `Handle.found?` — the result that a handle has after so many passes
* `Handle.awaitedAt`, `Handle.replyAt` — what a wait comes to after so many passes, and a reply

## Main results

* `Handle.replies_getElem?` — every reply is told from the processes and from its place
* `Executor.replies_after_spawn` — the replies of a pipeline that was started
* `Executor.answers_what_was_read` — what a pipeline answers whose readers may fail in any way
-/

namespace Pipework

/-- Processes after so many passes. -/
def Process.afterPasses : Nat → List Process → List Process
  | 0, ps => ps
  | k + 1, ps => afterPasses k (passed ps)

@[simp] theorem Process.length_afterPasses (k : Nat) (ps : List Process) :
    (afterPasses k ps).length = ps.length := by
  induction k generalizing ps with
  | zero => rfl
  | succ k ih => exact (ih (passed ps)).trans (length_passed ps)

/-- The query is for something that a handle has to wait for. -/
def Query.awaits (q : Query Item) : Bool := q.ofAwaited?.isSome

/-- A handle waits for its result, for what is taken from it, and when a block is left. -/
theorem Query.awaits_iff {q : Query Item} :
    q.awaits = true ↔ q = .wait ∨ (∃ partner, q = .output partner) ∨ q = .stdout ∨ q = .stderr ∨
      q = .statuses ∨ ∃ raised, q = .block raised := by
  cases q with
  | block raised => cases raised <;> simp [awaits, ofAwaited?]
  | _ => simp [awaits, ofAwaited?]

namespace Handle

open Process (passed afterPasses)

/-- What a handle replies to one query after another, each with the calls that were made for it. -/
def replies (h : Handle) : List (Query Item) → World → List (Except Failure Item × List Call)
  | [], _ => []
  | q :: qs, w =>
    let ((reply, h), w') := (q.onHandle h).run w
    (reply, w'.calls.drop w.calls.length) :: h.replies qs w'

/-- The result that a handle of processes has after so many passes over them. -/
def found? (h : Handle) : Nat → List Process → Option ExecutionResult
  | 0, _ => none
  | k + 1, ps => (h.verdict ps).toOption.or (h.found? k (passed ps))

/-- What a handle of processes comes to when it has to wait after so many passes, and by which
calls: it has a result by then, or it makes one more pass. -/
def awaitedAt (h : Handle) (pid k : Nat) (ps : List Process) :
    Except Failure ExecutionResult × List Call :=
  match h.found? k ps with
  | some r => (.ok r, [])
  | none => (h.verdict (afterPasses k ps), Process.passCalls pid (afterPasses k ps))

/-- What a handle of processes replies to a query after so many passes, and by which calls. -/
def replyAt (h : Handle) (pid k : Nat) (ps : List Process) (q : Query Item) :
    Except Failure Item × List Call :=
  match q.ofAwaited? with
  | some take => ((h.awaitedAt pid k ps).1.bind take, (h.awaitedAt pid k ps).2)
  | none => (q.ofHandle h, [])

variable {h : Handle} {w : World} {pid k : Nat} {ps : List Process} {qs : List (Query Item)}
  {q : Query Item} {r : ExecutionResult} {take : ExecutionResult → Except Failure Item}

/-- A query that is for something to wait for makes the handle wait. -/
theorem run_onHandle (htakes : q.ofAwaited? = some take) (h : Handle) (w : World) :
    (q.onHandle h).run w =
      (((h.wait.run w).1.1.bind take, (h.wait.run w).1.2), (h.wait.run w).2) := by
  rw [Query.onHandle, htakes]
  rfl

/-- Any other query is answered at once. -/
theorem run_onHandle_of_none (hnone : q.ofAwaited? = none) (h : Handle) (w : World) :
    (q.onHandle h).run w = ((q.ofHandle h, h), w) := by
  rw [Query.onHandle, hnone]
  rfl

/-- What is answered at once has nothing to do with a result. -/
theorem ofHandle_after (h : Handle) (outcome : Except Failure ExecutionResult) (q : Query Item) :
    q.ofHandle (h.after outcome) = q.ofHandle h := by
  cases outcome with
  | error f => rfl
  | ok r => cases q <;> rfl

/-- A handle that has a result answers from it and does nothing. -/
theorem replies_of_some (hkept : h.result = some r) (qs : List (Query Item)) (w : World) :
    h.replies qs w =
      qs.map fun q => ((q.ofAwaited?.elim (q.ofHandle h) fun take => take r), []) := by
  induction qs with
  | nil => rfl
  | cons q qs ih =>
    cases htakes : q.ofAwaited? with
    | none =>
      rw [replies, run_onHandle_of_none htakes, List.map_cons, htakes, ← ih]
      simp
    | some take =>
      rw [replies, run_onHandle htakes, run_wait_of_some hkept, List.map_cons, htakes, ← ih]
      simp
      rfl

/-- A pass that fails leaves no trace but in the processes. -/
theorem replyAt_succ_of_error {f : Failure} (hfailed : h.verdict ps = .error f) (pid k : Nat)
    (q : Query Item) : h.replyAt pid (k + 1) ps q = h.replyAt pid k (passed ps) q := by
  have hlater : h.found? (k + 1) ps = h.found? k (passed ps) := by
    rw [found?, hfailed]
    rfl
  rw [replyAt, replyAt, awaitedAt, awaitedAt, hlater]
  rfl

/-- After a pass that comes to a result everything is answered from it. -/
theorem replyAt_succ_of_ok (hfound : h.verdict ps = .ok r) (pid k : Nat) (q : Query Item) :
    h.replyAt pid (k + 1) ps q = ((q.ofAwaited?.elim (q.ofHandle h) fun take => take r), []) := by
  have hkept : h.found? (k + 1) ps = some r := by
    rw [found?, hfound]
    rfl
  rw [replyAt, awaitedAt, hkept]
  cases q.ofAwaited? <;> rfl

/-- Every reply is told from the processes and from its place in the history: how many queries
before it were for something to wait for. -/
theorem replies_getElem? (hknown : w.Knows pid ps)
    (hchildren : h.children = Process.children pid ps)
    (hfresh : h.result = none) (qs : List (Query Item)) (i : Nat) :
    (h.replies qs w)[i]? =
      qs[i]?.map (h.replyAt pid ((qs.take i).countP Query.awaits) ps) := by
  induction qs generalizing w ps i with
  | nil => rfl
  | cons q qs ih =>
    cases htakes : q.ofAwaited? with
    | none =>
      -- Nothing changes, and the count does not either.
      have hidle : q.awaits = false := by rw [Query.awaits, htakes]; rfl
      rw [replies, run_onHandle_of_none htakes]
      cases i with
      | zero => simp [replyAt, htakes]
      | succ i =>
        rw [List.take_succ_cons, List.countP_cons_of_neg (by simp [hidle])]
        exact ih hknown hchildren i
    | some take =>
      have hawaits : q.awaits = true := by rw [Query.awaits, htakes]; rfl
      obtain ⟨w', hwaited, hpasses⟩ := run_wait hknown hchildren hfresh
      rw [replies, run_onHandle htakes, hwaited]
      cases i with
      | zero => simp [replyAt, htakes, awaitedAt, found?, afterPasses, hpasses.calls]
      | succ i =>
        rw [List.take_succ_cons, List.countP_cons_of_pos hawaits]
        change ((h.after (h.verdict ps)).replies qs w')[i]? = qs[i]?.map _
        cases hverdict : h.verdict ps with
        | error f =>
          -- What follows is the history of the processes after the pass.
          have hsame := hchildren.trans (Process.children_passed pid ps).symm
          refine (ih hpasses.self hsame i).trans ?_
          exact Option.map_congr fun q _ => (replyAt_succ_of_error hverdict ..).symm
        | ok r =>
          rw [replies_of_some (r := r) rfl, List.getElem?_map]
          refine Option.map_congr fun q _ => ?_
          rw [replyAt_succ_of_ok hverdict, ofHandle_after]

/-- The result of some more passes is that of the ones before, or else that of the last one. -/
theorem found?_succ (h : Handle) (k : Nat) (ps : List Process) :
    h.found? (k + 1) ps = (h.found? k ps).or (h.verdict (afterPasses k ps)).toOption := by
  induction k generalizing ps with
  | zero => simp [found?, afterPasses]
  | succ k ih =>
    rw [found?, ih, ← Option.or_assoc]
    rfl

/-- A wait comes to a result exactly if there is one after its pass. -/
theorem awaitedAt_eq_ok_iff :
    (h.awaitedAt pid k ps).1 = .ok r ↔ h.found? (k + 1) ps = some r := by
  rw [found?_succ, awaitedAt]
  cases h.found? k ps with
  | some s => simp
  | none => cases h.verdict (afterPasses k ps) <;> simp [Except.toOption]

/-- A result is kept. -/
theorem found?_of_le {m : Nat} (hfound : h.found? k ps = some r) (hle : k ≤ m) :
    h.found? m ps = some r := by
  induction hle with
  | refl => exact hfound
  | step _ ih => rw [found?_succ, ih, Option.some_or]

/-- Once a wait has come to a result, every later one answers it, and nothing is done. -/
theorem awaitedAt_of_lt {m : Nat} (hfound : (h.awaitedAt pid k ps).1 = .ok r) (hlt : k < m) :
    h.awaitedAt pid m ps = (.ok r, []) := by
  rw [awaitedAt, found?_of_le (awaitedAt_eq_ok_iff.1 hfound) hlt]

/-- As long as no wait has come to a result, every one makes a pass. -/
theorem awaitedAt_of_forall (hnone : ∀ j < k, ∀ r, (h.awaitedAt pid j ps).1 ≠ .ok r) :
    h.awaitedAt pid k ps =
      (h.verdict (afterPasses k ps), Process.passCalls pid (afterPasses k ps)) := by
  have hunfound : h.found? k ps = .none := by
    cases k with
    | zero => rfl
    | succ k =>
      rw [Option.eq_none_iff_forall_ne_some]
      exact fun r hfound => hnone k (Nat.lt_succ_self k) r (awaitedAt_eq_ok_iff.2 hfound)
  rw [awaitedAt, hunfound]

/-- A result has what the handle has read. -/
theorem read_of_verdict (hfound : h.verdict ps = .ok r) :
    r.stdout = h.stdout ∧ r.stageStderr = h.stageStderr := by
  unfold verdict at hfound
  split at hfound
  · cases hfound
  · split at hfound
    · cases hfound
    · obtain rfl := Except.ok.inj hfound
      exact ⟨rfl, rfl⟩

theorem read_of_found? (hfound : h.found? k ps = some r) :
    r.stdout = h.stdout ∧ r.stageStderr = h.stageStderr := by
  induction k generalizing ps with
  | zero => cases hfound
  | succ k ih =>
    rw [found?] at hfound
    cases hverdict : h.verdict ps with
    | error f =>
      rw [hverdict] at hfound
      exact ih hfound
    | ok s =>
      rw [hverdict] at hfound
      obtain rfl : s = r := Option.some.inj hfound
      exact read_of_verdict hverdict

/-- A reader that failed is held against the handle for good. -/
theorem verdict_ne_ok (hfailed : h.captureErrors ≠ []) (ps : List Process) (r : ExecutionResult) :
    h.verdict ps ≠ .ok r := by
  obtain ⟨e, es, herrors⟩ := List.exists_cons_of_ne_nil hfailed
  intro hfound
  rw [verdict, herrors] at hfound
  cases hfault : ps.findSome? Process.waitFault? with
  | some f => simp [hfault] at hfound
  | none => cases hrefused : Process.refusedWait? 0 ps <;> simp [hfault, hrefused] at hfound

theorem awaitedAt_ne_ok (hfailed : h.captureErrors ≠ []) (pid k : Nat) (ps : List Process)
    (r : ExecutionResult) : (h.awaitedAt pid k ps).1 ≠ .ok r := by
  induction k using Nat.strongRecOn generalizing r with
  | ind k ih =>
    rw [awaitedAt_of_forall ih]
    exact verdict_ne_ok hfailed _ r

end Handle

/-! ### Readers that failed -/

namespace Process

variable {ps : List Process}

theorem captureErrors_ne_nil_iff :
    captureErrors ps ≠ [] ↔ ∃ r ∈ readers ps, ∃ f, r.2.fault? = some f ∧ f.isHeard = true := by
  rw [captureErrors, ne_eq, List.filterMap_eq_nil_iff]
  push Not
  refine exists_congr fun r => and_congr_right fun _ => ?_
  rw [captureError?, ne_eq, Option.map_eq_none_iff, Option.filter_eq_none_iff]
  push Not
  rfl

end Process

/-- If no reader failed, then a wait whose pass goes well comes to a result, or has one already. -/
theorem Handle.exists_awaitedAt_eq_ok {h : Handle} (hread : h.captureErrors = [])
    (pid : Nat) {k : Nat} {ps : List Process}
    (hfine : ∀ p ∈ Process.afterPasses k ps, ∃ code, p.nextWait = .ok code) :
    ∃ r, (h.awaitedAt pid k ps).1 = .ok r := by
  simp only [awaitedAt_eq_ok_iff, found?_succ, verdict_of_fine hfine hread]
  cases h.found? k ps <;> simp [Except.toOption]

/-! ### The history of a pipeline -/

section Started

variable {e : Executor} {captured : Bool} {p : Pipeline} {w w' v : World} {h : Handle}

open Process (readers lastRead afterPasses passCalls)

/-- The replies of a pipeline that was started, to any queries one after another. Six kinds of
query make it wait, and reply from what the wait comes to at its place: with the result, with what
they take from it, or, on leaving a block, with the fault of the block, which is let out only if
the wait came to a result. As long as no wait has come to a result, every one makes a pass of its
own, and what it comes to is told from what the processes answer to that pass alone. Once a wait
has come to a result, every later one answers the same and makes no call. If a reader failed in a
way that is heard of, no wait ever comes to a result. -/
theorem Executor.replies_after_spawn (hpos : 0 < e.chunkSize)
    (hspawned : (e.spawn captured p).outcome w = (.ok h, w'))
    (hknown : v.Knows w.nextPid (w'.startedSince w)) (qs : List (Query Item)) :
    let ps := w'.startedSince w
    let told := h.replies qs v
    let awaited (k : Nat) := h.awaitedAt w.nextPid k ps
    (∀ i q, qs[i]? = some q →
      let k := (qs.take i).countP Query.awaits
      let takes (take : ExecutionResult → Item) :=
        told[i]? = some ((awaited k).1.map take, (awaited k).2)
      (q = .wait → takes .result) ∧ (∀ partner, q = .output partner → takes .result) ∧
      (q = .stdout → takes (.bytes ·.stdout)) ∧ (q = .stderr → takes (.bytes ·.stderr)) ∧
      (q = .statuses → takes (.statuses ·.statuses)) ∧
      (∀ raised, q = .block raised →
        (∀ r, (awaited k).1 = .ok r → told[i]? = some
          (raised.elim (.ok (.ofBool true)) fun f => .error (.fault f), (awaited k).2)) ∧
        (∀ f, (awaited k).1 = .error f → told[i]? = some (.error f, (awaited k).2)))) ∧
    (∀ k, (∀ j < k, ∀ r, (awaited j).1 ≠ .ok r) →
      awaited k = (h.verdict (afterPasses k ps), passCalls w.nextPid (afterPasses k ps)) ∧
      ((∀ q ∈ afterPasses k ps, ∀ f, q.nextWait = .error f → f.isSystem = true) →
        (awaited k).2 = (List.range p.stages.length).map fun i => .wait (w.nextPid + i))) ∧
    (∀ j r, (awaited j).1 = .ok r → ∀ k, j < k → awaited k = (.ok r, [])) ∧
    ((∃ r ∈ readers ps, ∃ f, r.2.fault? = some f ∧ f.isHeard = true) →
      ∀ k r, (awaited k).1 ≠ .ok r) := by
  intro ps told awaited
  obtain ⟨hhandle, hlength, -⟩ := exists_processes_of_spawn hpos hspawned
  have hreply (i : Nat) (q : Query Item) (hget : qs[i]? = some q) :
      told[i]? = some (h.replyAt w.nextPid ((qs.take i).countP Query.awaits) ps q) := by
    rw [Handle.replies_getElem? hknown (hhandle ▸ rfl) (hhandle ▸ rfl) qs i, hget, Option.map_some]
  -- A query that takes something from the result replies from what its wait comes to.
  have htaken {i : Nat} {q : Query Item} (hget : qs[i]? = some q) {take : ExecutionResult → Item}
      (htakes : q.ofAwaited? = some fun r => .ok (take r)) :
      told[i]? = some ((awaited ((qs.take i).countP Query.awaits)).1.map take,
        (awaited ((qs.take i).countP Query.awaits)).2) := by
    have hbind (x : Except Failure ExecutionResult) :
        x.bind (fun r => .ok (take r)) = x.map take := by
      cases x <;> rfl
    rw [hreply i q hget, Handle.replyAt, htakes]
    exact congrArg (fun answer => some (answer, _)) (hbind _)
  refine ⟨fun i q hget => ⟨?_, ?_, ?_, ?_, ?_, ?_⟩, fun k hnone => ?_,
    fun j r hfound k hlt => Handle.awaitedAt_of_lt hfound hlt, fun hfailed k r => ?_⟩
  · rintro rfl
    exact htaken hget rfl
  · rintro partner rfl
    exact htaken hget rfl
  · rintro rfl
    exact htaken hget rfl
  · rintro rfl
    exact htaken hget rfl
  · rintro rfl
    exact htaken hget rfl
  · rintro raised rfl
    refine ⟨fun r hfound => ?_, fun f hfailed => ?_⟩
    · rw [hreply i _ hget]
      cases raised <;> exact congrArg (fun a => some (Except.bind a _, _)) hfound
    · rw [hreply i _ hget]
      cases raised <;> exact congrArg (fun a => some (Except.bind a _, _)) hfailed
  · have hpasses : awaited k = _ := Handle.awaitedAt_of_forall hnone
    refine ⟨hpasses, fun hwaits => ?_⟩
    have hall := Process.reach_eq_length (Process.findSome?_waitFault? hwaits)
    rw [Process.length_afterPasses, hlength] at hall
    rw [hpasses, passCalls, hall]
  · have herrors : h.captureErrors = Process.captureErrors ps := hhandle ▸ rfl
    exact Handle.awaitedAt_ne_ok (herrors ▸ Process.captureErrors_ne_nil_iff.2 hfailed) _ k ps r

/-- One stage, the first wait for which is refused. Leaving a block waits again, and everything
after that is answered from its result. -/
theorem Executor.replies_after_spawn_refused_once :
    let refused : Fault := ⟨.noChild, "wait"⟩
    let raised : Fault := ⟨.internal, "body"⟩
    let w : World := { machine := .ofScript { processes := [{
      waits := [some refused], stdout := { chunks := [[97]] },
      stderr := { chunks := [[98]] } }] } }
    let start := (({} : Executor).spawn true ⟨[⟨"a", []⟩]⟩).outcome w
    let qs : List (Query Item) :=
      [.wait, .block none, .output none, .stdout, .stderr, .statuses, .block (some raised)]
    let r : ExecutionResult :=
      { statuses := [.ofReturnCode 0], stdout := [97], stageStderr := [[98]] }
    ∃ h, start.1 = .ok h ∧
      (h.replies qs start.2)[0]? = some (.error (.error (.wait 0 refused)), [.wait 1000]) ∧
      (h.replies qs start.2)[1]? = some (.ok (.ofBool true), [.wait 1000]) ∧
      (h.replies qs start.2)[2]? = some (.ok (.result r), []) ∧
      (h.replies qs start.2)[3]? = some (.ok (.bytes [97]), []) ∧
      (h.replies qs start.2)[4]? = some (.ok (.bytes [98]), []) ∧
      (h.replies qs start.2)[5]? = some (.ok (.statuses [.ofReturnCode 0]), []) ∧
      (h.replies qs start.2)[6]? = some (.error (.fault raised), []) := by
  intro refused raised w start qs r
  let ps := start.2.startedSince w
  let h : Handle := .ofProcesses true [["a"]] 1000 ps
  have hspawned : start.1 = .ok h := by decide +kernel
  have hrun : start = (.ok h, start.2) := by rw [← hspawned]
  obtain ⟨htold, -, hkept, -⟩ :=
    replies_after_spawn (by decide) hrun (start.2.knows_startedSince w) qs
  have hfirst : h.awaitedAt 1000 0 ps = (.error (.error (.wait 0 refused)), [.wait 1000]) := by
    decide +kernel
  have hsecond : h.awaitedAt 1000 1 ps = (.ok r, [.wait 1000]) := by decide +kernel
  have hlater (k : Nat) (hlt : 1 < k) : h.awaitedAt 1000 k ps = (.ok r, []) :=
    hkept 1 r (congrArg (·.1) hsecond) k hlt
  have hzeroth : (h.replies qs start.2)[0]? = some
      ((h.awaitedAt 1000 0 ps).1.map .result, (h.awaitedAt 1000 0 ps).2) :=
    (htold 0 _ rfl).1 rfl
  rw [hfirst] at hzeroth
  have hleft : (h.replies qs start.2)[1]? =
      some (.ok (.ofBool true), (h.awaitedAt 1000 1 ps).2) :=
    ((htold 1 _ rfl).2.2.2.2.2 none rfl).1 r (congrArg (·.1) hsecond)
  rw [hsecond] at hleft
  have hwhole : (h.replies qs start.2)[2]? = some
      ((h.awaitedAt 1000 2 ps).1.map .result, (h.awaitedAt 1000 2 ps).2) :=
    (htold 2 _ rfl).2.1 none rfl
  rw [hlater 2 (by decide)] at hwhole
  have hstdout : (h.replies qs start.2)[3]? = some
      ((h.awaitedAt 1000 3 ps).1.map (.bytes ·.stdout), (h.awaitedAt 1000 3 ps).2) :=
    (htold 3 _ rfl).2.2.1 rfl
  rw [hlater 3 (by decide)] at hstdout
  have hstderr : (h.replies qs start.2)[4]? = some
      ((h.awaitedAt 1000 4 ps).1.map (.bytes ·.stderr), (h.awaitedAt 1000 4 ps).2) :=
    (htold 4 _ rfl).2.2.2.1 rfl
  rw [hlater 4 (by decide)] at hstderr
  have hstatuses : (h.replies qs start.2)[5]? = some
      ((h.awaitedAt 1000 5 ps).1.map (.statuses ·.statuses), (h.awaitedAt 1000 5 ps).2) :=
    (htold 5 _ rfl).2.2.2.2.1 rfl
  rw [hlater 5 (by decide)] at hstatuses
  have hbroken : (h.replies qs start.2)[6]? =
      some (.error (.fault raised), (h.awaitedAt 1000 6 ps).2) :=
    ((htold 6 _ rfl).2.2.2.2.2 (some raised) rfl).1 r (congrArg (·.1) (hlater 6 (by decide)))
  rw [hlater 6 (by decide)] at hbroken
  exact ⟨h, hspawned, hzeroth, hleft, hwhole, hstdout, hstderr, hstatuses, hbroken⟩

/-- What a pipeline answers, if its readers are free to fail in any way. If a reader failed in a
way that is heard of, then nothing is ever answered that has to be waited for. If no reader did,
then each such query is answered once the waits for it go well, also if a reader let its fault out,
as only one can that is a thread. And whatever is answered is taken from a result that has all that
was delivered up to the end of each captured output, or up to the fault that its reader let out. -/
theorem Executor.answers_what_was_read (hpos : 0 < e.chunkSize)
    (hspawned : (e.spawn captured p).outcome w = (.ok h, w'))
    (hknown : v.Knows w.nextPid (w'.startedSince w)) :
    let ps := w'.startedSince w
    let failed (heard : Bool) := ∃ q ∈ ps, ∃ o, q.wiring o = .captured ∧
      ∃ f, (q.stream o).fault? = some f ∧ f.isHeard = heard
    let whole (r : ExecutionResult) :=
      r.stdout = lastRead ps ∧ r.stageStderr = ps.map (·.read .stderr)
    (failed true → ∀ (qs : List (Query Item)) (i : Nat) q, qs[i]? = some q → q.awaits = true →
      ∀ x calls, (h.replies qs v)[i]? ≠ some (.ok x, calls)) ∧
    (failed false → w.machine.threaded = true) ∧
    (¬ failed true → ∀ (qs : List (Query Item)) (i : Nat) q take,
      qs[i]? = some q → q.ofAwaited? = some take →
      (∀ q ∈ afterPasses ((qs.take i).countP Query.awaits) ps, ∃ code, q.nextWait = .ok code) →
        ∃ r calls, (h.replies qs v)[i]? = some (take r, calls) ∧ whole r) ∧
    (∀ (qs : List (Query Item)) (i : Nat) q take x calls,
      qs[i]? = some q → q.ofAwaited? = some take →
      (h.replies qs v)[i]? = some (.ok x, calls) → ∃ r, take r = .ok x ∧ whole r) := by
  intro ps failed whole
  obtain ⟨hhandle, -, hwired⟩ := exists_processes_of_spawn hpos hspawned
  have herrors : h.captureErrors = Process.captureErrors ps := hhandle ▸ rfl
  have htold {qs : List (Query Item)} {i : Nat} {q take} (hget : qs[i]? = some q)
      (htakes : q.ofAwaited? = some take) : ∃ k, k = (qs.take i).countP Query.awaits ∧
      (h.replies qs v)[i]? =
        some ((h.awaitedAt w.nextPid k ps).1.bind take, (h.awaitedAt w.nextPid k ps).2) := by
    refine ⟨_, rfl, ?_⟩
    rw [Handle.replies_getElem? hknown (hhandle ▸ rfl) (hhandle ▸ rfl) qs i, hget, Option.map_some,
      Handle.replyAt, htakes]
  have hread {k : Nat} {r : ExecutionResult} (hfound : (h.awaitedAt w.nextPid k ps).1 = .ok r) :
      whole r := by
    obtain ⟨hstdout, hstderr⟩ := Handle.read_of_found? (Handle.awaitedAt_eq_ok_iff.1 hfound)
    exact ⟨hstdout.trans (hhandle ▸ rfl), hstderr.trans (hhandle ▸ rfl)⟩
  -- A reply takes something from what a wait comes to.
  have hreplied {qs : List (Query Item)} {i : Nat} {q take x calls} (hget : qs[i]? = some q)
      (htakes : q.ofAwaited? = some take) (hreply : (h.replies qs v)[i]? = some (.ok x, calls)) :
      ∃ k r, (h.awaitedAt w.nextPid k ps).1 = .ok r ∧ take r = .ok x := by
    obtain ⟨k, -, htold⟩ := htold hget htakes
    have hanswer := (Prod.mk.inj (Option.some.inj (htold.symm.trans hreply))).1
    cases hawaited : (h.awaitedAt w.nextPid k ps).1 with
    | error f =>
      rw [hawaited] at hanswer
      cases hanswer
    | ok r =>
      rw [hawaited] at hanswer
      exact ⟨k, r, hawaited, hanswer⟩
  have hheard := hwired.exists_mem_readers_iff fun s => ∃ f, s.fault? = some f ∧ f.isHeard = true
  rw [← Process.captureErrors_ne_nil_iff, ← herrors] at hheard
  refine ⟨fun hfailed qs i q hget hawaits x calls hreply => ?_, ?_, ?_, ?_⟩
  · obtain ⟨take, htakes⟩ := Option.isSome_iff_exists.1 hawaits
    obtain ⟨k, r, hfound, -⟩ := hreplied hget htakes hreply
    exact Handle.awaitedAt_ne_ok (hheard.2 hfailed) _ _ _ r hfound
  · rintro ⟨q, hmem, o, hwired, f, hfault, hunheard⟩
    by_contra hthreadless
    have hheard := isHeard_of_spawn hpos hspawned (by simpa using hthreadless) hmem hwired hfault
    cases hunheard.symm.trans hheard
  · intro hunfailed qs i q take hget htakes hfine
    obtain ⟨k, rfl, hreply⟩ := htold hget htakes
    obtain ⟨r, hfound⟩ := Handle.exists_awaitedAt_eq_ok
      (not_not.1 fun hfailed => hunfailed (hheard.1 hfailed)) w.nextPid hfine
    rw [hfound] at hreply
    exact ⟨r, _, hreply, hread hfound⟩
  · intro qs i q take x calls hget htakes hreply
    obtain ⟨k, r, hfound, htaken⟩ := hreplied hget htakes hreply
    exact ⟨r, htaken, hread hfound⟩

/-- One stage, whose output the system does not let be read after one byte. -/
theorem Executor.answers_what_was_read_refused :
    let w : World := { machine := .ofScript {
      processes := [{ stdout := { chunks := [[97]], failure := some ⟨.system, "read"⟩ } }] } }
    let start := (({} : Executor).spawn true ⟨[⟨"a", []⟩]⟩).outcome w
    ∃ h, start.1 = .ok h ∧
      ∀ (qs : List (Query Item)) (i : Nat) q, qs[i]? = some q → q.awaits = true →
        ∀ x calls, (h.replies qs start.2)[i]? ≠ some (.ok x, calls) := by
  intro w start
  let h : Handle := .ofProcesses true [["a"]] 1000 (start.2.startedSince w)
  have hspawned : start.1 = .ok h := by decide +kernel
  have hrun : start = (.ok h, start.2) := by rw [← hspawned]
  have hreads : (start.2.startedSince w).map
    (fun q => (q.wiring .stdout, (q.stream .stdout).fault?)) =
      [(.captured, some ⟨.system, "read"⟩)] := by
    decide +kernel
  obtain ⟨q, rest, hstarted, hhere, -⟩ := List.map_eq_cons_iff.1 hreads
  obtain ⟨hcaptured, hfailed⟩ := Prod.mk.inj hhere
  refine ⟨h, hspawned, ?_⟩
  refine (answers_what_was_read (by decide) hrun (start.2.knows_startedSince w)).1 ?_
  exact ⟨q, hstarted ▸ List.mem_cons_self, .stdout, hcaptured, _, hfailed, rfl⟩

/-- A reader that is a thread and runs out of memory is not heard of: its read fails after two
bytes, and the result has these two bytes as if they were all. -/
theorem Executor.answers_part_of_output :
    let script : Script := {
      processes := [{ stdout := { chunks := [[97, 98]], failure := some ⟨.noMemory, "read"⟩ } }] }
    let w : World := { machine := { Machine.ofScript script with threaded := true } }
    let start := (({} : Executor).spawn true ⟨[⟨"a", []⟩]⟩).outcome w
    ∃ h, start.1 = .ok h ∧
      (start.2.startedSince w).map (fun q => (q.wiring .stdout, (q.stream .stdout).readFault?)) =
        [(.captured, some ⟨.noMemory, "read"⟩)] ∧
      (h.wait.run start.2).1.1 =
        .ok { statuses := [.ofReturnCode 0], stdout := [97, 98], stageStderr := [[]] } := by
  intro script w start
  refine ⟨.ofProcesses true [["a"]] 1000 (start.2.startedSince w), ?_, ?_, ?_⟩
  all_goals decide +kernel

end Started

end Pipework
