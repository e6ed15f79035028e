import Pipework.Proofs.Run.Capture

/-!
# Waiting for a pipeline

A pass over the processes of a handle waits for each of them once, in the order of the stages, and
goes on after a wait that the system refuses. Only another fault ends it early. What comes of a
pass is determined by what the processes answer next and by what was read of them: the first
refusal counts most, then the first reader that failed, and a result takes that neither came up.

## Main definitions

* `Process.nextWait`, `Process.awaited` — what the next wait answers, and the process after it
* `Process.reach` — how many processes a pass comes to
* `Process.passCalls`, `Process.passed` — the calls of a pass, and the processes after it
* `Process.refusedWait?` — the error of the first wait that fails
* `Handle.verdict` — what comes of a pass
* `World.Passes` — one world comes from another by a pass

## Main results

* `Handle.outcome_collect` — what comes of a pass, and by which calls
* `Process.refusedWait?_eq_some` — the error of a wait is that of the first one that fails
* `Executor.wait_after_spawn` — the first wait for a pipeline that was started
-/

namespace Pipework

namespace Process

/-! ### What a pass comes to -/

/-- What the next wait for the process answers. -/
def nextWait (p : Process) : Except Fault Int :=
  match p.conduct.waits.head?.join with
  | some f => .error f
  | none => .ok p.conduct.returnCode

/-- The process after one more wait. -/
def awaited (p : Process) : Process :=
  { p with conduct := { p.conduct with waits := p.conduct.waits.tail } }

/-- How many of the processes a pass waits for. It ends at a wait that fails without being refused
by the system, and otherwise it comes to all of them. -/
def reach (ps : List Process) : Nat :=
  match ps.findIdx? (·.waitFault?.isSome) with
  | some i => i + 1
  | none => ps.length

/-- The calls of a pass over processes with numbers from the given one on. -/
def passCalls (pid : Nat) (ps : List Process) : List Call :=
  (List.range (reach ps)).map fun i => .wait (pid + i)

/-- The processes after a pass. -/
def passed (ps : List Process) : List Process :=
  (ps.take (reach ps)).map awaited ++ ps.drop (reach ps)

/-- The error of the first wait that fails, if the first process runs the given stage. -/
def refusedWait? (index : Nat) : List Process → Option Error
  | [] => none
  | p :: ps =>
    match p.nextWait with
    | .error f => some (.wait index f)
    | .ok _ => refusedWait? (index + 1) ps

/-- The statuses that a pass over the processes has. -/
def statuses (ps : List Process) : List ExitStatus :=
  ps.filterMap fun p => p.nextWait.toOption.map ExitStatus.ofReturnCode

variable {p q : Process} {ps qs : List Process} {pid : Nat} {f : Fault}

/-- A wait that is answered is answered with the return code. -/
theorem nextWait_eq_ok {code : Int} (h : p.nextWait = .ok code) : code = p.conduct.returnCode := by
  unfold nextWait at h
  split at h
  · cases h
  · exact (Except.ok.inj h).symm

theorem waitFault?_of_nextWait_ok {code : Int} (h : p.nextWait = .ok code) :
    p.waitFault? = none := by
  unfold nextWait at h
  rw [waitFault?]
  split at h
  · cases h
  · next hnone => rw [hnone, Option.filter_none]

theorem waitFault?_of_nextWait_error (h : p.nextWait = .error f) :
    p.waitFault? = if f.isSystem then none else some f := by
  unfold nextWait at h
  rw [waitFault?]
  split at h
  · next g hsome =>
    obtain rfl := Except.error.inj h
    rw [hsome]
    cases hsystem : g.isSystem <;> simp [Option.filter, hsystem]
  · cases h

theorem reach_nil : reach [] = 0 := rfl

theorem reach_cons (p : Process) (ps : List Process) :
    reach (p :: ps) = if p.waitFault?.isSome then 1 else reach ps + 1 := by
  unfold reach
  rw [List.findIdx?_cons]
  cases p.waitFault?.isSome with
  | true => rfl
  | false =>
    cases ps.findIdx? (·.waitFault?.isSome) <;> rfl

/-- If the waits fail at most by refusal, then no fault ends a pass. -/
theorem findSome?_waitFault? (hwaits : ∀ p ∈ ps, ∀ f, p.nextWait = .error f → f.isSystem = true) :
    ps.findSome? waitFault? = none := by
  rw [List.findSome?_eq_none_iff]
  intro p hmem
  cases hnext : p.nextWait with
  | ok code => exact waitFault?_of_nextWait_ok hnext
  | error f => rw [waitFault?_of_nextWait_error hnext, hwaits p hmem f hnext, if_pos rfl]

theorem findSome?_waitFault?_of_ok (hfine : ∀ p ∈ ps, ∃ code, p.nextWait = .ok code) :
    ps.findSome? waitFault? = none := by
  refine findSome?_waitFault? fun p hmem f hfailed => ?_
  obtain ⟨code, hanswered⟩ := hfine p hmem
  exact nomatch hfailed.symm.trans hanswered

/-- A pass that no fault ends comes to all processes. -/
theorem reach_eq_length (hfine : ps.findSome? waitFault? = none) : reach ps = ps.length := by
  have hnone : ps.findIdx? (·.waitFault?.isSome) = none := by
    rw [List.findIdx?_eq_none_iff]
    intro p hmem
    rw [List.findSome?_eq_none_iff.1 hfine p hmem, Option.isSome_none]
  rw [reach, hnone]

theorem passCalls_cons (pid : Nat) (p : Process) (ps : List Process) :
    passCalls pid (p :: ps) =
      .wait pid :: if p.waitFault?.isSome then [] else passCalls (pid + 1) ps := by
  rw [passCalls, reach_cons]
  split
  · rfl
  · rw [List.range_succ_eq_map, List.map_cons, List.map_map, passCalls]
    simp only [Nat.add_zero, Function.comp_def, Nat.succ_eq_add_one, Nat.add_assoc, Nat.add_comm 1]

theorem passed_cons (p : Process) (ps : List Process) :
    passed (p :: ps) = p.awaited :: if p.waitFault?.isSome then ps else passed ps := by
  rw [passed, reach_cons]
  split
  · simp
  · rfl

@[simp] theorem length_passed (ps : List Process) : (passed ps).length = ps.length := by
  rw [passed, List.length_append, List.length_map, ← List.length_append, List.take_append_drop]

section Conduct

variable {change : Process → Process}

/-! A pass goes by the conduct of the processes only, whatever else becomes of them. -/

theorem reach_map (hkept : ∀ p, (change p).conduct = p.conduct) (ps : List Process) :
    reach (ps.map change) = reach ps := by
  rw [reach, reach, List.findIdx?_map, List.length_map]
  simp only [Function.comp_def, waitFault?, hkept]

theorem passCalls_map (hkept : ∀ p, (change p).conduct = p.conduct) (pid : Nat)
    (ps : List Process) : passCalls pid (ps.map change) = passCalls pid ps := by
  rw [passCalls, passCalls, reach_map hkept]

theorem findSome?_waitFault?_map (hkept : ∀ p, (change p).conduct = p.conduct)
    (ps : List Process) : (ps.map change).findSome? waitFault? = ps.findSome? waitFault? := by
  have hsame : waitFault? ∘ change = waitFault? :=
    funext fun p => by rw [Function.comp_apply, waitFault?, hkept, waitFault?]
  rw [List.findSome?_map, hsame]

theorem refusedWait?_map (hkept : ∀ p, (change p).conduct = p.conduct) (index : Nat)
    (ps : List Process) : refusedWait? index (ps.map change) = refusedWait? index ps := by
  induction ps generalizing index with
  | nil => rfl
  | cons p ps ih =>
    have hsame : (change p).nextWait = p.nextWait := by rw [nextWait, nextWait, hkept]
    rw [List.map_cons, refusedWait?, refusedWait?, hsame, ih]

theorem statuses_map (hkept : ∀ p, (change p).conduct = p.conduct) (ps : List Process) :
    statuses (ps.map change) = statuses ps := by
  rw [statuses, statuses, List.filterMap_map]
  simp only [Function.comp_def, nextWait, hkept]

end Conduct

/-- A pass over processes leaves them wired as they are. -/
theorem children_passed (pid : Nat) (ps : List Process) :
    children pid (passed ps) = children pid ps := by
  induction ps generalizing pid with
  | nil => rfl
  | cons p ps ih =>
    have hsame : p.awaited.child pid = p.child pid := rfl
    rw [passed_cons, children_cons, children_cons, hsame]
    split
    · rfl
    · rw [ih]

/-- The error of a wait is that of the first one that fails. -/
theorem refusedWait?_eq_some (index : Nat) {before after : List Process}
    (hfine : ∀ q ∈ before, ∃ code, q.nextWait = .ok code) (hrefused : p.nextWait = .error f) :
    refusedWait? index (before ++ p :: after) = some (.wait (index + before.length : Nat) f) := by
  induction before generalizing index with
  | nil =>
    rw [List.nil_append, refusedWait?, hrefused]
    rfl
  | cons q before ih =>
    obtain ⟨code, hanswered⟩ := hfine q List.mem_cons_self
    have hshift : index + 1 + before.length = index + (q :: before).length := by
      rw [List.length_cons]
      omega
    rw [List.cons_append, refusedWait?, hanswered, ← hshift]
    exact ih (index + 1) fun q hmem => hfine q (List.mem_cons_of_mem _ hmem)

/-- If no wait fails, then there is no error, and every process has its status. -/
theorem refusedWait?_eq_none (hfine : ∀ q ∈ ps, ∃ code, q.nextWait = .ok code) (index : Nat) :
    refusedWait? index ps = none ∧
      statuses ps = ps.map fun q => .ofReturnCode q.conduct.returnCode := by
  induction ps generalizing index with
  | nil => exact ⟨rfl, rfl⟩
  | cons p ps ih =>
    obtain ⟨code, hanswered⟩ := hfine p List.mem_cons_self
    obtain ⟨hnone, hrest⟩ := ih (fun q hmem => hfine q (List.mem_cons_of_mem _ hmem)) (index + 1)
    refine ⟨?_, ?_⟩
    · rw [refusedWait?, hanswered]
      exact hnone
    · rw [statuses, List.filterMap_cons, hanswered, nextWait_eq_ok hanswered,
        List.map_cons, ← hrest]
      rfl

end Process

/-! ### One pass -/

/-- One world comes from another by a pass over the processes with numbers from the given one on,
which leaves the other ones alone. -/
structure World.Passes (w : World) (pid : Nat) (ps : List Process) (w' : World) : Prop where
  calls : w'.calls = w.calls ++ Process.passCalls pid ps
  self : w'.Knows pid (Process.passed ps)
  others : ∀ other, other < pid ∨ pid + ps.length ≤ other → w'.process? other = w.process? other

namespace World

variable {w w₁ w₂ : World} {pid : Nat} {p : Process} {ps : List Process}

theorem knows_cons_iff :
    w.Knows pid (p :: ps) ↔ w.process? pid = some p ∧ w.Knows (pid + 1) ps := by
  constructor
  · intro h
    refine ⟨h 0 p rfl, fun j q hget => ?_⟩
    rw [Nat.add_right_comm, Nat.add_assoc]
    exact h (j + 1) q hget
  · rintro ⟨hself, hrest⟩ j q hget
    cases j with
    | zero => exact hself.trans hget
    | succ j =>
      have hlater := hrest j q hget
      rwa [Nat.add_right_comm, Nat.add_assoc] at hlater

/-- What follows a note starts in the world where it is taken. -/
theorem outcome_note_bind {ε α : Type} (n : Note) (a : Unit → Action World ε α) (w : World) :
    ((liftM (note n) : Action World ε Unit) >>= a).outcome w = (a ()).outcome (w.takeNote n) :=
  Action.outcome_bind_of_ok rfl

theorem outcome_wait_eq (hknown : w.process? pid = some p) :
    (wait pid).outcome w = (p.nextWait, (w.log (.wait pid)).change pid Process.awaited) := by
  have hlogged : (w.log (.wait pid)).process? pid = some p := hknown
  simp only [wait, Action.outcome_ofFun, hlogged, Process.nextWait]
  cases p.conduct.waits.head?.join <;> rfl

/-- A pass goes on with the other processes, unless a fault ends it. -/
theorem Passes.cons (hknown : w.Knows pid (p :: ps))
    (hfirst : w.Turns pid [.wait pid] p.awaited w₁)
    (hrest : if p.waitFault?.isSome then w₂ = w₁ else w₁.Passes (pid + 1) ps w₂) :
    w.Passes pid (p :: ps) w₂ := by
  have hlater : w₁.Knows (pid + 1) ps := hknown.tail hfirst
  cases hended : p.waitFault?.isSome with
  | true =>
    -- The others are not come to, and are as they were.
    rw [hended, if_pos rfl] at hrest
    subst hrest
    refine ⟨?_, ?_, fun other hout => hfirst.others other ?_⟩
    · rw [hfirst.calls, Process.passCalls_cons, hended, if_pos rfl]
    · rw [Process.passed_cons, hended, if_pos rfl, knows_cons_iff]
      exact ⟨hfirst.self, hlater⟩
    · rw [List.length_cons] at hout
      omega
  | false =>
    rw [hended, if_neg Bool.false_ne_true] at hrest
    refine ⟨?_, ?_, fun other hout => ?_⟩
    · rw [hrest.calls, hfirst.calls, Process.passCalls_cons, hended, if_neg Bool.false_ne_true,
        List.append_assoc]
      rfl
    · rw [Process.passed_cons, hended, if_neg Bool.false_ne_true, knows_cons_iff]
      exact ⟨(hrest.others pid (.inl (by omega))).trans hfirst.self, hrest.self⟩
    · rw [List.length_cons] at hout
      rw [hrest.others other (by omega), hfirst.others other (by omega)]

end World

namespace Handle

variable {w w' : World} {pid : Nat} {ps : List Process} {h : Handle}

/-- Waiting for processes makes a pass over them. It answers the statuses that were had and the
error of the first wait that was refused, unless it meets another fault. -/
theorem outcome_awaitAll (hknown : w.Knows pid ps) (index : Nat) :
    ∃ w', (awaitAll index (Process.children pid ps)).outcome w =
        ((match ps.findSome? Process.waitFault? with
          | some f => .error f
          | none => .ok (Process.statuses ps, Process.refusedWait? index ps)), w') ∧
      w.Passes pid ps w' := by
  induction ps generalizing w pid index with
  | nil => exact ⟨w, rfl, by simp [Process.passCalls, Process.reach_nil], hknown, fun _ _ => rfl⟩
  | cons p ps ih =>
    have hself : w.process? pid = some p := hknown 0 p rfl
    have hwaited := World.outcome_wait_eq hself
    have hfirst : w.Turns pid [.wait pid] p.awaited _ :=
      (World.Turns.log hself (.wait pid)).trans
        (.change (show (w.log (.wait pid)).process? pid = some p from hself) Process.awaited)
    have hattempted :
      ((World.wait pid).attempt : Action World Fault (Except Fault Int)).outcome w =
        (.ok p.nextWait, (w.log (.wait pid)).change pid Process.awaited) := by
      rw [Action.outcome_attempt, hwaited]
    rw [Process.children_cons, awaitAll, List.findSome?_cons, Process.refusedWait?,
      Process.statuses, List.filterMap_cons]
    cases hnext : p.nextWait with
    | ok code =>
      -- The status is noted, and the pass goes on.
      have hfine := Process.waitFault?_of_nextWait_ok hnext
      have hnoted := hfirst.takeNote (.finished index pid (.ofReturnCode code))
      obtain ⟨w₂, hrest, hpasses⟩ := ih (hknown.tail hnoted) (index + 1)
      refine ⟨w₂, ?_, .cons hknown hnoted (by rw [hfine]; exact hpasses)⟩
      rw [hnext] at hattempted
      rw [hfine]
      refine (Action.outcome_bind_of_ok hattempted).trans ?_
      refine (World.outcome_note_bind ..).trans ?_
      refine (Action.outcome_bind ..).trans ?_
      dsimp only [Process.child]
      rw [hrest]
      cases ps.findSome? Process.waitFault? <;> rfl
    | error f =>
      have hfault := Process.waitFault?_of_nextWait_error hnext
      rw [hnext] at hattempted
      cases hsystem : f.isSystem with
      | true =>
        -- A refusal is noted, and the pass goes on without a status.
        rw [hsystem, if_pos rfl] at hfault
        have hnoted := hfirst.takeNote (.waitFailed index pid f)
        obtain ⟨w₂, hrest, hpasses⟩ := ih (hknown.tail hnoted) (index + 1)
        refine ⟨w₂, ?_, .cons hknown hnoted (by rw [hfault]; exact hpasses)⟩
        rw [hfault]
        refine (Action.outcome_bind_of_ok hattempted).trans ?_
        dsimp only
        rw [hsystem]
        refine (World.outcome_note_bind ..).trans ?_
        refine (Action.outcome_bind ..).trans ?_
        dsimp only [Process.child]
        rw [hrest]
        cases ps.findSome? Process.waitFault? <;> rfl
      | false =>
        -- Any other fault ends the pass, whatever was noted before.
        rw [hsystem, if_neg Bool.false_ne_true] at hfault
        refine ⟨_, ?_, .cons hknown hfirst (by rw [hfault]; rfl)⟩
        rw [hfault]
        refine (Action.outcome_bind_of_ok hattempted).trans ?_
        dsimp only
        rw [hsystem]
        rfl

/-- What comes of a pass over processes of the handle. A fault that ends it counts most, then the
first wait that was refused, and then the first reader that failed. -/
def verdict (h : Handle) (ps : List Process) : Except Failure ExecutionResult :=
  match ps.findSome? Process.waitFault? with
  | some f => .error (.fault f)
  | none =>
    match (Process.refusedWait? 0 ps).or h.captureErrors.head? with
    | some e => .error (.error e)
    | none =>
      .ok { statuses := Process.statuses ps, stdout := h.stdout, stageStderr := h.stageStderr }

/-- A wait that was refused is what comes of a pass, if no other fault ends it. -/
theorem verdict_of_refused {before after : List Process} {q : Process} {f : Fault}
    (hwaits : ∀ p ∈ ps, ∀ f, p.nextWait = .error f → f.isSystem = true)
    (hsplit : ps = before ++ q :: after) (hfine : ∀ p ∈ before, ∃ code, p.nextWait = .ok code)
    (hrefused : q.nextWait = .error f) (h : Handle) :
    h.verdict ps = .error (.error (.wait before.length f)) := by
  have herror : Process.refusedWait? 0 ps = some (.wait (0 + before.length : Nat) f) :=
    hsplit ▸ Process.refusedWait?_eq_some 0 hfine hrefused
  rw [verdict, Process.findSome?_waitFault? hwaits, herror, Nat.zero_add]
  rfl

/-- A reader that failed is what comes of a pass, if all waits are answered. -/
theorem verdict_of_captureError {e : Error} (hfine : ∀ p ∈ ps, ∃ code, p.nextWait = .ok code)
    (hfailed : h.captureErrors.head? = some e) : h.verdict ps = .error (.error e) := by
  have hwaits := Process.findSome?_waitFault?_of_ok hfine
  rw [verdict, hwaits, (Process.refusedWait?_eq_none hfine 0).1, hfailed]
  rfl

/-- A result is what comes of a pass, if all waits are answered and no reader failed. -/
theorem verdict_of_fine (hfine : ∀ p ∈ ps, ∃ code, p.nextWait = .ok code)
    (hread : h.captureErrors = []) :
    h.verdict ps = .ok {
      statuses := ps.map fun p => .ofReturnCode p.conduct.returnCode
      stdout := h.stdout
      stageStderr := h.stageStderr } := by
  obtain ⟨hnone, hstatuses⟩ := Process.refusedWait?_eq_none hfine 0
  rw [verdict, Process.findSome?_waitFault?_of_ok hfine, hnone, hread, hstatuses]
  rfl

/-- What comes of a pass over the processes of a handle, and by which calls. -/
theorem outcome_collect (hknown : w.Knows pid ps)
    (hchildren : h.children = Process.children pid ps) :
    ∃ w', h.collect.outcome w = (h.verdict ps, w') ∧ w.Passes pid ps w' := by
  obtain ⟨w', hwaited, hpasses⟩ := outcome_awaitAll hknown 0
  refine ⟨w', ?_, hpasses⟩
  rw [collect, hchildren, Action.outcome_bind, Action.outcome_mapFailure, hwaited, verdict]
  cases ps.findSome? Process.waitFault? with
  | some f => rfl
  | none =>
    change ((match (Process.refusedWait? 0 ps).or h.captureErrors.head? with
      | some e => throw (.error e)
      | none => pure _ : Action World Failure ExecutionResult).outcome w') = _
    cases (Process.refusedWait? 0 ps).or h.captureErrors.head? <;> rfl

/-- The handle after a pass, which keeps a result and nothing else. -/
def after (h : Handle) : Except Failure ExecutionResult → Handle
  | .ok r => { h with result := some r }
  | .error _ => h

/-- A handle that has no result yet makes a pass. -/
theorem run_wait (hknown : w.Knows pid ps) (hchildren : h.children = Process.children pid ps)
    (hfresh : h.result = none) :
    ∃ w', h.wait.run w = ((h.verdict ps, h.after (h.verdict ps)), w') ∧ w.Passes pid ps w' := by
  obtain ⟨w', hcollected, hpasses⟩ := outcome_collect hknown hchildren
  refine ⟨w', ?_, hpasses⟩
  rw [wait, hfresh]
  refine (Action.run_bind_of_eq
    (show h.collect.run.run w = (h.verdict ps, w') from hcollected)).trans ?_
  cases h.verdict ps <;> rfl

/-- A handle that has a result answers it, and nothing is done. -/
theorem run_wait_of_some {r : ExecutionResult} (hkept : h.result = some r) (w : World) :
    h.wait.run w = ((.ok r, h), w) := by
  rw [wait, hkept]
  rfl

end Handle

/-! ### The first wait for a pipeline -/

namespace Process

variable {ps : List Process}

/-- Readers that end well, or with a fault that nobody hears of, leave no error. -/
theorem filterMap_captureError?_eq_nil {rs : List (String × Stream)}
    (hfine : ∀ r ∈ rs, r.2.fault? = none) : rs.filterMap captureError? = [] := by
  rw [List.filterMap_eq_nil_iff]
  intro r hmem
  rw [captureError?, hfine r hmem]
  rfl

/-- The first error of readers is that of the first one that fails, if it is heard of. -/
theorem head?_captureErrors {before after : List (String × Stream)} {r : String × Stream}
    {f : Fault}
    (hsplit : readers ps = before ++ r :: after) (hfine : ∀ s ∈ before, s.2.fault? = none)
    (hfailed : r.2.fault? = some f) (hheard : f.isHeard = true) :
    (captureErrors ps).head? = some (.capture r.1 f) := by
  have herror : captureError? r = some (.capture r.1 f) := by
    rw [captureError?, hfailed, Option.filter_some, if_pos hheard]
    rfl
  rw [captureErrors, hsplit, List.filterMap_append, filterMap_captureError?_eq_nil hfine,
    List.nil_append, List.filterMap_cons, herror, List.head?_cons]

end Process

section FirstWait

variable {e : Executor} {captured : Bool} {p : Pipeline} {w w' v : World} {h : Handle}

open Process (readers lastRead)

/-- The first wait for a pipeline that was started, if waits fail at most by refusal and readers at
most with a fault that is heard of. Every process is waited for once, in the order of the stages. A
wait that was refused counts before a reader that failed, and of either the first one counts.
Without them the result has one status and one error output for each stage, and the output of the
last. -/
theorem Executor.wait_after_spawn (hpos : 0 < e.chunkSize)
    (hspawned : (e.spawn captured p).outcome w = (.ok h, w'))
    (hknown : v.Knows w.nextPid (w'.startedSince w))
    (hwaits : ∀ q ∈ w'.startedSince w, ∀ f, q.nextWait = .error f → f.isSystem = true)
    (hreads : ∀ r ∈ readers (w'.startedSince w), ∀ f, r.2.fault? = some f → f.isHeard = true) :
    let ps := w'.startedSince w
    let outcome := (h.wait.run v).1.1
    ps.length = p.stages.length ∧
    (h.wait.run v).2.calls =
      v.calls ++ (List.range p.stages.length).map (fun i => .wait (w.nextPid + i)) ∧
    (∀ before q after f, ps = before ++ q :: after →
      (∀ r ∈ before, ∃ code, r.nextWait = .ok code) → q.nextWait = .error f →
        outcome = .error (.error (.wait before.length f))) ∧
    ((∀ q ∈ ps, ∃ code, q.nextWait = .ok code) →
      (∀ before r after f, readers ps = before ++ r :: after →
        (∀ s ∈ before, s.2.fault? = none) → r.2.fault? = some f →
          outcome = .error (.error (.capture r.1 f))) ∧
      ((∀ r ∈ readers ps, r.2.fault? = none) →
        outcome = .ok {
          statuses := ps.map fun q => .ofReturnCode q.conduct.returnCode
          stdout := lastRead ps
          stageStderr := ps.map (·.read .stderr) })) := by
  intro ps outcome
  obtain ⟨rfl, hlength, -⟩ := exists_processes_of_spawn hpos hspawned
  obtain ⟨v', hwaited, hpasses⟩ :=
    Handle.run_wait (h := .ofProcesses captured p.argvs w.nextPid ps) hknown rfl rfl
  have hanswered : outcome = (Handle.ofProcesses captured p.argvs w.nextPid ps).verdict ps :=
    congrArg (·.1.1) hwaited
  -- The verdict tells the answer; the calls are those of one pass.
  refine ⟨hlength, ?_, fun before q after f hsplit hfine hrefused => ?_,
    fun hfine => ⟨?_, fun hread => ?_⟩⟩
  · have hcalls := hpasses.calls
    rw [Process.passCalls, Process.reach_eq_length (Process.findSome?_waitFault? hwaits), hlength]
      at hcalls
    rw [← hcalls]
    exact congrArg (fun x => x.2.calls) hwaited
  · rw [hanswered]
    exact Handle.verdict_of_refused hwaits hsplit hfine hrefused _
  · intro before r after f hsplit hended hfailed
    have hheard := hreads r (hsplit ▸ List.mem_append_right before List.mem_cons_self) f hfailed
    rw [hanswered]
    exact Handle.verdict_of_captureError hfine
      (Process.head?_captureErrors hsplit hended hfailed hheard)
  · rw [hanswered]
    exact Handle.verdict_of_fine hfine (Process.filterMap_captureError?_eq_nil hread)

/-- Two stages, the first of which is lost to the system. The output of the second cannot be read
to its end either, but the lost stage is the one that is reported, after both were waited for. -/
theorem Executor.wait_after_spawn_lost_stage :
    let lost : Fault := ⟨.noChild, "wait"⟩
    let w : World := { machine := .ofScript {
      processes := [{ waits := [some lost] },
        { stdout := { chunks := [[97]], failure := some ⟨.system, "read"⟩ } }] } }
    let start := (({} : Executor).spawn true ⟨[⟨"a", []⟩, ⟨"b", []⟩]⟩).outcome w
    ∃ h, start.1 = .ok h ∧
      (h.wait.run start.2).1.1 = .error (.error (.wait 0 lost)) ∧
      (h.wait.run start.2).2.calls = start.2.calls ++ [.wait 1000, .wait 1001] := by
  intro lost w start
  let h : Handle := .ofProcesses true [["a"], ["b"]] 1000 (start.2.startedSince w)
  have hspawned : start.1 = .ok h := by decide +kernel
  have hrun : start = (.ok h, start.2) := by rw [← hspawned]
  have hwaits : (start.2.startedSince w).map Process.nextWait = [.error lost, .ok 0] := by
    decide +kernel
  have hreads : (readers (start.2.startedSince w)).map (·.2.fault?) =
      [some ⟨.system, "read"⟩, none, none] := by
    decide +kernel
  obtain ⟨-, hcalls, hrefused, -⟩ :=
    wait_after_spawn (by decide) hrun (start.2.knows_startedSince w)
      (fun q hmem f hfailed => by
        have hknown := List.mem_map_of_mem (f := Process.nextWait) hmem
        rw [hwaits, hfailed] at hknown
        obtain rfl : f = lost := by simpa using hknown
        rfl)
      (fun r hmem f hfailed => by
        have hknown := List.mem_map_of_mem (f := fun r : String × Stream => r.2.fault?) hmem
        rw [hreads, hfailed] at hknown
        obtain rfl : f = ⟨.system, "read"⟩ := by simpa using hknown
        rfl)
  obtain ⟨q, rest, hstarted, hmissed, -⟩ := List.map_eq_cons_iff.1 hwaits
  refine ⟨h, hspawned, hrefused [] q rest lost hstarted (by simp) hmissed, ?_⟩
  rw [hcalls]
  rfl

end FirstWait

end Pipework
