import Pipework.Proofs.Run.Leaks
import Pipework.Proofs.Run.Wiring

/-!
# A stage that is refused

The system may refuse the link of a stage, or its process. The stages before it run by then, and
the parent undoes the start: it closes what is left of the links and ends the children one after
another. If nothing stops it in this, the failure that comes out names the stage. What stops it is
a fault in closing a descriptor or a captured output, a kill that fails though the process is not
gone, or a wait that fails otherwise than by the system: then that fault comes out in its place,
and children are left to themselves.

## Main definitions

* `Refusal` — what the system refuses a stage
* `World.Refuses` — the first call of a start that fails is one for the given stage
* `Plan.refusedCalls`, `Plan.refusedLinks` — the calls for that stage, and the links it leaves
  behind

## Main results

* `Launch.stopped_of_refuses` — where a start stops that is refused a stage
* `Executor.spawn_refused` — what comes of such a start, if nothing stops the undoing
* `Executor.spawn_refused_iff` — the failure comes out, and no child is left, exactly in that case
-/

namespace Pipework

/-- What the system refuses a stage, and for which reason. -/
inductive Refusal where
  | link (f : Fault)
  | process (f : Fault)
  deriving Repr, DecidableEq

namespace Refusal

/-- The reason. -/
def fault : Refusal → Fault
  | link f | process f => f

/-- The refusal is reported as one of the stage; any other fault is let through as it is. -/
def Reported : Refusal → Prop
  | link f => f.isSystem = true
  | process f => f.isSystem = true ∨ f.isInvalid = true

/-- The failure that comes of the refusal of a stage. -/
def failure (stage : Nat) (program : String) : Refusal → Failure
  | link f => Launch.linkFailure stage program f
  | process f => Launch.processFailure stage program f

theorem failure_of_reported {refusal : Refusal} (h : refusal.Reported) (stage : Nat)
    (program : String) :
    refusal.failure stage program = .error (.spawn stage (some program) refusal.fault) := by
  cases refusal with
  | link f => simp [failure, Launch.linkFailure, Launch.notStarted, fault, show f.isSystem from h]
  | process f =>
    have heither : (f.isSystem || f.isInvalid) = true := by simpa [Reported] using h
    simp [failure, Launch.processFailure, Launch.notStarted, fault, heither]

theorem failure_of_not_reported {refusal : Refusal} (h : ¬ refusal.Reported) (stage : Nat)
    (program : String) : refusal.failure stage program = .fault refusal.fault := by
  cases refusal with
  | link f => simp [failure, Launch.linkFailure, fault, show ¬ f.isSystem from h]
  | process f =>
    have hneither : (f.isSystem || f.isInvalid) = false := by simpa [Reported] using h
    simp [failure, Launch.processFailure, fault, hneither]

end Refusal

/-- The first call of a start that fails is one for the given stage: the one for its link or the
one for its process. -/
structure World.Refuses (w : World) (argvs : List (List String)) (k : Nat) (refusal : Refusal) :
    Prop where
  stage : k < argvs.length
  before : w.GrantsFirst argvs k
  refused :
    match refusal with
    | .link f => k + 1 < argvs.length ∧ w.machine.pipeFailure (w.pipeCalls + k) = some f
    | .process f =>
      (k + 1 < argvs.length → w.machine.pipeFailure (w.pipeCalls + k) = none) ∧
        w.machine.start (w.startCalls + k) argvs[k] = .error f

namespace Plan

/-- The calls for a stage that is refused. -/
def refusedCalls (plan : Plan) (k : Nat) (argv : List String) : Refusal → List Call
  | .link _ => [.pipeFailed]
  | .process _ =>
    (if k + 1 < plan.count then [.pipe (plan.reader k) (plan.writer k)] else []) ++
      [.start argv (plan.stdin k) (plan.stdout k) plan.stderr]

/-- The links when a stage is refused, newest first. -/
def refusedLinks (plan : Plan) (k : Nat) : Refusal → List Link
  | .link _ => plan.openLinks k
  | .process _ =>
    (if k + 1 < plan.count then [⟨k, some (plan.reader k), some (plan.writer k)⟩] else []) ++
      plan.openLinks k

/-- The descriptors that are held when a stage is refused, in the order in which they are closed:
those of its own link, the write end first, and the read end of the link before it. -/
def leftOver (plan : Plan) (k : Nat) (refusal : Refusal) : List Nat :=
  (match refusal with
    | .link _ => []
    | .process _ => if k + 1 < plan.count then [plan.writer k, plan.reader k] else []) ++
    if 0 < k then [plan.reader (k - 1)] else []

theorem not_isOnProcess_of_mem_calls {plan : Plan} {argvs : List (List String)} {c : Call}
    (hmem : c ∈ plan.calls argvs) : ¬ c.isOnProcess := by
  obtain ⟨cs, hstage, hmem⟩ := List.mem_flatten.1 hmem
  obtain ⟨i, hlt, rfl⟩ := List.mem_mapIdx.1 hstage
  intro honProcess
  unfold stageCalls at hmem
  split_ifs at hmem <;> cases c <;> simp [Call.isOnProcess] at hmem honProcess

theorem not_isOnProcess_of_mem_refusedCalls {plan : Plan} {k : Nat} {argv : List String}
    {refusal : Refusal} {c : Call} (hmem : c ∈ plan.refusedCalls k argv refusal) :
    ¬ c.isOnProcess := by
  intro honProcess
  cases refusal with
  | link f => cases c <;> simp [refusedCalls, Call.isOnProcess] at hmem honProcess
  | process f =>
    unfold refusedCalls at hmem
    split_ifs at hmem <;> cases c <;> simp [Call.isOnProcess] at hmem honProcess

theorem flatMap_held_openLinks (plan : Plan) (k : Nat) :
    (plan.openLinks k).flatMap Link.held = if 0 < k then [plan.reader (k - 1)] else [] := by
  have hclosed : ∀ n, (closedLinks n).flatMap Link.held = [] := by
    intro n
    induction n with
    | zero => rfl
    | succ n ih => simpa [closedLinks, Link.held] using ih
  cases k with
  | zero => rfl
  | succ k => simp [openLinks, Link.held, hclosed]

theorem flatMap_held_refusedLinks (plan : Plan) (k : Nat) (refusal : Refusal) :
    (plan.refusedLinks k refusal).flatMap Link.held = plan.leftOver k refusal := by
  cases refusal with
  | link f => exact plan.flatMap_held_openLinks k
  | process f =>
    rw [refusedLinks, leftOver, List.flatMap_append, flatMap_held_openLinks]
    split_ifs <;> simp [Link.held]

end Plan

namespace Launch

variable {w : World} {capture : Capture} {argvs done rest : List (List String)}
  {argv : List String} {l : Launch} {refusal : Refusal}

/-- A start whose first calls are granted comes to the stage after them. -/
theorem exists_reached (capture : Capture) (hgrants : w.GrantsFirst (done ++ rest) done.length)
    (hmore : rest ≠ []) :
    ∃ l, (stages capture 0 (done ++ rest)).outcome { world := w } =
        (stages capture done.length rest).outcome l ∧
      Reached w (.of capture (done ++ rest).length w) done l := by
  -- From the right: the last of the granted stages comes after a start that reached it.
  induction done using List.reverseRecOn generalizing rest with
  | nil =>
    refine ⟨{ world := w }, rfl, ?_⟩
    simpa [Reached, Plan.openLinks, Plan.calls, Plan.of, List.length_pos_iff, hmore]
      using Stands.begin w
  | append_singleton done argv ih =>
    have hsplit : done ++ [argv] ++ rest = done ++ argv :: rest := by simp
    rw [hsplit, List.length_append] at hgrants
    rw [hsplit]
    have hfewer : w.GrantsFirst (done ++ argv :: rest) done.length :=
      ⟨fun i hlt => hgrants.pipe i (by omega), fun i hlt => hgrants.close i (by simp; omega),
        fun i hstage hlt => hgrants.start i hstage (by omega)⟩
    obtain ⟨l₁, hrun₁, hreached₁⟩ := ih hfewer (List.cons_ne_nil _ _)
    obtain ⟨l₂, hrun₂, hreached₂⟩ := Reached.exists_stage_of_ne_nil hgrants hmore hreached₁
    have hnotLast : rest.isEmpty = false := by simpa using hmore
    refine ⟨l₂, ?_, hreached₂⟩
    rw [hrun₁, stages, hnotLast, Action.outcome_bind_of_ok hrun₂, List.length_append,
      List.length_singleton]

/-- What a start does when it is refused the next stage. -/
theorem Reached.exists_refused
    (h : Reached w (.of capture (done ++ argv :: rest).length w) done l)
    (hrefuses : w.Refuses (done ++ argv :: rest) done.length refusal) :
    let plan : Plan := .of capture (done ++ argv :: rest).length w
    ∃ l', (stage capture done.length rest.isEmpty argv).outcome l =
        (.error (refusal.failure done.length (argv.headD "")), l') ∧
      l'.links = plan.refusedLinks done.length refusal ∧
      l'.children.length = done.length ∧
      l'.world.calls = w.calls ++ plan.calls done ++
        plan.refusedCalls done.length argv refusal := by
  intro plan
  have hbefore : Stands w (plan.openLinks done.length) done.length
      (done.length - 1 + done.length) done.length (plan.calls done) l :=
    h.stands_of_lt (by simp [Plan.of])
  have hnewest : wiringOf l.newestReader = plan.stdin done.length := by
    rw [newestReader, hbefore.links, Plan.wiringOf_openLinks]
  cases refusal with
  | link f =>
    obtain ⟨hmore, hpipe⟩ := hrefuses.refused
    have hnotLast : rest.isEmpty = false := by
      cases rest with
      | nil => simp at hmore
      | cons => rfl
    rw [← hbefore.machine, ← hbefore.pipeCalls] at hpipe
    -- No link is made, and the older ones are left as they are.
    refine ⟨l.unlinked, ?_, hbefore.links, hbefore.children, ?_⟩
    · rw [hnotLast, stage, Action.outcome_bind_of_error (outcome_startStage_of_some hpipe _ _ _)]
      rfl
    · change l.world.calls ++ [.pipeFailed] = _
      rw [hbefore.calls]
      rfl
  | process f =>
    obtain ⟨hpipe, hstart⟩ := hrefuses.refused
    rw [← hbefore.machine, ← hbefore.startCalls,
      List.getElem_append_right (Nat.le_refl _)] at hstart
    simp only [Nat.sub_self, List.getElem_cons_zero] at hstart
    -- The last stage has no link of its own; any other has made one by then, with both its ends.
    cases rest with
    | nil =>
      have hlast : ¬ done.length + 1 < plan.count := by simp [plan, Plan.of]
      refine ⟨_, Action.outcome_bind_of_error (outcome_startStage_last_of_error hstart capture _),
        ?_, hbefore.children, ?_⟩
      · rw [Plan.refusedLinks, if_neg hlast]
        exact hbefore.links
      · change l.world.calls ++ [.start argv _ _ _] = _
        rw [hbefore.calls, hnewest, Plan.refusedCalls, if_neg hlast, Plan.stdout, if_neg hlast]
        rfl
    | cons argv' rest =>
      have hmore : done.length + 1 < plan.count := by simp [plan, Plan.of]
      have hpipe := hpipe hmore
      rw [← hbefore.machine, ← hbefore.pipeCalls] at hpipe
      have hreader : l.world.nextReader = plan.reader done.length := by
        rw [World.nextReader, hbefore.machine, hbefore.pipes]
        rfl
      have hwriter : l.world.nextWriter = plan.writer done.length := by
        rw [World.nextWriter, hbefore.machine, hbefore.pipes]
        rfl
      refine ⟨_, Action.outcome_bind_of_error (outcome_startStage_of_error hpipe hstart capture _),
        ?_, hbefore.children, ?_⟩
      · change ⟨done.length, some l.world.nextReader, some l.world.nextWriter⟩ :: l.links = _
        rw [hreader, hwriter, hbefore.links, Plan.refusedLinks, if_pos hmore]
        rfl
      · change l.world.calls ++ [.pipe l.world.nextReader l.world.nextWriter] ++
          [.start argv _ (.descriptor l.world.nextWriter) _] = _
        rw [hreader, hwriter, hbefore.calls, hnewest, Plan.refusedCalls, if_pos hmore, Plan.stdout,
          if_pos hmore, List.append_assoc]
        rfl

/-- Where a start stops that is refused a stage. -/
theorem stopped_of_refuses (capture : Capture) {k : Nat} (hrefuses : w.Refuses argvs k refusal)
    (hget : argvs[k]? = some argv) :
    let plan : Plan := .of capture argvs.length w
    let l := stopped capture argvs w
    result capture argvs w = .error (refusal.failure k (argv.headD "")) ∧
      l.links = plan.refusedLinks k refusal ∧ l.children.length = k ∧
      l.world.calls = w.calls ++ plan.calls (argvs.take k) ++
        plan.refusedCalls k argv refusal := by
  intro plan l
  have hstage := hrefuses.stage
  have hhere : argvs[k] = argv := by simpa [hstage] using hget
  have hsplit : argvs = argvs.take k ++ argv :: argvs.drop (k + 1) := by
    rw [← hhere, ← List.drop_eq_getElem_cons hstage, List.take_append_drop]
  have hlength : (argvs.take k).length = k := List.length_take_of_le (Nat.le_of_lt hstage)
  have hbefore : w.GrantsFirst (argvs.take k ++ argv :: argvs.drop (k + 1))
      (argvs.take k).length := by
    rw [← hsplit, hlength]
    exact hrefuses.before
  -- The start comes to the stage that is refused, and no further.
  obtain ⟨l₁, hrun₁, hreached⟩ := exists_reached capture hbefore (List.cons_ne_nil _ _)
  have hrefuses' : w.Refuses (argvs.take k ++ argv :: argvs.drop (k + 1)) (argvs.take k).length
      refusal := by
    rw [← hsplit, hlength]
    exact hrefuses
  obtain ⟨l₂, hrun₂, hlinks, hchildren, hcalls⟩ := hreached.exists_refused hrefuses'
  have hrun : (stages capture 0 argvs).outcome { world := w } =
      (.error (refusal.failure k (argv.headD "")), l₂) := by
    rw [hsplit, hrun₁, stages, Action.outcome_bind_of_error hrun₂, hlength]
  rw [← hsplit, hlength] at hlinks hcalls
  rw [hlength] at hchildren
  have hstops : l = l₂ := congrArg Prod.snd hrun
  rw [hstops]
  exact ⟨congrArg Prod.fst hrun, hlinks, hchildren, hcalls⟩

end Launch

open Launch (result stopped)

/-- A start that is undone and answers its failure has met nothing that stops the undoing. -/
theorem undone_of_answer {α : Type} {l : Launch} {w w' : World} {ps : List Process} {e : Error}
    (hcrewed : l.Crewed w ps)
    (hanswer : (abandon l (.error e) : Action World Failure α).outcome l.world =
      (.error (.error e), w')) : l.Releasable ∧ ∀ p ∈ ps, p.Reapable := by
  rw [outcome_abandon] at hanswer
  rw [← Launch.releaseFault?_eq_none_iff]
  -- Any fault on the way would have come out in place of the failure.
  cases hfault : l.releaseFault? with
  | some f => simp [hfault] at hanswer
  | none =>
    obtain ⟨w₁, hended, -⟩ := outcome_reap (hcrewed.knows (l.processes_warned (.error e))) 0
    rw [← hcrewed.children] at hended
    rw [hfault] at hanswer
    dsimp only at hanswer
    rw [hended] at hanswer
    refine ⟨rfl, fun p hmem => Process.reapFault?_eq_none_iff.1 ?_⟩
    cases hfaults : ps.findSome? Process.reapFault? with
    | some f => simp [hfaults, Fault.outcomeOf] at hanswer
    | none => exact List.findSome?_eq_none_iff.1 hfaults p hmem

/-- If the stages of a start are not all started, what comes of it is what comes of undoing it. -/
theorem Executor.outcome_spawn_of_abandon {e : Executor} {captured : Bool} {p : Pipeline}
    {w w' : World} {failure g : Failure} (hstages : p.argvs ≠ [])
    (hfailed : result (e.capture captured) p.argvs w = .error failure)
    (hundone : (abandon (stopped (e.capture captured) p.argvs w) failure :
      Action World Failure (List Child)).outcome (stopped (e.capture captured) p.argvs w).world =
        (.error g, w')) :
    (e.spawn captured p).outcome w = (.error g, w') := by
  have hlaunched : (e.launch captured p.argvs).outcome w = (.error g, w') := by
    rw [e.outcome_launch captured hstages w, hfailed]
    exact hundone
  rw [spawn, Action.outcome_bind_of_error hlaunched]

/-- A start whose undoing nothing stops answers its failure: what the links hold is closed, and the
children are ended in order. -/
theorem Launch.Crewed.exists_undone {α : Type} {l : Launch} {w : World} {ps : List Process}
    (hcrewed : l.Crewed w ps) (hreleasable : l.Releasable) (hreapable : ∀ p ∈ ps, p.Reapable)
    (failure : Failure) :
    ∃ w', (abandon l failure : Action World Failure α).outcome l.world = (.error failure, w') ∧
      w'.calls = l.world.calls ++ (l.links.flatMap Link.held).map .close ++
        Process.endings w.nextPid ps ∧
      (l.warned failure).EndsInOrder w.nextPid ps w' ∧
      ∀ j p, ps[j]? = some p →
        (w'.process? (w.nextPid + j)).map Process.events = some p.closedOutputs.events := by
  have hknown := hcrewed.knows (l.processes_warned failure)
  have hfine : ps.findSome? Process.reapFault? = none := List.findSome?_eq_none_iff.2 fun p hmem =>
    Process.reapFault?_eq_none_iff.2 (hreapable p hmem)
  obtain ⟨w', hended, hcalls, -, hevents⟩ := outcome_reap hknown 0
  rw [hfine] at hended
  refine ⟨w', ?_, ?_, endsInOrder_of_reapable hknown hreapable hended, hevents hreapable⟩
  · rw [outcome_abandon, releaseFault?_eq_none_iff.2 hreleasable, hcrewed.children, hended]
    rfl
  · rw [hcalls, l.calls_warned, l.releases_given.calls, hreleasable.given_eq,
      Process.reapAllCalls_of_reapable hreapable]

namespace Executor

variable (e : Executor) (captured : Bool) (p : Pipeline) {w : World} {k : Nat} {refusal : Refusal}

/-- Where a start stops that is refused a stage, and which processes it has started by then. -/
theorem exists_refused_stage (hrefuses : w.Refuses p.argvs k refusal) :
    let plan : Plan := .of (e.capture captured) p.stages.length w
    let l := stopped (e.capture captured) p.argvs w
    let started := l.world.processes.drop w.processes.length
    ∃ s, p.stages[k]? = some s ∧
      result (e.capture captured) p.argvs w = .error (refusal.failure k s.program) ∧
      l.links.flatMap Link.held = plan.leftOver k refusal ∧
      l.world.calls = w.calls ++ (plan.calls (p.argvs.take k) ++
        plan.refusedCalls k s.argv refusal) ∧
      l.Crewed w started ∧ started.length = k := by
  intro plan l started
  have hstage : k < p.stages.length := by simpa [Pipeline.argvs] using hrefuses.stage
  obtain ⟨s, hget⟩ : ∃ s, p.stages[k]? = some s := ⟨_, List.getElem?_eq_getElem hstage⟩
  have hargv : p.argvs[k]? = some s.argv := by simp [Pipeline.argvs, hget]
  have hcount : p.argvs.length = p.stages.length := by simp [Pipeline.argvs]
  obtain ⟨hfailed, hlinks, hchildren, hrecord⟩ :=
    Launch.stopped_of_refuses (e.capture captured) hrefuses hargv
  rw [hcount] at hlinks hrecord
  have hcrewed : l.Crewed w started := Launch.crewed_stopped (e.capture captured) p.argvs w
  refine ⟨s, hget, hfailed, ?_, ?_, hcrewed, ?_⟩
  · rw [hlinks, Plan.flatMap_held_refusedLinks]
  · rw [hrecord, List.append_assoc]
  · rw [← hchildren, hcrewed.children, Process.children, List.length_mapIdx]

/-- When a stage is refused, and the undoing of the start is met by nothing but what is got over,
the start is undone completely. No later stage is started. What the links hold is closed, so that
every descriptor is closed exactly once in all. Each process that was started has its captured
outputs closed, is polled, killed if it still runs, and waited for once, in order. -/
theorem spawn_refused (hrefuses : w.Refuses p.argvs k refusal)
    (hreleasable : (stopped (e.capture captured) p.argvs w).Releasable)
    (hreapable : ∀ q ∈ (stopped (e.capture captured) p.argvs w).world.processes.drop
      w.processes.length, q.Reapable) :
    let plan : Plan := .of (e.capture captured) p.stages.length w
    let l := stopped (e.capture captured) p.argvs w
    let started := l.world.processes.drop w.processes.length
    ∃ s calls w', p.stages[k]? = some s ∧
      (e.spawn captured p).outcome w = (.error (refusal.failure k s.program), w') ∧
      (refusal.Reported →
        refusal.failure k s.program = .error (.spawn k (some s.program) refusal.fault)) ∧
      (¬ refusal.Reported → refusal.failure k s.program = .fault refusal.fault) ∧
      w'.calls = w.calls ++ calls ∧
      calls = plan.calls (p.argvs.take k) ++ plan.refusedCalls k s.argv refusal ++
        (plan.leftOver k refusal).map .close ++ Process.endings w.nextPid started ∧
      (∀ d ∈ calls.flatMap Call.made, calls.count (.close d) = 1) ∧
      started.length = k ∧
      (l.warned (refusal.failure k s.program)).EndsInOrder w.nextPid started w' ∧
      ∀ j q, started[j]? = some q →
        ∃ q', w'.process? (w.nextPid + j) = some q' ∧
          ∀ o, q'.events o = if q.wiring o = .captured then [.close] else [] := by
  intro plan l started
  obtain ⟨s, hget, hfailed, hheld, hrecord, hcrewed, hlength⟩ :=
    exists_refused_stage e captured p hrefuses
  have hstages : p.argvs ≠ [] := List.ne_nil_of_length_pos (Nat.zero_lt_of_lt hrefuses.stage)
  obtain ⟨w', hundone, hcalls', hinOrder, hevents⟩ := hcrewed.exists_undone hreleasable hreapable _
  have houtcome := outcome_spawn_of_abandon hstages hfailed hundone
  -- The ledger of the whole run is the one of the stages, of the links, and of the children.
  obtain ⟨calls₁, hbalanced⟩ :=
    (Launch.moves_stopped (e.capture captured) p.argvs w).exists_balanced
  obtain ⟨cs, honProcess, hleads⟩ := hbalanced.exists_leads (e.confined_spawn captured w p)
  rw [houtcome] at hleads
  have hledger : calls₁ = plan.calls (p.argvs.take k) ++ plan.refusedCalls k s.argv refusal :=
    List.append_cancel_left (hbalanced.leads.record.symm.trans hrecord)
  have htotal : calls₁ ++ l.given.map .close ++ cs =
      calls₁ ++ (l.links.flatMap Link.held).map .close ++ Process.endings w.nextPid started := by
    have hboth := hleads.record.symm.trans hcalls'
    rw [hbalanced.leads.record, List.append_assoc w.calls, List.append_assoc w.calls] at hboth
    exact List.append_cancel_left hboth
  refine ⟨s, _, w', hget, houtcome, fun hreported => Refusal.failure_of_reported hreported k _,
    fun hother => Refusal.failure_of_not_reported hother k _, hleads.record, ?_, ?_,
    hlength, hinOrder, fun j q hhere => ?_⟩
  · rw [htotal, hheld, hledger]
  · exact fun d => hbalanced.count_close_of_given_eq honProcess hleads hreleasable.given_eq
  · obtain ⟨q', hknown, hclosed⟩ := Option.map_eq_some_iff.1 (hevents j q hhere)
    refine ⟨q', hknown, fun o => ?_⟩
    rw [hclosed, Process.events_closedOutputs, hcrewed.untouched q (List.mem_of_getElem? hhere) o]
    rfl

/-- Three stages, the third of whose programs is missing. The first process still runs by then, the
second has ended by itself. -/
theorem spawn_refused_third_program :
    let w : World := { machine := .ofScript {
      processes := [{}, { polls := [some 0] }, { refusal := some ⟨.notFound, "c"⟩ }] } }
    ∃ w', (({} : Executor).spawn true ⟨[⟨"a", []⟩, ⟨"b", []⟩, ⟨"c", []⟩]⟩).outcome w =
        (.error (.error (.spawn 2 (some "c") ⟨.notFound, "c"⟩)), w') ∧
      w'.calls =
        [.pipe 10 11, .start ["a"] .inherited (.descriptor 11) .captured, .close 11,
          .pipe 12 13, .start ["b"] (.descriptor 10) (.descriptor 13) .captured, .close 10,
          .close 13, .start ["c"] (.descriptor 12) .captured .captured, .close 12,
          .poll 1000, .kill 1000, .wait 1000, .poll 1001, .wait 1001] := by
  intro w
  let p : Pipeline := ⟨[⟨"a", []⟩, ⟨"b", []⟩, ⟨"c", []⟩]⟩
  have hrefuses : w.Refuses p.argvs 2 (.process ⟨.notFound, "c"⟩) := by
    refine ⟨by decide, ⟨fun _ _ => rfl, fun _ _ => rfl, fun i _ hlt => ?_⟩, fun hmore => ?_, rfl⟩
    · match i, hlt with
      | 0, _ => exact ⟨_, rfl⟩
      | 1, _ => exact ⟨_, rfl⟩
    · exact absurd hmore (by decide)
  have hprocesses : (stopped (({} : Executor).capture true) p.argvs w).world.processes =
      [{ conduct := {}, stdin := .inherited, stdout := .descriptor 11, stderr := .captured },
        { conduct := { polls := [some 0] }, stdin := .descriptor 10, stdout := .descriptor 13,
          stderr := .captured }] := by
    decide +kernel
  have hreapable : ∀ q ∈ (stopped (({} : Executor).capture true) p.argvs w).world.processes.drop
      w.processes.length, q.Reapable := by
    rw [hprocesses]
    decide +kernel
  obtain ⟨s, calls, w', hget, houtcome, -, -, hrecord, hplan, -⟩ :=
    spawn_refused {} true p hrefuses (fun _ _ => rfl) hreapable
  obtain rfl : (⟨"c", []⟩ : Stage) = s := Option.some.inj hget
  refine ⟨w', houtcome, ?_⟩
  rw [hrecord, hplan, hprocesses]
  rfl

/-- When a stage is refused for a reason that is reported, then the failure that names the stage
comes out, every process that was started is waited for exactly once, and every one that still runs
is sent a kill, exactly if the undoing of the start is met by nothing but what is got over. -/
theorem spawn_refused_iff (hrefuses : w.Refuses p.argvs k refusal) (hreported : refusal.Reported) :
    let l := stopped (e.capture captured) p.argvs w
    let started := l.world.processes.drop w.processes.length
    (∃ s calls w', p.stages[k]? = some s ∧
      (e.spawn captured p).outcome w =
        (.error (.error (.spawn k (some s.program) refusal.fault)), w') ∧
      w'.calls = w.calls ++ calls ∧
      ∀ j < k, calls.count (.wait (w.nextPid + j)) = 1 ∧
        ∀ q, started[j]? = some q → q.stillRuns = true → .kill (w.nextPid + j) ∈ calls) ↔
      l.Releasable ∧ ∀ q ∈ started, q.Reapable := by
  intro l started
  obtain ⟨s, hget, hfailed, -, hrecord, hcrewed, hlength⟩ :=
    exists_refused_stage e captured p hrefuses
  have hstages : p.argvs ≠ [] := List.ne_nil_of_length_pos (Nat.zero_lt_of_lt hrefuses.stage)
  have hfailure : refusal.failure k s.program = .error (.spawn k (some s.program) refusal.fault) :=
    Refusal.failure_of_reported hreported k s.program
  rw [hfailure] at hfailed
  constructor
  · -- That the failure comes out is enough to tell that nothing stopped the undoing.
    rintro ⟨s', calls, w', hget', houtcome, -, -⟩
    obtain rfl : s = s' := Option.some.inj (hget.symm.trans hget')
    obtain ⟨g, w₁, hundone⟩ : ∃ g w',
        (abandon l (.error (.spawn k (some s.program) refusal.fault)) :
          Action World Failure (List Child)).outcome l.world = (.error g, w') :=
      exists_outcome_abandon l _
    have hsame := (outcome_spawn_of_abandon hstages hfailed hundone).symm.trans houtcome
    have hanswer : g = .error (.spawn k (some s.program) refusal.fault) := by
      simpa using congrArg Prod.fst hsame
    rw [hanswer] at hundone
    exact undone_of_answer hcrewed hundone
  · rintro ⟨hreleasable, hreapable⟩
    obtain ⟨w', hundone, hcalls, -⟩ := hcrewed.exists_undone hreleasable hreapable _
    have houtcome := outcome_spawn_of_abandon hstages hfailed hundone
    rw [hrecord, List.append_assoc w.calls, List.append_assoc w.calls] at hcalls
    refine ⟨s, _, w', hget, houtcome, hcalls, fun j hlt => ⟨?_, fun q hhere hruns => ?_⟩⟩
    · -- Only the ending of the children has waits.
      let plan : Plan := .of (e.capture captured) p.stages.length w
      have hbefore : .wait (w.nextPid + j) ∉ plan.calls (p.argvs.take k) ++
          plan.refusedCalls k s.argv refusal ++ (l.links.flatMap Link.held).map .close := by
        simp only [List.mem_append, not_or]
        refine ⟨⟨fun hmem => ?_, fun hmem => ?_⟩, by simp⟩
        · exact Plan.not_isOnProcess_of_mem_calls hmem trivial
        · exact Plan.not_isOnProcess_of_mem_refusedCalls hmem trivial
      rw [List.count_append, List.count_eq_zero.2 hbefore, Process.count_wait_endings, hlength,
        if_pos (by omega)]
    · exact List.mem_append_right _ (Process.kill_mem_endings hhere hruns w.nextPid)

/-- The second program of two has a name that is not acceptable. The first process cannot be
killed, for it has ended meanwhile, and the system refuses the wait for it: both are got over. -/
theorem spawn_refused_iff_process_gone :
    let w : World := { machine := .ofScript {
      processes :=
        [{ killFailure := some ⟨.noProcess, "kill"⟩, waits := [some ⟨.noChild, "wait"⟩] },
          { refusal := some ⟨.invalid, "b"⟩ }] } }
    ∃ calls w', (({} : Executor).spawn true ⟨[⟨"a", []⟩, ⟨"b", []⟩]⟩).outcome w =
        (.error (.error (.spawn 1 (some "b") ⟨.invalid, "b"⟩)), w') ∧
      w'.calls = calls ∧ calls.count (.wait 1000) = 1 := by
  intro w
  let p : Pipeline := ⟨[⟨"a", []⟩, ⟨"b", []⟩]⟩
  have hrefuses : w.Refuses p.argvs 1 (.process ⟨.invalid, "b"⟩) := by
    refine ⟨by decide, ⟨fun _ _ => rfl, fun _ _ => rfl, fun i _ hlt => ?_⟩, fun hmore => ?_, rfl⟩
    · obtain rfl : i = 0 := Nat.lt_one_iff.1 hlt
      exact ⟨_, rfl⟩
    · exact absurd hmore (by decide)
  have hprocesses : (stopped (({} : Executor).capture true) p.argvs w).world.processes =
      [{ conduct := { killFailure := some ⟨.noProcess, "kill"⟩,
                      waits := [some ⟨.noChild, "wait"⟩] },
         stdin := .inherited, stdout := .descriptor 11, stderr := .captured }] := by
    decide +kernel
  have hreapable : ∀ q ∈ (stopped (({} : Executor).capture true) p.argvs w).world.processes.drop
      w.processes.length, q.Reapable := by
    rw [hprocesses]
    decide +kernel
  obtain ⟨s, calls, w', hget, houtcome, hrecord, hwaited⟩ :=
    (spawn_refused_iff {} true p hrefuses (.inr rfl)).2 ⟨fun _ _ => rfl, hreapable⟩
  obtain rfl : (⟨"b", []⟩ : Stage) = s := Option.some.inj hget
  exact ⟨calls, w', houtcome, hrecord, (hwaited 0 Nat.one_pos).1⟩

/-- The third program of three is missing, and the first process may not be killed. The fault of
the kill comes out in place of the failure, and neither of the two processes is waited for. -/
theorem spawn_refused_leaves_children :
    let w : World := { machine := .ofScript {
      processes := [{ killFailure := some ⟨.notPermitted, "kill"⟩ }, {},
        { refusal := some ⟨.notFound, "c"⟩ }] } }
    let answer := (({} : Executor).spawn true ⟨[⟨"a", []⟩, ⟨"b", []⟩, ⟨"c", []⟩]⟩).outcome w
    answer.1 = .error (.fault ⟨.notPermitted, "kill"⟩) ∧
      answer.2.calls.count (.wait 1000) = 0 ∧ answer.2.calls.count (.wait 1001) = 0 := by
  decide +kernel

end Executor

end Pipework
