import Pipework.Proofs.Session.Housing
import Pipework.Proofs.Session.Scripts

/-!
# What is heard of a handle

In a session a handle is asked now and then, and other things happen in between. What is heard of
the handle is what it replies to its own queries one after another, as if nothing else had
happened. It is told from the scripts of its processes and from the commands that its pipeline had
when it was started.

## Main definitions

* `Session.queries` — what is asked of a register by the steps of a session
* `Session.heard` — what comes of these steps
* `Session.Starts` — a step starts a pipeline and puts its handle into a register

## Main results

* `Session.lookup_execute` — a register that is left alone holds what it held
* `Session.Housed.heard_eq` — what is heard of a handle are its replies
* `Session.Starts.heard_eq_heard` — handles of the same scripts are heard alike
-/

namespace Pipework

open World (Revision)

/-- The handle that was answered. -/
def Outcome.handle? : Outcome → Option Handle
  | .answer (.handle h) => some h
  | _ => none

/-- A reply as what comes of a step. -/
def Outcome.ofReply : Except Failure Item → Outcome
  | .ok x => .answer x
  | .error f => .failure f

/-- The query, if it needs nothing else. -/
def Query.alone? {ρ : Type} (q : Query ρ) : Option (Query Item) :=
  (q.resolve fun _ => (.error () : Except Unit Item)).toOption

/-- A query that needs nothing else is looked up as it is. -/
theorem Query.exists_alone {ρ : Type} {q : Query ρ} (halone : q.operands = []) :
    ∃ q', q.alone? = some q' ∧ ∀ look : ρ → Except String Item, q.resolve look = .ok q' := by
  obtain ⟨q', hresolved⟩ : ∃ q' : Query Item, ∀ {ε : Type} (look : ρ → Except ε Item),
      q.resolve look = .ok q' := exists_resolve_of_operands halone
  refine ⟨q', ?_, fun look => hresolved look⟩
  rw [alone?, hresolved]
  rfl

/-- Looking a query up does not make it a query for numbers. -/
theorem Query.showsNumbers_of_alone {ρ : Type} {q : Query ρ} {q' : Query Item}
    (halone : q.alone? = some q') : q'.showsNumbers = q.showsNumbers := by
  cases q with
  | add | combine | pipe | equals => cases halone
  | spawn captured partner | output partner =>
    cases partner with
    | none =>
      obtain rfl := Option.some.inj halone
      rfl
    | some x => cases halone
  | _ =>
    obtain rfl := Option.some.inj halone
    rfl

namespace Session

variable {s : Session} {step : Step} {name : String} {h : Handle} {x : Item}

/-! ### Steps and registers -/

theorem outcome_settle (s : Session) (target : Option String) (reply : Except Failure Item) :
    (s.settle target reply).1 = .ofReply reply := by
  cases reply with
  | error f => rfl
  | ok x => cases target <;> rfl

/-- An answer goes into its target only. -/
theorem lookup_settle_of_ne (s : Session) {target : Option String} (haway : target ≠ some name)
    (reply : Except Failure Item) :
    (s.settle target reply).2.registers.lookup name = s.registers.lookup name := by
  cases reply with
  | error f => rfl
  | ok x =>
    cases target with
    | none => rfl
    | some other => exact Registers.lookup_put_of_ne _ _ fun heq => haway (heq ▸ rfl)

/-- A register that is neither asked nor the target holds what it held. -/
theorem lookup_execute (hquiet : step.query? name = none) (haway : step.target ≠ some name) :
    (s.execute step).2.registers.lookup name = s.registers.lookup name := by
  obtain ⟨request, target⟩ := step
  cases request with
  | make m =>
    simp only [execute]
    cases m.resolve s.registers.operand with
    | error other => rfl
    | ok m => exact lookup_settle_of_ne _ haway _
  | ask register q =>
    have hne : name ≠ register := by
      rintro rfl
      simp [Step.query?] at hquiet
    simp only [execute]
    cases s.registers.get register with
    | error other => rfl
    | ok x =>
      cases q.resolve s.registers.operand with
      | error other => rfl
      | ok q =>
        dsimp only
        rw [ask_eq, lookup_settle_of_ne _ haway]
        exact Registers.lookup_put_of_ne _ _ hne

/-- What comes of asking a handle. -/
theorem execute_of_handle {q : Query Operand} {q' : Query Item}
    (hget : s.registers.lookup name = some (.handle h)) (hasked : step.query? name = some q)
    (hresolved : q.resolve s.registers.operand = .ok q') :
    s.execute step =
      settle ⟨s.registers.put name (.handle ((q'.onHandle h).run s.world).1.2),
        ((q'.onHandle h).run s.world).2⟩ step.target ((q'.onHandle h).run s.world).1.1 := by
  obtain ⟨target, rfl⟩ := Step.exists_of_query? hasked
  simp only [execute, Registers.get_of_lookup hget, hresolved]
  rw [ask_eq, Query.run_perform_handle]

/-- Whatever happened to the processes of a handle is nothing to the other items. -/
theorem Housed.revised {r : Revision} (hhoused : s.Housed)
    (hget : s.registers.lookup name = some (.handle h))
    (hchildren : h.children = Process.children r.pid r.olds) (hmeets : r.Meets s.world) :
    Revised r (some name) none s { s with world := r.revise s.world } where
  meets := hmeets
  world := rfl
  same _ _ _ := rfl
  spares other x haway _ hget' :=
    (Item.spares_iff_apart hchildren).2
      (hhoused.apart other name x _ hget' hget fun heq => haway (congrArg some heq))
  outline _ _ := rfl

/-- A step that does not ask a handle leaves its processes as they are. -/
theorem Housed.knows_execute {pid : Nat} {ps : List Process} (hhoused : s.Housed)
    (hget : s.registers.lookup name = some (.handle h))
    (hchildren : h.children = Process.children pid ps) (hknown : s.world.Knows pid ps)
    (hquiet : step.query? name = none) : (s.execute step).2.world.Knows pid ps := by
  have hrevised :=
    hhoused.revised (r := .still pid ps) hget hchildren (Revision.meets_still.2 hknown)
  refine (hrevised.execute step (fun other hown => ?_) fun _ _ => nofun).2.meets.knows
  exact Option.some.inj hown ▸ hquiet

/-! ### What is heard -/

/-- What is asked of a register. -/
def queries (name : String) (steps : List Step) : List (Query Operand) :=
  steps.filterMap (·.query? name)

/-- What comes of the steps that are asked of a register. -/
def heard (s : Session) (name : String) : List Step → List Outcome
  | [] => []
  | step :: steps =>
    let (outcome, t) := s.execute step
    if (step.query? name).isSome then outcome :: t.heard name steps else t.heard name steps

/-- What is heard of a handle are its replies to what it is asked. -/
theorem Housed.heard_eq {pid : Nat} {ps : List Process} (hhoused : s.Housed)
    (hget : s.registers.lookup name = some (.handle h))
    (hchildren : h.children = Process.children pid ps) (hknown : s.world.Knows pid ps)
    {steps : List Step} (hkept : ∀ step ∈ steps, step.target ≠ some name)
    (halone : ∀ q ∈ queries name steps, q.operands = []) :
    s.heard name steps =
      (h.replies ((queries name steps).filterMap Query.alone?) s.world).map
        fun reply => .ofReply reply.1 := by
  induction steps generalizing s h ps with
  | nil => rfl
  | cons step steps ih =>
    have haway := hkept step List.mem_cons_self
    have hkept' : ∀ step ∈ steps, step.target ≠ some name :=
      fun step hmem => hkept step (List.mem_cons_of_mem _ hmem)
    cases hasked : step.query? name with
    | none =>
      -- The handle is left alone, and its processes are.
      have hhere : queries name (step :: steps) = queries name steps :=
        List.filterMap_cons_none hasked
      have hknown' := hhoused.knows_execute hget hchildren hknown hasked
      have hlater :=
        ih (hhoused.execute step) ((lookup_execute hasked haway).trans hget) hchildren hknown'
          hkept' (hhere ▸ halone)
      rw [heard, hhere, hasked]
      exact hlater.trans (congrArg _ (Handle.replies_congr hchildren hknown' hknown _))
    | some q =>
      -- What follows is heard of the handle and the processes that the reply leaves behind.
      have hhere : queries name (step :: steps) = q :: queries name steps :=
        List.filterMap_cons_some hasked
      rw [hhere] at halone ⊢
      obtain ⟨q', hsame, hresolved⟩ := Query.exists_alone (halone q List.mem_cons_self)
      obtain ⟨reply, h', qs, cs, hchildren', -, htreats⟩ := Handle.exists_treats hchildren q'
      obtain ⟨w', hreplied, htreated, -⟩ := htreats s.world hknown
      have hexecuted := execute_of_handle hget hasked (hresolved s.registers.operand)
      rw [hreplied] at hexecuted
      have hget' : (s.execute step).2.registers.lookup name = some (.handle h') := by
        rw [hexecuted, lookup_settle_of_ne _ haway]
        exact Registers.lookup_put_self ..
      have hworld : (s.execute step).2.world = w' := by rw [hexecuted, world_settle]
      have hlater := ih (hhoused.execute step) hget' hchildren' (hworld ▸ htreated.self) hkept'
        fun q hmem => halone q (List.mem_cons_of_mem _ hmem)
      have houtcome : (s.execute step).1 = .ofReply reply := by rw [hexecuted, outcome_settle]
      rw [heard, hasked, List.filterMap_cons_some hsame, Handle.replies, hreplied]
      simp only [Option.isSome_some, if_true, List.map_cons]
      rw [houtcome, hlater, hworld]

/-! ### Starts -/

/-- The executor and the pipeline that a step runs. -/
def runner? (s : Session) (step : Step) : Option (Executor × Pipeline) :=
  match step.request with
  | .make _ => none
  | .ask register q =>
    match s.registers.get register, q.resolve s.registers.operand with
    | .ok x, .ok q => q.runner? x
    | _, _ => none

/-- The step starts the pipeline and puts its handle into the register. -/
structure Starts (s : Session) (step : Step) (name : String) (p : Pipeline) (h : Handle) :
    Prop where
  target : step.target = some name
  pipeline : (s.runner? step).map (·.2) = some p
  outcome : (s.execute step).1.handle? = some h

/-- The processes that a step starts. -/
def crew (s : Session) (step : Step) : List Process :=
  (s.execute step).2.world.startedSince s.world

namespace Starts

variable {p : Pipeline}

/-- A step that starts a pipeline comes to what its start comes to. -/
theorem exists_spawn (hstarts : s.Starts step name p h) (hhoused : s.Housed) :
    ∃ (e : Executor) (captured : Bool) (w' : World) (registers : Registers), 0 < e.chunkSize ∧
      (e.spawn captured p).outcome s.world = (.ok h, w') ∧
      (s.execute step).2 = (settle ⟨registers, w'⟩ step.target (.ok (.handle h))).2 := by
  obtain ⟨-, hpipeline, houtcome⟩ := hstarts
  obtain ⟨request, target⟩ := step
  cases request with
  | make m => cases hpipeline
  | ask register q =>
    simp only [runner?] at hpipeline
    simp only [execute] at houtcome ⊢
    cases hheld : s.registers.get register with
    | error other => simp [hheld] at hpipeline
    | ok x =>
      cases hresolved : q.resolve s.registers.operand with
      | error other => simp [hheld, hresolved] at hpipeline
      | ok q' =>
        rw [hheld, hresolved] at hpipeline houtcome
        obtain ⟨⟨e, p'⟩, hruns, rfl⟩ := Option.map_eq_some_iff.1 hpipeline
        have hpos : 0 < e.chunkSize := by
          refine Query.chunkSize_pos_of_runner? (hhoused.sound register x ?_)
            (fun y hmem => ?_) hruns
          · exact Registers.lookup_of_get hheld
          · obtain ⟨o, -, hlooked⟩ := Query.exists_of_mem_operands hresolved hmem
            exact hhoused.operand hlooked
        dsimp only at houtcome ⊢
        rw [ask_eq, Query.perform_of_runner hruns] at houtcome ⊢
        -- Only a start answers a handle.
        cases q' with
        | spawn captured partner =>
          rw [Query.run, Action.outcome_bind] at houtcome ⊢
          rcases hspawned : (e.spawn captured p').outcome s.world with ⟨f | h', w'⟩
          · rw [hspawned, outcome_settle] at houtcome
            cases houtcome
          · rw [hspawned, outcome_settle] at houtcome
            obtain rfl : h' = h := Option.some.inj houtcome
            exact ⟨e, captured, w', _, hpos, hspawned, rfl⟩
        | output partner =>
          rw [Query.run, Action.outcome_bind, outcome_settle] at houtcome
          rcases hran : (e.run true p').outcome s.world with ⟨f | r, w'⟩ <;>
            rw [hran] at houtcome <;>
            cases houtcome
        | _ => cases hruns

/-- The register holds the handle of the processes that were started, and these run the commands
that the pipeline has at the start. -/
theorem spec (hstarts : s.Starts step name p h) (hhoused : s.Housed) :
    (s.execute step).2.registers.lookup name = some (.handle h) ∧
      h = .ofProcesses h.captured p.argvs s.world.nextPid (s.crew step) := by
  obtain ⟨e, captured, w', registers, hpos, hspawned, hsettled⟩ := hstarts.exists_spawn hhoused
  obtain ⟨hhandle, -, -⟩ := Executor.exists_processes_of_spawn hpos hspawned
  constructor
  · rw [hsettled, hstarts.target]
    exact Registers.lookup_put_self ..
  · rw [crew, hsettled, world_settle]
    rw [hhandle]
    rfl

/-- What is heard of a pipeline, query by query: what the handle of its processes replies after so
many waits, whatever else happens in the session. -/
theorem heard_getElem? (hstarts : s.Starts step name p h) (hhoused : s.Housed) {steps : List Step}
    (hkept : ∀ step ∈ steps, step.target ≠ some name)
    (halone : ∀ q ∈ queries name steps, q.operands = []) (i : Nat) :
    let handle := Handle.ofProcesses h.captured p.argvs s.world.nextPid (s.crew step)
    let qs := (queries name steps).filterMap Query.alone?
    ((s.execute step).2.heard name steps)[i]? = qs[i]?.map fun q =>
      .ofReply
        (handle.replyAt s.world.nextPid ((qs.take i).countP Query.awaits) (s.crew step) q).1 := by
  intro handle qs
  obtain ⟨hget, hsame⟩ := hstarts.spec hhoused
  have hknown : (s.execute step).2.world.Knows s.world.nextPid (s.crew step) :=
    (s.execute step).2.world.knows_startedSince s.world
  have hchildren : h.children = Process.children s.world.nextPid (s.crew step) :=
    congrArg Handle.children hsame
  have hfresh : h.result = none := congrArg Handle.result hsame
  rw [(hhoused.execute step).heard_eq hget hchildren hknown hkept halone, List.getElem?_map,
    Handle.replies_getElem? hknown hchildren hfresh, Option.map_map]
  exact congrArg (fun h : Handle => qs[i]?.map fun q => Outcome.ofReply
    (h.replyAt s.world.nextPid ((qs.take i).countP Query.awaits) (s.crew step) q).1) hsame

/-- Pipelines with the same commands, whose processes have the same scripts, are heard alike:
whatever else happens in their sessions, the same queries come to the same. -/
theorem heard_eq_heard {s' : Session} {step' : Step} {name' : String} {p' : Pipeline} {h' : Handle}
    {steps steps' : List Step} (hstarts : s.Starts step name p h)
    (hstarts' : s'.Starts step' name' p' h') (hhoused : s.Housed) (hhoused' : s'.Housed)
    (hargvs : p.argvs = p'.argvs) (hcaptured : h.captured = h'.captured)
    (hscripts : (s.crew step).map Process.script = (s'.crew step').map Process.script)
    (hkept : ∀ step ∈ steps, step.target ≠ some name)
    (hkept' : ∀ step ∈ steps', step.target ≠ some name')
    (hsame : queries name steps = queries name' steps')
    (halone : ∀ q ∈ queries name steps, q.operands = [])
    (hquiet : ∀ q ∈ queries name steps, q.showsNumbers = false) :
    (s.execute step).2.heard name steps = (s'.execute step').2.heard name' steps' := by
  refine List.ext_getElem? fun i => ?_
  rw [hstarts.heard_getElem? hhoused hkept halone,
    hstarts'.heard_getElem? hhoused' hkept' (hsame ▸ halone), ← hsame, hargvs, hcaptured]
  refine Option.map_congr fun q' hasked => ?_
  obtain ⟨q, hmem, hlonely⟩ := List.mem_filterMap.1 (List.mem_of_getElem? hasked)
  have hsilent : q'.showsNumbers = false :=
    (Query.showsNumbers_of_alone hlonely).trans (hquiet q hmem)
  exact congrArg Outcome.ofReply (Handle.replyAt_ofProcesses hscripts hsilent ..)

end Starts

end Session

end Pipework
