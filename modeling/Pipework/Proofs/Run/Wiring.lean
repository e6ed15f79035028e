import Pipework.Proofs.Run.Capture

/-!
# The wiring of a pipeline

A start in which no call fails goes by its plan. After every stage it stands where the plan has
it: as many pipes were made, closed and wired as the stages so far need, and nothing is held but
the read end that the next stage will have. So it comes to its end with all links closed, and
leaving them costs no further call.

## Main definitions

* `World.Grants`, `World.GrantsFirst` — the machine lets every call of a start succeed, or every
  call for its first stages
* `Launch.Stands` — the links, the calls and their numbers since a start began
* `Launch.Reached` — a start that stands where the plan has it after some stages

## Main results

* `Launch.Reached.exists_stage_of_ne_nil`, `Launch.Reached.exists_stage_last` — one more stage
  makes the calls that the plan has for it
* `Launch.Reached.exists_stages` — all stages together make the calls of the plan
* `Executor.spawn_calls` — a start in which no call fails makes exactly the planned calls
-/

namespace Pipework

/-- The machine lets every call of a start of these stages succeed. -/
structure World.Grants (w : World) (argvs : List (List String)) : Prop where
  pipe : ∀ i, i + 1 < argvs.length → w.machine.pipeFailure (w.pipeCalls + i) = none
  close : ∀ i, i < 2 * (argvs.length - 1) → w.machine.closeFailure (w.closeCalls + i) = none
  start : ∀ i (_ : i < argvs.length), ∃ conduct,
    w.machine.start (w.startCalls + i) argvs[i] = .ok conduct

/-- The machine lets every call for the first stages succeed, each of which has another one after
it. -/
structure World.GrantsFirst (w : World) (argvs : List (List String)) (count : Nat) : Prop where
  pipe : ∀ i, i < count → w.machine.pipeFailure (w.pipeCalls + i) = none
  close : ∀ i, i + 1 < 2 * count → w.machine.closeFailure (w.closeCalls + i) = none
  start : ∀ i (_ : i < argvs.length), i < count → ∃ conduct,
    w.machine.start (w.startCalls + i) argvs[i] = .ok conduct

theorem World.Grants.first {w : World} {argvs : List (List String)} {count : Nat}
    (h : w.Grants argvs) (hlt : count < argvs.length) : w.GrantsFirst argvs count where
  pipe i hbefore := h.pipe i (by omega)
  close i hbefore := h.close i (by omega)
  start i hstage _ := h.start i hstage

namespace Launch

/-- Where a start stands that began in some world: the links it has, how many pipes it made, how
many closes were tried, how many processes were started, and its calls. -/
structure Stands (w : World) (links : List Link) (pipes closes starts : Nat) (calls : List Call)
    (l : Launch) : Prop where
  machine : l.world.machine = w.machine
  pipeCalls : l.world.pipeCalls = w.pipeCalls + pipes
  pipes : l.world.pipes = w.pipes + pipes
  closeCalls : l.world.closeCalls = w.closeCalls + closes
  startCalls : l.world.startCalls = w.startCalls + starts
  links : l.links = links
  children : l.children.length = starts
  calls : l.world.calls = w.calls ++ calls

namespace Stands

variable {w : World} {links : List Link} {pipes closes starts : Nat} {calls : List Call}
  {l : Launch}

theorem begin (w : World) : Stands w [] 0 0 0 [] { world := w } := by
  constructor <;> simp

theorem linked (h : Stands w links pipes closes starts calls l) (stage : Nat) :
    Stands w
      (⟨stage, some (w.machine.descriptors.reader (w.pipes + pipes)),
        some (w.machine.descriptors.writer (w.pipes + pipes))⟩ :: links)
      (pipes + 1) closes starts
      (calls ++ [.pipe (w.machine.descriptors.reader (w.pipes + pipes))
        (w.machine.descriptors.writer (w.pipes + pipes))])
      (l.linked stage) := by
  constructor <;>
    simp [Launch.linked, World.piped, World.log, World.nextReader, World.nextWriter, h.machine,
      h.pipeCalls, h.pipes, h.closeCalls, h.startCalls, h.links, h.children, h.calls,
      Nat.add_assoc]

theorem joined (h : Stands w links pipes closes starts calls l) (stage : Nat) (argv : List String)
    (stdin stdout stderr : Wiring) (conduct : Bytes → Conduct) :
    Stands w links pipes closes (starts + 1) (calls ++ [.start argv stdin stdout stderr])
      (l.joined stage argv stdin stdout stderr conduct) := by
  constructor <;>
    simp [Launch.joined, World.started, World.unstarted, World.log, World.takeNote, h.machine,
      h.pipeCalls, h.pipes, h.closeCalls, h.startCalls, h.links, h.children, h.calls,
      Nat.add_assoc]

theorem dropped (h : Stands w links pipes closes starts calls l) (n : Nat) (left : Link → Link)
    (descriptor : Nat) (taken : Note) :
    Stands w (links.modify n left) pipes (closes + 1) starts (calls ++ [.close descriptor])
      (l.dropped n left descriptor taken) := by
  constructor <;>
    simp [Launch.dropped, World.closed, World.log, World.takeNote, h.machine, h.pipeCalls, h.pipes,
      h.closeCalls, h.startCalls, h.links, h.children, h.calls, Nat.add_assoc]

/-- A read end that is held can be given up. -/
theorem exists_dropReader (h : Stands w links pipes closes starts calls l) {n descriptor : Nat}
    {link : Link} (hnewest : links[n]? = some link) (hheld : link.reader = some descriptor)
    (hfine : w.machine.closeFailure (w.closeCalls + closes) = none) :
    ∃ l', (dropReader n).outcome l = (.ok (), l') ∧
      Stands w (links.modify n Link.withoutReader) pipes (closes + 1) starts
        (calls ++ [.close descriptor]) l' := by
  rw [← h.links] at hnewest
  rw [← h.machine, ← h.closeCalls] at hfine
  exact ⟨_, outcome_dropReader_of_none hnewest hheld hfine, h.dropped _ _ _ _⟩

/-- A write end that is held can be given up. -/
theorem exists_dropWriter (h : Stands w links pipes closes starts calls l) {n descriptor : Nat}
    {link : Link} (hnewest : links[n]? = some link) (hheld : link.writer = some descriptor)
    (hfine : w.machine.closeFailure (w.closeCalls + closes) = none) :
    ∃ l', (dropWriter n).outcome l = (.ok (), l') ∧
      Stands w (links.modify n Link.withoutWriter) pipes (closes + 1) starts
        (calls ++ [.close descriptor]) l' := by
  rw [← h.links] at hnewest
  rw [← h.machine, ← h.closeCalls] at hfine
  exact ⟨_, outcome_dropWriter_of_none hnewest hheld hfine, h.dropped _ _ _ _⟩

/-- The last stage can be started: it reads from the newest link. -/
theorem exists_startStage_last (h : Stands w links pipes closes starts calls l)
    {argv : List String} {conduct : Bytes → Conduct}
    (hfine : w.machine.start (w.startCalls + starts) argv = .ok conduct) (capture : Capture)
    (stage : Nat) :
    ∃ l', (startStage capture stage true argv).outcome l = (.ok (), l') ∧
      Stands w links pipes closes (starts + 1)
        (calls ++ [.start argv (wiringOf (links.head?.bind (·.reader)))
          (if capture.stdout then .captured else .inherited)
          (if capture.stderr then .captured else .inherited)]) l' := by
  rw [← h.machine, ← h.startCalls] at hfine
  have hnewest : l.newestReader = links.head?.bind (·.reader) := by rw [newestReader, h.links]
  refine ⟨_, outcome_startStage_last hfine capture stage, ?_⟩
  rw [hnewest]
  exact h.joined _ _ _ _ _ _

/-- Every other stage can be started: it reads from the newest link, if there is one, and writes
into a new one. -/
theorem exists_startStage (h : Stands w links pipes closes starts calls l)
    {argv : List String} {conduct : Bytes → Conduct}
    (hpipe : w.machine.pipeFailure (w.pipeCalls + pipes) = none)
    (hstart : w.machine.start (w.startCalls + starts) argv = .ok conduct) (capture : Capture)
    (stage : Nat) :
    ∃ l', (startStage capture stage false argv).outcome l = (.ok (), l') ∧
      Stands w
        (⟨stage, some (w.machine.descriptors.reader (w.pipes + pipes)),
          some (w.machine.descriptors.writer (w.pipes + pipes))⟩ :: links)
        (pipes + 1) closes (starts + 1)
        (calls ++ [.pipe (w.machine.descriptors.reader (w.pipes + pipes))
            (w.machine.descriptors.writer (w.pipes + pipes)),
          .start argv (wiringOf (links.head?.bind (·.reader)))
            (.descriptor (w.machine.descriptors.writer (w.pipes + pipes)))
            (if capture.stderr then .captured else .inherited)]) l' := by
  rw [← h.machine, ← h.pipeCalls] at hpipe
  rw [← h.machine, ← h.startCalls] at hstart
  have hnewest : l.newestReader = links.head?.bind (·.reader) := by rw [newestReader, h.links]
  have hwriter : l.world.nextWriter = w.machine.descriptors.writer (w.pipes + pipes) := by
    rw [World.nextWriter, h.machine, h.pipes]
  refine ⟨_, outcome_startStage_of_none hpipe hstart capture stage, ?_⟩
  rw [hnewest, hwriter]
  simpa using (h.linked stage).joined stage argv _ _ _ conduct

end Stands

/-- A start that has come so far without failure: it stands where the plan has it after these
stages. -/
def Reached (w : World) (plan : Plan) (done : List (List String)) (l : Launch) : Prop :=
  Stands w
    (if done.length < plan.count then plan.openLinks done.length
      else Plan.closedLinks (plan.count - 1))
    (min done.length (plan.count - 1))
    (done.length - 1 + min done.length (plan.count - 1)) done.length (plan.calls done) l

/-- After the process of the last stage runs, the last read end is given up. -/
theorem Stands.exists_releaseEnds_last {w : World} {plan : Plan} {i pipes closes starts : Nat}
    {calls : List Call} {l : Launch}
    (h : Stands w (plan.openLinks i) pipes closes starts calls l)
    (hfine : 0 < i → w.machine.closeFailure (w.closeCalls + closes) = none) :
    ∃ l', (releaseEnds i true).outcome l = (.ok (), l') ∧
      Stands w (Plan.closedLinks i) pipes (closes + min i 1) starts
        (calls ++ if 0 < i then [.close (plan.reader (i - 1))] else []) l' := by
  cases i with
  | zero => exact ⟨l, rfl, by simpa [Plan.openLinks, Plan.closedLinks] using h⟩
  | succ i =>
    have hnewest : (plan.openLinks (i + 1))[0]? = some ⟨i, some (plan.reader i), none⟩ := rfl
    obtain ⟨l', hrun, hstands⟩ := h.exists_dropReader hnewest rfl (hfine i.succ_pos)
    refine ⟨l', ?_, ?_⟩
    · change (dropReader 0 >>= fun _ => pure ()).outcome l = _
      rw [Action.outcome_bind_of_ok hrun]
      rfl
    · simpa [Plan.openLinks, Plan.closedLinks, Link.withoutReader] using hstands

/-- After the process of any other stage runs, the read end that it has is given up, and then the
write end that it has. -/
theorem Stands.exists_releaseEnds {w : World} (plan : Plan) {i pipes closes starts : Nat}
    {calls : List Call} {l : Launch}
    (h : Stands w (⟨i, some (plan.reader i), some (plan.writer i)⟩ :: plan.openLinks i)
      pipes closes starts calls l)
    (hfine : ∀ n < min i 1 + 1, w.machine.closeFailure (w.closeCalls + (closes + n)) = none) :
    ∃ l', (releaseEnds i false).outcome l = (.ok (), l') ∧
      Stands w (plan.openLinks (i + 1)) pipes (closes + min i 1 + 1) starts
        (calls ++ (if 0 < i then [.close (plan.reader (i - 1))] else []) ++
          [.close (plan.writer i)]) l' := by
  cases i with
  | zero =>
    -- The first stage reads from no link, so there is only the write end.
    obtain ⟨l', hrun, hstands⟩ := h.exists_dropWriter (n := 0) rfl rfl (hfine 0 (by simp))
    refine ⟨l', ?_, ?_⟩
    · exact hrun
    · simpa [Plan.openLinks, Plan.closedLinks, Link.withoutWriter] using hstands
  | succ i =>
    -- The stage writes into the newest link and reads from the one before it.
    obtain ⟨l₁, hrun₁, hstands₁⟩ := h.exists_dropReader (n := 1) rfl rfl (hfine 0 (by simp))
    obtain ⟨l₂, hrun₂, hstands₂⟩ := hstands₁.exists_dropWriter (n := 0) rfl rfl (hfine 1 (by simp))
    refine ⟨l₂, ?_, ?_⟩
    · change (dropReader 1 >>= fun _ => dropWriter 0).outcome l = _
      rw [Action.outcome_bind_of_ok hrun₁]
      exact hrun₂
    · simpa [Plan.openLinks, Plan.closedLinks, Link.withoutReader, Link.withoutWriter]
        using hstands₂

namespace Reached

variable {w : World} {capture : Capture} {done rest : List (List String)} {argv : List String}
  {l : Launch}

/-- Before the last stage is started, the newest link holds its read end. -/
theorem stands_of_lt {plan : Plan} (h : Reached w plan done l) (hlt : done.length < plan.count) :
    Stands w (plan.openLinks done.length) done.length (done.length - 1 + done.length) done.length
      (plan.calls done) l := by
  have hmin : min done.length (plan.count - 1) = done.length := by omega
  simpa only [Reached, hlt, if_true, hmin] using h

/-- The last stage makes the calls that the plan has for it. -/
theorem exists_stage_last (hgrants : w.Grants (done ++ [argv]))
    (h : Reached w (.of capture (done.length + 1) w) done l) :
    ∃ l', (stage capture done.length true argv).outcome l = (.ok (), l') ∧
      Reached w (.of capture (done.length + 1) w) (done ++ [argv]) l' := by
  obtain ⟨conduct, hfine⟩ := hgrants.start done.length (by simp)
  have hbefore := h.stands_of_lt done.length.lt_succ_self
  obtain ⟨l₁, hrun₁, hstands₁⟩ :=
    hbefore.exists_startStage_last (by simpa using hfine) capture done.length
  obtain ⟨l₂, hrun₂, hstands₂⟩ := hstands₁.exists_releaseEnds_last fun hpos =>
    hgrants.close _ (by simp; omega)
  refine ⟨l₂, ?_, ?_⟩
  · rw [stage, Action.outcome_bind_of_ok hrun₁]
    exact hrun₂
  · have hcloses : done.length - 1 + done.length + min done.length 1 =
        done.length + done.length := by omega
    rw [hcloses] at hstands₂
    simpa [Reached, Plan.stageCalls_last, Plan.of, Plan.stderr] using hstands₂

/-- Every other stage makes the calls that the plan has for it. -/
theorem exists_stage_of_ne_nil
    (hgrants : w.GrantsFirst (done ++ argv :: rest) (done.length + 1)) (hmore : rest ≠ [])
    (h : Reached w (.of capture (done ++ argv :: rest).length w) done l) :
    ∃ l', (stage capture done.length false argv).outcome l = (.ok (), l') ∧
      Reached w (.of capture (done ++ argv :: rest).length w) (done ++ [argv]) l' := by
  have hpos : 0 < rest.length := List.length_pos_iff.2 hmore
  have hlt : done.length + 1 < (done ++ argv :: rest).length := by simp; omega
  obtain ⟨conduct, hfine⟩ := hgrants.start done.length (by omega) (by omega)
  have hbefore := h.stands_of_lt (by simp [Plan.of])
  obtain ⟨l₁, hrun₁, hstands₁⟩ :=
    hbefore.exists_startStage (hgrants.pipe _ (by omega)) (by simpa using hfine) capture
      done.length
  -- The first stage gives up one end, every later one two, and all of these closes are granted.
  have hclosable : ∀ n < min done.length 1 + 1,
      w.machine.closeFailure (w.closeCalls + (done.length - 1 + done.length + n)) = none :=
    fun n hbound => hgrants.close _ (by omega)
  obtain ⟨l₂, hrun₂, hstands₂⟩ := Stands.exists_releaseEnds (.of capture _ w) hstands₁ hclosable
  refine ⟨l₂, ?_, ?_⟩
  · rw [stage, Action.outcome_bind_of_ok hrun₁]
    exact hrun₂
  · have hcloses : done.length - 1 + done.length + min done.length 1 + 1 =
        done.length + (done.length + 1) := by omega
    have hlinks : min (done.length + 1) (done.length + rest.length) = done.length + 1 := by omega
    rw [hcloses] at hstands₂
    simpa [Reached, Plan.stageCalls_of_lt, Plan.of, Plan.reader, Plan.writer, Plan.stderr, hpos,
      hlinks] using hstands₂

/-- A start that has come so far without failure comes to its end without failure. -/
theorem exists_stages (hgrants : w.Grants (done ++ rest))
    (h : Reached w (.of capture (done ++ rest).length w) done l) :
    ∃ l', (stages capture done.length rest).outcome l = (.ok (), l') ∧
      Reached w (.of capture (done ++ rest).length w) (done ++ rest) l' := by
  induction rest generalizing done l with
  | nil => exact ⟨l, rfl, by simpa using h⟩
  | cons argv rest ih =>
    -- Both kinds of stages lead to where the stages after them begin.
    have hnext : ∃ l₁, (stage capture done.length rest.isEmpty argv).outcome l = (.ok (), l₁) ∧
        Reached w (.of capture (done ++ argv :: rest).length w) (done ++ [argv]) l₁ := by
      cases rest with
      | nil => simpa using exists_stage_last hgrants (by simpa using h)
      | cons argv' rest =>
        exact exists_stage_of_ne_nil (hgrants.first (by simp)) (List.cons_ne_nil _ _) h
    obtain ⟨l₁, hrun₁, hreached₁⟩ := hnext
    have hsplit : done ++ argv :: rest = done ++ [argv] ++ rest := by simp
    rw [hsplit] at hgrants hreached₁ ⊢
    obtain ⟨l₂, hrun₂, hreached₂⟩ := ih hgrants hreached₁
    refine ⟨l₂, ?_, hreached₂⟩
    rw [stages, Action.outcome_bind_of_ok hrun₁]
    simpa using hrun₂

end Reached

end Launch

namespace Executor

variable {w : World}

/-- A launch in which no call fails makes exactly the planned calls. -/
theorem exists_launch (e : Executor) (output : Bool) {argvs : List (List String)}
    (hstages : argvs ≠ []) (hgrants : w.Grants argvs) :
    ∃ children w', (e.launch output argvs).outcome w = (.ok children, w') ∧
      w'.calls = w.calls ++ (Plan.of (e.capture output) argvs.length w).calls argvs := by
  have hbegun : Launch.Reached w (.of (e.capture output) argvs.length w) [] { world := w } := by
    simpa [Launch.Reached, Plan.openLinks, Plan.calls, Plan.of, List.length_pos_iff, hstages]
      using Launch.Stands.begin w
  obtain ⟨l, hrun, hreached⟩ := Launch.Reached.exists_stages hgrants hbegun
  -- Nothing is held any more, so leaving the links makes no call.
  have hclosed : (closeLinks l.links).run l.world = (none, l.world) := by
    refine closeLinks_of_forall_isClosed (fun link hmem => ?_) l.world
    rw [hreached.links] at hmem
    exact Plan.isClosed_of_mem_closedLinks (by simpa [Plan.of] using hmem)
  refine ⟨l.children, l.world, ?_, by simpa using hreached.calls⟩
  have hnonempty : argvs.isEmpty = false := by simpa using hstages
  have hrun' : (Launch.stages (e.capture output) 0 argvs).outcome { world := w } = (.ok (), l) :=
    hrun
  simp only [launch, hnonempty, Bool.false_eq_true, if_false, Action.outcome_bind,
    Action.outcome_get, Action.outcome_set, hrun', Action.outcome_liftM, hclosed,
    Action.outcome_pure]

/-- The calls of a start in which no call fails are the planned ones and no others: the two ends of
every pipe go to two neighbouring stages and to nobody else, and the parent closes each of them
exactly once. The output of the last stage is captured if it should be, and the error outputs are
with it if the executor captures them. The start answers a handle. Only a reader can spoil that
which is no thread of its own and so lets out a fault that it does not hear of. -/
theorem spawn_calls (e : Executor) (captured : Bool) (p : Pipeline) (w : World)
    (hstages : p.stages ≠ []) (hgrants : w.Grants p.argvs) :
    let capture : Capture := { stdout := captured, stderr := captured && e.captureStderr }
    let plan : Plan := .of capture p.stages.length w
    let calls := plan.calls p.argvs
    let outcome := (e.spawn captured p).outcome w
    outcome.2.calls = w.calls ++ calls ∧
      ((∃ h, outcome.1 = .ok h) ∨
        ∃ f, outcome.1 = .error (.fault f) ∧ w.LetsOut outcome.2 e.chunkSize f) ∧
      (∀ i, i + 1 < p.stages.length →
        .pipe (plan.reader i) (plan.writer i) ∈ calls ∧
        plan.stdout i = .descriptor (plan.writer i) ∧
        plan.stdin (i + 1) = .descriptor (plan.reader i) ∧
        ∀ j, (plan.Holds j (plan.writer i) ↔ j = i) ∧
          (plan.Holds j (plan.reader i) ↔ j = i + 1)) ∧
      (∀ d ∈ calls.flatMap Call.made, calls.count (.close d) = 1) ∧
      (∀ d, .close d ∈ calls → d ∈ calls.flatMap Call.made) := by
  intro capture plan calls outcome
  have hargvs : p.argvs ≠ [] := by simpa [Pipeline.argvs] using hstages
  have hall : p.argvs.length = plan.count := by simp [Pipeline.argvs, plan, Plan.of]
  have hcount : plan.count = p.stages.length := rfl
  obtain ⟨children, w₁, hlaunched, hcalls₁⟩ := e.exists_launch captured hargvs hgrants
  obtain ⟨hanswer, -, hsilent⟩ := spawn_of_launch hlaunched
  refine ⟨hsilent.trans ?_, hanswer, fun i hlt => ?_,
    fun d => Plan.count_close_of_mem_made hall, fun d => Plan.mem_made_of_close hall⟩
  · rw [hcalls₁]
    simp [calls, plan, capture, Executor.capture, Pipeline.argvs]
  · exact ⟨Plan.pipe_mem_calls hlt (by omega), Plan.stdout_eq_descriptor_iff.2 ⟨hlt, rfl⟩, rfl,
      fun j => ⟨Plan.holds_writer_iff hlt, Plan.holds_reader_iff⟩⟩

/-- Three stages, run with their outputs captured. The readers are threads. -/
theorem spawn_calls_three_stages :
    let p : Pipeline := ⟨[⟨"a", []⟩, ⟨"b", ["x"]⟩, ⟨"c", []⟩]⟩
    let w : World := { machine := { Machine.ofScript {} with threaded := true } }
    ∃ h w', (({} : Executor).spawn true p).outcome w = (.ok h, w') ∧
      w'.calls =
        [.pipe 10 11, .start ["a"] .inherited (.descriptor 11) .captured, .close 11,
          .pipe 12 13, .start ["b", "x"] (.descriptor 10) (.descriptor 13) .captured, .close 10,
          .close 13, .start ["c"] (.descriptor 12) .captured .captured, .close 12] := by
  intro p w
  have hgrants : w.Grants [["a"], ["b", "x"], ["c"]] :=
    ⟨fun _ _ => rfl, fun _ _ => rfl, fun _ _ => ⟨fun _ => {}, by simp [w, Machine.ofScript]⟩⟩
  obtain ⟨hcalls, hanswer, -⟩ := spawn_calls {} true p w (by simp [p]) hgrants
  generalize (({} : Executor).spawn true p).outcome w = outcome at hcalls hanswer ⊢
  rcases hanswer with ⟨h, hanswer⟩ | ⟨f, -, hescaped⟩
  · exact ⟨h, outcome.2, Prod.ext hanswer rfl, hcalls⟩
  · cases hescaped.threadless

end Executor

end Pipework
