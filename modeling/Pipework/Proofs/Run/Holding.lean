import Pipework.Proofs.Run.Following

/-!
# What the parent holds while it starts a pipeline

A stage reads to the end of its input only if nobody keeps the write end of its link open. So it
matters what the parent holds at the moment it starts a process, for a process may come by whatever
is open then. This file follows what the parent holds from call to call: the read end that the next
stage will have, and both ends of the next link while its writer is started. There are never more
than these three, however long the pipeline is and whatever call fails.

## Main definitions

* `Call.holding` — what the parent holds after some calls
* `Plan.openCalls`, `Plan.closeCalls` — the calls of a stage before and after its process is
  started
* `Plan.kept`, `Plan.heldAt` — what the parent holds between two stages, and when it starts one

## Main results

* `Plan.holding_calls` — between two stages the parent holds what the next one reads from
* `Plan.holding_sublist_heldAt` — during a stage it holds no more than when the process is started
* `Plan.before_start` — a beginning of the plan that ends with the start of a process
* `Executor.exists_calls_of_confined` — processes are started in the stages only
* `Executor.held_during_start` — what the parent holds at every moment of a start
-/

namespace Pipework

namespace Call

/-- What the parent holds after these calls, in the order in which it came. -/
def holding (calls : List Call) : List Nat :=
  (calls.flatMap made).filter fun d => .close d ∉ calls

/-- A process is started, or at least tried to be. -/
def isStart : Call → Bool
  | .start .. => true
  | _ => false

variable {calls after : List Call} {reader writer : Nat}

/-- Calls that bring nothing can only take from what is held. -/
theorem holding_append (hunmade : after.flatMap made = []) :
    holding (calls ++ after) = (holding calls).filter fun d => .close d ∉ after := by
  rw [holding, holding, List.flatMap_append, hunmade, List.append_nil, List.filter_filter]
  congr 1
  funext d
  simp [not_or, Bool.and_comm]

theorem holding_append_sublist (hunmade : after.flatMap made = []) :
    (holding (calls ++ after)).Sublist (holding calls) := by
  rw [holding_append hunmade]
  exact List.filter_sublist

theorem holding_append_pipe (hfresh : .close reader ∉ calls) (hfresh' : .close writer ∉ calls) :
    holding (calls ++ [.pipe reader writer]) = holding calls ++ [reader, writer] := by
  simp [holding, made, hfresh, hfresh']

end Call

open Call (holding made isStart)

namespace Plan

variable {plan : Plan} {argvs : List (List String)} {argv : List String} {before : List Call}
  {i j d : Nat}

/-- The calls of a stage before its process is started. -/
def openCalls (plan : Plan) (i : Nat) : List Call :=
  if i + 1 < plan.count then [.pipe (plan.reader i) (plan.writer i)] else []

/-- The calls of a stage after its process is started. -/
def closeCalls (plan : Plan) (i : Nat) : List Call :=
  (if 0 < i then [.close (plan.reader (i - 1))] else []) ++
    if i + 1 < plan.count then [.close (plan.writer i)] else []

/-- What the parent holds before it turns to a stage. -/
def kept (plan : Plan) (i : Nat) : List Nat := if 0 < i then [plan.reader (i - 1)] else []

/-- What the parent holds when it starts the process of a stage: the read end of the link before
it, and both ends of the link behind it. -/
def heldAt (plan : Plan) (i : Nat) : List Nat :=
  plan.kept i ++ if i + 1 < plan.count then [plan.reader i, plan.writer i] else []

/-! ### Calls of one stage -/

theorem stageCalls_eq (plan : Plan) (i : Nat) (argv : List String) :
    plan.stageCalls i argv = plan.openCalls i ++
      (.start argv (plan.stdin i) (plan.stdout i) plan.stderr :: plan.closeCalls i) := by
  simp [stageCalls, openCalls, closeCalls]

theorem unmade_closeCalls (plan : Plan) (i : Nat) : (plan.closeCalls i).flatMap made = [] := by
  unfold closeCalls
  split_ifs <;> rfl

theorem countP_isStart_openCalls (plan : Plan) (i : Nat) :
    (plan.openCalls i).countP isStart = 0 := by
  unfold openCalls
  split_ifs <;> rfl

theorem countP_isStart_closeCalls (plan : Plan) (i : Nat) :
    (plan.closeCalls i).countP isStart = 0 := by
  unfold closeCalls
  split_ifs <;> rfl

theorem countP_isStart_calls (plan : Plan) (argvs : List (List String)) :
    (plan.calls argvs).countP isStart = argvs.length := by
  induction argvs using List.reverseRecOn with
  | nil => rfl
  | append_singleton argvs argv ih =>
    rw [calls_append_singleton, List.countP_append, ih, stageCalls_eq, List.countP_append,
      countP_isStart_openCalls, List.countP_cons_of_pos rfl, countP_isStart_closeCalls,
      List.length_append, List.length_singleton, Nat.zero_add]

/-- What is held when the process of a stage is started goes to it, but for what the next stage
reads from. -/
theorem filter_heldAt (plan : Plan) (i : Nat) :
    ((plan.heldAt i).filter fun d => .close d ∉ plan.closeCalls i) =
      if i + 1 < plan.count then [plan.reader i] else [] := by
  have hother (hpos : 0 < i) : ¬ i = i - 1 := by omega
  by_cases hpos : 0 < i <;> by_cases hlt : i + 1 < plan.count <;>
    simp [heldAt, kept, closeCalls, hpos, hlt, reader_inj, reader_ne_writer,
      reader_ne_writer.symm, hother]

theorem kept_sublist_heldAt (plan : Plan) (i : Nat) : (plan.kept i).Sublist (plan.heldAt i) :=
  List.sublist_append_left _ _

/-- At most three descriptors are held when a process is started. -/
theorem length_heldAt_le (plan : Plan) (i : Nat) : (plan.heldAt i).length ≤ 3 := by
  unfold heldAt kept
  split_ifs <;> simp

/-- The write end of an earlier link is not held any more. -/
theorem writer_notMem_heldAt (hlt : j < i) : plan.writer j ∉ plan.heldAt i := by
  have hne : j ≠ i := Nat.ne_of_lt hlt
  unfold heldAt kept
  split_ifs <;> simp [writer_inj, reader_ne_writer.symm, hne]

/-! ### Calls of the stages so far -/

/-- The ends of the next link were not closed before. -/
theorem fresh_of_lt (hlt : argvs.length < plan.count) :
    .close (plan.reader argvs.length) ∉ plan.calls argvs ∧
      .close (plan.writer argvs.length) ∉ plan.calls argvs := by
  have hclosed (d : Nat) (hmem : .close d ∈ plan.calls argvs) :
      d ∈ (plan.calls argvs).flatMap Call.dropped :=
    List.mem_flatMap.2 ⟨_, hmem, by simp [Call.dropped]⟩
  constructor <;> intro hmem <;> have hgone := hclosed _ hmem <;>
    rw [flatMap_dropped_of_lt hlt] at hgone <;>
    simp [ends, reader_inj, writer_inj, reader_ne_writer, reader_ne_writer.symm] at hgone <;> omega

/-- When the parent starts the process of a stage, it holds what it kept and the ends of the new
link. -/
theorem holding_open (hheld : holding (plan.calls argvs) = plan.kept argvs.length) :
    holding (plan.calls argvs ++ plan.openCalls argvs.length) = plan.heldAt argvs.length := by
  unfold openCalls heldAt
  split_ifs with hlt
  · obtain ⟨hreader, hwriter⟩ := fresh_of_lt (Nat.lt_of_succ_lt hlt)
    rw [Call.holding_append_pipe hreader hwriter, hheld]
  · rw [List.append_nil, List.append_nil, hheld]

/-- Between two stages the parent holds what the next one reads from, and after the last one
nothing. -/
theorem holding_calls (hle : argvs.length ≤ plan.count) :
    holding (plan.calls argvs) =
      if argvs.length < plan.count then plan.kept argvs.length else [] := by
  induction argvs using List.reverseRecOn with
  | nil => simp [calls, holding, kept]
  | append_singleton argvs argv ih =>
    have hlt : argvs.length < plan.count := Nat.lt_of_succ_le (by simpa using hle)
    have hopened := holding_open ((ih (Nat.le_of_lt hlt)).trans (if_pos hlt))
    have hunmade :
      (Call.start argv (plan.stdin argvs.length) (plan.stdout argvs.length) plan.stderr ::
        plan.closeCalls argvs.length).flatMap made = [] := by
      rw [List.flatMap_cons, unmade_closeCalls]
      rfl
    rw [calls_append_singleton, stageCalls_eq, ← List.append_assoc,
      Call.holding_append hunmade, hopened]
    simpa [kept] using plan.filter_heldAt argvs.length

/-! ### Beginnings of a plan -/

/-- A beginning of two parts ends within the first or reaches into the second. -/
theorem prefix_append_cases {α : Type} {xs ys zs : List α} (h : xs <+: ys ++ zs) :
    xs <+: ys ∨ ∃ part, part ≠ [] ∧ xs = ys ++ part ∧ part <+: zs := by
  rcases List.prefix_or_prefix_of_prefix h (List.prefix_append ys zs) with hwithin | ⟨part, rfl⟩
  · exact .inl hwithin
  · by_cases hmore : part = []
    · exact .inl (by simp [hmore])
    · exact .inr ⟨part, hmore, rfl, (List.prefix_append_right_inj ys).1 h⟩

/-- During a stage the parent holds no more than when its process is started. -/
theorem holding_sublist_heldAt {part : List Call} (hlt : argvs.length < plan.count)
    (hstart : part <+: plan.stageCalls argvs.length argv) :
    (holding (plan.calls argvs ++ part)).Sublist (plan.heldAt argvs.length) := by
  have hheld := (holding_calls (Nat.le_of_lt hlt)).trans (if_pos hlt)
  have hopened := holding_open hheld
  rw [stageCalls_eq] at hstart
  rcases prefix_append_cases hstart with hwithin | ⟨part, -, rfl, hlater⟩
  · -- There is at most one call before the process is started.
    have hall : part = [] ∨ part = plan.openCalls argvs.length := by
      unfold openCalls at hwithin ⊢
      split_ifs at hwithin ⊢ with hmore
      · simpa [List.prefix_cons_iff] using hwithin
      · exact .inl (List.prefix_nil.1 hwithin)
    rcases hall with rfl | rfl
    · rw [List.append_nil, hheld]
      exact plan.kept_sublist_heldAt _
    · rw [hopened]
  · have hunmade : part.flatMap made = [] := by
      have hall := unmade_closeCalls plan argvs.length
      rw [List.flatMap_eq_nil_iff] at hall ⊢
      intro c hmem
      rcases List.mem_cons.1 (hlater.subset hmem) with rfl | hmem
      · rfl
      · exact hall c hmem
    rw [← List.append_assoc, ← hopened]
    exact Call.holding_append_sublist hunmade

/-- At no moment of the plan more than three descriptors are held. -/
theorem length_holding_le (hle : argvs.length ≤ plan.count)
    (hstart : before <+: plan.calls argvs) : (holding before).length ≤ 3 := by
  induction argvs using List.reverseRecOn with
  | nil =>
    obtain rfl : before = [] := List.prefix_nil.1 hstart
    exact Nat.zero_le 3
  | append_singleton argvs argv ih =>
    have hlt : argvs.length < plan.count := Nat.lt_of_succ_le (by simpa using hle)
    rw [calls_append_singleton] at hstart
    rcases prefix_append_cases hstart with hwithin | ⟨part, -, rfl, hlater⟩
    · exact ih (Nat.le_of_lt hlt) hwithin
    · exact Nat.le_trans (holding_sublist_heldAt hlt hlater).length_le (plan.length_heldAt_le _)

/-- Only one process is started for a stage, as the plan has it. -/
theorem open_of_start {argv' : List String} {stdin stdout stderr : Wiring} {part : List Call}
    (hstart : part ++ [.start argv' stdin stdout stderr] <+: plan.stageCalls i argv) :
    argv' = argv ∧ stdin = plan.stdin i ∧ stdout = plan.stdout i ∧ stderr = plan.stderr ∧
      part = plan.openCalls i := by
  have hopen' : .start argv' stdin stdout stderr ∉ plan.openCalls i := fun hmem =>
    absurd rfl (List.countP_eq_zero.1 (plan.countP_isStart_openCalls i) _ hmem)
  have hclose' : .start argv' stdin stdout stderr ∉ plan.closeCalls i := fun hmem =>
    absurd rfl (List.countP_eq_zero.1 (plan.countP_isStart_closeCalls i) _ hmem)
  rw [stageCalls_eq] at hstart
  -- The one start of a stage stands between its open calls and its close calls.
  rcases prefix_append_cases hstart with hwithin | ⟨later, hmore, hsplit, hstart⟩
  · exact absurd (hwithin.subset (by simp)) hopen'
  · obtain ⟨rest, rfl, hafter⟩ := (List.prefix_cons_iff.1 hstart).resolve_left hmore
    rcases rest.eq_nil_or_concat with rfl | ⟨rest, c, rfl⟩
    · obtain ⟨rfl, hsame⟩ := List.append_inj' hsplit rfl
      obtain ⟨rfl, rfl, rfl, rfl⟩ := Call.start.inj (List.cons.inj hsame).1
      exact ⟨rfl, rfl, rfl, rfl, rfl⟩
    · rw [List.concat_eq_append, ← List.cons_append, ← List.append_assoc] at hsplit
      obtain ⟨-, hsame⟩ := List.append_inj' hsplit rfl
      obtain rfl := (List.cons.inj hsame).1
      exact absurd (hafter.subset (by simp)) hclose'

/-- A beginning of the plan that ends with the start of a process has the calls of all stages
before it, and of this one as far as the process is concerned. -/
theorem before_start {stdin stdout stderr : Wiring}
    (hstart : before ++ [.start argv stdin stdout stderr] <+: plan.calls argvs) :
    let k := before.countP isStart
    argvs[k]? = some argv ∧ stdin = plan.stdin k ∧ stdout = plan.stdout k ∧ stderr = plan.stderr ∧
      before = plan.calls (argvs.take k) ++ plan.openCalls k := by
  -- The start is one for an earlier stage, or for the last of the list.
  induction argvs using List.reverseRecOn with
  | nil => simp [calls] at hstart
  | append_singleton argvs last ih =>
    rw [calls_append_singleton] at hstart
    rcases prefix_append_cases hstart with hwithin | ⟨part, hmore, hsplit, hlater⟩
    · obtain ⟨hstage, hwiring⟩ := ih hwithin
      have hlt : before.countP isStart < argvs.length := (List.getElem?_eq_some_iff.1 hstage).1
      intro k
      rw [List.getElem?_append_left hlt, List.take_append_of_le_length (Nat.le_of_lt hlt)]
      exact ⟨hstage, hwiring⟩
    · obtain ⟨part, c, rfl⟩ := List.eq_nil_or_concat part |>.resolve_left hmore
      rw [List.concat_eq_append, ← List.append_assoc] at hsplit
      obtain ⟨rfl, hsame⟩ := List.append_inj' hsplit rfl
      obtain rfl := (List.cons.inj hsame).1
      obtain ⟨rfl, rfl, rfl, rfl, rfl⟩ := open_of_start (by simpa using hlater)
      have hcount : (plan.calls argvs ++ plan.openCalls argvs.length).countP isStart =
          argvs.length := by
        rw [List.countP_append, countP_isStart_calls, countP_isStart_openCalls, Nat.add_zero]
      simp [hcount]

/-- What the parent holds when the plan has it start a process. -/
theorem holding_before_start {stdin stdout stderr : Wiring} (hle : argvs.length ≤ plan.count)
    (hstart : before ++ [.start argv stdin stdout stderr] <+: plan.calls argvs) :
    holding before = plan.heldAt (before.countP isStart) := by
  obtain ⟨hstage, -, -, -, hsplit⟩ := before_start hstart
  generalize before.countP isStart = k at hstage hsplit
  obtain ⟨hlt, -⟩ := List.getElem?_eq_some_iff.1 hstage
  have hlength : (argvs.take k).length = k := List.length_take_of_le (Nat.le_of_lt hlt)
  have hkept : holding (plan.calls (argvs.take k)) = plan.kept (argvs.take k).length := by
    rw [holding_calls (by omega), if_pos (by omega)]
  have hopened := holding_open hkept
  rw [hsplit]
  rwa [hlength] at hopened

theorem exists_link_of_pipe_mem {reader writer : Nat}
    (hmem : .pipe reader writer ∈ plan.calls argvs) :
    ∃ m, reader = plan.reader m ∧ writer = plan.writer m := by
  obtain ⟨cs, hget, hmem⟩ := List.mem_flatten.1 hmem
  obtain ⟨m, hlt, rfl⟩ := List.mem_mapIdx.1 hget
  have hopened : .pipe reader writer ∈ plan.openCalls m := by
    rw [stageCalls_eq] at hmem
    rcases List.mem_append.1 hmem with hmem | hmem
    · exact hmem
    · unfold closeCalls at hmem
      split_ifs at hmem <;> simp at hmem
  unfold openCalls at hopened
  split_ifs at hopened
  · obtain ⟨rfl, rfl⟩ := Call.pipe.inj (List.mem_singleton.1 hopened)
    exact ⟨m, rfl, rfl⟩
  · simp at hopened

/-- What feeds a process is not held any more when a later process is started, and neither is what
feeds that. -/
theorem writer_notMem_holding {stdin stdout stderr stdout' stderr' : Wiring} {argv' : List String}
    {reader writer : Nat} (hle : argvs.length ≤ plan.count)
    (hstart : before ++ [.start argv stdin stdout stderr] <+: plan.calls argvs)
    (hreads : .start argv' (.descriptor reader) stdout' stderr' ∈
      before ++ [.start argv stdin stdout stderr])
    (hpiped : .pipe reader writer ∈ before) : writer ∉ holding before := by
  obtain ⟨first, rest, hsplit⟩ := List.append_of_mem hreads
  have hearlier : first ++ [.start argv' (.descriptor reader) stdout' stderr'] <+:
      before ++ [.start argv stdin stdout stderr] := ⟨rest, by simp [hsplit]⟩
  obtain ⟨-, hstdin', -⟩ := before_start (hearlier.trans hstart)
  obtain ⟨hpos, rfl⟩ := stdin_eq_descriptor_iff.1 hstdin'.symm
  have hle' : first.countP isStart ≤ before.countP isStart := by
    have hwithin : first <+: before := by
      refine List.prefix_of_prefix_length_le ((List.prefix_append _ _).trans hearlier)
        (List.prefix_append _ _) ?_
      have hlengths := hearlier.length_le
      simpa using hlengths
    exact hwithin.sublist.countP_le
  -- The pipe is the one before the stage that reads from it, which is not a later stage.
  have hmade : .pipe _ writer ∈ plan.calls argvs :=
    ((List.prefix_append _ _).trans hstart).subset hpiped
  obtain ⟨m, hsame, rfl⟩ := exists_link_of_pipe_mem hmade
  rw [holding_before_start hle hstart, ← reader_inj.1 hsame]
  exact writer_notMem_heldAt (by omega)

end Plan

namespace Executor

open Launch (result stopped)

/-- What is on record after a start left its stages is about descriptors that are given up, and
about processes that run. -/
theorem exists_calls_of_confined {capture : Capture} {p : Pipeline} {w w' : World}
    (hconfined : (stopped capture p.argvs w).released.Confined Call.isOnProcess w') :
    ∃ made later, made <+: (Plan.of capture p.stages.length w).calls p.argvs ∧
      (∀ c ∈ later, c.isStart = false ∧ c.made = []) ∧
      w'.calls = w.calls ++ (made ++ later) ∧
      (result capture p.argvs w = .ok () →
        made = (Plan.of capture p.stages.length w).calls p.argvs) := by
  obtain ⟨made, tail, hstart, hpipe, hrecord, hall⟩ := Launch.exists_made capture p.argvs w
  obtain ⟨-, -, cs, hrecord', honProcess⟩ := hconfined
  have hlength : p.argvs.length = p.stages.length := by simp [Pipeline.argvs]
  rw [hlength] at hstart hall
  generalize stopped capture p.argvs w = l at *
  -- After its beginning of the plan a start opens nothing: it closes ends and ends processes.
  refine ⟨made, tail ++ (l.given.map .close ++ cs), hstart, fun c hmem => ?_, ?_,
    fun hfine => (hall hfine).1⟩
  · rcases List.mem_append.1 hmem with hmem | hmem
    · rcases hpipe with rfl | rfl
      · simp at hmem
      · obtain rfl := List.mem_singleton.1 hmem
        exact ⟨rfl, rfl⟩
    · rcases List.mem_append.1 hmem with hmem | hmem
      · obtain ⟨d, -, rfl⟩ := List.mem_map.1 hmem
        exact ⟨rfl, rfl⟩
      · have hon := honProcess c hmem
        cases c <;> first | exact ⟨rfl, rfl⟩ | exact absurd hon id
  · rw [hrecord', l.releases_given.calls, hrecord]
    simp only [List.append_assoc]

/-- After the stages are left no process is started. -/
theorem prefix_of_start {made later before : List Call} {argv : List String}
    {stdin stdout stderr : Wiring} (hquiet : ∀ c ∈ later, c.isStart = false)
    (hmoment : before ++ [.start argv stdin stdout stderr] <+: made ++ later) :
    before ++ [.start argv stdin stdout stderr] <+: made := by
  rcases Plan.prefix_append_cases hmoment with hwithin | ⟨part, hmore, hsplit, hafter⟩
  · exact hwithin
  · obtain ⟨part, c, rfl⟩ := part.eq_nil_or_concat.resolve_left hmore
    rw [List.concat_eq_append, ← List.append_assoc] at hsplit
    obtain ⟨-, hsame⟩ := List.append_inj' hsplit rfl
    obtain rfl := (List.cons.inj hsame).1
    cases hquiet (.start argv stdin stdout stderr) (hafter.subset (by simp))

/-- At every moment of a start the parent holds at most three descriptors. When it starts the
process of a stage, these are the read end of the link before it and both ends of the link behind
it, and so no write end of what this process, or one before it, reads from. When the start answers
a handle, nothing is held. -/
theorem held_during_start (e : Executor) (captured : Bool) (p : Pipeline) (w : World) :
    let plan : Plan := .of (e.capture captured) p.stages.length w
    let outcome := (e.spawn captured p).outcome w
    ∃ calls, outcome.2.calls = w.calls ++ calls ∧
      (∀ before, before <+: calls → (holding before).length ≤ 3) ∧
      (∀ before argv stdin stdout stderr,
        before ++ [.start argv stdin stdout stderr] <+: calls →
        let k := before.countP isStart
        p.argvs[k]? = some argv ∧ stdin = plan.stdin k ∧ stdout = plan.stdout k ∧
          (k + 1 < p.stages.length → .pipe (plan.reader k) (plan.writer k) ∈ before) ∧
          holding before = (if 0 < k then [plan.reader (k - 1)] else []) ++
            (if k + 1 < p.stages.length then [plan.reader k, plan.writer k] else []) ∧
          ∀ argv' reader stdout' stderr' writer,
            .start argv' (.descriptor reader) stdout' stderr' ∈
              before ++ [.start argv stdin stdout stderr] →
            .pipe reader writer ∈ before → writer ∉ holding before) ∧
      ∀ h, outcome.1 = .ok h → holding calls = [] := by
  intro plan outcome
  obtain ⟨made, later, hstart, hquiet, hrecord, hall⟩ :=
    exists_calls_of_confined (e.confined_spawn captured w p)
  have hlength : p.argvs.length = plan.count := by simp [Pipeline.argvs, plan, Plan.of]
  have hunmade {cs : List Call} (hsub : cs ⊆ later) : cs.flatMap Call.made = [] :=
    List.flatMap_eq_nil_iff.2 fun c hmem => (hquiet c (hsub hmem)).2
  -- A moment of the start is one in the plan, or comes after it, when nothing is opened.
  refine ⟨made ++ later, hrecord, fun before hmoment => ?_, ?_, fun h hrun => ?_⟩
  · rcases Plan.prefix_append_cases hmoment with hwithin | ⟨part, -, rfl, hafter⟩
    · exact Plan.length_holding_le (Nat.le_of_eq hlength) (hwithin.trans hstart)
    · exact Nat.le_trans (Call.holding_append_sublist (hunmade hafter.subset)).length_le
        (Plan.length_holding_le (Nat.le_of_eq hlength) hstart)
  · intro before argv stdin stdout stderr hmoment k
    have hplanned : before ++ [.start argv stdin stdout stderr] <+: plan.calls p.argvs :=
      (prefix_of_start (fun c hmem => (hquiet c hmem).1) hmoment).trans hstart
    obtain ⟨hstage, hstdin', hstdout', -, hsplit⟩ := Plan.before_start hplanned
    refine ⟨hstage, hstdin', hstdout', fun hlt => ?_,
      Plan.holding_before_start (Nat.le_of_eq hlength) hplanned, ?_⟩
    · have hopened : .pipe (plan.reader k) (plan.writer k) ∈ plan.openCalls k := by
        rw [Plan.openCalls, if_pos (show k + 1 < plan.count from hlt)]
        exact List.mem_singleton_self _
      rw [hsplit]
      exact List.mem_append_right _ hopened
    · exact fun argv' reader stdout' stderr' writer hreads hpiped =>
        Plan.writer_notMem_holding (Nat.le_of_eq hlength) hplanned hreads hpiped
  · have hnone : holding (plan.calls p.argvs) = [] := by
      rw [Plan.holding_calls (Nat.le_of_eq hlength),
        if_neg (Nat.not_lt.2 (Nat.le_of_eq hlength.symm))]
    obtain ⟨children, w₁, hlaunched, -⟩ :=
      Action.outcome_bind_eq_ok_iff.1
        (Prod.ext hrun rfl : (e.spawn captured p).outcome w = (.ok h, _))
    rw [Call.holding_append (hunmade (List.Subset.refl _)),
      hall (stopped_of_launch hlaunched).2.1, hnone, List.filter_nil]

end Executor

end Pipework
