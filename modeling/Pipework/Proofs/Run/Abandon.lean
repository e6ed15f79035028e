import Pipework.Proofs.Run.Progress
import Pipework.Proofs.Run.Reaping

/-!
# The end of a start

A start that stops with a failure is undone: its links are given up, and then its children are
ended. One that comes to its end has its links given up all the same. This file says what comes of
either, for the answer as well as for the calls on record, whatever the system answers.

## Main definitions

* `Launch.Crewed` — the children are the processes that were started
* `Launch.result` — whether all stages were started
* `Launch.given`, `Launch.released`, `Launch.releaseFault?` — what comes of giving up the links
* `Launch.Faithful` — each link agrees with the record, and still does when it is given up

## Main results

* `Launch.crewed_stopped` — the children of a start are the processes that it started
* `outcome_abandon`, `Executor.outcome_launch` — what comes of a start
* `Executor.confined_spawn` — after the links are given up, only calls on processes are made
* `Launch.Balanced.exists_leads` — the calls of a start are orderly to its end
* `Launch.Balanced.faithful` — the links agree with the record, also as they are given up
-/

namespace Pipework

namespace Launch

variable {l l' : Launch} {w w₀ : World}

/-! ### The children are the processes that were started -/

/-- A start that began in some world has started these processes, nothing was done with their
outputs yet, and it knows each by its number and by the outputs that are captured. -/
structure Crewed (w₀ : World) (ps : List Process) (l : Launch) : Prop where
  processes : l.world.processes = w₀.processes ++ ps
  untouched : ∀ p ∈ ps, ∀ o, p.events o = []
  children : l.children = Process.children w₀.nextPid ps

namespace Crewed

variable {ps : List Process}

theorem begin (w : World) : Crewed w [] { world := w } where
  processes := by simp
  untouched := by simp
  children := rfl

theorem congr (h : Crewed w₀ ps l) (hprocesses : l'.world.processes = l.world.processes)
    (hchildren : l'.children = l.children) : Crewed w₀ ps l' :=
  ⟨hprocesses.trans h.processes, h.untouched, hchildren.trans h.children⟩

/-- Every move keeps the children in step with the processes. -/
theorem exists_move (h : Crewed w₀ ps l) (hmove : Move l l') : ∃ ps', Crewed w₀ ps' l' := by
  cases hmove with
  | linked stage => exact ⟨ps, h.congr rfl rfl⟩
  | unlinked => exact ⟨ps, h.congr rfl rfl⟩
  | refused argv stdin stdout stderr hshown => exact ⟨ps, h.congr rfl rfl⟩
  | dropReader n =>
    exact ⟨ps, h.congr (releases_dropReader l n).processes (children_dropEnd l n)⟩
  | dropWriter n =>
    exact ⟨ps, h.congr (releases_dropWriter l n).processes (children_dropEnd l n)⟩
  | joined stage argv stdin stdout stderr conduct hshown =>
    -- The next process gets the next number, under which the start knows it.
    let p : Process :=
      { conduct := conduct (l.world.inputOf stdin), stdin, stdout, stderr }
    refine ⟨ps ++ [p], ?_, fun q hmem o => ?_, ?_⟩
    · change l.world.processes ++ [p] = _
      rw [h.processes, List.append_assoc]
    · rcases List.mem_append.1 hmem with hold | hnew
      · exact h.untouched q hold o
      · obtain rfl := List.mem_singleton.1 hnew
        cases o <;> rfl
    · have hpid : l.world.nextPid = w₀.nextPid + ps.length := by
        rw [World.nextPid, h.processes, List.length_append, World.nextPid, Nat.add_assoc]
      change l.children ++ [_] = _
      rw [h.children, Process.children, Process.children, List.mapIdx_append, hpid]
      simp [p, Process.child]

end Crewed

/-- However a start goes, its children are always the processes that it started. -/
theorem Moves.exists_crewed (hmoves : Moves { world := w } l) : ∃ ps, Crewed w ps l :=
  hmoves.induction (I := fun l => ∃ ps, Crewed w ps l) ⟨[], .begin w⟩
    fun _ _ ⟨_, hcrewed⟩ hmove => hcrewed.exists_move hmove

/-- Wherever a start stops, its children are the processes that it has started. -/
theorem crewed_stopped (capture : Capture) (argvs : List (List String)) (w : World) :
    (stopped capture argvs w).Crewed w
      ((stopped capture argvs w).world.processes.drop w.processes.length) := by
  obtain ⟨ps, hcrewed⟩ := (moves_stopped capture argvs w).exists_crewed
  rwa [hcrewed.processes, List.drop_left]

/-- The processes that a start has started are known by their numbers. -/
theorem Crewed.knows {ps : List Process} (h : Crewed w₀ ps l)
    (hprocesses : w.processes = l.world.processes) : w.Knows w₀.nextPid ps := by
  intro j p hget
  have hpid : ¬ w₀.nextPid + j < World.firstPid := by
    rw [World.nextPid]
    omega
  have hplace : w₀.nextPid + j - World.firstPid = w₀.processes.length + j := by
    rw [World.nextPid]
    omega
  rw [World.process?, if_neg hpid, hplace, hprocesses, h.processes,
    List.getElem?_append_right (Nat.le_add_right _ _), Nat.add_sub_cancel_left, hget]

/-! ### Giving up the links -/

/-- Whether all stages of a start were started, or else the failure. -/
def result (capture : Capture) (argvs : List (List String)) (w : World) : Except Failure Unit :=
  ((stages capture 0 argvs).outcome { world := w }).1

/-- What is closed when the links of a start are given up. -/
def given (l : Launch) : List Nat := Link.givenAll l.world l.links

/-- The world after the links of a start were given up. -/
def released (l : Launch) : World := ((closeLinks l.links).run l.world).2

/-- The fault that comes of giving up the links of a start. -/
def releaseFault? (l : Launch) : Option Fault := ((closeLinks l.links).run l.world).1

/-- Giving up the links of a start, no close of what they hold fails. -/
def Releasable (l : Launch) : Prop := l.world.Closable (l.links.flatMap Link.held).length

/-- The world after the links of a start that failed were given up, and a note was taken. -/
def warned (l : Launch) : Failure → World
  | .error e =>
    if e.isSpawn then l.released.takeNote (.givenUp e l.children.length) else l.released
  | .fault _ => l.released

theorem releases_given (l : Launch) : l.world.Releases l.given l.released :=
  releases_closeLinks l.links l.world

theorem releaseFault?_eq_none_iff : l.releaseFault? = none ↔ l.Releasable :=
  closeLinks_eq_none_iff l.links l.world

theorem Releasable.given_eq (h : l.Releasable) : l.given = l.links.flatMap Link.held :=
  givenAll_of_closable h

theorem processes_warned (l : Launch) (failure : Failure) :
    (l.warned failure).processes = l.world.processes := by
  have hrelease := l.releases_given.processes
  unfold warned
  split
  · split <;> exact hrelease
  · exact hrelease

theorem calls_warned (l : Launch) (failure : Failure) :
    (l.warned failure).calls = l.released.calls := by
  unfold warned
  split
  · split <;> rfl
  · rfl

theorem confined_warned {P : Call → Prop} (l : Launch) (failure : Failure) :
    l.released.Confined P (l.warned failure) := by
  unfold warned
  split
  · split
    · exact .takeNote _ _
    · exact .refl _
  · exact .refl _

end Launch

open Launch (result stopped)

/-- What comes of undoing a start. A fault in giving up the links leaves the children as they are,
and any fault takes the place of the failure. -/
theorem outcome_abandon {α : Type} (l : Launch) (failure : Failure) :
    (abandon l failure : Action World Failure α).outcome l.world =
      match l.releaseFault? with
      | some f => (.error (.fault f), l.released)
      | none =>
        match (reap 0 l.children).outcome (l.warned failure) with
        | (.ok _, w) => (.error failure, w)
        | (.error f, w) => (.error (.fault f), w) := by
  have hlinks : (closeLinks l.links).run l.world = (l.releaseFault?, l.released) := rfl
  rw [abandon, Action.outcome_bind, Action.outcome_liftM, hlinks]
  cases l.releaseFault? with
  | some f => rfl
  | none =>
    -- The note that may be taken first only changes the world that the children are ended in.
    have hended : ∀ w, ((reap 0 l.children).mapFailure Failure.fault >>= fun _ =>
        (throw failure : Action World Failure α)).outcome w =
          match (reap 0 l.children).outcome w with
          | (.ok _, w) => (.error failure, w)
          | (.error f, w) => (.error (.fault f), w) := by
      intro w
      rw [Action.outcome_bind, Action.outcome_mapFailure]
      rcases (reap 0 l.children).outcome w with ⟨_ | _, w'⟩ <;> rfl
    cases failure with
    | fault f => exact hended l.released
    | error e =>
      have hplain := hended l.released
      have hnoted := hended (l.released.takeNote (.givenUp e l.children.length))
      cases hspawn : e.isSpawn with
      | false => simpa [Launch.warned, hspawn] using hplain
      | true => simpa [Launch.warned, hspawn, Action.outcome_bind, World.note] using hnoted

/-- Undoing a start never answers anything but a failure. -/
theorem exists_outcome_abandon {α : Type} (l : Launch) (failure : Failure) :
    ∃ g w', (abandon l failure : Action World Failure α).outcome l.world = (.error g, w') := by
  rw [outcome_abandon]
  cases l.releaseFault? with
  | some f => exact ⟨_, _, rfl⟩
  | none =>
    dsimp only
    rcases (reap 0 l.children).outcome (l.warned failure) with ⟨_ | _, w'⟩ <;> exact ⟨_, _, rfl⟩

/-- What comes of a launch. -/
theorem Executor.outcome_launch (e : Executor) (captured : Bool) {argvs : List (List String)}
    (hstages : argvs ≠ []) (w : World) :
    (e.launch captured argvs).outcome w =
      let l := stopped (e.capture captured) argvs w
      match result (e.capture captured) argvs w with
      | .error failure => (abandon l failure).outcome l.world
      | .ok () =>
        match l.releaseFault? with
        | some f => (.error (.fault f), l.released)
        | none => (.ok l.children, l.released) := by
  have hnonempty : argvs.isEmpty = false := by simpa using hstages
  have hrun : (Launch.stages (e.capture captured) 0 argvs).outcome { world := w } =
    (result (e.capture captured) argvs w, stopped (e.capture captured) argvs w) := rfl
  simp only [launch, hnonempty, Bool.false_eq_true, if_false, Action.outcome_bind,
    Action.outcome_get, Action.outcome_set, hrun]
  generalize stopped (e.capture captured) argvs w = l
  cases result (e.capture captured) argvs w with
  | error failure => rfl
  | ok _ =>
    have hlinks : (closeLinks l.links).run l.world = (l.releaseFault?, l.released) := rfl
    simp only [Action.outcome_bind, Action.outcome_liftM, hlinks]
    cases l.releaseFault? <;> rfl

/-- A launch that comes to the end of its stages succeeds, if its links can be given up. -/
theorem Executor.launch_of_released (e : Executor) (captured : Bool) {argvs : List (List String)}
    {w : World} (hstages : argvs ≠ []) (hfine : result (e.capture captured) argvs w = .ok ())
    (hreleased : (stopped (e.capture captured) argvs w).releaseFault? = none) :
    (e.launch captured argvs).outcome w =
      (.ok (stopped (e.capture captured) argvs w).children,
        (stopped (e.capture captured) argvs w).released) := by
  rw [e.outcome_launch captured hstages w, hfine]
  simp only [hreleased]

/-- A launch that succeeds has come to the end of its stages, and its links could be given up. -/
theorem Executor.stopped_of_launch {e : Executor} {captured : Bool} {argvs : List (List String)}
    {w w' : World} {children : List Child}
    (hrun : (e.launch captured argvs).outcome w = (.ok children, w')) :
    let l := stopped (e.capture captured) argvs w
    argvs ≠ [] ∧ result (e.capture captured) argvs w = .ok () ∧ l.releaseFault? = none ∧
      children = l.children ∧ w' = l.released := by
  have hstages : argvs ≠ [] := by
    rintro rfl
    cases hrun
  rw [e.outcome_launch captured hstages w] at hrun
  intro l
  -- A start that is undone ends in a failure, and so does one whose links cannot be closed.
  cases houtcome : result (e.capture captured) argvs w with
  | error failure =>
    obtain ⟨g, w₁, hundone⟩ := exists_outcome_abandon (α := List Child) l failure
    rw [houtcome] at hrun
    exact nomatch (Prod.mk.inj (hundone.symm.trans hrun)).1
  | ok _ =>
    rw [houtcome] at hrun
    dsimp only at hrun
    cases hfault : l.releaseFault? with
    | some f => simp [l, hfault] at hrun
    | none =>
      obtain ⟨hsame, rfl⟩ := Prod.mk.inj ((by simpa only [l, hfault] using hrun :
        ((.ok l.children, l.released) : Except Failure (List Child) × World) = (.ok children, w')))
      exact ⟨hstages, rfl, rfl, (Except.ok.inj hsame).symm, rfl⟩

namespace Executor

variable (e : Executor) (captured : Bool) (w : World)

/-- A launch goes from where its links are given up by calls on processes only. -/
theorem confined_launch (argvs : List (List String)) :
    (stopped (e.capture captured) argvs w).released.Confined Call.isOnProcess
      ((e.launch captured argvs).outcome w).2 := by
  by_cases hstages : argvs = []
  · subst hstages
    exact .refl w
  · rw [e.outcome_launch captured hstages w]
    generalize stopped (e.capture captured) argvs w = l
    -- After the links are given up, only the undoing of the start makes calls, on its children.
    cases result (e.capture captured) argvs w with
    | error failure =>
      dsimp only
      rw [outcome_abandon]
      cases l.releaseFault? with
      | some f => exact .refl _
      | none =>
        have hended := confines_reap 0 l.children (l.warned failure)
        dsimp only
        rcases hrun : (reap 0 l.children).outcome (l.warned failure) with ⟨_ | _, w'⟩ <;>
          rw [hrun] at hended <;> exact (l.confined_warned failure).trans hended
    | ok _ =>
      dsimp only
      cases l.releaseFault? <;> exact .refl _

/-- The machine stays the same while a pipeline is launched. -/
theorem machine_launch (argvs : List (List String)) :
    ((e.launch captured argvs).outcome w).2.machine = w.machine :=
  (e.confined_launch captured w argvs).machine.trans <|
    (Launch.releases_given _).machine.trans (Launch.moves_stopped _ argvs w).machine

/-- The same for a start that goes on to open a handle, for that makes no call. -/
theorem confined_spawn (p : Pipeline) :
    (stopped (e.capture captured) p.argvs w).released.Confined Call.isOnProcess
      ((e.spawn captured p).outcome w).2 := by
  have hlaunched := e.confined_launch captured w p.argvs
  rw [spawn, Action.outcome_bind]
  rcases hrun : (e.launch captured p.argvs).outcome w with ⟨_ | children, w'⟩ <;>
    rw [hrun] at hlaunched
  · exact hlaunched
  · exact hlaunched.trans (Handle.confines_open _ _ _ _ w')

/-- The same for a pipeline that is run to its end. -/
theorem confined_run (p : Pipeline) :
    (stopped (e.capture captured) p.argvs w).released.Confined Call.isOnProcess
      ((e.run captured p).outcome w).2 := by
  have hspawned := e.confined_spawn captured w p
  rw [Executor.run, Action.outcome_bind]
  rcases houtcome : (e.spawn captured p).outcome w with ⟨_ | h, w'⟩ <;> rw [houtcome] at hspawned
  · exact hspawned
  · refine hspawned.trans ?_
    have hwaits : Action.Confines Call.isOnProcess
        ((liftM h.wait : Action World Failure (Except Failure ExecutionResult × Handle)) >>=
          fun answer => Executor.run.liftExcept answer.1) := by
      refine (Action.Confines.lift h.confines_wait).bind fun answer => ?_
      cases answer.1 with
      | ok r => exact .pure r
      | error f => exact .throw f
    exact hwaits w'

end Executor

/-- Once the links of a start are given up, the calls that follow on processes are orderly. -/
theorem Launch.Balanced.exists_leads {w w' : World} {calls : List Call} {l : Launch}
    (h : Launch.Balanced w calls l) (hconfined : l.released.Confined Call.isOnProcess w') :
    ∃ cs, (∀ c ∈ cs, c.isOnProcess) ∧ w.Leads (calls ++ l.given.map .close ++ cs) w' := by
  obtain ⟨cs, honProcess, hleads⟩ := hconfined.leads
  have hshown : ∀ d ∈ l.given, l.Shows d := fun d hmem =>
    List.mem_flatMap.1 ((Link.givenAll_sublist l.links l.world).subset hmem)
  have hnodup : l.given.Nodup := h.nodup_shown.sublist (Link.givenAll_sublist l.links l.world)
  have hgiven :=
    h.leads.releases l.releases_given (fun d hmem => h.held_of_shows (hshown d hmem)) hnodup
  exact ⟨cs, honProcess, hgiven.trans hleads⟩

namespace Launch

/-- Where a start stands, each of its links is on one of the pipes from the given one on, the
oldest link on the first. It agrees with the record, and it still does when it is given up in its
turn. -/
def Faithful (first : Nat) (l : Launch) : Prop :=
  ∀ before link after, l.links = before ++ link :: after →
    let descriptors := l.world.machine.descriptors
    let m := first + after.length
    let given := link.close.run ((closeLinks before).run l.world).2
    .pipe (descriptors.reader m) (descriptors.writer m) ∈ l.world.calls ∧
      link.Tracks descriptors l.world.calls m ∧ given.1.2.Tracks descriptors given.2.calls m

/-- A start that balances is faithful, if nothing before it closed what it brings. -/
theorem Balanced.faithful {w : World} {calls : List Call} {l : Launch} (h : Balanced w calls l)
    (hfresh : ∀ m, w.pipes ≤ m → .close (w.machine.descriptors.reader m) ∉ w.calls ∧
      .close (w.machine.descriptors.writer m) ∉ w.calls) : l.Faithful w.pipes := by
  intro before link after hsplit
  have hlength : l.links.length = before.length + (after.length + 1) := by simp [hsplit]
  have hget : ∀ n < before.length, l.links[n]? = before[n]? := by
    intro n hlt
    rw [hsplit, List.getElem?_append_left hlt]
  have hhere : l.links[before.length]? = some link := by simp [hsplit]
  have hown : link.Tracks w.machine.descriptors calls (w.pipes + after.length) :=
    h.tracks before.length after.length link hhere (by omega)
  obtain ⟨hreader, hwriter⟩ := hfresh (w.pipes + after.length) (Nat.le_add_right _ _)
  have hall : link.Tracks w.machine.descriptors l.world.calls (w.pipes + after.length) := by
    rw [h.leads.record]
    exact hown.prepend hreader hwriter
  have hpipes := h.pipes
  -- The links before it are on other pipes, so that closing them leaves its own ends alone.
  have hrelease := releases_closeLinks before l.world
  have hgiven : link.Tracks w.machine.descriptors ((closeLinks before).run l.world).2.calls
      (w.pipes + after.length) := by
    rw [hrelease.calls]
    refine hall.append_others fun d hmem => ?_
    obtain ⟨other, hmem, hheld⟩ :=
      List.mem_flatMap.1 ((Link.givenAll_sublist before l.world).subset hmem)
    obtain ⟨n, hlt, rfl⟩ := List.mem_iff_getElem.1 hmem
    have htracks := h.tracks_of_getElem?
      (show l.links[n]? = some before[n] by rw [hget n hlt, List.getElem?_eq_getElem hlt])
    exact ⟨_, before[n], calls, by omega, htracks, hheld⟩
  dsimp only
  rw [h.leads.machine]
  refine ⟨?_, hall, ?_⟩
  · rw [h.leads.record]
    exact List.mem_append_right _
      ((h.leads.pipe_mem_iff _ _).2 ⟨_, Nat.le_add_right _ _, by omega, rfl, rfl⟩)
  · rw [(link.releases_close _).calls]
    exact hgiven.close _

end Launch

end Pipework
