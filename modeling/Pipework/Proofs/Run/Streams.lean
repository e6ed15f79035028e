import Pipework.Proofs.Run.Concern
import Pipework.Proofs.Run.Refusal

/-!
# Every captured stream is released

A captured output is a stream that somebody has to close. If a start succeeds, it has a reader,
which reads it to its end and closes it whatever it meets. If a start fails, there are no readers,
and the stream is closed as its process is ended. Each captured stream falls to one of the two, and
to one only: the output of the last stage and the error outputs are all that is captured, and these
are what readers are there for.

## Main definitions

* `Stream.Released` — a stream was closed once, and last
* `Process.drained`, `Process.drainedOutputs` — a process after an output was read, or both

## Main results

* `Stream.exists_released_drain` — a reader closes its stream, whatever it meets
* `Handle.exists_read_of_open` — opening a handle reads all that is captured
* `Launch.releasable_stopped` — links can be given up if no close fails that is made for that
* `Executor.streams_released` — every captured stream is closed once when a start is over
-/

namespace Pipework

namespace Stream

/-- These are the last events of a stream: it was closed after the given reads, and not before. -/
def Released (reads events : List Event) : Prop := events = reads ++ [.close] ∧ .close ∉ reads

theorem exists_released_drainFrom {size : Nat} {events : List Event} (hunclosed : .close ∉ events)
    (got : List Bytes) (s : Stream) :
    ∃ reads, Released reads (drainFrom size events got s).events := by
  fun_induction drainFrom size events got s with
  | case1 events got s f t hread =>
    exact ⟨(.readFailed size :: events).reverse, by simp [finish], by simpa using hunclosed⟩
  | case2 events got s t hread =>
    exact ⟨(.read size 0 :: events).reverse, by simp [finish], by simpa using hunclosed⟩
  | case3 events got s bytes t hread hsome ih => exact ih (by simpa using hunclosed)

/-- A drain closes its stream once, and last, whatever it meets. -/
theorem exists_released_drain (size : Nat) (s : Stream) :
    ∃ reads, Released reads (s.drain size).events :=
  exists_released_drainFrom List.not_mem_nil [] s

end Stream

/-! ### Readers -/

namespace Process

variable {p : Process}

/-- The process after an output was read to its end, if it is captured. -/
def drained (size : Nat) (o : Output) (p : Process) : Process :=
  if p.wiring o == .captured then p.record o ((p.stream o).drain size).events else p

theorem drained_of_ne {o : Output} (hoff : p.wiring o ≠ .captured) (size : Nat) :
    p.drained size o = p := by
  simp [drained, hoff]

theorem unread_drained (p : Process) (size : Nat) (o : Output) :
    (p.drained size o).unread = p.unread := by
  unfold drained
  split
  · exact p.unread_record o _
  · rfl

theorem events_drained (p : Process) (size : Nat) (o o' : Output) :
    (p.drained size o).events o' =
      if o = o' ∧ p.wiring o = .captured then p.events o' ++ ((p.stream o).drain size).events
      else p.events o' := by
  by_cases hcaptured : p.wiring o = .captured
  · cases o <;> cases o' <;> simp [drained, hcaptured, record, events]
  · simp [drained, hcaptured]

/-- The process after its captured outputs were read to their ends. -/
def drainedOutputs (size : Nat) (p : Process) : Process :=
  (p.drained size .stdout).drained size .stderr

theorem events_drainedOutputs (p : Process) (size : Nat) (o : Output) :
    (p.drainedOutputs size).events o =
      if p.wiring o = .captured then p.events o ++ ((p.stream o).drain size).events
      else p.events o := by
  have hunread := p.unread_drained size .stdout
  have hwiring : (p.drained size .stdout).wiring .stderr = p.wiring .stderr := by
    rw [← wiring_unread, hunread, wiring_unread]
  have hstream : (p.drained size .stdout).stream .stderr = p.stream .stderr := by
    rw [← stream_unread, hunread, stream_unread]
  rw [drainedOutputs, events_drained, hwiring, hstream]
  cases o <;> simp [events_drained]

end Process

namespace Handle

variable {w : World} {pid size : Nat} {p : Process} {ps : List Process}

theorem turns_report {cs : List Call} {w₁ : World} {q : Process} (hturns : w.Turns pid cs q w₁)
    (label : String) (read : Bytes × Option Fault) :
    w.Turns pid cs q ((report label read).outcome w₁).2 := by
  unfold report
  split
  · exact hturns
  · split
    · exact hturns.takeNote _
    · rw [Action.outcome_bind_of_ok (Action.outcome_get w₁)]
      split <;> exact hturns

/-- A reader turns its process into one whose output was read, if it is captured, and it does so
also if it lets a fault out. -/
theorem turns_reading (size : Nat) (hknown : w.process? pid = some p) (o : Output)
    (label : String) :
    w.Turns pid [] (p.drained size o) ((reading size pid p o label).outcome w).2 := by
  have hread := concerns_readCaptured (p.wiring o == .captured) size pid o w
  rw [hknown] at hread
  have hturns : w.Turns pid [] (p.drained size o)
      ((readCaptured (p.wiring o == .captured) size pid o).run w).2 := by
    rw [hread]
    have hchange := World.Turns.change hknown (if p.wiring o == .captured then
      (·.record o ((p.stream o).drain size).events) else id)
    unfold Process.drained
    split <;> simp_all
  rw [reading, drain_if_eq, Action.outcome_bind_of_ok (Action.outcome_liftM _ w)]
  exact turns_report hturns label _

/-- The error outputs that are captured are read, one after the other. A fault that a reader lets
out leaves the later ones unread. -/
theorem knows_drainStderr (size : Nat) (hknown : w.Knows pid ps) (index : Nat) {w' : World}
    {r : Except Fault (List (Bytes × Option Error))}
    (hrun : (drainStderr size index (Process.children pid ps)).outcome w = (r, w')) :
    (∀ other, other < pid → w'.process? other = w.process? other) ∧
      ∀ j p, ps[j]? = some p → w'.process? (pid + j) = some (p.drained size .stderr) ∨
        (∃ f, r = .error f) ∧ w'.process? (pid + j) = some p := by
  -- The induction is on the processes. Those before are left alone by all later readers.
  induction ps generalizing w w' pid index r with
  | nil =>
    obtain ⟨-, rfl⟩ := Prod.mk.inj hrun
    exact ⟨fun _ _ => rfl, by simp⟩
  | cons p ps ih =>
    have hself : w.process? pid = some p := hknown 0 p rfl
    have hturns := turns_reading size hself .stderr ("stderr-" ++ toString index)
    rw [drainStderr_children_cons] at hrun
    rcases hfirst : (reading size pid p .stderr ("stderr-" ++ toString index)).outcome w with
      ⟨f | x, w₁⟩ <;> rw [hfirst] at hturns
    · rw [Action.outcome_bind_of_error hfirst] at hrun
      obtain ⟨rfl, rfl⟩ := Prod.mk.inj hrun
      refine ⟨fun other hlt => hturns.others other (Nat.ne_of_lt hlt), fun j q hget => ?_⟩
      cases j with
      | zero =>
        obtain rfl : p = q := by simpa using hget
        exact .inl hturns.self
      | succ j => exact .inr ⟨⟨f, rfl⟩, (hturns.others _ (by omega)).trans (hknown _ q hget)⟩
    · rw [Action.outcome_bind_of_ok hfirst, Action.outcome_bind_pure] at hrun
      rcases hrest : (drainStderr size (index + 1) (Process.children (pid + 1) ps)).outcome w₁ with
        ⟨s, w₂⟩
      obtain ⟨hothers, hlater⟩ := ih (hknown.tail hturns) (index + 1) hrest
      rw [hrest] at hrun
      obtain ⟨rfl, rfl⟩ := Prod.mk.inj hrun
      refine ⟨fun other hlt => ?_, fun j q hget => ?_⟩
      · exact (hothers other (by omega)).trans (hturns.others other (by omega))
      · cases j with
        | zero =>
          obtain rfl : p = q := by simpa using hget
          exact .inl ((hothers pid (Nat.lt_succ_self _)).trans hturns.self)
        | succ j =>
          have hknown' := hlater j q (by simpa using hget)
          rw [Nat.add_right_comm, Nat.add_assoc] at hknown'
          rcases hknown' with hall | ⟨⟨f, herror⟩, hunread⟩
          · exact .inl hall
          · exact .inr ⟨⟨f, by rw [herror]; rfl⟩, hunread⟩

theorem children_drained (size pid : Nat) (o : Output) (ps : List Process) :
    Process.children pid (ps.map (·.drained size o)) = Process.children pid ps := by
  have hchild (p : Process) : (p.drained size o).child = p.child := by
    unfold Process.drained Process.record
    split <;> cases o <;> rfl
  simp [Process.children, List.mapIdx_eq_zipIdx_map, List.zipIdx_map, hchild]

/-- When a handle is opened, all that is captured is read: only the last process may have an output
that is captured, and the error outputs have their readers in any case. An output is left unread
only if a fault was let out before. -/
theorem exists_read_of_open (size : Nat) (hknown : w.Knows pid ps)
    (hinner : ∀ j p, ps[j]? = some p → j + 1 < ps.length → p.stdout ≠ .captured) {captured : Bool}
    {argvs : List (List String)} {w' : World} {r : Except Fault Handle}
    (hrun : (Handle.open size captured argvs (Process.children pid ps)).outcome w = (r, w'))
    (j : Nat) (q : Process) (hget : ps[j]? = some q) :
    ∃ q', w'.process? (pid + j) = some q' ∧ ∀ o, q.wiring o = .captured →
      q'.events o = q.events o ++ ((q.stream o).drain size).events ∨
        (∃ f, r = .error f) ∧ q'.events o = q.events o := by
  rcases ps.eq_nil_or_concat with rfl | ⟨before, p, rfl⟩
  · simp at hget
  rw [List.concat_eq_append] at hknown hinner hrun hget
  have hown : w.process? (pid + before.length) = some p := hknown before.length p (by simp)
  have hturns := turns_reading size hown .stdout ("stdout-" ++ toString before.length)
  -- Only the last process has its output captured, so the first reader tells for all of them.
  have hread {w₁ : World} (hturns : w.Turns (pid + before.length) [] (p.drained size .stdout) w₁) :
      w₁.Knows pid ((before ++ [p]).map (·.drained size .stdout)) := by
    intro j q hget
    rw [List.getElem?_map] at hget
    obtain ⟨q, hhere, rfl⟩ := Option.map_eq_some_iff.1 hget
    by_cases hlt : j < before.length
    · rw [hturns.others _ (by omega), hknown j q hhere,
        Process.drained_of_ne (o := .stdout) (hinner j q hhere (by simp; omega))]
    · obtain rfl : j = before.length := by
        have hbound := (List.getElem?_eq_some_iff.1 hhere).1
        simp at hbound
        omega
      obtain rfl : p = q := by simpa using hhere
      exact hturns.self
  have hfirst (o : Output) (hcaptured : q.wiring o = .captured) :
      (q.drained size .stdout).events o = q.events o ++ ((q.stream o).drain size).events ∨
        (q.drained size .stdout).events o = q.events o := by
    rw [Process.events_drained]
    cases o <;> simp [hcaptured]
  rw [open_children_concat] at hrun
  rcases houtput : (reading size (pid + before.length) p .stdout
    ("stdout-" ++ toString before.length)).outcome w with ⟨f | x, w₁⟩ <;> rw [houtput] at hturns
  · rw [Action.outcome_bind_of_error houtput] at hrun
    obtain ⟨rfl, rfl⟩ := Prod.mk.inj hrun
    refine ⟨_, hread hturns j _ (by rw [List.getElem?_map, hget]; rfl), fun o hcaptured => ?_⟩
    exact (hfirst o hcaptured).imp_right fun hunread => ⟨⟨f, rfl⟩, hunread⟩
  · rw [Action.outcome_bind_of_ok houtput, Action.outcome_bind_pure] at hrun
    rcases hrest : (drainStderr size 0 (Process.children pid (before ++ [p]))).outcome w₁ with
      ⟨s, w₂⟩
    rw [hrest] at hrun
    obtain ⟨rfl, rfl⟩ := Prod.mk.inj hrun
    rw [← children_drained size pid .stdout] at hrest
    obtain ⟨-, hlater⟩ := knows_drainStderr size (hread hturns) 0 hrest
    rcases hlater j (q.drained size .stdout) (by rw [List.getElem?_map, hget]; rfl) with
      hall | ⟨⟨f, herror⟩, hpart⟩
    · refine ⟨_, hall, fun o hcaptured => .inl ?_⟩
      exact (q.events_drainedOutputs size o).trans (if_pos hcaptured)
    · refine ⟨_, hpart, fun o hcaptured => ?_⟩
      exact (hfirst o hcaptured).imp_right fun hunread => ⟨⟨f, by rw [herror]; rfl⟩, hunread⟩

end Handle

/-! ### Closes -/

namespace Link

open World (Closable)

/-- If no close fails that is made when a link is given up, then none is passed over. -/
theorem closable_of_given {l : Link} {w : World} (hfine : w.Closable (l.given w).length) :
    w.Closable l.held.length := by
  cases hwriter : l.writer with
  | none => rwa [given_of_writer_none hwriter] at hfine
  | some d =>
    have hnext : w.closeFault? = none := hfine 0 (by simp [given, hwriter])
    simpa [given, held, hwriter, hnext] using hfine

theorem closable_of_givenAll {links : List Link} {w : World}
    (hfine : w.Closable (givenAll w links).length) : w.Closable (links.flatMap held).length := by
  induction links generalizing w with
  | nil => exact hfine
  | cons link links ih =>
    have hrelease := link.releases_close w
    rw [givenAll, List.length_append, hrelease.closable_add] at hfine
    have hfirst := closable_of_given hfine.1
    rw [given_of_closable hfirst] at hrelease
    rw [List.flatMap_cons, List.length_append, hrelease.closable_add]
    exact ⟨hfirst, ih hfine.2⟩

end Link

theorem flatMap_dropped_map_close (ds : List Nat) :
    (ds.map Call.close).flatMap Call.dropped = ds := by
  simp [List.flatMap_map, Call.dropped]

namespace Launch

variable {l : Launch} {w : World}

/-- Every close of a start counts, and is on record. -/
theorem Moves.exists_closeCalls (hmoves : Moves { world := w } l) :
    ∃ calls, l.world.machine = w.machine ∧ l.world.calls = w.calls ++ calls ∧
      l.world.closeCalls = w.closeCalls + (calls.flatMap Call.dropped).length := by
  refine hmoves.induction (I := fun l => ∃ calls, l.world.machine = w.machine ∧
    l.world.calls = w.calls ++ calls ∧
    l.world.closeCalls = w.closeCalls + (calls.flatMap Call.dropped).length)
    ⟨[], rfl, by simp, rfl⟩ fun l l' ⟨calls, hmachine, hrecord, hcloses⟩ hmove => ?_
  -- What a move has on record tells how many closes it made.
  have hstep (cs : List Call) (hmachine' : l'.world.machine = l.world.machine)
      (hrecord' : l'.world.calls = l.world.calls ++ cs)
      (hcloses' : l'.world.closeCalls = l.world.closeCalls + (cs.flatMap Call.dropped).length) :
      ∃ calls, l'.world.machine = w.machine ∧ l'.world.calls = w.calls ++ calls ∧
        l'.world.closeCalls = w.closeCalls + (calls.flatMap Call.dropped).length := by
    refine ⟨calls ++ cs, hmachine'.trans hmachine, ?_, ?_⟩
    · rw [hrecord', hrecord, List.append_assoc]
    · rw [hcloses', hcloses, List.flatMap_append, List.length_append, Nat.add_assoc]
  have hrelease {ds : List Nat} (h : l.world.Releases ds l'.world) :
      ∃ calls, l'.world.machine = w.machine ∧ l'.world.calls = w.calls ++ calls ∧
        l'.world.closeCalls = w.closeCalls + (calls.flatMap Call.dropped).length := by
    refine hstep (ds.map .close) h.machine h.calls ?_
    rw [h.closeCalls, flatMap_dropped_map_close]
  cases hmove with
  | linked stage => exact hstep [.pipe _ _] rfl rfl rfl
  | unlinked => exact hstep [.pipeFailed] rfl rfl rfl
  | joined stage argv stdin stdout stderr conduct hshown =>
    exact hstep [.start argv stdin stdout stderr] rfl rfl rfl
  | refused argv stdin stdout stderr hshown =>
    exact hstep [.start argv stdin stdout stderr] rfl rfl rfl
  | dropReader n => exact hrelease (releases_dropReader l n)
  | dropWriter n => exact hrelease (releases_dropWriter l n)

/-- If no close fails that a start has on record in the end, then its links can be given up. -/
theorem releasable_stopped {capture : Capture} {argvs : List (List String)} {w w' : World}
    (hconfined : (stopped capture argvs w).released.Confined Call.isOnProcess w')
    (hcloses : w.Closable ((w'.calls.drop w.calls.length).flatMap Call.dropped).length) :
    (stopped capture argvs w).Releasable := by
  obtain ⟨calls, hmachine, hrecord, hcounted⟩ := (moves_stopped capture argvs w).exists_closeCalls
  obtain ⟨-, -, cs, hlater, honProcess⟩ := hconfined
  generalize stopped capture argvs w = l at *
  -- The calls after the links are given up close no descriptor.
  have hnone : cs.flatMap Call.dropped = [] := by
    refine List.flatMap_eq_nil_iff.2 fun c hmem => ?_
    have hon := honProcess c hmem
    cases c <;> first | rfl | exact absurd hon id
  have hall : (w'.calls.drop w.calls.length).flatMap Call.dropped =
      calls.flatMap Call.dropped ++ l.given := by
    rw [hlater, l.releases_given.calls, hrecord, List.append_assoc, List.append_assoc,
      List.drop_left, List.flatMap_append, List.flatMap_append, flatMap_dropped_map_close, hnone,
      List.append_nil]
  refine Link.closable_of_givenAll fun n hlt => ?_
  rw [hmachine, hcounted, Nat.add_assoc]
  refine hcloses _ ?_
  rw [hall, List.length_append]
  exact Nat.add_lt_add_left hlt _

end Launch

namespace Executor

open Launch (result stopped)

variable {e : Executor} {captured : Bool} {p : Pipeline} {w : World} {ps : List Process}

/-- A start that fails closes what is captured as it ends the processes, without reading it. -/
theorem exists_closedOutputs {failure : Failure} (hstages : p.argvs ≠ [])
    (hfailed : result (e.capture captured) p.argvs w = .error failure)
    (hcrewed : (stopped (e.capture captured) p.argvs w).Crewed w ps)
    (hreleasable : (stopped (e.capture captured) p.argvs w).Releasable)
    (hcleanup : ∀ g, ((e.spawn captured p).outcome w).1 = .error g → ∀ q ∈ ps, q.Reapable) :
    ((e.spawn captured p).outcome w).1 = .error failure ∧
      ∀ j q, ps[j]? = some q →
        (((e.spawn captured p).outcome w).2.process? (w.nextPid + j)).map Process.events =
          some q.closedOutputs.events := by
  obtain ⟨g, w₁, hundone⟩ := exists_outcome_abandon (α := List Child)
    (stopped (e.capture captured) p.argvs w) failure
  have hreapable :=
    hcleanup g (congrArg Prod.fst (outcome_spawn_of_abandon hstages hfailed hundone))
  obtain ⟨w', hundone', -, -, hevents⟩ :=
    hcrewed.exists_undone (α := List Child) hreleasable hreapable failure
  rw [outcome_spawn_of_abandon hstages hfailed hundone']
  exact ⟨rfl, hevents⟩

/-- A start that came to the end of its stages has read all that is captured, unless a reader let a
fault out. -/
theorem exists_read_of_stopped (hstages : p.argvs ≠ [])
    (hfine : result (e.capture captured) p.argvs w = .ok ())
    (hcrewed : (stopped (e.capture captured) p.argvs w).Crewed w ps)
    (hreleasable : (stopped (e.capture captured) p.argvs w).Releasable) :
    let outcome := (e.spawn captured p).outcome w
    ((∃ h, outcome.1 = .ok h) ∨
      ∃ f, outcome.1 = .error (.fault f) ∧ w.LetsOut outcome.2 e.chunkSize f) ∧
    ∀ j q, ps[j]? = some q → ∃ q', outcome.2.process? (w.nextPid + j) = some q' ∧
      ∀ o, q.wiring o = .captured →
        q'.events o = q.events o ++ ((q.stream o).drain e.chunkSize).events ∨
          (∃ failure, outcome.1 = .error failure) ∧ q'.events o = q.events o := by
  intro outcome
  have hlaunched :=
    e.launch_of_released captured hstages hfine (Launch.releaseFault?_eq_none_iff.2 hreleasable)
  obtain ⟨qs, hprocesses, -, hwired⟩ := Launch.exists_processes_of_stages
    (Prod.ext hfine rfl : (Launch.stages (e.capture captured) 0 p.argvs).outcome { world := w } =
      (.ok (), stopped (e.capture captured) p.argvs w))
  obtain rfl : qs = ps := List.append_cancel_left (hprocesses.symm.trans hcrewed.processes)
  rw [hcrewed.children] at hlaunched
  have hinner (j : Nat) (q : Process) (hhere : qs[j]? = some q) (hmore : j + 1 < qs.length) :
      q.stdout ≠ .captured := by
    obtain ⟨hlt, rfl⟩ := List.getElem?_eq_some_iff.1 hhere
    obtain ⟨d, hdescriptor⟩ := hwired.inner (qs.take j) qs[j] (qs.drop (j + 1))
      (by rw [List.getElem_cons_drop, List.take_append_drop]) (by simpa using hmore)
    simp [hdescriptor]
  refine ⟨(spawn_of_launch hlaunched).1, fun j q hget => ?_⟩
  rcases hopened : (Handle.open e.chunkSize captured p.argvs
    (Process.children w.nextPid qs)).outcome (stopped (e.capture captured) p.argvs w).released with
    ⟨r, w'⟩
  have hspawned : outcome = (r.mapError .fault, w') := by
    rw [show outcome = (e.spawn captured p).outcome w from rfl, spawn,
      Action.outcome_bind_of_ok hlaunched, Action.outcome_mapFailure, hopened]
  obtain ⟨q', hknown, hread⟩ := Handle.exists_read_of_open e.chunkSize
    (hcrewed.knows (Launch.releases_given _).processes) hinner hopened j q hget
  rw [hspawned]
  refine ⟨q', hknown, fun o hcaptured => ?_⟩
  rcases hread o hcaptured with hall | ⟨⟨f, hfailed⟩, hunread⟩
  · exact .inl hall
  · exact .inr ⟨⟨.fault f, by rw [hfailed]; rfl⟩, hunread⟩

/-- Let no close of a descriptor fail during a start, and let nothing stop the processes from being
ended if the start fails. Then, once the start is over, every captured stream of a process that it
started was closed once, and was not read after that. If the start failed, it was never read.
Otherwise it was read by its reader, which closes it whatever a read or the closing meets. It is
only where readers are no threads that a fault which one of them lets out keeps the others from
starting: each stream was then read and closed by its reader, or has had none. -/
theorem streams_released (e : Executor) (captured : Bool) (p : Pipeline) (w : World)
    (hcloses : w.Closable ((((e.spawn captured p).outcome w).2.calls.drop w.calls.length).flatMap
      Call.dropped).length)
    (hcleanup : ∀ failure, ((e.spawn captured p).outcome w).1 = .error failure →
      ∀ q ∈ (stopped (e.capture captured) p.argvs w).world.startedSince w, q.Reapable) :
    let outcome := (e.spawn captured p).outcome w
    ∀ j q, ((stopped (e.capture captured) p.argvs w).world.startedSince w)[j]? = some q →
      ∃ q', outcome.2.process? (w.nextPid + j) = some q' ∧
        ∀ o, q.wiring o = .captured →
          (∃ reads, q'.events o = reads ++ [.close] ∧ .close ∉ reads ∧
            (∀ failure, outcome.1 = .error failure → reads = []) ∧
            ∀ h, outcome.1 = .ok h → q'.events o = ((q.stream o).drain e.chunkSize).events) ∨
          ∃ f, outcome.1 = .error (.fault f) ∧ w.LetsOut outcome.2 e.chunkSize f ∧
            (q'.events o = ((q.stream o).drain e.chunkSize).events ∨ q'.events o = []) := by
  intro outcome j q hget
  by_cases hstages : p.argvs = []
  · have hnone : (stopped (e.capture captured) p.argvs w).world.startedSince w = [] := by
      rw [hstages]
      exact List.drop_length
    simp [hnone] at hget
  have hreleasable := Launch.releasable_stopped (e.confined_spawn captured w p) hcloses
  have hcrewed : (stopped (e.capture captured) p.argvs w).Crewed w
      ((stopped (e.capture captured) p.argvs w).world.startedSince w) :=
    Launch.crewed_stopped (e.capture captured) p.argvs w
  have huntouched := hcrewed.untouched q (List.mem_of_getElem? hget)
  -- If the start failed, the cleanup closed the streams; else they are read, until one lets a
  -- fault out.
  cases hfine : result (e.capture captured) p.argvs w with
  | error failure =>
    obtain ⟨hanswer, hclosed⟩ := exists_closedOutputs hstages hfine hcrewed hreleasable hcleanup
    obtain ⟨q', hknown, hevents⟩ := Option.map_eq_some_iff.1 (hclosed j q hget)
    refine ⟨q', hknown, fun o hwired =>
      .inl ⟨[], ?_, List.not_mem_nil, fun _ _ => rfl, fun h hok => ?_⟩⟩
    · rw [hevents, Process.events_closedOutputs, if_pos hwired, huntouched]
    · cases hanswer.symm.trans hok
  | ok _ =>
    obtain ⟨hanswer, hall⟩ := exists_read_of_stopped hstages hfine hcrewed hreleasable
    obtain ⟨q', hknown, hread⟩ := hall j q hget
    refine ⟨q', hknown, fun o hwired => ?_⟩
    have hread := hread o hwired
    rw [huntouched, List.nil_append] at hread
    rcases hanswer with ⟨h, hanswer⟩ | ⟨f, hanswer, hescaped⟩
    · obtain ⟨reads, hreleased, hunclosed⟩ := Stream.exists_released_drain e.chunkSize (q.stream o)
      have hevents : q'.events o = ((q.stream o).drain e.chunkSize).events := by
        refine hread.resolve_right ?_
        rintro ⟨⟨failure, hfailed⟩, -⟩
        cases hanswer.symm.trans hfailed
      refine .inl ⟨reads, hevents.trans hreleased, hunclosed, fun failure hfailed => ?_,
        fun _ _ => hevents⟩
      cases hanswer.symm.trans hfailed
    · exact .inr ⟨f, hanswer, hescaped, hread.imp_right And.right⟩

/-- A stage whose error output cannot be read to its end for want of memory, with a second one that
starts or is refused. In the one run the reader meets the fault and closes the stream, in the other
there is no reader. -/
theorem streams_released_unreadable :
    let p : Pipeline := ⟨[⟨"a", []⟩, ⟨"b", []⟩]⟩
    let first : Behaviour := { stderr := { chunks := [[1]], failure := some ⟨.noMemory, "lost"⟩ } }
    let w (second : Behaviour) : World :=
      { machine := { Machine.ofScript { processes := [first, second] } with threaded := true } }
    let after (second : Behaviour) := (({} : Executor).spawn true p).outcome (w second)
    (∃ q' reads, (after {}).2.process? 1000 = some q' ∧ q'.events .stderr = reads ++ [.close] ∧
      .close ∉ reads) ∧
    ∃ q', (after { refusal := some ⟨.notFound, "b"⟩ }).2.process? 1000 = some q' ∧
      q'.events .stderr = [.close] := by
  intro p first w after
  constructor
  · obtain ⟨q', hknown, hreleased⟩ := streams_released {} true p (w {}) (fun _ _ => rfl)
      (fun _ _ => by decide) 0 _ rfl
    rcases hreleased .stderr rfl with ⟨reads, hevents, hunclosed, -⟩ | ⟨f, -, hescaped, -⟩
    · exact ⟨q', reads, hknown, hevents, hunclosed⟩
    · cases hescaped.threadless
  · obtain ⟨q', hknown, hreleased⟩ := streams_released {} true p
      (w { refusal := some ⟨.notFound, "b"⟩ }) (fun _ _ => rfl) (fun _ _ => by decide) 0 _ rfl
    rcases hreleased .stderr rfl with ⟨reads, hevents, -, hunread, -⟩ | ⟨f, -, hescaped, -⟩
    · have hfailed : (after { refusal := some ⟨.notFound, "b"⟩ }).1 =
          .error (.error (.spawn 1 (some "b") ⟨.notFound, "b"⟩)) := by decide +kernel
      rw [hunread _ hfailed] at hevents
      exact ⟨q', hknown, hevents⟩
    · cases hescaped.threadless

end Executor

end Pipework
