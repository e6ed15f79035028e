import Mathlib.Data.List.Basic
import Pipework.Proofs.Host.Respect
import Pipework.Proofs.Run.Concern

/-!
# Revisions of the past

What has happened to a pipeline in a world may be rewritten: another record up to some moment, and
its processes as they are after other waits. Whoever does not deal with these processes cannot
tell. Other starts find the same descriptors, the same numbers and the same bytes on their inputs,
other handles find their own processes, and what they do is put on record all the same.

## Main definitions

* `Process.face` — what other processes meet of a process
* `World.Revision` — another past of some processes, with another record
* `World.Revision.Meets`, `World.Revision.revise` — a world with the past that is revised, and the
  world with the other one
* `World.Revision.Covers` — the number of a process whose past is revised

## Main results

* `World.Revision.process?_revise` — the processes after a revision
* `World.Revision.respects_start`, `World.Revision.respects_wait` and the like — calls on other
  processes respect a revision
-/

namespace Pipework

/-- What other processes meet of a process: where it writes, and what. -/
def Process.face (p : Process) : Wiring × Bytes := (p.stdout, p.conduct.piped)

namespace World

/-- Another past for the processes with numbers from the given one on: so many calls and notes are
replaced by others, and the processes by others with the same faces. -/
structure Revision where
  callCount : Nat
  calls : List Call
  noteCount : Nat
  notes : List Note
  pid : Nat
  olds : List Process
  news : List Process
  faces : news.map Process.face = olds.map Process.face

namespace Revision

variable {r : Revision} {w : World} {n : Nat} {p : Process}

/-- The number is that of a process whose past is revised. -/
def Covers (r : Revision) (n : Nat) : Prop := r.pid ≤ n ∧ n < r.pid + r.olds.length

/-- The world has the past that is revised. -/
structure Meets (r : Revision) (w : World) : Prop where
  calls : r.callCount ≤ w.calls.length
  notes : r.noteCount ≤ w.notes.length
  knows : w.Knows r.pid r.olds

/-- The process with that number, as it is after the revision. -/
def turn (r : Revision) (n : Nat) (p : Process) : Process :=
  if r.pid ≤ n then (r.news[n - r.pid]?).getD p else p

/-- The world with the other past. -/
def revise (r : Revision) (w : World) : World :=
  { w with
    calls := r.calls ++ w.calls.drop r.callCount
    notes := r.notes ++ w.notes.drop r.noteCount
    processes := w.processes.mapIdx fun i p => r.turn (firstPid + i) p }

theorem length_news (r : Revision) : r.news.length = r.olds.length := by
  have hlengths := congrArg List.length r.faces
  rwa [List.length_map, List.length_map] at hlengths

/-- The other processes are as they were. -/
theorem turn_of_not_covers (hother : ¬ r.Covers n) (p : Process) : r.turn n p = p := by
  unfold turn
  split
  · next hle =>
    have hnone : r.news[n - r.pid]? = none := by
      rw [List.getElem?_eq_none_iff, length_news]
      by_contra hlt
      exact hother ⟨hle, by omega⟩
    rw [hnone, Option.getD_none]
  · rfl

/-- A process whose past is revised turns into the one in its place. -/
theorem turn_of_getElem? {q : Process} (habove : r.pid ≤ n) (hnew : r.news[n - r.pid]? = some q)
    (p : Process) : r.turn n p = q := by
  rw [turn, if_pos habove, hnew, Option.getD_some]

@[simp] theorem length_processes_revise (r : Revision) (w : World) :
    (r.revise w).processes.length = w.processes.length := by
  rw [revise, List.length_mapIdx]

@[simp] theorem nextPid_revise (r : Revision) (w : World) : (r.revise w).nextPid = w.nextPid := by
  rw [nextPid, nextPid, length_processes_revise]

theorem process?_revise (r : Revision) (w : World) (n : Nat) :
    (r.revise w).process? n = (w.process? n).map (r.turn n) := by
  unfold process?
  split
  · rfl
  · next hge =>
    have hplace : firstPid + (n - firstPid) = n := by omega
    rw [revise, List.getElem?_mapIdx, hplace]

theorem process?_revise_of_not_covers (hother : ¬ r.Covers n) (w : World) :
    (r.revise w).process? n = w.process? n := by
  rw [process?_revise, funext (turn_of_not_covers hother), Option.map_id']

namespace Meets

theorem face_turn (hmeets : r.Meets w) (hknown : w.process? n = some p) :
    (r.turn n p).face = p.face := by
  unfold turn
  split
  · next hle =>
    cases hnew : r.news[n - r.pid]? with
    | none => rw [Option.getD_none]
    | some q =>
      -- The old process of that number is the one in the world.
      have hface : (r.olds.map Process.face)[n - r.pid]? = some q.face := by
        rw [← r.faces, List.getElem?_map, hnew, Option.map_some]
      obtain ⟨old, hget, hsame⟩ := Option.map_eq_some_iff.1 (List.getElem?_map .. ▸ hface)
      have hhere := hmeets.knows _ old hget
      rw [Nat.add_sub_cancel' hle, hknown] at hhere
      rw [Option.getD_some, Option.some.inj hhere, hsame]
  · rfl

/-- No number of a process to come is covered. -/
theorem not_covers_of_le (hmeets : r.Meets w) (hle : w.nextPid ≤ n) : ¬ r.Covers n := by
  rintro ⟨habove, hbelow⟩
  have hget := List.getElem?_eq_getElem (l := r.olds) (i := n - r.pid) (by omega)
  have hknown := hmeets.knows _ _ hget
  rw [Nat.add_sub_cancel' habove] at hknown
  unfold process? at hknown
  split at hknown
  · cases hknown
  · have hlt := (List.getElem?_eq_some_iff.1 hknown).1
    rw [nextPid] at hle
    omega

theorem faces_revise (hmeets : r.Meets w) :
    (r.revise w).processes.map Process.face = w.processes.map Process.face := by
  refine List.ext_getElem? fun i => ?_
  rw [List.getElem?_map, List.getElem?_map, revise, List.getElem?_mapIdx]
  cases hget : w.processes[i]? with
  | none => rfl
  | some p =>
    have hknown : w.process? (firstPid + i) = some p := by
      rw [process?, if_neg (by omega), Nat.add_sub_cancel_left, hget]
    exact congrArg some (hmeets.face_turn hknown)

end Meets

/-- What is found on an input depends on the faces of the processes only. -/
theorem inputOf_congr {v w : World} (hmachine : v.machine = w.machine) (hpipes : v.pipes = w.pipes)
    (hfaces : v.processes.map Process.face = w.processes.map Process.face) (wiring : Wiring) :
    v.inputOf wiring = w.inputOf wiring := by
  have hfound (u : World) (d : Nat) :
      (u.processes.find? (·.stdout == .descriptor d)).map (·.conduct.piped) =
        ((u.processes.map Process.face).find? (·.1 == .descriptor d)).map (·.2) := by
    rw [List.find?_map, Option.map_map]
    rfl
  cases wiring with
  | inherited => rfl
  | captured => rfl
  | descriptor reader =>
    have hwriter : v.writerOf? reader = w.writerOf? reader := by
      rw [writerOf?, writerOf?, hmachine, hpipes]
    rw [inputOf, inputOf, hwriter]
    cases w.writerOf? reader with
    | none => rfl
    | some d =>
      have hsame := hfound v d
      rw [hfaces, ← hfound w d] at hsame
      dsimp only [Option.bind_some]
      cases hget : w.processes.find? (·.stdout == .descriptor d) with
      | none =>
        rw [hget, Option.map_none, Option.map_eq_none_iff] at hsame
        rw [hsame]
      | some p =>
        rw [hget, Option.map_some] at hsame
        obtain ⟨q, hget', hpiped⟩ := Option.map_eq_some_iff.1 hsame
        rw [hget']
        exact hpiped

/-! ### What goes on record, and what is changed -/

theorem Meets.log (hmeets : r.Meets w) (c : Call) : r.Meets (w.log c) where
  calls := by
    rw [calls_log, List.length_append]
    exact Nat.le_add_right_of_le hmeets.calls
  notes := hmeets.notes
  knows := hmeets.knows

theorem revise_log (hmeets : r.Meets w) (c : Call) : r.revise (w.log c) = (r.revise w).log c := by
  have hrecord : r.calls ++ (w.calls ++ [c]).drop r.callCount =
      r.calls ++ w.calls.drop r.callCount ++ [c] := by
    rw [List.drop_append_of_le_length hmeets.calls, List.append_assoc]
  exact congrArg (fun calls => { r.revise w with calls }) hrecord

theorem Meets.takeNote (hmeets : r.Meets w) (n : Note) : r.Meets (w.takeNote n) where
  calls := hmeets.calls
  notes := by
    rw [notes_takeNote, List.length_append]
    exact Nat.le_add_right_of_le hmeets.notes
  knows := hmeets.knows

theorem revise_takeNote (hmeets : r.Meets w) (n : Note) :
    r.revise (w.takeNote n) = (r.revise w).takeNote n := by
  have hrecord : r.notes ++ (w.notes ++ [n]).drop r.noteCount =
      r.notes ++ w.notes.drop r.noteCount ++ [n] := by
    rw [List.drop_append_of_le_length hmeets.notes, List.append_assoc]
  exact congrArg (fun notes => { r.revise w with notes }) hrecord

theorem Meets.change (hmeets : r.Meets w) (hknown : w.process? n = some p) (hother : ¬ r.Covers n)
    (f : Process → Process) : r.Meets (w.change n f) where
  calls := by
    rw [calls_change]
    exact hmeets.calls
  notes := by
    unfold World.change
    exact hmeets.notes
  knows := by
    intro j q hget
    have hlt := (List.getElem?_eq_some_iff.1 hget).1
    rw [process?_change_of_ne hknown fun hsame => hother ⟨by omega, by omega⟩]
    exact hmeets.knows j q hget

theorem revise_change (hknown : w.process? n = some p) (hother : ¬ r.Covers n)
    (f : Process → Process) : r.revise (w.change n f) = (r.revise w).change n f := by
  have hle := firstPid_le_of_process? hknown
  have hprocesses : (w.processes.modify (n - firstPid) f).mapIdx
    (fun i p => r.turn (firstPid + i) p) =
      (w.processes.mapIdx fun i p => r.turn (firstPid + i) p).modify (n - firstPid) f := by
    -- The change is at one place, where nothing is turned.
    refine List.ext_getElem? fun i => ?_
    rw [List.getElem?_mapIdx, List.getElem?_modify, List.getElem?_modify, List.getElem?_mapIdx]
    cases w.processes[i]? with
    | none => simp
    | some q =>
      by_cases hhere : n - firstPid = i
      · have hsame : firstPid + i = n := by omega
        simp [hhere, hsame, turn_of_not_covers hother]
      · simp [hhere]
  unfold revise World.change
  dsimp only
  rw [hprocesses]

/-! ### Calls -/

/-- Taking a note respects a revision. -/
theorem respects_note (n : Note) : Respects r.Meets r.revise (fun _ => True) (World.note n) :=
  .modify (fun _ hmeets => hmeets.takeNote n) fun _ hmeets => (revise_takeNote hmeets n).symm

theorem Meets.piped (hmeets : r.Meets w) : r.Meets w.piped :=
  Meets.log (w := { w with pipeCalls := w.pipeCalls + 1, pipes := w.pipes + 1 })
    ⟨hmeets.calls, hmeets.notes, hmeets.knows⟩ _

theorem revise_piped (hmeets : r.Meets w) : r.revise w.piped = (r.revise w).piped :=
  revise_log (w := { w with pipeCalls := w.pipeCalls + 1, pipes := w.pipes + 1 })
    ⟨hmeets.calls, hmeets.notes, hmeets.knows⟩ _

theorem Meets.unpiped (hmeets : r.Meets w) : r.Meets w.unpiped :=
  Meets.log (w := { w with pipeCalls := w.pipeCalls + 1 })
    ⟨hmeets.calls, hmeets.notes, hmeets.knows⟩ _

theorem revise_unpiped (hmeets : r.Meets w) : r.revise w.unpiped = (r.revise w).unpiped :=
  revise_log (w := { w with pipeCalls := w.pipeCalls + 1 })
    ⟨hmeets.calls, hmeets.notes, hmeets.knows⟩ _

theorem Meets.closed (hmeets : r.Meets w) (descriptor : Nat) : r.Meets (w.closed descriptor) :=
  Meets.log (w := { w with closeCalls := w.closeCalls + 1 })
    ⟨hmeets.calls, hmeets.notes, hmeets.knows⟩ _

theorem revise_closed (hmeets : r.Meets w) (descriptor : Nat) :
    r.revise (w.closed descriptor) = (r.revise w).closed descriptor :=
  revise_log (w := { w with closeCalls := w.closeCalls + 1 })
    ⟨hmeets.calls, hmeets.notes, hmeets.knows⟩ _

theorem Meets.unstarted (hmeets : r.Meets w) (argv : List String) (stdin stdout stderr : Wiring) :
    r.Meets (w.unstarted argv stdin stdout stderr) :=
  Meets.log (w := { w with startCalls := w.startCalls + 1 })
    ⟨hmeets.calls, hmeets.notes, hmeets.knows⟩ _

theorem revise_unstarted (hmeets : r.Meets w) (argv : List String) (stdin stdout stderr : Wiring) :
    r.revise (w.unstarted argv stdin stdout stderr) =
      (r.revise w).unstarted argv stdin stdout stderr :=
  revise_log (w := { w with startCalls := w.startCalls + 1 })
    ⟨hmeets.calls, hmeets.notes, hmeets.knows⟩ _

/-- Making a pipe respects a revision. -/
theorem respects_pipe : Action.Respects r.Meets r.revise (fun _ => True) World.pipe := by
  refine .of_outcome fun w hmeets => ?_
  cases hpipe : w.machine.pipeFailure w.pipeCalls with
  | some f =>
    refine ⟨_, _, outcome_pipe_of_some hpipe, hmeets.unpiped, trivial, ?_⟩
    rw [outcome_pipe_of_some (w := r.revise w) hpipe, revise_unpiped hmeets]
  | none =>
    refine ⟨_, _, outcome_pipe_of_none hpipe, hmeets.piped, trivial, ?_⟩
    rw [outcome_pipe_of_none (w := r.revise w) hpipe, revise_piped hmeets]
    rfl

/-- Closing a descriptor respects a revision. -/
theorem respects_close (descriptor : Nat) :
    Action.Respects r.Meets r.revise (fun _ => True) (World.close descriptor) := by
  refine .of_outcome fun w hmeets => ?_
  cases hclose : w.machine.closeFailure w.closeCalls with
  | some f =>
    refine ⟨_, _, outcome_close_of_some hclose descriptor, hmeets.closed descriptor, trivial, ?_⟩
    rw [outcome_close_of_some (w := r.revise w) hclose, revise_closed hmeets]
  | none =>
    refine ⟨_, _, outcome_close_of_none hclose descriptor, hmeets.closed descriptor, trivial, ?_⟩
    rw [outcome_close_of_none (w := r.revise w) hclose, revise_closed hmeets]

theorem Meets.started (hmeets : r.Meets w) (argv : List String) (stdin stdout stderr : Wiring)
    (conduct : Bytes → Conduct) : r.Meets (w.started argv stdin stdout stderr conduct) where
  calls := (hmeets.unstarted argv stdin stdout stderr).calls
  notes := hmeets.notes
  knows := by
    intro j q hget
    have hknown := hmeets.knows j q hget
    unfold process? at hknown ⊢
    split at hknown
    · cases hknown
    · next hge =>
      have hlt := (List.getElem?_eq_some_iff.1 hknown).1
      rw [if_neg hge, World.started, List.getElem?_append_left hlt, hknown]

theorem revise_started (hmeets : r.Meets w) (argv : List String) (stdin stdout stderr : Wiring)
    (conduct : Bytes → Conduct) :
    r.revise (w.started argv stdin stdout stderr conduct) =
      (r.revise w).started argv stdin stdout stderr conduct := by
  have hmachine : (r.revise w).machine = w.machine := rfl
  have hpipes : (r.revise w).pipes = w.pipes := rfl
  have hinput := inputOf_congr hmachine hpipes hmeets.faces_revise stdin
  -- The new process has a number that is not covered.
  have hfresh (p : Process) : r.turn (firstPid + w.processes.length) p = p :=
    turn_of_not_covers (hmeets.not_covers_of_le (Nat.le_refl w.nextPid)) p
  have hprocesses (p : Process) :
      (w.processes ++ [p]).mapIdx (fun i p => r.turn (firstPid + i) p) =
        (w.processes.mapIdx fun i p => r.turn (firstPid + i) p) ++ [p] := by
    rw [List.mapIdx_concat, hfresh]
  rw [World.started, World.started, hinput, ← revise_unstarted hmeets]
  exact congrArg (fun processes =>
    { r.revise (w.unstarted argv stdin stdout stderr) with processes }) (hprocesses _)

/-- Starting a process respects a revision, and its number is not covered. -/
theorem respects_start (argv : List String) (stdin stdout stderr : Wiring) :
    Action.Respects r.Meets r.revise (fun pid => ¬ r.Covers pid)
      (World.start argv stdin stdout stderr) := by
  refine .of_outcome fun w hmeets => ?_
  cases hstart : w.machine.start w.startCalls argv with
  | error f =>
    refine ⟨_, _, outcome_start_of_error hstart .., hmeets.unstarted .., trivial, ?_⟩
    rw [outcome_start_of_error (w := r.revise w) hstart, revise_unstarted hmeets]
  | ok conduct =>
    refine ⟨_, _, outcome_start_of_ok hstart .., hmeets.started ..,
      hmeets.not_covers_of_le (Nat.le_refl _), ?_⟩
    rw [outcome_start_of_ok (w := r.revise w) hstart, revise_started hmeets, nextPid_revise]

/-- What is done to one process that is not covered respects a revision. -/
theorem respects_of_concerns {β : Type} {P : β → Prop} {a : StateM World β} {calls : List Call}
    {absent : β} {answer : Process → β} {next : Process → Process → Process}
    (hconcerns : Concerns n calls absent answer next a) (hother : ¬ r.Covers n) (hholds : P absent)
    (heach : ∀ p, P (answer p)) : Respects r.Meets r.revise P a := by
  -- The calls go on record first, in the revised world as in the other.
  have hbooked (w : World) (hmeets : r.Meets w) : r.Meets (calls.foldl World.log w) ∧
      r.revise (calls.foldl World.log w) = calls.foldl World.log (r.revise w) ∧
      (calls.foldl World.log w).process? n = w.process? n := by
    clear hconcerns
    induction calls generalizing w with
    | nil => exact ⟨hmeets, rfl, rfl⟩
    | cons c calls ih =>
      obtain ⟨hmeets', hrevised, hsame⟩ := ih (w.log c) (hmeets.log c)
      exact ⟨hmeets', hrevised.trans (revise_log hmeets c ▸ rfl), hsame⟩
  refine .of_run fun w hmeets => ?_
  obtain ⟨hmeets', hrevised, hsame⟩ := hbooked w hmeets
  rw [hconcerns, hconcerns, process?_revise_of_not_covers hother]
  cases hknown : w.process? n with
  | none => exact ⟨_, _, rfl, hmeets', hholds, congrArg (Prod.mk _) hrevised.symm⟩
  | some p =>
    rw [hknown] at hsame
    refine ⟨_, _, rfl, hmeets'.change hsame hother _, heach p, ?_⟩
    rw [revise_change hsame hother, hrevised]

/-- Waiting for a process that is not covered respects a revision. -/
theorem respects_wait (hother : ¬ r.Covers n) :
    Action.Respects r.Meets r.revise (fun _ => True) (World.wait n) :=
  respects_of_concerns (concerns_wait n) hother trivial fun _ => .of_forall (fun _ => trivial) _

/-- Polling a process that is not covered respects a revision. -/
theorem respects_poll (hother : ¬ r.Covers n) :
    Action.Respects r.Meets r.revise (fun _ => True) (World.poll n) :=
  respects_of_concerns (concerns_poll n) hother trivial fun _ => trivial

/-- Killing a process that is not covered respects a revision. -/
theorem respects_kill (hother : ¬ r.Covers n) :
    Action.Respects r.Meets r.revise (fun _ => True) (World.kill n) :=
  respects_of_concerns (concerns_kill n) hother trivial fun _ => .of_forall (fun _ => trivial) _

/-- Closing an output of a process that is not covered respects a revision. -/
theorem respects_closeOutput (hother : ¬ r.Covers n) (o : Output) :
    Action.Respects r.Meets r.revise (fun _ => True) (World.closeOutput n o) :=
  respects_of_concerns (concerns_closeOutput n o) hother trivial fun _ =>
    .of_forall (fun _ => trivial) _

/-- Reading an output of a process that is not covered respects a revision. -/
theorem respects_drainOutput (hother : ¬ r.Covers n) (size : Nat) (o : Output) :
    Respects r.Meets r.revise (fun _ => True) (World.drainOutput size n o) :=
  respects_of_concerns (concerns_drainOutput n size o) hother trivial fun _ => trivial

end Revision

end World

end Pipework
