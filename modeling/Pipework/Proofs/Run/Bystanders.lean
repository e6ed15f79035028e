import Pipework.Proofs.Run.Revision
import Pipework.Proofs.Run.SideBySide

/-!
# What does not deal with a pipeline

A revision of the past of some processes is nothing to whoever deals with other processes: links
are made and closed as before, other pipelines are started, read and ended as before, and other
handles come to the same results. What is started meanwhile has numbers of its own.

## Main definitions

* `World.Revision.accord` — runs before and after a revision go side by side
* `Handle.Spares` — a handle of other processes

## Main results

* `Link.respects_make`, `Link.respects_close` — links
* `Handle.Spares.respects_wait` — other handles
* `Executor.respects_spawn`, `Executor.respects_run` — other pipelines
-/

namespace Pipework

open World (Revision)

variable {r : Revision}

/-! ### Two runs, one of them after the revision -/

theorem respects_closeCaptured (captured : Bool) {pid : Nat} (hother : ¬ r.Covers pid)
    (o : Output) :
    Action.Respects r.Meets r.revise (fun _ => True) (closeCaptured captured pid o) := by
  unfold closeCaptured
  split
  · exact Revision.respects_closeOutput hother o
  · exact .pure trivial

theorem Handle.respects_drain (size : Nat) {child : Child} (hother : ¬ r.Covers child.pid)
    (o : Output) (label : String) :
    Action.Respects r.Meets r.revise (fun _ => True) (drain size child o label) := by
  apply (Action.Respects.lift (Revision.respects_drainOutput hother size o)).bind
  intro drained _
  split
  · exact .pure trivial
  · split
    · exact (Action.Respects.lift (Revision.respects_note _)).bind fun _ _ => .pure trivial
    · -- Of the world only the machine counts, and no revision changes that.
      refine .get_bind (fun w _ => ?_) fun _ _ => rfl
      split
      · exact .pure trivial
      · exact .throw _

/-- Runs that deal with other processes go side by side before and after a revision. They are the
same in everything but the world. -/
def World.Revision.accord (r : Revision) : Accord where
  toLikeness := .exact
  worlds := Shifted r.Meets r.revise
  numbers n := ¬ r.Covers n
  sizes := Eq
  note n := (respects_note n).shifted.mono fun _ _ hgiven => hgiven.1
  pipe := respects_pipe.shifted_eq
  close d := (respects_close d).shifted_eq
  start argv stdin _ _ _ _ hout herr := by
    cases hout
    cases herr
    exact (respects_start ..).shifted
  poll hother := (respects_poll hother).shifted_eq
  kill hother := (respects_kill hother).shifted_eq
  wait hother := (respects_wait hother).shifted_eq
  closeCaptured hother o _ _ hsame := by
    cases hsame
    exact (respects_closeCaptured _ hother o).shifted_eq
  drain {child child'} hsame hother o label b b' hknown size size' hread := by
    cases hknown
    cases hread
    -- Of a child only its number counts.
    have hagain : Handle.drain size child' o label = Handle.drain size child o label := by
      unfold Handle.drain
      rw [hsame]
    rw [hagain]
    cases b with
    | true => exact (Handle.respects_drain size hother o label).shifted.mono fun _ _ hgiven =>
        ⟨congrArg Prod.fst hgiven.1, congrArg Prod.snd hgiven.1⟩
    | false => exact .pure ⟨rfl, rfl⟩

/-! ### Links -/

namespace Link

theorem respects_make (index : Int) :
    Action.Respects r.Meets r.revise (fun _ => True) (make index) :=
  .of_shifted (Footing.matches_make (A := r.accord.toFooting) index) fun _ _ hsame =>
    ⟨hsame, trivial⟩

theorem respects_closeReader (l : Link) :
    Action.Respects r.Meets r.revise (fun _ => True) l.closeReader :=
  .of_shifted (Footing.matches_closeReader (A := r.accord.toFooting) l) fun _ _ hsame =>
    ⟨hsame, trivial⟩

theorem respects_closeWriter (l : Link) :
    Action.Respects r.Meets r.revise (fun _ => True) l.closeWriter :=
  .of_shifted (Footing.matches_closeWriter (A := r.accord.toFooting) l) fun _ _ hsame =>
    ⟨hsame, trivial⟩

theorem respects_close (l : Link) : Respects r.Meets r.revise (fun _ => True) l.close :=
  .of_shifted (Footing.matches_close (A := r.accord.toFooting) l) fun _ _ hsame => ⟨hsame, trivial⟩

end Link

/-! ### Handles -/

namespace Handle

/-- None of the processes of the handle is covered. -/
def Spares (r : Revision) (h : Handle) : Prop := ∀ child ∈ h.children, ¬ r.Covers child.pid

/-- Handles that correspond before and after a revision are the same, and of other processes. -/
theorem eq_of_accord {h h' : Handle} (hboth : r.accord.Handles h h') : h = h' ∧ h.Spares r := by
  obtain ⟨hchildren, hargvs, hcaptured, hstdout, hstageStderr, hcaptureErrors, hresult⟩ := hboth
  have hresult' : h.result = h'.result := by
    generalize h.result = kept at hresult
    generalize h'.result = kept' at hresult
    cases hresult with
    | some hsame => rw [hsame.eq fun _ _ hread => hread]
    | none => rfl
  -- The children have the same numbers, and none of these is covered.
  have hpairs : List.Forall₂ (fun c c' : Child => ¬ r.Covers c.pid ∧ c = c') h.children
      h'.children := by
    refine hchildren.imp fun c c' hpair => ⟨hpair.number, ?_⟩
    obtain ⟨hpid, -, hout, herr⟩ := hpair
    cases c
    congr
  obtain ⟨hothers, hsame⟩ := (List.forall₂_and_left ..).1 hpairs
  have hchildren' : h.children = h'.children := List.forall₂_eq_eq_eq ▸ hsame
  have hstageStderr' : h.stageStderr = h'.stageStderr := List.forall₂_eq_eq_eq ▸ hstageStderr
  refine ⟨?_, hothers⟩
  cases h
  congr

section Waiting

variable {good : World → Prop} {change : World → World}

/-- A pass respects what its notes and its waits respect. -/
theorem respects_awaitAll (hnote : ∀ n, Respects good change (fun _ => True) (World.note n))
    (index : Nat) {children : List Child}
    (hwaits : ∀ child ∈ children,
      Action.Respects good change (fun _ => True) (World.wait child.pid)) :
    Action.Respects good change (fun _ => True) (awaitAll index children) := by
  induction children generalizing index with
  | nil => exact .pure trivial
  | cons child children ih =>
    have hlater := ih (index + 1) fun child hmem => hwaits child (List.mem_cons_of_mem _ hmem)
    apply (hwaits child List.mem_cons_self).attempt.bind
    intro result _
    cases result with
    | ok code =>
      exact (Action.Respects.lift (hnote _)).bind fun _ _ => hlater.bind fun _ _ => .pure trivial
    | error f =>
      dsimp only
      split
      · exact (Action.Respects.lift (hnote _)).bind fun _ _ => hlater.bind fun _ _ => .pure trivial
      · exact .throw _

/-- Waiting for a handle respects what the notes and the waits respect, and leaves it the handle of
the same children. -/
theorem respects_wait (hnote : ∀ n, Respects good change (fun _ => True) (World.note n))
    {h : Handle} (hwaits : ∀ child ∈ h.children,
      Action.Respects good change (fun _ => True) (World.wait child.pid)) :
    Respects good change (fun answer => answer.2.children = h.children) h.wait := by
  have hcollect : Action.Respects good change (fun _ => True) h.collect := by
    refine ((respects_awaitAll hnote 0 hwaits).mapFailure Failure.fault).bind
      fun (_, waitError) _ => ?_
    dsimp only
    split
    · exact .throw _
    · exact .pure trivial
  unfold wait
  split
  · exact .pure rfl
  · refine Respects.bind hcollect fun result _ => ?_
    split <;> exact .pure rfl

end Waiting

/-- Waiting for other processes respects a revision. -/
theorem Spares.respects_wait {h : Handle} (hothers : h.Spares r) :
    Respects r.Meets r.revise (fun answer => answer.2.Spares r) h.wait := by
  have hwaits := Handle.respects_wait (h := h) Revision.respects_note fun child hmem =>
    Revision.respects_wait (hothers child hmem)
  refine hwaits.mono fun answer hsame child hmem => hothers child ?_
  rwa [← hsame]

end Handle

/-! ### Other pipelines -/

/-- Starting another pipeline respects a revision. -/
theorem Executor.respects_spawn (e : Executor) (captured : Bool) (p : Pipeline) :
    Action.Respects r.Meets r.revise (Handle.Spares r) (e.spawn captured p) :=
  .of_shifted (Accord.matches_spawn (A := r.accord) ⟨rfl, rfl⟩ rfl p) fun _ _ hboth =>
    Handle.eq_of_accord hboth

/-- Running another pipeline to its end respects a revision. -/
theorem Executor.respects_run (e : Executor) (captured : Bool) (p : Pipeline) :
    Action.Respects r.Meets r.revise (fun _ => True) (e.run captured p) :=
  .of_shifted (Accord.matches_run (A := r.accord) ⟨rfl, rfl⟩ rfl p) fun _ _ hsame =>
    ⟨hsame.eq fun _ _ hread => hread, trivial⟩

end Pipework
