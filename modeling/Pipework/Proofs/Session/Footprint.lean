import Pipework.Proofs.Run.Bystanders
import Pipework.Proofs.Session.History

/-!
# What asking a handle leaves behind

Whatever a handle is asked, what it replies and what it does is told from its processes alone, and
all that it leaves behind are waits that were used up and a longer record. To everyone else this is
a revision of the past of its processes.

## Main definitions

* `World.Like` — worlds that differ at most in what their processes answer and in the record
* `World.Treats` — one world comes from another by dealing with some processes alone
* `World.Revision.ofTreats` — what was done as a revision of the past

## Main results

* `Handle.exists_treats` — what a handle replies, and what it leaves behind
* `World.Revision.revise_ofTreats` — what is left behind is a revision
* `Handle.replies_congr` — the replies of a handle depend on its processes alone
-/

namespace Pipework

open Process (passed passCalls)

/-- The worlds differ at most in what their processes answer from now on and in the record. -/
structure World.Like (w w' : World) : Prop where
  same : { w' with processes := w.processes, calls := w.calls, notes := w.notes } = w
  count : w'.processes.length = w.processes.length

namespace World.Like

variable {w w' : World}

theorem refl (w : World) : w.Like w := ⟨rfl, rfl⟩

theorem symm (h : w.Like w') : w'.Like w where
  same := congrArg (fun v : World =>
    { v with processes := w'.processes, calls := w'.calls, notes := w'.notes }) h.same.symm
  count := h.count.symm

theorem trans {w'' : World} (h : w.Like w') (h' : w'.Like w'') : w.Like w'' where
  same := by
    rw [← h.same, ← h'.same]
  count := h'.count.trans h.count

theorem log (h : w.Like w') (c : Call) : w.Like (w'.log c) := ⟨h.same, h.count⟩

theorem takeNote (h : w.Like w') (n : Note) : w.Like (w'.takeNote n) := ⟨h.same, h.count⟩

theorem change (h : w.Like w') (pid : Nat) (f : Process → Process) : w.Like (w'.change pid f) where
  same := by
    unfold World.change
    exact h.same
  count := by rw [length_processes_change, h.count]

theorem respects_note (n : Note) : Respects w.Like id (fun _ => True) (World.note n) :=
  .modify (fun _ hlike => hlike.takeNote n) fun _ _ => rfl

theorem respects_wait (pid : Nat) :
    Action.Respects w.Like id (fun _ => True) (World.wait pid) := by
  have hnext (w' : World) (hlike : w.Like w') : w.Like ((World.wait pid).outcome w').2 := by
    cases hknown : w'.process? pid with
    | none =>
      have hlogged : (w'.log (.wait pid)).process? pid = none := hknown
      simp only [World.wait, Action.outcome_ofFun, hlogged]
      exact hlike.log _
    | some p =>
      rw [World.outcome_wait_eq hknown]
      exact (hlike.log _).change _ _
  exact .of_outcome fun w' hlike =>
    ⟨_, _, rfl, hnext w' hlike, .of_forall (fun _ => trivial) _, rfl⟩

/-- Waiting changes nothing but what processes answer and the record. -/
theorem of_wait (h : Handle) (w : World) : w.Like (h.wait.run w).2 := by
  have hrespects : Respects w.Like id (fun answer => answer.2.children = h.children) h.wait :=
    Handle.respects_wait respects_note fun _ _ => respects_wait _
  exact hrespects.keeps w (.refl w)

end World.Like

/-- One world comes from another by turning the processes with numbers from the given one on into
others. The record may differ, and all else is left alone. -/
structure World.Treats (w : World) (pid : Nat) (ps qs : List Process) (w' : World) : Prop where
  like : w.Like w'
  self : w'.Knows pid qs
  others : ∀ n, n < pid ∨ pid + ps.length ≤ n → w'.process? n = w.process? n

/-- A pass is nothing to the faces of processes. -/
theorem Process.face_passed (ps : List Process) : (passed ps).map face = ps.map face := by
  induction ps with
  | nil => rfl
  | cons p ps ih =>
    have hsame : p.awaited.face = p.face := rfl
    rw [passed_cons, List.map_cons, List.map_cons, hsame]
    split
    · rfl
    · rw [ih]

namespace Handle

variable {h : Handle} {pid : Nat} {ps : List Process}

/-- What a handle replies to a query is told from its processes, as well as the handle afterwards,
its processes and the calls that it makes. -/
theorem exists_treats (hchildren : h.children = Process.children pid ps) (q : Query Item) :
    ∃ reply h' qs cs, h'.children = Process.children pid qs ∧
      qs.map Process.face = ps.map Process.face ∧
      ∀ w : World, w.Knows pid ps →
        ∃ w', (q.onHandle h).run w = ((reply, h'), w') ∧ w.Treats pid ps qs w' ∧
          w'.calls = w.calls ++ cs := by
  have hidle (w : World) (hknown : w.Knows pid ps) :
      w.Treats pid ps ps w ∧ w.calls = w.calls ++ [] :=
    ⟨⟨.refl w, hknown, fun _ _ => rfl⟩, (List.append_nil _).symm⟩
  cases htakes : q.ofAwaited? with
  | none =>
    -- There is nothing to wait for.
    refine ⟨q.ofHandle h, h, ps, [], hchildren, rfl, fun w hknown => ⟨w, ?_, hidle w hknown⟩⟩
    exact run_onHandle_of_none htakes h w
  | some take =>
    cases hkept : h.result with
    | some r =>
      -- There is a result already.
      refine ⟨take r, h, ps, [], hchildren, rfl, fun w hknown => ⟨w, ?_, hidle w hknown⟩⟩
      rw [run_onHandle htakes, run_wait_of_some hkept]
      rfl
    | none =>
      -- A pass is made, and a result of it is all that the handle keeps.
      have hsame : (h.after (h.verdict ps)).children = Process.children pid (passed ps) := by
        rw [Process.children_passed, ← hchildren]
        cases h.verdict ps <;> rfl
      refine ⟨(h.verdict ps).bind take, h.after (h.verdict ps), passed ps, passCalls pid ps, hsame,
        Process.face_passed ps, fun w hknown => ?_⟩
      obtain ⟨w', hwaited, hpasses⟩ := run_wait hknown hchildren hkept
      have hlike := World.Like.of_wait h w
      rw [hwaited] at hlike
      refine ⟨w', ?_, ⟨hlike, hpasses.self, hpasses.others⟩, hpasses.calls⟩
      rw [run_onHandle htakes, hwaited]

/-- The replies of a handle depend on its processes alone. -/
theorem replies_congr {v w : World} (hchildren : h.children = Process.children pid ps)
    (hknown : v.Knows pid ps) (hknown' : w.Knows pid ps) (qs : List (Query Item)) :
    h.replies qs v = h.replies qs w := by
  induction qs generalizing h ps v w with
  | nil => rfl
  | cons q qs ih =>
    obtain ⟨reply, h', ps', cs, hchildren', -, htreats⟩ := exists_treats hchildren q
    obtain ⟨v', hreplied, htreated, hcalls⟩ := htreats v hknown
    obtain ⟨w', hreplied', htreated', hcalls'⟩ := htreats w hknown'
    rw [replies, replies, hreplied, hreplied']
    dsimp only
    rw [hcalls, hcalls', List.drop_left, List.drop_left,
      ih hchildren' htreated.self htreated'.self]

end Handle

namespace World

/-- A world has the processes that are known by their numbers. -/
theorem processes_eq_of_process? {v w : World} (hsame : ∀ n, v.process? n = w.process? n) :
    v.processes = w.processes := by
  refine List.ext_getElem? fun i => ?_
  have hnumbered (u : World) : u.process? (firstPid + i) = u.processes[i]? := by
    rw [process?, if_neg (by omega), Nat.add_sub_cancel_left]
  rw [← hnumbered, ← hnumbered, hsame]

namespace Revision

variable {pid : Nat} {ps qs : List Process} {w w' : World}

theorem like_revise (r : Revision) (w : World) : w.Like (r.revise w) :=
  ⟨rfl, length_processes_revise r w⟩

/-- What was done to some processes, as a revision of their past. -/
def ofTreats (w w' : World) (pid : Nat) (ps qs : List Process)
    (hfaces : qs.map Process.face = ps.map Process.face) : Revision where
  callCount := w.calls.length
  calls := w'.calls
  noteCount := w.notes.length
  notes := w'.notes
  pid := pid
  olds := ps
  news := qs
  faces := hfaces

theorem meets_ofTreats (hknown : w.Knows pid ps)
    (hfaces : qs.map Process.face = ps.map Process.face) :
    (ofTreats w w' pid ps qs hfaces).Meets w :=
  ⟨Nat.le_refl _, Nat.le_refl _, hknown⟩

/-- What was done is that revision. -/
theorem revise_ofTreats (hknown : w.Knows pid ps) (htreats : w.Treats pid ps qs w')
    (hfaces : qs.map Process.face = ps.map Process.face) :
    (ofTreats w w' pid ps qs hfaces).revise w = w' := by
  have heach (n : Nat) : ((ofTreats w w' pid ps qs hfaces).revise w).process? n =
      w'.process? n := by
    by_cases hcovered : (ofTreats w w' pid ps qs hfaces).Covers n
    · -- A process that is dealt with turns into the one that is known afterwards.
      obtain ⟨habove, hbelow⟩ := hcovered
      change pid ≤ n at habove
      change n < pid + ps.length at hbelow
      have hlength : qs.length = ps.length := length_news (ofTreats w w' pid ps qs hfaces)
      have hold := hknown _ _ (List.getElem?_eq_getElem (l := ps) (i := n - pid) (by omega))
      have hnew := List.getElem?_eq_getElem (l := qs) (i := n - pid) (by omega)
      have hturned := htreats.self _ _ hnew
      rw [Nat.add_sub_cancel' habove] at hold hturned
      rw [process?_revise, hold, hturned, Option.map_some]
      exact congrArg some (turn_of_getElem? habove hnew _)
    · have hout : n < pid ∨ pid + ps.length ≤ n := by
        by_contra hwithin
        exact hcovered ⟨by change pid ≤ n; omega, by change n < pid + ps.length; omega⟩
      rw [process?_revise_of_not_covers hcovered, htreats.others n hout]
  have hprocesses := processes_eq_of_process? heach
  have hcalls : ((ofTreats w w' pid ps qs hfaces).revise w).calls = w'.calls := by
    change w'.calls ++ w.calls.drop w.calls.length = w'.calls
    rw [List.drop_length, List.append_nil]
  have hnotes : ((ofTreats w w' pid ps qs hfaces).revise w).notes = w'.notes := by
    change w'.notes ++ w.notes.drop w.notes.length = w'.notes
    rw [List.drop_length, List.append_nil]
  -- In all but these three the worlds are alike.
  have hrest := congrArg (fun v : World =>
    { v with processes := w'.processes, calls := w'.calls, notes := w'.notes }) htreats.like.same
  refine Eq.trans ?_ hrest.symm
  rw [← hprocesses, ← hcalls, ← hnotes]
  rfl

end Revision

end World

end Pipework
