import Pipework.Proofs.Run.Ledger

/-!
# Giving up links

When a start is over, the parent gives up what its links still hold. If every close succeeds, each
end is closed, link after link and the write end first. A close that fails is a close all the same,
and the links after it are given up too; but in its own link the read end is passed over when the
write end cannot be closed.

## Main definitions

* `World.closeFault?`, `World.Closable` — what the next close meets, and the next ones
* `Link.given`, `Link.givenAll` — what is closed when one link or several are given up

## Main results

* `Link.releases_close`, `releases_closeLinks` — what is done to the world
* `Link.Tracks.close` — a link that is given up still agrees with the ledger
* `closeLinks_eq_none_iff` — no fault comes of it exactly if no close of what is held fails
* `Link.givenAll_of_writersGone` — without write ends nothing is passed over
-/

namespace Pipework

/-- The fault that the next close meets. -/
def World.closeFault? (w : World) : Option Fault := w.machine.closeFailure w.closeCalls

/-- A descriptor counts as closed, whatever comes of it. -/
theorem World.outcome_close (w : World) (d : Nat) :
    (World.close d).outcome w =
      (match w.closeFault? with
        | none => .ok ()
        | some f => .error f, w.closed d) := by
  cases hfault : w.machine.closeFailure w.closeCalls with
  | none => rw [World.outcome_close_of_none hfault, World.closeFault?, hfault]
  | some f => rw [World.outcome_close_of_some hfault, World.closeFault?, hfault]

/-- The next closes meet no fault, so many of them. -/
def World.Closable (w : World) (count : Nat) : Prop :=
  ∀ n < count, w.machine.closeFailure (w.closeCalls + n) = none

theorem World.Closable.of_le {w : World} {m n : Nat} (h : w.Closable n) (hle : m ≤ n) :
    w.Closable m :=
  fun i hlt => h i (Nat.lt_of_lt_of_le hlt hle)

/-- After some closes, the next ones are those that come after them. -/
theorem World.Releases.closable_add {w w' : World} {ds : List Nat} (h : w.Releases ds w')
    (count : Nat) :
    w.Closable (ds.length + count) ↔ w.Closable ds.length ∧ w'.Closable count := by
  unfold World.Closable
  rw [h.machine, h.closeCalls]
  constructor
  · intro hall
    refine ⟨fun n hlt => hall n (by omega), fun n hlt => ?_⟩
    rw [Nat.add_assoc]
    exact hall _ (by omega)
  · rintro ⟨hfirst, hlater⟩ n hlt
    rcases Nat.lt_or_ge n ds.length with hbefore | hafter
    · exact hfirst n hbefore
    · obtain ⟨k, rfl⟩ := Nat.exists_eq_add_of_le hafter
      rw [← Nat.add_assoc]
      exact hlater k (by omega)

namespace Link

variable {l : Link} {w : World} {f : Fault}

/-! ### One end -/

/-- Closes an end of a link, if it is held, and takes a note of that. -/
def closeEnd (held : Option Nat) (taken : Nat → Note) : Action World Fault Unit :=
  match held with
  | none => pure ()
  | some descriptor => do
    World.close descriptor
    World.note (taken descriptor)

theorem closeReader_eq (l : Link) :
    l.closeReader = closeEnd l.reader (.readerClosed l.index) := rfl

theorem closeWriter_eq (l : Link) :
    l.closeWriter = closeEnd l.writer (.writerClosed l.index) := rfl

/-- Closing an end that is held meets the fault of the next close, and one that is gone none. -/
theorem outcome_closeEnd (held : Option Nat) (taken : Nat → Note) (w : World) :
    ((closeEnd held taken).outcome w).1 =
      match held, w.closeFault? with
      | some _, some f => .error f
      | _, _ => .ok () := by
  cases held with
  | none => rfl
  | some d =>
    simp only [closeEnd, Action.outcome_bind, World.outcome_close]
    cases w.closeFault? <;> rfl

/-- Closing an end succeeds if no close that it takes meets a fault. -/
theorem outcome_closeEnd_eq_ok_iff (held : Option Nat) (taken : Nat → Note) (w : World) :
    ((closeEnd held taken).outcome w).1 = .ok () ↔ w.Closable held.toList.length := by
  rw [outcome_closeEnd]
  cases held with
  | none => exact iff_of_true rfl fun n hlt => absurd hlt (Nat.not_lt_zero n)
  | some d =>
    cases hfault : w.closeFault? with
    | none =>
      refine iff_of_true rfl fun n hlt => ?_
      obtain rfl : n = 0 := by simpa using hlt
      exact hfault
    | some f =>
      refine iff_of_false nofun fun hfine => ?_
      exact Option.some_ne_none f (hfault.symm.trans (hfine 0 (by simp)))

theorem releases_closeEnd (held : Option Nat) (taken : Nat → Note) (w : World) :
    w.Releases held.toList ((closeEnd held taken).outcome w).2 := by
  cases held with
  | none => exact .refl w
  | some d =>
    simp only [closeEnd, Action.outcome_bind, World.outcome_close]
    cases w.closeFault? with
    | none => exact (World.Releases.closed w d).takeNote _
    | some f => exact World.Releases.closed w d

theorem releases_closeReader (l : Link) (w : World) :
    w.Releases l.reader.toList (l.closeReader.outcome w).2 :=
  releases_closeEnd _ _ w

theorem releases_closeWriter (l : Link) (w : World) :
    w.Releases l.writer.toList (l.closeWriter.outcome w).2 :=
  releases_closeEnd _ _ w

/-! ### One link -/

/-- What is closed when a link is given up: what it holds, but not the read end if the write end
cannot be closed. -/
def given (w : World) (l : Link) : List Nat :=
  l.writer.toList ++ if l.writer.isSome && w.closeFault?.isSome then [] else l.reader.toList

theorem given_of_writer_none (hgone : l.writer = none) (w : World) : l.given w = l.held := by
  simp [given, held, hgone]

/-- If no close of what the link holds fails, all of it is closed. -/
theorem given_of_closable (hfine : w.Closable l.held.length) : l.given w = l.held := by
  cases hwriter : l.writer with
  | none => exact given_of_writer_none hwriter w
  | some d =>
    have hnext : w.closeFault? = none := hfine 0 (by simp [held, hwriter])
    simp [given, held, hnext]

theorem given_sublist_held (w : World) (l : Link) : (l.given w).Sublist l.held := by
  rw [given, held]
  split
  · exact (List.nil_sublist _).append_left _
  · exact List.Sublist.refl _

/-- Giving up a link stops at a write end that cannot be closed. -/
theorem run_close_of_error {w₁ : World} (hfailed : l.closeWriter.outcome w = (.error f, w₁)) :
    l.close.run w = ((some f, l.withoutWriter), w₁) := by
  have hfirst : l.closeWriter.run.run w = (.error f, w₁) := hfailed
  rw [close, StateT.run_bind, hfirst]
  rfl

/-- After the write end, giving up a link is closing its read end. -/
theorem run_close_of_ok {w₁ : World} (hfine : l.closeWriter.outcome w = (.ok (), w₁)) :
    l.close.run w =
      ((match (l.closeReader.outcome w₁).1 with
        | .error f => some f
        | .ok () => none, l.withoutWriter.withoutReader), (l.closeReader.outcome w₁).2) := by
  have hfirst : l.closeWriter.run.run w = (.ok (), w₁) := hfine
  have hsecond : l.closeReader.run.run w₁ = l.closeReader.outcome w₁ := rfl
  rw [close, StateT.run_bind, hfirst]
  change StateT.run (l.closeReader.run >>= _) w₁ = _
  rw [StateT.run_bind, hsecond]
  rcases l.closeReader.outcome w₁ with ⟨_ | _, w₂⟩ <;> rfl

/-- If the write end cannot be closed, nothing else of the link is. -/
theorem given_of_error {w₁ : World} (hfailed : l.closeWriter.outcome w = (.error f, w₁)) :
    l.given w = l.writer.toList := by
  have houtcome := outcome_closeEnd l.writer (.writerClosed l.index) w
  rw [← closeWriter_eq, hfailed] at houtcome
  cases hheld : l.writer with
  | none => simp [hheld] at houtcome
  | some d =>
    cases hfault : w.closeFault? with
    | none => simp [hheld, hfault] at houtcome
    | some f => simp [given, hheld, hfault]

/-- If the write end can be closed, all of the link is. -/
theorem given_of_ok {w₁ : World} (hfine : l.closeWriter.outcome w = (.ok (), w₁)) :
    l.given w = l.writer.toList ++ l.reader.toList := by
  have houtcome := outcome_closeEnd l.writer (.writerClosed l.index) w
  rw [← closeWriter_eq, hfine] at houtcome
  cases hheld : l.writer with
  | none => simp [given, hheld]
  | some d =>
    cases hfault : w.closeFault? with
    | none => simp [given, hheld, hfault]
    | some f => simp [hheld, hfault] at houtcome

/-- Giving up a link closes what is given up, and nothing else happens. -/
theorem releases_close (l : Link) (w : World) : w.Releases (l.given w) (l.close.run w).2 := by
  have hwriter := l.releases_closeWriter w
  rcases hrun : l.closeWriter.outcome w with ⟨result, w₁⟩
  rw [hrun] at hwriter
  cases result with
  | error f =>
    rw [run_close_of_error hrun, given_of_error hrun]
    exact hwriter
  | ok _ =>
    rw [run_close_of_ok hrun, given_of_ok hrun]
    exact hwriter.trans (l.releases_closeReader w₁)

/-- A link that is given up still agrees with the ledger, also if that did not go to its end. -/
theorem Tracks.close {ds : Descriptors} {calls : List Call} {m : Nat} (h : l.Tracks ds calls m)
    (w : World) : (l.close.run w).1.2.Tracks ds (calls ++ (l.given w).map .close) m := by
  rcases hrun : l.closeWriter.outcome w with ⟨_ | _, w₁⟩
  · rw [run_close_of_error hrun, given_of_error hrun]
    exact h.withoutWriter
  · rw [run_close_of_ok hrun, given_of_ok hrun, List.map_append, ← List.append_assoc]
    exact h.withoutWriter.withoutReader

/-- No fault comes of giving up a link exactly if no close of what it holds fails. -/
theorem fault_close_eq_none_iff (l : Link) (w : World) :
    (l.close.run w).1.1 = none ↔ w.Closable l.held.length := by
  have hlength : l.held.length = l.writer.toList.length + l.reader.toList.length := by simp [held]
  have hrelease := l.releases_closeWriter w
  have hwriter := outcome_closeEnd_eq_ok_iff l.writer (.writerClosed l.index) w
  rw [hlength, hrelease.closable_add, ← hwriter, ← closeWriter_eq]
  rcases hrun : l.closeWriter.outcome w with ⟨f | _, w₁⟩
  · rw [run_close_of_error hrun]
    refine iff_of_false (Option.some_ne_none f) ?_
    rintro ⟨hfailed, -⟩
    cases hfailed
  · have hreader := outcome_closeEnd_eq_ok_iff l.reader (.readerClosed l.index) w₁
    rw [run_close_of_ok hrun, ← hreader, ← closeReader_eq]
    rcases (l.closeReader.outcome w₁).1 with f | _
    · refine iff_of_false (Option.some_ne_none f) ?_
      rintro ⟨-, hfailed⟩
      cases hfailed
    · exact iff_of_true rfl ⟨rfl, rfl⟩

/-- What is closed when links are given up, in order. -/
def givenAll (w : World) : List Link → List Nat
  | [] => []
  | link :: links => link.given w ++ givenAll (link.close.run w).2 links

theorem givenAll_sublist (links : List Link) (w : World) :
    (givenAll w links).Sublist (links.flatMap held) := by
  induction links generalizing w with
  | nil => exact List.Sublist.refl _
  | cons link links ih => exact (link.given_sublist_held w).append (ih _)

/-- Without write ends nothing is passed over. -/
theorem givenAll_of_writersGone {links : List Link} (hgone : ∀ link ∈ links, link.writer = none)
    (w : World) : givenAll w links = links.flatMap held := by
  induction links generalizing w with
  | nil => rfl
  | cons link links ih =>
    have hfirst := given_of_writer_none (hgone link List.mem_cons_self) w
    have hlater :=
      ih (fun link hmem => hgone link (List.mem_cons_of_mem _ hmem)) (link.close.run w).2
    rw [givenAll, hfirst, hlater, List.flatMap_cons]

end Link

open Link (givenAll)

/-- Giving up links closes what is given up, and nothing else happens. -/
theorem releases_closeLinks (links : List Link) (w : World) :
    w.Releases (givenAll w links) ((closeLinks links).run w).2 := by
  induction links generalizing w with
  | nil => exact .refl w
  | cons link links ih => exact (link.releases_close w).trans (ih _)

/-- No fault comes of giving up links exactly if no close of what they hold fails. -/
theorem closeLinks_eq_none_iff (links : List Link) (w : World) :
    ((closeLinks links).run w).1 = none ↔ w.Closable (links.flatMap Link.held).length := by
  induction links generalizing w with
  | nil => exact iff_of_true rfl fun n hlt => absurd hlt (Nat.not_lt_zero n)
  | cons link links ih =>
    have hsplit : ((closeLinks (link :: links)).run w).1 = none ↔
        ((closeLinks links).run (link.close.run w).2).1 = none ∧ (link.close.run w).1.1 = none :=
      Option.or_eq_none_iff
    have hrelease := link.releases_close w
    rw [hsplit, ih, link.fault_close_eq_none_iff, List.flatMap_cons, List.length_append]
    -- Once the first link is given up without a fault, the closes go on where it stopped.
    constructor
    · rintro ⟨hlater, hfirst⟩
      rw [Link.given_of_closable hfirst] at hrelease
      exact (hrelease.closable_add _).2 ⟨hfirst, hlater⟩
    · intro hfine
      have hfirst := hfine.of_le (Nat.le_add_right _ _)
      rw [Link.given_of_closable hfirst] at hrelease
      exact ⟨((hrelease.closable_add _).1 hfine).2, hfirst⟩

/-- If no close of what the links hold fails, all of it is closed. -/
theorem givenAll_of_closable {links : List Link} {w : World}
    (hfine : w.Closable (links.flatMap Link.held).length) :
    givenAll w links = links.flatMap Link.held := by
  induction links generalizing w with
  | nil => rfl
  | cons link links ih =>
    rw [List.flatMap_cons, List.length_append] at hfine
    have hfirst := Link.given_of_closable (hfine.of_le (Nat.le_add_right _ _))
    have hrelease := link.releases_close w
    rw [hfirst] at hrelease
    have hlater := ih ((hrelease.closable_add _).1 hfine).2
    rw [givenAll, hfirst, hlater, List.flatMap_cons]

end Pipework
