import Pipework.Proofs.Run.Plan

/-!
# A ledger of descriptors

The calls on record are a ledger of descriptors: a pipe brings two of them, a close gives one up,
and the start of a process hands some of them to it. The ledger is in order if whatever a call
closes or hands on was brought by an earlier call and was given up by none. A link is read off the
ledger: an end is gone from it exactly when that end has been closed.

## Main definitions

* `Call.wired`, `Call.used` — the descriptors that a call hands to a process, and all it works with
* `Call.Held`, `Call.Orderly` — what the parent holds after some calls, and calls in good order
* `World.Leads` — orderly calls that lead from one world to another
* `Link.Tracks` — a link agrees with the ledger
* `World.Releases` — some descriptors are closed, and nothing else happens

## Main results

* `Call.Orderly.count_close` — whatever is closed is closed once
* `World.Leads.trans` — orderly calls may follow each other, for no descriptor comes twice
* `World.Leads.releases` — what is held may be closed
* `Link.Tracks.append_others` — closing what other links show leaves a link in agreement
* `World.Leads.held_of_tracks` — what a link shows is held
-/

namespace Pipework

/-- The descriptor that a stream of a process is wired to, if it is to one. -/
def Wiring.descriptors : Wiring → List Nat
  | .descriptor n => [n]
  | _ => []

namespace Call

/-- The descriptors that a call hands to a process. -/
def wired : Call → List Nat
  | .start _ stdin stdout stderr => stdin.descriptors ++ stdout.descriptors ++ stderr.descriptors
  | _ => []

/-- The descriptors that a call works with: those it gives up, and those it hands to a process. -/
def used (c : Call) : List Nat := c.dropped ++ c.wired

/-- After these calls the parent holds the descriptor: one of them brought it, none closed it. -/
def Held (calls : List Call) (d : Nat) : Prop :=
  d ∈ calls.flatMap made ∧ .close d ∉ calls

/-- Calls in good order: each works only with descriptors that are held when it is made. -/
def Orderly (calls : List Call) : Prop :=
  ∀ before call after, calls = before ++ call :: after → ∀ d ∈ call.used, Held before d

variable {calls before after : List Call} {c : Call} {d : Nat}

/-! ### Calls in good order -/

theorem mem_used_close : d ∈ (close d).used := by
  simp [used, dropped]

theorem Held.append (h : Held calls d) (hopen' : .close d ∉ after) : Held (calls ++ after) d := by
  refine ⟨?_, by simp [h.2, hopen']⟩
  rw [List.flatMap_append]
  exact List.mem_append_left _ h.1

theorem orderly_nil : Orderly [] := by
  intro before call after hsplit
  simp at hsplit

/-- One more call that works with what is held. -/
theorem Orderly.append_singleton (h : Orderly calls) (hheld : ∀ d ∈ c.used, Held calls d) :
    Orderly (calls ++ [c]) := by
  intro before call after hsplit
  rcases after.eq_nil_or_concat with rfl | ⟨after, last, rfl⟩
  · obtain ⟨rfl, hlast⟩ := List.append_inj' hsplit rfl
    rwa [List.cons.inj hlast |>.1] at hheld
  · have hsplit' : calls ++ [c] = before ++ call :: after ++ [last] := by simpa using hsplit
    exact h before call after (List.append_inj' hsplit' rfl).1

/-- Only what was brought is closed. -/
theorem Orderly.mem_made_of_close (h : Orderly calls) (hclosed : .close d ∈ calls) :
    d ∈ calls.flatMap made := by
  obtain ⟨before, after, rfl⟩ := List.append_of_mem hclosed
  have hheld := h before _ after rfl d mem_used_close
  rw [List.flatMap_append]
  exact List.mem_append_left _ hheld.1

/-- Orderly calls may follow others that bring none of the same descriptors. -/
theorem Orderly.append (h : Orderly before) (h' : Orderly after)
    (hfresh : ∀ d ∈ after.flatMap made, d ∉ before.flatMap made) : Orderly (before ++ after) := by
  intro first call rest hsplit d hmem
  rcases List.append_eq_append_iff.1 hsplit with ⟨middle, rfl, hlater⟩ | ⟨middle, rfl, hlater⟩
  · -- The call is one of the later ones, and what it works with came after the earlier ones.
    have hheld := h' middle call rest hlater d hmem
    have hnew : d ∈ after.flatMap made := by
      rw [hlater, List.flatMap_append]
      exact List.mem_append_left _ hheld.1
    refine ⟨?_, ?_⟩
    · rw [List.flatMap_append]
      exact List.mem_append_right _ hheld.1
    · rw [List.mem_append, not_or]
      exact ⟨fun hclosed => hfresh d hnew (h.mem_made_of_close hclosed), hheld.2⟩
  · cases middle with
    | nil =>
      -- The call is the first of the later ones, which can work with nothing.
      have hheld := h' [] call rest hlater.symm d hmem
      exact absurd hheld.1 (by simp)
    | cons call' middle =>
      obtain ⟨rfl, -⟩ := List.cons.inj hlater
      exact h first call middle rfl d hmem

/-- Nothing is closed twice. -/
theorem Orderly.nodup_dropped (h : Orderly calls) : (calls.flatMap dropped).Nodup := by
  -- The induction takes off the last call, which may close only what is still held.
  induction calls using List.reverseRecOn with
  | nil => simp
  | append_singleton calls c ih =>
    have hbefore : Orderly calls := fun first call rest hsplit =>
      h first call (rest ++ [c]) (by simp [hsplit])
    have hheld := h calls c [] rfl
    rw [List.flatMap_append, List.nodup_append]
    refine ⟨ih hbefore, ?_, ?_⟩
    · cases c <;> simp [dropped]
    · intro d hclosed d' hlast heq
      cases c <;> simp only [List.flatMap_cons, List.flatMap_nil, dropped, List.append_nil,
        List.not_mem_nil, List.mem_singleton] at hlast
      subst hlast heq
      obtain ⟨call, hmem, hdrop⟩ := List.mem_flatMap.1 hclosed
      cases call <;> simp only [dropped, List.not_mem_nil, List.mem_singleton] at hdrop
      subst hdrop
      exact (hheld _ mem_used_close).2 hmem

/-- Whatever is closed is closed once. -/
theorem Orderly.count_close (h : Orderly calls) (d : Nat) :
    calls.count (.close d) = if .close d ∈ calls then 1 else 0 := by
  rw [Plan.count_close]
  split_ifs with hclosed
  · have hmem : d ∈ calls.flatMap dropped :=
      List.mem_flatMap.2 ⟨_, hclosed, List.mem_singleton_self d⟩
    exact List.count_eq_one_of_mem h.nodup_dropped hmem
  · rw [← Plan.count_close]
    exact List.count_eq_zero.2 hclosed

end Call

open Call (Held Orderly)

/-! ### From world to world -/

/-- Orderly calls lead from one world to another: the pipes among them are the next ones. -/
structure World.Leads (w₀ : World) (calls : List Call) (w : World) : Prop where
  machine : w.machine = w₀.machine
  record : w.calls = w₀.calls ++ calls
  pipes : w₀.pipes ≤ w.pipes
  pipe_mem_iff : ∀ r s, .pipe r s ∈ calls ↔ ∃ m, w₀.pipes ≤ m ∧ m < w.pipes ∧
    r = w₀.machine.descriptors.reader m ∧ s = w₀.machine.descriptors.writer m
  orderly : Orderly calls

namespace World.Leads

variable {w₀ w₁ w₂ w : World} {calls calls' : List Call} {d m : Nat}

theorem refl (w : World) : w.Leads [] w where
  machine := rfl
  record := by simp
  pipes := Nat.le_refl _
  pipe_mem_iff r s := by
    simp only [List.not_mem_nil, false_iff, not_exists]
    omega
  orderly := Call.orderly_nil

/-- The descriptors that the calls bring are the ends of the pipes among them. -/
theorem mem_made_iff (h : w₀.Leads calls w) :
    d ∈ calls.flatMap Call.made ↔ ∃ m, w₀.pipes ≤ m ∧ m < w.pipes ∧
      (d = w₀.machine.descriptors.reader m ∨ d = w₀.machine.descriptors.writer m) := by
  rw [List.mem_flatMap]
  constructor
  · rintro ⟨call, hmem, hbrought⟩
    cases call <;> simp only [Call.made, List.not_mem_nil] at hbrought
    obtain ⟨m, hlower, hupper, rfl, rfl⟩ := (h.pipe_mem_iff _ _).1 hmem
    exact ⟨m, hlower, hupper, by simpa using hbrought⟩
  · rintro ⟨m, hlower, hupper, heither⟩
    refine ⟨_, (h.pipe_mem_iff _ _).2 ⟨m, hlower, hupper, rfl, rfl⟩, ?_⟩
    simpa [Call.made] using heither

theorem reader_mem_made_iff (h : w₀.Leads calls w) :
    w₀.machine.descriptors.reader m ∈ calls.flatMap Call.made ↔ w₀.pipes ≤ m ∧ m < w.pipes := by
  rw [h.mem_made_iff]
  constructor
  · rintro ⟨n, hlower, hupper, heq | heq⟩
    · obtain rfl := w₀.machine.descriptors.reader_injective heq
      exact ⟨hlower, hupper⟩
    · exact absurd heq (w₀.machine.descriptors.reader_ne_writer m n)
  · rintro ⟨hlower, hupper⟩
    exact ⟨m, hlower, hupper, .inl rfl⟩

theorem writer_mem_made_iff (h : w₀.Leads calls w) :
    w₀.machine.descriptors.writer m ∈ calls.flatMap Call.made ↔ w₀.pipes ≤ m ∧ m < w.pipes := by
  rw [h.mem_made_iff]
  constructor
  · rintro ⟨n, hlower, hupper, heq | heq⟩
    · exact absurd heq.symm (w₀.machine.descriptors.reader_ne_writer n m)
    · obtain rfl := w₀.machine.descriptors.writer_injective heq
      exact ⟨hlower, hupper⟩
  · rintro ⟨hlower, hupper⟩
    exact ⟨m, hlower, hupper, .inr rfl⟩

/-- Of a pipe that is not among theirs the calls close neither end. -/
theorem ends_not_closed (h : w₀.Leads calls w) (houtside : m < w₀.pipes ∨ w.pipes ≤ m) :
    .close (w₀.machine.descriptors.reader m) ∉ calls ∧
      .close (w₀.machine.descriptors.writer m) ∉ calls := by
  constructor
  · intro hclosed
    have hinside := h.reader_mem_made_iff.1 (h.orderly.mem_made_of_close hclosed)
    omega
  · intro hclosed
    have hinside := h.writer_mem_made_iff.1 (h.orderly.mem_made_of_close hclosed)
    omega

/-- Orderly calls may follow each other, for no descriptor comes twice. -/
theorem trans (h : w₀.Leads calls w₁) (h' : w₁.Leads calls' w₂) :
    w₀.Leads (calls ++ calls') w₂ where
  machine := h'.machine.trans h.machine
  record := by rw [h'.record, h.record, List.append_assoc]
  pipes := Nat.le_trans h.pipes h'.pipes
  pipe_mem_iff r s := by
    rw [List.mem_append, h.pipe_mem_iff, h'.pipe_mem_iff, h.machine]
    constructor
    · rintro (⟨m, hlower, hupper, hends⟩ | ⟨m, hlower, hupper, hends⟩)
      · exact ⟨m, hlower, Nat.lt_of_lt_of_le hupper h'.pipes, hends⟩
      · exact ⟨m, Nat.le_trans h.pipes hlower, hupper, hends⟩
    · rintro ⟨m, hlower, hupper, hends⟩
      rcases Nat.lt_or_ge m w₁.pipes with hearly | hlate
      · exact .inl ⟨m, hlower, hearly, hends⟩
      · exact .inr ⟨m, hlate, hupper, hends⟩
  orderly := by
    refine h.orderly.append h'.orderly fun d hnew hold => ?_
    -- The later pipes have numbers from where the earlier ones end.
    obtain ⟨m, hlower, -, heither⟩ := h'.mem_made_iff.1 hnew
    rw [h.machine] at heither
    rcases heither with rfl | rfl
    · exact Nat.not_lt_of_le hlower (h.reader_mem_made_iff.1 hold).2
    · exact Nat.not_lt_of_le hlower (h.writer_mem_made_iff.1 hold).2

/-- One more call that works with what is held and makes no pipe. -/
theorem append_singleton (h : w₀.Leads calls w₁) {c : Call} (hheld : ∀ d ∈ c.used, Held calls d)
    (hnoPipe : c.made = []) (hmachine : w₂.machine = w₁.machine)
    (hrecord : w₂.calls = w₁.calls ++ [c]) (hpipes : w₂.pipes = w₁.pipes) :
    w₀.Leads (calls ++ [c]) w₂ where
  machine := hmachine.trans h.machine
  record := by rw [hrecord, h.record, List.append_assoc]
  pipes := hpipes ▸ h.pipes
  pipe_mem_iff r s := by
    have hother : .pipe r s ≠ c := by
      rintro rfl
      simp [Call.made] at hnoPipe
    rw [List.mem_append, List.mem_singleton, hpipes, h.pipe_mem_iff]
    exact or_iff_left hother
  orderly := h.orderly.append_singleton hheld

theorem piped (w : World) : w.Leads [.pipe w.nextReader w.nextWriter] w.piped where
  machine := rfl
  record := rfl
  pipes := Nat.le_succ _
  pipe_mem_iff r s := by
    rw [List.mem_singleton]
    constructor
    · intro heq
      obtain ⟨rfl, rfl⟩ := Call.pipe.inj heq
      exact ⟨w.pipes, Nat.le_refl _, Nat.lt_succ_self _, rfl, rfl⟩
    · rintro ⟨m, hlower, hupper, rfl, rfl⟩
      obtain rfl : m = w.pipes := by
        have : m < w.pipes + 1 := hupper
        omega
      rfl
  orderly := Call.orderly_nil.append_singleton (by simp [Call.used, Call.dropped, Call.wired])

theorem unpiped (w : World) : w.Leads [.pipeFailed] w.unpiped :=
  (refl w).append_singleton (by simp [Call.used, Call.dropped, Call.wired]) rfl rfl rfl rfl

end World.Leads

/-- Some descriptors were closed, in that order, and nothing else was done but to take notes. -/
structure World.Releases (w : World) (ds : List Nat) (w' : World) : Prop where
  machine : w'.machine = w.machine
  pipes : w'.pipes = w.pipes
  processes : w'.processes = w.processes
  closeCalls : w'.closeCalls = w.closeCalls + ds.length
  calls : w'.calls = w.calls ++ ds.map .close

namespace World.Releases

variable {w w₁ w₂ : World} {ds ds' : List Nat}

theorem refl (w : World) : w.Releases [] w := by
  constructor <;> simp

theorem closed (w : World) (d : Nat) : w.Releases [d] (w.closed d) := by
  constructor <;> simp [World.closed, World.log]

theorem takeNote (h : w.Releases ds w₁) (n : Note) : w.Releases ds (w₁.takeNote n) :=
  ⟨h.machine, h.pipes, h.processes, h.closeCalls, h.calls⟩

theorem trans (h : w.Releases ds w₁) (h' : w₁.Releases ds' w₂) : w.Releases (ds ++ ds') w₂ where
  machine := h'.machine.trans h.machine
  pipes := h'.pipes.trans h.pipes
  processes := h'.processes.trans h.processes
  closeCalls := by rw [h'.closeCalls, h.closeCalls, List.length_append, Nat.add_assoc]
  calls := by rw [h'.calls, h.calls, List.map_append, List.append_assoc]

end World.Releases

/-- What is held may be closed, each descriptor once. -/
theorem World.Leads.releases {w₀ w w' : World} {calls : List Call} {ds : List Nat}
    (h : w₀.Leads calls w) (hrelease : w.Releases ds w') (hheld : ∀ d ∈ ds, Held calls d)
    (hnodup : ds.Nodup) : w₀.Leads (calls ++ ds.map .close) w' := by
  -- The order of the calls is all that needs an induction, on the descriptors from the right.
  have horderly : Orderly (calls ++ ds.map .close) := by
    clear hrelease
    induction ds using List.reverseRecOn with
    | nil => simpa using h.orderly
    | append_singleton ds d ih =>
      rw [List.nodup_append] at hnodup
      have hbefore := ih (fun d' hmem => hheld d' (List.mem_append_left _ hmem)) hnodup.1
      rw [List.map_append, ← List.append_assoc]
      refine hbefore.append_singleton fun d' hmem => ?_
      obtain rfl : d' = d := by simpa [Call.used, Call.dropped, Call.wired] using hmem
      refine (hheld d' (by simp)).append fun hclosed => ?_
      obtain ⟨d'', hmem, heq⟩ := List.mem_map.1 hclosed
      exact hnodup.2.2 d'' hmem d' (List.mem_singleton_self _) (Call.close.inj heq)
  refine ⟨hrelease.machine.trans h.machine, ?_, hrelease.pipes ▸ h.pipes, fun r s => ?_, horderly⟩
  · rw [hrelease.calls, h.record, List.append_assoc]
  · rw [List.mem_append, hrelease.pipes, h.pipe_mem_iff]
    exact or_iff_left (by simp)

/-! ### Links -/

/-- A link on some pipe agrees with the ledger: an end is gone exactly when it has been closed. -/
structure Link.Tracks (ds : Descriptors) (calls : List Call) (m : Nat) (l : Link) : Prop where
  reader : l.reader = if .close (ds.reader m) ∈ calls then none else some (ds.reader m)
  writer : l.writer = if .close (ds.writer m) ∈ calls then none else some (ds.writer m)

namespace Link

/-- The ends that a link still shows, in the order in which they are closed. -/
def held (l : Link) : List Nat := l.writer.toList ++ l.reader.toList

namespace Tracks

variable {ds : Descriptors} {calls calls' : List Call} {m d : Nat} {l : Link}

/-- Calls that close neither end change nothing. -/
theorem append (h : l.Tracks ds calls m) (hreader : .close (ds.reader m) ∉ calls')
    (hwriter : .close (ds.writer m) ∉ calls') : l.Tracks ds (calls ++ calls') m := by
  constructor
  · simpa [hreader] using h.reader
  · simpa [hwriter] using h.writer

/-- Calls that were made before the pipe close neither end. -/
theorem prepend (h : l.Tracks ds calls m) (hreader : .close (ds.reader m) ∉ calls')
    (hwriter : .close (ds.writer m) ∉ calls') : l.Tracks ds (calls' ++ calls) m := by
  constructor
  · simpa [hreader] using h.reader
  · simpa [hwriter] using h.writer

/-- The link without its read end agrees with the ledger once that end is closed. -/
theorem withoutReader (h : l.Tracks ds calls m) :
    l.withoutReader.Tracks ds (calls ++ l.reader.toList.map .close) m := by
  have hne := ds.reader_ne_writer m m
  have hreader := h.reader
  have hwriter := h.writer
  split_ifs at hreader with hclosed
  · constructor <;> simp [Link.withoutReader, hreader, hclosed, hwriter]
  · constructor <;> simp [Link.withoutReader, hreader, hwriter, hne.symm]

/-- The link without its write end agrees with the ledger once that end is closed. -/
theorem withoutWriter (h : l.Tracks ds calls m) :
    l.withoutWriter.Tracks ds (calls ++ l.writer.toList.map .close) m := by
  have hne := ds.reader_ne_writer m m
  have hreader := h.reader
  have hwriter := h.writer
  split_ifs at hwriter with hclosed
  · constructor <;> simp [Link.withoutWriter, hreader, hclosed, hwriter]
  · constructor <;> simp [Link.withoutWriter, hreader, hwriter, hne]

/-- A new link is on the pipe that was made for it. -/
theorem made (index : Int) (hreader : .close (ds.reader m) ∉ calls)
    (hwriter : .close (ds.writer m) ∉ calls) :
    Tracks ds calls m ⟨index, some (ds.reader m), some (ds.writer m)⟩ := by
  constructor <;> simp [hreader, hwriter]

theorem mem_held_iff (h : l.Tracks ds calls m) :
    d ∈ l.held ↔ (d = ds.reader m ∨ d = ds.writer m) ∧ .close d ∉ calls := by
  have hne := ds.reader_ne_writer m m
  rw [Link.held, h.reader, h.writer]
  split_ifs with hwriter hreader hreader <;> simp <;> grind

/-- Only the link on its pipe shows a read end. -/
theorem eq_of_reader_mem_held {n : Nat} (h : l.Tracks ds calls m) (hmem : ds.reader n ∈ l.held) :
    n = m := by
  rcases (h.mem_held_iff.1 hmem).1 with heq | heq
  · exact ds.reader_injective heq
  · exact absurd heq (ds.reader_ne_writer n m)

/-- Only the link on its pipe shows a write end. -/
theorem eq_of_writer_mem_held {n : Nat} (h : l.Tracks ds calls m) (hmem : ds.writer n ∈ l.held) :
    n = m := by
  rcases (h.mem_held_iff.1 hmem).1 with heq | heq
  · exact absurd heq.symm (ds.reader_ne_writer m n)
  · exact ds.writer_injective heq

/-- Links on different pipes show nothing in common. -/
theorem disjoint_held {n : Nat} {l' : Link} (h : l.Tracks ds calls m) (h' : l'.Tracks ds calls' n)
    (hne : m ≠ n) : l.held.Disjoint l'.held := by
  intro d hmem hmem'
  rcases (h.mem_held_iff.1 hmem).1 with rfl | rfl
  · exact hne (h'.eq_of_reader_mem_held hmem')
  · exact hne (h'.eq_of_writer_mem_held hmem')

/-- Closing what links on other pipes show changes nothing. -/
theorem append_others {gone : List Nat} (h : l.Tracks ds calls m)
    (hothers : ∀ d ∈ gone, ∃ (n : Nat) (link : Link) (calls' : List Call),
      n ≠ m ∧ link.Tracks ds calls' n ∧ d ∈ link.held) :
    l.Tracks ds (calls ++ gone.map .close) m := by
  refine h.append (fun hclosed => ?_) fun hclosed => ?_
  · obtain ⟨n, link, calls', hne, htracks, hheld⟩ := hothers (ds.reader m) (by simpa using hclosed)
    exact hne (htracks.eq_of_reader_mem_held hheld).symm
  · obtain ⟨n, link, calls', hne, htracks, hheld⟩ := hothers (ds.writer m) (by simpa using hclosed)
    exact hne (htracks.eq_of_writer_mem_held hheld).symm

theorem nodup_held (h : l.Tracks ds calls m) : l.held.Nodup := by
  have hne := ds.reader_ne_writer m m
  rw [Link.held, h.reader, h.writer]
  split_ifs <;> simp [hne.symm]

end Tracks

end Link

/-- What a link shows is held, if its pipe is one of those on the ledger. -/
theorem World.Leads.held_of_tracks {w₀ w : World} {calls : List Call} {m d : Nat} {l : Link}
    (h : w₀.Leads calls w) (htracks : l.Tracks w₀.machine.descriptors calls m)
    (hlower : w₀.pipes ≤ m) (hupper : m < w.pipes) (hmem : d ∈ l.held) : Held calls d := by
  obtain ⟨heither, hopened⟩ := htracks.mem_held_iff.1 hmem
  exact ⟨h.mem_made_iff.2 ⟨m, hlower, hupper, heither⟩, hopened⟩

end Pipework
