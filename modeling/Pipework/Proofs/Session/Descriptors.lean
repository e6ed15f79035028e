import Mathlib.Logic.Function.Basic
import Pipework.Proofs.Session.Replies
import Pipework.Session.Run

/-!
# Descriptors in a session

However long a session goes on, and whatever the system answers, its record is in order: nothing is
closed or handed to a process that was not brought before, or that was closed before. Each link in
a register is on a pipe of its own. It shows exactly those ends of its pipe that were not closed,
and when it is asked for something, then no other descriptor is closed. What the links of a start
do is confined to the pipes that the same start has made.

The pipe that a link is on is not to be seen in the link. It is followed from the step that made
the link.

## Main definitions

* `Session.origins` — the pipes of the links in the registers
* `Session.asked?` — the link that a step is asked of
* `Session.Accounted` — the record and the links in the registers are as they should be

## Main results

* `Session.Accounted.step`, `Session.accounted_run` — a session stays accounted for
* `Session.exists_step_calls` — what a step closes and hands on
* `Session.descriptors_safe` — both together, with the links of any start in the session
-/

namespace Pipework

/-- What a register holds is what is looked up in it. -/
theorem Registers.lookup_of_get {rs : Registers} {name : String} {x : Item}
    (hheld : rs.get name = .ok x) : rs.lookup name = some x := by
  unfold get at hheld
  split at hheld
  · next y hfound => rw [hfound, Except.ok.inj hheld]
  · cases hheld

theorem Registers.get_of_lookup {rs : Registers} {name : String} {x : Item}
    (hget : rs.lookup name = some x) : rs.get name = .ok x := by
  rw [get, hget]

/-- Looking up the operands of a maker makes no link of it. -/
theorem Maker.ne_link_of_resolve {ρ τ ε : Type} {look : ρ → Except ε τ} {m : Maker ρ}
    {m' : Maker τ} (hother : ∀ index, m ≠ .link index) (hresolved : m.resolve look = .ok m')
    (index : Int) : m' ≠ .link index := by
  cases m with
  | link index' => exact absurd rfl (hother index')
  | pipeline stages =>
    cases hlooked : stages.mapM look with
    | error e => simp [resolve, hlooked, bind, Except.bind] at hresolved
    | ok xs =>
      obtain rfl : Maker.pipeline xs = m' := by
        simpa [resolve, hlooked, bind, Except.bind, pure, Except.pure] using hresolved
      exact nofun
  | _ =>
    obtain rfl := Except.ok.inj hresolved
    exact nofun

namespace Session

variable {machine : Machine} {origin : String → Nat} {s : Session} {w' : World} {name : String}
  {l l' : Link} {x : Item}

/-- The pipes of the links in the registers, after one more step. -/
def originsAfter (s : Session) (origin : String → Nat) (step : Step) : String → Nat :=
  match step.request, step.target with
  | .make (.link _), some name =>
    if (s.world.machine.pipeFailure s.world.pipeCalls).isSome then origin
    else Function.update origin name s.world.pipes
  | _, _ => origin

/-- The pipes of the links in the registers, after some more steps. -/
def origins (s : Session) (origin : String → Nat) : List Step → String → Nat
  | [] => origin
  | step :: steps => (s.step step).2.origins (s.originsAfter origin step) steps

/-- The link that a step is asked of, with its register. -/
def asked? (s : Session) (step : Step) : Option (String × Link) :=
  match step.request with
  | .make _ => none
  | .ask name _ =>
    match s.registers.lookup name with
    | some (.link l) => some (name, l)
    | _ => none

theorem lookup_of_asked {step : Step} (hasked : s.asked? step = some (name, l)) :
    s.registers.lookup name = some (.link l) := by
  unfold asked? at hasked
  split at hasked
  · cases hasked
  · split at hasked
    · next l' hfound =>
      obtain ⟨rfl, rfl⟩ := Prod.mk.inj (Option.some.inj hasked)
      exact hfound
    · cases hasked

/-- The record of a session is in order, and each link in a register agrees with it on a pipe of
its own. -/
structure Accounted (machine : Machine) (origin : String → Nat) (s : Session) : Prop where
  leads : World.Leads { machine } s.world.calls s.world
  below : ∀ name l, s.registers.lookup name = some (.link l) → origin name < s.world.pipes
  tracks : ∀ name l, s.registers.lookup name = some (.link l) →
    l.Tracks machine.descriptors s.world.calls (origin name)
  distinct : ∀ name other l l', s.registers.lookup name = some (.link l) →
    s.registers.lookup other = some (.link l') → origin name = origin other → name = other

/-- A report takes nothing away from what a step does. -/
theorem step_snd (s : Session) (step : Step) : (s.step step).2 = (s.execute step).2 := rfl

theorem make_eq (s : Session) (target : Option String) (m : Maker Item) :
    s.make target m =
      settle { s with world := (m.perform.outcome s.world).2 } target
        (m.perform.outcome s.world).1 := rfl

theorem ask_eq (s : Session) (target : Option String) (name : String) (x : Item)
    (q : Query Item) :
    s.ask target name x q =
      settle ⟨s.registers.put name ((q.perform x).run s.world).1.2,
        ((q.perform x).run s.world).2⟩ target ((q.perform x).run s.world).1.1 := rfl

@[simp] theorem world_settle (s : Session) (target : Option String)
    (reply : Except Failure Item) : (s.settle target reply).2.world = s.world := by
  cases reply with
  | error f => rfl
  | ok x => cases target <;> rfl

namespace Accounted

theorem begin (machine : Machine) (origin : String → Nat) :
    Accounted machine origin { world := { machine } } where
  leads := .refl _
  below _ _ hget := by simp at hget
  tracks _ _ hget := by simp at hget
  distinct _ _ _ _ hget := by simp at hget

/-- Calls that deal only with pipes of their own change no link. -/
theorem append (h : Accounted machine origin s) {calls : List Call}
    (hleads : s.world.Leads calls w') : Accounted machine origin { s with world := w' } where
  leads := by
    have hall := h.leads.trans hleads
    rwa [← hleads.record] at hall
  below name l hget := Nat.lt_of_lt_of_le (h.below name l hget) hleads.pipes
  tracks name l hget := by
    have hbelow := h.below name l hget
    have hsame : s.world.machine = machine := h.leads.machine
    -- The pipe of the link is older than those that the calls deal with.
    obtain ⟨hreader, hwriter⟩ := hleads.ends_not_closed (.inl hbelow)
    rw [hsame] at hreader hwriter
    rw [hleads.record]
    exact (h.tracks name l hget).append hreader hwriter
  distinct := h.distinct

/-- Only links are accounted for. -/
theorem put (h : Accounted machine origin s) (hother : ¬ x.IsLink) (name : String) :
    Accounted machine origin { s with registers := s.registers.put name x } := by
  have hbefore : ∀ {name' l}, (s.registers.put name x).lookup name' = some (.link l) →
      s.registers.lookup name' = some (.link l) := by
    intro name' l hget
    by_cases hsame : name' = name
    · subst hsame
      rw [Registers.lookup_put_self] at hget
      obtain rfl := Option.some.inj hget
      exact absurd trivial hother
    · rwa [Registers.lookup_put_of_ne _ _ hsame] at hget
  exact ⟨h.leads, fun name' l hget => h.below name' l (hbefore hget),
    fun name' l hget => h.tracks name' l (hbefore hget),
    fun a b l l' hget hget' => h.distinct a b l l' (hbefore hget) (hbefore hget')⟩

/-- An answer that is no link may be put into a register. -/
theorem settle (h : Accounted machine origin s) (target : Option String)
    {reply : Except Failure Item} (hgiven : Gives (fun answer => ¬ answer.IsLink) reply) :
    Accounted machine origin (s.settle target reply).2 := by
  cases reply with
  | error f => exact h
  | ok x =>
    cases target with
    | none => exact h
    | some name => exact h.put hgiven name

/-- A link may give up what it shows. -/
theorem release (h : Accounted machine origin s) {ds : List Nat}
    (hget : s.registers.lookup name = some (.link l)) (hrelease : s.world.Releases ds w')
    (hsublist : ds.Sublist l.held)
    (htracks : l'.Tracks machine.descriptors (s.world.calls ++ ds.map .close) (origin name)) :
    Accounted machine origin ⟨s.registers.put name (.link l'), w'⟩ := by
  have hown := h.tracks name l hget
  have hheld : ∀ d ∈ ds, Call.Held s.world.calls d := fun d hmem =>
    h.leads.held_of_tracks hown (Nat.zero_le _) (h.below name l hget) (hsublist.subset hmem)
  have hleads := h.leads.releases hrelease hheld (hown.nodup_held.sublist hsublist)
  rw [← hrelease.calls] at hleads htracks
  refine ⟨hleads, fun other link hfound => ?_, fun other link hfound => ?_,
    fun a b la lb hfounda hfoundb => ?_⟩
  · rw [hrelease.pipes]
    by_cases hsame : other = name
    · exact hsame ▸ h.below name l hget
    · rw [Registers.lookup_put_of_ne _ _ hsame] at hfound
      exact h.below other link hfound
  · by_cases hsame : other = name
    · subst hsame
      rw [Registers.lookup_put_self] at hfound
      obtain rfl := Item.link.inj (Option.some.inj hfound)
      exact htracks
    · -- The link of another register is on another pipe, whose ends are not among these.
      rw [Registers.lookup_put_of_ne _ _ hsame] at hfound
      have hapart : origin other ≠ origin name := fun heq =>
        hsame (h.distinct other name link l hfound hget heq)
      rw [hrelease.calls]
      exact (h.tracks other link hfound).append_others fun d hmem =>
        ⟨origin name, l, s.world.calls, hapart.symm, hown, hsublist.subset hmem⟩
  · -- The registers that hold links are the same as before.
    have hbefore : ∀ {c lc}, (s.registers.put name (.link l')).lookup c = some (.link lc) →
        ∃ link, s.registers.lookup c = some (.link link) := by
      intro c lc hfound
      by_cases hsame : c = name
      · exact ⟨l, hsame ▸ hget⟩
      · exact ⟨lc, by rwa [Registers.lookup_put_of_ne _ _ hsame] at hfound⟩
    obtain ⟨la', hfounda'⟩ := hbefore hfounda
    obtain ⟨lb', hfoundb'⟩ := hbefore hfoundb
    exact h.distinct a b la' lb' hfounda' hfoundb'

/-- A new link is on a new pipe. -/
theorem make (h : Accounted machine origin s) (name : String) (index : Int) :
    Accounted machine (Function.update origin name s.world.pipes)
      ⟨s.registers.put name (.link ⟨index, some s.world.nextReader, some s.world.nextWriter⟩),
        s.world.piped⟩ := by
  have hpiped := h.append (.piped s.world)
  have hsame : s.world.machine = machine := h.leads.machine
  have hnotClosed : ∀ d, Call.close d ∈ s.world.piped.calls → Call.close d ∈ s.world.calls := by
    intro d hclosed
    simpa [World.piped, World.log] using hclosed
  -- A register with a link is the one of the new link, or it is as it was before.
  have hbefore : ∀ {other link}, (s.registers.put name
      (.link ⟨index, some s.world.nextReader, some s.world.nextWriter⟩)).lookup other =
        some (.link link) → other ≠ name → s.registers.lookup other = some (.link link) := by
    intro other link hfound hne
    rwa [Registers.lookup_put_of_ne _ _ hne] at hfound
  refine ⟨hpiped.leads, fun other link hfound => ?_, fun other link hfound => ?_,
    fun a b la lb hfounda hfoundb heq => ?_⟩
  · change Function.update origin name s.world.pipes other < s.world.pipes + 1
    by_cases hhere : other = name
    · rw [hhere, Function.update_self]
      exact Nat.lt_succ_self _
    · rw [Function.update_of_ne hhere]
      exact Nat.lt_succ_of_lt (h.below other link (hbefore hfound hhere))
  · by_cases hhere : other = name
    · subst hhere
      rw [Registers.lookup_put_self] at hfound
      obtain rfl := Item.link.inj (Option.some.inj hfound)
      obtain ⟨hreader, hwriter⟩ := h.leads.ends_not_closed (.inr (Nat.le_refl s.world.pipes))
      rw [Function.update_self, World.nextReader, World.nextWriter, hsame]
      exact .made index (fun hclosed => hreader (hnotClosed _ hclosed))
        fun hclosed => hwriter (hnotClosed _ hclosed)
    · rw [Function.update_of_ne hhere]
      exact hpiped.tracks other link (hbefore hfound hhere)
  · by_cases ha : a = name
    · by_cases hb : b = name
      · rw [ha, hb]
      · rw [ha, Function.update_self, Function.update_of_ne hb] at heq
        exact absurd heq (Nat.ne_of_gt (h.below b lb (hbefore hfoundb hb)))
    · by_cases hb : b = name
      · rw [hb, Function.update_self, Function.update_of_ne ha] at heq
        exact absurd heq (Nat.ne_of_lt (h.below a la (hbefore hfounda ha)))
      · rw [Function.update_of_ne ha, Function.update_of_ne hb] at heq
        exact h.distinct a b la lb (hbefore hfounda ha) (hbefore hfoundb hb) heq

/-- Making anything but a link brings no link about. -/
theorem make_of_ne (h : Accounted machine origin s) {m : Maker Item}
    (hother : ∀ index, m ≠ .link index) (target : Option String) :
    Accounted machine origin (s.make target m).2 := by
  obtain ⟨hworld, hgiven⟩ := m.outcome_perform_of_ne hother s.world
  rw [make_eq, hworld]
  exact h.settle target hgiven

/-- Whatever is asked of the item in a register, links and record stay in agreement. -/
theorem ask (h : Accounted machine origin s) (hget : s.registers.lookup name = some x)
    (target : Option String) (q : Query Item) :
    Accounted machine origin (s.ask target name x q).2 := by
  rw [ask_eq]
  refine Accounted.settle ?_ target (Query.gives_perform q x s.world)
  -- A link is put back with what is left of it, and no other item is put back as a link.
  by_cases hisLink : x.IsLink
  · cases x <;> try exact absurd hisLink id
    rename_i l
    obtain ⟨ds, l', hobject, hrelease, hsublist, htracks⟩ :=
      Query.exists_releases_perform q l s.world
    rw [hobject]
    exact h.release hget hrelease hsublist (htracks (h.tracks name l hget))
  · obtain ⟨calls, hleads⟩ := Query.exists_leads_perform hisLink q s.world
    exact (h.append hleads).put (Query.not_isLink_perform hisLink q s.world) name

/-- One step leaves links and record in agreement. -/
theorem step (h : Accounted machine origin s) (step : Step) :
    Accounted machine (s.originsAfter origin step) (s.step step).2 := by
  obtain ⟨request, target⟩ := step
  cases request with
  | ask name q =>
    change Accounted machine origin (s.step ⟨.ask name q, target⟩).2
    rw [step_snd, execute]
    dsimp only
    cases hheld : s.registers.get name with
    | error _ => exact h
    | ok x =>
      cases q.resolve s.registers.operand with
      | error _ => exact h
      | ok q => exact h.ask (Registers.lookup_of_get hheld) target q
  | make m =>
    -- Where links come from changes only when a link is made and put into a register.
    by_cases hlink : ∃ index, m = .link index
    · obtain ⟨index, rfl⟩ := hlink
      change Accounted machine _ (s.make target (.link index)).2
      rw [make_eq, Maker.outcome_perform_link]
      cases hpipe : s.world.machine.pipeFailure s.world.pipeCalls with
      | some f =>
        have hsame : s.originsAfter origin ⟨.make (.link index), target⟩ = origin := by
          cases target <;> simp [originsAfter, hpipe]
        rw [hsame]
        exact h.append (.unpiped s.world)
      | none =>
        cases target with
        | none => exact h.append (.piped s.world)
        | some name =>
          have hfresh : s.originsAfter origin ⟨.make (.link index), some name⟩ =
              Function.update origin name s.world.pipes := by
            simp [originsAfter, hpipe]
          rw [hfresh]
          exact h.make name index
    · have hother : ∀ index, m ≠ .link index := fun index heq => hlink ⟨index, heq⟩
      have hsame : s.originsAfter origin ⟨.make m, target⟩ = origin := by
        cases m with
        | link index => exact absurd rfl (hother index)
        | _ => rfl
      rw [hsame, step_snd, execute]
      dsimp only
      cases hresolved : m.resolve s.registers.operand with
      | error _ => exact h
      | ok m' => exact h.make_of_ne (Maker.ne_link_of_resolve hother hresolved) target

end Accounted

/-- A session stays accounted for, step by step. -/
theorem accounted_run (h : Accounted machine origin s) (steps : List Step) :
    Accounted machine (s.origins origin steps) (s.run steps).2 := by
  induction steps generalizing s origin with
  | nil => exact h
  | cons step steps ih => exact ih (h.step step)

/-- A step makes calls that deal only with pipes of their own, or it is asked of a link, and then
it only gives up what that link shows. -/
theorem step_effect (s : Session) (step : Step) :
    (∃ calls, s.world.Leads calls (s.step step).2.world) ∨
      ∃ name l ds, s.asked? step = some (name, l) ∧
        s.world.Releases ds (s.step step).2.world ∧ ds.Sublist l.held := by
  obtain ⟨request, target⟩ := step
  cases request with
  | ask name q =>
    rw [step_snd, execute]
    dsimp only
    cases hheld : s.registers.get name with
    | error _ => exact .inl ⟨[], .refl s.world⟩
    | ok x =>
      cases q.resolve s.registers.operand with
      | error _ => exact .inl ⟨[], .refl s.world⟩
      | ok q =>
        dsimp only
        rw [ask_eq, world_settle]
        by_cases hisLink : x.IsLink
        · cases x <;> try exact absurd hisLink id
          rename_i l
          obtain ⟨ds, -, -, hrelease, hsublist, -⟩ := Query.exists_releases_perform q l s.world
          refine .inr ⟨name, l, ds, ?_, hrelease, hsublist⟩
          simp [asked?, Registers.lookup_of_get hheld]
        · exact .inl (Query.exists_leads_perform hisLink q s.world)
  | make m =>
    left
    rw [step_snd, execute]
    dsimp only
    cases m.resolve s.registers.operand with
    | error _ => exact ⟨[], .refl s.world⟩
    | ok m =>
      dsimp only
      rw [make_eq, world_settle]
      exact m.exists_leads_perform s.world

/-- What a step closes and hands to processes: what the same step has brought and not closed yet,
or an end that is closed of the link that the step is asked of. -/
theorem exists_step_calls (h : Accounted machine origin s) (step : Step) :
    ∃ calls, (s.step step).2.world.calls = s.world.calls ++ calls ∧
      ∀ before c after, calls = before ++ c :: after → ∀ d ∈ c.used, Call.Held before d ∨
        ∃ name l, s.asked? step = some (name, l) ∧ c = .close d ∧
          (d = machine.descriptors.reader (origin name) ∨
            d = machine.descriptors.writer (origin name)) := by
  rcases s.step_effect step with ⟨calls, hleads⟩ | ⟨name, l, ds, hasked, hrelease, hsublist⟩
  · exact ⟨calls, hleads.record, fun before c after hsplit d hused =>
      .inl (hleads.orderly before c after hsplit d hused)⟩
  · refine ⟨ds.map .close, hrelease.calls, fun before c after hsplit d hused => .inr ?_⟩
    obtain ⟨d', hmem, rfl⟩ := List.mem_map.1 (show c ∈ ds.map Call.close by simp [hsplit])
    obtain rfl : d = d' := by simpa [Call.used, Call.dropped, Call.wired] using hused
    have hown := h.tracks name l (lookup_of_asked hasked)
    exact ⟨name, l, hasked, rfl, (hown.mem_held_iff.1 (hsublist.subset hmem)).1⟩

/-- The descriptors of a session are safe, however long it has gone on and whatever the system has
answered. With one more step the record is still in order, and what that step closes or hands on
belongs to it. Each link in a register is on a pipe of its own, and shows what was not closed of
it. A start that begins now comes by moves to where it stops, and after each of them its links are
on pipes of their own as well. -/
theorem descriptors_safe (machine : Machine) (steps : List Step) (step : Step) :
    let begin : Session := { world := { machine } }
    let s := (begin.run steps).2
    let origin := begin.origins (fun _ => 0) steps
    let reader := machine.descriptors.reader
    let writer := machine.descriptors.writer
    Call.Orderly (s.step step).2.world.calls ∧
      (∃ calls, (s.step step).2.world.calls = s.world.calls ++ calls ∧
        ∀ before c after, calls = before ++ c :: after → ∀ d ∈ c.used, Call.Held before d ∨
          ∃ name l, s.asked? step = some (name, l) ∧ c = .close d ∧
            (d = reader (origin name) ∨ d = writer (origin name))) ∧
      (∀ name l, s.registers.lookup name = some (.link l) →
        .pipe (reader (origin name)) (writer (origin name)) ∈ s.world.calls ∧
          l.Tracks machine.descriptors s.world.calls (origin name)) ∧
      (∀ name other l l', s.registers.lookup name = some (.link l) →
        s.registers.lookup other = some (.link l') → origin name = origin other → name = other) ∧
      ∀ capture argvs,
        Launch.Moves { world := s.world } (Launch.stopped capture argvs s.world) ∧
          ∀ l, Launch.Moves { world := s.world } l → l.Faithful s.world.pipes := by
  intro begin s origin reader writer
  have h : Accounted machine origin s := accounted_run (Accounted.begin machine _) steps
  refine ⟨(h.step step).leads.orderly, exists_step_calls h step, fun name l hget =>
    ⟨?_, h.tracks name l hget⟩, h.distinct, fun capture argvs =>
    ⟨Launch.moves_stopped capture argvs s.world, fun l hmoves => ?_⟩⟩
  · exact (h.leads.pipe_mem_iff _ _).2 ⟨_, Nat.zero_le _, h.below name l hget, rfl, rfl⟩
  · obtain ⟨calls, hbalanced⟩ := hmoves.exists_balanced
    refine hbalanced.faithful fun m habove => ?_
    rw [h.leads.machine]
    exact h.leads.ends_not_closed (.inr habove)

end Session

end Pipework
