import Pipework.Proofs.Session.Footprint
import Pipework.Proofs.Session.Revisions

/-!
# Handles in a session

However long a session goes on, each handle in a register finds its processes in the world, and no
two registers hold handles with a process in common. For only a start brings a handle about, whose
processes are new, and whoever is asked for something leaves the processes of others as they are.

## Main definitions

* `Item.Sound` — a handle finds its processes, and an executor can read
* `Item.Apart` — items have no process in common
* `Session.Housed` — the items in the registers are sound and apart from one another

## Main results

* `Item.Sound.perform`, `Query.sound_perform` — a reply leaves other items and the own item sound
* `Session.Housed.execute`, `Session.Housed.run` — a session stays housed
-/

namespace Pipework

open World (Revision)

variable {w w' : World} {x y : Item}

/-- A handle finds its processes in the world, and an executor reads something at a time. -/
def Item.Sound (w : World) : Item → Prop
  | .handle h => ∃ pid ps, h.children = Process.children pid ps ∧ w.Knows pid ps
  | .executor e => 0 < e.chunkSize
  | _ => True

/-- The items are not handles with a process in common. -/
def Item.Apart : Item → Item → Prop
  | .handle h, .handle h' => ∀ c ∈ h.children, ∀ c' ∈ h'.children, c.pid ≠ c'.pid
  | _, _ => True

namespace Item

theorem IsPlain.sound (hplain : x.IsPlain) (w : World) : x.Sound w := by
  cases x with
  | handle h => exact hplain.elim
  | executor e => exact hplain.elim
  | _ => trivial

theorem IsPlain.apart (hplain : x.IsPlain) (y : Item) : x.Apart y := by
  cases x with
  | handle h => exact hplain.elim
  | _ => trivial

theorem Apart.symm (h : x.Apart y) : y.Apart x := by
  cases x with
  | handle h' =>
    cases y with
    | handle h'' => exact fun c hmem c' hmem' heq => h c' hmem' c hmem heq.symm
    | _ => trivial
  | _ => cases y <;> trivial

theorem apart_of_forall_ne (hother : ∀ h, y ≠ .handle h) (x : Item) : x.Apart y := by
  cases x with
  | handle h =>
    cases y with
    | handle h' => exact absurd rfl (hother h')
    | _ => trivial
  | _ => trivial

/-- An item has nothing to do with the past of a handle exactly if the two are apart. -/
theorem spares_iff_apart {r : Revision} {h : Handle}
    (hchildren : h.children = Process.children r.pid r.olds) :
    x.Spares r ↔ x.Apart (.handle h) := by
  have hcovers (n : Nat) : r.Covers n ↔ ∃ c ∈ h.children, c.pid = n := by
    rw [hchildren]
    constructor
    · rintro ⟨habove, hbelow⟩
      have hlt : n - r.pid < r.olds.length := by omega
      refine ⟨r.olds[n - r.pid].child n, List.mem_mapIdx.2 ⟨n - r.pid, hlt, ?_⟩, rfl⟩
      rw [Nat.add_sub_cancel' habove]
    · rintro ⟨c, hmem, rfl⟩
      obtain ⟨j, hlt, rfl⟩ := List.mem_mapIdx.1 hmem
      exact ⟨Nat.le_add_right _ _, Nat.add_lt_add_left hlt _⟩
  -- Only a handle has children, so that everything else is spared and apart.
  cases x with
  | handle h' =>
    constructor
    · intro hspares c hmem c' hmem' heq
      exact hspares c hmem ((hcovers _).2 ⟨c', hmem', heq.symm⟩)
    · intro hapart c hmem hcovered
      obtain ⟨c', hmem', heq⟩ := (hcovers _).1 hcovered
      exact hapart c hmem c' hmem' heq.symm
  | _ => exact iff_of_true trivial trivial

end Item

/-- Leaving the past of processes as it was. -/
def World.Revision.still (pid : Nat) (ps : List Process) : Revision where
  callCount := 0
  calls := []
  noteCount := 0
  notes := []
  pid := pid
  olds := ps
  news := ps
  faces := rfl

theorem World.Revision.meets_still {pid : Nat} {ps : List Process} :
    (still pid ps).Meets w ↔ w.Knows pid ps :=
  ⟨fun hmeets => hmeets.knows, fun hknown => ⟨Nat.zero_le _, Nat.zero_le _, hknown⟩⟩

/-! ### Replies -/

namespace Item.Sound

/-- Making something leaves every item sound. -/
theorem make (hsound : y.Sound w) (m : Maker Item) : y.Sound (m.perform.outcome w).2 := by
  cases y with
  | handle h =>
    obtain ⟨pid, ps, hchildren, hknown⟩ := hsound
    have hrespects := m.respects_perform (r := .still pid ps)
    exact ⟨pid, ps, hchildren, (hrespects.keeps w (Revision.meets_still.2 hknown)).knows⟩
  | _ => exact hsound

/-- A reply leaves every item sound that is apart from the one that was asked, and what comes of it
is apart from that item. -/
theorem perform (hsound : y.Sound w) (hapart : x.Apart y) (q : Query Item) :
    y.Sound ((q.perform x).run w).2 ∧ ((q.perform x).run w).1.2.Apart y ∧
      Gives (fun answer => answer.Apart y) ((q.perform x).run w).1.1 := by
  cases y with
  | handle h =>
    obtain ⟨pid, ps, hchildren, hknown⟩ := hsound
    have hiff {z : Item} : z.Spares (.still pid ps) ↔ z.Apart (.handle h) :=
      spares_iff_apart hchildren
    have hrespects := Query.respects_perform (hiff.2 hapart) q
    have hmeets := Revision.meets_still.2 hknown
    obtain ⟨hgiven, hobject⟩ := hrespects.answer w hmeets
    exact ⟨⟨pid, ps, hchildren, (hrespects.keeps w hmeets).knows⟩, hiff.1 hobject,
      hgiven.mono fun _ => hiff.1⟩
  | _ =>
    exact ⟨hsound, apart_of_forall_ne (by simp) _, .of_forall (apart_of_forall_ne (by simp)) _⟩

end Item.Sound

/-- What is made is sound, and apart from everything. -/
theorem Maker.sound_perform (m : Maker Item) (w : World) :
    Gives (fun x => x.Sound (m.perform.outcome w).2 ∧ ∀ y, x.Apart y) (m.perform.outcome w).1 := by
  cases m with
  | link index =>
    rw [outcome_perform_link]
    cases w.machine.pipeFailure w.pipeCalls with
    | none => exact ⟨trivial, fun _ => trivial⟩
    | some f => trivial
  | executor captureStderr chunkSize =>
    change Gives _ ((orFault (Executor.make captureStderr chunkSize)).map Item.executor)
    unfold Executor.make
    split
    · trivial
    · next hpos => exact ⟨show 0 < chunkSize.toNat by omega, fun _ => trivial⟩
  | _ => exact .map fun _ => ⟨trivial, fun _ => trivial⟩

namespace Query

variable {q : Query Item}

/-- A pipeline is only run by an executor that reads something at a time. -/
theorem chunkSize_pos_of_runner? {e : Executor} {p : Pipeline} (hsound : x.Sound w)
    (hoperands : ∀ y ∈ q.operands, y.Sound w) (hruns : q.runner? x = some (e, p)) :
    0 < e.chunkSize := by
  cases q with
  | spawn captured partner | output partner =>
    simp only [runner?] at hruns
    split at hruns
    · obtain ⟨rfl, rfl⟩ := Prod.mk.inj (Option.some.inj hruns)
      decide
    · obtain ⟨rfl, rfl⟩ := Prod.mk.inj (Option.some.inj hruns)
      exact hoperands _ (List.mem_singleton_self _)
    · obtain ⟨rfl, rfl⟩ := Prod.mk.inj (Option.some.inj hruns)
      exact hsound
    · cases hruns
  | _ => cases hruns

/-- What comes of running a pipeline is sound: a handle is that of processes that were started. -/
theorem sound_run {e : Executor} (hpos : 0 < e.chunkSize) (p : Pipeline) (q : Query Item)
    (w : World) : Gives (Item.Sound ((run e p q).outcome w).2) ((run e p q).outcome w).1 := by
  cases q with
  | spawn captured partner =>
    rw [run, Action.outcome_bind]
    rcases hstarted : (e.spawn captured p).outcome w with ⟨_ | h, w₁⟩
    · trivial
    · obtain ⟨rfl, -, -⟩ := Executor.exists_processes_of_spawn hpos hstarted
      exact ⟨_, _, rfl, w₁.knows_startedSince w⟩
  | output partner =>
    rw [run, Action.outcome_bind_pure]
    exact .map fun _ => trivial
  | _ => trivial

/-- A reply leaves the item sound that was asked, what it answers is sound, and the two are
apart. -/
theorem sound_perform (hsound : x.Sound w) (hoperands : ∀ y ∈ q.operands, y.Sound w) :
    ((q.perform x).run w).1.2.Sound ((q.perform x).run w).2 ∧
      Gives (fun answer => answer.Sound ((q.perform x).run w).2 ∧
        answer.Apart ((q.perform x).run w).1.2) ((q.perform x).run w).1.1 := by
  cases hruns : q.runner? x with
  | some runner =>
    -- What runs a pipeline is no handle, and stays as it is.
    obtain ⟨e, p⟩ := runner
    have hpos := chunkSize_pos_of_runner? hsound hoperands hruns
    have hidle (h : Handle) : x ≠ .handle h := by
      rintro rfl
      rw [runner?_handle] at hruns
      cases hruns
    have hkept (w' : World) : x.Sound w' := by
      cases x with
      | handle h => exact absurd rfl (hidle h)
      | _ => exact hsound
    rw [perform_of_runner hruns]
    refine ⟨hkept _, ?_⟩
    have hstarted := sound_run hpos p q w
    exact hstarted.mono fun answer hsound => ⟨hsound, Item.apart_of_forall_ne hidle answer⟩
  | none =>
    have hgiven := gives_perform_of_none hruns w
    refine ⟨?_, hgiven.mono fun answer hplain => ⟨hplain.sound _, hplain.apart _⟩⟩
    by_cases hplain : x.IsPlain
    · exact (isPlain_perform hplain q w).sound _
    · cases x with
      | handle h =>
        obtain ⟨pid, ps, hchildren, hknown⟩ := hsound
        obtain ⟨reply, h', qs, cs, hchildren', -, htreats⟩ := Handle.exists_treats hchildren q
        obtain ⟨w', hreplied, htreated, -⟩ := htreats w hknown
        rw [run_perform_handle, hreplied]
        exact ⟨pid, qs, hchildren', htreated.self⟩
      | executor e =>
        unfold perform
        rw [hruns]
        exact hsound
      | link l =>
        unfold perform
        rw [hruns]
        trivial
      | _ => exact absurd trivial hplain

end Query

/-! ### Sessions -/

namespace Session

variable {s : Session}

/-- The items in the registers are sound and apart from one another. -/
structure Housed (s : Session) : Prop where
  sound : ∀ name x, s.registers.lookup name = some x → x.Sound s.world
  apart : ∀ name other x y, s.registers.lookup name = some x → s.registers.lookup other = some y →
    name ≠ other → x.Apart y

namespace Housed

theorem begin (machine : Machine) : Housed { world := { machine } } where
  sound _ _ hget := by simp at hget
  apart _ _ _ _ hget := by simp at hget

/-- A sound item may be put into a register, if the items in the other ones are sound and apart
from it. -/
theorem put (h : s.Housed) {name : String} (hsound : x.Sound w)
    (hothers : ∀ other y, other ≠ name → s.registers.lookup other = some y →
      y.Sound w ∧ x.Apart y) :
    Housed ⟨s.registers.put name x, w⟩ := by
  have holder {n : String} {y : Item} (hget : (s.registers.put name x).lookup n = some y)
      (haway : n ≠ name) : s.registers.lookup n = some y := by
    rwa [Registers.lookup_put_of_ne _ _ haway] at hget
  have hnewer {y : Item} (hget : (s.registers.put name x).lookup name = some y) : y = x := by
    rw [Registers.lookup_put_self] at hget
    exact (Option.some.inj hget).symm
  -- Each register holds what it held, or it is the one that is put.
  constructor
  · intro n y hget
    by_cases hhere : n = name
    · subst hhere
      exact hnewer hget ▸ hsound
    · exact (hothers n y hhere (holder hget hhere)).1
  · intro n m y z hget hget' hne
    by_cases hhere : n = name
    · subst hhere
      exact hnewer hget ▸ (hothers m z hne.symm (holder hget' hne.symm)).2
    · by_cases hhere' : m = name
      · subst hhere'
        exact hnewer hget' ▸ (hothers n y hhere (holder hget hhere)).2.symm
      · exact h.apart n m y z (holder hget hhere) (holder hget' hhere') hne

/-- A sound answer settles the session, if it is apart from the items in the registers. -/
theorem settle (h : s.Housed) (target : Option String) {reply : Except Failure Item}
    (hgiven : Gives (fun x => x.Sound s.world ∧
      ∀ name y, s.registers.lookup name = some y → x.Apart y) reply) :
    (s.settle target reply).2.Housed := by
  cases reply with
  | error f => exact h
  | ok x =>
    cases target with
    | none => exact h
    | some name =>
      exact h.put hgiven.1 fun other y _ hget => ⟨h.sound other y hget, hgiven.2 other y hget⟩

/-- Operands are sound. -/
theorem operand (h : s.Housed) {o : Operand} (hlooked : s.registers.operand o = .ok x) :
    x.Sound s.world := by
  cases o with
  | value v =>
    obtain rfl := Except.ok.inj hlooked
    trivial
  | register name => exact h.sound name x (Registers.lookup_of_get hlooked)

/-- A step leaves a session housed. -/
theorem execute (h : s.Housed) (step : Step) : (s.execute step).2.Housed := by
  obtain ⟨request, target⟩ := step
  cases request with
  | make m =>
    simp only [Session.execute]
    cases m.resolve s.registers.operand with
    | error name => exact h
    | ok m =>
      dsimp only
      rw [make_eq]
      have hmade := m.sound_perform s.world
      have hhoused : Housed { s with world := (m.perform.outcome s.world).2 } :=
        ⟨fun name x hget => (h.sound name x hget).make m, h.apart⟩
      refine hhoused.settle target ?_
      exact hmade.mono fun x hfine => ⟨hfine.1, fun _ y _ => hfine.2 y⟩
  | ask register q =>
    simp only [Session.execute]
    cases hheld : s.registers.get register with
    | error name => exact h
    | ok x =>
      cases hresolved : q.resolve s.registers.operand with
      | error name => exact h
      | ok q' =>
        dsimp only
        rw [ask_eq]
        have hget := Registers.lookup_of_get hheld
        have hoperands : ∀ y ∈ q'.operands, y.Sound s.world := by
          intro y hmem
          obtain ⟨o, -, hlooked⟩ := Query.exists_of_mem_operands hresolved hmem
          exact h.operand hlooked
        obtain ⟨hobject, hanswer⟩ := Query.sound_perform (h.sound register x hget) hoperands
        -- The other items are left as they are, and stay apart from what was asked.
        have hothers (name : String) (y : Item) (haway : name ≠ register)
            (hget' : s.registers.lookup name = some y) :=
          (h.sound name y hget').perform (h.apart register name x y hget hget' haway.symm) q'
        have hhoused : Housed ⟨s.registers.put register ((q'.perform x).run s.world).1.2,
            ((q'.perform x).run s.world).2⟩ :=
          h.put hobject fun name y haway hget' =>
            ⟨(hothers name y haway hget').1, (hothers name y haway hget').2.1⟩
        refine hhoused.settle target ?_
        generalize hreply : ((q'.perform x).run s.world).1.1 = result at hanswer hothers
        cases result with
        | error f => trivial
        | ok z =>
          refine ⟨hanswer.1, fun name y hget' => ?_⟩
          dsimp only at hget'
          by_cases hhere : name = register
          · subst hhere
            rw [Registers.lookup_put_self] at hget'
            exact Option.some.inj hget' ▸ hanswer.2
          · rw [Registers.lookup_put_of_ne _ _ hhere] at hget'
            exact (hothers name y hhere hget').2.2

/-- A session that is housed stays so. -/
theorem run (h : s.Housed) (steps : List Step) : (s.run steps).2.Housed := by
  induction steps generalizing s with
  | nil => exact h
  | cons first steps ih => exact ih (h.execute first)

end Housed

end Session

end Pipework
