import Pipework.Proofs.Run.Bystanders
import Pipework.Proofs.Session.Descriptors
import Pipework.Proofs.Session.Operands

/-!
# Revisions in a session

The past of a pipeline may be rewritten in the middle of a session. The steps that deal with other
things answer the same then and make the same calls, as long as they do not look at what the
pipeline was asked.

## Main definitions

* `Item.Spares` — the item has nothing to do with the past that is revised
* `Report.told`, `Session.told` — what came of steps, and the calls that they made
* `Session.Revised` — two sessions are the same but for a past that is revised

## Main results

* `Maker.respects_perform`, `Query.respects_perform` — replies of other items
* `Session.Revised.step`, `Session.Revised.run` — steps that deal with other things
-/

namespace Pipework

open World (Revision)

variable {r : Revision}

/-- The item is no handle of processes whose past is revised. -/
def Item.Spares (r : Revision) : Item → Prop
  | .handle h => h.Spares r
  | _ => True

theorem Item.IsPlain.spares {x : Item} (hplain : x.IsPlain) : x.Spares r := by
  cases x with
  | handle h => exact hplain.elim
  | _ => trivial

/-! ### Replies -/

/-- Making something respects a revision. -/
theorem Maker.respects_perform (m : Maker Item) :
    Action.Respects r.Meets r.revise (Item.Spares r) m.perform := by
  cases m with
  | command program args => exact .const (.map fun _ => trivial)
  | commandOfLine line => exact .const (.map fun _ => trivial)
  | pipeline stages => exact .const (.map fun _ => trivial)
  | pipelineOfLine line => exact .const (.map fun _ => trivial)
  | executor captureStderr chunkSize => exact .const (.map fun _ => trivial)
  | link index => exact ((Link.respects_make index).mapFailure _).bind fun _ _ => .pure trivial

namespace Query

variable {x : Item}

theorem respects_run (e : Executor) (p : Pipeline) (q : Query Item) :
    Action.Respects r.Meets r.revise (Item.Spares r) (run e p q) := by
  cases q with
  | spawn captured partner =>
    exact (e.respects_spawn captured p).bind fun _ hothers => .pure hothers
  | output partner => exact (e.respects_run true p).bind fun _ _ => .pure trivial
  | _ => exact .throw _

theorem respects_onHandle {h : Handle} (hothers : h.Spares r) (q : Query Item) :
    Respects r.Meets r.revise (fun reply => reply.2.Spares r) (q.onHandle h) := by
  rw [onHandle]
  cases q.ofAwaited? with
  | none => exact .pure hothers
  | some take => exact hothers.respects_wait.bind fun _ hothers' => .pure hothers'

theorem respects_onLink (l : Link) (q : Query Item) :
    Respects r.Meets r.revise (fun _ => True) (q.onLink l) := by
  cases q with
  | close => exact l.respects_close.bind fun _ _ => .pure trivial
  | block raised => exact l.respects_close.bind fun _ _ => .pure trivial
  | closeReader =>
    refine Respects.bind l.respects_closeReader fun result _ => ?_
    cases result <;> exact .pure trivial
  | closeWriter =>
    refine Respects.bind l.respects_closeWriter fun result _ => ?_
    cases result <;> exact .pure trivial
  | _ => exact .pure trivial

/-- The reply of an item that has nothing to do with a revision respects it. -/
theorem respects_perform (hother : x.Spares r) (q : Query Item) :
    Respects r.Meets r.revise (fun reply => Gives (Item.Spares r) reply.1 ∧ reply.2.Spares r)
      (q.perform x) := by
  cases hruns : q.runner? x with
  | some runner =>
    unfold perform
    rw [hruns]
    exact Respects.bind (respects_run runner.1 runner.2 q) fun _ hgiven => .pure ⟨hgiven, hother⟩
  | none =>
    have hobject : Respects r.Meets r.revise (fun reply => reply.2.Spares r) (q.perform x) := by
      unfold perform
      rw [hruns]
      cases x with
      | command c =>
        refine .pure ?_
        cases q.onCommand c <;> trivial
      | pipeline p =>
        refine .pure ?_
        cases q.onPipeline p <;> trivial
      | handle h => exact (respects_onHandle hother q).bind fun _ hothers => .pure hothers
      | link l => exact (respects_onLink l q).bind fun _ _ => .pure trivial
      | _ => exact .pure trivial
    -- Without a start the answer is plain.
    have hgiven (w : World) :=
      (gives_perform_of_none hruns w).mono fun _ hplain => hplain.spares (r := r)
    exact ⟨hobject.keeps, fun w hmeets => ⟨hgiven w, hobject.answer w hmeets⟩, hobject.run⟩

end Query

/-! ### Steps -/

/-- Registers that hold the same do so after the same was put into one of them. -/
theorem Registers.lookup_put_congr {rs rs' : Registers} {name : String}
    (hsame : rs'.lookup name = rs.lookup name) (other : String) (x : Item) :
    (rs'.put other x).lookup name = (rs.put other x).lookup name := by
  by_cases hhere : name = other
  · rw [hhere, lookup_put_self, lookup_put_self]
  · rw [lookup_put_of_ne _ _ hhere, lookup_put_of_ne _ _ hhere, hsame]

/-- What came of a step, and the calls that it made. -/
def Report.told (report : Report) : Outcome × List Call := (report.outcome, report.calls)

namespace Session

variable {own hidden : Option String} {s t : Session}

/-- What came of steps one after another, and the calls that they made. -/
def told (s : Session) (steps : List Step) : List (Outcome × List Call) :=
  (s.run steps).1.map Report.told

theorem told_cons (s : Session) (step : Step) (steps : List Step) :
    s.told (step :: steps) = (s.step step).1.told :: (s.execute step).2.told steps := rfl

theorem told_append (s : Session) (steps steps' : List Step) :
    s.told (steps ++ steps') = s.told steps ++ (s.run steps).2.told steps' := by
  induction steps generalizing s with
  | nil => rfl
  | cons step steps ih => exact congrArg (List.cons _) (ih (s.execute step).2)

@[simp] theorem length_told (s : Session) (steps : List Step) :
    (s.told steps).length = steps.length := by
  induction steps generalizing s with
  | nil => rfl
  | cons step steps ih => exact congrArg Nat.succ (ih (s.execute step).2)

/-- Two sessions are the same but for a past that is revised. There may be a register with a handle
whose past it is, and a register that holds something else. -/
structure Revised (r : Revision) (own hidden : Option String) (s t : Session) : Prop where
  meets : r.Meets s.world
  world : t.world = r.revise s.world
  same : ∀ name, some name ≠ own → some name ≠ hidden →
    t.registers.lookup name = s.registers.lookup name
  spares : ∀ name x, some name ≠ own → some name ≠ hidden →
    s.registers.lookup name = some x → x.Spares r
  outline : ∀ name, some name ≠ hidden →
    (t.registers.lookup name).map Item.outline = (s.registers.lookup name).map Item.outline

namespace Revised

/-- What is done to the world in both sessions. -/
theorem setWorld (h : Revised r own hidden s t) {w : World} (hmeets : r.Meets w) :
    Revised r own hidden { s with world := w } { t with world := r.revise w } :=
  ⟨hmeets, rfl, h.same, h.spares, h.outline⟩

/-- What has nothing to do with the revision may be put into a register of both sessions. -/
theorem put (h : Revised r own hidden s t) {x : Item} (hother : x.Spares r) (name : String) :
    Revised r own hidden { s with registers := s.registers.put name x }
      { t with registers := t.registers.put name x } := by
  refine ⟨h.meets, h.world, fun n haway hshown => ?_, fun n y haway hshown hget => ?_,
    fun n hshown => ?_⟩
  · exact Registers.lookup_put_congr (h.same n haway hshown) name x
  · by_cases hhere : n = name
    · rw [hhere, Registers.lookup_put_self] at hget
      exact Option.some.inj hget ▸ hother
    · rw [Registers.lookup_put_of_ne _ _ hhere] at hget
      exact h.spares n y haway hshown hget
  · by_cases hhere : n = name
    · rw [hhere, Registers.lookup_put_self, Registers.lookup_put_self]
    · rw [Registers.lookup_put_of_ne _ _ hhere, Registers.lookup_put_of_ne _ _ hhere]
      exact h.outline n hshown

/-- The same reply settles both sessions alike. -/
theorem settle (h : Revised r own hidden s t) (target : Option String)
    {reply : Except Failure Item} (hgiven : Gives (Item.Spares r) reply) :
    (t.settle target reply).1 = (s.settle target reply).1 ∧
      Revised r own hidden (s.settle target reply).2 (t.settle target reply).2 := by
  cases reply with
  | error f => exact ⟨rfl, h⟩
  | ok x =>
    cases target with
    | none => exact ⟨rfl, h⟩
    | some name => exact ⟨rfl, h.put hgiven name⟩

/-- Operands that may be looked at have the same outlines. -/
theorem operand (h : Revised r own hidden s t) {o : Operand}
    (hshown : ∀ name, o.register? = some name → some name ≠ hidden) :
    (t.registers.operand o).map Item.outline = (s.registers.operand o).map Item.outline := by
  cases o with
  | value v => rfl
  | register name =>
    have houtline := h.outline name (hshown name rfl)
    rw [Registers.operand, Registers.operand, Registers.get, Registers.get]
    cases hget : s.registers.lookup name with
    | none =>
      rw [hget, Option.map_none, Option.map_eq_none_iff] at houtline
      rw [houtline]
    | some x =>
      rw [hget, Option.map_some] at houtline
      obtain ⟨y, hget', hsame⟩ := Option.map_eq_some_iff.1 houtline
      rw [hget']
      exact congrArg Except.ok hsame

theorem execute (h : Revised r own hidden s t) (step : Step)
    (haway : ∀ name, own = some name → step.query? name = none)
    (hshown : ∀ name ∈ step.reads, some name ≠ hidden) :
    (t.execute step).1 = (s.execute step).1 ∧
      Revised r own hidden (s.execute step).2 (t.execute step).2 := by
  obtain ⟨request, target⟩ := step
  cases request with
  | make m =>
    have halike : ∀ o ∈ m.operands,
        (t.registers.operand o).map Item.outline = (s.registers.operand o).map Item.outline :=
      fun o hmem => h.operand fun name hregister =>
        hshown name (List.mem_filterMap.2 ⟨o, hmem, hregister⟩)
    simp only [Session.execute]
    rcases cases_of_map_eq (Maker.resolve_perform halike) with
      ⟨e, hresolved', hresolved⟩ | ⟨m', m₁, hresolved', hresolved, hsame⟩
    · rw [hresolved', hresolved]
      exact ⟨rfl, h⟩
    · rw [hresolved', hresolved]
      have hrespects := m₁.respects_perform (r := r)
      have hmade : m₁.perform.outcome (r.revise s.world) = _ := hrespects.run s.world h.meets
      simp only [Session.make, hsame, h.world, hmade]
      exact (h.setWorld (hrespects.keeps _ h.meets)).settle target (hrespects.answer _ h.meets)
  | ask register q =>
    have hasked : some register ≠ own :=
      fun heq => by simpa [Step.query?] using haway register heq.symm
    have hseen : some register ≠ hidden := hshown register List.mem_cons_self
    have halike : ∀ o ∈ q.operands,
        (t.registers.operand o).map Item.outline = (s.registers.operand o).map Item.outline :=
      fun o hmem => h.operand fun name hregister =>
        hshown name (List.mem_cons_of_mem _ (List.mem_filterMap.2 ⟨o, hmem, hregister⟩))
    -- The item that is asked is the same in both sessions.
    have hget : t.registers.get register = s.registers.get register := by
      rw [Registers.get, Registers.get, h.same register hasked hseen]
    simp only [Session.execute, hget]
    cases hheld : s.registers.get register with
    | error name => exact ⟨rfl, h⟩
    | ok x =>
      -- The operands may differ in what handles have to say, on which no reply depends.
      rcases cases_of_map_eq (Query.resolve_outline halike) with
        ⟨e, hresolved', hresolved⟩ | ⟨q', q₁, hresolved', hresolved, hsame⟩
      · rw [hresolved', hresolved]
        exact ⟨rfl, h⟩
      · rw [hresolved', hresolved]
        have hother := h.spares register x hasked hseen (Registers.lookup_of_get hheld)
        have hrespects := Query.respects_perform hother q₁
        have hrun := hrespects.run s.world h.meets
        obtain ⟨hgiven, hobject⟩ := hrespects.answer s.world h.meets
        simp only [ask_eq, Query.perform_congr hsame x, h.world, hrun]
        exact ((h.setWorld (hrespects.keeps _ h.meets)).put hobject register).settle target hgiven

/-- The calls that go on record after a revision are those that go on record before it. -/
theorem drop_calls_revise {v w : World} (hmeets : r.Meets v) :
    (r.revise w).calls.drop (r.revise v).calls.length = w.calls.drop v.calls.length := by
  have hcount : (r.revise v).calls.length = r.calls.length + (v.calls.length - r.callCount) := by
    rw [Revision.revise, List.length_append, List.length_drop]
  rw [hcount, Revision.revise, List.drop_append, List.drop_eq_nil_of_le (Nat.le_add_right _ _),
    Nat.add_sub_cancel_left, List.drop_drop, Nat.add_sub_cancel' hmeets.calls]
  rfl

/-- A step that deals with other things tells the same in both sessions. -/
theorem step (h : Revised r own hidden s t) (step : Step)
    (haway : ∀ name, own = some name → step.query? name = none)
    (hshown : ∀ name ∈ step.reads, some name ≠ hidden) :
    (t.step step).1.told = (s.step step).1.told ∧
      Revised r own hidden (s.step step).2 (t.step step).2 := by
  obtain ⟨houtcome, hrevised⟩ := h.execute step haway hshown
  have hcalls : (t.step step).1.calls = (s.step step).1.calls := by
    change (t.execute step).2.world.calls.drop t.world.calls.length =
      (s.execute step).2.world.calls.drop s.world.calls.length
    rw [h.world, hrevised.world, drop_calls_revise h.meets]
  exact ⟨Prod.ext houtcome hcalls, hrevised⟩

/-- Steps that deal with other things tell the same in both sessions. -/
theorem run (h : Revised r own hidden s t) (steps : List Step)
    (haway : ∀ step ∈ steps, ∀ name, own = some name → step.query? name = none)
    (hshown : ∀ step ∈ steps, ∀ name ∈ step.reads, some name ≠ hidden) :
    t.told steps = s.told steps ∧
      Revised r own hidden (s.run steps).2 (t.run steps).2 := by
  induction steps generalizing s t with
  | nil => exact ⟨rfl, h⟩
  | cons first steps ih =>
    obtain ⟨htold, hrevised⟩ :=
      h.step first (haway first List.mem_cons_self) (hshown first List.mem_cons_self)
    obtain ⟨htolds, hrevised'⟩ :=
      ih hrevised (fun step hmem => haway step (List.mem_cons_of_mem _ hmem))
        fun step hmem => hshown step (List.mem_cons_of_mem _ hmem)
    exact ⟨congrArg₂ List.cons htold htolds, hrevised'⟩

end Revised

end Session

end Pipework
