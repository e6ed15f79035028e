import Pipework.Session.Reply

/-!
# The operands of requests

A request may need items beside the one that it is asked of. They are looked up first, and what is
looked up is all that the rest of the session has to do with the reply. Of a handle that is given
as an operand it only matters that it is one.

## Main definitions

* `Query.operands`, `Maker.operands` — the items that a request needs
* `Item.outline` — what matters of an item that is given as an operand
* `Query.outline` — a query with the outlines of its operands
* `Step.query?`, `Step.reads` — what a step asks of a register, and the registers that it looks at

## Main results

* `Query.exists_of_mem_operands` — the operands of a query were looked up
* `Query.resolve_outline`, `Query.perform_congr` — queries whose operands have the same outlines
  are replied alike
* `Maker.resolve_perform` — what is made depends on the outlines of the operands
-/

namespace Pipework

/-- What matters of an item that is given as an operand: all but what a handle has to say. -/
def Item.outline : Item → Item
  | .handle _ => .handle ⟨[], [], false, [], [], [], none⟩
  | x => x

namespace Item

theorem joinable_outline (x : Item) : x.outline.joinable = x.joinable := by
  cases x <;> rfl

theorem same_outline_command (c : Command) (x : Item) :
    (command c).same x.outline = (command c).same x := by
  cases x <;> rfl

theorem same_outline_pipeline (p : Pipeline) (x : Item) :
    (pipeline p).same x.outline = (pipeline p).same x := by
  cases x <;> rfl

end Item

variable {ρ τ ε : Type}

/-- Outcomes that look the same after a function are the same failure, or they are answers that the
function does not tell apart. -/
theorem cases_of_map_eq {α β : Type} {f : α → β} {r r' : Except ε α} (hsame : r.map f = r'.map f) :
    (∃ e, r = .error e ∧ r' = .error e) ∨ ∃ y z, r = .ok y ∧ r' = .ok z ∧ f y = f z := by
  cases r with
  | error e =>
    cases r' with
    | error e' =>
      obtain rfl := Except.error.inj hsame
      exact .inl ⟨e, rfl, rfl⟩
    | ok z => cases hsame
  | ok y =>
    cases r' with
    | error e' => cases hsame
    | ok z => exact .inr ⟨y, z, rfl, rfl, Except.ok.inj hsame⟩

/-! ### Queries -/

namespace Query

/-- The items that a query needs beside the one that it is asked of. -/
def operands : Query ρ → List ρ
  | add x | combine x | pipe x | equals x | spawn _ (some x) | output (some x) => [x]
  | _ => []

/-- The query with the outlines of its operands. -/
def outline (q : Query Item) : Except Unit (Query Item) := q.resolve fun x => .ok x.outline

/-- A query that needs nothing else is looked up as it is, whatever there is. -/
theorem exists_resolve_of_operands {q : Query ρ} (halone : q.operands = []) :
    ∃ q' : Query τ, ∀ {ε : Type} (look : ρ → Except ε τ), q.resolve look = .ok q' := by
  cases q with
  | add | combine | pipe | equals => cases halone
  | spawn captured partner =>
    cases partner with
    | none => exact ⟨_, fun _ => rfl⟩
    | some x => cases halone
  | output partner =>
    cases partner with
    | none => exact ⟨_, fun _ => rfl⟩
    | some x => cases halone
  | _ => exact ⟨_, fun _ => rfl⟩

/-- The operands of a query were looked up. -/
theorem exists_of_mem_operands {q : Query ρ} {look : ρ → Except ε τ} {q' : Query τ}
    (hresolved : q.resolve look = .ok q') {y : τ} (hmem : y ∈ q'.operands) :
    ∃ x ∈ q.operands, look x = .ok y := by
  -- All queries with an operand have one, and are looked up by looking it up.
  have hone {x : ρ} {wrap : τ → Query τ} (hwrapped : ∀ z, (wrap z).operands = [z])
      (hresolved : (look x >>= fun z => pure (wrap z)) = .ok q') : look x = .ok y := by
    cases hlooked : look x with
    | error e =>
      rw [hlooked] at hresolved
      cases hresolved
    | ok z =>
      rw [hlooked] at hresolved
      obtain rfl := Except.ok.inj hresolved
      rw [hwrapped, List.mem_singleton] at hmem
      rw [hmem]
  cases q with
  | add x | combine x | pipe x | equals x =>
    exact ⟨x, List.mem_singleton_self x, hone (fun _ => rfl) hresolved⟩
  | spawn captured partner =>
    cases partner with
    | none =>
      obtain rfl := Except.ok.inj hresolved
      cases hmem
    | some x => exact ⟨x, List.mem_singleton_self x, hone (fun _ => rfl) hresolved⟩
  | output partner =>
    cases partner with
    | none =>
      obtain rfl := Except.ok.inj hresolved
      cases hmem
    | some x => exact ⟨x, List.mem_singleton_self x, hone (fun _ => rfl) hresolved⟩
  | _ =>
    obtain rfl := Except.ok.inj hresolved
    cases hmem

/-- What is looked up alike has the same outline. -/
theorem resolve_outline {q : Query ρ} {look look' : ρ → Except ε Item}
    (halike : ∀ x ∈ q.operands, (look x).map Item.outline = (look' x).map Item.outline) :
    (q.resolve look).map outline = (q.resolve look').map outline := by
  -- A query with one operand is resolved by looking it up, and the outline is taken inside.
  have hone {x : ρ} (wrap : Item → Query Item)
      (hwrapped : ∀ y : Item, (wrap y).outline = .ok (wrap y.outline))
      (halike : (look x).map Item.outline = (look' x).map Item.outline) :
      (look x >>= fun y => (pure (wrap y) : Except ε _)).map outline =
        (look' x >>= fun y => (pure (wrap y) : Except ε _)).map outline := by
    rcases cases_of_map_eq halike with ⟨e, hlooked, hlooked'⟩ | ⟨y, z, hlooked, hlooked', hsame⟩
    · rw [hlooked, hlooked']
    · rw [hlooked, hlooked']
      refine congrArg Except.ok ?_
      rw [hwrapped, hwrapped, hsame]
  cases q with
  | add x =>
    exact hone add (fun _ => rfl) (halike x (List.mem_singleton_self x))
  | combine x =>
    exact hone combine (fun _ => rfl) (halike x (List.mem_singleton_self x))
  | pipe x =>
    exact hone pipe (fun _ => rfl) (halike x (List.mem_singleton_self x))
  | equals x =>
    exact hone equals (fun _ => rfl) (halike x (List.mem_singleton_self x))
  | spawn captured partner =>
    cases partner with
    | none => rfl
    | some x =>
      exact hone (fun y => spawn captured (some y)) (fun _ => rfl)
        (halike x (List.mem_singleton_self x))
  | output partner =>
    cases partner with
    | none => rfl
    | some x =>
      exact hone (fun y => output (some y)) (fun _ => rfl)
        (halike x (List.mem_singleton_self x))
  | _ => rfl

/-- A query is replied like its outline. -/
theorem perform_outline {q q' : Query Item} (hsame : q.outline = .ok q') (x : Item) :
    q.perform x = q'.perform x := by
  cases q with
  | add y =>
    obtain rfl := Except.ok.inj hsame
    cases x with
    | pipeline p =>
      simp only [perform, runner?, onPipeline, Item.joinable_outline]
    | _ => rfl
  | combine y =>
    obtain rfl := Except.ok.inj hsame
    cases x with
    | pipeline p => simp only [perform, runner?, onPipeline, Item.joinable_outline]
    | _ => rfl
  | pipe y =>
    obtain rfl := Except.ok.inj hsame
    cases x with
    | command c => simp only [perform, runner?, onCommand, Item.joinable_outline]
    | pipeline p => simp only [perform, runner?, onPipeline, Item.joinable_outline]
    | _ => rfl
  | equals y =>
    obtain rfl := Except.ok.inj hsame
    cases x with
    | command c => simp only [perform, runner?, onCommand, Item.same_outline_command]
    | pipeline p => simp only [perform, runner?, onPipeline, Item.same_outline_pipeline]
    | _ => rfl
  | spawn captured partner =>
    cases partner with
    | none =>
      obtain rfl := Except.ok.inj hsame
      rfl
    | some y =>
      -- Which of the two is run by the other is told from their kinds.
      obtain rfl := Except.ok.inj hsame
      cases x <;> cases y <;> rfl
  | output partner =>
    cases partner with
    | none =>
      obtain rfl := Except.ok.inj hsame
      rfl
    | some y =>
      obtain rfl := Except.ok.inj hsame
      cases x <;> cases y <;> rfl
  | _ =>
    obtain rfl := Except.ok.inj hsame
    rfl

/-- Queries that were looked up alike are replied alike. -/
theorem perform_congr {q q' : Query Item} (hsame : q.outline = q'.outline) (x : Item) :
    q.perform x = q'.perform x := by
  have houtlined (q : Query Item) : ∃ q', q.outline = .ok q' := by
    cases q with
    | spawn captured partner => cases partner <;> exact ⟨_, rfl⟩
    | output partner => cases partner <;> exact ⟨_, rfl⟩
    | _ => exact ⟨_, rfl⟩
  obtain ⟨o, houtline⟩ := houtlined q
  rw [perform_outline houtline x, perform_outline (hsame.symm.trans houtline) x]

end Query

/-! ### Makers -/

namespace Maker

/-- The items that are needed to make something. -/
def operands : Maker ρ → List ρ
  | pipeline stages => stages
  | _ => []

/-- Items that are looked up alike have the same outlines. -/
theorem mapM_outline {look look' : ρ → Except ε Item} {xs : List ρ}
    (halike : ∀ x ∈ xs, (look x).map Item.outline = (look' x).map Item.outline) :
    (xs.mapM look).map (List.map Item.outline) = (xs.mapM look').map (List.map Item.outline) := by
  induction xs with
  | nil => rfl
  | cons x xs ih =>
    have hlater := ih fun x hmem => halike x (List.mem_cons_of_mem _ hmem)
    rw [List.mapM_cons, List.mapM_cons]
    rcases cases_of_map_eq (halike x List.mem_cons_self) with
      ⟨e, hlooked, hlooked'⟩ | ⟨y, z, hlooked, hlooked', hsame⟩
    · rw [hlooked, hlooked']
      rfl
    · rw [hlooked, hlooked']
      rcases cases_of_map_eq hlater with ⟨e, hrest, hrest'⟩ | ⟨ys, zs, hrest, hrest', hsames⟩
      · simp only [hrest, hrest']
        rfl
      · simp only [hrest, hrest']
        refine congrArg Except.ok ?_
        rw [List.map_cons, List.map_cons, hsame, hsames]

/-- What is made depends on the outlines of the operands. -/
theorem resolve_perform {m : Maker ρ} {look look' : ρ → Except ε Item}
    (halike : ∀ x ∈ m.operands, (look x).map Item.outline = (look' x).map Item.outline) :
    (m.resolve look).map perform = (m.resolve look').map perform := by
  cases m with
  | pipeline stages =>
    have hjoined (xs : List Item) :
        (xs.map Item.outline).map Item.joinable = xs.map Item.joinable := by
      rw [List.map_map]
      exact List.map_congr_left fun x _ => x.joinable_outline
    rw [resolve, resolve]
    rcases cases_of_map_eq (mapM_outline (show ∀ x ∈ stages, _ from halike)) with
      ⟨e, hlooked, hlooked'⟩ | ⟨xs, ys, hlooked, hlooked', hsame⟩
    · rw [hlooked, hlooked']
    · rw [hlooked, hlooked']
      refine congrArg Except.ok ?_
      rw [perform, perform, ← hjoined xs, hsame, hjoined]
  | _ => rfl

end Maker

/-! ### Steps -/

/-- The register that an operand stands for. -/
def Operand.register? : Operand → Option String
  | value _ => none
  | register name => some name

namespace Step

/-- What the step asks of the item in a register. -/
def query? (step : Step) (name : String) : Option (Query Operand) :=
  match step.request with
  | .make _ => none
  | .ask register q => if register = name then some q else none

theorem exists_of_query? {step : Step} {name : String} {q : Query Operand}
    (hasked : step.query? name = some q) : ∃ target, step = ⟨.ask name q, target⟩ := by
  obtain ⟨request, target⟩ := step
  cases request with
  | make m => cases hasked
  | ask register q' =>
    obtain ⟨rfl, rfl⟩ : register = name ∧ q' = q := by simpa [query?] using hasked
    exact ⟨target, rfl⟩

/-- The registers that the step looks at: the one that it asks, and those of its operands. -/
def reads (step : Step) : List String :=
  match step.request with
  | .make m => m.operands.filterMap Operand.register?
  | .ask register q => register :: q.operands.filterMap Operand.register?

/-- A register that a step does not look at is not asked. -/
theorem query?_eq_none {step : Step} {name : String} (hunread : name ∉ step.reads) :
    step.query? name = none := by
  obtain ⟨request, target⟩ := step
  cases request with
  | make m => rfl
  | ask register q =>
    refine if_neg ?_
    rintro rfl
    exact hunread List.mem_cons_self

end Step

end Pipework
