import Pipework.Proofs.Builder.Agreement
import Pipework.Proofs.Session.Descriptors

/-!
# A desk at which pipelines are built

A program holds on to commands and pipelines under names, and asks for one operation after another.
It may give a second name to what it holds, so that a change is seen under both, and it may take a
command out of a list that it was handed. However it goes on, the store stays sound and what is
held is no stage of a pipeline. An operation that fails leaves all commands and pipelines, and all
names, as they were.

## Main definitions

* `Call` — an operation with the names that it uses
* `Op` — a call, or a new name for something that was handed out
* `Desk` — the objects, and what is held under which name
* `Desk.execute`, `Desk.run` — one step, and all of them
* `Desk.Sound` — the store is sound, and only what is public is held

## Main results

* `Desk.Sound.execute`, `Desk.Sound.run` — a desk stays sound
* `Desk.Sound.leaves` — what fails changes nothing
-/

namespace Pipework.Builder

/-- An operation with the names that it uses: for what it is asked of, for what else it needs, and
for what it makes. -/
inductive Call where
  | make (b : Blueprint Operand) (target : Option String)
  | change (name : String) (c : Change Operand)
  | derive (name : String) (d : Derive Operand) (target : Option String)

/-- The step of a session. -/
def Call.step : Call → Step
  | make b target => { request := .make (b.maker id), target }
  | change name c => { request := .ask name (c.query id) }
  | derive name d target => { request := .ask name (d.query id), target }

/-- What a program does. -/
inductive Op where
  | call (c : Call)
  /-- What is held under a name gets another one. -/
  | share (source target : String)
  /-- A command in a list that is held gets a name of its own. -/
  | pick (source : String) (index : Nat) (target : String)

/-- The objects that there are, and what is held under which name. -/
structure Desk where
  store : Store := {}
  held : String → Option Ref := fun _ => none

namespace Desk

/-- What is held under a name, or the name if that is nothing. -/
def get (d : Desk) (name : String) : Except String Ref :=
  match d.held name with
  | some x => .ok x
  | none => .error name

/-- What an operand stands for. -/
def operand (d : Desk) : Operand → Except String Ref
  | .value v => .ok (.value v)
  | .register name => d.get name

/-- The desk at which something is held under a name. -/
def hold (d : Desk) (name : String) (x : Ref) : Desk :=
  { d with held := fun other => if other = name then some x else d.held other }

/-- What came of an operation, and the desk after it. An answer may get a name. -/
def settle (d : Desk) (target : Option String) (done : Except Failure Ref × Store) :
    Outcome × Desk :=
  let d := { d with store := done.2 }
  match done.1 with
  | .error f => (.failure f, d)
  | .ok x =>
    match target with
    | none => (.answer (done.2.read x), d)
    | some name => (.answer (done.2.read x), d.hold name x)

/-- An operation is done, unless a name that it uses stands for nothing. -/
def call (d : Desk) : Call → Outcome × Desk
  | .make b target =>
    match b.resolve d.operand with
    | .error name => (.unset name, d)
    | .ok b => d.settle target (b.build.outcome d.store)
  | .change name c =>
    match (do return (← d.get name, ← c.resolve d.operand) : Except String (Ref × Change Ref)) with
    | .error name => (.unset name, d)
    | .ok (x, c) => d.settle none ((c.perform x).outcome d.store)
  | .derive name d' target =>
    match (do return (← d.get name, ← d'.resolve d.operand) :
      Except String (Ref × Derive Ref)) with
    | .error name => (.unset name, d)
    | .ok (x, d') => d.settle target ((d'.perform x).outcome d.store)

/-- One step of a program. -/
def execute (d : Desk) : Op → Outcome × Desk
  | .call c => d.call c
  | .share source target =>
    match d.get source with
    | .error name => (.unset name, d)
    | .ok x => (.answer (d.store.read x), d.hold target x)
  | .pick source index target =>
    match d.get source with
    | .error name => (.unset name, d)
    | .ok x =>
      match x with
      | .commands ns =>
        match ns[index]? with
        | some n => (.answer (.command (d.store.command n)), d.hold target (.command n))
        | none => (.failure (.fault (.outOfRange "list")), d)
      | x => (.failure (d.store.read x).refuse, d)

/-- All steps of a program. -/
def run (d : Desk) : List Op → List Outcome × Desk
  | [] => ([], d)
  | op :: ops =>
    let (outcome, d) := d.execute op
    let (outcomes, d) := d.run ops
    (outcome :: outcomes, d)

/-! ### Names -/

variable {d : Desk} {name other : String} {x y : Ref}

theorem get_eq_ok_iff : d.get name = .ok x ↔ d.held name = some x := by
  rw [get]
  cases d.held name with
  | none => exact ⟨nofun, nofun⟩
  | some y => exact ⟨fun hsame => congrArg some (Except.ok.inj hsame),
      fun hsame => congrArg Except.ok (Option.some.inj hsame)⟩

theorem held_hold_iff :
    (d.hold name x).held other = some y ↔
      other = name ∧ x = y ∨ other ≠ name ∧ d.held other = some y := by
  by_cases hsame : other = name <;> simp [hold, hsame]

/-- The store is sound, and nothing is held that is a stage of a pipeline. -/
structure Sound (d : Desk) : Prop where
  store : d.store.Sound
  held : ∀ name x, d.held name = some x → d.store.Public x

namespace Sound

theorem empty : ({} : Desk).Sound := ⟨.empty, nofun⟩

theorem hold (h : d.Sound) (hshown : d.store.Public x) (name : String) :
    (d.hold name x).Sound where
  store := h.store
  held other y hget := by
    rcases held_hold_iff.1 hget with ⟨-, rfl⟩ | ⟨-, hget⟩
    · exact hshown
    · exact h.held other y hget

/-- A desk whose store goes on growing holds what it held. -/
theorem mono (h : d.Sound) {t : Store} (hsound : t.Sound) (hgrows : d.store.Grows t) :
    ({ d with store := t } : Desk).Sound :=
  ⟨hsound, fun name x hget => (h.held name x hget).mono hgrows⟩

theorem settle (h : d.Sound) {done : Except Failure Ref × Store} (hsound : done.2.Sound)
    (hgrows : d.store.Grows done.2) (hshown : ∀ x, done.1 = .ok x → done.2.Public x)
    (target : Option String) : (d.settle target done).2.Sound := by
  have hafter := h.mono hsound hgrows
  rw [Desk.settle]
  cases hanswer : done.1 with
  | error f => exact hafter
  | ok x =>
    cases target with
    | none => exact hafter
    | some name => exact hafter.hold (hshown x hanswer) name

/-- What an operand stands for is public. -/
theorem operand (h : d.Sound) {o : Operand} (hlooked : d.operand o = .ok x) :
    d.store.Public x := by
  cases o with
  | value v =>
    obtain rfl := Except.ok.inj hlooked
    trivial
  | register name => exact h.held name x (get_eq_ok_iff.1 hlooked)

end Sound

/-! ### What a call can do -/

/-- The registers of a session hold the values of what is held. -/
def Agrees (d : Desk) (s : Session) : Prop :=
  ∀ name, s.registers.lookup name = (d.held name).map d.store.read

namespace Agrees

variable {s : Session}

theorem get (h : d.Agrees s) (name : String) :
    s.registers.get name = (d.get name).map d.store.read := by
  rw [Registers.get, Desk.get, h name]
  cases d.held name <;> rfl

theorem operand (h : d.Agrees s) :
    s.registers.operand = fun o => (d.operand o).map d.store.read := by
  funext o
  cases o with
  | value v => rfl
  | register name => exact h.get name

/-- A session asks what is asked here, if the names that are used stand for something. -/
theorem execute_ask (h : d.Agrees s) (name : String) (target : Option String) {q : Query Operand}
    {α : Type} {looked : Except String α} {query : α → Query Item}
    (hresolves : q.resolve (fun o => (d.operand o).map d.store.read) = looked.map query) :
    s.execute { request := .ask name q, target } =
      match (do return (← d.get name, ← looked) : Except String (Ref × α)) with
      | .error other => (.unset other, s)
      | .ok (x, a) => s.ask target name (d.store.read x) (query a) := by
  simp only [Session.execute, h.get, h.operand, hresolves]
  cases d.get name with
  | error other => rfl
  | ok x => cases looked <;> rfl

end Agrees

/-- What comes of a call: a name stands for nothing, or something new is made, or what is held
under a name is changed. A session that agrees has the same. -/
theorem Sound.call_cases (h : d.Sound) (c : Call) :
    (∃ name, d.call c = (.unset name, d) ∧
      ∀ s, d.Agrees s → s.execute c.step = (.unset name, s)) ∨
    (∃ target value done, d.call c = d.settle target done ∧ d.store.Yields value done ∧
      ∀ s, d.Agrees s → ∃ rs : Registers, (∀ name, rs.lookup name = s.registers.lookup name) ∧
        s.execute c.step = Session.settle ⟨rs, s.world⟩ target value) ∨
    ∃ name x value done, d.held name = some x ∧ d.call c = d.settle none done ∧
      d.store.Changes x value done ∧
      ∀ s, d.Agrees s → s.execute c.step =
        Session.settle ⟨s.registers.put name value.2, s.world⟩ none value.1 := by
  cases c with
  | make b target =>
    cases hresolved : b.resolve d.operand with
    | error name =>
      refine .inl ⟨name, by rw [call, hresolved], fun s hagrees => ?_⟩
      simp only [Call.step, Session.execute, hagrees.operand, Blueprint.resolve_maker, hresolved]
      rfl
    | ok b' =>
      obtain ⟨value, hmade, hyields⟩ := b'.exists_yields h.store fun y hmem => by
        obtain ⟨o, hlooked⟩ := Blueprint.exists_of_mem_operands hresolved hmem
        exact h.operand hlooked
      refine .inr (.inl ⟨target, value, _, by rw [call, hresolved], hyields, fun s hagrees => ?_⟩)
      refine ⟨s.registers, fun _ => rfl, ?_⟩
      simp only [Call.step, Session.execute, hagrees.operand, Blueprint.resolve_maker, hresolved]
      change s.make target _ = _
      rw [Session.make_eq, hmade]
  | change name c =>
    have hsession (s : Session) (hagrees : d.Agrees s) :=
      hagrees.execute_ask name none (Change.resolve_query d.operand d.store.read c)
    cases hasked : (do return (← d.get name, ← c.resolve d.operand) :
        Except String (Ref × Change Ref)) with
    | error other =>
      rw [hasked] at hsession
      exact .inl ⟨other, by rw [call, hasked], hsession⟩
    | ok found =>
      rw [hasked] at hsession
      -- All names stand for something here, and so they do in the session.
      obtain ⟨x, hget, hrest⟩ := Line.bind_eq_ok_iff.1 hasked
      obtain ⟨c', -, hsame⟩ := Line.bind_eq_ok_iff.1 hrest
      obtain rfl := Except.ok.inj hsame
      have hheld := get_eq_ok_iff.1 hget
      obtain ⟨value, hreply, hchanges⟩ := c'.exists_changes h.store (h.held name x hheld)
      refine .inr (.inr ⟨name, x, value, _, hheld, by rw [call, hasked], hchanges, ?_⟩)
      intro s hagrees
      refine (hsession s hagrees).trans ?_
      dsimp only
      rw [Session.ask_eq, hreply]
  | derive name d' target =>
    have hsession (s : Session) (hagrees : d.Agrees s) :=
      hagrees.execute_ask name target (Derive.resolve_query d.operand d.store.read d')
    cases hasked : (do return (← d.get name, ← d'.resolve d.operand) :
        Except String (Ref × Derive Ref)) with
    | error other =>
      rw [hasked] at hsession
      exact .inl ⟨other, by rw [call, hasked], hsession⟩
    | ok found =>
      rw [hasked] at hsession
      obtain ⟨x, hget, hrest⟩ := Line.bind_eq_ok_iff.1 hasked
      obtain ⟨d'', hresolved, hsame⟩ := Line.bind_eq_ok_iff.1 hrest
      obtain rfl := Except.ok.inj hsame
      obtain ⟨value, hreply, hyields⟩ := d''.exists_yields h.store (fun y hmem => by
        obtain ⟨o, hlooked⟩ := Derive.exists_of_mem_operands hresolved hmem
        exact h.operand hlooked) x
      refine .inr (.inl ⟨target, value, _, by rw [call, hasked], hyields, ?_⟩)
      intro s hagrees
      refine ⟨s.registers.put name (d.store.read x), fun other => ?_, ?_⟩
      · -- The register holds this already.
        by_cases hsame : other = name
        · rw [hsame, Registers.lookup_put_self, hagrees name, get_eq_ok_iff.1 hget]
          rfl
        · exact Registers.lookup_put_of_ne _ _ hsame
      · refine (hsession s hagrees).trans ?_
        dsimp only
        rw [Session.ask_eq, hreply]

/-- Beside calls there are only new names for what is held. -/
theorem Sound.execute_cases (h : d.Sound) (op : Op) :
    (∃ c, op = .call c) ∨ (d.execute op).2 = d ∨
      ∃ target x answer, d.store.Public x ∧ d.execute op = (.answer answer, d.hold target x) := by
  cases op with
  | call c => exact .inl ⟨c, rfl⟩
  | share source target =>
    rw [Desk.execute]
    cases hget : d.get source with
    | error name => exact .inr (.inl rfl)
    | ok x => exact .inr (.inr ⟨target, x, _, h.held source x (get_eq_ok_iff.1 hget), rfl⟩)
  | pick source index target =>
    rw [Desk.execute]
    cases hget : d.get source with
    | error name => exact .inr (.inl rfl)
    | ok x =>
      cases x with
      | commands ns =>
        dsimp only
        cases hfound : ns[index]? with
        | none => exact .inr (.inl rfl)
        | some n =>
          have hshown : d.store.Public (.command n) :=
            h.held source _ (get_eq_ok_iff.1 hget) n (List.mem_of_getElem? hfound)
          exact .inr (.inr ⟨target, _, _, hshown, rfl⟩)
      | _ => exact .inr (.inl rfl)

/-! ### Soundness -/

/-- A desk stays sound. -/
theorem Sound.execute (h : d.Sound) (op : Op) : (d.execute op).2.Sound := by
  rcases h.execute_cases op with ⟨c, rfl⟩ | hsame | ⟨target, x, answer, hshown, houtcome⟩
  · rw [Desk.execute]
    rcases h.call_cases c with ⟨name, houtcome, -⟩ | ⟨target, value, done, houtcome, hyields, -⟩ |
      ⟨name, x, value, done, -, houtcome, hchanges, -⟩
    · rw [houtcome]
      exact h
    · rw [houtcome]
      exact h.settle hyields.sound hyields.grows
        (fun x hanswer => (hyields.shown x hanswer).1) target
    · rw [houtcome]
      exact h.settle hchanges.sound hchanges.grows hchanges.shown none
  · rw [hsame]
    exact h
  · rw [houtcome]
    exact h.hold hshown target

theorem Sound.run (h : d.Sound) (ops : List Op) : (d.run ops).2.Sound := by
  induction ops generalizing d with
  | nil => exact h
  | cons op ops ih => exact ih (h.execute op)

/-- An operation that leaves what there was if it fails. -/
theorem settle_leaves {target : Option String} {done : Except Failure Ref × Store}
    (hleaves : ∀ f, done.1 = .error f → d.store.Extends done.2) :
    (∃ x, (d.settle target done).1 = .answer x) ∨
      d.store.Extends (d.settle target done).2.store ∧ (d.settle target done).2.held = d.held := by
  rw [settle]
  cases hanswer : done.1 with
  | error f => exact .inr ⟨hleaves f hanswer, rfl⟩
  | ok x => cases target <;> exact .inl ⟨_, rfl⟩

/-- What fails leaves all commands and pipelines as they were, and what is held. -/
theorem Sound.leaves (h : d.Sound) (op : Op) :
    (∃ x, (d.execute op).1 = .answer x) ∨
      d.store.Extends (d.execute op).2.store ∧ (d.execute op).2.held = d.held := by
  rcases h.execute_cases op with ⟨c, rfl⟩ | hsame | ⟨target, x, answer, -, houtcome⟩
  · rw [Desk.execute]
    rcases h.call_cases c with ⟨name, houtcome, -⟩ | ⟨target, value, done, houtcome, hyields, -⟩ |
      ⟨name, x, value, done, -, houtcome, hchanges, -⟩
    · rw [houtcome]
      exact .inr ⟨.refl _, rfl⟩
    · rw [houtcome]
      exact settle_leaves fun _ _ => hyields.leaves
    · rw [houtcome]
      exact settle_leaves hchanges.leaves
  · rw [hsame]
    exact .inr ⟨.refl _, rfl⟩
  · rw [houtcome]
    exact .inl ⟨answer, rfl⟩

end Desk

end Pipework.Builder
