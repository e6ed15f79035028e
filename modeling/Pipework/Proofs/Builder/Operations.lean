import Pipework.Proofs.Builder.Building

/-!
# The operations of the builders

The operations that make, change and derive commands and pipelines, as they are done to objects.
Each of them is also a request of a session, which works with the values alone.

## Main definitions

* `Blueprint`, `Change`, `Derive` — the operations that make something, that change what they are
  asked of, and that make something out of what they are asked of
* `Blueprint.maker`, `Change.query`, `Derive.query` — the requests of a session
* `Blueprint.build`, `Change.perform`, `Derive.perform` — what they do to the objects
* `nth` — what stands at an index

## Main results

* `get_eq_nth`, `nth_map`, `mem_of_nth` — the stage at an index is that of the number there
* `Blueprint.resolve_maker`, `Change.resolve_query`, `Derive.resolve_query` — a session looks up
  the same
-/

namespace Pipework.Builder

/-- Ways to make a command or a pipeline. Other objects that are needed have the type `ρ`. -/
inductive Blueprint (ρ : Type) where
  | command (program args : Value)
  | commandOfLine (line : String)
  | pipeline (stages : List ρ)
  | pipelineOfLine (line : String)

/-- Ways to change a command or a pipeline. -/
inductive Change (ρ : Type) where
  | arg (value : Value)
  | extend (values : Value)
  | args (values : Value)
  | setProgram (program : Value)
  | addCommand (program : Value)
  | add (x : ρ)
  | combine (x : ρ)

/-- Ways to make something out of a command or a pipeline. -/
inductive Derive (ρ : Type) where
  | pipe (x : ρ)
  | copy
  | stages
  | get (index : Int)

variable {ρ τ ε : Type}

namespace Blueprint

/-- The request of a session, with something else for the objects that it needs. -/
def maker (f : ρ → τ) : Blueprint ρ → Maker τ
  | command program args => .command program args
  | commandOfLine line => .commandOfLine line
  | pipeline stages => .pipeline (stages.map f)
  | pipelineOfLine line => .pipelineOfLine line

/-- The objects that it needs. -/
def operands : Blueprint ρ → List ρ
  | pipeline stages => stages
  | _ => []

/-- The blueprint with its objects looked up. -/
def resolve (look : ρ → Except ε τ) : Blueprint ρ → Except ε (Blueprint τ)
  | command program args => .ok (.command program args)
  | commandOfLine line => .ok (.commandOfLine line)
  | pipeline stages => return .pipeline (← stages.mapM look)
  | pipelineOfLine line => .ok (.pipelineOfLine line)

/-- What is made of it. The stages that are read off a line are handed over like any others. -/
def build : Blueprint Ref → Building Ref
  | command program args => do
    return .command (← placeOne (← verify (Maker.newCommand program args)))
  | commandOfLine line => do
    return .command (← placeOne (← verify (orFlaw (Line.parseCommand line))))
  | pipeline stages => do return .pipeline (← ofRefs stages)
  | pipelineOfLine line => do
    let p ← verify (orFlaw (Line.parse line))
    let ns ← place (p.stages.map .ofStage)
    return .pipeline (← ofRefs (ns.map .command))

end Blueprint

namespace Change

/-- The request of a session, with something else for the objects that it needs. -/
def query (f : ρ → τ) : Change ρ → Query τ
  | arg value => .arg value
  | extend values => .extend values
  | args values => .args values
  | setProgram program => .setProgram program
  | addCommand program => .addCommand program
  | add x => .add (f x)
  | combine x => .combine (f x)

/-- The change with its objects looked up. -/
def resolve (look : ρ → Except ε τ) : Change ρ → Except ε (Change τ)
  | arg value => .ok (.arg value)
  | extend values => .ok (.extend values)
  | args values => .ok (.args values)
  | setProgram program => .ok (.setProgram program)
  | addCommand program => .ok (.addCommand program)
  | add x => return .add (← look x)
  | combine x => return .combine (← look x)

/-- What is done to the object that is asked. Most changes answer it. -/
def perform : Change Ref → Ref → Building Ref
  | arg value, .command n => do
    revise n (·.arg value)
    return .command n
  | extend values, .command n => do
    let values ← verify (orFault values.items)
    revise n (·.extend values)
    return .command n
  | setProgram program, .command n => do
    revise n (·.setProgram program)
    return .value .null
  | addCommand program, .pipeline p => do
    Builder.addCommand p program
    return .pipeline p
  | add x, .pipeline p => do
    Builder.add p x
    return .pipeline p
  | combine x, .pipeline p => do
    Builder.combine p x
    return .pipeline p
  | arg value, .pipeline p => do
    revise (← current p) (·.arg value)
    return .pipeline p
  | args values, .pipeline p => do
    let n ← current p
    let values ← verify (orFault values.items)
    revise n (·.extend values)
    return .pipeline p
  | _, x => do
    let s ← get
    throw (s.read x).refuse

end Change

/-- What stands at an index, a negative one counting from the end. -/
def nth {α : Type} (xs : List α) (index : Int) : Except Fault α :=
  let index := if index < 0 then index + xs.length else index
  match if index < 0 then none else xs[index.toNat]? with
  | some x => .ok x
  | none => .error (.outOfRange "list")

theorem get_eq_nth (p : Pipeline) (index : Int) : p.get index = nth p.stages index := by
  simp only [Pipeline.get, nth]
  generalize (if index < 0 then index + p.stages.length else index) = i
  cases (if i < 0 then none else p.stages[i.toNat]?) <;> rfl

theorem nth_map {α β : Type} (f : α → β) (xs : List α) (index : Int) :
    nth (xs.map f) index = (nth xs index).map f := by
  simp only [nth, List.length_map, List.getElem?_map]
  generalize (if index < 0 then index + xs.length else index) = i
  by_cases hnegative : i < 0
  · simp [hnegative, Except.map]
  · simp only [hnegative, if_false]
    cases xs[i.toNat]? <;> rfl

theorem mem_of_nth {α : Type} {xs : List α} {index : Int} {x : α} (hfound : nth xs index = .ok x) :
    x ∈ xs := by
  simp only [nth] at hfound
  generalize (if index < 0 then index + xs.length else index) = i at hfound
  by_cases hnegative : i < 0
  · simp [hnegative] at hfound
  · simp only [hnegative, if_false] at hfound
    cases hget : xs[i.toNat]? with
    | none => simp [hget] at hfound
    | some y =>
      rw [hget] at hfound
      obtain rfl := Except.ok.inj hfound
      exact List.mem_of_getElem? hget

namespace Derive

/-- The request of a session, with something else for the objects that it needs. -/
def query (f : ρ → τ) : Derive ρ → Query τ
  | pipe x => .pipe (f x)
  | copy => .copy
  | stages => .stages
  | get index => .get index

/-- The objects that it needs. -/
def operands : Derive ρ → List ρ
  | pipe x => [x]
  | _ => []

/-- The derivation with its objects looked up. -/
def resolve (look : ρ → Except ε τ) : Derive ρ → Except ε (Derive τ)
  | pipe x => return .pipe (← look x)
  | copy => .ok .copy
  | stages => .ok .stages
  | get index => .ok (.get index)

/-- What is made out of the object that is asked. -/
def perform : Derive Ref → Ref → Building Ref
  | pipe x, .command n => do return .pipeline (← pipeCommand n x)
  | pipe x, .pipeline q => do return .pipeline (← pipePipeline q x)
  | copy, .command n => do return .command (← Builder.copy n)
  | stages, .pipeline q => do
    let s ← MonadState.get
    return .commands (← copies (s.stages q))
  | get index, .pipeline q => do
    let s ← MonadState.get
    let n ← verify (orFault (nth (s.stages q) index))
    return .command (← Builder.copy n)
  | _, x => do
    let s ← MonadState.get
    throw (s.read x).refuse

end Derive

/-! ### Looking up -/

variable {σ : Type} {look : ρ → Except ε τ} {y : τ}

theorem mapM_map_eq (look : ρ → Except ε τ) (f : τ → σ) (xs : List ρ) :
    xs.mapM (fun x => (look x).map f) = (xs.mapM look).map (List.map f) := by
  induction xs with
  | nil => rfl
  | cons x xs ih =>
    rw [List.mapM_cons, List.mapM_cons, ih]
    cases look x with
    | error e => rfl
    | ok y => cases xs.mapM look <;> rfl

theorem exists_of_mem_mapM {xs : List ρ} {ys : List τ} (hlooked : xs.mapM look = .ok ys)
    (hmem : y ∈ ys) : ∃ x, look x = .ok y := by
  induction xs generalizing ys with
  | nil =>
    obtain rfl := Except.ok.inj hlooked
    cases hmem
  | cons x xs ih =>
    rw [List.mapM_cons] at hlooked
    obtain ⟨z, hfirst, hrest⟩ := Line.bind_eq_ok_iff.1 hlooked
    obtain ⟨zs, hothers, hsame⟩ := Line.bind_eq_ok_iff.1 hrest
    obtain rfl := Except.ok.inj hsame
    rcases List.mem_cons.1 hmem with rfl | hmem
    · exact ⟨x, hfirst⟩
    · exact ih hothers hmem

/-- A session that looks up the values has the request of what is looked up here. -/
theorem Blueprint.resolve_maker (look : ρ → Except ε τ) (f : τ → σ) (b : Blueprint ρ) :
    (b.maker id).resolve (fun x => (look x).map f) = (b.resolve look).map (·.maker f) := by
  cases b with
  | pipeline stages =>
    simp only [maker, Maker.resolve, resolve, List.map_id, mapM_map_eq]
    cases stages.mapM look <;> rfl
  | _ => rfl

theorem Change.resolve_query (look : ρ → Except ε τ) (f : τ → σ) (c : Change ρ) :
    (c.query id).resolve (fun x => (look x).map f) = (c.resolve look).map (·.query f) := by
  cases c with
  | add x | combine x =>
    simp only [query, id, Query.resolve, resolve]
    cases look x <;> rfl
  | _ => rfl

theorem Derive.resolve_query (look : ρ → Except ε τ) (f : τ → σ) (d : Derive ρ) :
    (d.query id).resolve (fun x => (look x).map f) = (d.resolve look).map (·.query f) := by
  cases d with
  | pipe x =>
    simp only [query, id, Query.resolve, resolve]
    cases look x <;> rfl
  | _ => rfl

/-- The objects that are needed were looked up. -/
theorem Blueprint.exists_of_mem_operands {b : Blueprint ρ} {b' : Blueprint τ}
    (hresolved : b.resolve look = .ok b') (hmem : y ∈ b'.operands) : ∃ x, look x = .ok y := by
  cases b with
  | pipeline stages =>
    obtain ⟨ys, hlooked, hsame⟩ := Line.bind_eq_ok_iff.1 hresolved
    obtain rfl := Except.ok.inj hsame
    exact exists_of_mem_mapM hlooked hmem
  | _ =>
    obtain rfl := Except.ok.inj hresolved
    cases hmem

theorem Derive.exists_of_mem_operands {d : Derive ρ} {d' : Derive τ}
    (hresolved : d.resolve look = .ok d') (hmem : y ∈ d'.operands) : ∃ x, look x = .ok y := by
  cases d with
  | pipe x =>
    obtain ⟨z, hlooked, hsame⟩ := Line.bind_eq_ok_iff.1 hresolved
    obtain rfl := Except.ok.inj hsame
    obtain rfl := List.mem_singleton.1 hmem
    exact ⟨x, hlooked⟩
  | _ =>
    obtain rfl := Except.ok.inj hresolved
    cases hmem

end Pipework.Builder
