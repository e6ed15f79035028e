import Pipework.Proofs.Builder.Store
import Pipework.Session.Reply

/-!
# Building as it is done to objects

Pipelines are built step by step: a command is copied and the copy is put at the end of a pipeline,
one command after another where there are several. Each of these steps may fail, and what was done
before stays done. Here the steps are written down as they are done to the objects of a store, and
it is shown what becomes of the store.

What becomes of it is decided by the values alone: the stages that join a pipeline are those that
the values give. All stages of a sound pipeline have names, so that nothing fails halfway when
these join another one. A failure halfway is only to be had while a new pipeline is made, which
nobody gets to see.

## Main definitions

* `place`, `copy`, `append`, `addCommand`, `add`, `addAll`, `combine`, `pipeCommand`,
  `pipePipeline` — the steps, each by the ones before it
* `Joinable.stage`, `Joinable.stages` — what a value gives to a pipeline
* `Store.join` — stages join a pipeline, unless there are none to be had
* `Store.Founds` — a new pipeline is made, unless there are no stages for it

## Main results

* `outcome_add`, `outcome_combine` — a pipeline is continued with what the value gives
* `exists_outcome_addAll`, `outcome_addAll_stages` — the same with one after another
* `founds_ofRefs`, `founds_pipeCommand`, `founds_pipePipeline` — the pipelines that are made
* `outcome_copies` — copies are new commands with the same content
-/

namespace Pipework

open Line (Named)

/-! ### What values give -/

namespace Joinable

/-- The stage that is given as a command. -/
def stage : Joinable → Except Misuse Stage
  | command c => c.stage
  | x => .error (.notCommand x.kind)

/-- The stages that are given as a command or as a pipeline. -/
def stages : Joinable → Except Misuse (List Stage)
  | command c => c.stage.map ([·])
  | pipeline p => .ok p.stages
  | x => .error (.notCombinable x.kind)

end Joinable

namespace Command

variable {c : Command} {s : Stage}

theorem stage_eq_ok_iff : c.stage = .ok s ↔ s.program ≠ "" ∧ c = ofStage s := by
  obtain ⟨program, args⟩ := c
  cases program with
  | text name =>
    by_cases hempty : name = ""
    · subst hempty
      constructor
      · exact nofun
      · rintro ⟨hnamed, hsame⟩
        exact absurd (Value.text.inj (Command.mk.inj hsame).1).symm hnamed
    · have hnonempty : name.isEmpty = false := by simpa using hempty
      simp only [stage, hnonempty, Bool.false_eq_true, if_false]
      constructor
      · intro hsame
        obtain rfl := Except.ok.inj hsame
        exact ⟨hempty, rfl⟩
      · rintro ⟨-, hsame⟩
        obtain ⟨hprogram, rfl⟩ := Command.mk.inj hsame
        obtain rfl := Value.text.inj hprogram
        rfl
  | _ =>
    constructor
    · exact nofun
    · rintro ⟨-, hsame⟩
      cases (Command.mk.inj hsame).1

/-- The stage of a command has a name, for the command of it would have none otherwise. -/
theorem stage_ofStage (hnamed : s.program ≠ "") : (ofStage s).stage = .ok s :=
  stage_eq_ok_iff.2 ⟨hnamed, rfl⟩

/-- A command without a name for its program is no stage. -/
theorem stage_of_not_isNamed (hunnamed : c.isNamed = false) :
    c.stage = .error .unnamedProgram := by
  obtain ⟨program, args⟩ := c
  cases program with
  | text name =>
    have hempty : name.isEmpty = true := by simpa [isNamed] using hunnamed
    simp [stage, hempty]
  | _ => rfl

end Command

/-- A new command without arguments is looked at like one whose stage is asked for. -/
theorem Command.ofValues_nil (program : Value) :
    Command.ofValues program [] = ({ program } : Command).stage.map Command.ofStage := by
  rw [ofValues, stage]
  cases program with
  | text name =>
    cases hempty : name.isEmpty with
    | true => simp [isNamed, hempty, Except.map]
    | false => simp [isNamed, hempty, Except.map, ofStage]
  | _ => rfl

namespace Pipeline

theorem add_eq (p : Pipeline) (x : Joinable) : p.add x = x.stage.map p.push := by
  cases x <;> rfl

theorem combine_eq (p : Pipeline) (x : Joinable) :
    p.combine x = x.stages.map fun more => { stages := p.stages ++ more } := by
  cases x with
  | command c =>
    rw [combine, addCommand, Joinable.stages]
    cases c.stage <;> rfl
  | pipeline q => rfl
  | other kind => rfl

theorem ofCommands_eq (xs : List Joinable) :
    ofCommands xs = (xs.mapM Joinable.stage).map Pipeline.mk := by
  have hcontinued (p : Pipeline) :
      xs.foldlM add p = (xs.mapM Joinable.stage).map fun more =>
        { stages := p.stages ++ more } := by
    -- The induction is on the items, for the pipeline as it is when their turn comes.
    induction xs generalizing p with
    | nil => simp [pure, Except.pure, Except.map]
    | cons x xs ih =>
      rw [List.foldlM_cons, List.mapM_cons, add_eq]
      cases x.stage with
      | error m => rfl
      | ok s =>
        change (xs.foldlM add (p.push s)) = _
        rw [ih]
        cases xs.mapM Joinable.stage with
        | error m => rfl
        | ok more => simp [bind, Except.bind, pure, Except.pure, Except.map, push]
  rw [ofCommands, hcontinued]
  rfl

end Pipeline

theorem Command.pipe_eq (c : Command) (x : Joinable) :
    c.pipe x = (do return (← (Joinable.command c).stages) ++ (← x.stages)).map Pipeline.mk := by
  rw [pipe, Pipeline.addCommand, Joinable.stages]
  cases c.stage with
  | error m => rfl
  | ok s =>
    change Pipeline.combine _ x = _
    rw [Pipeline.combine_eq]
    cases x.stages <;> rfl

namespace Joinable

theorem named_stage {x : Joinable} {s : Stage} (hgiven : x.stage = .ok s) : s.program ≠ "" := by
  cases x with
  | command c => exact (Command.stage_eq_ok_iff.1 hgiven).1
  | _ => cases hgiven

/-- The stages that a command gives have names, and so have those of a pipeline if it is sound. -/
theorem named_stages {x : Joinable} {more : List Stage}
    (hsound : ∀ p, x = .pipeline p → Named p.stages) (hgiven : x.stages = .ok more) :
    Named more := by
  cases x with
  | command c =>
    rw [stages] at hgiven
    cases hstage : c.stage with
    | error m =>
      rw [hstage] at hgiven
      cases hgiven
    | ok s =>
      rw [hstage] at hgiven
      obtain rfl := Except.ok.inj hgiven
      exact Line.named_cons.2 ⟨(Command.stage_eq_ok_iff.1 hstage).1, nofun⟩
  | pipeline p =>
    obtain rfl := Except.ok.inj hgiven
    exact hsound p rfl
  | other kind => cases hgiven

end Joinable

namespace Builder

/-! ### The steps -/

/-- What is done to the objects. -/
abbrev Building (α : Type) := Action Store Failure α

/-- Something is checked that the objects have nothing to do with. -/
def verify {α : Type} (x : Except Failure α) : Building α := .ofFun fun s => (x, s)

/-- New commands. -/
def place (cs : List Command) : Building (List Nat) := .ofFun fun s =>
  (.ok (List.range' s.commands.length cs.length), s.furnished cs)

/-- A new command. -/
def placeOne (c : Command) : Building Nat := .ofFun fun s =>
  (.ok s.commands.length, s.furnished [c])

/-- A new command with the content of another, whose program must have a name. -/
def copy (n : Nat) : Building Nat := do
  let s ← get
  placeOne (← verify (orMisuse (s.command n).copy))

/-- Copies of commands, one after another. -/
def copies : List Nat → Building (List Nat)
  | [] => return []
  | n :: ns => return (← copy n) :: (← copies ns)

/-- A new pipeline, without stages. -/
def empty : Building Nat := .ofFun fun s => (.ok s.pipelines.length, s.opened)

/-- A command comes to the end of a pipeline. -/
def append (p n : Nat) : Building Unit :=
  modify fun s => { s with pipelines := s.pipelines.modify p (· ++ [n]) }

/-- A new command of a program comes to the end of a pipeline. -/
def addCommand (p : Nat) (program : Value) : Building Unit := do
  let c ← verify (orMisuse (Command.ofValues program []))
  append p (← placeOne c)

/-- A copy of a command comes to the end of a pipeline. -/
def add (p : Nat) : Ref → Building Unit
  | .command n => do append p (← copy n)
  | x => throw (.error (Misuse.notCommand x.kind).error)

/-- Copies of commands come to the end of a pipeline, one after another. -/
def addAll (p : Nat) : List Ref → Building Unit
  | [] => return
  | x :: xs => do
    add p x
    addAll p xs

/-- A new pipeline of copies of the commands. -/
def ofRefs (xs : List Ref) : Building Nat := do
  let p ← empty
  addAll p xs
  return p

/-- A pipeline is continued with a copy of a command, or with copies of all stages of a pipeline.
The stages are looked up before the first of them is added, since it may be the same pipeline. -/
def combine (p : Nat) : Ref → Building Unit
  | .command n => add p (.command n)
  | .pipeline q => do
    let s ← get
    addAll p ((s.stages q).map .command)
  | x => throw (.error (Misuse.notCombinable x.kind).error)

/-- A new pipeline that begins with a copy of a command and is continued with something else. -/
def pipeCommand (n : Nat) (x : Ref) : Building Nat := do
  let p ← empty
  add p (.command n)
  combine p x
  return p

/-- A new pipeline of copies of the stages of a pipeline, continued with something else. -/
def pipePipeline (q : Nat) (x : Ref) : Building Nat := do
  let s ← get
  let p ← ofRefs ((s.stages q).map .command)
  combine p x
  return p

/-- The last stage of a pipeline. -/
def current (p : Nat) : Building Nat := do
  let s ← get
  match (s.stages p).getLast? with
  | some n => return n
  | none => throw (.error Misuse.noCommand.error)

/-- A command is changed. -/
def revise (n : Nat) (f : Command → Command) : Building Unit := modify fun s => s.revised n f

/-! ### What becomes of the store -/

variable {s t : Store} {p q n : Nat} {m : Misuse} {more : List Stage}

@[simp] theorem outcome_verify {α : Type} (x : Except Failure α) (s : Store) :
    (verify x).outcome s = (x, s) := rfl

@[simp] theorem outcome_placeOne (c : Command) (s : Store) :
    (placeOne c).outcome s = (.ok s.commands.length, s.furnished [c]) := rfl

@[simp] theorem outcome_place (cs : List Command) (s : Store) :
    (place cs).outcome s = (.ok (List.range' s.commands.length cs.length), s.furnished cs) := rfl

@[simp] theorem outcome_empty (s : Store) :
    empty.outcome s = (.ok s.pipelines.length, s.opened) := rfl

namespace Store

/-- The stage that a reference gives to a pipeline. -/
def stageOf (s : Store) (x : Ref) : Except Misuse Stage := (s.read x).joinable.stage

/-- The stages that a reference gives to a pipeline. -/
def stagesOf (s : Store) (x : Ref) : Except Misuse (List Stage) := (s.read x).joinable.stages

/-- The stages join a pipeline, if there is no misuse in place of them. -/
def join (s : Store) (p : Nat) : Except Misuse (List Stage) → Except Failure Unit × Store
  | .ok more => (.ok (), s.joined p more)
  | .error m => (.error (.error m.error), s)

/-- What comes of the making of a new pipeline: it has the stages, or else there is a misuse, and
some stages may have joined before it was found. -/
def Founds (s : Store) (stages : Except Misuse (List Stage))
    (outcome : Except Failure Nat × Store) : Prop :=
  ∃ more, Named more ∧ (∀ all, stages = .ok all → more = all) ∧
    outcome = (orMisuse (stages.map fun _ => s.pipelines.length),
      s.opened.joined s.pipelines.length more)

end Store

theorem outcome_copy_of_ok {stage : Stage} (hnamed : (s.command n).stage = .ok stage) :
    (copy n).outcome s = (.ok s.commands.length, s.furnished [.ofStage stage]) := by
  have hcopied : (s.command n).copy = .ok (.ofStage stage) := by rw [Command.copy, hnamed]; rfl
  simp [copy, Action.outcome_bind, hcopied, orMisuse, Except.mapError]

theorem outcome_copy_of_error (hunnamed : (s.command n).stage = .error m) :
    (copy n).outcome s = (.error (.error m.error), s) := by
  have hrefused : (s.command n).copy = .error m := by rw [Command.copy, hunnamed]; rfl
  simp [copy, Action.outcome_bind, hrefused, orMisuse, Except.mapError]

/-- A pipeline is continued with the stage that a command gives. -/
theorem outcome_add (p : Nat) (x : Ref) (s : Store) :
    (add p x).outcome s = s.join p ((s.stageOf x).map ([·])) := by
  cases x with
  | command n =>
    rw [add, Store.stageOf, Store.read, Item.joinable, Joinable.stage]
    cases hnamed : (s.command n).stage with
    | ok stage =>
      rw [Action.outcome_bind_of_ok (outcome_copy_of_ok hnamed), append, Action.outcome_modify]
      rfl
    | error m =>
      rw [Action.outcome_bind_of_error (outcome_copy_of_error hnamed)]
      rfl
  | _ => rfl

/-- A pipeline is continued with a new command, if its program has a name. -/
theorem outcome_addCommand (p : Nat) (program : Value) (s : Store) :
    (addCommand p program).outcome s =
      s.join p ((({ program } : Command).stage).map ([·])) := by
  rw [addCommand, Command.ofValues_nil]
  cases ({ program } : Command).stage <;> rfl

/-- The last stage of a pipeline is asked for. -/
theorem outcome_current (p : Nat) (s : Store) :
    (current p).outcome s =
      match (s.stages p).getLast? with
      | some n => (.ok n, s)
      | none => (.error (.error Misuse.noCommand.error), s) := by
  rw [current, Action.outcome_bind_of_ok (Action.outcome_get s)]
  cases (s.stages p).getLast? <;> rfl

/-- What is had of each of several things depends on what is had of one. -/
theorem mapM_congr {α β ε : Type} {f g : α → Except ε β} {xs : List α}
    (hsame : ∀ x ∈ xs, f x = g x) : xs.mapM f = xs.mapM g := by
  have heach : xs.map f = xs.map g := List.map_congr_left hsame
  simpa only [List.mapM_map, Function.id_comp] using congrArg (List.mapM id) heach

/-- What references give depends on the commands among them. -/
theorem Store.mapM_stageOf_congr {xs : List Ref}
    (hsame : ∀ n, Ref.command n ∈ xs → t.command n = s.command n) :
    xs.mapM t.stageOf = xs.mapM s.stageOf := by
  refine mapM_congr fun x hmem => ?_
  cases x with
  | command n => rw [stageOf, stageOf, Store.read, Store.read, hsame n hmem]
  | _ => rfl

/-- Commands that are added one after another give their stages to the pipeline, up to the first
that has none. -/
theorem exists_outcome_addAll {xs : List Ref}
    (hget : ∀ n, Ref.command n ∈ xs → n < s.commands.length) (p : Nat) :
    ∃ more, Named more ∧ (∀ all, xs.mapM s.stageOf = .ok all → more = all) ∧
      (addAll p xs).outcome s =
        (orMisuse ((xs.mapM s.stageOf).map fun _ => ()), s.joined p more) := by
  -- Each command that is added changes the store for those that remain.
  induction xs generalizing s with
  | nil =>
    refine ⟨[], nofun, fun all hgiven => Except.ok.inj hgiven, ?_⟩
    rw [Store.joined_nil]
    rfl
  | cons x xs ih =>
    rw [addAll, List.mapM_cons]
    have hfirst := outcome_add p x s
    cases hgiven : s.stageOf x with
    | error m =>
      rw [hgiven] at hfirst
      refine ⟨[], nofun, nofun, ?_⟩
      rw [Action.outcome_bind_of_error hfirst, Store.joined_nil]
      rfl
    | ok stage =>
      rw [hgiven] at hfirst
      -- The new command is at a new number, so that the others give what they gave.
      have hsame : xs.mapM (s.joined p [stage]).stageOf = xs.mapM s.stageOf :=
        Store.mapM_stageOf_congr fun n hmem =>
          Store.command_joined (hget n (List.mem_cons_of_mem _ hmem)) p _
      have hget' (n : Nat) (hmem : Ref.command n ∈ xs) :
          n < (s.joined p [stage]).commands.length :=
        Nat.lt_of_lt_of_le (hget n (List.mem_cons_of_mem _ hmem)) (by simp [Store.joined])
      obtain ⟨more, hnamed, hall, houtcome⟩ := ih hget'
      rw [hsame] at hall houtcome
      refine ⟨stage :: more, Line.named_cons.2 ⟨Joinable.named_stage hgiven, hnamed⟩, ?_, ?_⟩
      · intro stages hgiven'
        obtain ⟨_, hsame', hrest⟩ := Line.bind_eq_ok_iff.1 hgiven'
        obtain rfl := Except.ok.inj hsame'
        obtain ⟨others, hgiven'', hsame'⟩ := Line.bind_eq_ok_iff.1 hrest
        obtain rfl := Except.ok.inj hsame'
        rw [hall others hgiven'']
      · rw [Action.outcome_bind_of_ok hfirst, houtcome, Store.joined_joined]
        cases xs.mapM s.stageOf <;> rfl

/-! ### Continuing a pipeline -/

/-- The stages of a sound pipeline have names. -/
theorem Store.Sound.named_pipeline (hsound : s.Sound) (q : Nat) : Named (s.pipeline q).stages := by
  intro _ hmem
  obtain ⟨n, hmem', rfl⟩ := List.mem_map.1 hmem
  obtain ⟨stage, hnamed, hget⟩ := hsound.named n (Store.mem_placed_of_mem_stages hmem')
  rw [Store.command_eq_of_getElem? hget]
  exact hnamed

theorem Store.Sound.lt_of_given (hsound : s.Sound)
    (hmem : Ref.command n ∈ (s.stages q).map Ref.command) : n < s.commands.length := by
  obtain ⟨n, hmem, ⟨⟩⟩ := List.mem_map.1 hmem
  exact hsound.lt_of_mem (Store.mem_placed_of_mem_stages hmem)

/-- Commands with names give their stages. -/
theorem Store.mapM_stageOf_of_named {ns : List Nat}
    (hnamed : ∀ n ∈ ns,
      ∃ stage : Stage, stage.program ≠ "" ∧ s.commands[n]? = some (.ofStage stage)) :
    (ns.map Ref.command).mapM s.stageOf = .ok (ns.map fun n => (s.command n).written) := by
  rw [List.mapM_map]
  refine (mapM_congr fun n hmem => ?_).trans (List.mapM_pure (f := fun n => (s.command n).written))
  obtain ⟨stage, hnamed, hget⟩ := hnamed n hmem
  rw [Function.comp, Store.stageOf, Store.read, Store.command_eq_of_getElem? hget]
  exact Command.stage_ofStage hnamed

/-- All stages of a sound pipeline are given as commands. -/
theorem Store.Sound.mapM_stageOf (hsound : s.Sound) (q : Nat) :
    ((s.stages q).map Ref.command).mapM s.stageOf = .ok (s.pipeline q).stages :=
  Store.mapM_stageOf_of_named fun n hmem => hsound.named n (Store.mem_placed_of_mem_stages hmem)

/-- Adding all stages of a sound pipeline does not fail. -/
theorem outcome_addAll_stages (hsound : s.Sound) (p q : Nat) :
    (addAll p ((s.stages q).map .command)).outcome s =
      (.ok (), s.joined p (s.pipeline q).stages) := by
  have hgiven := hsound.mapM_stageOf q
  obtain ⟨more, -, hall, houtcome⟩ :=
    exists_outcome_addAll (fun n => hsound.lt_of_given (q := q)) p
  rw [houtcome, hgiven, hall _ hgiven]
  rfl

/-- A pipeline is continued with the stages that a reference gives. -/
theorem outcome_combine (hsound : s.Sound) (p : Nat) (x : Ref) :
    (combine p x).outcome s = s.join p (s.stagesOf x) := by
  cases x with
  | command n =>
    rw [combine, outcome_add]
    rfl
  | pipeline q =>
    rw [combine, Action.outcome_bind_of_ok (Action.outcome_get s),
      outcome_addAll_stages hsound p q]
    rfl
  | _ => rfl

/-! ### New pipelines -/

/-- A new pipeline of the stages that the references give. -/
theorem founds_ofRefs {xs : List Ref} (hget : ∀ n, Ref.command n ∈ xs → n < s.commands.length) :
    s.Founds (xs.mapM s.stageOf) ((ofRefs xs).outcome s) := by
  obtain ⟨more, hnamed, hall, houtcome⟩ :=
    exists_outcome_addAll (s := s.opened) hget s.pipelines.length
  -- The new pipeline is empty and has no part in what the items give.
  have hsame : xs.mapM s.opened.stageOf = xs.mapM s.stageOf :=
    Store.mapM_stageOf_congr fun n _ => rfl
  rw [hsame] at hall houtcome
  refine ⟨more, hnamed, hall, ?_⟩
  rw [ofRefs, Action.outcome_bind_of_ok (outcome_empty s)]
  cases hgiven : xs.mapM s.stageOf with
  | error m =>
    rw [hgiven] at houtcome
    rw [Action.outcome_bind_of_error houtcome]
    rfl
  | ok stages =>
    rw [hgiven] at houtcome
    rw [Action.outcome_bind_of_ok houtcome]
    rfl

/-- What is public gives the same to a pipeline after more has been done. -/
theorem Store.Extends.stagesOf (h : s.Extends t) (hsound : s.Sound) {x : Ref}
    (hshown : s.Public x) : t.stagesOf x = s.stagesOf x := by
  rw [Store.stagesOf, Store.stagesOf, h.read hsound hshown]

theorem Store.Sound.named_stagesOf (hsound : s.Sound) {x : Ref}
    (hgiven : s.stagesOf x = .ok more) : Named more := by
  refine Joinable.named_stages (fun q hsame => ?_) hgiven
  cases x with
  | pipeline p =>
    obtain rfl := Joinable.pipeline.inj hsame
    exact hsound.named_pipeline p
  | _ => cases hsame

/-- The store in which a new pipeline has some stages. -/
theorem Store.Sound.founded (hsound : s.Sound) (hnamed : Named more) :
    (s.opened.joined s.pipelines.length more).Sound :=
  hsound.opened.joined (by simp [Store.opened]) hnamed

theorem Store.Sound.pipeline_founded (hsound : s.Sound) (more : List Stage) :
    (s.opened.joined s.pipelines.length more).pipeline s.pipelines.length =
      { stages := more } := by
  have hnew : s.opened.pipeline s.pipelines.length = {} := by
    simp [Store.pipeline, Store.stages, Store.opened]
  rw [Store.pipeline_joined hsound.opened (by simp [Store.opened]), hnew, List.nil_append]

theorem Store.Extends.founded (s : Store) (more : List Stage) :
    s.Extends (s.opened.joined s.pipelines.length more) :=
  (Extends.opened s).joined (Nat.le_refl _) more

/-- A new pipeline that has its first stages is continued. -/
theorem founds_continued (hsound : s.Sound) {first : List Stage} (hnamed : Named first) {y : Ref}
    (hshown : s.Public y) :
    s.Founds ((s.stagesOf y).map (first ++ ·))
      ((do combine s.pipelines.length y; return s.pipelines.length : Building Nat).outcome
        (s.opened.joined s.pipelines.length first)) := by
  have houtcome := outcome_combine (hsound.founded hnamed) s.pipelines.length y
  rw [(Store.Extends.founded s first).stagesOf hsound hshown] at houtcome
  cases hgiven : s.stagesOf y with
  | error m =>
    -- The first stages stay where they are, in a pipeline that nobody gets to see.
    rw [hgiven] at houtcome
    refine ⟨first, hnamed, nofun, ?_⟩
    rw [Action.outcome_bind_of_error houtcome]
    rfl
  | ok rest =>
    rw [hgiven] at houtcome
    refine ⟨first ++ rest, List.forall_mem_append.2 ⟨hnamed, hsound.named_stagesOf hgiven⟩,
      fun all hsame => Except.ok.inj hsame, ?_⟩
    rw [Action.outcome_bind_of_ok houtcome, Store.joined_joined]
    rfl

/-- The stage that a command gives begins a new pipeline, and what the other gives comes after
it. -/
theorem founds_pipeCommand (hsound : s.Sound) (n : Nat) {x : Ref} (hshown : s.Public x) :
    s.Founds (do return (← s.stagesOf (.command n)) ++ (← s.stagesOf x))
      ((pipeCommand n x).outcome s) := by
  have houtcome := outcome_add s.pipelines.length (.command n) s.opened
  rw [pipeCommand, Action.outcome_bind_of_ok (outcome_empty s)]
  have hfirst : s.stagesOf (.command n) = (s.opened.stageOf (.command n)).map ([·]) := rfl
  rw [hfirst]
  cases hgiven : s.opened.stageOf (.command n) with
  | error m =>
    rw [hgiven] at houtcome
    refine ⟨[], nofun, nofun, ?_⟩
    rw [Action.outcome_bind_of_error houtcome, Store.joined_nil]
    rfl
  | ok stage =>
    rw [hgiven] at houtcome
    rw [Action.outcome_bind_of_ok houtcome]
    exact founds_continued hsound
      (Line.named_cons.2 ⟨Joinable.named_stage hgiven, List.forall_mem_nil _⟩) hshown

/-- The stages of a pipeline begin a new one, and those that the other gives come after them. -/
theorem founds_pipePipeline (hsound : s.Sound) (q : Nat) {x : Ref} (hshown : s.Public x) :
    s.Founds ((s.stagesOf x).map ((s.pipeline q).stages ++ ·)) ((pipePipeline q x).outcome s) := by
  obtain ⟨more, hnamed, hall, houtcome⟩ := founds_ofRefs fun n => hsound.lt_of_given (q := q)
  rw [hsound.mapM_stageOf q] at hall houtcome
  obtain rfl := hall _ rfl
  rw [pipePipeline, Action.outcome_bind_of_ok (Action.outcome_get s),
    Action.outcome_bind_of_ok houtcome]
  exact founds_continued hsound hnamed hshown

/-! ### Copies of stages -/

theorem Store.furnished_furnished (s : Store) (cs ds : List Command) :
    (s.furnished cs).furnished ds = s.furnished (cs ++ ds) := by
  simp [Store.furnished]

/-- Copies of stages are new commands with the same content. -/
theorem outcome_copies (hsound : s.Sound) {ns : List Nat} (hplaced : ∀ n ∈ ns, n ∈ s.placed) :
    (copies ns).outcome s =
      (.ok (List.range' s.commands.length ns.length), s.furnished (ns.map s.command)) := by
  induction ns generalizing s with
  | nil => simp [copies, Store.furnished]
  | cons n ns ih =>
    obtain ⟨stage, hnamed, hget⟩ := hsound.named n (hplaced n List.mem_cons_self)
    have hcommand := Store.command_eq_of_getElem? hget
    have hfirst : (copy n).outcome s = (.ok s.commands.length, s.furnished [s.command n]) := by
      rw [hcommand]
      exact outcome_copy_of_ok (hcommand ▸ Command.stage_ofStage hnamed)
    -- The others are where they were.
    have hsame : ns.map (s.furnished [s.command n]).command = ns.map s.command :=
      List.map_congr_left fun m hmem => (Store.Extends.furnished s _).command_eq
        (hsound.lt_of_mem (hplaced m (List.mem_cons_of_mem _ hmem)))
    have hothers :=
      ih (hsound.furnished [s.command n]) fun m hmem => hplaced m (List.mem_cons_of_mem _ hmem)
    rw [hsame, Store.furnished_furnished] at hothers
    rw [copies, Action.outcome_bind_of_ok hfirst, Action.outcome_bind_of_ok hothers]
    simp [Store.furnished, List.range'_succ]

end Builder

end Pipework
