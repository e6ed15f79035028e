import Pipework.Proofs.Builder.Operations

/-!
# What the operations do

An operation on objects agrees with the request of a session: the answer, and the object that was
asked, read afterwards as the session has them. Beyond what a session can say, an operation is seen
here to leave other objects alone. What it makes is new. What it changes is the one object that it
is asked of, and if it fails then it changes nothing.

## Main definitions

* `Ref.Apart` — the one may be changed without the other
* `Store.Yields` — something new is made, and what there was is left as it was
* `Store.Changes` — one object is changed, and nothing is if that fails

## Main results

* `Blueprint.exists_yields`, `Derive.exists_yields` — what is made is new, and is what a session
  makes
* `Change.exists_changes` — what is changed is one object, as a session changes it
-/

namespace Pipework.Builder

open Store (pipeline_revised_of_getLast? pipeline_revised_of_notMem command_revised_of_ne
  pipeline_joined pipeline_joined_of_ne)

/-- What two references stand for may be changed one without the other. -/
def Ref.Apart : Ref → Ref → Prop
  | .command n, .command m => n ≠ m
  | .command n, .commands ms => n ∉ ms
  | .commands ns, .command m => m ∉ ns
  | .pipeline p, .pipeline q => p ≠ q
  | _, _ => True

variable {s t : Store} {x y : Ref}

/-- Something new is made which reads as the value has it, and what there was is left as it was. -/
structure Store.Yields (s : Store) (value : Except Failure Item)
    (outcome : Except Failure Ref × Store) : Prop where
  sound : outcome.2.Sound
  grows : s.Grows outcome.2
  leaves : s.Extends outcome.2
  shown : ∀ x, outcome.1 = .ok x → outcome.2.Public x ∧ s.Predates x
  reads : outcome.1.map outcome.2.read = value

/-- One object is changed to what the value has for it, or nothing if that fails. -/
structure Store.Changes (s : Store) (x : Ref) (value : Except Failure Item × Item)
    (outcome : Except Failure Ref × Store) : Prop where
  sound : outcome.2.Sound
  grows : s.Grows outcome.2
  leaves : ∀ f, outcome.1 = .error f → s.Extends outcome.2
  shown : ∀ y, outcome.1 = .ok y → outcome.2.Public y
  others : ∀ y, s.Public y → x.Apart y → outcome.2.read y = s.read y
  reads : (outcome.1.map outcome.2.read, outcome.2.read x) = value

namespace Store

/-- What was refused changed nothing. -/
theorem Changes.refused (hsound : s.Sound) (x : Ref) (f : Failure) :
    s.Changes x (.error f, s.read x) (.error f, s) where
  sound := hsound
  grows := .refl s
  leaves _ _ := .refl s
  shown := nofun
  others _ _ _ := rfl
  reads := rfl

/-- What was refused made nothing. -/
theorem Yields.refused (hsound : s.Sound) (f : Failure) : s.Yields (.error f) (.error f, s) where
  sound := hsound
  grows := .refl s
  leaves := .refl s
  shown := nofun
  reads := rfl

/-- A new command. -/
theorem Yields.placed (hsound : s.Sound) (c : Command) :
    s.Yields (.ok (.command c)) (.ok (.command s.commands.length), s.furnished [c]) where
  sound := hsound.furnished _
  grows := .furnished s _
  leaves := .furnished s _
  shown x hsame := by
    obtain rfl := Except.ok.inj hsame
    refine ⟨⟨by simp [furnished], fun hmem => ?_⟩, Nat.le_refl _⟩
    exact absurd (hsound.lt_of_mem hmem) (Nat.lt_irrefl _)
  reads := by simp [Except.map, Store.read, command, furnished]

/-- New commands. -/
theorem Yields.placedAll (hsound : s.Sound) (cs : List Command) :
    s.Yields (.ok (.commands cs))
      (.ok (.commands (List.range' s.commands.length cs.length)), s.furnished cs) where
  sound := hsound.furnished _
  grows := .furnished s _
  leaves := .furnished s _
  shown x hsame := by
    obtain rfl := Except.ok.inj hsame
    refine ⟨fun n hmem => ?_, fun n hmem => (List.mem_range'_1.1 hmem).1⟩
    have hbounds := List.mem_range'_1.1 hmem
    refine ⟨by simpa [furnished] using hbounds.2, fun hold => ?_⟩
    exact absurd (hsound.lt_of_mem hold) (Nat.not_lt_of_le hbounds.1)
  reads := by
    refine congrArg (fun cs => Except.ok (Item.commands cs)) (List.ext_getElem (by simp) ?_)
    intro i _ hlt
    simp [command, furnished, hlt]

/-- A new pipeline. -/
theorem Founds.yields (hsound : s.Sound) {stages : Except Misuse (List Stage)} {a : Building Nat}
    (hfounds : s.Founds stages (a.outcome s)) :
    s.Yields ((orMisuse (stages.map Pipeline.mk)).map .pipeline)
      ((do return .pipeline (← a) : Building Ref).outcome s) := by
  obtain ⟨more, hnamed, hall, houtcome⟩ := hfounds
  cases stages with
  | error m =>
    rw [Action.outcome_bind_of_error houtcome]
    exact ⟨hsound.founded hnamed, (Grows.opened s).trans (.joined (by simp [opened]) more),
      .founded s more, nofun, rfl⟩
  | ok stages =>
    obtain rfl := hall stages rfl
    rw [Action.outcome_bind_of_ok houtcome]
    refine ⟨hsound.founded hnamed, (Grows.opened s).trans (.joined (by simp [opened]) more),
      .founded s more, fun x hsame => ?_, ?_⟩
    · obtain rfl := Except.ok.inj hsame
      exact ⟨by simp [Public, joined, opened], Nat.le_refl _⟩
    · exact congrArg (fun p => Except.ok (Item.pipeline p)) (hsound.pipeline_founded more)

/-- What is made after something else was put there is new all the same. -/
theorem Yields.after {value : Except Failure Item} {outcome : Except Failure Ref × Store}
    (hgrows : s.Grows t) (hleaves : s.Extends t) (h : t.Yields value outcome) :
    s.Yields value outcome where
  sound := h.sound
  grows := hgrows.trans h.grows
  leaves := hleaves.trans h.leaves
  shown x hsame := by
    obtain ⟨hshown, hnew⟩ := h.shown x hsame
    refine ⟨hshown, ?_⟩
    cases x with
    | command n => exact Nat.le_trans hgrows.commands hnew
    | pipeline p => exact Nat.le_trans hgrows.pipelines hnew
    | commands ns => exact fun n hmem => Nat.le_trans hgrows.commands (hnew n hmem)
    | value v => trivial
  reads := h.reads

end Store

/-- What a blueprint is made into is what a session makes. -/
theorem Blueprint.exists_yields (hsound : s.Sound) (b : Blueprint Ref)
    (hshown : ∀ x ∈ b.operands, s.Public x) :
    ∃ value, (∀ w, (b.maker s.read).perform.outcome w = (value, w)) ∧
      s.Yields value (b.build.outcome s) := by
  have hplaced (made : Except Failure Command) :
      s.Yields (made.map .command)
        ((do return .command (← placeOne (← verify made)) : Building Ref).outcome s) := by
    cases made with
    | error f => exact .refused hsound f
    | ok c => exact .placed hsound c
  cases b with
  | command program args => exact ⟨_, fun _ => rfl, hplaced _⟩
  | commandOfLine line => exact ⟨_, fun _ => rfl, hplaced _⟩
  | pipeline stages =>
    refine ⟨_, fun _ => rfl, ?_⟩
    have hget (n : Nat) (hmem : Ref.command n ∈ stages) : n < s.commands.length :=
      (hshown _ hmem).1
    have hmade := (founds_ofRefs hget).yields hsound
    rw [List.map_map, Pipeline.ofCommands_eq, List.mapM_map]
    exact hmade
  | pipelineOfLine line =>
    refine ⟨_, fun _ => rfl, ?_⟩
    cases hparsed : Line.parse line with
    | error flaw =>
      rw [build, hparsed]
      exact .refused hsound _
    | ok p =>
      obtain ⟨-, -, -, hnamed⟩ := Line.parse_eq_ok_iff.1 hparsed
      -- The commands of the line are there first, and then they are copied.
      have hget := s.exists_named_furnished hnamed
      have hlt (n : Nat) (hmem : Ref.command n ∈
          (List.range' s.commands.length p.stages.length).map Ref.command) :
          n < (s.furnished (p.stages.map .ofStage)).commands.length := by
        obtain ⟨n, hmem, ⟨⟩⟩ := List.mem_map.1 hmem
        obtain ⟨stage, -, hget⟩ := hget n hmem
        exact (List.getElem?_eq_some_iff.1 hget).1
      have hmade := founds_ofRefs hlt
      rw [Store.mapM_stageOf_of_named hget, s.map_written_furnished] at hmade
      have hyields := (hmade.yields (hsound.furnished _)).after (.furnished s _) (.furnished s _)
      have hput := outcome_place (p.stages.map .ofStage) s
      rw [List.length_map] at hput
      have hchecked : (verify (orFlaw (.ok p))).outcome s = (.ok p, s) := rfl
      rw [build, hparsed, Action.outcome_bind_of_ok hchecked, Action.outcome_bind_of_ok hput]
      exact hyields

/-! ### What is made out of something -/

/-- A command that runs nothing replies by itself. -/
theorem run_perform_command {q : Query Item} {c : Command} (halone : q.runner? (.command c) = none)
    (w : World) :
    (q.perform (.command c)).run w = (Query.keeping .command (.command c) (q.onCommand c), w) := by
  rw [Query.perform, halone]
  rfl

/-- A pipeline that runs nothing replies by itself. -/
theorem run_perform_pipeline {q : Query Item} {p : Pipeline}
    (halone : q.runner? (.pipeline p) = none) (w : World) :
    (q.perform (.pipeline p)).run w =
      (Query.keeping .pipeline (.pipeline p) (q.onPipeline p), w) := by
  rw [Query.perform, halone]
  rfl

/-- A reply that only makes something leaves what was asked. -/
theorem keeping_of_made {α : Type} {wrap : α → Item} {a : α} {made : Except Failure Item}
    {reply : Except Failure (Item × α)} (hsame : reply = made.map fun x => (x, a)) :
    Query.keeping wrap (wrap a) reply = (made, wrap a) := by
  rw [hsame]
  cases made <;> rfl

/-- A command that is asked to be continued makes a pipeline. -/
theorem run_perform_pipe_command (c : Command) (y : Item) (w : World) :
    ((Query.pipe y).perform (.command c)).run w =
      (((orMisuse (c.pipe y.joinable)).map .pipeline, .command c), w) := by
  refine (run_perform_command rfl w).trans (congrArg (·, w) (keeping_of_made ?_))
  simp only [Query.onCommand]
  cases c.pipe y.joinable <;> rfl

/-- A pipeline that is asked to be continued makes another one. -/
theorem run_perform_pipe_pipeline (p : Pipeline) (y : Item) (w : World) :
    ((Query.pipe y).perform (.pipeline p)).run w =
      (((orMisuse (p.combine y.joinable)).map .pipeline, .pipeline p), w) := by
  refine (run_perform_pipeline rfl w).trans (congrArg (·, w) (keeping_of_made ?_))
  simp only [Query.onPipeline]
  cases p.combine y.joinable <;> rfl

/-- A copy of a command. -/
theorem yields_copy (hsound : s.Sound) (n : Nat) :
    s.Yields ((orMisuse (s.command n).copy).map .command)
      ((do return .command (← copy n) : Building Ref).outcome s) := by
  rw [Command.copy]
  cases hnamed : (s.command n).stage with
  | ok stage =>
    rw [Action.outcome_bind_of_ok (outcome_copy_of_ok hnamed)]
    exact .placed hsound _
  | error m =>
    rw [Action.outcome_bind_of_error (outcome_copy_of_error hnamed)]
    exact .refused hsound _

theorem Store.Sound.map_ofStage (hsound : s.Sound) (q : Nat) :
    (s.pipeline q).stages.map Command.ofStage = (s.stages q).map s.command := by
  rw [Store.pipeline, List.map_map]
  refine List.map_congr_left fun n hmem => ?_
  obtain ⟨stage, -, hget⟩ := hsound.named n (Store.mem_placed_of_mem_stages hmem)
  rw [Function.comp, Store.command_eq_of_getElem? hget, Command.written_ofStage]

/-- Copies of all stages. -/
theorem yields_stages (hsound : s.Sound) (q : Nat) :
    s.Yields (.ok (.commands ((s.pipeline q).stages.map .ofStage)))
      ((Derive.stages.perform (.pipeline q)).outcome s) := by
  have hplaced : ∀ n ∈ s.stages q, n ∈ s.placed := fun n => Store.mem_placed_of_mem_stages
  have hcopied := outcome_copies hsound hplaced
  have hyields := Store.Yields.placedAll hsound ((s.stages q).map s.command)
  rw [List.length_map] at hyields
  rw [hsound.map_ofStage, Derive.perform, Action.outcome_bind_of_ok (Action.outcome_get s),
    Action.outcome_bind_of_ok hcopied]
  exact hyields

/-- The copy of the stage at an index. -/
theorem yields_get (hsound : s.Sound) (q : Nat) (index : Int) :
    s.Yields ((orFault ((s.pipeline q).get index)).map fun stage => .command (.ofStage stage))
      (((Derive.get index).perform (.pipeline q)).outcome s) := by
  rw [get_eq_nth, Store.pipeline, nth_map, Derive.perform,
    Action.outcome_bind_of_ok (Action.outcome_get s)]
  cases hfound : nth (s.stages q) index with
  | error f => exact .refused hsound _
  | ok n =>
    obtain ⟨stage, hnamed, hget⟩ :=
      hsound.named n (Store.mem_placed_of_mem_stages (mem_of_nth hfound))
    have hcopied := yields_copy hsound n
    have hcommand := Store.command_eq_of_getElem? hget
    rw [Command.copy, hcommand, Command.stage_ofStage hnamed] at hcopied
    have hchecked : (verify (orFault (.ok n))).outcome s = (.ok n, s) := rfl
    rw [Action.outcome_bind_of_ok hchecked]
    simpa only [Except.map, hcommand, Command.written_ofStage, orFault, orMisuse, Except.mapError]
      using hcopied

/-- What is made out of something is what a session makes, which leaves it as it was. -/
theorem Derive.exists_yields (hsound : s.Sound) (d : Derive Ref)
    (hshown : ∀ y ∈ d.operands, s.Public y) (x : Ref) :
    ∃ value, (∀ w, ((d.query s.read).perform (s.read x)).run w = ((value, s.read x), w)) ∧
      s.Yields value ((d.perform x).outcome s) := by
  cases d with
  | pipe y =>
    have hgiven := hshown y List.mem_cons_self
    -- A session joins what the objects read as.
    cases x with
    | command n =>
      have hyields := (founds_pipeCommand hsound n hgiven).yields hsound
      have hvalue : (s.command n).pipe (s.read y).joinable =
          (do return (← s.stagesOf (.command n)) ++ (← s.stagesOf y)).map Pipeline.mk :=
        Command.pipe_eq _ _
      rw [← hvalue] at hyields
      exact ⟨_, run_perform_pipe_command _ _, hyields⟩
    | pipeline q =>
      have hyields := (founds_pipePipeline hsound q hgiven).yields hsound
      have hvalue : (s.pipeline q).combine (s.read y).joinable =
          ((s.stagesOf y).map ((s.pipeline q).stages ++ ·)).map Pipeline.mk := by
        rw [Pipeline.combine_eq, Store.stagesOf]
        cases (s.read y).joinable.stages <;> rfl
      rw [← hvalue] at hyields
      exact ⟨_, run_perform_pipe_pipeline _ _, hyields⟩
    | _ => exact ⟨_, fun _ => rfl, .refused hsound _⟩
  | copy =>
    cases x with
    | command n =>
      refine ⟨_, fun w => ?_, yields_copy hsound n⟩
      refine (run_perform_command rfl w).trans (congrArg (·, w) (keeping_of_made ?_))
      simp only [query, Query.onCommand]
      cases (s.command n).copy <;> rfl
    | _ => exact ⟨_, fun _ => rfl, .refused hsound _⟩
  | stages =>
    cases x with
    | pipeline q =>
      refine ⟨_, fun w => ?_, yields_stages hsound q⟩
      exact (run_perform_pipeline rfl w).trans (congrArg (·, w) (keeping_of_made rfl))
    | _ => exact ⟨_, fun _ => rfl, .refused hsound _⟩
  | get index =>
    cases x with
    | pipeline q =>
      refine ⟨_, fun w => ?_, yields_get hsound q index⟩
      refine (run_perform_pipeline rfl w).trans (congrArg (·, w) (keeping_of_made ?_))
      simp only [query, Query.onPipeline]
      cases (s.pipeline q).get index <;> rfl
    | _ => exact ⟨_, fun _ => rfl, .refused hsound _⟩

/-! ### Changes -/

/-- A change of a command that is no stage. -/
theorem changes_revise_command {n : Nat} (hsound : s.Sound) (hshown : s.Public (.command n))
    (f : Command → Command) {answer : Ref} {item : Item}
    (hown : answer = .command n ∧ item = .command (f (s.command n)) ∨
      answer = .value .null ∧ item = .nothing) :
    s.Changes (.command n) (.ok item, .command (f (s.command n))) (.ok answer, s.revised n f) where
  sound := hsound.revised fun hmem => absurd hmem hshown.2
  grows := .revised s n f
  leaves := nofun
  shown y hsame := by
    obtain rfl := Except.ok.inj hsame
    rcases hown with ⟨rfl, -⟩ | ⟨rfl, -⟩
    · exact hshown.mono (.revised s n f)
    · trivial
  -- A public command is no stage, so that no pipeline shows the change.
  others y hshown' hapart := by
    cases y with
    | command m => exact congrArg Item.command (s.command_revised_of_ne hapart f)
    | pipeline q =>
      have haway : n ∉ s.stages q := fun hmem => hshown.2 (Store.mem_placed_of_mem_stages hmem)
      exact congrArg Item.pipeline (s.pipeline_revised_of_notMem haway f)
    | commands ms =>
      refine congrArg Item.commands (List.map_congr_left fun m hmem => ?_)
      refine s.command_revised_of_ne ?_ f
      rintro rfl
      exact hapart hmem
    | value v => rfl
  reads := by
    have hrevised : (s.revised n f).read (.command n) = .command (f (s.command n)) :=
      congrArg Item.command (s.command_revised_self hshown.1 f)
    rcases hown with ⟨rfl, rfl⟩ | ⟨rfl, rfl⟩
    · simp only [Except.map, hrevised]
    · simp only [Except.map, hrevised]
      rfl

/-- A change of the last stage of a pipeline. -/
theorem changes_revise_last {n p : Nat} (hsound : s.Sound) (hshown : s.Public (.pipeline p))
    (hlast : (s.stages p).getLast? = some n) {f : Command → Command}
    (hkeeps : ∀ c : Command, c.isNamed → (f c).isNamed) :
    let changed : Pipeline :=
      { stages := (s.pipeline p).stages.dropLast ++ [(f (s.command n)).written] }
    s.Changes (.pipeline p) (.ok (.pipeline changed), .pipeline changed)
      (.ok (.pipeline p), s.revised n f) := by
  have hmem : n ∈ s.stages p := List.mem_of_getLast? hlast
  have hown : (s.revised n f).pipeline p = _ := pipeline_revised_of_getLast? hsound hlast f
  refine ⟨hsound.revised fun _ => hkeeps, .revised s n f, nofun, ?_, ?_, ?_⟩
  · intro y hsame
    obtain rfl := Except.ok.inj hsame
    exact hshown.mono (.revised s n f)
  · intro y hshown' hapart
    -- A command that is held by somebody is no stage.
    have haway {m : Nat} (hfree : m ∉ s.placed) : (s.revised n f).command m = s.command m := by
      refine command_revised_of_ne ?_ f
      rintro rfl
      exact hfree (Store.mem_placed_of_mem_stages hmem)
    cases y with
    | command m => exact congrArg Item.command (haway hshown'.2)
    | pipeline q =>
      have hother : n ∉ s.stages q := fun hmem' => hapart (hsound.eq_of_mem hmem hmem')
      exact congrArg Item.pipeline (pipeline_revised_of_notMem hother f)
    | commands ms =>
      exact congrArg Item.commands (List.map_congr_left fun m hmem => haway (hshown' m hmem).2)
    | value v => rfl
  · simp only [Except.map, Store.read, hown]

/-- Stages join a pipeline, unless there are none to be had. -/
theorem changes_join {p : Nat} (hsound : s.Sound) (hshown : s.Public (.pipeline p))
    {given : Except Misuse (List Stage)} (hnamed : ∀ more, given = .ok more → Line.Named more)
    {a : Building Unit} (hjoins : a.outcome s = s.join p given) :
    s.Changes (.pipeline p)
      (Query.keeping .pipeline (.pipeline (s.pipeline p))
        (Query.onPipeline.changed
          (given.map fun more => { stages := (s.pipeline p).stages ++ more })))
      ((do a; return .pipeline p : Building Ref).outcome s) := by
  cases given with
  | error m =>
    rw [Action.outcome_bind_of_error hjoins]
    exact .refused hsound _ _
  | ok more =>
    have hgrows : s.Grows (s.joined p more) := .joined hshown more
    have hown : (s.joined p more).pipeline p = _ := pipeline_joined hsound hshown more
    rw [Action.outcome_bind_of_ok hjoins]
    -- What joins are copies, so that whatever else is public reads as before.
    refine ⟨hsound.joined hshown (hnamed more rfl), hgrows, nofun, ?_, ?_, ?_⟩
    · intro y hsame
      obtain rfl := Except.ok.inj hsame
      exact hshown.mono hgrows
    · intro y hshown' hapart
      cases y with
      | command m => exact congrArg Item.command (Store.command_joined hshown'.1 p more)
      | pipeline q => exact congrArg Item.pipeline (pipeline_joined_of_ne hsound hapart more)
      | commands ms =>
        exact congrArg Item.commands
          (List.map_congr_left fun m hmem => Store.command_joined (hshown' m hmem).1 p more)
      | value v => rfl
    · simp only [Action.outcome_pure, Except.map, Store.read, hown]
      rfl

/-- One stage joins a pipeline, unless there is none to be had. -/
theorem changes_push {p : Nat} (hsound : s.Sound) (hshown : s.Public (.pipeline p))
    {given : Except Misuse Stage} (hnamed : ∀ stage, given = .ok stage → stage.program ≠ "")
    {a : Building Unit} (hjoins : a.outcome s = s.join p (given.map ([·]))) :
    s.Changes (.pipeline p)
      (Query.keeping .pipeline (.pipeline (s.pipeline p))
        (Query.onPipeline.changed (given.map (s.pipeline p).push)))
      ((do a; return .pipeline p : Building Ref).outcome s) := by
  have hpushed : given.map (s.pipeline p).push =
      (given.map ([·])).map fun more => { stages := (s.pipeline p).stages ++ more } := by
    cases given <;> rfl
  rw [hpushed]
  refine changes_join hsound hshown (fun more hsame => ?_) hjoins
  cases given with
  | error m => cases hsame
  | ok stage =>
    obtain rfl := Except.ok.inj hsame
    exact Line.named_cons.2 ⟨hnamed stage rfl, List.forall_mem_nil _⟩

/-- Arguments are given to the last stage of a pipeline, if there is one. -/
theorem Store.exists_current (s : Store) (p : Nat) :
    (∃ n, (s.stages p).getLast? = some n ∧ (current p).outcome s = (.ok n, s) ∧
      ∀ values, (s.pipeline p).args values = .ok
        { stages := (s.pipeline p).stages.dropLast ++ [((s.command n).extend values).written] }) ∨
      (current p).outcome s = (.error (.error Misuse.noCommand.error), s) ∧
        ∀ values, (s.pipeline p).args values = .error .noCommand := by
  have hlast : (s.pipeline p).stages.getLast? =
      ((s.stages p).getLast?).map fun n => (s.command n).written := List.getLast?_map
  simp only [Pipeline.args, hlast, outcome_current]
  cases (s.stages p).getLast? with
  | none => exact .inr ⟨rfl, fun _ => rfl⟩
  | some n => exact .inl ⟨n, rfl, rfl, fun _ => rfl⟩

/-- What is done to a command is what a session has of it. -/
theorem Change.changes_command {n : Nat} (hsound : s.Sound) (c : Change Ref)
    (hshown : s.Public (.command n)) :
    s.Changes (.command n)
      (Query.keeping .command (.command (s.command n))
        (Query.onCommand (s.command n) (c.query s.read)))
      ((c.perform (.command n)).outcome s) := by
  cases c with
  | arg value => exact changes_revise_command hsound hshown (·.arg value) (.inl ⟨rfl, rfl⟩)
  | setProgram program =>
    exact changes_revise_command hsound hshown (·.setProgram program) (.inr ⟨rfl, rfl⟩)
  | extend values =>
    rw [query, Query.onCommand, perform]
    cases values.items with
    | error f => exact .refused hsound _ _
    | ok values => exact changes_revise_command hsound hshown (·.extend values) (.inl ⟨rfl, rfl⟩)
  | _ => exact .refused hsound _ _

/-- What is done to a pipeline is what a session has of it. -/
theorem Change.changes_pipeline {p : Nat} (hsound : s.Sound) (c : Change Ref)
    (hshown : s.Public (.pipeline p)) :
    s.Changes (.pipeline p)
      (Query.keeping .pipeline (.pipeline (s.pipeline p))
        (Query.onPipeline (s.pipeline p) (c.query s.read)))
      ((c.perform (.pipeline p)).outcome s) := by
  cases c with
  | addCommand program =>
    have hchanges :=
      changes_push hsound hshown (fun _ hgiven => (Command.stage_eq_ok_iff.1 hgiven).1)
        (outcome_addCommand p program s)
    rw [query, Query.onPipeline, Command.ofValues_nil]
    cases hgiven : ({ program } : Command).stage with
    | error m =>
      rw [hgiven] at hchanges
      exact hchanges
    | ok stage =>
      -- A session looks at the name of the command again when it joins.
      have hnamed := Command.stage_ofStage (Command.stage_eq_ok_iff.1 hgiven).1
      have hpushed : (s.pipeline p).addCommand (.ofStage stage) =
          .ok ((s.pipeline p).push stage) := by
        rw [Pipeline.addCommand, hnamed]
        rfl
      rw [hgiven] at hchanges
      change s.Changes _ (Query.keeping _ _ (do
        let q ← orMisuse ((s.pipeline p).addCommand (.ofStage stage))
        return (.pipeline q, q))) _
      rw [hpushed]
      exact hchanges
  | add y =>
    have hchanges := changes_push hsound hshown (fun _ => Joinable.named_stage) (outcome_add p y s)
    rw [query, Query.onPipeline, Pipeline.add_eq]
    exact hchanges
  | combine y =>
    have hchanges :=
      changes_join hsound hshown (fun _ => hsound.named_stagesOf) (outcome_combine hsound p y)
    rw [query, Query.onPipeline, Pipeline.combine_eq]
    exact hchanges
  | arg value =>
    rw [query, Query.onPipeline]
    rcases s.exists_current p with ⟨n, hlast, hcurrent, hadded⟩ | ⟨hcurrent, hrefused⟩
    · rw [hadded, perform, Action.outcome_bind_of_ok hcurrent]
      exact changes_revise_last hsound hshown hlast (f := (·.arg value)) fun _ hnamed => hnamed
    · rw [hrefused, perform, Action.outcome_bind_of_error hcurrent]
      exact .refused hsound _ _
  | args values =>
    rw [query, Query.onPipeline]
    -- The last stage is asked for before the arguments are gone through.
    rcases s.exists_current p with ⟨n, hlast, hcurrent, hadded⟩ | ⟨hcurrent, hrefused⟩
    · rw [hadded, perform, Action.outcome_bind_of_ok hcurrent]
      cases values.items with
      | error f => exact .refused hsound _ _
      | ok values =>
        change s.Changes _
          (Query.keeping _ _ (Query.onPipeline.changed ((s.pipeline p).args values))) _
        rw [hadded]
        exact changes_revise_last hsound hshown hlast (f := (·.extend values)) fun _ hnamed =>
          hnamed
    · rw [hrefused, perform, Action.outcome_bind_of_error hcurrent]
      exact .refused hsound _ _
  | _ => exact .refused hsound _ _

/-- What is done to something is what a session has of it. -/
theorem Change.exists_changes (hsound : s.Sound) (c : Change Ref) (hshown : s.Public x) :
    ∃ value, (∀ w, ((c.query s.read).perform (s.read x)).run w = (value, w)) ∧
      s.Changes x value ((c.perform x).outcome s) := by
  have halone (y : Item) : (c.query s.read).runner? y = none := by cases c <;> rfl
  cases x with
  | command n => exact ⟨_, run_perform_command (halone _), c.changes_command hsound hshown⟩
  | pipeline p => exact ⟨_, run_perform_pipeline (halone _), c.changes_pipeline hsound hshown⟩
  | commands ns => cases c <;> exact ⟨_, fun _ => rfl, .refused hsound _ _⟩
  | value v => cases c <;> exact ⟨_, fun _ => rfl, .refused hsound _ _⟩

end Pipework.Builder
