import Pipework.Proofs.Builder.Desk

/-!
# Pipelines that were built can be run

Whatever a program does with commands and pipelines, every stage of every pipeline has a name for
its program. The name of a command is looked at only when it is made or copied, and a program may
set the program of a command to anything afterwards; but no pipeline has that command for a stage,
only a copy that was made while it had a name.

Sessions work with values in registers. They have the same answers as a program that works with
objects, as long as this does not hold on to one object under two names. For then two registers
hold nothing in common, and a change of the one is not to be seen in the other.

## Main definitions

* `Desk.Apart` — no two names stand for the same object

## Main results

* `Desk.Agrees.call`, `Desk.Agrees.run` — a session has the answers of a program that works with
  objects
* `Desk.always_runnable` — pipelines can be run, joining them does not fail, and what fails changes
  nothing
-/

namespace Pipework.Builder

variable {s : Store} {x y : Ref}

/-- What is new has nothing in common with what a program holds on to. -/
theorem Ref.apart_of_predates (hnew : s.Predates x) (hshown : s.Public y) :
    x.Apart y ∧ y.Apart x := by
  have hne {m n : Nat} (hnew : s.commands.length ≤ n) (hold : m < s.commands.length) : n ≠ m :=
    Nat.ne_of_gt (Nat.lt_of_lt_of_le hold hnew)
  -- What is new comes after all that there was, commands and pipelines alike.
  cases x with
  | command n =>
    cases y with
    | command m => exact ⟨hne hnew hshown.1, (hne hnew hshown.1).symm⟩
    | commands ms =>
      exact ⟨fun hmem => hne hnew (hshown n hmem).1 rfl,
        fun hmem => hne hnew (hshown n hmem).1 rfl⟩
    | _ => exact ⟨trivial, trivial⟩
  | pipeline p =>
    cases y with
    | pipeline q =>
      have hne : p ≠ q := Nat.ne_of_gt (Nat.lt_of_lt_of_le hshown hnew)
      exact ⟨hne, hne.symm⟩
    | _ => exact ⟨trivial, trivial⟩
  | commands ns =>
    cases y with
    | command m =>
      exact ⟨fun hmem => hne (hnew m hmem) hshown.1 rfl,
        fun hmem => hne (hnew m hmem) hshown.1 rfl⟩
    | _ => exact ⟨trivial, trivial⟩
  | value v => cases y <;> exact ⟨trivial, trivial⟩

namespace Desk

variable {d : Desk} {name : String}

/-- No two names stand for the same object. -/
def Apart (d : Desk) : Prop :=
  ∀ name other x y, name ≠ other → d.held name = some x → d.held other = some y → x.Apart y

/-- A new object may get a name. -/
theorem Apart.settle (hapart : d.Apart) (h : d.Sound) {done : Except Failure Ref × Store}
    (hnew : ∀ x, done.1 = .ok x → d.store.Predates x) (target : Option String) :
    (d.settle target done).2.Apart := by
  rw [Desk.settle]
  cases hanswer : done.1 with
  | error f => exact hapart
  | ok x =>
    cases target with
    | none => exact hapart
    | some target =>
      intro name other y z hne hget hget'
      rcases held_hold_iff.1 hget with ⟨rfl, rfl⟩ | ⟨-, hold⟩
      · rcases held_hold_iff.1 hget' with ⟨rfl, -⟩ | ⟨-, hold'⟩
        · exact absurd rfl hne
        · exact (Ref.apart_of_predates (hnew x hanswer) (h.held other z hold')).1
      · rcases held_hold_iff.1 hget' with ⟨rfl, rfl⟩ | ⟨-, hold'⟩
        · exact (Ref.apart_of_predates (hnew x hanswer) (h.held name y hold)).2
        · exact hapart name other y z hne hold hold'

namespace Agrees

variable {s : Session}

/-- An answer gets the same name in both. -/
theorem settle {done : Except Failure Ref × Store}
    (hagrees : ({ d with store := done.2 } : Desk).Agrees s) (target : Option String) :
    (s.settle target (done.1.map done.2.read)).1 = (d.settle target done).1 ∧
      (d.settle target done).2.Agrees (s.settle target (done.1.map done.2.read)).2 := by
  rw [Desk.settle]
  cases done.1 with
  | error f => exact ⟨rfl, hagrees⟩
  | ok x =>
    cases target with
    | none => exact ⟨rfl, hagrees⟩
    | some target =>
      refine ⟨rfl, fun name => ?_⟩
      by_cases hsame : name = target
      · rw [hsame]
        simp [hold, Session.settle, Except.map]
      · simp only [hold, hsame, if_false]
        exact (Registers.lookup_put_of_ne _ _ hsame).trans (hagrees name)

/-- A session has the same of a call, and nothing is done to its world. -/
theorem call (hagrees : d.Agrees s) (h : d.Sound) (hapart : d.Apart) (c : Call) :
    (s.execute c.step).1 = (d.call c).1 ∧ (d.call c).2.Agrees (s.execute c.step).2 ∧
      (s.execute c.step).2.world = s.world ∧ (d.call c).2.Apart := by
  rcases h.call_cases c with ⟨name, houtcome, hsession⟩ |
    ⟨target, value, done, houtcome, hyields, hsession⟩ |
    ⟨name, x, value, done, hheld, houtcome, hchanges, hsession⟩
  · rw [houtcome, hsession s hagrees]
    exact ⟨rfl, hagrees, rfl, hapart⟩
  · obtain ⟨rs, hsame, hexecuted⟩ := hsession s hagrees
    -- What is held is left as it was.
    have hafter : ({ d with store := done.2 } : Desk).Agrees ⟨rs, s.world⟩ := by
      intro name
      refine (hsame name).trans ((hagrees name).trans ?_)
      cases hget : d.held name with
      | none => rfl
      | some x => exact congrArg some (hyields.leaves.read h.store (h.held name x hget)).symm
    obtain ⟨hanswer, hlater⟩ := settle hafter target
    rw [hyields.reads] at hanswer hlater
    rw [houtcome, hexecuted]
    exact ⟨hanswer, hlater, Session.world_settle _ _ _,
      hapart.settle h (fun x hanswer => (hyields.shown x hanswer).2) target⟩
  · -- What is held under other names is apart, and so it is left as it was.
    have hafter : ({ d with store := done.2 } : Desk).Agrees
        ⟨s.registers.put name value.2, s.world⟩ := by
      intro other
      by_cases hsame : other = name
      · subst hsame
        rw [Registers.lookup_put_self, hheld, ← hchanges.reads]
        rfl
      · refine (Registers.lookup_put_of_ne _ _ hsame).trans ((hagrees other).trans ?_)
        cases hget : d.held other with
        | none => rfl
        | some y =>
          have hleft := hchanges.others y (h.held other y hget)
            (hapart name other x y (Ne.symm hsame) hheld hget)
          exact congrArg some hleft.symm
    obtain ⟨hanswer, hlater⟩ := settle hafter none
    have hreads : done.1.map done.2.read = value.1 := congrArg Prod.fst hchanges.reads
    rw [hreads] at hanswer hlater
    rw [houtcome, hsession s hagrees]
    refine ⟨hanswer, hlater, Session.world_settle _ _ _, ?_⟩
    rw [Desk.settle]
    cases done.1 <;> exact hapart

/-- A session has the same of one call after another. -/
theorem run (hagrees : d.Agrees s) (h : d.Sound) (hapart : d.Apart) (calls : List Call) :
    (s.run (calls.map Call.step)).1.map (·.outcome) = (d.run (calls.map .call)).1 ∧
      (d.run (calls.map .call)).2.Agrees (s.run (calls.map Call.step)).2 ∧
      (s.run (calls.map Call.step)).2.world = s.world ∧ (d.run (calls.map .call)).2.Apart := by
  induction calls generalizing d s with
  | nil => exact ⟨rfl, hagrees, rfl, hapart⟩
  | cons c calls ih =>
    obtain ⟨hanswer, hafter, hworld, hapart'⟩ := hagrees.call h hapart c
    obtain ⟨hanswers, hlater, hworld', hapart''⟩ := ih hafter (h.execute (.call c)) hapart'
    refine ⟨?_, hlater, hworld'.trans hworld, hapart''⟩
    rw [List.map_cons, List.map_cons, Session.run, Desk.run, List.map_cons]
    exact congrArg₂ List.cons hanswer hanswers

end Agrees

/-- Joining sound pipelines does not fail: the one has the stages of both, or a new pipeline
has. -/
theorem exists_joined {p q : Nat} (hsound : s.Sound) (hlt : p < s.pipelines.length)
    (hlt' : q < s.pipelines.length) :
    (∃ t, (combine p (.pipeline q)).outcome s = (.ok (), t) ∧
      t.pipeline p = { stages := (s.pipeline p).stages ++ (s.pipeline q).stages }) ∧
    ∃ r t, (pipePipeline p (.pipeline q)).outcome s = (.ok r, t) ∧ s.Extends t ∧
      t.pipeline r = { stages := (s.pipeline p).stages ++ (s.pipeline q).stages } := by
  constructor
  · exact ⟨_, outcome_combine hsound p (.pipeline q), Store.pipeline_joined hsound hlt _⟩
  · obtain ⟨more, -, hall, houtcome⟩ := founds_pipePipeline hsound p (x := .pipeline q) hlt'
    obtain rfl := hall _ rfl
    exact ⟨s.pipelines.length, _, houtcome, .founded s _, hsound.pipeline_founded _⟩

/-- Whatever a program does with commands and pipelines, each stage of a pipeline is a command with
a name and is no stage at another place, nor is it held; two pipelines can be joined; and what
fails leaves all commands and pipelines as they were. A session that does the same has the same
answers and values, so that the pipelines in its registers have names for all their programs, and
what fails leaves its registers as they were. -/
theorem always_runnable :
    (∀ ops : List Op,
      let d := (({} : Desk).run ops).2
      (∀ n ∈ d.store.placed, ∃ stage : Stage,
        stage.program ≠ "" ∧ d.store.commands[n]? = some (.ofStage stage)) ∧
      d.store.placed.Nodup ∧
      (∀ name n, d.held name = some (.command n) → n ∉ d.store.placed) ∧
      (∀ p q, p < d.store.pipelines.length → q < d.store.pipelines.length →
        (∃ t, (combine p (.pipeline q)).outcome d.store = (.ok (), t) ∧
          t.pipeline p =
            { stages := (d.store.pipeline p).stages ++ (d.store.pipeline q).stages }) ∧
        ∃ r t, (pipePipeline p (.pipeline q)).outcome d.store = (.ok r, t) ∧ d.store.Extends t ∧
          t.pipeline r =
            { stages := (d.store.pipeline p).stages ++ (d.store.pipeline q).stages }) ∧
      ∀ op, (∀ x, (d.execute op).1 ≠ .answer x) →
        d.store.commands <+: (d.execute op).2.store.commands ∧
        d.store.pipelines <+: (d.execute op).2.store.pipelines ∧
        (d.execute op).2.held = d.held) ∧
    ∀ (calls : List Call) (world : World),
      let d := ({} : Desk).run (calls.map .call)
      let s := Session.run { world } (calls.map Call.step)
      s.1.map (·.outcome) = d.1 ∧
      (∀ name, s.2.registers.lookup name = (d.2.held name).map d.2.store.read) ∧
      s.2.world = world ∧
      (∀ name p, s.2.registers.lookup name = some (.pipeline p) → ∀ stage ∈ p.stages,
        stage.program ≠ "") ∧
      ∀ c : Call, (∀ x, (s.2.execute c.step).1 ≠ .answer x) →
        ∀ name, (s.2.execute c.step).2.registers.lookup name = s.2.registers.lookup name := by
  constructor
  · intro ops d
    have hsound : d.Sound := Sound.empty.run ops
    refine ⟨hsound.store.named, hsound.store.once, fun name n hget => (hsound.held name _ hget).2,
      fun p q => exists_joined hsound.store, fun op hfails => ?_⟩
    rcases hsound.leaves op with ⟨x, hanswer⟩ | ⟨hleaves, hheld⟩
    · exact absurd hanswer (hfails x)
    · exact ⟨hleaves.commands, hleaves.pipelines, hheld⟩
  · intro calls world d s
    have hbegun : ({} : Desk).Agrees { world } := fun _ => rfl
    obtain ⟨hanswers, hagrees, hsame, hapart⟩ := hbegun.run .empty nofun calls
    have hsound : d.2.Sound := Sound.empty.run _
    refine ⟨hanswers, hagrees, hsame, fun name p hget => ?_, fun c hfails name => ?_⟩
    · -- A pipeline in a register is what an object that is held reads as.
      have hread := (hagrees name).symm.trans hget
      obtain ⟨x, -, hread⟩ := Option.map_eq_some_iff.1 hread
      cases x with
      | pipeline q =>
        obtain rfl := Item.pipeline.inj hread
        exact hsound.store.named_pipeline q
      | _ => cases hread
    · obtain ⟨hanswer, hlater, -, -⟩ := hagrees.call hsound hapart c
      rcases hsound.leaves (.call c) with ⟨x, hanswer'⟩ | ⟨hleaves, hheld⟩
      · exact absurd (hanswer.trans hanswer') (hfails x)
      · -- Both sessions agree with their desks, and these hold the same objects.
        refine (hlater name).trans (Eq.trans ?_ (hagrees name).symm)
        change ((d.2.execute (.call c)).2.held name).map _ = _
        rw [hheld]
        cases hget : d.2.held name with
        | none => rfl
        | some x => exact congrArg some (hleaves.read hsound.store (hsound.held name x hget))

/-- A command that lost its name is no longer taken, and the pipeline keeps the copies of it. -/
theorem always_runnable_lost_name :
    let ops : List Op :=
      [.call (.make (.command (.text "ls") (.list [])) (some "c")),
        .call (.make (.pipeline [.register "c", .register "c"]) (some "p")),
        .call (.change "c" (.setProgram (.text "")))]
    let d := (({} : Desk).run ops).2
    let op : Op := .call (.change "p" (.combine (.register "c")))
    d.store.placed = [1, 2] ∧
      (∃ stage : Stage, stage.program ≠ "" ∧ d.store.commands[1]? = some (.ofStage stage)) ∧
      (∀ x, (d.execute op).1 ≠ .answer x) ∧
      d.store.commands <+: (d.execute op).2.store.commands ∧
      d.store.pipelines <+: (d.execute op).2.store.pipelines ∧ (d.execute op).2.held = d.held := by
  intro ops d op
  have hplaced : d.store.placed = [1, 2] := by decide +kernel
  have hfails (x : Item) : (d.execute op).1 ≠ .answer x := by
    rintro ⟨⟩
  obtain ⟨hnamed, -, -, -, hleaves⟩ := always_runnable.1 ops
  exact ⟨hplaced, hnamed 1 (by rw [hplaced]; decide), hfails, hleaves op hfails⟩

end Desk

end Pipework.Builder
