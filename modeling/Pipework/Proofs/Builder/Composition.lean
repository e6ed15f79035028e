import Pipework.Proofs.Builder.Runnable

/-!
# Compositions

Commands and pipelines are joined by expressions: an operator joins what stands on its left with
what stands on its right, and each of these may be an expression itself. How an expression is
bracketed does not matter. The pipeline that comes of it has the stages of the leaves, from left to
right, and there is no pipeline just if one of the leaves cannot be joined.

An expression is evaluated over items, as a session does it, and over objects. Over objects there
are more pipelines on the way than the one that comes out at last, but none of them is a leaf:
whatever comes of the expression, the leaves are left as they were.

## Main definitions

* `Item.argvs` — what an item has for the stages of a pipeline
* `Item.misuse?` — why an item cannot be joined with others, if it cannot
* `Composition` — an expression, with its `leaves` and those of them that are `continued`
* `Composition.evaluate`, `Composition.build` — evaluation over items, and over objects
* `Composition.Gives`, `Composition.Answers` — what may come of either

## Main results

* `Composition.evaluate_cases` — an expression has the stages of its leaves, or is refused for one
  of them
* `Composition.evaluate_pipe_of_leaves` — the leaves alone tell the pipeline that comes of an
  expression
* `Composition.exists_answers` — over objects there comes the same, and nothing else changes
* `combine_cases` — a pipeline that is continued in place has the stages of a new one
* `composed_of_leaves` — all of this for the objects that a program can hold on to
-/

namespace Pipework

/-! ### What items have for a pipeline -/

namespace Item

/-- Programs and arguments of the stages that the item has for a pipeline. -/
def argvs : Item → List (List Value)
  | command c => [c.argv]
  | pipeline p => p.argvs.map (·.map .text)
  | _ => []

/-- Why the item cannot be joined with others: it is a command without a name for its program, or
it is neither a command nor a pipeline. -/
def misuse? : Item → Option Misuse
  | command c => if c.isNamed then none else some .unnamedProgram
  | pipeline _ => none
  | x => some (.notCombinable x.kind)

/-- The item is a command or a pipeline, and can be asked to be continued. -/
def isChain : Item → Bool
  | command _ | pipeline _ => true
  | _ => false

/-- A pipeline is told by what it has. -/
theorem argvs_pipeline_inj {p q : Pipeline} : (pipeline p).argvs = (pipeline q).argvs ↔ p = q := by
  have htext {v v' : String} (hsame : Value.text v = .text v') : v = v' := Value.text.inj hsame
  rw [argvs, argvs, List.map_inj_right fun _ _ => (List.map_inj_right fun _ _ => htext).1,
    Pipeline.argvs_inj]

/-- What can be joined can be asked to be continued. -/
theorem isChain_of_misuse? {x : Item} (hfine : x.misuse? = none) : x.isChain := by
  cases x with
  | command c | pipeline p => rfl
  | _ => cases hfine

/-- The stages of an item that can be joined are those that a pipeline is continued with. -/
theorem exists_stages_of_misuse? {x : Item} (hfine : x.misuse? = none) :
    ∃ more, x.joinable.stages = .ok more ∧ x.argvs = more.map fun s => s.argv.map .text := by
  cases x with
  | command c =>
    have hnamed : c.isNamed := by simpa [misuse?] using hfine
    obtain ⟨s, hnonempty, rfl⟩ := Command.isNamed_iff.1 hnamed
    refine ⟨[s], ?_, rfl⟩
    rw [joinable, Joinable.stages, Command.stage_ofStage hnonempty]
    rfl
  | pipeline p => exact ⟨p.stages, rfl, List.map_map⟩
  | _ => cases hfine

/-- There are no stages to be had of an item that cannot be joined, for the same reason. -/
theorem stages_of_misuse? {x : Item} {m : Misuse} (hflawed : x.misuse? = some m) :
    x.joinable.stages = .error m := by
  cases x with
  | command c =>
    have hunnamed : c.isNamed = false ∧ Misuse.unnamedProgram = m := by
      simpa [misuse?] using hflawed
    obtain ⟨hunnamed, rfl⟩ := hunnamed
    rw [joinable, Joinable.stages, Command.stage_of_not_isNamed hunnamed]
    rfl
  | pipeline p => cases hflawed
  | _ => exact congrArg Except.error (Option.some.inj hflawed)

/-- There is a pipeline of the stages of items that can be joined. -/
theorem exists_pipeline_of_misuse? {xs : List Item} (hfine : ∀ x ∈ xs, x.misuse? = none) :
    ∃ p, (pipeline p).argvs = xs.flatMap argvs := by
  induction xs with
  | nil => exact ⟨{}, rfl⟩
  | cons x xs ih =>
    obtain ⟨more, -, hfirst⟩ := exists_stages_of_misuse? (hfine x List.mem_cons_self)
    obtain ⟨p, hrest⟩ := ih fun y hmem => hfine y (List.mem_cons_of_mem x hmem)
    refine ⟨⟨more ++ p.stages⟩, ?_⟩
    rw [List.flatMap_cons, hfirst, ← hrest]
    simp [argvs, Pipeline.argvs, Function.comp_def]

end Item

namespace Builder

/-- An expression that joins things of the type `ρ`. -/
inductive Composition (ρ : Type) where
  | leaf (x : ρ)
  | pipe (left right : Composition ρ)

namespace Composition

variable {ρ τ : Type}

/-- What is joined, from left to right. -/
def leaves : Composition ρ → List ρ
  | leaf x => [x]
  | pipe left right => left.leaves ++ right.leaves

/-- The leaves on the left of an operator, which is asked of them. -/
def continued : Composition ρ → List ρ
  | leaf _ => []
  | pipe (leaf x) right => x :: right.continued
  | pipe (pipe left middle) right => (pipe left middle).continued ++ right.continued

/-- The expression with other leaves. -/
def map (f : ρ → τ) : Composition ρ → Composition τ
  | leaf x => leaf (f x)
  | pipe left right => pipe (left.map f) (right.map f)

/-- Evaluation over items: an operator asks a query of what is on its left. -/
def evaluate : Composition Item → Action World Failure Item
  | leaf x => return x
  | pipe left right => do
    let x ← left.evaluate
    let y ← right.evaluate
    .ofFun fun w => let ((reply, _), w) := ((Query.pipe y).perform x).run w; (reply, w)

/-- Evaluation over objects. -/
def build : Composition Ref → Building Ref
  | leaf x => return x
  | pipe left right => do
    let x ← left.build
    let y ← right.build
    (Derive.pipe y).perform x

@[simp] theorem leaves_pipe (left right : Composition ρ) :
    (left.pipe right).leaves = left.leaves ++ right.leaves := rfl

/-- What becomes of the leaves is what becomes of the expression. -/
theorem map_congr {f g : ρ → τ} {e : Composition ρ} (hsame : ∀ x ∈ e.leaves, f x = g x) :
    e.map f = e.map g := by
  induction e with
  | leaf x => rw [map, map, hsame x List.mem_cons_self]
  | pipe left right ihl ihr =>
    have hsides := List.forall_mem_append.1 hsame
    rw [map, map, ihl hsides.1, ihr hsides.2]

/-- A leaf may be on the left of the outermost operator, or of one inside. -/
theorem mem_continued_pipe {left right : Composition ρ} {x : ρ} :
    x ∈ (left.pipe right).continued ↔
      left = leaf x ∨ x ∈ left.continued ∨ x ∈ right.continued := by
  cases left with
  | leaf y => simp [continued, eq_comm]
  | pipe left middle => simp [continued]

/-- What is continued is joined. -/
theorem mem_leaves_of_mem_continued {e : Composition ρ} {x : ρ} (hmem : x ∈ e.continued) :
    x ∈ e.leaves := by
  induction e with
  | leaf y => cases hmem
  | pipe left right ihl ihr =>
    rcases mem_continued_pipe.1 hmem with rfl | hmem | hmem
    · exact List.mem_append_left _ List.mem_cons_self
    · exact List.mem_append_left _ (ihl hmem)
    · exact List.mem_append_right _ (ihr hmem)

end Composition

/-! ### Evaluation over items -/

open Builder.Composition (leaf)

/-- An operator puts the stages of what is on its right behind those of what is on its left. -/
theorem run_perform_pipe {x : Item} (hchain : x.isChain) (y : Item) (w : World) :
    ((Query.pipe y).perform x).run w =
      (((orMisuse ((do return (← x.joinable.stages) ++ (← y.joinable.stages)) :
        Except Misuse (List Stage))).map fun more => .pipeline ⟨more⟩, x), w) := by
  cases x with
  | command c =>
    rw [run_perform_pipe_command, Command.pipe_eq, Item.joinable]
    cases (Joinable.command c).stages with
    | error m => rfl
    | ok first => cases y.joinable.stages <;> rfl
  | pipeline p =>
    rw [run_perform_pipe_pipeline, Pipeline.combine_eq]
    cases y.joinable.stages <;> rfl
  | _ => cases hchain

/-- What comes of one operator: the stages of both sides, or a refusal of one of them. -/
theorem pipe_cases {x : Item} (hchain : x.isChain) (y : Item) :
    (x.misuse? = none ∧ y.misuse? = none ∧ ∃ p, (∀ w, ((Query.pipe y).perform x).run w =
        ((.ok (.pipeline p), x), w)) ∧ (Item.pipeline p).argvs = x.argvs ++ y.argvs) ∨
      ∃ m, (x.misuse? = some m ∨ y.misuse? = some m) ∧ ∀ w,
        ((Query.pipe y).perform x).run w = ((.error (.error m.error), x), w) := by
  have hjoined := run_perform_pipe hchain y
  cases hx : x.misuse? with
  | some m =>
    refine .inr ⟨m, .inl rfl, ?_⟩
    rw [Item.stages_of_misuse? hx] at hjoined
    exact hjoined
  | none =>
    obtain ⟨first, hgiven, hargvs⟩ := Item.exists_stages_of_misuse? hx
    rw [hgiven] at hjoined
    cases hy : y.misuse? with
    | some m =>
      refine .inr ⟨m, .inr rfl, ?_⟩
      rw [Item.stages_of_misuse? hy] at hjoined
      exact hjoined
    | none =>
      obtain ⟨rest, hgiven', hargvs'⟩ := Item.exists_stages_of_misuse? hy
      rw [hgiven'] at hjoined
      refine .inl ⟨rfl, rfl, ⟨first ++ rest⟩, hjoined, ?_⟩
      rw [hargvs, hargvs', ← List.map_append]
      exact List.map_map

namespace Composition

variable {e left right : Composition Item} {w : World} {x y : Item} {f : Failure}

theorem evaluate_pipe_of_left (h : left.evaluate.outcome w = (.error f, w)) :
    (left.pipe right).evaluate.outcome w = (.error f, w) := by
  rw [evaluate, Action.outcome_bind_of_error h]

theorem evaluate_pipe_of_right (h : left.evaluate.outcome w = (.ok x, w))
    (h' : right.evaluate.outcome w = (.error f, w)) :
    (left.pipe right).evaluate.outcome w = (.error f, w) := by
  rw [evaluate, Action.outcome_bind_of_ok h, Action.outcome_bind_of_error h']

theorem evaluate_pipe (h : left.evaluate.outcome w = (.ok x, w))
    (h' : right.evaluate.outcome w = (.ok y, w)) {reply : Except Failure Item} {z : Item}
    (hreplies : ((Query.pipe y).perform x).run w = ((reply, z), w)) :
    (left.pipe right).evaluate.outcome w = (reply, w) := by
  rw [evaluate, Action.outcome_bind_of_ok h, Action.outcome_bind_of_ok h', Action.outcome_ofFun,
    hreplies]

/-- This may come of an expression. A leaf alone is not looked at; anything else is a pipeline, and
then all leaves could be joined. -/
structure Gives (e : Composition Item) (y : Item) : Prop where
  argvs : y.argvs = e.leaves.flatMap Item.argvs
  ends : e = leaf y ∨ (∃ p, y = .pipeline p) ∧ ∀ x ∈ e.leaves, x.misuse? = none

namespace Gives

/-- If it can be joined then so can the leaves. -/
theorem misuse?_leaves (h : e.Gives y) (hfine : y.misuse? = none) :
    ∀ x ∈ e.leaves, x.misuse? = none := by
  rcases h.ends with rfl | ⟨-, hall⟩
  · exact List.forall_mem_singleton.2 hfine
  · exact hall

/-- If it cannot be joined then it is a leaf. -/
theorem mem_leaves {m : Misuse} (h : e.Gives y) (hflawed : y.misuse? = some m) : y ∈ e.leaves := by
  rcases h.ends with rfl | ⟨⟨p, rfl⟩, -⟩
  · exact List.mem_cons_self
  · cases hflawed

/-- An operator is asked of a leaf, or of the pipeline that came of the left side. -/
theorem isChain (h : left.Gives x) (hchains : ∀ x ∈ (left.pipe right).continued, x.isChain) :
    x.isChain := by
  rcases h.ends with rfl | ⟨⟨p, rfl⟩, -⟩
  · exact hchains x (mem_continued_pipe.2 (.inl rfl))
  · rfl

end Gives

/-- What comes of an expression: the stages of its leaves, or a refusal of one of them. -/
theorem evaluate_cases (w : World) (hchains : ∀ x ∈ e.continued, x.isChain) :
    (∃ y, e.evaluate.outcome w = (.ok y, w) ∧ e.Gives y) ∨
      ∃ m, (∃ x ∈ e.leaves, x.misuse? = some m) ∧
        e.evaluate.outcome w = (.error (.error m.error), w) := by
  -- A flaw of what came of a side is that of a leaf, since pipelines have none.
  induction e with
  | leaf x => exact .inl ⟨x, rfl, by simp [leaves], .inl rfl⟩
  | pipe left right ihl ihr =>
    have hchainsl (x : Item) (hmem : x ∈ left.continued) : x.isChain :=
      hchains x (mem_continued_pipe.2 (.inr (.inl hmem)))
    have hchainsr (x : Item) (hmem : x ∈ right.continued) : x.isChain :=
      hchains x (mem_continued_pipe.2 (.inr (.inr hmem)))
    rcases ihl hchainsl with ⟨x, hleft, hgivesl⟩ | ⟨m, ⟨x, hmem, hflawed⟩, hleft⟩
    · rcases ihr hchainsr with ⟨y, hright, hgivesr⟩ | ⟨m, ⟨y, hmem, hflawed⟩, hright⟩
      · rcases pipe_cases (hgivesl.isChain hchains) y with
          ⟨hfinel, hfiner, p, hreplies, hjoined⟩ | ⟨m, hflawed | hflawed, hreplies⟩
        · refine .inl ⟨.pipeline p, evaluate_pipe hleft hright (hreplies w), ?_,
            .inr ⟨⟨p, rfl⟩, ?_⟩⟩
          · rw [hjoined, hgivesl.argvs, hgivesr.argvs, leaves_pipe, List.flatMap_append]
          · exact List.forall_mem_append.2
              ⟨hgivesl.misuse?_leaves hfinel, hgivesr.misuse?_leaves hfiner⟩
        · exact .inr ⟨m, ⟨x, List.mem_append_left _ (hgivesl.mem_leaves hflawed), hflawed⟩,
            evaluate_pipe hleft hright (hreplies w)⟩
        · exact .inr ⟨m, ⟨y, List.mem_append_right _ (hgivesr.mem_leaves hflawed), hflawed⟩,
            evaluate_pipe hleft hright (hreplies w)⟩
      · exact .inr ⟨m, ⟨y, List.mem_append_right _ hmem, hflawed⟩,
          evaluate_pipe_of_right hleft hright⟩
    · exact .inr ⟨m, ⟨x, List.mem_append_left _ hmem, hflawed⟩, evaluate_pipe_of_left hleft⟩

/-- If the leaves can be joined then there is nothing to refuse. -/
theorem exists_evaluate (w : World) (hfine : ∀ x ∈ e.leaves, x.misuse? = none) :
    ∃ y, e.evaluate.outcome w = (.ok y, w) ∧ e.Gives y := by
  have hchains (x : Item) (hmem : x ∈ e.continued) : x.isChain :=
    Item.isChain_of_misuse? (hfine x (mem_leaves_of_mem_continued hmem))
  rcases evaluate_cases w hchains with hgiven | ⟨m, ⟨x, hmem, hflawed⟩, -⟩
  · exact hgiven
  · rw [hfine x hmem] at hflawed
    cases hflawed

/-- The leaves alone tell the pipeline that comes of an expression. -/
theorem evaluate_pipe_of_leaves {xs : List Item} {p : Pipeline} (w : World)
    (hsame : (left.pipe right).leaves = xs) (hfine : ∀ x ∈ xs, x.misuse? = none)
    (hargvs : (Item.pipeline p).argvs = xs.flatMap Item.argvs) :
    (left.pipe right).evaluate.outcome w = (.ok (.pipeline p), w) := by
  subst hsame
  obtain ⟨y, houtcome, hargvs', hsame | ⟨⟨q, rfl⟩, -⟩⟩ := exists_evaluate w hfine
  · cases hsame
  · rw [houtcome, Item.argvs_pipeline_inj.1 (hargvs'.trans hargvs.symm)]

/-- An expression is refused for one of its leaves, if any of them cannot be joined. -/
theorem evaluate_pipe_of_misuse? (w : World)
    (hchains : ∀ x ∈ (left.pipe right).continued, x.isChain)
    (hmem : x ∈ (left.pipe right).leaves) (hflawed : x.misuse? ≠ none) :
    ∃ m, (∃ y ∈ (left.pipe right).leaves, y.misuse? = some m) ∧
      (left.pipe right).evaluate.outcome w = (.error (.error m.error), w) := by
  rcases evaluate_cases w hchains with ⟨y, -, -, hsame | ⟨-, hfine⟩⟩ | hrefused
  · cases hsame
  · exact absurd (hfine x hmem) hflawed
  · exact hrefused

/-- It does not matter how an expression is bracketed. -/
theorem evaluate_pipe_assoc {a b c : Composition Item} (w : World)
    (hfine : ∀ x ∈ a.leaves ++ b.leaves ++ c.leaves, x.misuse? = none) :
    ((a.pipe b).pipe c).evaluate.outcome w = (a.pipe (b.pipe c)).evaluate.outcome w := by
  obtain ⟨p, hargvs⟩ := Item.exists_pipeline_of_misuse? hfine
  exact (evaluate_pipe_of_leaves w (leaves_pipe (a.pipe b) c) hfine hargvs).trans
    (evaluate_pipe_of_leaves w (List.append_assoc _ _ _).symm hfine hargvs).symm

/-- A pipeline without stages may be left out on either side. -/
theorem evaluate_pipe_empty (w : World) (hfine : ∀ x ∈ e.leaves, x.misuse? = none) :
    ∃ y p, e.evaluate.outcome w = (.ok y, w) ∧ (Item.pipeline p).argvs = y.argvs ∧
      (e.pipe (leaf (.pipeline {}))).evaluate.outcome w = (.ok (.pipeline p), w) ∧
      ((leaf (.pipeline {})).pipe e).evaluate.outcome w = (.ok (.pipeline p), w) := by
  obtain ⟨y, houtcome, hgives⟩ := exists_evaluate w hfine
  obtain ⟨p, hargvs⟩ := Item.exists_pipeline_of_misuse? hfine
  have halone : ∀ x ∈ [Item.pipeline {}], x.misuse? = none := List.forall_mem_singleton.2 rfl
  refine ⟨y, p, houtcome, hargvs.trans hgives.argvs.symm, ?_, ?_⟩
  · refine evaluate_pipe_of_leaves w (leaves_pipe e _) (List.forall_mem_append.2 ⟨hfine, halone⟩)
      (hargvs.trans ?_)
    rw [List.flatMap_append]
    exact (List.append_nil _).symm
  · exact evaluate_pipe_of_leaves w (leaves_pipe _ e)
      (List.forall_mem_append.2 ⟨halone, hfine⟩) hargvs

end Composition

/-! ### Evaluation over objects -/

variable {s t u : Store}

/-- Over objects, what comes of an expression reads as the value has it, and what there was is left
as it was. Unless the expression is a leaf alone, it is something new. -/
structure Composition.Answers (e : Composition Ref) (s : Store) (value : Except Failure Item)
    (outcome : Except Failure Ref × Store) : Prop where
  sound : outcome.2.Sound
  grows : s.Grows outcome.2
  leaves : s.Extends outcome.2
  shown : ∀ x, outcome.1 = .ok x → outcome.2.Public x ∧ (e = leaf x ∨ s.Predates x)
  reads : outcome.1.map outcome.2.read = value

namespace Composition

variable {left right : Composition Ref} {value : Except Failure Item}

/-- What is refused on one side is refused. -/
theorem Answers.refused (hgrows : s.Grows t) (hleaves : s.Extends t) {f : Failure}
    (h : right.Answers t value (.error f, u)) (e : Composition Ref) :
    e.Answers s (.error f) (.error f, u) where
  sound := h.sound
  grows := hgrows.trans h.grows
  leaves := hleaves.trans h.leaves
  shown := nofun
  reads := rfl

/-- What came of both sides is joined. The left side reads as it did before the right one was
built. -/
theorem Answers.joined {x y : Ref} {value' : Except Failure Item}
    (hfirst : left.Answers s value (.ok x, t)) (hsecond : right.Answers t value' (.ok y, u)) :
    ∃ made, (∀ w, ((Query.pipe (u.read y)).perform (t.read x)).run w = ((made, t.read x), w)) ∧
      (left.pipe right).Answers s made (((Derive.pipe y).perform x).outcome u) := by
  have hsame : u.read x = t.read x := hsecond.leaves.read hfirst.sound (hfirst.shown x rfl).1
  have hgiven : ∀ z ∈ (Derive.pipe y).operands, u.Public z :=
    List.forall_mem_singleton.2 (hsecond.shown y rfl).1
  obtain ⟨made, hreplies, hyields⟩ := Derive.exists_yields hsecond.sound (.pipe y) hgiven x
  rw [hsame] at hreplies
  have hyields := (hyields.after hsecond.grows hsecond.leaves).after hfirst.grows hfirst.leaves
  exact ⟨made, hreplies, hyields.sound, hyields.grows, hyields.leaves,
    fun z hanswer => (hyields.shown z hanswer).imp_right .inr, hyields.reads⟩

/-- Over objects there comes the same of an expression as over items. -/
theorem exists_answers (e : Composition Ref) (hsound : s.Sound)
    (hshown : ∀ x ∈ e.leaves, s.Public x) :
    ∃ value, (∀ w, (e.map s.read).evaluate.outcome w = (value, w)) ∧
      e.Answers s value (e.build.outcome s) := by
  -- The right side is built in the store that the left side has left behind.
  induction e generalizing s with
  | leaf x =>
    refine ⟨.ok (s.read x), fun _ => rfl, hsound, .refl s, .refl s, fun y hsame => ?_, rfl⟩
    obtain rfl := Except.ok.inj hsame
    exact ⟨hshown x List.mem_cons_self, .inl rfl⟩
  | pipe left right ihl ihr =>
    obtain ⟨hshownl, hshownr⟩ := List.forall_mem_append.1 hshown
    obtain ⟨value, hevaluated, hfirst⟩ := ihl hsound hshownl
    rw [build, map]
    cases hmade : left.build.outcome s with
    | mk reply t =>
      rw [hmade] at hfirst
      obtain rfl := hfirst.reads
      cases reply with
      | error f =>
        rw [Action.outcome_bind_of_error hmade]
        exact ⟨_, fun w => evaluate_pipe_of_left (hevaluated w),
          hfirst.refused (.refl s) (.refl s) _⟩
      | ok x =>
        rw [Action.outcome_bind_of_ok hmade]
        have hgiven := ihr hfirst.sound fun y hmem => (hshownr y hmem).mono hfirst.grows
        rw [map_congr fun y hmem => hfirst.leaves.read hsound (hshownr y hmem)] at hgiven
        obtain ⟨value', hevaluated', hsecond⟩ := hgiven
        cases hmade' : right.build.outcome t with
        | mk reply' u =>
          rw [hmade'] at hsecond
          obtain rfl := hsecond.reads
          cases reply' with
          | error f =>
            rw [Action.outcome_bind_of_error hmade']
            exact ⟨_, fun w => evaluate_pipe_of_right (hevaluated w) (hevaluated' w),
              hsecond.refused hfirst.grows hfirst.leaves _⟩
          | ok y =>
            rw [Action.outcome_bind_of_ok hmade']
            obtain ⟨value'', hreplies, hjoined⟩ := hfirst.joined hsecond
            exact ⟨value'', fun w => evaluate_pipe (hevaluated w) (hevaluated' w) (hreplies w),
              hjoined⟩

/-- Two leaves are joined by one operation. -/
theorem build_pipe_leaf (x y : Ref) :
    ((leaf x).pipe (leaf y)).build = (Derive.pipe y).perform x := by
  simp only [build, pure_bind]

end Composition

/-- A pipeline that is continued in place gets the stages that a new one has, or else it stays as
it was. It may be continued with itself. -/
theorem combine_cases (hsound : s.Sound) {p : Nat} (hlt : p < s.pipelines.length) {x : Ref}
    (hshown : s.Public x) :
    (∃ q t u, ((leaf (.pipeline p)).pipe (leaf x)).build.outcome s = (.ok (.pipeline q), t) ∧
        ((Change.combine x).perform (.pipeline p)).outcome s = (.ok (.pipeline p), u) ∧
        u.pipeline p = t.pipeline q) ∨
      ∃ m t, (s.read x).misuse? = some m ∧
        ((leaf (.pipeline p)).pipe (leaf x)).build.outcome s = (.error (.error m.error), t) ∧
        ((Change.combine x).perform (.pipeline p)).outcome s = (.error (.error m.error), s) := by
  rw [Composition.build_pipe_leaf]
  have hcontinued := outcome_combine hsound p x
  obtain ⟨more, -, hall, hmade⟩ := founds_pipePipeline hsound p hshown
  cases hflawed : (s.read x).misuse? with
  | some m =>
    have hrefused : s.stagesOf x = .error m := Item.stages_of_misuse? hflawed
    rw [hrefused] at hcontinued hmade
    exact .inr ⟨m, _, rfl, Action.outcome_bind_of_error hmade,
      Action.outcome_bind_of_error hcontinued⟩
  | none =>
    obtain ⟨rest, hgiven, -⟩ := Item.exists_stages_of_misuse? hflawed
    rw [show s.stagesOf x = .ok rest from hgiven] at hcontinued hmade hall
    obtain rfl := hall _ rfl
    -- Both have the stages of the pipeline and then those of the item.
    refine .inl ⟨_, _, _, Action.outcome_bind_of_ok hmade,
      Action.outcome_bind_of_ok hcontinued, ?_⟩
    rw [Store.pipeline_joined hsound hlt]
    exact (hsound.pipeline_founded _).symm

/-! ### Objects that are held -/

/-- A pipeline that is made by joining commands and pipelines has the stages of these from left to
right, however they are bracketed, and none is made just if one of them cannot be joined. So
bracketing does not matter, and neither does a pipeline without stages. A program that joins
objects it holds on to has the same of it as a session that joins their values, in something new,
and all the objects are left as they were. A pipeline that is continued in place, be it with
itself, has the stages that a new one would have. -/
theorem composed_of_leaves :
    (∀ xs : List Item, (∀ x ∈ xs, x.misuse? = none) →
      ∃ p, (Item.pipeline p).argvs = xs.flatMap Item.argvs ∧
        ∀ (left right : Composition Item) (w : World), (left.pipe right).leaves = xs →
          (left.pipe right).evaluate.outcome w = (.ok (.pipeline p), w)) ∧
    (∀ (left right : Composition Item) (w : World),
      (∀ x ∈ (left.pipe right).continued, x.isChain) →
      (∃ x ∈ (left.pipe right).leaves, x.misuse? ≠ none) →
      ∃ m, (∃ x ∈ (left.pipe right).leaves, x.misuse? = some m) ∧
        (left.pipe right).evaluate.outcome w = (.error (.error m.error), w)) ∧
    (∀ (a b c : Composition Item) (w : World),
      (∀ x ∈ a.leaves ++ b.leaves ++ c.leaves, x.misuse? = none) →
      ((a.pipe b).pipe c).evaluate.outcome w = (a.pipe (b.pipe c)).evaluate.outcome w) ∧
    (∀ (a : Composition Item) (w : World), (∀ x ∈ a.leaves, x.misuse? = none) →
      ∃ y p, a.evaluate.outcome w = (.ok y, w) ∧ (Item.pipeline p).argvs = y.argvs ∧
        (a.pipe (leaf (.pipeline {}))).evaluate.outcome w = (.ok (.pipeline p), w) ∧
        ((leaf (.pipeline {})).pipe a).evaluate.outcome w = (.ok (.pipeline p), w)) ∧
    ∀ ops : List Op,
      let d := (({} : Desk).run ops).2
      (∀ left right : Composition Ref,
        (∀ x ∈ (left.pipe right).leaves, ∃ o, d.operand o = .ok x) →
        let made := (left.pipe right).build.outcome d.store
        (∀ w, ((left.pipe right).map d.store.read).evaluate.outcome w =
          (made.1.map made.2.read, w)) ∧
        (∀ x, made.1 = .ok x → d.store.Predates x) ∧
        d.store.commands <+: made.2.commands ∧ d.store.pipelines <+: made.2.pipelines ∧
        ∀ x ∈ (left.pipe right).leaves, made.2.read x = d.store.read x) ∧
      ∀ p o o' x, d.operand o = .ok (.pipeline p) → d.operand o' = .ok x →
        let combined := ((Change.combine x).perform (.pipeline p)).outcome d.store
        (∀ w, ((Query.combine (d.store.read x)).perform (d.store.read (.pipeline p))).run w =
          ((combined.1.map combined.2.read, combined.2.read (.pipeline p)), w)) ∧
        ((∃ q t u, ((leaf (.pipeline p)).pipe (leaf x)).build.outcome d.store =
            (.ok (.pipeline q), t) ∧
          combined = (.ok (.pipeline p), u) ∧ u.pipeline p = t.pipeline q) ∨
        ∃ m t, (d.store.read x).misuse? = some m ∧
          ((leaf (.pipeline p)).pipe (leaf x)).build.outcome d.store =
            (.error (.error m.error), t) ∧
          combined = (.error (.error m.error), d.store)) := by
  refine ⟨fun xs hfine => ?_, fun left right w hchains ⟨x, hmem, hflawed⟩ => ?_,
    fun a b c w hfine => ?_, fun a w => Composition.evaluate_pipe_empty w, fun ops => ?_⟩
  · obtain ⟨p, hargvs⟩ := Item.exists_pipeline_of_misuse? hfine
    exact ⟨p, hargvs, fun left right w hsame =>
      Composition.evaluate_pipe_of_leaves w hsame hfine hargvs⟩
  · exact Composition.evaluate_pipe_of_misuse? w hchains hmem hflawed
  · exact Composition.evaluate_pipe_assoc w hfine
  · intro d
    have hsound : d.Sound := Desk.Sound.empty.run ops
    refine ⟨fun left right hheld => ?_, fun p o o' x hfirst hsecond => ?_⟩
    · have hshown (x : Ref) (hmem : x ∈ (left.pipe right).leaves) : d.store.Public x := by
        obtain ⟨o, hlooked⟩ := hheld x hmem
        exact hsound.operand hlooked
      obtain ⟨value, hevaluated, hanswers⟩ := (left.pipe right).exists_answers hsound.store hshown
      intro made
      refine ⟨?_, fun x hsame => ?_, hanswers.leaves.commands, hanswers.leaves.pipelines,
        fun x hmem => hanswers.leaves.read hsound.store (hshown x hmem)⟩
      · rw [hanswers.reads]
        exact hevaluated
      · rcases (hanswers.shown x hsame).2 with hleaf | hnew
        · cases hleaf
        · exact hnew
    · intro combined
      obtain ⟨value, hreplies, hchanges⟩ :=
        (Change.combine x).exists_changes hsound.store (hsound.operand hfirst)
      refine ⟨?_, combine_cases hsound.store (hsound.operand hfirst) (hsound.operand hsecond)⟩
      rw [hchanges.reads]
      exact hreplies

/-- A command, a pipeline without stages and another pipeline make one of two stages; a command
without a name cannot be joined, and a pipeline can be continued with itself. -/
theorem composed_of_leaves_own_pipeline :
    let c : Item := .command { program := .text "ls" }
    let e : Item := .pipeline {}
    let p : Item := .pipeline { stages := [{ program := "wc", args := ["-l"] }] }
    let lost : Item := .command { program := .null }
    let ops : List Op :=
      [.call (.make (.command (.text "ls") (.list [])) (some "c")),
        .call (.make (.pipeline [.register "c", .register "c"]) (some "p")),
        .call (.change "c" (.setProgram .null))]
    let d := (({} : Desk).run ops).2
    (∃ q, (Item.pipeline q).argvs = [[.text "ls"], [.text "wc", .text "-l"]] ∧ ∀ w,
      ((leaf c).pipe ((leaf e).pipe (leaf p))).evaluate.outcome w = (.ok (.pipeline q), w)) ∧
    (∀ w, ∃ m, (∃ x ∈ [c, e, lost], x.misuse? = some m) ∧
      ((leaf c).pipe ((leaf e).pipe (leaf lost))).evaluate.outcome w =
        (.error (.error m.error), w)) ∧
    (∀ w, (((leaf c).pipe (leaf e)).pipe (leaf p)).evaluate.outcome w =
      ((leaf c).pipe ((leaf e).pipe (leaf p))).evaluate.outcome w) ∧
    (∀ w, ∃ y q, (leaf c).evaluate.outcome w = (.ok y, w) ∧ (Item.pipeline q).argvs = y.argvs ∧
      ((leaf c).pipe (leaf e)).evaluate.outcome w = (.ok (.pipeline q), w) ∧
      ((leaf e).pipe (leaf c)).evaluate.outcome w = (.ok (.pipeline q), w)) ∧
    (d.store.pipelines <+:
      (((leaf (.pipeline 0)).pipe (leaf (.command 0))).build.outcome d.store).2.pipelines) ∧
    ∃ q t u, ((leaf (.pipeline 0)).pipe (leaf (.pipeline 0))).build.outcome d.store =
        (.ok (.pipeline q), t) ∧
      ((Change.combine (.pipeline 0)).perform (.pipeline 0)).outcome d.store =
        (.ok (.pipeline 0), u) ∧
      u.pipeline 0 = t.pipeline q := by
  intro c e p lost ops d
  obtain ⟨hcomposed, hrefused, hassoc, hneutral, hobjects⟩ := composed_of_leaves
  obtain ⟨hbuilt, hcombined⟩ := hobjects ops
  have hfine : ∀ x ∈ [c, e, p], x.misuse? = none := by decide +kernel
  refine ⟨?_, fun w => ?_, fun w => ?_, fun w => ?_, ?_, ?_⟩
  · obtain ⟨q, hargvs, houtcome⟩ := hcomposed _ hfine
    exact ⟨q, hargvs, fun w => houtcome _ _ w rfl⟩
  · have hchains : ∀ x ∈ [c, e], x.isChain := by decide
    exact hrefused (leaf c) ((leaf e).pipe (leaf lost)) w hchains
      ⟨lost, by simp [Composition.leaves], nofun⟩
  · exact hassoc (leaf c) (leaf e) (leaf p) w hfine
  · exact hneutral (leaf c) w (List.forall_mem_singleton.2 rfl)
  · have hheld : ∀ x ∈ [Ref.pipeline 0, .command 0], ∃ o, d.operand o = .ok x :=
      List.forall_mem_cons.2 ⟨⟨.register "p", rfl⟩,
        List.forall_mem_singleton.2 ⟨.register "c", rfl⟩⟩
    exact (hbuilt (leaf (.pipeline 0)) (leaf (.command 0)) hheld).2.2.2.1
  · rcases (hcombined 0 (.register "p") (.register "p") (.pipeline 0) rfl rfl).2 with
      hgiven | ⟨m, t, hflawed, -⟩
    · exact hgiven
    · cases hflawed

end Builder

end Pipework
