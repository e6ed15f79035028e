import Mathlib.Data.List.Nodup
import Pipework.Proofs.Line.Parsing
import Pipework.Session.Item

/-!
# Commands and pipelines as objects

A program that builds pipelines holds on to commands and pipelines which it changes later, and it
may hold on to one of them in several places. Here a command is therefore an object with a number,
and so is a pipeline; a pipeline consists of the numbers of the commands that are its stages. What
a number stands for is read in the store.

A store is sound if every stage of a pipeline can be run, and is a stage at no other place. This is
kept as long as only commands are put into a pipeline that are new and have a name, and as long as
the program of a stage is not changed. The commands that are stages are nobody else's: what a
program can hold on to is public, and a public command is no stage.

## Main definitions

* `Store` — all commands and pipelines that there are
* `Ref` — what a program can hold on to; `Store.read` — the item that it stands for
* `Store.placed` — the stages of all pipelines
* `Store.joined`, `Store.opened`, `Store.furnished`, `Store.revised` — the changes of a store
* `Store.Sound` — every stage can be run, and is a stage once
* `Store.Public` — a program may hold on to this
* `Store.Grows`, `Store.Extends` — one store comes after another; it leaves what there was

## Main results

* `Store.Sound.joined`, `Store.Sound.revised` — what keeps a store sound
* `Store.Public.mono` — what is public stays so
* `Store.Extends.read` — what a reference stands for is left as it was
* `Store.pipeline_joined`, `Store.pipeline_revised_of_getLast?` — what the changes make of a
  pipeline
-/

namespace Pipework

/-- The command as a stage, whatever its program is. -/
def Command.written (c : Command) : Stage where
  program := c.program.display
  args := c.args

@[simp] theorem Command.written_ofStage (s : Stage) : (ofStage s).written = s := rfl

namespace Builder

/-- The commands and the pipelines that there are. A pipeline is the numbers of its stages. -/
structure Store where
  commands : List Command := []
  pipelines : List (List Nat) := []

/-- What a program can hold on to: a command or a pipeline by its number, a list of commands, or a
value. -/
inductive Ref where
  | command (n : Nat)
  | pipeline (p : Nat)
  | commands (ns : List Nat)
  | value (v : Value)

/-- The word for what a reference stands for. -/
def Ref.kind : Ref → String
  | .command _ => "Command"
  | .pipeline _ => "Pipeline"
  | .commands _ => "list"
  | .value v => v.kind

namespace Store

/-- The command with a number. -/
def command (s : Store) (n : Nat) : Command := s.commands.getD n { program := .null }

/-- The stages of the pipeline with a number, as numbers. -/
def stages (s : Store) (p : Nat) : List Nat := s.pipelines.getD p []

/-- The pipeline with a number. -/
def pipeline (s : Store) (p : Nat) : Pipeline where
  stages := (s.stages p).map fun n => (s.command n).written

/-- The item that a reference stands for. -/
def read (s : Store) : Ref → Item
  | .command n => .command (s.command n)
  | .pipeline p => .pipeline (s.pipeline p)
  | .commands ns => .commands (ns.map s.command)
  | .value v => .value v

/-- The stages of all pipelines. -/
def placed (s : Store) : List Nat := s.pipelines.flatten

/-! ### Changes of a store -/

/-- The store with more commands. -/
def furnished (s : Store) (more : List Command) : Store :=
  { s with commands := s.commands ++ more }

/-- The store with one more pipeline, which has no stages. -/
def opened (s : Store) : Store := { s with pipelines := s.pipelines ++ [[]] }

/-- The store with a new command at the end of a pipeline for each of the stages. -/
def joined (s : Store) (p : Nat) (more : List Stage) : Store where
  commands := s.commands ++ more.map .ofStage
  pipelines := s.pipelines.modify p (· ++ List.range' s.commands.length more.length)

/-- The store with a change of one command. -/
def revised (s : Store) (n : Nat) (f : Command → Command) : Store :=
  { s with commands := s.commands.modify n f }

variable {s t u : Store} {n p q : Nat} {f : Command → Command} {more : List Stage}

theorem command_eq_of_getElem? {c : Command} (hget : s.commands[n]? = some c) :
    s.command n = c := by
  rw [command, List.getD_eq_getElem?_getD, hget, Option.getD_some]

theorem stages_eq_of_getElem? {ns : List Nat} (hget : s.pipelines[p]? = some ns) :
    s.stages p = ns := by
  rw [stages, List.getD_eq_getElem?_getD, hget, Option.getD_some]

theorem mem_stages_iff : n ∈ s.stages p ↔ ∃ ns, s.pipelines[p]? = some ns ∧ n ∈ ns := by
  rw [stages, List.getD_eq_getElem?_getD]
  cases s.pipelines[p]? <;> simp

theorem mem_placed_of_mem_stages (hmem : n ∈ s.stages p) : n ∈ s.placed := by
  obtain ⟨ns, hget, hmem⟩ := mem_stages_iff.1 hmem
  exact List.mem_flatten.2 ⟨ns, List.mem_of_getElem? hget, hmem⟩

/-- What is at the end of one of several lists is at the end of them all, but for the order. -/
theorem flatten_modify_append_perm {ls : List (List Nat)} (hlt : p < ls.length) (ms : List Nat) :
    (ls.modify p (· ++ ms)).flatten.Perm (ls.flatten ++ ms) := by
  induction ls generalizing p with
  | nil => cases hlt
  | cons l ls ih =>
    cases p with
    | zero =>
      simp only [List.modify_zero_cons, List.flatten_cons, List.append_assoc]
      exact List.Perm.append_left l List.perm_append_comm
    | succ p =>
      simp only [List.modify_succ_cons, List.flatten_cons, List.append_assoc]
      exact List.Perm.append_left l (ih (Nat.lt_of_succ_lt_succ hlt))

theorem placed_joined_perm (hlt : p < s.pipelines.length) (more : List Stage) :
    (s.joined p more).placed.Perm
      (s.placed ++ List.range' s.commands.length more.length) :=
  flatten_modify_append_perm hlt _

@[simp] theorem placed_opened (s : Store) : s.opened.placed = s.placed := by
  simp [placed, opened]

/-- New commands for stages with names have names. -/
theorem exists_named_furnished (s : Store) (hnamed : Line.Named more) (n : Nat)
    (hnew : n ∈ List.range' s.commands.length more.length) :
    ∃ stage : Stage, stage.program ≠ "" ∧
      (s.furnished (more.map .ofStage)).commands[n]? = some (.ofStage stage) := by
  obtain ⟨i, hlt, rfl⟩ := List.mem_range'.1 hnew
  exact ⟨more[i], hnamed _ (List.getElem_mem hlt), by simp [furnished, hlt]⟩

/-! ### Sound stores -/

/-- Every stage of a pipeline can be run, and is a stage at that place only. -/
structure Sound (s : Store) : Prop where
  named : ∀ n ∈ s.placed,
    ∃ stage : Stage, stage.program ≠ "" ∧ s.commands[n]? = some (.ofStage stage)
  once : s.placed.Nodup

namespace Sound

theorem empty : ({} : Store).Sound := ⟨nofun, List.nodup_nil⟩

theorem lt_of_mem (hsound : s.Sound) (hmem : n ∈ s.placed) : n < s.commands.length := by
  obtain ⟨stage, -, hget⟩ := hsound.named n hmem
  exact (List.getElem?_eq_some_iff.1 hget).1

theorem nodup_stages (hsound : s.Sound) (p : Nat) : (s.stages p).Nodup := by
  cases hget : s.pipelines[p]? with
  | none => simp [stages, List.getD_eq_getElem?_getD, hget]
  | some ns =>
    rw [stages_eq_of_getElem? hget]
    exact (List.nodup_flatten.1 hsound.once).1 ns (List.mem_of_getElem? hget)

/-- Two pipelines have no stage in common. -/
theorem eq_of_mem (hsound : s.Sound) (hmem : n ∈ s.stages p) (hmem' : n ∈ s.stages q) : p = q := by
  have hdisjoint := (List.nodup_flatten.1 hsound.once).2
  obtain ⟨ns, hget, hmem⟩ := mem_stages_iff.1 hmem
  obtain ⟨ms, hget', hmem'⟩ := mem_stages_iff.1 hmem'
  obtain ⟨hlt, rfl⟩ := List.getElem?_eq_some_iff.1 hget
  obtain ⟨hlt', rfl⟩ := List.getElem?_eq_some_iff.1 hget'
  rcases Nat.lt_trichotomy p q with hless | hsame | hmore
  · exact absurd hmem'
      (List.disjoint_left.1 (List.pairwise_iff_getElem.1 hdisjoint p q hlt hlt' hless) hmem)
  · exact hsame
  · exact absurd hmem
      (List.disjoint_left.1 (List.pairwise_iff_getElem.1 hdisjoint q p hlt' hlt hmore) hmem')

/-- More commands do no harm. -/
theorem furnished (hsound : s.Sound) (more : List Command) : (s.furnished more).Sound where
  named n hmem := by
    obtain ⟨stage, hnamed, hget⟩ := hsound.named n hmem
    refine ⟨stage, hnamed, ?_⟩
    rw [Store.furnished, List.getElem?_append_left (hsound.lt_of_mem hmem), hget]
  once := hsound.once

theorem opened (hsound : s.Sound) : s.opened.Sound where
  named n hmem := hsound.named n (s.placed_opened ▸ hmem)
  once := s.placed_opened.symm ▸ hsound.once

/-- Stages with names may join a pipeline. -/
theorem joined (hsound : s.Sound) (hlt : p < s.pipelines.length) (hnamed : Line.Named more) :
    (s.joined p more).Sound where
  named n hmem := by
    rw [(placed_joined_perm hlt more).mem_iff, List.mem_append] at hmem
    rcases hmem with hold | hnew
    · exact (hsound.furnished _).named n hold
    · exact s.exists_named_furnished hnamed n hnew
  once := by
    rw [(placed_joined_perm hlt more).nodup_iff, List.nodup_append]
    refine ⟨hsound.once, List.nodup_range', ?_⟩
    rintro n hold m hnew rfl
    have := hsound.lt_of_mem hold
    have := (List.mem_range'_1.1 hnew).1
    omega

/-- A command may be changed, if it keeps its name where it is a stage. -/
theorem revised (hsound : s.Sound)
    (hkeeps : n ∈ s.placed → ∀ c : Command, c.isNamed → (f c).isNamed) :
    (s.revised n f).Sound where
  named m hmem := by
    obtain ⟨stage, hnamed, hget⟩ := hsound.named m hmem
    by_cases hsame : n = m
    · subst hsame
      obtain ⟨stage', hnamed', hchanged⟩ :=
        Command.isNamed_iff.1 (hkeeps hmem _ (Command.isNamed_iff.2 ⟨stage, hnamed, rfl⟩))
      exact ⟨stage', hnamed', by simp [Store.revised, hget, hchanged]⟩
    · exact ⟨stage, hnamed, by simp [Store.revised, hget, hsame]⟩
  once := hsound.once

end Sound

/-! ### One store after another -/

/-- The store `t` comes after the store `s`: nothing is gone, and new stages are new commands. -/
structure Grows (s t : Store) : Prop where
  commands : s.commands.length ≤ t.commands.length
  pipelines : s.pipelines.length ≤ t.pipelines.length
  placed : ∀ n ∈ t.placed, n ∈ s.placed ∨ s.commands.length ≤ n

/-- The store `t` has all the commands and pipelines of the store `s` as they were. -/
structure Extends (s t : Store) : Prop where
  commands : s.commands <+: t.commands
  pipelines : s.pipelines <+: t.pipelines

namespace Grows

theorem refl (s : Store) : s.Grows s := ⟨Nat.le_refl _, Nat.le_refl _, fun _ => .inl⟩

theorem trans (h : s.Grows t) (h' : t.Grows u) : s.Grows u where
  commands := Nat.le_trans h.commands h'.commands
  pipelines := Nat.le_trans h.pipelines h'.pipelines
  placed n hmem := by
    rcases h'.placed n hmem with hold | hnew
    · exact h.placed n hold
    · exact .inr (Nat.le_trans h.commands hnew)

theorem furnished (s : Store) (more : List Command) : s.Grows (s.furnished more) :=
  ⟨by simp [Store.furnished], Nat.le_refl _, fun _ => .inl⟩

theorem opened (s : Store) : s.Grows s.opened :=
  ⟨Nat.le_refl _, by simp [Store.opened], fun _ hmem => .inl (s.placed_opened ▸ hmem)⟩

theorem joined (hlt : p < s.pipelines.length) (more : List Stage) : s.Grows (s.joined p more) where
  commands := by simp [Store.joined]
  pipelines := by simp [Store.joined]
  placed n hmem := by
    rw [(placed_joined_perm hlt more).mem_iff, List.mem_append] at hmem
    rcases hmem with hold | hnew
    · exact .inl hold
    · exact .inr (List.mem_range'_1.1 hnew).1

theorem revised (s : Store) (n : Nat) (f : Command → Command) : s.Grows (s.revised n f) :=
  ⟨by simp [Store.revised], Nat.le_refl _, fun _ => .inl⟩

end Grows

namespace Extends

theorem refl (s : Store) : s.Extends s := ⟨List.prefix_refl _, List.prefix_refl _⟩

theorem trans (h : s.Extends t) (h' : t.Extends u) : s.Extends u :=
  ⟨h.commands.trans h'.commands, h.pipelines.trans h'.pipelines⟩

theorem furnished (s : Store) (more : List Command) : s.Extends (s.furnished more) :=
  ⟨List.prefix_append _ _, List.prefix_refl _⟩

theorem opened (s : Store) : s.Extends s.opened := ⟨List.prefix_refl _, List.prefix_append _ _⟩

/-- What joins a pipeline that is new leaves the others as they were. -/
theorem joined (h : s.Extends t) (hnew : s.pipelines.length ≤ p) (more : List Stage) :
    s.Extends (t.joined p more) where
  commands := h.commands.trans (List.prefix_append _ _)
  pipelines := by
    rw [List.prefix_iff_getElem?]
    intro i hlt
    have hne : p ≠ i := by
      rintro rfl
      exact absurd hlt (Nat.not_lt_of_le hnew)
    rw [Store.joined, List.getElem?_modify_ne _ _ hne]
    exact List.prefix_iff_getElem?.1 h.pipelines i hlt

theorem command_eq (h : s.Extends t) (hlt : n < s.commands.length) :
    t.command n = s.command n := by
  rw [command, command, List.getD_eq_getElem?_getD, List.getD_eq_getElem?_getD,
    List.prefix_iff_getElem?.1 h.commands n hlt, List.getElem?_eq_getElem hlt]

theorem stages_eq (h : s.Extends t) (hlt : p < s.pipelines.length) : t.stages p = s.stages p := by
  rw [stages, stages, List.getD_eq_getElem?_getD, List.getD_eq_getElem?_getD,
    List.prefix_iff_getElem?.1 h.pipelines p hlt, List.getElem?_eq_getElem hlt]

end Extends

/-! ### What a program may hold on to -/

/-- A program may hold on to this: it is there, and it is no stage of a pipeline. -/
def Public (s : Store) : Ref → Prop
  | .command n => n < s.commands.length ∧ n ∉ s.placed
  | .pipeline p => p < s.pipelines.length
  | .commands ns => ∀ n ∈ ns, n < s.commands.length ∧ n ∉ s.placed
  | .value _ => True

/-- What the reference stands for was not there yet. -/
def Predates (s : Store) : Ref → Prop
  | .command n => s.commands.length ≤ n
  | .pipeline p => s.pipelines.length ≤ p
  | .commands ns => ∀ n ∈ ns, s.commands.length ≤ n
  | .value _ => True

variable {x y : Ref}

/-- What is public stays so. -/
theorem Public.mono (hshown : s.Public x) (h : s.Grows t) : t.Public x := by
  have hcommand {n : Nat} (hshown : n < s.commands.length ∧ n ∉ s.placed) :
      n < t.commands.length ∧ n ∉ t.placed := by
    refine ⟨Nat.lt_of_lt_of_le hshown.1 h.commands, fun hmem => ?_⟩
    rcases h.placed n hmem with hold | hnew
    · exact hshown.2 hold
    · exact Nat.not_lt_of_le hnew hshown.1
  cases x with
  | command n => exact hcommand hshown
  | pipeline p => exact Nat.lt_of_lt_of_le hshown h.pipelines
  | commands ns => exact fun n hmem => hcommand (hshown n hmem)
  | value v => trivial

/-- What a reference stands for is left as it was. -/
theorem Extends.read (h : s.Extends t) (hsound : s.Sound) (hshown : s.Public x) :
    t.read x = s.read x := by
  cases x with
  | command n => rw [Store.read, Store.read, h.command_eq hshown.1]
  | pipeline p =>
    have hstages : t.stages p = s.stages p := h.stages_eq hshown
    rw [Store.read, Store.read, pipeline, pipeline, hstages]
    refine congrArg (fun stages => Item.pipeline ⟨stages⟩) (List.map_congr_left fun n hmem => ?_)
    rw [h.command_eq (hsound.lt_of_mem (mem_placed_of_mem_stages hmem))]
  | commands ns =>
    rw [Store.read, Store.read]
    exact congrArg Item.commands (List.map_congr_left fun n hmem => h.command_eq (hshown n hmem).1)
  | value v => rfl

/-! ### What the changes make of a command and of a pipeline -/

theorem command_joined (hlt : n < s.commands.length) (p : Nat) (more : List Stage) :
    (s.joined p more).command n = s.command n :=
  (Extends.furnished s (more.map .ofStage)).command_eq hlt

theorem stages_joined (hlt : p < s.pipelines.length) (more : List Stage) :
    (s.joined p more).stages p = s.stages p ++ List.range' s.commands.length more.length := by
  simp [stages, joined, List.getD_eq_getElem?_getD, hlt]

theorem joined_joined (s : Store) (p : Nat) (more more' : List Stage) :
    (s.joined p more).joined p more' = s.joined p (more ++ more') := by
  rw [joined, joined, joined]
  simp only [List.map_append, List.append_assoc, List.modify_modify_eq, List.length_append,
    List.length_map]
  congr 2
  funext ns
  simp [Function.comp]

@[simp] theorem joined_nil (s : Store) (p : Nat) : s.joined p [] = s := by
  simp only [joined, List.map_nil, List.append_nil, List.length_nil, List.range'_zero]
  exact congrArg (Store.mk s.commands) (List.modify_id p s.pipelines)

/-- New commands for stages read as these. -/
theorem map_written_furnished (s : Store) (more : List Stage) :
    (List.range' s.commands.length more.length).map
      (fun n => ((s.furnished (more.map .ofStage)).command n).written) = more := by
  refine List.ext_getElem (by simp) fun i _ hlt => ?_
  simp [command, furnished, hlt]

/-- What joins a pipeline comes after its stages. -/
theorem pipeline_joined (hsound : s.Sound) (hlt : p < s.pipelines.length) (more : List Stage) :
    (s.joined p more).pipeline p = { stages := (s.pipeline p).stages ++ more } := by
  rw [pipeline, pipeline, stages_joined hlt, List.map_append]
  congr 2
  · refine List.map_congr_left fun n hmem => congrArg Command.written ?_
    exact command_joined (hsound.lt_of_mem (mem_placed_of_mem_stages hmem)) p more
  · exact s.map_written_furnished more

/-- What joins a pipeline is no part of another. -/
theorem pipeline_joined_of_ne (hsound : s.Sound) (hne : p ≠ q) (more : List Stage) :
    (s.joined p more).pipeline q = s.pipeline q := by
  have hstages : (s.joined p more).stages q = s.stages q := by
    simp [stages, joined, List.getD_eq_getElem?_getD, List.getElem?_modify_ne _ _ hne]
  rw [pipeline, pipeline, hstages]
  refine congrArg Pipeline.mk (List.map_congr_left fun n hmem => congrArg Command.written ?_)
  exact command_joined (hsound.lt_of_mem (mem_placed_of_mem_stages hmem)) p more

theorem command_revised_self (hlt : n < s.commands.length) (f : Command → Command) :
    (s.revised n f).command n = f (s.command n) := by
  simp [command, revised, hlt]

theorem command_revised_of_ne {m : Nat} (hne : n ≠ m) (f : Command → Command) :
    (s.revised n f).command m = s.command m := by
  simp [command, revised, hne]

theorem pipeline_revised_of_notMem (haway : n ∉ s.stages p) (f : Command → Command) :
    (s.revised n f).pipeline p = s.pipeline p := by
  refine congrArg Pipeline.mk (List.map_congr_left fun m hmem => ?_)
  have hne : n ≠ m := by
    rintro rfl
    exact haway hmem
  rw [command_revised_of_ne hne]

/-- A change of the last stage of a pipeline. -/
theorem pipeline_revised_of_getLast? (hsound : s.Sound) (hlast : (s.stages p).getLast? = some n)
    (f : Command → Command) :
    (s.revised n f).pipeline p =
      { stages := (s.pipeline p).stages.dropLast ++ [(f (s.command n)).written] } := by
  obtain ⟨ns, hstages⟩ := List.getLast?_eq_some_iff.1 hlast
  have hlt := hsound.lt_of_mem (mem_placed_of_mem_stages (List.mem_of_getLast? hlast))
  have honce : n ∉ ns := fun hmem => by
    have hnodup := hsound.nodup_stages p
    rw [hstages, List.nodup_append] at hnodup
    exact hnodup.2.2 n hmem n (List.mem_singleton_self n) rfl
  have hstages' : (s.revised n f).stages p = ns ++ [n] := hstages
  rw [pipeline, pipeline, hstages, hstages']
  simp only [List.map_append, List.map_cons, List.map_nil, List.dropLast_concat,
    command_revised_self hlt]
  -- The last stage is at no other place, so that the ones before it stay as they are.
  congr 2
  refine List.map_congr_left fun m hmem => ?_
  have hne : n ≠ m := by
    rintro rfl
    exact honce hmem
  rw [command_revised_of_ne hne]

end Store

end Builder

end Pipework
