import Pipework.Proofs.Session.Hearing

/-!
# Runs are independent of each other

In a session any number of pipelines may be running at once. What is heard of each depends on its
own queries, on the scripts of its own processes and on the commands that its pipeline had when it
was started, and on nothing else. Asking one of them may also be put off, or done earlier, across
whatever is done with the others meanwhile: every step comes to the same and makes the same calls,
and only the order of the calls is another one.

## Main results

* `Session.Housed.told_moved` — asking a handle may be moved across steps that deal with other
  things
* `Session.runs_independent` — runs are independent of each other
-/

namespace Pipework

open World (Revision)

namespace Session

variable {s t : Session} {step : Step} {name : String} {h h' : Handle}

/-! ### Moving a query -/

/-- Asking a handle, as a step of a session. -/
theorem told_of_handle {q : Query Operand} {q' : Query Item} {reply : Except Failure Item}
    {w' : World} {cs : List Call} (hget : s.registers.lookup name = some (.handle h))
    (hasked : step.query? name = some q) (hresolved : q.resolve s.registers.operand = .ok q')
    (hreplied : (q'.onHandle h).run s.world = ((reply, h'), w'))
    (hcalls : w'.calls = s.world.calls ++ cs) :
    (s.step step).1.told = (.ofReply reply, cs) ∧
      (s.execute step).2 =
        (settle ⟨s.registers.put name (.handle h'), w'⟩ step.target reply).2 := by
  have hexecuted := execute_of_handle hget hasked hresolved
  rw [hreplied] at hexecuted
  refine ⟨Prod.ext ?_ ?_, congrArg (·.2) hexecuted⟩
  · change (s.execute step).1 = _
    rw [hexecuted, outcome_settle]
  · change (s.execute step).2.world.calls.drop s.world.calls.length = cs
    rw [hexecuted, world_settle, hcalls, List.drop_left]

/-- Registers that hold the same in two sessions do so after the same reply. -/
theorem lookup_settle_congr {other : String}
    (hsame : t.registers.lookup other = s.registers.lookup other)
    (target : Option String) (reply : Except Failure Item) :
    (t.settle target reply).2.registers.lookup other =
      (s.settle target reply).2.registers.lookup other := by
  cases reply with
  | error f => exact hsame
  | ok x =>
    cases target with
    | none => exact hsame
    | some name => exact Registers.lookup_put_congr hsame name x

/-- Registers that are left alone by all steps hold what they held. -/
theorem lookup_run {steps : List Step}
    (hquiet : ∀ step ∈ steps, step.query? name = none ∧ step.target ≠ some name) :
    (s.run steps).2.registers.lookup name = s.registers.lookup name := by
  induction steps generalizing s with
  | nil => rfl
  | cons step steps ih =>
    obtain ⟨hunasked, haway⟩ := hquiet step List.mem_cons_self
    exact (ih fun step hmem => hquiet step (List.mem_cons_of_mem _ hmem)).trans
      (lookup_execute hunasked haway)

/-- Sessions with the same registers and the same processes differ at most in the record, which is
a revision that is nothing to any item. -/
theorem exists_revised_of_like (hlike : s.world.Like t.world)
    (hprocesses : ∀ n, t.world.process? n = s.world.process? n)
    (hsame : ∀ name, t.registers.lookup name = s.registers.lookup name) :
    ∃ r, Revised r none none s t := by
  have hknown : s.world.Knows 0 [] := fun _ _ hget => nomatch hget
  let r : Revision := .ofTreats s.world t.world 0 [] [] rfl
  have huncovered (n : Nat) : ¬ r.Covers n := fun hcovered => Nat.not_lt_zero n hcovered.2
  have htreats : s.world.Treats 0 [] [] t.world :=
    ⟨hlike, fun _ _ hget => (nomatch hget), fun n _ => hprocesses n⟩
  have hrevised := Revision.revise_ofTreats hknown htreats rfl
  refine ⟨r, Revision.meets_ofTreats hknown rfl, hrevised.symm, fun name _ _ => hsame name,
    fun name x _ _ _ => ?_, fun name _ => by rw [hsame name]⟩
  cases x with
  | handle h => exact fun child _ => huncovered child.pid
  | _ => trivial

/-- Asking a handle is a revision of the past of its processes, to all that do not look at the
answer. -/
theorem Housed.revised_settle {r : Revision} (hhoused : s.Housed)
    (hget : s.registers.lookup name = some (.handle h))
    (hchildren : h.children = Process.children r.pid r.olds) (hmeets : r.Meets s.world)
    (h' : Handle) (target : Option String) (reply : Except Failure Item) :
    Revised r (some name) target s
      (Session.settle ⟨s.registers.put name (.handle h'), r.revise s.world⟩ target reply).2 := by
  have helsewhere (other : String) (haway : other ≠ name) (hshown : some other ≠ target) :
      (Session.settle ⟨s.registers.put name (.handle h'), r.revise s.world⟩ target
        reply).2.registers.lookup other = s.registers.lookup other := by
    rw [lookup_settle_of_ne _ hshown.symm]
    exact Registers.lookup_put_of_ne _ _ haway
  refine ⟨hmeets, world_settle ..,
    fun other haway => helsewhere other fun heq => haway (congrArg some heq),
    fun other x haway _ hget' => ?_, fun other hshown => ?_⟩
  · exact (hhoused.revised hget hchildren hmeets).spares other x haway
      (Option.some_ne_none _) hget'
  · by_cases hhere : other = name
    · subst hhere
      rw [lookup_settle_of_ne _ hshown.symm, hget]
      -- A handle stays a handle, and no more of it shows.
      exact (congrArg (Option.map Item.outline) (Registers.lookup_put_self ..)).trans rfl
    · rw [helsewhere other hhere hshown]

/-- After the handle is asked in the one session as well, the two differ in the record only. -/
theorem Revised.exists_revised_settle {r : Revision} {target : Option String} {w' : World}
    {reply : Except Failure Item} (hrevised : Revised r (some name) target s t)
    (htreats : s.world.Treats r.pid r.olds r.news w')
    (htouched : ∀ other, other = name ∨ target = some other → t.registers.lookup other =
      (Session.settle ⟨s.registers.put name (.handle h'), w'⟩ target reply).2.registers.lookup
        other) :
    ∃ r', Revised r' none none
      (Session.settle ⟨s.registers.put name (.handle h'), w'⟩ target reply).2 t := by
  -- The two sessions differ in no register and in no process that is not revised.
  refine exists_revised_of_like ?_ (fun n => ?_) fun other => ?_
  · rw [world_settle, hrevised.world]
    exact htreats.like.symm.trans (Revision.like_revise r _)
  · -- Whenever the query is made, it turns the same processes into the same others.
    rw [world_settle, hrevised.world, Revision.process?_revise]
    have hasked := Revision.revise_ofTreats hrevised.meets.knows htreats r.faces
    dsimp only
    rw [← hasked, Revision.process?_revise]
    rfl
  · by_cases hhere : other = name ∨ target = some other
    · exact htouched other hhere
    · obtain ⟨haway, hshown⟩ := not_or.1 hhere
      rw [lookup_settle_of_ne _ hshown, hrevised.same other]
      · exact (Registers.lookup_put_of_ne _ _ haway).symm
      · exact fun heq => haway (Option.some.inj heq)
      · exact fun heq => hshown heq.symm

/-- Asking a handle may be moved across steps that deal with other things: every step comes to the
same and makes the same calls. The steps in between may do anything with other items, and also use
the handle as an operand, but they do not ask it, put something into its register, or look at the
answer. -/
theorem Housed.told_moved (hhoused : s.Housed) (hget : s.registers.lookup name = some (.handle h))
    {call : Step} {q : Query Operand} (hasked : call.query? name = some q)
    (halone : q.operands = []) {middle : List Step}
    (hquiet : ∀ step ∈ middle, step.query? name = none ∧ step.target ≠ some name)
    (hunseen : ∀ other, call.target = some other →
      ∀ step ∈ middle, other ∉ step.reads ∧ step.target ≠ some other) (after : List Step) :
    ∃ c ms fs, ms.length = middle.length ∧ s.told (call :: middle ++ after) = c :: ms ++ fs ∧
      s.told (middle ++ call :: after) = ms ++ c :: fs := by
  obtain ⟨pid, ps, hchildren, hknown⟩ := hhoused.sound name _ hget
  obtain ⟨q', -, hresolved⟩ := Query.exists_alone halone
  obtain ⟨reply, h', qs, cs, -, hfaces, htreats⟩ := Handle.exists_treats hchildren q'
  -- The query comes first.
  obtain ⟨w₁, hreplied₁, htreated₁, hcalls₁⟩ := htreats s.world hknown
  obtain ⟨hfirst, hasked₁⟩ := told_of_handle hget hasked (hresolved _) hreplied₁ hcalls₁
  let r : Revision := .ofTreats s.world w₁ pid ps qs hfaces
  have hmeets : r.Meets s.world := Revision.meets_ofTreats hknown hfaces
  have hrevised₁ := hhoused.revised_settle hget hchildren hmeets h' call.target reply
  rw [Revision.revise_ofTreats hknown htreated₁ hfaces, ← hasked₁] at hrevised₁
  -- The steps in between find another past of the processes.
  obtain ⟨hsame, hrevised₂⟩ := hrevised₁.run middle
    (fun step hmem other hown => Option.some.inj hown ▸ (hquiet step hmem).1)
    (fun step hmem other hread hhidden => (hunseen other hhidden.symm step hmem).1 hread)
  -- The query comes last.
  obtain ⟨w₂, hreplied₂, htreated₂, hcalls₂⟩ := htreats _ hrevised₂.meets.knows
  obtain ⟨hlast, hasked₂⟩ :=
    told_of_handle ((lookup_run hquiet).trans hget) hasked (hresolved _) hreplied₂ hcalls₂
  have htouched (other : String) (hhere : other = name ∨ call.target = some other) :
      ((s.execute call).2.run middle).2.registers.lookup other =
        ((s.run middle).2.execute call).2.registers.lookup other := by
    have hkept : ∀ step ∈ middle, step.query? other = none ∧ step.target ≠ some other := by
      intro step hmem
      rcases hhere with rfl | htarget
      · exact hquiet step hmem
      · exact (hunseen other htarget step hmem).imp_left Step.query?_eq_none
    have hbefore : (s.run middle).2.registers.lookup other = s.registers.lookup other :=
      lookup_run hkept
    rw [lookup_run hkept, hasked₁, hasked₂]
    exact (lookup_settle_congr (Registers.lookup_put_congr hbefore ..) ..).symm
  rw [hasked₂] at htouched
  obtain ⟨r', hrevised₃⟩ := hrevised₂.exists_revised_settle htreated₂ htouched
  rw [← hasked₂] at hrevised₃
  obtain ⟨hlater, -⟩ := hrevised₃.run after (fun _ _ _ => nofun) fun _ _ _ _ => nofun
  refine ⟨(.ofReply reply, cs), s.told middle, ((s.run middle).2.execute call).2.told after,
    length_told s middle, ?_, ?_⟩
  · rw [List.cons_append, told_cons, told_append, hfirst, hsame, hlater]
    rfl
  · rw [told_append, told_cons, hlast]

/-- A handle stays a handle in a step that puts nothing into its register. -/
theorem exists_handle_execute (haway : step.target ≠ some name)
    (hget : s.registers.lookup name = some (.handle h)) :
    ∃ h', (s.execute step).2.registers.lookup name = some (.handle h') := by
  cases hasked : step.query? name with
  | none => exact ⟨h, (lookup_execute hasked haway).trans hget⟩
  | some q =>
    cases hresolved : q.resolve s.registers.operand with
    | ok q' =>
      rw [execute_of_handle hget hasked hresolved, lookup_settle_of_ne _ haway]
      exact ⟨_, Registers.lookup_put_self ..⟩
    | error other =>
      obtain ⟨target, rfl⟩ := Step.exists_of_query? hasked
      simp only [execute, Registers.get_of_lookup hget, hresolved]
      exact ⟨h, hget⟩

theorem exists_handle_run {steps : List Step} (hkept : ∀ step ∈ steps, step.target ≠ some name)
    (hget : s.registers.lookup name = some (.handle h)) :
    ∃ h', (s.run steps).2.registers.lookup name = some (.handle h') := by
  induction steps generalizing s h with
  | nil => exact ⟨h, hget⟩
  | cons step steps ih =>
    obtain ⟨h', hget'⟩ := exists_handle_execute (hkept step List.mem_cons_self) hget
    exact ih (fun step hmem => hkept step (List.mem_cons_of_mem _ hmem)) hget'

/-- The session that steps come to, from the beginning. -/
def reached (machine : Machine) (steps : List Step) : Session :=
  (({ world := { machine } } : Session).run steps).2

/-- Runs are independent of each other. Take a pipeline that is started in any session and on any
system. In any other session on any other system, a pipeline with the same commands whose processes
have the same scripts is heard alike, if it is asked the same: whatever was done before the starts
and whatever is done in between. And when the handle is asked for something, that may be moved
across any steps that neither ask it, nor replace it, nor look at the answer. Every step still
comes to the same and makes the same calls. -/
theorem runs_independent (machine : Machine) (before : List Step) (start : Step) (name : String)
    (p : Pipeline) (h : Handle) (hstarts : (reached machine before).Starts start name p h) :
    let s := reached machine before
    let t := (s.execute start).2
    (∀ machine' before' start' name' p' h' steps steps',
      let s' := reached machine' before'
      s'.Starts start' name' p' h' → p'.argvs = p.argvs → h'.captured = h.captured →
      (s'.crew start').map Process.script = (s.crew start).map Process.script →
      (∀ step ∈ steps, step.target ≠ some name) → (∀ step ∈ steps', step.target ≠ some name') →
      queries name' steps' = queries name steps →
      (∀ q ∈ queries name steps, q.operands = [] ∧ q.showsNumbers = false) →
      (s'.execute start').2.heard name' steps' = t.heard name steps) ∧
    ∀ between call q middle after,
      (∀ step ∈ between, step.target ≠ some name) →
      call.query? name = some q → q.operands = [] →
      (∀ step ∈ middle, step.query? name = none ∧ step.target ≠ some name) →
      (∀ other, call.target = some other →
        ∀ step ∈ middle, other ∉ step.reads ∧ step.target ≠ some other) →
      let u := (t.run between).2
      ∃ c ms fs, ms.length = middle.length ∧ u.told (call :: middle ++ after) = c :: ms ++ fs ∧
        u.told (middle ++ call :: after) = ms ++ c :: fs := by
  intro s t
  have hhoused (machine : Machine) (steps : List Step) : (reached machine steps).Housed :=
    (Housed.begin machine).run steps
  refine ⟨?_, ?_⟩
  · intro machine' before' start' name' p' h' steps steps' s' hstarts' hargvs hcaptured hscripts
      hkept hkept' hsame hfree
    exact (hstarts.heard_eq_heard hstarts' (hhoused machine before) (hhoused machine' before')
      hargvs.symm hcaptured.symm hscripts.symm hkept hkept' hsame.symm
      (fun q hmem => (hfree q hmem).1) fun q hmem => (hfree q hmem).2).symm
  · intro between call q middle after hkept hasked halone hquiet hunseen u
    have hown := (hstarts.spec (hhoused machine before)).1
    obtain ⟨h', hget⟩ := exists_handle_run hkept hown
    have hhere : u.Housed := ((hhoused machine before).execute start).run between
    exact hhere.told_moved hget hasked halone hquiet hunseen after

/-- The second of two pipelines with the same command, on a system that has started another process
before, whose source is changed meanwhile. -/
theorem runs_independent_second_start :
    let quick : Machine := .ofScript { processes := [{ stdout := { chunks := [[97]] } }] }
    let busy : Machine := .ofScript {
      processes := [{ waits := [some ⟨.noChild, "wait"⟩] }, { stdout := { chunks := [[97]] } }] }
    let make : Step := ⟨.make (.pipelineOfLine "a"), some "p"⟩
    let spawn (name : String) : Step := ⟨.ask "p" (.spawn true none), some name⟩
    let wait (name : String) : Step := ⟨.ask name .wait, none⟩
    let change : Step := ⟨.ask "p" (.addCommand (.text "b")), none⟩
    let alone := ((reached quick [make]).execute (spawn "h")).2
    let second := ((reached busy [make, spawn "h"]).execute (spawn "g")).2
    second.heard "g" [change, wait "h", wait "g"] = alone.heard "h" [wait "h"] ∧
      ∃ c ms fs, ms.length = 2 ∧
        alone.told [wait "h", change, spawn "g", wait "g"] = c :: ms ++ fs ∧
        alone.told [change, spawn "g", wait "h", wait "g"] = ms ++ c :: fs := by
  intro quick busy make spawn wait change alone second
  let p : Pipeline := ⟨[⟨"a", []⟩]⟩
  let s := reached quick [make]
  let s' := reached busy [make, spawn "h"]
  let h : Handle := .ofProcesses true [["a"]] 1000 (s.crew (spawn "h"))
  let h' : Handle := .ofProcesses true [["a"]] 1001 (s'.crew (spawn "g"))
  have hstarts : s.Starts (spawn "h") "h" p h := ⟨rfl, by decide +kernel, by decide +kernel⟩
  have hstarts' : s'.Starts (spawn "g") "g" p h' := ⟨rfl, by decide +kernel, by decide +kernel⟩
  have hscripts : (s'.crew (spawn "g")).map Process.script =
      (s.crew (spawn "h")).map Process.script := by
    decide +kernel
  obtain ⟨hheard, hmoved⟩ := runs_independent quick [make] (spawn "h") "h" p h hstarts
  constructor
  · refine hheard busy [make, spawn "h"] (spawn "g") "g" p h' [wait "h"]
      [change, wait "h", wait "g"] hstarts' rfl rfl hscripts (by decide) (by decide) rfl
      fun q hmem => ?_
    obtain rfl : q = .wait := List.mem_singleton.1 hmem
    exact ⟨rfl, rfl⟩
  · have hnothing (v : Session) : (v.run []).2 = v := rfl
    obtain ⟨c, ms, fs, hlength, hfirst, hlast⟩ :=
      hmoved [] (wait "h") .wait [change, spawn "g"] [wait "g"] (by decide) rfl rfl (by decide)
        fun _ => nofun
    rw [hnothing] at hfirst hlast
    exact ⟨c, ms, fs, hlength, hfirst, hlast⟩

end Session

end Pipework
