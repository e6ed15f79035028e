import Pipework.Proofs.Run.Abandon
import Pipework.Proofs.Run.Wiring

/-!
# A start goes by its plan as far as it comes

Any call of a start may fail, and the start then stops at once. Up to that point it has made the
calls of its plan in their order, and it stands where the plan has it after every stage. Only a
pipe that is refused is not in the plan. So what is true of the beginnings of a plan is true of
every start.

## Main definitions

* `Launch.Follows` — what comes of some steps that have a plan

## Main results

* `Launch.Follows.bind` — steps may follow each other
* `Launch.Reached.follows_stage_last`, `Launch.Reached.follows_stage_of_ne_nil` — the last stage,
  and every other one
* `Launch.Reached.follows_stages` — all stages
* `Launch.exists_made` — the calls of a start are those of a beginning of its plan
-/

namespace Pipework

namespace Launch

/-- What comes of steps in a start that began in some world and made some calls so far: either all
the planned calls were made as well, and the start is there where they lead, or they were made up
to a failure. If it was a pipe that failed, this is on record too. -/
def Follows (w : World) (calls planned : List Call) (There : Launch → Prop) :
    Except Failure Unit × Launch → Prop
  | (.ok _, l) => There l
  | (.error _, l) => ∃ made tail, made <+: planned ∧ (tail = [] ∨ tail = [.pipeFailed]) ∧
      l.world.calls = w.calls ++ (calls ++ made ++ tail)

namespace Follows

variable {w : World} {calls planned later : List Call} {There There' : Launch → Prop} {l : Launch}
  {a b : Action Launch Failure Unit}

/-- Steps that have come to where they lead may be followed by others. -/
theorem bind (hfirst : Follows w calls planned There (a.outcome l))
    (hnext : ∀ l', There l' → Follows w (calls ++ planned) later There' (b.outcome l')) :
    Follows w calls (planned ++ later) There' ((a >>= fun _ => b).outcome l) := by
  rw [Action.outcome_bind]
  rcases hrun : a.outcome l with ⟨_ | _, l'⟩ <;> rw [hrun] at hfirst
  · obtain ⟨made, tail, hstart, hpipe, hrecord⟩ := hfirst
    exact ⟨made, tail, hstart.trans (List.prefix_append _ _), hpipe, hrecord⟩
  · have hsecond := hnext l' hfirst
    dsimp only
    rcases hrun' : b.outcome l' with ⟨_ | _, l''⟩ <;> rw [hrun'] at hsecond
    · obtain ⟨made, tail, hstart, hpipe, hrecord⟩ := hsecond
      refine ⟨planned ++ made, tail, (List.prefix_append_right_inj _).2 hstart, hpipe, ?_⟩
      rw [hrecord, List.append_assoc calls planned made]
    · exact hsecond

theorem mono {r : Except Failure Unit × Launch} (h : Follows w calls planned There r)
    (himp : ∀ l, There l → There' l) : Follows w calls planned There' r := by
  obtain ⟨_ | _, l⟩ := r
  · exact h
  · exact himp l h

end Follows

namespace Stands

variable {w : World} {links : List Link} {pipes closes starts n d : Nat} {calls : List Call}
  {l : Launch} {link : Link}

/-- Giving up an end leads to the same whether the close fails or not, so that the call is made in
either case. -/
theorem follows_dropEnd (h : Stands w links pipes closes starts calls l) {left : Link → Link}
    {close : Link → Action World Fault Unit} {taken : Nat → Note} (hnewest : links[n]? = some link)
    (hheld : close link = Link.closeEnd (some d) taken) :
    Follows w calls [.close d]
      (Stands w (links.modify n left) pipes (closes + 1) starts (calls ++ [.close d]))
      ((dropEnd n left close).outcome l) := by
  have hgiven : Stands w (links.modify n left) pipes (closes + 1) starts (calls ++ [.close d])
      ((dropEnd n left close).outcome l).2 := by
    have hnoted := h.dropped n left d (taken d)
    rw [← h.links] at hnewest
    rw [outcome_dropEnd_of_some hnewest, hheld, Link.closeEnd, Action.outcome_bind,
      World.outcome_close]
    cases l.world.closeFault? with
    | none => exact hnoted
    | some f =>
      exact ⟨hnoted.machine, hnoted.pipeCalls, hnoted.pipes, hnoted.closeCalls, hnoted.startCalls,
        hnoted.links, hnoted.children, hnoted.calls⟩
  rcases hrun : (dropEnd n left close).outcome l with ⟨_ | _, l'⟩ <;> rw [hrun] at hgiven
  · exact ⟨[.close d], [], List.prefix_rfl, .inl rfl, by simpa using hgiven.calls⟩
  · exact hgiven

theorem follows_dropReader (h : Stands w links pipes closes starts calls l)
    (hnewest : links[n]? = some link) (hheld : link.reader = some d) :
    Follows w calls [.close d]
      (Stands w (links.modify n Link.withoutReader) pipes (closes + 1) starts
        (calls ++ [.close d])) ((dropReader n).outcome l) :=
  h.follows_dropEnd hnewest (by rw [Link.closeReader_eq, hheld])

theorem follows_dropWriter (h : Stands w links pipes closes starts calls l)
    (hnewest : links[n]? = some link) (hheld : link.writer = some d) :
    Follows w calls [.close d]
      (Stands w (links.modify n Link.withoutWriter) pipes (closes + 1) starts
        (calls ++ [.close d])) ((dropWriter n).outcome l) :=
  h.follows_dropEnd hnewest (by rw [Link.closeWriter_eq, hheld])

/-- The last stage reads from the newest link. -/
theorem follows_startStage_last (h : Stands w links pipes closes starts calls l)
    (capture : Capture) (stage : Nat) (argv : List String) :
    let planned : List Call := [.start argv (wiringOf (links.head?.bind (·.reader)))
      (if capture.stdout then .captured else .inherited)
      (if capture.stderr then .captured else .inherited)]
    Follows w calls planned (Stands w links pipes closes (starts + 1) (calls ++ planned))
      ((startStage capture stage true argv).outcome l) := by
  intro planned
  cases hstart : w.machine.start (w.startCalls + starts) argv with
  | ok conduct =>
    obtain ⟨l', hrun, hstands⟩ := h.exists_startStage_last hstart capture stage
    rw [hrun]
    exact hstands
  | error f =>
    have hnewest : l.newestReader = links.head?.bind (·.reader) := by rw [newestReader, h.links]
    rw [← h.machine, ← h.startCalls] at hstart
    rw [outcome_startStage_last_of_error hstart, hnewest]
    refine ⟨planned, [], List.prefix_rfl, .inl rfl, ?_⟩
    simp [refused, World.unstarted, World.log, h.calls, planned]

/-- Every other stage reads from the newest link, if there is one, and writes into a new one. -/
theorem follows_startStage (h : Stands w links pipes closes starts calls l) (capture : Capture)
    (stage : Nat) (argv : List String) :
    let reader := w.machine.descriptors.reader (w.pipes + pipes)
    let writer := w.machine.descriptors.writer (w.pipes + pipes)
    let planned : List Call := [.pipe reader writer,
      .start argv (wiringOf (links.head?.bind (·.reader))) (.descriptor writer)
        (if capture.stderr then .captured else .inherited)]
    Follows w calls planned
      (Stands w (⟨stage, some reader, some writer⟩ :: links) (pipes + 1) closes (starts + 1)
        (calls ++ planned))
      ((startStage capture stage false argv).outcome l) := by
  intro reader writer planned
  cases hpipe : w.machine.pipeFailure (w.pipeCalls + pipes) with
  | some f =>
    rw [← h.machine, ← h.pipeCalls] at hpipe
    rw [outcome_startStage_of_some hpipe]
    refine ⟨[], [.pipeFailed], List.nil_prefix, .inr rfl, ?_⟩
    simp [unlinked, World.unpiped, World.log, h.calls]
  | none =>
    cases hstart : w.machine.start (w.startCalls + starts) argv with
    | ok conduct =>
      obtain ⟨l', hrun, hstands⟩ := h.exists_startStage hpipe hstart capture stage
      rw [hrun]
      exact hstands
    | error f =>
      have hnewest : l.newestReader = links.head?.bind (·.reader) := by rw [newestReader, h.links]
      have hlinked := h.linked stage
      rw [← h.machine, ← h.pipeCalls] at hpipe
      rw [← h.machine, ← h.startCalls] at hstart
      rw [outcome_startStage_of_error hpipe hstart, hnewest]
      refine ⟨planned, [], List.prefix_rfl, .inl rfl, ?_⟩
      have hnextWriter : l.world.nextWriter = writer := by
        rw [World.nextWriter, h.machine, h.pipes]
      simp [refused, World.unstarted, World.log, hlinked.calls, hnextWriter, planned,
        reader, writer]

/-- After the process of the last stage runs, the last read end is given up. -/
theorem follows_releaseEnds_last {plan : Plan} {i : Nat}
    (h : Stands w (plan.openLinks i) pipes closes starts calls l) :
    let planned : List Call := if 0 < i then [.close (plan.reader (i - 1))] else []
    Follows w calls planned
      (Stands w (Plan.closedLinks i) pipes (closes + min i 1) starts (calls ++ planned))
      ((releaseEnds i true).outcome l) := by
  cases i with
  | zero =>
    change Stands w _ _ _ _ _ l
    simpa [Plan.openLinks, Plan.closedLinks] using h
  | succ i =>
    change Follows w calls ([.close (plan.reader i)] ++ []) _
      ((dropReader 0 >>= fun _ => pure ()).outcome l)
    refine (h.follows_dropReader (n := 0) rfl rfl).bind fun l' hstands => ?_
    change Stands w _ _ _ _ _ l'
    simpa [Plan.openLinks, Plan.closedLinks, Link.withoutReader] using hstands

/-- After the process of any other stage runs, the read end that it has is given up, and then the
write end that it has. -/
theorem follows_releaseEnds (plan : Plan) {i : Nat}
    (h : Stands w (⟨i, some (plan.reader i), some (plan.writer i)⟩ :: plan.openLinks i)
      pipes closes starts calls l) :
    let planned : List Call :=
      (if 0 < i then [.close (plan.reader (i - 1))] else []) ++ [.close (plan.writer i)]
    Follows w calls planned
      (Stands w (plan.openLinks (i + 1)) pipes (closes + min i 1 + 1) starts (calls ++ planned))
      ((releaseEnds i false).outcome l) := by
  cases i with
  | zero =>
    -- The first stage reads from no link, so there is only the write end.
    refine (h.follows_dropWriter (n := 0) rfl rfl).mono fun l' hstands => ?_
    simpa [Plan.openLinks, Plan.closedLinks, Link.withoutWriter] using hstands
  | succ i =>
    -- The stage writes into the newest link and reads from the one before it.
    refine (h.follows_dropReader (n := 1) rfl rfl).bind fun l₁ hstands₁ => ?_
    refine (hstands₁.follows_dropWriter (n := 0) rfl rfl).mono fun l₂ hstands₂ => ?_
    simpa [Plan.openLinks, Plan.closedLinks, Link.withoutReader, Link.withoutWriter] using hstands₂

end Stands

namespace Reached

variable {w : World} {capture : Capture} {done rest : List (List String)} {l : Launch}

/-- The last stage goes by the plan. -/
theorem follows_stage_last (argv : List String)
    (h : Reached w (.of capture (done.length + 1) w) done l) :
    let plan : Plan := .of capture (done.length + 1) w
    Follows w (plan.calls done) (plan.stageCalls done.length argv)
      (Reached w plan (done ++ [argv])) ((stage capture done.length true argv).outcome l) := by
  intro plan
  have hbefore : Stands w (plan.openLinks done.length) _ _ _ _ l :=
    h.stands_of_lt done.length.lt_succ_self
  rw [Plan.stageCalls_last rfl]
  have hstart := hbefore.follows_startStage_last capture done.length argv
  rw [Plan.wiringOf_openLinks] at hstart
  refine hstart.bind fun l₁ hstands₁ =>
    hstands₁.follows_releaseEnds_last.mono fun l₂ hstands₂ => ?_
  have hcloses : done.length - 1 + done.length + min done.length 1 =
      done.length + done.length := by omega
  rw [hcloses] at hstands₂
  simpa [Reached, Plan.stageCalls_last, plan, Plan.of, Plan.stderr] using hstands₂

/-- Every other stage goes by the plan. -/
theorem follows_stage_of_ne_nil (argv : List String) (hmore : rest ≠ [])
    (h : Reached w (.of capture (done ++ argv :: rest).length w) done l) :
    let plan : Plan := .of capture (done ++ argv :: rest).length w
    Follows w (plan.calls done) (plan.stageCalls done.length argv)
      (Reached w plan (done ++ [argv])) ((stage capture done.length false argv).outcome l) := by
  intro plan
  have hpos : 0 < rest.length := List.length_pos_iff.2 hmore
  have hlt : done.length + 1 < plan.count := by simp [plan, Plan.of]; omega
  have hbefore : Stands w (plan.openLinks done.length) _ _ _ _ l :=
    h.stands_of_lt (Nat.lt_of_succ_lt hlt)
  rw [Plan.stageCalls_of_lt hlt, List.append_assoc]
  have hstart := hbefore.follows_startStage capture done.length argv
  rw [Plan.wiringOf_openLinks] at hstart
  refine hstart.bind fun l₁ hstands₁ =>
    (Stands.follows_releaseEnds plan hstands₁).mono fun l₂ hstands₂ => ?_
  have hcloses : done.length - 1 + done.length + min done.length 1 + 1 =
      done.length + (done.length + 1) := by omega
  have hlinks : min (done.length + 1) (done.length + rest.length) = done.length + 1 := by omega
  rw [hcloses] at hstands₂
  simpa [Reached, Plan.stageCalls_of_lt, plan, Plan.of, Plan.reader, Plan.writer,
    Plan.stderr, hpos, hlinks] using hstands₂

/-- A start that has come so far goes by the plan from there on. -/
theorem follows_stages (h : Reached w (.of capture (done ++ rest).length w) done l) :
    let plan : Plan := .of capture (done ++ rest).length w
    Follows w (plan.calls done) (rest.mapIdx fun i => plan.stageCalls (done.length + i)).flatten
      (Reached w plan (done ++ rest)) ((stages capture done.length rest).outcome l) := by
  induction rest generalizing done l with
  | nil =>
    intro plan
    change Reached w _ _ l
    simpa [plan] using h
  | cons argv rest ih =>
    intro plan
    have hnext : Follows w (plan.calls done) (plan.stageCalls done.length argv)
        (Reached w plan (done ++ [argv]))
        ((stage capture done.length rest.isEmpty argv).outcome l) := by
      cases rest with
      | nil => simpa [plan] using follows_stage_last argv (by simpa using h)
      | cons argv' rest => exact follows_stage_of_ne_nil argv (List.cons_ne_nil _ _) h
    have hsplit : done ++ argv :: rest = done ++ [argv] ++ rest := by simp
    have hplaces : (fun i => plan.stageCalls (done.length + (i + 1))) =
        fun i => plan.stageCalls ((done ++ [argv]).length + i) := by
      funext i
      rw [List.length_append, List.length_singleton, Nat.add_assoc, Nat.add_comm 1]
    rw [List.mapIdx_cons, List.flatten_cons, hplaces, hsplit]
    refine hnext.bind fun l₁ hreached => ?_
    rw [← Plan.calls_append_singleton]
    have hindex : done.length + 1 = (done ++ [argv]).length := by simp
    dsimp only [plan] at hreached ⊢
    rw [hsplit] at hreached ⊢
    rw [hindex]
    exact ih hreached

end Reached

/-- Where a start stops it has made the calls of a beginning of its plan. If it came to its end, it
has made all of them, and otherwise there may be a pipe that failed. -/
theorem exists_made (capture : Capture) (argvs : List (List String)) (w : World) :
    ∃ made tail, made <+: (Plan.of capture argvs.length w).calls argvs ∧
      (tail = [] ∨ tail = [.pipeFailed]) ∧
      (stopped capture argvs w).world.calls = w.calls ++ (made ++ tail) ∧
      (result capture argvs w = .ok () →
        made = (Plan.of capture argvs.length w).calls argvs ∧ tail = []) := by
  have hbegun : Reached w (.of capture ([] ++ argvs).length w) [] { world := w } := by
    cases argvs <;> exact Stands.begin w
  have hfollows : Follows w [] ((Plan.of capture argvs.length w).calls argvs)
      (Reached w (.of capture argvs.length w) argvs)
      (result capture argvs w, stopped capture argvs w) := by
    have hstages := Reached.follows_stages hbegun
    simp only [List.nil_append, List.length_nil, Nat.zero_add] at hstages
    exact hstages
  rcases houtcome : result capture argvs w with failure | _ <;> rw [houtcome] at hfollows
  · obtain ⟨made, tail, hstart, hpipe, hrecord⟩ := hfollows
    exact ⟨made, tail, hstart, hpipe, by simpa using hrecord, nofun⟩
  · have hreached : Reached w (.of capture argvs.length w) argvs (stopped capture argvs w) :=
      hfollows
    exact ⟨_, [], List.prefix_rfl, .inl rfl, by simpa using hreached.calls, fun _ => ⟨rfl, rfl⟩⟩

end Launch

end Pipework
