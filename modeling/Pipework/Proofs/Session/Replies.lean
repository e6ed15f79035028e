import Pipework.Proofs.Host.Respect
import Pipework.Proofs.Run.Abandon
import Pipework.Session.Reply

/-!
# What replies do to the world

A reply may make a pipe, start a pipeline, wait for one, or give up ends of a link. The calls that
it makes are in good order. Links do not get around: only the making of a link answers one, and
what is no link does not become one. Handles do not get around either, for only a start answers
one.

## Main definitions

* `Item.IsLink` — the item is a link
* `Item.IsPlain` — the item has nothing to do with the system

## Main results

* `Query.exists_leads_perform` — the calls that are made for other items are orderly
* `Query.exists_releases_perform` — a link is only ever asked to give up what it holds
* `Query.gives_perform_of_none` — what is answered without running a pipeline is plain
* `Query.gives_perform`, `Query.not_isLink_perform` — no query answers a link or brings one about
* `Maker.outcome_perform_link` — a new link is on the next pipe
-/

namespace Pipework

/-- The item is a link. -/
def Item.IsLink : Item → Prop
  | .link _ => True
  | _ => False

/-- The item has nothing to do with the system: it is neither a link nor a handle, and it starts
nothing. -/
def Item.IsPlain : Item → Prop
  | .link _ | .handle _ | .executor _ => False
  | _ => True

theorem Item.IsPlain.not_isLink {x : Item} (hplain : x.IsPlain) : ¬ x.IsLink := by
  cases x with
  | link l => exact hplain.elim
  | _ => exact id

namespace Maker

/-- A new link is on the next pipe. -/
theorem outcome_perform_link (index : Int) (w : World) :
    (link index : Maker Item).perform.outcome w =
      match w.machine.pipeFailure w.pipeCalls with
      | none => (.ok (.link ⟨index, some w.nextReader, some w.nextWriter⟩), w.piped)
      | some f => (.error (.fault f), w.unpiped) := by
  cases hpipe : w.machine.pipeFailure w.pipeCalls with
  | none =>
    simp only [perform, Link.make, Action.outcome_bind, Action.outcome_mapFailure,
      World.outcome_pipe_of_none hpipe]
    rfl
  | some f =>
    simp only [perform, Link.make, Action.outcome_bind, Action.outcome_mapFailure,
      World.outcome_pipe_of_some hpipe]
    rfl

/-- Making anything else makes no call and no link. -/
theorem outcome_perform_of_ne {m : Maker Item} (hother : ∀ index, m ≠ .link index) (w : World) :
    (m.perform.outcome w).2 = w ∧
      Gives (fun answer => ¬ answer.IsLink) (m.perform.outcome w).1 := by
  cases m with
  | link index => exact absurd rfl (hother index)
  | _ => exact ⟨rfl, .map fun _ => id⟩

/-- What is made makes orderly calls. -/
theorem exists_leads_perform (m : Maker Item) (w : World) :
    ∃ calls, w.Leads calls (m.perform.outcome w).2 := by
  by_cases hisLink : ∃ index, m = .link index
  · obtain ⟨index, rfl⟩ := hisLink
    rw [outcome_perform_link]
    cases w.machine.pipeFailure w.pipeCalls with
    | none => exact ⟨_, .piped w⟩
    | some f => exact ⟨_, .unpiped w⟩
  · rw [(outcome_perform_of_ne (fun index heq => hisLink ⟨index, heq⟩) w).1]
    exact ⟨[], .refl w⟩

end Maker

namespace Query

variable {q : Query Item} {x y : Item} {w : World}

/-! ### Links -/

theorem runner?_link (q : Query Item) (l : Link) : q.runner? (.link l) = none := by
  cases q <;> rfl

theorem run_onLink_closeReader (l : Link) (w : World) :
    (onLink l closeReader).run w =
      ((((l.closeReader.outcome w).1.mapError Failure.fault).map fun _ => .nothing,
        l.withoutReader), (l.closeReader.outcome w).2) := by
  have houtcome : StateT.run (ExceptT.run l.closeReader) w = l.closeReader.outcome w := rfl
  simp only [onLink, StateT.run_bind, houtcome]
  rcases l.closeReader.outcome w with ⟨_ | _, w₁⟩ <;> rfl

theorem run_onLink_closeWriter (l : Link) (w : World) :
    (onLink l closeWriter).run w =
      ((((l.closeWriter.outcome w).1.mapError Failure.fault).map fun _ => .nothing,
        l.withoutWriter), (l.closeWriter.outcome w).2) := by
  have houtcome : StateT.run (ExceptT.run l.closeWriter) w = l.closeWriter.outcome w := rfl
  simp only [onLink, StateT.run_bind, houtcome]
  rcases l.closeWriter.outcome w with ⟨_ | _, w₁⟩ <;> rfl

/-- A link is only ever asked to give up what it holds, and it agrees with the ledger
afterwards. -/
theorem exists_releases_onLink (q : Query Item) (l : Link) (w : World) :
    ∃ ds, w.Releases ds ((q.onLink l).run w).2 ∧ ds.Sublist l.held ∧
      ∀ {descriptors calls m}, l.Tracks descriptors calls m →
        ((q.onLink l).run w).1.2.Tracks descriptors (calls ++ ds.map .close) m := by
  have hnothing : ∃ ds, w.Releases ds w ∧ ds.Sublist l.held ∧
      ∀ {descriptors calls m}, l.Tracks descriptors calls m →
        l.Tracks descriptors (calls ++ ds.map .close) m :=
    ⟨[], .refl w, List.nil_sublist _, fun h => by simpa using h⟩
  -- Four queries give up ends of the link, and all others leave it alone.
  cases q with
  | close =>
    exact ⟨_, l.releases_close w, l.given_sublist_held w, fun h => h.close w⟩
  | block raised =>
    exact ⟨_, l.releases_close w, l.given_sublist_held w, fun h => h.close w⟩
  | closeReader =>
    rw [run_onLink_closeReader]
    exact ⟨_, l.releases_closeReader w, List.sublist_append_right _ _, fun h => h.withoutReader⟩
  | closeWriter =>
    rw [run_onLink_closeWriter]
    exact ⟨_, l.releases_closeWriter w, List.sublist_append_left _ _, fun h => h.withoutWriter⟩
  | _ => exact hnothing

/-! ### Answers -/

theorem gives_onCommand (c : Command) (q : Query Item) :
    Gives (fun answer => answer.1.IsPlain) (onCommand c q) := by
  cases q with
  | extend values => exact .bind fun _ => trivial
  | pipe x => exact .bind fun _ => trivial
  | copy => exact .bind fun _ => trivial
  | line => exact .bind fun _ => trivial
  | arg | setProgram | equals | argv | inspect => trivial
  | _ => trivial

theorem gives_onPipeline (p : Pipeline) (q : Query Item) :
    Gives (fun answer => answer.1.IsPlain) (onPipeline p q) := by
  cases q with
  | addCommand program => exact .bind fun _ => .bind fun _ => trivial
  | add x => exact .map fun _ => trivial
  | combine x => exact .map fun _ => trivial
  | arg value => exact .map fun _ => trivial
  | args values => exact .bind fun _ => .bind fun _ => .map fun _ => trivial
  | pipe x => exact .bind fun _ => trivial
  | get index => exact .bind fun _ => trivial
  | equals | argvs | stages | length | line | inspect => trivial
  | _ => trivial

theorem gives_onResult (r : ExecutionResult) (q : Query Item) :
    Gives (fun answer => answer.IsPlain) (onResult r q) := by
  cases q with
  | check pipefail => exact .map fun _ => trivial
  | text codec policy => exact .map fun _ => trivial
  | status => exact .map fun _ => trivial
  | returnCode => exact .map fun _ => trivial
  | success => exact .map fun _ => trivial
  | allSucceeded | firstFailure | stdout | stderr | statuses => trivial
  | _ => trivial

theorem gives_ofHandle (h : Handle) (q : Query Item) :
    Gives (fun answer => answer.IsPlain) (q.ofHandle h) := by
  cases q with
  | pids | stageCount | argvs | isCaptured | inspect | line => trivial
  | _ => trivial

theorem gives_ofAwaited {q : Query Item} {take : ExecutionResult → Except Failure Item}
    (hawaits : q.ofAwaited? = some take) (r : ExecutionResult) :
    Gives (fun answer => answer.IsPlain) (take r) := by
  cases q with
  | block raised => cases raised <;> obtain rfl := Option.some.inj hawaits <;> trivial
  | wait | output | stdout | stderr | statuses =>
    obtain rfl := Option.some.inj hawaits
    trivial
  | _ => cases hawaits

theorem gives_onLink (l : Link) (q : Query Item) (w : World) :
    Gives (fun answer => answer.IsPlain) ((onLink l q).run w).1.1 := by
  have hanswered : ∀ (fault : Option Fault) (x : Item), x.IsPlain →
      Gives (fun answer => answer.IsPlain) (onLink.answer fault x) := by
    intro fault x hplain
    cases fault with
    | none => exact hplain
    | some f => trivial
  cases q with
  | close => exact hanswered _ .nothing trivial
  | block raised => exact hanswered _ (.ofBool true) trivial
  | closeReader =>
    rw [run_onLink_closeReader]
    exact .map fun _ => trivial
  | closeWriter =>
    rw [run_onLink_closeWriter]
    exact .map fun _ => trivial
  | isClosed | inspect | line => trivial
  | _ => trivial

theorem gives_onHandle (h : Handle) (q : Query Item) (w : World) :
    Gives (fun answer => answer.IsPlain) ((onHandle h q).run w).1.1 := by
  rw [onHandle]
  cases hawaits : q.ofAwaited? with
  | none => exact gives_ofHandle h q
  | some take => exact .bind fun r => gives_ofAwaited hawaits r

theorem gives_run (e : Executor) (p : Pipeline) (q : Query Item) (w : World) :
    Gives (fun answer => ¬ answer.IsLink) ((run e p q).outcome w).1 := by
  cases q with
  | spawn captured partner =>
    rw [run, Action.outcome_bind_pure]
    exact .map fun _ => id
  | output partner =>
    rw [run, Action.outcome_bind_pure]
    exact .map fun _ => id
  | _ => trivial

/-! ### Calls -/

/-- What makes calls on processes only, once the links of a start are given up, makes orderly calls
from the beginning of the start on. -/
theorem exists_leads_of_confined {capture : Capture} {argvs : List (List String)} {w w' : World}
    (hconfined : (Launch.stopped capture argvs w).released.Confined Call.isOnProcess w') :
    ∃ calls, w.Leads calls w' := by
  obtain ⟨calls, hbalanced⟩ := (Launch.moves_stopped capture argvs w).exists_balanced
  obtain ⟨cs, -, hleads⟩ := hbalanced.exists_leads hconfined
  exact ⟨_, hleads⟩

/-- Running a pipeline makes orderly calls. -/
theorem exists_leads_run (e : Executor) (p : Pipeline) (q : Query Item) (w : World) :
    ∃ calls, w.Leads calls ((run e p q).outcome w).2 := by
  cases q with
  | spawn captured partner =>
    rw [run, Action.outcome_bind_pure]
    exact exists_leads_of_confined (e.confined_spawn captured w p)
  | output partner =>
    rw [run, Action.outcome_bind_pure]
    exact exists_leads_of_confined (e.confined_run true w p)
  | _ => exact ⟨[], .refl w⟩

theorem confines_onHandle (h : Handle) (q : Query Item) :
    World.Confines Call.isOnProcess (onHandle h q) := by
  rw [onHandle]
  cases q.ofAwaited? with
  | none => exact .pure _
  | some take => exact h.confines_wait.bind fun _ => .pure _

/-! ### Replies of any item -/

theorem perform_of_runner {e : Executor} {p : Pipeline} (hruns : q.runner? x = some (e, p))
    (w : World) :
    (q.perform x).run w = ((((run e p q).outcome w).1, x), ((run e p q).outcome w).2) := by
  unfold perform
  rw [hruns]
  rfl

theorem runner?_handle (q : Query Item) (h : Handle) : q.runner? (.handle h) = none := by
  cases q <;> rfl

theorem run_perform_handle (q : Query Item) (h : Handle) (w : World) :
    (q.perform (.handle h)).run w =
      ((((q.onHandle h).run w).1.1, .handle ((q.onHandle h).run w).1.2),
        ((q.onHandle h).run w).2) := by
  rw [perform, runner?_handle]
  rfl

/-- What is answered without running a pipeline is plain. -/
theorem gives_perform_of_none (hidle : q.runner? x = none) (w : World) :
    Gives (fun answer => answer.IsPlain) ((q.perform x).run w).1.1 := by
  -- What the item itself turns into does not matter to the answer.
  have hkept : ∀ {α : Type} (wrap : α → Item) (outcome : Except Failure (Item × α)),
      Gives (fun answer => answer.1.IsPlain) outcome →
      Gives (fun answer => answer.IsPlain) (keeping wrap x outcome).1 := by
    intro α wrap outcome hgiven
    cases outcome with
    | error f => trivial
    | ok answer => exact hgiven
  unfold perform
  rw [hidle]
  cases x with
  | command c => exact hkept _ _ (gives_onCommand c q)
  | pipeline p => exact hkept _ _ (gives_onPipeline p q)
  | result r => exact gives_onResult r q
  | handle h => exact gives_onHandle h q w
  | link l => exact gives_onLink l q w
  | _ => trivial

/-- No query is answered by a link. -/
theorem gives_perform (q : Query Item) (x : Item) (w : World) :
    Gives (fun answer => ¬ answer.IsLink) ((q.perform x).run w).1.1 := by
  cases hruns : q.runner? x with
  | some runner =>
    rw [perform_of_runner hruns]
    exact gives_run _ _ q w
  | none => exact (gives_perform_of_none hruns w).mono fun _ hplain => hplain.not_isLink

/-- What is plain stays plain. -/
theorem isPlain_perform (hplain : x.IsPlain) (q : Query Item) (w : World) :
    ((q.perform x).run w).1.2.IsPlain := by
  have hkept : ∀ {α : Type} (wrap : α → Item) (outcome : Except Failure (Item × α)),
      (∀ a, (wrap a).IsPlain) → (keeping wrap x outcome).2.IsPlain := by
    intro α wrap outcome hwrapped
    cases outcome with
    | error f => exact hplain
    | ok answer => exact hwrapped _
  -- A query that runs something leaves the item as it is; so does one that fails.
  cases hruns : q.runner? x with
  | some runner =>
    rw [perform_of_runner hruns]
    exact hplain
  | none =>
    unfold perform
    rw [hruns]
    cases x with
    | command c => exact hkept _ _ fun _ => trivial
    | pipeline p => exact hkept _ _ fun _ => trivial
    | link l => exact hplain.elim
    | handle h => exact hplain.elim
    | _ => trivial

/-- What is no link does not become one. -/
theorem not_isLink_perform (hother : ¬ x.IsLink) (q : Query Item) (w : World) :
    ¬ ((q.perform x).run w).1.2.IsLink := by
  by_cases hplain : x.IsPlain
  · exact (isPlain_perform hplain q w).not_isLink
  · cases hruns : q.runner? x with
    | some runner =>
      rw [perform_of_runner hruns]
      exact hother
    | none =>
      unfold perform
      rw [hruns]
      cases x with
      | link l => exact absurd trivial hother
      | handle h | executor e => exact id
      | _ => exact absurd trivial hplain

/-- A link that is asked stays a link; it is only asked to give up what it holds, and it agrees
with the ledger afterwards. -/
theorem exists_releases_perform (q : Query Item) (l : Link) (w : World) :
    ∃ ds l', ((q.perform (.link l)).run w).1.2 = .link l' ∧
      w.Releases ds ((q.perform (.link l)).run w).2 ∧ ds.Sublist l.held ∧
      ∀ {descriptors calls m}, l.Tracks descriptors calls m →
        l'.Tracks descriptors (calls ++ ds.map .close) m := by
  obtain ⟨ds, hrelease, hsublist, htracks⟩ := exists_releases_onLink q l w
  rw [perform, runner?_link]
  exact ⟨ds, _, rfl, hrelease, hsublist, htracks⟩

/-- The calls that are made for an item that is no link are orderly. -/
theorem exists_leads_perform (hother : ¬ x.IsLink) (q : Query Item) (w : World) :
    ∃ calls, w.Leads calls ((q.perform x).run w).2 := by
  cases hruns : q.runner? x with
  | some runner =>
    rw [perform_of_runner hruns]
    exact exists_leads_run _ _ q w
  | none =>
    unfold perform
    rw [hruns]
    cases x with
    | handle h =>
      obtain ⟨cs, -, hleads⟩ := (confines_onHandle h q w).leads
      exact ⟨cs, hleads⟩
    | link l => exact absurd trivial hother
    | _ => exact ⟨[], .refl w⟩

end Query

end Pipework
