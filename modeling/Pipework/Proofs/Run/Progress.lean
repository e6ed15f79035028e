import Mathlib.Logic.Relation
import Pipework.Proofs.Run.Launch
import Pipework.Proofs.Run.Release

/-!
# The progress of a start

Whatever the system answers, a start goes forward by moves of six kinds: a link or a process is had
or refused, or an end of a link is given up. What every move keeps holds wherever a start stops. So
its links always agree with the ledger of its calls. Only the newest link ever shows a write end
when a start stops.

## Main definitions

* `Launch.stopped` — where a start leaves its stages behind
* `Launch.Move` — one move of a start
* `Launch.Balanced` — the links agree with the ledger
* `Launch.Tidy` — at most the newest link shows a write end, and then also its read end

## Main results

* `Launch.moves_stopped` — a start comes by moves to where it stops
* `Launch.Moves.exists_balanced` — the links agree with the ledger after every move
* `Launch.tidy_stopped` — how a start stops
-/

namespace Pipework

namespace Launch

open Call (Held)

variable {l l' : Launch} {w w₀ : World}

/-- Where a start stands when it leaves its stages behind, after the last or at a failure. -/
def stopped (capture : Capture) (argvs : List (List String)) (w : World) : Launch :=
  ((stages capture 0 argvs).outcome { world := w }).2

/-- A link shows the descriptor. -/
def Shows (l : Launch) (d : Nat) : Prop := ∃ link ∈ l.links, d ∈ link.held

/-- One move of a start. A process is wired only to what the links show. -/
inductive Move (l : Launch) : Launch → Prop
  | linked (stage : Nat) : Move l (l.linked stage)
  | unlinked : Move l l.unlinked
  | joined (stage : Nat) (argv : List String) (stdin stdout stderr : Wiring)
      (conduct : Bytes → Conduct)
      (hshown : ∀ d ∈ (Call.start argv stdin stdout stderr).used, l.Shows d) :
      Move l (l.joined stage argv stdin stdout stderr conduct)
  | refused (argv : List String) (stdin stdout stderr : Wiring)
      (hshown : ∀ d ∈ (Call.start argv stdin stdout stderr).used, l.Shows d) :
      Move l (l.refused argv stdin stdout stderr)
  | dropReader (n : Nat) : Move l ((dropReader n).outcome l).2
  | dropWriter (n : Nat) : Move l ((dropWriter n).outcome l).2

/-- Some moves of a start. -/
abbrev Moves : Launch → Launch → Prop := Relation.ReflTransGen Move

/-! ### Giving up an end -/

section DropEnd

variable {left : Link → Link} {close : Link → Action World Fault Unit} {shown : Link → Option Nat}

theorem links_dropEnd (l : Launch) (n : Nat) :
    ((dropEnd n left close).outcome l).2.links = l.links.modify n left := by
  cases hnewest : l.links[n]? with
  | none =>
    rw [outcome_dropEnd_of_none hnewest, List.modify_eq_self (List.getElem?_eq_none_iff.1 hnewest)]
  | some link => rw [outcome_dropEnd_of_some hnewest]

theorem children_dropEnd (l : Launch) (n : Nat) :
    ((dropEnd n left close).outcome l).2.children = l.children := by
  cases hnewest : l.links[n]? with
  | none => rw [outcome_dropEnd_of_none hnewest]
  | some link => rw [outcome_dropEnd_of_some hnewest]

/-- Giving up an end closes what the link shows of it. -/
theorem releases_dropEnd
    (hrelease : ∀ link (w : World), w.Releases (shown link).toList ((close link).outcome w).2)
    (l : Launch) (n : Nat) :
    l.world.Releases (l.links[n]?.bind shown).toList
      ((dropEnd n left close).outcome l).2.world := by
  cases hnewest : l.links[n]? with
  | none =>
    rw [outcome_dropEnd_of_none hnewest]
    exact .refl _
  | some link =>
    rw [outcome_dropEnd_of_some hnewest]
    exact hrelease link l.world

end DropEnd

theorem releases_dropReader (l : Launch) (n : Nat) :
    l.world.Releases (l.links[n]?.bind (·.reader)).toList ((dropReader n).outcome l).2.world :=
  releases_dropEnd Link.releases_closeReader l n

theorem releases_dropWriter (l : Launch) (n : Nat) :
    l.world.Releases (l.links[n]?.bind (·.writer)).toList ((dropWriter n).outcome l).2.world :=
  releases_dropEnd Link.releases_closeWriter l n

/-! ### A start goes by moves -/

theorem moves_bind {α β : Type} {a : Action Launch Failure α} {f : α → Action Launch Failure β}
    (hfirst : Moves l (a.outcome l).2) (hnext : ∀ l' x, Moves l' ((f x).outcome l').2) :
    Moves l ((a >>= f).outcome l).2 := by
  rw [Action.outcome_bind]
  rcases hrun : a.outcome l with ⟨_ | x, l'⟩
  · rwa [hrun] at hfirst
  · rw [hrun] at hfirst
    exact hfirst.trans (hnext l' x)

theorem shows_of_newestReader {d : Nat} (hmem : d ∈ (wiringOf l.newestReader).descriptors) :
    l.Shows d := by
  rcases hlinks : l.links with _ | ⟨link, older⟩
  · simp [newestReader, hlinks, wiringOf, Wiring.descriptors] at hmem
  · refine ⟨link, by simp [hlinks], ?_⟩
    cases hreader : link.reader with
    | none => simp [newestReader, hlinks, hreader, wiringOf, Wiring.descriptors] at hmem
    | some d' =>
      obtain rfl : d = d' := by
        simpa [newestReader, hlinks, hreader, wiringOf, Wiring.descriptors] using hmem
      simp [Link.held, hreader]

/-- What the last stage is wired to is shown. -/
theorem shows_of_mem_used_last {capture : Capture} {argv : List String} {d : Nat}
    (hmem : d ∈ (Call.start argv (wiringOf l.newestReader)
      (if capture.stdout then .captured else .inherited)
      (if capture.stderr then .captured else .inherited)).used) : l.Shows d := by
  apply shows_of_newestReader
  cases h₁ : capture.stdout <;> cases h₂ : capture.stderr <;>
    simpa [Call.used, Call.dropped, Call.wired, Wiring.descriptors, h₁, h₂] using hmem

/-- What any other stage is wired to is shown once its link is made. -/
theorem shows_of_mem_used {capture : Capture} {argv : List String} {d : Nat} (stage : Nat)
    (hmem : d ∈ (Call.start argv (wiringOf l.newestReader) (.descriptor l.world.nextWriter)
      (if capture.stderr then .captured else .inherited)).used) : (l.linked stage).Shows d := by
  have heither : d ∈ (wiringOf l.newestReader).descriptors ∨ d = l.world.nextWriter := by
    cases h : capture.stderr <;>
      simpa [Call.used, Call.dropped, Call.wired, Wiring.descriptors, h] using hmem
  rcases heither with hreader | rfl
  · obtain ⟨link, hmem, hheld⟩ := shows_of_newestReader hreader
    exact ⟨link, List.mem_cons_of_mem _ hmem, hheld⟩
  · exact ⟨_, List.mem_cons_self, by simp [Link.held]⟩

theorem moves_startStage (l : Launch) (capture : Capture) (stage : Nat) (last : Bool)
    (argv : List String) : Moves l ((startStage capture stage last argv).outcome l).2 := by
  cases last with
  | true =>
    cases hstart : l.world.machine.start l.world.startCalls argv with
    | error f =>
      rw [outcome_startStage_last_of_error hstart]
      exact .single (.refused _ _ _ _ fun d => shows_of_mem_used_last)
    | ok conduct =>
      rw [outcome_startStage_last hstart]
      exact .single (.joined _ _ _ _ _ _ fun d => shows_of_mem_used_last)
  | false =>
    cases hpipe : l.world.machine.pipeFailure l.world.pipeCalls with
    | some f =>
      rw [outcome_startStage_of_some hpipe]
      exact .single .unlinked
    | none =>
      -- The link is made in any case, and the process is had or refused after that.
      refine .head (.linked stage) (.single ?_)
      cases hstart : l.world.machine.start l.world.startCalls argv with
      | error f =>
        rw [outcome_startStage_of_error hpipe hstart]
        exact .refused _ _ _ _ fun d => shows_of_mem_used stage
      | ok conduct =>
        rw [outcome_startStage_of_none hpipe hstart]
        exact .joined _ _ _ _ _ _ fun d => shows_of_mem_used stage

theorem moves_releaseEnds (l : Launch) (index : Nat) (last : Bool) :
    Moves l ((releaseEnds index last).outcome l).2 := by
  cases index with
  | zero =>
    cases last with
    | true => exact .refl
    | false => exact .single (.dropWriter 0)
  | succ i =>
    cases last with
    | true => exact moves_bind (.single (.dropReader 0)) fun _ _ => .refl
    | false => exact moves_bind (.single (.dropReader 1)) fun _ _ => .single (.dropWriter 0)

theorem moves_stages (l : Launch) (capture : Capture) (index : Nat)
    (argvs : List (List String)) : Moves l ((stages capture index argvs).outcome l).2 := by
  induction argvs generalizing l index with
  | nil => exact .refl
  | cons argv rest ih =>
    refine moves_bind (moves_bind (l.moves_startStage _ _ _ _) fun l' _ => ?_) fun l' _ => ih l' _
    exact l'.moves_releaseEnds _ _

/-- A start comes by moves to where it stops. -/
theorem moves_stopped (capture : Capture) (argvs : List (List String)) (w : World) :
    Moves { world := w } (stopped capture argvs w) :=
  moves_stages _ _ _ _

/-- What every move keeps holds wherever a start comes to. -/
theorem Moves.induction {I : Launch → Prop} (hmoves : Moves { world := w } l)
    (hbegin : I { world := w }) (hstep : ∀ l l', I l → Move l l' → I l') : I l := by
  induction hmoves with
  | refl => exact hbegin
  | tail _ hmove ih => exact hstep _ _ ih hmove

theorem Move.machine (hmove : Move l l') : l'.world.machine = l.world.machine := by
  cases hmove with
  | dropReader n => exact (releases_dropReader l n).machine
  | dropWriter n => exact (releases_dropWriter l n).machine
  | _ => rfl

theorem Moves.machine (hmoves : Moves l l') : l'.world.machine = l.world.machine := by
  induction hmoves with
  | refl => rfl
  | tail _ hmove ih => exact hmove.machine.trans ih

/-! ### The links agree with the ledger -/

/-- A start that began in some world stands where these calls have led it, with one link for each
pipe, newest first, and each link agrees with the ledger. -/
structure Balanced (w₀ : World) (calls : List Call) (l : Launch) : Prop where
  leads : w₀.Leads calls l.world
  pipes : l.world.pipes = w₀.pipes + l.links.length
  tracks : ∀ n i link, l.links[n]? = some link → n + i + 1 = l.links.length →
    link.Tracks w₀.machine.descriptors calls (w₀.pipes + i)

namespace Balanced

variable {calls : List Call} {d n : Nat}

theorem begin (w : World) : Balanced w [] { world := w } where
  leads := .refl w
  pipes := rfl
  tracks n i link hnewest := by simp at hnewest

/-- The pipe of a link, from the place of the link. -/
theorem tracks_of_getElem? (h : Balanced w₀ calls l) {link : Link}
    (hplace : l.links[n]? = some link) :
    link.Tracks w₀.machine.descriptors calls (w₀.pipes + (l.links.length - 1 - n)) := by
  have hlt : n < l.links.length := (List.getElem?_eq_some_iff.1 hplace).1
  exact h.tracks n _ link hplace (by omega)

/-- What the links show is held. -/
theorem held_of_shows (h : Balanced w₀ calls l) (hshown : l.Shows d) : Held calls d := by
  obtain ⟨link, hmem, hheld⟩ := hshown
  obtain ⟨n, hnewest⟩ := List.mem_iff_getElem?.1 hmem
  have hlt : n < l.links.length := (List.getElem?_eq_some_iff.1 hnewest).1
  have hpipes := h.pipes
  exact h.leads.held_of_tracks (h.tracks_of_getElem? hnewest) (by omega) (by omega) hheld

/-- No descriptor is shown twice. -/
theorem nodup_shown (h : Balanced w₀ calls l) : (l.links.flatMap Link.held).Nodup := by
  have htracks : ∀ n (hlt : n < l.links.length), l.links[n].Tracks w₀.machine.descriptors calls
      (w₀.pipes + (l.links.length - 1 - n)) :=
    fun n hlt => h.tracks_of_getElem? (List.getElem?_eq_getElem hlt)
  -- The two ends of a pipe differ, and different links are on different pipes.
  rw [List.nodup_flatMap, List.pairwise_iff_getElem]
  constructor
  · intro link hmem
    obtain ⟨n, hlt, rfl⟩ := List.mem_iff_getElem.1 hmem
    exact (htracks n hlt).nodup_held
  · intro i j hlt hlt' hbefore
    exact (htracks i hlt).disjoint_held (htracks j hlt') (by omega)

/-- A call that works with what the links show, and makes no pipe, leaves the links as they are. -/
theorem append_singleton (h : Balanced w₀ calls l) {c : Call} (hshown : ∀ d ∈ c.used, l.Shows d)
    (hnoPipe : c.made = []) (hnoClose : c.dropped = []) (hlinks : l'.links = l.links)
    (hmachine : l'.world.machine = l.world.machine)
    (hrecord : l'.world.calls = l.world.calls ++ [c]) (hpipes : l'.world.pipes = l.world.pipes) :
    Balanced w₀ (calls ++ [c]) l' where
  leads :=
    h.leads.append_singleton (fun d hmem => h.held_of_shows (hshown d hmem)) hnoPipe hmachine
      hrecord hpipes
  pipes := by rw [hpipes, hlinks, h.pipes]
  tracks n i link hnewest hposition := by
    rw [hlinks] at hnewest hposition
    have hopen' : ∀ d, .close d ∉ [c] := by
      intro d hmem
      obtain rfl : .close d = c := List.mem_singleton.1 hmem
      simp [Call.dropped] at hnoClose
    exact (h.tracks n i link hnewest hposition).append (hopen' _) (hopen' _)

theorem linked (h : Balanced w₀ calls l) (stage : Nat) :
    Balanced w₀ (calls ++ [.pipe l.world.nextReader l.world.nextWriter]) (l.linked stage) where
  leads := h.leads.trans (.piped l.world)
  pipes := by
    change l.world.pipes + 1 = w₀.pipes + (l.links.length + 1)
    rw [h.pipes, Nat.add_assoc]
  tracks n i link hnewest hposition := by
    change (_ :: l.links)[n]? = some link at hnewest
    change n + i + 1 = l.links.length + 1 at hposition
    refine .append ?_ (by simp) (by simp)
    cases n with
    | zero =>
      -- The new link is on the next pipe, whose ends cannot have been closed yet.
      obtain rfl : i = l.links.length := by omega
      obtain rfl := Option.some.inj hnewest
      rw [World.nextReader, World.nextWriter, h.leads.machine, h.pipes]
      have hbound := h.pipes
      obtain ⟨hreader, hwriter⟩ := h.leads.ends_not_closed (.inr (Nat.le_of_eq hbound))
      exact .made _ hreader hwriter
    | succ n => exact h.tracks n i link hnewest (by omega)

/-- What one link shows may be closed, if the link is left without it. -/
theorem modify (h : Balanced w₀ calls l) {ds : List Nat} {left : Link → Link}
    (hlinks : l'.links = l.links.modify n left) (hrelease : l.world.Releases ds l'.world)
    (hnodup : ds.Nodup) (hshown : ∀ d ∈ ds, ∃ link, l.links[n]? = some link ∧ d ∈ link.held)
    (hwithout : ∀ link m, l.links[n]? = some link → link.Tracks w₀.machine.descriptors calls m →
      (left link).Tracks w₀.machine.descriptors (calls ++ ds.map .close) m) :
    Balanced w₀ (calls ++ ds.map .close) l' where
  leads := by
    refine h.leads.releases hrelease (fun d hmem => ?_) hnodup
    obtain ⟨link, hnewest, hheld⟩ := hshown d hmem
    exact h.held_of_shows ⟨link, List.mem_of_getElem? hnewest, hheld⟩
  pipes := by rw [hrelease.pipes, hlinks, List.length_modify, h.pipes]
  tracks k i link hnewest hposition := by
    rw [hlinks, List.length_modify] at hposition
    rw [hlinks, List.getElem?_modify] at hnewest
    obtain ⟨old, hget, rfl⟩ := Option.map_eq_some_iff.1 hnewest
    have htracks := h.tracks k i old hget hposition
    by_cases hsame : n = k
    · subst hsame
      rw [if_pos rfl]
      exact hwithout old _ hget htracks
    · -- Another link is on another pipe, whose ends have other descriptors.
      rw [if_neg hsame]
      refine htracks.append_others fun d hmem => ?_
      obtain ⟨link, hplace, hheld⟩ := hshown d hmem
      have hlt : n < l.links.length := (List.getElem?_eq_some_iff.1 hplace).1
      exact ⟨_, link, calls, by omega, h.tracks_of_getElem? hplace, hheld⟩

/-- An end of a link may be given up, if the link is left without it. -/
theorem dropEnd {left : Link → Link} {close : Link → Action World Fault Unit}
    {shown : Link → Option Nat} (h : Balanced w₀ calls l) (n : Nat)
    (hrelease : ∀ link (w : World), w.Releases (shown link).toList ((close link).outcome w).2)
    (hheld : ∀ link d, shown link = some d → d ∈ link.held)
    (hwithout : ∀ link m, link.Tracks w₀.machine.descriptors calls m →
      (left link).Tracks w₀.machine.descriptors
        (calls ++ (shown link).toList.map .close) m) :
    Balanced w₀ (calls ++ (l.links[n]?.bind shown).toList.map .close)
      ((Launch.dropEnd n left close).outcome l).2 := by
  refine h.modify (links_dropEnd l n) (releases_dropEnd hrelease l n) ?_ (fun d hmem => ?_) ?_
  · cases l.links[n]?.bind shown <;> simp
  · obtain ⟨link, hnewest, hshows⟩ := Option.bind_eq_some_iff.1 (Option.mem_toList.1 hmem)
    exact ⟨link, hnewest, hheld link d hshows⟩
  · intro link m hnewest htracks
    simpa [hnewest] using hwithout link m htracks

theorem dropReader (h : Balanced w₀ calls l) (n : Nat) :
    Balanced w₀ (calls ++ (l.links[n]?.bind (·.reader)).toList.map .close)
      ((dropReader n).outcome l).2 :=
  h.dropEnd n Link.releases_closeReader (fun link d hshows => by simp [Link.held, hshows])
    fun link m htracks => htracks.withoutReader

theorem dropWriter (h : Balanced w₀ calls l) (n : Nat) :
    Balanced w₀ (calls ++ (l.links[n]?.bind (·.writer)).toList.map .close)
      ((dropWriter n).outcome l).2 :=
  h.dropEnd n Link.releases_closeWriter (fun link d hshows => by simp [Link.held, hshows])
    fun link m htracks => htracks.withoutWriter

/-- Every move keeps the links in agreement with the ledger. -/
theorem exists_move (h : Balanced w₀ calls l) (hmove : Move l l') :
    ∃ calls', Balanced w₀ calls' l' := by
  cases hmove with
  | linked stage => exact ⟨_, h.linked stage⟩
  | unlinked =>
    have hnone : ∀ d ∈ Call.pipeFailed.used, l.Shows d := by
      simp [Call.used, Call.dropped, Call.wired]
    exact ⟨_, h.append_singleton hnone rfl rfl rfl rfl rfl rfl⟩
  | joined stage argv stdin stdout stderr conduct hshown =>
    exact ⟨_, h.append_singleton hshown rfl rfl rfl rfl rfl rfl⟩
  | refused argv stdin stdout stderr hshown =>
    exact ⟨_, h.append_singleton hshown rfl rfl rfl rfl rfl rfl⟩
  | dropReader n => exact ⟨_, h.dropReader n⟩
  | dropWriter n => exact ⟨_, h.dropWriter n⟩

end Balanced

/-- However a start goes, its links always agree with the ledger. -/
theorem Moves.exists_balanced (hmoves : Moves { world := w } l) : ∃ calls, Balanced w calls l :=
  hmoves.induction (I := fun l => ∃ calls, Balanced w calls l) ⟨[], .begin w⟩
    fun _ _ ⟨_, hbalanced⟩ hmove => hbalanced.exists_move hmove

/-! ### Write ends -/

/-- No link shows a write end. -/
def WritersGone (links : List Link) : Prop := ∀ link ∈ links, link.writer = none

/-- At most the newest link shows a write end, and then it also shows its read end. -/
def Tidy : List Link → Prop
  | [] => True
  | link :: older => (link.writer.isSome → link.reader.isSome) ∧ WritersGone older

theorem WritersGone.tidy {links : List Link} (h : WritersGone links) : Tidy links := by
  cases links with
  | nil => trivial
  | cons link older =>
    refine ⟨fun hwriter => ?_, fun other hmem => h other (List.mem_cons_of_mem _ hmem)⟩
    simp [h link List.mem_cons_self] at hwriter

theorem WritersGone.modify_withoutReader {links : List Link} (h : WritersGone links) (n : Nat) :
    WritersGone (links.modify n Link.withoutReader) := by
  intro link hmem
  obtain ⟨k, hget⟩ := List.mem_iff_getElem?.1 hmem
  rw [List.getElem?_modify] at hget
  obtain ⟨old, hbefore, rfl⟩ := Option.map_eq_some_iff.1 hget
  have hgone := h old (List.mem_of_getElem? hbefore)
  split <;> exact hgone

/-- A stage that is the last makes no link. -/
theorem links_startStage_last (l : Launch) (capture : Capture) (stage : Nat) (argv : List String) :
    ((startStage capture stage true argv).outcome l).2.links = l.links := by
  cases hstart : l.world.machine.start l.world.startCalls argv with
  | error f => rw [outcome_startStage_last_of_error hstart, refused]
  | ok conduct => rw [outcome_startStage_last hstart, joined]

/-- Any other stage makes a link that shows both ends, unless it is refused one. -/
theorem links_startStage (l : Launch) (capture : Capture) (stage : Nat) (argv : List String) :
    (∃ f, (startStage capture stage false argv).outcome l = (.error f, l.unlinked)) ∨
      ((startStage capture stage false argv).outcome l).2.links =
        ⟨stage, some l.world.nextReader, some l.world.nextWriter⟩ :: l.links := by
  cases hpipe : l.world.machine.pipeFailure l.world.pipeCalls with
  | some f => exact .inl ⟨_, outcome_startStage_of_some hpipe capture stage argv⟩
  | none =>
    right
    cases hstart : l.world.machine.start l.world.startCalls argv with
    | error f =>
      rw [outcome_startStage_of_error hpipe hstart]
      rfl
    | ok conduct =>
      rw [outcome_startStage_of_none hpipe hstart]
      rfl

theorem writersGone_releaseEnds_last (hgone : WritersGone l.links) (index : Nat) :
    WritersGone ((releaseEnds index true).outcome l).2.links := by
  cases index with
  | zero => exact hgone
  | succ i =>
    have hdropped : WritersGone ((dropReader 0).outcome l).2.links := by
      rw [dropReader_eq, links_dropEnd]
      exact hgone.modify_withoutReader 0
    change WritersGone ((dropReader 0 >>= fun _ => pure ()).outcome l).2.links
    rw [Action.outcome_bind]
    rcases hrun : (dropReader 0).outcome l with ⟨_ | _, l'⟩ <;> rwa [hrun] at hdropped

/-- The write end of the new link goes when the process that needs it runs, unless the close of
the read end before it fails. -/
theorem tidy_releaseEnds {link : Link} {older : List Link} (hlinks : l.links = link :: older)
    (hreader : link.reader.isSome) (hgone : WritersGone older) (index : Nat) :
    Tidy ((releaseEnds index false).outcome l).2.links ∧
      (((releaseEnds index false).outcome l).1 = .ok () →
        WritersGone ((releaseEnds index false).outcome l).2.links) := by
  -- Whatever is left of the older links, giving up the newest write end leaves none.
  have hlast : ∀ (l' : Launch) (older' : List Link), l'.links = link :: older' →
      WritersGone older' → WritersGone ((dropWriter 0).outcome l').2.links := by
    intro l' older' hlinks' hgone' other hmem
    rw [dropWriter_eq, links_dropEnd, hlinks', List.modify_zero_cons] at hmem
    rcases List.mem_cons.1 hmem with rfl | hmem
    · rfl
    · exact hgone' other hmem
  cases index with
  | zero =>
    have hafter := hlast l older hlinks hgone
    exact ⟨hafter.tidy, fun _ => hafter⟩
  | succ i =>
    have hrest := hgone.modify_withoutReader 0
    have hlinks' : ((dropReader 1).outcome l).2.links =
        link :: older.modify 0 Link.withoutReader := by
      rw [dropReader_eq, links_dropEnd, hlinks, List.modify_succ_cons]
    change Tidy ((dropReader 1 >>= fun _ => dropWriter 0).outcome l).2.links ∧
      (((dropReader 1 >>= fun _ => dropWriter 0).outcome l).1 = .ok () →
        WritersGone ((dropReader 1 >>= fun _ => dropWriter 0).outcome l).2.links)
    rw [Action.outcome_bind]
    rcases hrun : (dropReader 1).outcome l with ⟨f | _, l'⟩ <;> rw [hrun] at hlinks'
    · refine ⟨?_, fun hok => nomatch hok⟩
      rw [hlinks']
      exact ⟨fun _ => hreader, hrest⟩
    · have hafter := hlast l' _ hlinks' hrest
      exact ⟨hafter.tidy, fun _ => hafter⟩

/-- Between two stages no link shows a write end, and within a stage at most the newest does. -/
theorem tidy_stage (hgone : WritersGone l.links) (capture : Capture) (index : Nat) (last : Bool)
    (argv : List String) :
    Tidy ((stage capture index last argv).outcome l).2.links ∧
      (((stage capture index last argv).outcome l).1 = .ok () →
        WritersGone ((stage capture index last argv).outcome l).2.links) := by
  rw [stage, Action.outcome_bind]
  -- A stage that fails leaves no writer, or the one of its own link, which is the newest.
  rcases hrun : (startStage capture index last argv).outcome l with ⟨f | _, l'⟩
  · refine ⟨?_, fun hok => nomatch hok⟩
    cases last with
    | true =>
      have hlinks := l.links_startStage_last capture index argv
      rw [hrun] at hlinks
      exact (hlinks ▸ hgone).tidy
    | false =>
      rcases l.links_startStage capture index argv with ⟨_, hrefused⟩ | hlinks
      · rw [hrun] at hrefused
        obtain ⟨-, rfl⟩ := Prod.mk.inj hrefused
        exact hgone.tidy
      · rw [hrun] at hlinks
        rw [hlinks]
        exact ⟨fun _ => rfl, hgone⟩
  · cases last with
    | true =>
      have hlinks := l.links_startStage_last capture index argv
      rw [hrun] at hlinks
      have hafter := writersGone_releaseEnds_last (hlinks ▸ hgone) index
      exact ⟨hafter.tidy, fun _ => hafter⟩
    | false =>
      rcases l.links_startStage capture index argv with ⟨_, hrefused⟩ | hlinks
      · rw [hrun] at hrefused
        exact nomatch (Prod.mk.inj hrefused).1
      · rw [hrun] at hlinks
        exact tidy_releaseEnds hlinks rfl hgone index

theorem tidy_stages (hgone : WritersGone l.links) (capture : Capture) (index : Nat)
    (argvs : List (List String)) :
    Tidy ((stages capture index argvs).outcome l).2.links := by
  induction argvs generalizing l index with
  | nil => exact hgone.tidy
  | cons argv rest ih =>
    obtain ⟨htidy, hafter⟩ := tidy_stage hgone capture index rest.isEmpty argv
    rw [stages, Action.outcome_bind]
    rcases hrun : (stage capture index rest.isEmpty argv).outcome l with ⟨_ | _, l'⟩
    · rwa [hrun] at htidy
    · rw [hrun] at hafter
      exact ih (hafter rfl) (index + 1)

/-- However a start goes, at most its newest link shows a write end where it stops. -/
theorem tidy_stopped (capture : Capture) (argvs : List (List String)) (w : World) :
    Tidy (stopped capture argvs w).links :=
  tidy_stages (fun _ hmem => absurd hmem List.not_mem_nil) capture 0 argvs

end Launch

end Pipework
