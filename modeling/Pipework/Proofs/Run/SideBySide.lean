import Pipework.Proofs.Host.Matching
import Pipework.Proofs.Run.Abandon
import Pipework.Proofs.Run.Capture

/-!
# Two runs side by side

A pipeline is run twice, in two worlds that correspond to one another, by executors that may differ
in how much they read at a time and in what they capture. If every single call keeps the worlds
corresponding, and the differences do not show in what it answers, then the runs go side by side to
their ends: they start the same stages, fail together and for the same reason, and their results
correspond.

## Main definitions

* `Likeness`, `Likeness.exact` — which outputs correspond
* `Footing` — what corresponds in two starts, and that every call of a start keeps it so
* `Accord` — what corresponds in two runs, and that every call keeps it so
* `Footing.Modes`, `Footing.Pairs`, `Footing.Launches`, `Accord.Results`, `Accord.Handles` —
  captures, children, starts, results and handles that correspond

## Main results

* `Footing.matches_stages`, `Footing.matches_closeLinks` — starts, and the giving up of their links
* `Accord.matches_reap`, `Accord.matches_launch` — the undoing of a start, and whole starts
* `Accord.matches_open`, `Accord.matches_await` — handles
* `Accord.matches_spawn`, `Accord.matches_run` — whole runs
-/

namespace Pipework

/-- What corresponds in two runs, as far as outputs go: their wirings, whether they are known to be
captured, and what is read from them. -/
structure Likeness where
  wirings : Wiring → Wiring → Prop
  captures : Bool → Bool → Prop
  readings : Bytes → Bytes → Prop
  nothing : readings [] []
  wirings_refl (x : Wiring) : wirings x x
  wirings_of_captures {b b' : Bool} (h : captures b b') :
    wirings (if b then .captured else .inherited) (if b' then .captured else .inherited)
  captures_of_wirings {x x' : Wiring} (h : wirings x x') :
    captures (x == .captured) (x' == .captured)

/-- All outputs are wired the same, and the same is read from them. -/
def Likeness.exact : Likeness where
  wirings := Eq
  captures := Eq
  readings := Eq
  nothing := rfl
  wirings_refl _ := rfl
  wirings_of_captures hsame := by rw [hsame]
  captures_of_wirings hsame := by rw [hsame]

/-- What corresponds in two starts: besides their outputs, the worlds. Every call that is made to
start processes keeps it so, and these have numbers of a certain kind. -/
structure Footing extends Likeness where
  worlds : World → World → Prop
  numbers : Nat → Prop
  note (n : Note) : Matches worlds Eq (World.note n) (World.note n)
  pipe : Action.Matches worlds Eq World.pipe World.pipe
  close (descriptor : Nat) :
    Action.Matches worlds Eq (World.close descriptor) (World.close descriptor)
  start (argv : List String) (stdin : Wiring) {stdout stdout' stderr stderr' : Wiring}
    (hout : wirings stdout stdout') (herr : wirings stderr stderr') :
    Action.Matches worlds (fun n n' => n = n' ∧ numbers n) (World.start argv stdin stdout stderr)
      (World.start argv stdin stdout' stderr')

/-- What corresponds in two runs: besides what corresponds in their starts, how much is read at a
time. Every call on processes with certain numbers keeps it so. -/
structure Accord extends Footing where
  sizes : Nat → Nat → Prop
  poll {n : Nat} (h : numbers n) : Action.Matches worlds Eq (World.poll n) (World.poll n)
  kill {n : Nat} (h : numbers n) : Action.Matches worlds Eq (World.kill n) (World.kill n)
  wait {n : Nat} (h : numbers n) : Action.Matches worlds Eq (World.wait n) (World.wait n)
  closeCaptured {n : Nat} (h : numbers n) (o : Output) {b b' : Bool} (hknown : captures b b') :
    Action.Matches worlds Eq (closeCaptured b n o) (closeCaptured b' n o)
  drain {child child' : Child} (hsame : child.pid = child'.pid) (h : numbers child.pid)
    (o : Output) (label : String) {b b' : Bool} (hknown : captures b b') {size size' : Nat}
    (hread : sizes size size') :
    Action.Matches worlds (fun x x' => readings x.1 x'.1 ∧ x.2 = x'.2)
      (if b then Handle.drain size child o label else pure ([], none))
      (if b' then Handle.drain size' child' o label else pure ([], none))

namespace Footing

variable {A : Footing}

/-! ### Links -/

theorem matches_make (index : Int) :
    Action.Matches A.worlds Eq (Link.make index) (Link.make index) :=
  A.pipe.bind_same fun _ => .pure rfl

theorem matches_closeEnd (held : Option Nat) (taken : Nat → Note) :
    Action.Matches A.worlds Eq (Link.closeEnd held taken) (Link.closeEnd held taken) := by
  cases held with
  | none => exact .pure rfl
  | some d => exact (A.close d).bind_same fun _ => .lift (A.note _)

theorem matches_closeReader (l : Link) :
    Action.Matches A.worlds Eq l.closeReader l.closeReader :=
  matches_closeEnd _ _

theorem matches_closeWriter (l : Link) :
    Action.Matches A.worlds Eq l.closeWriter l.closeWriter :=
  matches_closeEnd _ _

theorem matches_close (l : Link) : Matches A.worlds Eq l.close l.close := by
  apply (matches_closeWriter l).run.bind_same
  intro written
  cases written with
  | error f => exact .pure rfl
  | ok _ =>
    apply (matches_closeReader l).run.bind_same
    intro read
    cases read <;> exact .pure rfl

/-! ### Starts -/

/-- The captures of two executors correspond. -/
structure Modes (A : Footing) (c c' : Capture) : Prop where
  stdout : A.captures c.stdout c'.stdout
  stderr : A.captures c.stderr c'.stderr

/-- Two children correspond. They have the same number. -/
structure Pairs (A : Footing) (c c' : Child) : Prop where
  pid : c.pid = c'.pid
  number : A.numbers c.pid
  stdout : A.captures c.stdout c'.stdout
  stderr : A.captures c.stderr c'.stderr

/-- Two starts that are under way correspond. They have the same links. -/
structure Launches (A : Footing) (l l' : Launch) : Prop where
  links : l.links = l'.links
  children : List.Forall₂ A.Pairs l.children l'.children
  worlds : A.worlds l.world l'.world

theorem matches_call {α α' : Type} {S : α → α' → Prop} {a : Action World Fault α}
    {a' : Action World Fault α'} (h : Action.Matches A.worlds S a a') (report : Fault → Failure) :
    Action.Matches A.Launches S (Launch.call a report) (Launch.call a' report) := by
  intro l l' hboth
  obtain ⟨hanswers, hworlds⟩ := h _ _ hboth.worlds
  exact ⟨hanswers.mapError report, hboth.links, hboth.children, hworlds⟩

theorem matches_note (n : Note) : Matches A.Launches Eq (Launch.note n) (Launch.note n) := by
  apply Matches.modify
  intro l l' hboth
  exact ⟨hboth.links, hboth.children, (A.note n _ _ hboth.worlds).2⟩

theorem matches_modifyLinks (f : List Link → List Link) :
    Action.Matches A.Launches Eq
      (modify fun l => { l with links := f l.links } : Action Launch Failure PUnit)
      (modify fun l => { l with links := f l.links }) := by
  refine .lift (a := modify fun l : Launch => { l with links := f l.links }) (.modify ?_)
  intro l l' hboth
  exact ⟨congrArg f hboth.links, hboth.children, hboth.worlds⟩

theorem matches_openLink (stage : Nat) (program : String) :
    Action.Matches A.Launches Eq (Launch.openLink stage program) (Launch.openLink stage program) :=
  (matches_call (matches_make stage) _).bind_same fun link => matches_modifyLinks (link :: ·)

theorem matches_startProcess (stage : Nat) (argv : List String) (stdin : Wiring)
    {stdout stdout' stderr stderr' : Wiring} (hout : A.wirings stdout stdout')
    (herr : A.wirings stderr stderr') :
    Action.Matches A.Launches Eq (Launch.startProcess stage argv stdin stdout stderr)
      (Launch.startProcess stage argv stdin stdout' stderr') := by
  apply (matches_call (A.start argv stdin hout herr) _).bind
  intro pid pid' hstarted
  obtain ⟨rfl, hnumber⟩ := hstarted
  refine Action.Matches.bind_same ?_ fun _ => .lift (matches_note _)
  -- The new children have the same number.
  have hpair : A.Pairs ⟨pid, stdout == .captured, stderr == .captured⟩
      ⟨pid, stdout' == .captured, stderr' == .captured⟩ :=
    ⟨rfl, hnumber, A.captures_of_wirings hout, A.captures_of_wirings herr⟩
  exact .lift (.modify fun l l' hboth =>
    ⟨hboth.links, List.rel_append hboth.children (.cons hpair .nil), hboth.worlds⟩)

theorem matches_dropEnd {left : Link → Link} {close : Link → Action World Fault Unit}
    (h : ∀ link, Action.Matches A.worlds Eq (close link) (close link)) (n : Nat) :
    Action.Matches A.Launches Eq (Launch.dropEnd n left close) (Launch.dropEnd n left close) := by
  apply Action.Matches.get_bind
  intro l l' hboth
  rw [hboth.links]
  cases l'.links[n]? with
  | none => exact .pure rfl
  | some link =>
    exact (matches_modifyLinks fun links => links.modify n left).bind_same fun _ =>
      matches_call (h link) _

theorem matches_startStage {capture capture' : Capture} (hmodes : A.Modes capture capture')
    (index : Nat) (last : Bool) (argv : List String) :
    Action.Matches A.Launches Eq (Launch.startStage capture index last argv)
      (Launch.startStage capture' index last argv) := by
  apply Action.Matches.get_bind
  intro l l' hboth
  have hstdin : l.newestReader = l'.newestReader := by
    rw [Launch.newestReader, Launch.newestReader, hboth.links]
  have herr := A.wirings_of_captures hmodes.stderr
  rw [hstdin]
  -- The last stage is given the output that is asked for, any other one the end of its link.
  cases last with
  | true => exact matches_startProcess index argv _ (A.wirings_of_captures hmodes.stdout) herr
  | false =>
    apply (matches_openLink index _).bind_same
    intro _
    apply Action.Matches.get_bind
    intro l l' hboth
    have hstdout : l.newestWriter = l'.newestWriter := by
      rw [Launch.newestWriter, Launch.newestWriter, hboth.links]
    rw [hstdout]
    exact matches_startProcess index argv _ (A.wirings_refl _) herr

theorem matches_releaseEnds (index : Nat) (last : Bool) :
    Action.Matches A.Launches Eq (Launch.releaseEnds index last)
      (Launch.releaseEnds index last) := by
  have hdropReader (n : Nat) :
      Action.Matches A.Launches Eq (Launch.dropReader n) (Launch.dropReader n) :=
    matches_dropEnd matches_closeReader n
  have hdropWriter (n : Nat) :
      Action.Matches A.Launches Eq (Launch.dropWriter n) (Launch.dropWriter n) :=
    matches_dropEnd matches_closeWriter n
  cases index with
  | zero =>
    cases last with
    | true => exact .pure rfl
    | false => exact hdropWriter 0
  | succ index =>
    cases last with
    | true => exact (hdropReader 0).bind_same fun _ => .pure rfl
    | false => exact (hdropReader 1).bind_same fun _ => hdropWriter 0

/-- Stages are started side by side. -/
theorem matches_stages {capture capture' : Capture} (hmodes : A.Modes capture capture')
    (index : Nat) (argvs : List (List String)) :
    Action.Matches A.Launches Eq (Launch.stages capture index argvs)
      (Launch.stages capture' index argvs) := by
  induction argvs generalizing index with
  | nil => exact .pure rfl
  | cons argv rest ih =>
    refine Action.Matches.bind_same ?_ fun _ => ih (index + 1)
    exact (matches_startStage hmodes index _ argv).bind_same fun _ => matches_releaseEnds index _

/-- Links are given up side by side. -/
theorem matches_closeLinks (links : List Link) :
    Matches A.worlds Eq (closeLinks links) (closeLinks links) := by
  induction links with
  | nil => exact .pure rfl
  | cons link links ih =>
    exact (matches_close link).bind_same fun _ => ih.bind_same fun _ => .pure rfl

/-- Where two starts leave their stages behind, and whether they came to the end of them. -/
theorem stopped_alike {capture capture' : Capture} (hmodes : A.Modes capture capture')
    (argvs : List (List String)) {w w' : World} (hworlds : A.worlds w w') :
    Launch.result capture argvs w = Launch.result capture' argvs w' ∧
      A.Launches (Launch.stopped capture argvs w) (Launch.stopped capture' argvs w') := by
  obtain ⟨hresults, hboth⟩ := matches_stages hmodes 0 argvs { world := w } { world := w' }
    ⟨rfl, .nil, hworlds⟩
  exact ⟨hresults.eq, hboth⟩

/-- What comes of giving up the links of two starts. -/
theorem Launches.released_alike {l l' : Launch} (hboth : A.Launches l l') :
    l.releaseFault? = l'.releaseFault? ∧ A.worlds l.released l'.released := by
  obtain ⟨hfault, hreleased⟩ := matches_closeLinks l.links _ _ hboth.worlds
  unfold Launch.releaseFault? Launch.released
  rw [← hboth.links]
  exact ⟨hfault, hreleased⟩

end Footing

namespace Accord

open Footing

variable {A : Accord}

/-! ### Undoing a start -/

theorem matches_killIfRunning {pid : Nat} (hnumber : A.numbers pid) :
    Action.Matches A.worlds Eq (killIfRunning pid) (killIfRunning pid) := by
  apply (A.kill hnumber).attempt.bind_same
  intro result
  cases result with
  | ok _ => exact .pure rfl
  | error f =>
    dsimp only
    split
    · exact .pure rfl
    · exact .throw _

theorem matches_closeOutputs {child child' : Child} (hpair : A.Pairs child child') :
    Action.Matches A.worlds Eq (closeOutputs child) (closeOutputs child') := by
  unfold closeOutputs
  rw [← hpair.pid]
  exact (A.closeCaptured hpair.number _ hpair.stdout).bind_same fun _ =>
    A.closeCaptured hpair.number _ hpair.stderr

theorem matches_stopChild (index : Nat) {child child' : Child} (hpair : A.Pairs child child') :
    Action.Matches A.worlds Eq (stopChild index child) (stopChild index child') := by
  unfold stopChild
  rw [← hpair.pid]
  apply (A.poll hpair.number).bind_same
  intro polled
  split
  · exact (Action.Matches.lift (A.note _)).bind_same fun _ => matches_killIfRunning hpair.number
  · exact .pure rfl

theorem matches_awaitChild (index : Nat) {child child' : Child} (hpair : A.Pairs child child') :
    Action.Matches A.worlds Eq (awaitChild index child) (awaitChild index child') := by
  unfold awaitChild
  rw [← hpair.pid]
  apply (A.wait hpair.number).attempt.bind_same
  intro result
  cases result with
  | ok _ => exact .pure rfl
  | error f =>
    dsimp only
    split
    · exact .lift (A.note _)
    · exact .throw _

/-- Children are ended side by side. -/
theorem matches_reap (index : Nat) {children children' : List Child}
    (hpairs : List.Forall₂ A.Pairs children children') :
    Action.Matches A.worlds Eq (reap index children) (reap index children') := by
  induction hpairs generalizing index with
  | nil => exact .pure rfl
  | cons hpair _ ih =>
    refine Action.Matches.bind_same ?_ fun _ => ih (index + 1)
    rw [reapChild_eq, reapChild_eq]
    exact (matches_closeOutputs hpair).bind_same fun _ =>
      (matches_stopChild index hpair).bind_same fun _ => matches_awaitChild index hpair

theorem matches_abandon {α α' : Type} {S : α → α' → Prop} {l l' : Launch} (hboth : A.Launches l l')
    (failure : Failure) :
    Action.Matches A.worlds S (abandon l failure : Action World Failure α)
      (abandon l' failure : Action World Failure α') := by
  unfold abandon
  rw [hboth.links, hboth.children.length_eq]
  apply (Action.Matches.lift (matches_closeLinks l'.links)).bind_same
  intro fault
  -- What follows once the links are closed is the same in both, with or without a note.
  have hrest : Action.Matches A.worlds S (do
      (reap 0 l.children).mapFailure .fault
      throw failure : Action World Failure α) (do
      (reap 0 l'.children).mapFailure .fault
      throw failure : Action World Failure α') :=
    ((matches_reap 0 hboth.children).mapFailure _).bind_same fun _ => .throw _
  cases fault with
  | some f => exact .throw _
  | none =>
    cases failure with
    | fault f => exact hrest
    | error e =>
      dsimp only
      split
      · exact (Action.Matches.lift (A.note _)).bind_same fun _ => hrest
      · exact hrest

/-! ### Executors -/

variable {e e' : Executor} {captured captured' : Bool}

/-- All stages are started side by side, or none. -/
theorem matches_launch (hmodes : A.Modes (e.capture captured) (e'.capture captured'))
    (argvs : List (List String)) :
    Action.Matches A.worlds (List.Forall₂ A.Pairs) (e.launch captured argvs)
      (e'.launch captured' argvs) := by
  by_cases hstages : argvs = []
  · subst hstages
    exact .throw _
  intro w w' hworlds
  obtain ⟨hresults, hboth⟩ := stopped_alike hmodes argvs hworlds
  change Alike _ ((e.launch captured argvs).outcome w).1
    ((e'.launch captured' argvs).outcome w').1 ∧
    A.worlds ((e.launch captured argvs).outcome w).2 ((e'.launch captured' argvs).outcome w').2
  rw [e.outcome_launch captured hstages, e'.outcome_launch captured' hstages, ← hresults]
  -- What is left to do depends on the links, and on the children, which correspond.
  generalize Launch.stopped (e.capture captured) argvs w = l at hboth
  generalize Launch.stopped (e'.capture captured') argvs w' = l' at hboth
  cases Launch.result (e.capture captured) argvs w with
  | error failure => exact matches_abandon hboth failure _ _ hboth.worlds
  | ok _ =>
    obtain ⟨hfault, hreleased⟩ := hboth.released_alike
    dsimp only
    rw [hfault]
    cases l'.releaseFault? with
    | some f => exact ⟨.error _, hreleased⟩
    | none => exact ⟨.ok hboth.children, hreleased⟩

/-! ### Handles -/

/-- Two results correspond. They have the same statuses. -/
structure Results (A : Accord) (r r' : ExecutionResult) : Prop where
  statuses : r.statuses = r'.statuses
  stdout : A.readings r.stdout r'.stdout
  stageStderr : List.Forall₂ A.readings r.stageStderr r'.stageStderr

/-- Where only the same readings correspond, only the same results do. -/
theorem Results.eq (hexact : ∀ b b', A.readings b b' → b = b') {r r' : ExecutionResult}
    (hsame : A.Results r r') : r = r' := by
  obtain ⟨hstatuses, hstdout, hstageStderr⟩ := hsame
  have hstdout' := hexact _ _ hstdout
  have hstageStderr' : r.stageStderr = r'.stageStderr :=
    List.forall₂_eq_eq_eq ▸ hstageStderr.imp hexact
  cases r
  congr

/-- Two handles correspond. They are of the same commands, and their readers met the same
errors. -/
structure Handles (A : Accord) (h h' : Handle) : Prop where
  children : List.Forall₂ A.Pairs h.children h'.children
  argvs : h.argvs = h'.argvs
  captured : A.captures h.captured h'.captured
  stdout : A.readings h.stdout h'.stdout
  stageStderr : List.Forall₂ A.readings h.stageStderr h'.stageStderr
  captureErrors : h.captureErrors = h'.captureErrors
  result : Option.Rel A.Results h.result h'.result

variable {size size' : Nat} {children children' : List Child}

theorem matches_drainStderr (hread : A.sizes size size') (index : Nat)
    (hpairs : List.Forall₂ A.Pairs children children') :
    Action.Matches A.worlds (List.Forall₂ fun x x' => A.readings x.1 x'.1 ∧ x.2 = x'.2)
      (Handle.drainStderr size index children) (Handle.drainStderr size' index children') := by
  induction hpairs generalizing index with
  | nil => exact .pure .nil
  | cons hpair _ ih =>
    rw [Handle.drainStderr_cons, Handle.drainStderr_cons]
    apply (A.drain hpair.pid hpair.number .stderr _ hpair.stderr hread).bind
    intro first first' hsame
    exact (ih (index + 1)).bind fun later later' hsames => .pure (.cons hsame hsames)

/-- What is read of corresponding outputs, and the errors that it ends with. -/
theorem split_readings {xs xs' : List (Bytes × Option Error)}
    (hsames : List.Forall₂ (fun x x' => A.readings x.1 x'.1 ∧ x.2 = x'.2) xs xs') :
    List.Forall₂ A.readings (xs.map (·.1)) (xs'.map (·.1)) ∧
      xs.filterMap (·.2) = xs'.filterMap (·.2) := by
  induction hsames with
  | nil => exact ⟨.nil, rfl⟩
  | cons hsame _ ih =>
    refine ⟨.cons hsame.1 ih.1, ?_⟩
    rw [List.filterMap_cons, List.filterMap_cons, hsame.2, ih.2]

/-- Handles are opened side by side. -/
theorem matches_open (hread : A.sizes size size') (hknown : A.captures captured captured')
    (argvs : List (List String)) (hpairs : List.Forall₂ A.Pairs children children') :
    Action.Matches A.worlds A.Handles (Handle.open size captured argvs children)
      (Handle.open size' captured' argvs children') := by
  -- The error outputs are read after the output of the last stage, whether that is captured or
  -- not.
  have hrest (x x' : Bytes × Option Error) (hsame : A.readings x.1 x'.1 ∧ x.2 = x'.2) :
      Action.Matches A.worlds A.Handles (do
        let outputs ← Handle.drainStderr size 0 children
        return {
          children, argvs, captured, stdout := x.1
          stageStderr := outputs.map (·.1)
          captureErrors := x.2.toList ++ outputs.filterMap (·.2) }) (do
        let outputs ← Handle.drainStderr size' 0 children'
        return {
          children := children', argvs, captured := captured', stdout := x'.1
          stageStderr := outputs.map (·.1)
          captureErrors := x'.2.toList ++ outputs.filterMap (·.2) }) := by
    refine (matches_drainStderr hread 0 hpairs).bind fun outputs outputs' hsames => .pure ?_
    obtain ⟨hstageStderr, herrors⟩ := split_readings hsames
    exact ⟨hpairs, rfl, hknown, hsame.1, hstageStderr, by rw [hsame.2, herrors], .none⟩
  have hlast := rel_getLast? hpairs
  unfold Handle.open
  rw [hpairs.length_eq]
  generalize children.getLast? = child at hlast
  generalize children'.getLast? = child' at hlast
  cases hlast with
  | some hpair => exact (A.drain hpair.pid hpair.number .stdout _ hpair.stdout hread).bind hrest
  | none => exact hrest ([], none) ([], none) ⟨A.nothing, rfl⟩

theorem matches_awaitAll (index : Nat) (hpairs : List.Forall₂ A.Pairs children children') :
    Action.Matches A.worlds Eq (Handle.awaitAll index children)
      (Handle.awaitAll index children') := by
  induction hpairs generalizing index with
  | nil => exact .pure rfl
  | cons hpair _ ih =>
    have hlater := ih (index + 1)
    unfold Handle.awaitAll
    rw [← hpair.pid]
    apply (A.wait hpair.number).attempt.bind_same
    intro result
    cases result with
    | ok code =>
      exact (Action.Matches.lift (A.note _)).bind_same fun _ => hlater.bind_same fun _ => .pure rfl
    | error f =>
      dsimp only
      split
      · exact (Action.Matches.lift (A.note _)).bind_same fun _ =>
          hlater.bind_same fun _ => .pure rfl
      · exact .throw _

theorem matches_collect {h h' : Handle} (hboth : A.Handles h h') :
    Action.Matches A.worlds A.Results h.collect h'.collect := by
  unfold Handle.collect
  rw [hboth.captureErrors]
  apply ((matches_awaitAll 0 hboth.children).mapFailure _).bind_same
  intro passed
  dsimp only
  split
  · exact .throw _
  · exact .pure ⟨rfl, hboth.stdout, hboth.stageStderr⟩

/-- Handles are waited for side by side. -/
theorem matches_await {h h' : Handle} (hboth : A.Handles h h') :
    Matches A.worlds (fun x x' => Alike A.Results x.1 x'.1 ∧ A.Handles x.2 x'.2) h.wait
      h'.wait := by
  have hkept := hboth.result
  unfold Handle.wait
  generalize h.result = result at hkept
  generalize h'.result = result' at hkept
  cases hkept with
  | some hsame => exact .pure ⟨.ok hsame, hboth⟩
  | none =>
    apply Matches.bind (matches_collect hboth)
    intro collected collected' hsame
    cases hsame with
    | ok hsame => exact .pure ⟨.ok hsame, { hboth with result := .some hsame }⟩
    | error e => exact .pure ⟨.error e, hboth⟩

/-! ### Whole runs -/

/-- A pipeline is started side by side. -/
theorem matches_spawn (hmodes : A.Modes (e.capture captured) (e'.capture captured'))
    (hread : A.sizes e.chunkSize e'.chunkSize) (p : Pipeline) :
    Action.Matches A.worlds A.Handles (e.spawn captured p) (e'.spawn captured' p) :=
  (matches_launch hmodes p.argvs).bind fun _ _ hpairs =>
    (matches_open hread hmodes.stdout p.argvs hpairs).mapFailure _

/-- A pipeline is run to its end side by side. -/
theorem matches_run (hmodes : A.Modes (e.capture captured) (e'.capture captured'))
    (hread : A.sizes e.chunkSize e'.chunkSize) (p : Pipeline) :
    Action.Matches A.worlds A.Results (e.run captured p) (e'.run captured' p) := by
  apply (matches_spawn hmodes hread p).bind
  intro h h' hboth
  apply (Action.Matches.lift (matches_await hboth)).bind
  intro x x' hsame
  obtain ⟨outcome, h⟩ := x
  obtain ⟨outcome', h'⟩ := x'
  cases hsame.1 with
  | ok hresults => exact .pure hresults
  | error f => exact .throw f

end Accord

end Pipework
