import Pipework.Proofs.Host.Draining
import Pipework.Proofs.Run.Abandon

/-!
# What a handle is made of

A start that answers a handle has started one process for each stage. Only the last stage can have
its output captured, and either every stage has its error output captured or none. What is captured
is read to its end when the handle is opened, so that the handle is determined by what the
processes deliver.

## Main definitions

* `Fault.isHeard` — a reader that ends with the fault is heard of
* `Process.unread` — a process, whatever was done with its outputs
* `Process.script` — what a process has to say to its parent, wherever its streams lead otherwise
* `Process.read`, `Process.readers` — what is read, and by which readers
* `Process.captureErrors` — the errors that readers end with
* `Process.WiredFor` — the processes are wired as the stages of one pipeline
* `World.Yields` — an action has its answer, or a fault, and leaves the processes as they are
* `World.LetsOut` — a reader that is no thread let out a fault
* `Handle.ofProcesses` — the handle of processes, once their outputs are read

## Main results

* `Executor.exists_processes_of_launch` — a launch that succeeds has started one process for each
  stage
* `Handle.yields_open` — opening a handle answers the one of its processes, or a fault that a
  reader let out
* `Executor.spawn_of_launch` — so does a start whose processes are launched
* `Executor.exists_processes_of_spawn` — a start that succeeds answers the handle of its processes
-/

namespace Pipework

/-- A reader that ends with the fault is heard of. -/
def Fault.isHeard (f : Fault) : Bool := f.isSystem || f.isInvalid

namespace Process

/-! ### What is read of a process -/

/-- The process without what was done with its outputs. -/
def unread (p : Process) : Process := { p with stdoutEvents := [], stderrEvents := [] }

/-- The process as a script: what it answers and delivers, and which of its outputs are captured.
It does not matter where the other ones lead, nor what was done with any of them. -/
def script (p : Process) : Process where
  conduct := p.conduct
  stdin := .inherited
  stdout := if p.stdout = .captured then .captured else .inherited
  stderr := if p.stderr = .captured then .captured else .inherited

/-- The bytes that are read from an output of the process. There are none if it is not captured. -/
def read (p : Process) (o : Output) : Bytes :=
  if p.wiring o = .captured then (p.stream o).delivered else []

/-- The reader of an output of the process under some name, if it is captured. -/
def reader (p : Process) (o : Output) (label : String) : List (String × Stream) :=
  if p.wiring o = .captured then [(label, p.stream o)] else []

/-- The readers of the error outputs of processes, the first of which runs the given stage. -/
def errorReaders (index : Nat) : List Process → List (String × Stream)
  | [] => []
  | p :: ps => p.reader .stderr ("stderr-" ++ toString index) ++ errorReaders (index + 1) ps

/-- The readers of processes that run the stages of a pipeline, in the order in which they run: the
output of the last stage is read first, and then the error outputs of all of them. -/
def readers (ps : List Process) : List (String × Stream) :=
  (ps.getLast?.elim [] fun p => p.reader .stdout ("stdout-" ++ toString (ps.length - 1))) ++
    errorReaders 0 ps

/-- What is read from the output of the last of some processes. -/
def lastRead (ps : List Process) : Bytes := ps.getLast?.elim [] (·.read .stdout)

end Process

/-- The error that a reader ends with, if it is heard of. -/
def captureError? (r : String × Stream) : Option Error :=
  (r.2.fault?.filter Fault.isHeard).map (.capture r.1)

/-- The fault that comes out of readers where they are started one after the other, each of which
asks for `size` bytes at a time: the first fault that is not heard of, unless readers are
threads. -/
def Machine.escape? (m : Machine) (size : Nat) (rs : List (String × Stream)) : Option Fault :=
  if m.threaded then none
  else rs.findSome? fun r => (r.2.drain size).fault.filter (!·.isHeard)

namespace Machine

variable {m : Machine} {size : Nat} {rs : List (String × Stream)} {f : Fault}

@[simp] theorem escape?_nil (m : Machine) (size : Nat) : m.escape? size [] = none := by
  simp [escape?]

/-- What comes out of some readers keeps the later ones from being started. -/
theorem escape?_append (m : Machine) (size : Nat) (rs ts : List (String × Stream)) :
    m.escape? size (rs ++ ts) = (m.escape? size rs).or (m.escape? size ts) := by
  unfold escape?
  split
  · rfl
  · exact List.findSome?_append

/-- Nothing comes out of readers exactly if they are threads or every fault is heard of. -/
theorem escape?_eq_none_iff :
    m.escape? size rs = none ↔ m.threaded = true ∨
      ∀ r ∈ rs, ∀ f, (r.2.drain size).fault = some f → f.isHeard = true := by
  unfold escape?
  cases m.threaded <;> simp [Option.filter_eq_none_iff]

/-- What comes out of readers is a fault that one of them meets and that is not heard of. -/
theorem exists_of_escape?_eq_some (h : m.escape? size rs = some f) :
    m.threaded = false ∧ f.isHeard = false ∧ ∃ r ∈ rs, (r.2.drain size).fault = some f := by
  unfold escape? at h
  cases hthreads : m.threaded with
  | true => simp [hthreads] at h
  | false =>
    rw [hthreads, if_neg Bool.false_ne_true] at h
    obtain ⟨r, hr, hescaped⟩ := List.exists_of_findSome?_eq_some h
    obtain ⟨hfault, hunheard⟩ := Option.filter_eq_some_iff.1 hescaped
    exact ⟨rfl, by simpa using hunheard, r, hr, hfault⟩

end Machine

namespace Process

/-- The errors that the readers of processes end with. -/
def captureErrors (ps : List Process) : List Error := (readers ps).filterMap captureError?

variable {p q : Process} {ps qs : List Process}

theorem wiring_unread (p : Process) (o : Output) : p.unread.wiring o = p.wiring o := by
  cases o <;> rfl

theorem stream_unread (p : Process) (o : Output) : p.unread.stream o = p.stream o := by
  cases o <;> rfl

theorem script_unread (p : Process) : p.unread.script = p.script := rfl

theorem wiring_script_eq_captured_iff (p : Process) (o : Output) :
    p.script.wiring o = .captured ↔ p.wiring o = .captured := by
  cases o with
  | stdout => by_cases hcaptured : p.stdout = .captured <;> simp [wiring, script, hcaptured]
  | stderr => by_cases hcaptured : p.stderr = .captured <;> simp [wiring, script, hcaptured]

theorem stream_script (p : Process) (o : Output) : p.script.stream o = p.stream o := by
  cases o <;> rfl

/-- What is read of a process is told from its script. -/
theorem read_script (p : Process) (o : Output) : p.script.read o = p.read o := by
  simp only [read, wiring_script_eq_captured_iff, stream_script]

theorem reader_script (p : Process) (o : Output) (label : String) :
    p.script.reader o label = p.reader o label := by
  simp only [reader, wiring_script_eq_captured_iff, stream_script]

theorem errorReaders_script (index : Nat) (ps : List Process) :
    errorReaders index (ps.map script) = errorReaders index ps := by
  induction ps generalizing index with
  | nil => rfl
  | cons p ps ih => rw [List.map_cons, errorReaders, errorReaders, reader_script, ih]

theorem readers_script (ps : List Process) : readers (ps.map script) = readers ps := by
  rw [readers, readers, errorReaders_script, List.length_map, List.getLast?_map]
  cases ps.getLast? with
  | none => rfl
  | some p => rw [Option.map_some, Option.elim_some, Option.elim_some, reader_script]

/-- What was done with the outputs of processes does not change their scripts. -/
theorem map_script_congr (hsame : ps.map unread = qs.map unread) :
    ps.map script = qs.map script := by
  have hscripts := congrArg (List.map script) hsame
  simpa only [List.map_map, Function.comp_def, script_unread] using hscripts

/-- What was done with the outputs of processes does not change their readers. -/
theorem readers_congr (hsame : ps.map unread = qs.map unread) : readers ps = readers qs := by
  rw [← readers_script, map_script_congr hsame, readers_script]

theorem child_script (p : Process) (pid : Nat) : p.script.child pid = p.child pid := by
  have hsame (o : Output) : (p.script.wiring o == .captured) = (p.wiring o == .captured) :=
    Bool.eq_iff_iff.2 (by simpa using p.wiring_script_eq_captured_iff o)
  exact congrArg₂ (Child.mk pid) (hsame .stdout) (hsame .stderr)

theorem children_script (pid : Nat) (ps : List Process) :
    children pid (ps.map script) = children pid ps := by
  refine List.ext_getElem? fun i => ?_
  rw [children, children, List.getElem?_mapIdx, List.getElem?_mapIdx, List.getElem?_map]
  cases ps[i]? with
  | none => rfl
  | some p => exact congrArg some (p.child_script _)

theorem lastRead_script (ps : List Process) : lastRead (ps.map script) = lastRead ps := by
  rw [lastRead, lastRead, List.getLast?_map]
  cases ps.getLast? with
  | none => rfl
  | some p => exact p.read_script .stdout

theorem unread_record (p : Process) (o : Output) (events : List Stream.Event) :
    (p.record o events).unread = p.unread := by
  cases o <;> rfl

/-! ### How processes are wired -/

/-- The processes are wired as the stages of one pipeline, with these captures: all but the last
one write into pipes. -/
structure WiredFor (capture : Capture) (ps : List Process) : Prop where
  stderr : ∀ q ∈ ps, q.stderr = if capture.stderr then .captured else .inherited
  inner : ∀ before q after, ps = before ++ q :: after → after ≠ [] → ∃ d, q.stdout = .descriptor d
  last : ∀ q, ps.getLast? = some q → q.stdout = if capture.stdout then .captured else .inherited

variable {capture : Capture}

theorem WiredFor.nil (capture : Capture) : WiredFor capture [] where
  stderr _ hmem := absurd hmem List.not_mem_nil
  inner _ _ _ hsplit := by simp at hsplit
  last _ hlast := by simp at hlast

/-- One more process may come before processes that are wired. -/
theorem WiredFor.cons (h : WiredFor capture ps)
    (hstderr : q.stderr = if capture.stderr then .captured else .inherited)
    (hinner : ps ≠ [] → ∃ d, q.stdout = .descriptor d)
    (hlast : ps = [] → q.stdout = if capture.stdout then .captured else .inherited) :
    WiredFor capture (q :: ps) where
  stderr p hmem := by
    rcases List.mem_cons.1 hmem with rfl | hmem
    · exact hstderr
    · exact h.stderr p hmem
  inner before p after hsplit hmore := by
    cases before with
    | nil =>
      obtain ⟨rfl, rfl⟩ := List.cons.inj hsplit
      exact hinner hmore
    | cons first before => exact h.inner before p after (List.cons.inj hsplit).2 hmore
  last p hlast' := by
    cases ps with
    | nil =>
      obtain rfl : q = p := by simpa using hlast'
      exact hlast rfl
    | cons first rest => exact h.last p (by simpa using hlast')

/-- Wired processes are wired so whatever was done with their outputs. -/
theorem WiredFor.congr (h : WiredFor capture ps) (hsame : ps.map unread = qs.map unread) :
    WiredFor capture qs := by
  have hwired {before : List Process} {q : Process} {after : List Process}
      (hsplit : qs = before ++ q :: after) :
      ∃ before' p after', ps = before' ++ p :: after' ∧ p.unread = q.unread ∧
        after'.length = after.length := by
    rw [hsplit, List.map_append, List.map_cons] at hsame
    obtain ⟨before', rest, rfl, -, hsame⟩ := List.map_eq_append_iff.1 hsame
    obtain ⟨p, after', rfl, hhere, hlater⟩ := List.map_eq_cons_iff.1 hsame
    exact ⟨before', p, after', rfl, hhere, by simpa using congrArg List.length hlater⟩
  have hwiring {p q : Process} (hsame : p.unread = q.unread) (o : Output) :
      p.wiring o = q.wiring o := by
    rw [← p.wiring_unread, hsame, q.wiring_unread]
  -- Each place in the one list is a place in the other, with as many processes after it.
  refine ⟨fun q hmem => ?_, fun before q after hsplit hmore => ?_, fun q hlast => ?_⟩
  · obtain ⟨before, after, hsplit⟩ := List.append_of_mem hmem
    obtain ⟨before', p, after', rfl, hhere, -⟩ := hwired hsplit
    exact (hwiring hhere .stderr).symm.trans (h.stderr p (by simp))
  · obtain ⟨before', p, after', rfl, hhere, hlength⟩ := hwired hsplit
    have hmore' : after' ≠ [] := by
      rintro rfl
      exact hmore (List.eq_nil_of_length_eq_zero hlength.symm)
    obtain ⟨d, hdescriptor⟩ := h.inner before' p after' rfl hmore'
    exact ⟨d, (hwiring hhere .stdout).symm.trans hdescriptor⟩
  · obtain ⟨before, hsplit⟩ := List.getLast?_eq_some_iff.1 hlast
    obtain ⟨before', p, after', rfl, hhere, hlength⟩ := hwired hsplit
    obtain rfl : after' = [] := List.eq_nil_of_length_eq_zero hlength
    exact (hwiring hhere .stdout).symm.trans (h.last p List.getLast?_concat)

theorem exists_mem_reader_iff (q : Process) (o : Output) (label : String) (P : Stream → Prop) :
    (∃ r ∈ q.reader o label, P r.2) ↔ q.wiring o = .captured ∧ P (q.stream o) := by
  by_cases hcaptured : q.wiring o = .captured <;> simp [reader, hcaptured]

theorem exists_mem_errorReaders_iff (index : Nat) (ps : List Process) (P : Stream → Prop) :
    (∃ r ∈ errorReaders index ps, P r.2) ↔
      ∃ q ∈ ps, q.wiring .stderr = .captured ∧ P (q.stream .stderr) := by
  induction ps generalizing index with
  | nil => simp [errorReaders]
  | cons q ps ih =>
    simp only [errorReaders, List.mem_append, or_and_right, exists_or, ih, exists_mem_reader_iff,
      List.mem_cons, exists_eq_left]

/-- Every captured output of wired processes has its reader, and readers read captured outputs
only. -/
theorem WiredFor.exists_mem_readers_iff (h : WiredFor capture ps) (P : Stream → Prop) :
    (∃ r ∈ readers ps, P r.2) ↔ ∃ q ∈ ps, ∃ o, q.wiring o = .captured ∧ P (q.stream o) := by
  simp only [readers, List.mem_append, or_and_right, exists_or, exists_mem_errorReaders_iff]
  constructor
  · rintro (hlast | ⟨q, hmem, hcaptured, hholds⟩)
    · cases hend' : ps.getLast? with
      | none => simp [hend'] at hlast
      | some q =>
        rw [hend', Option.elim_some, exists_mem_reader_iff] at hlast
        exact ⟨q, List.mem_of_getLast? hend', .stdout, hlast⟩
    · exact ⟨q, hmem, .stderr, hcaptured, hholds⟩
  · rintro ⟨q, hmem, o, hcaptured, hholds⟩
    cases o with
    | stderr => exact .inr ⟨q, hmem, hcaptured, hholds⟩
    | stdout =>
      -- All but the last one write into pipes.
      left
      obtain ⟨before, after, rfl⟩ := List.append_of_mem hmem
      have hlast : after = [] := by
        by_contra hmore
        obtain ⟨d, hwired⟩ := h.inner before q after rfl hmore
        exact nomatch hwired.symm.trans hcaptured
      subst hlast
      rw [List.getLast?_concat, Option.elim_some, exists_mem_reader_iff]
      exact ⟨hcaptured, hholds⟩

end Process

/-! ### The processes of a start -/

namespace Launch

variable {l l' : Launch} {capture : Capture}

/-- A stage whose start succeeds has a process that is wired as it should be. -/
theorem exists_process_of_startStage {index : Nat} {last : Bool} {argv : List String}
    (hrun : (startStage capture index last argv).outcome l = (.ok (), l')) :
    ∃ q : Process, l'.world.processes = l.world.processes ++ [q] ∧
      (q.stderr = if capture.stderr then .captured else .inherited) ∧
      q.stdout =
        if last then (if capture.stdout then .captured else .inherited)
        else .descriptor l.world.nextWriter := by
  cases last with
  | true =>
    cases hstart : l.world.machine.start l.world.startCalls argv with
    | error f => simp [outcome_startStage_last_of_error hstart] at hrun
    | ok conduct =>
      rw [outcome_startStage_last hstart] at hrun
      obtain rfl := (Prod.mk.inj hrun).2
      exact ⟨_, rfl, rfl, rfl⟩
  | false =>
    cases hpipe : l.world.machine.pipeFailure l.world.pipeCalls with
    | some f => simp [outcome_startStage_of_some hpipe] at hrun
    | none =>
      cases hstart : l.world.machine.start l.world.startCalls argv with
      | error f => simp [outcome_startStage_of_error hpipe hstart] at hrun
      | ok conduct =>
        rw [outcome_startStage_of_none hpipe hstart] at hrun
        obtain rfl := (Prod.mk.inj hrun).2
        exact ⟨_, rfl, rfl, rfl⟩

/-- Giving up ends is nothing to the processes. -/
theorem processes_releaseEnds (l : Launch) (index : Nat) (last : Bool) :
    ((releaseEnds index last).outcome l).2.world.processes = l.world.processes := by
  cases index with
  | zero =>
    cases last with
    | true => rfl
    | false => exact (releases_dropWriter l 0).processes
  | succ i =>
    cases last with
    | true =>
      change ((dropReader 0 >>= fun _ => pure ()).outcome l).2.world.processes = _
      have hfirst := (releases_dropReader l 0).processes
      rw [Action.outcome_bind]
      rcases hrun : (dropReader 0).outcome l with ⟨_ | _, l₁⟩ <;> rw [hrun] at hfirst <;>
        exact hfirst
    | false =>
      change ((dropReader 1 >>= fun _ => dropWriter 0).outcome l).2.world.processes = _
      have hfirst := (releases_dropReader l 1).processes
      rw [Action.outcome_bind]
      rcases hrun : (dropReader 1).outcome l with ⟨_ | _, l₁⟩ <;> rw [hrun] at hfirst
      · exact hfirst
      · exact (releases_dropWriter l₁ 0).processes.trans hfirst

/-- Stages whose start succeeds have one process each, in order, wired as they should be. -/
theorem exists_processes_of_stages {index : Nat} {argvs : List (List String)}
    (hrun : (stages capture index argvs).outcome l = (.ok (), l')) :
    ∃ ps, l'.world.processes = l.world.processes ++ ps ∧ ps.length = argvs.length ∧
      Process.WiredFor capture ps := by
  -- The induction is on the stages that are left; the first of them is started by the step.
  induction argvs generalizing l index with
  | nil =>
    obtain rfl := (Prod.mk.inj hrun).2
    exact ⟨[], by simp, rfl, .nil capture⟩
  | cons argv rest ih =>
    rw [stages, Action.outcome_bind_eq_ok_iff] at hrun
    obtain ⟨⟨⟩, l₁, hfirst, hlater⟩ := hrun
    rw [stage, Action.outcome_bind_eq_ok_iff] at hfirst
    obtain ⟨⟨⟩, l₂, hstarted, hreleased⟩ := hfirst
    obtain ⟨q, hprocesses, hstderr, hstdout⟩ := exists_process_of_startStage hstarted
    obtain ⟨ps, hprocesses', hlength, hwired⟩ := ih hlater
    have hkept := l₂.processes_releaseEnds index rest.isEmpty
    rw [hreleased] at hkept
    refine ⟨q :: ps, ?_, by simp [hlength], hwired.cons hstderr (fun hmore => ?_) fun hdone => ?_⟩
    · rw [hprocesses', hkept, hprocesses, List.append_assoc]
      rfl
    · have hinner : rest.isEmpty = false := by
        rw [List.isEmpty_eq_false_iff]
        exact fun hdone => hmore (List.eq_nil_of_length_eq_zero (by simp [hlength, hdone]))
      rw [hinner] at hstdout
      exact ⟨_, hstdout⟩
    · have hlast : rest.isEmpty = true := by
        rw [List.isEmpty_iff]
        exact List.eq_nil_of_length_eq_zero (by simp [← hlength, hdone])
      rw [hlast] at hstdout
      exact hstdout

end Launch

/-- A launch that succeeds has started one process for each stage, and its children are these. -/
theorem Executor.exists_processes_of_launch {e : Executor} {captured : Bool}
    {argvs : List (List String)} {w w' : World} {children : List Child}
    (hrun : (e.launch captured argvs).outcome w = (.ok children, w')) :
    ∃ ps, w'.processes = w.processes ++ ps ∧ children = Process.children w.nextPid ps ∧
      ps.length = argvs.length ∧ Process.WiredFor (e.capture captured) ps := by
  obtain ⟨-, hresult, -, rfl, rfl⟩ := stopped_of_launch hrun
  have hstopped : (Launch.stages (e.capture captured) 0 argvs).outcome { world := w } =
    (.ok (), Launch.stopped (e.capture captured) argvs w) := Prod.ext hresult rfl
  obtain ⟨ps, hprocesses, hlength, hwired⟩ := Launch.exists_processes_of_stages hstopped
  have hcrewed := Launch.crewed_stopped (e.capture captured) argvs w
  rw [hprocesses, List.drop_left] at hcrewed
  -- What is left of the links is given up, which is nothing to the processes.
  refine ⟨ps, ?_, hcrewed.children, hlength, hwired⟩
  rw [(Launch.releases_given _).processes, hprocesses]

/-! ### Opening a handle -/

namespace World

variable {w w₁ : World} {pid : Nat} {p : Process} {ps : List Process}

/-- The processes, without what was done with their outputs. -/
def unread (w : World) : List Process := w.processes.map Process.unread

/-- The processes with numbers from the given one on, whatever was done with their outputs. -/
def Offers (w : World) (pid : Nat) (ps : List Process) : Prop :=
  ∀ j p, ps[j]? = some p → (w.process? (pid + j)).map Process.unread = some p.unread

theorem map_unread_process? (w : World) (pid : Nat) :
    (w.process? pid).map Process.unread =
      if pid < firstPid then none else w.unread[pid - firstPid]? := by
  unfold process? unread
  split <;> simp

theorem Offers.congr (h : w.Offers pid ps) (hsame : w₁.unread = w.unread) : w₁.Offers pid ps := by
  intro j p hget
  rw [map_unread_process?, hsame, ← map_unread_process?]
  exact h j p hget

theorem Offers.head (h : w.Offers pid (p :: ps)) :
    (w.process? pid).map Process.unread = some p.unread := h 0 p rfl

theorem Offers.tail (h : w.Offers pid (p :: ps)) : w.Offers (pid + 1) ps := by
  intro j q hget
  rw [Nat.add_right_comm, Nat.add_assoc]
  exact h (j + 1) q hget

theorem Knows.offers (h : w.Knows pid ps) : w.Offers pid ps := fun j p hget => by
  rw [h j p hget, Option.map_some]

/-- The processes that were started since an earlier world. -/
def startedSince (w w₁ : World) : List Process := w.processes.drop w₁.processes.length

/-- The processes that were started since an earlier world are known by their numbers. -/
theorem knows_startedSince (w w₁ : World) : w.Knows w₁.nextPid (w.startedSince w₁) := by
  intro j p hget
  rw [startedSince, List.getElem?_drop] at hget
  have hplace : w₁.nextPid + j - firstPid = w₁.processes.length + j := by
    rw [nextPid]
    omega
  rw [process?, if_neg (by rw [nextPid]; omega), hplace, hget]

/-- Of processes that were started since an earlier world there is as much left. -/
theorem unread_startedSince (hunread : w₁.unread = w.unread) (w₀ : World) :
    (w₁.startedSince w₀).map Process.unread = (w.startedSince w₀).map Process.unread := by
  rw [startedSince, startedSince, List.map_drop, List.map_drop]
  exact congrArg (List.drop _) hunread

theorem unread_change {f : Process → Process} (hsame : ∀ p, (f p).unread = p.unread) (w : World)
    (pid : Nat) : (w.change pid f).unread = w.unread := by
  refine List.ext_getElem? fun i => ?_
  rw [unread, unread, change, List.getElem?_map, List.getElem?_map, List.getElem?_modify]
  cases w.processes[i]? with
  | none => rfl
  | some p =>
    by_cases hhere : pid - firstPid = i <;> simp [hhere, hsame]

theorem machine_change (w : World) (pid : Nat) (f : Process → Process) :
    (w.change pid f).machine = w.machine := by
  rw [change]

/-- What is read of a process leaves its conduct and its wiring alone. -/
theorem run_drainOutput (hoffered : (w.process? pid).map Process.unread = some p.unread)
    (size : Nat) (o : Output) :
    ∃ w', (drainOutput size pid o).run w = ((p.stream o).drain size, w') ∧
      w'.unread = w.unread ∧ w'.machine = w.machine := by
  obtain ⟨q, hknown, hsame⟩ := Option.map_eq_some_iff.1 hoffered
  have hstream : q.stream o = p.stream o := by
    rw [← Process.stream_unread q, hsame, Process.stream_unread]
  refine ⟨w.change pid (·.record o ((p.stream o).drain size).events), ?_,
    unread_change (fun q => q.unread_record o _) w pid, w.machine_change pid _⟩
  change drainOutput size pid o w = _
  simp only [drainOutput, hknown, hstream]

/-- From that world on an action answers what it should, or the fault if there is one. The
processes stay as they are, whatever is read from them. -/
def Yields {α : Type} (w : World) (a : Action World Fault α) (f? : Option Fault) (P : α → Prop) :
    Prop :=
  ∃ x w', a.outcome w = (f?.elim (.ok x) .error, w') ∧ P x ∧ w'.unread = w.unread ∧
    w'.machine = w.machine

namespace Yields

variable {α β : Type} {a : Action World Fault α} {f? g? : Option Fault} {P : α → Prop}

theorem pure {x : α} (h : P x) (w : World) : w.Yields (pure x) none P := ⟨x, w, rfl, h, rfl, rfl⟩

theorem imp {P' : α → Prop} (h : w.Yields a f? P) (himp : ∀ x, P x → P' x) : w.Yields a f? P' := by
  obtain ⟨x, w', hrun, hholds, hkept⟩ := h
  exact ⟨x, w', hrun, himp x hholds, hkept⟩

/-- What follows an action starts in the same processes, and not at all after a fault. -/
theorem bind {b : α → Action World Fault β} {Q : β → Prop} (h : w.Yields a f? P)
    (hrest : ∀ x, P x → ∀ w' : World, w'.unread = w.unread → w'.machine = w.machine →
      w'.Yields (b x) g? Q) : w.Yields (a >>= b) (f?.or g?) Q := by
  obtain ⟨x, w₁, hrun, hholds, hunread, hmachine⟩ := h
  obtain ⟨y, w₂, hrun', hholds', hunread', hmachine'⟩ := hrest x hholds w₁ hunread hmachine
  cases f? with
  | some f => exact ⟨y, w₁, Action.outcome_bind_of_error hrun, hholds', hunread, hmachine⟩
  | none =>
    exact ⟨y, w₂, (Action.outcome_bind_of_ok hrun).trans hrun', hholds', hunread'.trans hunread,
      hmachine'.trans hmachine⟩

end Yields

end World

/-- Between two worlds a reader that is no thread let out a fault: one that is not heard of, at the
end of an output that is captured. -/
structure World.LetsOut (w w' : World) (size : Nat) (f : Fault) : Prop where
  threadless : w.machine.threaded = false
  unheard : f.isHeard = false
  reader : ∃ q ∈ w'.startedSince w, ∃ o, q.wiring o = .captured ∧
    ((q.stream o).drain size).fault = some f

namespace Handle

open World (Yields)

variable {w : World} {pid size : Nat} {p : Process} {ps : List Process} {child : Child}

/-- A reader answers what is delivered, and the error that it ends with. -/
theorem yields_drain (hoffered : (w.process? pid).map Process.unread = some p.unread)
    (hsame : child.pid = pid) (o : Output) (label : String) :
    w.Yields (drain size child o label) (w.machine.escape? size [(label, p.stream o)]) fun x =>
      0 < size → x = ((p.stream o).delivered, captureError? (label, p.stream o)) := by
  subst hsame
  obtain ⟨w₁, hdrained, hunread, hmachine⟩ := World.run_drainOutput hoffered size o
  have hbytes (hpos : 0 < size) := Stream.bytes_drain hpos (p.stream o)
  have hended (hpos : 0 < size) := Stream.fault_drain hpos (p.stream o)
  have hrun : (liftM (World.drainOutput size child.pid o) : Action World Fault _).outcome w =
      (.ok ((p.stream o).drain size), w₁) := by
    rw [Action.outcome_liftM, hdrained]
  rw [Yields, drain, Action.outcome_bind_of_ok hrun, Machine.escape?, List.findSome?_singleton]
  -- A fault is noted if it is heard of, and any other is let out.
  cases hfault : ((p.stream o).drain size).fault with
  | none =>
    refine ⟨(((p.stream o).drain size).bytes, none), w₁, by simp, fun hpos => ?_,
      hunread, hmachine⟩
    rw [hbytes hpos, captureError?, ← hended hpos, hfault]
    rfl
  | some f =>
    by_cases hheard : f.isHeard = true
    · refine ⟨(((p.stream o).drain size).bytes, some (.capture label f)),
        w₁.takeNote (.drainFailed label f), ?_, fun hpos => ?_, hunread, hmachine⟩
      · simp only [Option.filter, hheard, Bool.not_true, Bool.false_eq_true, if_false, ite_self]
        rw [if_pos (show (f.isSystem || f.isInvalid) = true from hheard)]
        rfl
      · rw [hbytes hpos, captureError?, ← hended hpos, hfault, Option.filter, if_pos hheard]
        rfl
    · refine ⟨(((p.stream o).drain size).bytes, none), w₁, ?_, fun hpos => ?_, hunread, hmachine⟩
      · simp only
        rw [if_neg (show ¬ (f.isSystem || f.isInvalid) = true from hheard),
          Action.outcome_bind_of_ok (Action.outcome_get w₁), hmachine]
        cases w.machine.threaded <;> simp [Option.filter, hheard]
      · rw [hbytes hpos, captureError?, ← hended hpos, hfault, Option.filter, if_neg hheard]
        rfl

/-- Reads an output of a process that has the given number, if it is captured. -/
def reading (size pid : Nat) (p : Process) (o : Output) (label : String) :
    Action World Fault (Bytes × Option Error) :=
  if p.wiring o == .captured then drain size (p.child pid) o label else pure ([], none)

/-- What is read of an output, if it is captured, and the error that its reader ends with. -/
theorem yields_reading (hoffered : (w.process? pid).map Process.unread = some p.unread)
    (o : Output) (label : String) :
    w.Yields (reading size pid p o label) (w.machine.escape? size (p.reader o label)) fun x =>
      0 < size → x.1 = p.read o ∧ x.2.toList = (p.reader o label).filterMap captureError? := by
  by_cases hcaptured : p.wiring o = .captured
  · rw [reading, if_pos (by simpa using hcaptured), Process.reader, if_pos hcaptured]
    refine (yields_drain hoffered rfl o label).imp fun x hread hpos => ?_
    rw [hread hpos, Process.read, if_pos hcaptured, List.filterMap_cons]
    exact ⟨rfl, by cases captureError? (label, p.stream o) <;> rfl⟩
  · rw [reading, if_neg (by simpa using hcaptured), Process.reader, if_neg hcaptured,
      Machine.escape?_nil]
    exact .pure (fun _ => ⟨by rw [Process.read, if_neg hcaptured], rfl⟩) w

/-- One error output is read after the other. -/
theorem drainStderr_cons (size index : Nat) (child : Child) (children : List Child) :
    drainStderr size index (child :: children) =
      (if child.stderr then drain size child .stderr ("stderr-" ++ toString index)
        else pure ([], none)) >>= fun first =>
          drainStderr size (index + 1) children >>= fun later => pure (first :: later) := by
  rw [drainStderr]
  cases child.stderr <;> rfl

theorem drainStderr_children_cons (size index pid : Nat) (p : Process) (ps : List Process) :
    drainStderr size index (Process.children pid (p :: ps)) =
      reading size pid p .stderr ("stderr-" ++ toString index) >>= fun first =>
        drainStderr size (index + 1) (Process.children (pid + 1) ps) >>= fun later =>
          pure (first :: later) := by
  rw [Process.children_cons, drainStderr_cons]
  rfl

/-- The output of the last process is read before the error outputs of all. -/
theorem open_children_concat (size : Nat) (captured : Bool) (argvs : List (List String))
    (pid : Nat) (ps : List Process) (p : Process) :
    Handle.open size captured argvs (Process.children pid (ps ++ [p])) =
      reading size (pid + ps.length) p .stdout ("stdout-" ++ toString ps.length) >>= fun last =>
        drainStderr size 0 (Process.children pid (ps ++ [p])) >>= fun outputs => pure
          { children := Process.children pid (ps ++ [p]), argvs, captured, stdout := last.1
            stageStderr := outputs.map (·.1)
            captureErrors := last.2.toList ++ outputs.filterMap (·.2) } := by
  have hlast : (Process.children pid (ps ++ [p])).getLast? = some (p.child (pid + ps.length)) := by
    rw [Process.children_append]
    exact List.getLast?_concat
  have hlength : (Process.children pid (ps ++ [p])).length - 1 = ps.length := by
    simp [Process.children]
  rw [Handle.open, hlast, hlength]
  rfl

/-- The error outputs of the processes are read in turn. -/
theorem yields_drainStderr (hoffered : w.Offers pid ps) (index : Nat) :
    w.Yields (drainStderr size index (Process.children pid ps))
      (w.machine.escape? size (Process.errorReaders index ps)) fun xs =>
        0 < size → xs.map (·.1) = ps.map (·.read .stderr) ∧
          xs.filterMap (·.2) = (Process.errorReaders index ps).filterMap captureError? := by
  induction ps generalizing w pid index with
  | nil => exact Machine.escape?_nil w.machine size ▸ .pure (fun _ => ⟨rfl, rfl⟩) w
  | cons p ps ih =>
    rw [drainStderr_children_cons, Process.errorReaders, Machine.escape?_append]
    refine (yields_reading hoffered.head .stderr _).bind fun x hread w₁ hunread hmachine => ?_
    rw [← hmachine, ← Option.or_none (o := w₁.machine.escape? size _)]
    refine (ih (hoffered.tail.congr hunread) (index + 1)).bind fun xs hreads w₂ _ _ => ?_
    refine .pure (fun hpos => ?_) w₂
    obtain ⟨hbytes, herror⟩ := hread hpos
    obtain ⟨hallBytes, herrors⟩ := hreads hpos
    refine ⟨by simp [hbytes, hallBytes], ?_⟩
    rw [List.filterMap_append, ← herrors, ← herror]
    cases herror' : x.2 <;> simp [herror']

/-- The handle of processes with numbers from the given one on, once their outputs are read. -/
def ofProcesses (captured : Bool) (argvs : List (List String)) (pid : Nat) (ps : List Process) :
    Handle where
  children := Process.children pid ps
  argvs := argvs
  captured := captured
  stdout := Process.lastRead ps
  stageStderr := ps.map (·.read .stderr)
  captureErrors := Process.captureErrors ps

/-- The handle of processes is told from their scripts. -/
theorem ofProcesses_script (captured : Bool) (argvs : List (List String)) (pid : Nat)
    (ps : List Process) :
    ofProcesses captured argvs pid (ps.map Process.script) =
      ofProcesses captured argvs pid ps := by
  simp only [ofProcesses, Process.children_script, Process.captureErrors, Process.lastRead_script,
    Process.readers_script, List.map_map, Function.comp_def, Process.read_script]

/-- What was done with the outputs of processes does not change their handle. -/
theorem ofProcesses_congr {qs : List Process}
    (hsame : ps.map Process.unread = qs.map Process.unread) (captured : Bool)
    (argvs : List (List String)) (pid : Nat) :
    ofProcesses captured argvs pid ps = ofProcesses captured argvs pid qs := by
  rw [← ofProcesses_script, Process.map_script_congr hsame, ofProcesses_script]

/-- Opening a handle answers the one of its processes, unless a fault comes out of a reader, and
leaves all that they will do as it is. -/
theorem yields_open (hoffered : w.Offers pid ps) (captured : Bool) (argvs : List (List String)) :
    w.Yields (Handle.open size captured argvs (Process.children pid ps))
      (w.machine.escape? size (Process.readers ps)) fun h =>
        0 < size → h = ofProcesses captured argvs pid ps := by
  rcases List.eq_nil_or_concat ps with rfl | ⟨before, p, rfl⟩
  · exact Machine.escape?_nil w.machine size ▸ .pure (fun _ => rfl) w
  rw [List.concat_eq_append] at hoffered ⊢
  -- There is a last process, whose output is read before all error outputs.
  have hown : (w.process? (pid + before.length)).map Process.unread = some p.unread :=
    hoffered before.length p (by simp)
  have hlength : (before ++ [p]).length - 1 = before.length := by simp
  rw [open_children_concat, Process.readers, List.getLast?_concat, Option.elim_some, hlength,
    Machine.escape?_append]
  refine (yields_reading hown .stdout _).bind fun last hread w₁ hunread hmachine => ?_
  rw [← hmachine, ← Option.or_none (o := w₁.machine.escape? size _)]
  refine (yields_drainStderr (hoffered.congr hunread) 0).bind fun outputs hreads w₂ _ _ => ?_
  refine .pure (fun hpos => ?_) w₂
  obtain ⟨hstdout, hlastError⟩ := hread hpos
  obtain ⟨hstderr, herrors⟩ := hreads hpos
  rw [hstdout, hstderr, hlastError, herrors, ← List.filterMap_append, ofProcesses,
    Process.captureErrors, Process.readers, Process.lastRead, List.getLast?_concat,
    Option.elim_some, Option.elim_some, hlength]

end Handle

namespace Executor

variable {e : Executor} {captured : Bool} {p : Pipeline} {w w' : World}

/-- Once its processes are launched, a start opens a handle of them, unless a fault comes out of a
reader. -/
theorem exists_spawn_of_launch {children : List Child} {w₁ : World}
    (hlaunched : (e.launch captured p.argvs).outcome w = (.ok children, w₁)) :
    ∃ ps h w', w₁.startedSince w = ps ∧ ps.length = p.stages.length ∧
      Process.WiredFor (e.capture captured) ps ∧
      (e.spawn captured p).outcome w =
        ((w.machine.escape? e.chunkSize (Process.readers ps)).elim (.ok h) (.error ∘ .fault), w') ∧
      w'.unread = w₁.unread ∧ w'.calls = w₁.calls ∧
      (0 < e.chunkSize → h = .ofProcesses captured p.argvs w.nextPid ps) := by
  obtain ⟨ps, hprocesses, rfl, hlength, hwired⟩ := exists_processes_of_launch hlaunched
  have hstarted : w₁.startedSince w = ps := by rw [World.startedSince, hprocesses, List.drop_left]
  have hknown : w₁.Knows w.nextPid ps := hstarted ▸ w₁.knows_startedSince w
  have hmachine : w₁.machine = w.machine := by
    simpa [hlaunched] using e.machine_launch captured w p.argvs
  obtain ⟨h, w', hopening, hhandle, hunread, -⟩ : w₁.Yields
      (Handle.open e.chunkSize captured p.argvs (Process.children w.nextPid ps)) _ _ :=
    Handle.yields_open hknown.offers captured p.argvs
  have hcalls := Handle.silent_open e.chunkSize captured p.argvs (Process.children w.nextPid ps) w₁
  rw [hopening] at hcalls
  refine ⟨ps, h, w', hstarted, by rw [hlength, Pipeline.argvs, List.length_map], hwired,
    ?_, hunread, hcalls, hhandle⟩
  rw [spawn, Action.outcome_bind_of_ok hlaunched, Action.outcome_mapFailure, hopening, ← hmachine]
  cases w₁.machine.escape? e.chunkSize (Process.readers ps) <;> rfl

/-- Once its processes are launched, a start answers a handle, or the fault that a reader let
out. -/
theorem spawn_of_launch {children : List Child} {w₁ : World}
    (hlaunched : (e.launch captured p.argvs).outcome w = (.ok children, w₁)) :
    let outcome := (e.spawn captured p).outcome w
    ((∃ h, outcome.1 = .ok h) ∨
      ∃ f, outcome.1 = .error (.fault f) ∧ w.LetsOut outcome.2 e.chunkSize f) ∧
    outcome.2.unread = w₁.unread ∧ outcome.2.calls = w₁.calls := by
  intro outcome
  obtain ⟨ps, h, w', hstarted, -, hwired, hspawned, hunread, hcalls, -⟩ :=
    exists_spawn_of_launch hlaunched
  rw [show outcome = _ from hspawned]
  refine ⟨?_, hunread, hcalls⟩
  cases hescaped : w.machine.escape? e.chunkSize (Process.readers ps) with
  | none => exact .inl ⟨h, rfl⟩
  | some f =>
    have hsame := World.unread_startedSince hunread w
    rw [hstarted] at hsame
    rw [← Process.readers_congr hsame] at hescaped
    obtain ⟨hthreadless, hunheard, hfault⟩ := Machine.exists_of_escape?_eq_some hescaped
    have hreader := (hwired.congr hsame.symm).exists_mem_readers_iff fun s =>
      (s.drain e.chunkSize).fault = some f
    exact .inr ⟨f, rfl, hthreadless, hunheard, hreader.1 hfault⟩

/-- If every reader that fails is heard of, then a start whose processes are launched answers a
handle. -/
theorem exists_spawn_of_heard (hpos : 0 < e.chunkSize) {children : List Child} {w₁ : World}
    (hlaunched : (e.launch captured p.argvs).outcome w = (.ok children, w₁))
    (hheard : ∀ q ∈ w₁.startedSince w, ∀ o, q.wiring o = .captured →
      ∀ f, (q.stream o).fault? = some f → f.isHeard = true) :
    ∃ h w', (e.spawn captured p).outcome w = (.ok h, w') ∧ w'.calls = w₁.calls := by
  obtain ⟨ps, h, w', rfl, -, hwired, hspawned, -, hcalls, -⟩ := exists_spawn_of_launch hlaunched
  have hescaped : w.machine.escape? e.chunkSize (Process.readers (w₁.startedSince w)) = none := by
    refine Machine.escape?_eq_none_iff.2 (.inr ?_)
    by_contra! hunheard
    obtain ⟨q, hmem, o, hcaptured, f, hfault, hunheard⟩ := (hwired.exists_mem_readers_iff fun s =>
      ∃ f, (s.drain e.chunkSize).fault = some f ∧ f.isHeard ≠ true).1 hunheard
    rw [Stream.fault_drain hpos] at hfault
    exact hunheard (hheard q hmem o hcaptured f hfault)
  rw [hescaped] at hspawned
  exact ⟨h, w', hspawned, hcalls⟩

/-- A start that succeeds has started one process for each stage, no fault has come out of a
reader, and the handle is the one of these processes. -/
theorem exists_opened_of_spawn {h : Handle} (hrun : (e.spawn captured p).outcome w = (.ok h, w')) :
    let ps := w'.startedSince w
    ps.length = p.stages.length ∧ Process.WiredFor (e.capture captured) ps ∧
      w.machine.escape? e.chunkSize (Process.readers ps) = none ∧
      (0 < e.chunkSize → h = .ofProcesses captured p.argvs w.nextPid ps) := by
  obtain ⟨children, w₁, hlaunched, -⟩ := Action.outcome_bind_eq_ok_iff.1 hrun
  obtain ⟨ps, h', w₂, hstarted, hlength, hwired, hspawned, hunread, -, hhandle⟩ :=
    exists_spawn_of_launch hlaunched
  rw [hrun] at hspawned
  obtain ⟨hanswer, rfl⟩ := Prod.mk.inj hspawned
  -- Opening the handle has read from the processes and left them the same otherwise.
  have hsame : ps.map Process.unread = (w'.startedSince w).map Process.unread :=
    hstarted ▸ (World.unread_startedSince hunread w).symm
  have hsameLength := congrArg List.length hsame
  rw [List.length_map, List.length_map] at hsameLength
  cases hescaped : w.machine.escape? e.chunkSize (Process.readers ps) with
  | some f => simp [hescaped] at hanswer
  | none =>
    rw [hescaped] at hanswer
    obtain rfl := Except.ok.inj hanswer
    exact ⟨hsameLength ▸ hlength, hwired.congr hsame, Process.readers_congr hsame ▸ hescaped,
      fun hpos => (hhandle hpos).trans (Handle.ofProcesses_congr hsame ..)⟩

/-- A start that succeeds answers the handle of the processes that it has started, one for each
stage. -/
theorem exists_processes_of_spawn {h : Handle} (hpos : 0 < e.chunkSize)
    (hrun : (e.spawn captured p).outcome w = (.ok h, w')) :
    h = .ofProcesses captured p.argvs w.nextPid (w'.startedSince w) ∧
      (w'.startedSince w).length = p.stages.length ∧
      Process.WiredFor (e.capture captured) (w'.startedSince w) := by
  obtain ⟨hlength, hwired, -, hhandle⟩ := exists_opened_of_spawn hrun
  exact ⟨hhandle hpos, hlength, hwired⟩

/-- Where readers are no threads, a start succeeds only if no reader lets a fault out. -/
theorem isHeard_of_spawn {h : Handle} (hpos : 0 < e.chunkSize)
    (hrun : (e.spawn captured p).outcome w = (.ok h, w'))
    (hthreadless : w.machine.threaded = false) {q : Process} (hmem : q ∈ w'.startedSince w)
    {o : Output} (hwired : q.wiring o = .captured) {f : Fault}
    (hfault : (q.stream o).fault? = some f) : f.isHeard = true := by
  obtain ⟨-, hall, hescaped, -⟩ := exists_opened_of_spawn hrun
  obtain ⟨r, hmem', hfault'⟩ := (hall.exists_mem_readers_iff fun s => s.fault? = some f).2
    ⟨q, hmem, o, hwired, hfault⟩
  rcases Machine.escape?_eq_none_iff.1 hescaped with hthreads | hheard
  · simp [hthreads] at hthreadless
  · exact hheard r hmem' f ((Stream.fault_drain hpos r.2).trans hfault')

end Executor

end Pipework
