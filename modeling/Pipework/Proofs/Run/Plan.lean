import Mathlib.Data.List.Induction
import Mathlib.Data.List.Nodup
import Mathlib.Data.List.Perm.Basic
import Pipework.Run.Executor

/-!
# The plan of a start

A start that meets no failure is determined call by call: every stage but the last gets a new
pipe to write into, every stage but the first reads from the pipe of the stage before it, and
the parent gives up an end as soon as the process that needs it runs. This file writes these
calls down, stage by stage, and proves what makes the plan a good one, apart from any run: the
two ends of every pipe go to one stage each, and the parent is left with nothing.

## Main definitions

* `Plan` — the descriptors of the links, and what is captured of how many stages
* `Plan.stageCalls`, `Plan.calls` — the calls for one stage, and for all of them
* `Plan.openLinks`, `Plan.closedLinks` — the links between the calls of two stages, and at the end
* `Call.made`, `Call.dropped` — the descriptors that a call brings and gives up

## Main results

* `Plan.holds_reader_iff`, `Plan.holds_writer_iff` — which stage gets which end of a pipe
* `Plan.count_close_of_mem_made` — every descriptor is closed exactly once
-/

namespace Pipework

/-- The descriptors that a call brings. -/
def Call.made : Call → List Nat
  | .pipe reader writer => [reader, writer]
  | _ => []

/-- The descriptors that a call gives up. -/
def Call.dropped : Call → List Nat
  | .close descriptor => [descriptor]
  | _ => []

/-- The plan of a start: which descriptors there are, the number of the first pipe, what is
captured, and how many stages there are. -/
structure Plan where
  descriptors : Descriptors
  first : Nat
  capture : Capture
  count : Nat

namespace Plan

/-- The plan of a start in some world, where the links get the next descriptors. -/
def of (capture : Capture) (count : Nat) (w : World) : Plan where
  descriptors := w.machine.descriptors
  first := w.pipes
  capture := capture
  count := count

/-- The read end of the link behind a stage. -/
def reader (plan : Plan) (i : Nat) : Nat := plan.descriptors.reader (plan.first + i)

/-- The write end of the link behind a stage. -/
def writer (plan : Plan) (i : Nat) : Nat := plan.descriptors.writer (plan.first + i)

/-- Where a stage reads from: the first like the parent, every other from the link before it. -/
def stdin (plan : Plan) : Nat → Wiring
  | 0 => .inherited
  | i + 1 => .descriptor (plan.reader i)

/-- Where a stage writes to: the last where it is captured, or like the parent, every other into
the link behind it. -/
def stdout (plan : Plan) (i : Nat) : Wiring :=
  if i + 1 < plan.count then .descriptor (plan.writer i)
  else if plan.capture.stdout then .captured else .inherited

/-- Where the error output of every stage goes. -/
def stderr (plan : Plan) : Wiring := if plan.capture.stderr then .captured else .inherited

/-- The calls with which a stage is started, in order. -/
def stageCalls (plan : Plan) (i : Nat) (argv : List String) : List Call :=
  (if i + 1 < plan.count then [.pipe (plan.reader i) (plan.writer i)] else []) ++
    [.start argv (plan.stdin i) (plan.stdout i) plan.stderr] ++
    (if 0 < i then [.close (plan.reader (i - 1))] else []) ++
    (if i + 1 < plan.count then [.close (plan.writer i)] else [])

/-- The calls with which the stages are started, in order. -/
def calls (plan : Plan) (argvs : List (List String)) : List Call :=
  (argvs.mapIdx plan.stageCalls).flatten

/-- A stage is given a descriptor for one of its streams. -/
def Holds (plan : Plan) (i descriptor : Nat) : Prop :=
  plan.stdin i = .descriptor descriptor ∨ plan.stdout i = .descriptor descriptor ∨
    plan.stderr = .descriptor descriptor

/-- The links after some stages were started, newest first, none of which holds an end. -/
def closedLinks : Nat → List Link
  | 0 => []
  | i + 1 => ⟨i, none, none⟩ :: closedLinks i

/-- The links after some stages, but not the last, were started, newest first. All that is still
held is the read end of the newest one, which the next stage will have. -/
def openLinks (plan : Plan) : Nat → List Link
  | 0 => []
  | i + 1 => ⟨i, some (plan.reader i), none⟩ :: closedLinks i

variable {plan : Plan} {argvs : List (List String)} {i j d : Nat}

/-! ### Links -/

@[simp] theorem wiringOf_openLinks (plan : Plan) (i : Nat) :
    Launch.wiringOf ((plan.openLinks i).head?.bind (·.reader)) = plan.stdin i := by
  cases i <;> rfl

theorem isClosed_of_mem_closedLinks {n : Nat} {link : Link} (hmem : link ∈ closedLinks n) :
    link.isClosed = true := by
  induction n with
  | zero => simp [closedLinks] at hmem
  | succ n ih =>
    rcases List.mem_cons.1 hmem with rfl | hmem
    · rfl
    · exact ih hmem

/-! ### Calls -/

@[simp] theorem calls_append_singleton (plan : Plan) (argvs : List (List String))
    (argv : List String) :
    plan.calls (argvs ++ [argv]) = plan.calls argvs ++ plan.stageCalls argvs.length argv := by
  simp [calls, List.mapIdx_append]

theorem stageCalls_last (hlast : i + 1 = plan.count) (argv : List String) :
    plan.stageCalls i argv =
      [.start argv (plan.stdin i) (if plan.capture.stdout then .captured else .inherited)
        plan.stderr] ++ (if 0 < i then [.close (plan.reader (i - 1))] else []) := by
  simp [stageCalls, stdout, hlast]

theorem stageCalls_of_lt (hlt : i + 1 < plan.count) (argv : List String) :
    plan.stageCalls i argv =
      [.pipe (plan.reader i) (plan.writer i),
        .start argv (plan.stdin i) (.descriptor (plan.writer i)) plan.stderr] ++
      (if 0 < i then [.close (plan.reader (i - 1))] else []) ++ [.close (plan.writer i)] := by
  simp [stageCalls, stdout, hlt]

theorem pipe_mem_calls (hlt : i + 1 < plan.count) (hstage : i < argvs.length) :
    .pipe (plan.reader i) (plan.writer i) ∈ plan.calls argvs := by
  refine List.mem_flatten.2 ⟨plan.stageCalls i argvs[i], List.mem_mapIdx.2 ⟨i, hstage, rfl⟩, ?_⟩
  rw [stageCalls_of_lt hlt]
  exact List.mem_cons_self

/-! ### Which stage gets which end -/

theorem reader_inj : plan.reader i = plan.reader j ↔ i = j := by
  refine ⟨fun h => ?_, fun h => h ▸ rfl⟩
  have := plan.descriptors.reader_injective h
  omega

theorem writer_inj : plan.writer i = plan.writer j ↔ i = j := by
  refine ⟨fun h => ?_, fun h => h ▸ rfl⟩
  have := plan.descriptors.writer_injective h
  omega

theorem reader_ne_writer : plan.reader i ≠ plan.writer j :=
  plan.descriptors.reader_ne_writer _ _

theorem stdin_eq_descriptor_iff :
    plan.stdin i = .descriptor d ↔ 0 < i ∧ plan.reader (i - 1) = d := by
  cases i <;> simp [stdin]

theorem stdout_eq_descriptor_iff :
    plan.stdout i = .descriptor d ↔ i + 1 < plan.count ∧ plan.writer i = d := by
  unfold stdout
  split_ifs <;> simp [*]

theorem stderr_ne_descriptor : plan.stderr ≠ .descriptor d := by
  unfold stderr
  split_ifs <;> simp

theorem holds_iff :
    plan.Holds i d ↔
      0 < i ∧ plan.reader (i - 1) = d ∨ i + 1 < plan.count ∧ plan.writer i = d := by
  simp only [Holds, stdin_eq_descriptor_iff, stdout_eq_descriptor_iff, stderr_ne_descriptor,
    or_false]

/-- The read end of a link is for the stage after it, and for no other. -/
theorem holds_reader_iff : plan.Holds j (plan.reader i) ↔ j = i + 1 := by
  rw [holds_iff, reader_inj]
  constructor
  · rintro (⟨hpos, rfl⟩ | ⟨-, hwriter⟩)
    · omega
    · exact absurd hwriter.symm reader_ne_writer
  · rintro rfl
    exact .inl ⟨i.succ_pos, rfl⟩

/-- The write end of a link is for the stage before it, and for no other. -/
theorem holds_writer_iff (hlt : i + 1 < plan.count) : plan.Holds j (plan.writer i) ↔ j = i := by
  rw [holds_iff, writer_inj]
  constructor
  · rintro (⟨-, hreader⟩ | ⟨-, rfl⟩)
    · exact absurd hreader reader_ne_writer
    · rfl
  · rintro rfl
    exact .inr ⟨hlt, rfl⟩

/-! ### What is left to the parent -/

/-- The descriptors of the first links, in the order in which the parent gives them up. -/
def ends (plan : Plan) (n : Nat) : List Nat :=
  (List.range n).flatMap fun i => [plan.writer i, plan.reader i]

theorem ends_eq (plan : Plan) (n : Nat) :
    plan.ends n = plan.ends (n - 1) ++
      if 0 < n then [plan.writer (n - 1), plan.reader (n - 1)] else [] := by
  cases n <;> simp [ends, List.range_succ]

/-- As long as stages are to come, the parent is left with the read end of the newest link. -/
theorem flatMap_dropped_of_lt (hlt : argvs.length < plan.count) :
    (plan.calls argvs).flatMap Call.dropped =
      plan.ends (argvs.length - 1) ++
        if 0 < argvs.length then [plan.writer (argvs.length - 1)] else [] := by
  induction argvs using List.reverseRecOn with
  | nil => simp [calls, ends]
  | append_singleton argvs argv ih =>
    have hlt' : argvs.length + 1 < plan.count := by simpa using hlt
    -- The read end that is given up now makes the ends of its link complete.
    have hcomplete := plan.ends_eq argvs.length
    rw [calls_append_singleton, List.flatMap_append, ih (by omega), stageCalls_of_lt hlt']
    by_cases hpos : 0 < argvs.length <;> simp [hcomplete, hpos, Call.dropped]

/-- In the end the parent has given up both ends of every link. -/
theorem flatMap_dropped (hall : argvs.length = plan.count) :
    (plan.calls argvs).flatMap Call.dropped = plan.ends (plan.count - 1) := by
  rcases argvs.eq_nil_or_concat with rfl | ⟨argvs, argv, rfl⟩
  · simp [calls, ends, ← hall]
  · have hlast : argvs.length + 1 = plan.count := by simpa using hall
    have hcomplete := plan.ends_eq argvs.length
    rw [List.concat_eq_append, calls_append_singleton, List.flatMap_append,
      flatMap_dropped_of_lt (by omega), stageCalls_last hlast, ← hlast]
    by_cases hpos : 0 < argvs.length <;> simp [hcomplete, hpos, Call.dropped]

theorem flatMap_made (plan : Plan) (argvs : List (List String)) :
    (plan.calls argvs).flatMap Call.made =
      (List.range (min argvs.length (plan.count - 1))).flatMap fun i =>
        [plan.reader i, plan.writer i] := by
  induction argvs using List.reverseRecOn with
  | nil => simp [calls]
  | append_singleton argvs argv ih =>
    rw [calls_append_singleton, List.flatMap_append, ih]
    by_cases hlt : argvs.length + 1 < plan.count
    · have hbefore : min argvs.length (plan.count - 1) = argvs.length := by omega
      have hafter : min (argvs.length + 1) (plan.count - 1) = argvs.length + 1 := by omega
      rw [stageCalls_of_lt hlt]
      by_cases hpos : 0 < argvs.length <;>
        simp [hbefore, hafter, hpos, List.range_succ, Call.made]
    · -- The last stage makes no pipe.
      have hsame : min (argvs.length + 1) (plan.count - 1) =
          min argvs.length (plan.count - 1) := by omega
      by_cases hpos : 0 < argvs.length <;> simp [hsame, hpos, hlt, stageCalls, Call.made]

/-- No descriptor is made twice. -/
theorem nodup_made (plan : Plan) (argvs : List (List String)) :
    ((plan.calls argvs).flatMap Call.made).Nodup := by
  rw [flatMap_made, List.nodup_flatMap]
  constructor
  · intro i _
    simp [reader_ne_writer]
  · refine List.nodup_range.imp fun hne => ?_
    simp [Function.onFun, reader_inj, writer_inj, reader_ne_writer,
      reader_ne_writer.symm, hne.symm]

/-- Every descriptor that is made is given up, once, and no other one is. -/
theorem dropped_perm_made (hall : argvs.length = plan.count) :
    ((plan.calls argvs).flatMap Call.dropped).Perm ((plan.calls argvs).flatMap Call.made) := by
  rw [flatMap_dropped hall, flatMap_made, hall, Nat.min_eq_right (Nat.sub_le _ _)]
  exact List.Perm.flatMap_left _ fun i _ => List.Perm.swap _ _ _

theorem count_close (calls : List Call) (d : Nat) :
    calls.count (.close d) = (calls.flatMap Call.dropped).count d := by
  induction calls with
  | nil => rfl
  | cons call calls ih =>
    cases call <;> simp [Call.dropped, ih, List.count_cons]

/-- Every descriptor that is made is closed exactly once. -/
theorem count_close_of_mem_made (hall : argvs.length = plan.count)
    (hmade : d ∈ (plan.calls argvs).flatMap Call.made) :
    (plan.calls argvs).count (.close d) = 1 := by
  rw [count_close, (dropped_perm_made hall).count_eq]
  exact List.count_eq_one_of_mem (nodup_made plan argvs) hmade

/-- Nothing is closed that was not made. -/
theorem mem_made_of_close (hall : argvs.length = plan.count)
    (hclosed : .close d ∈ plan.calls argvs) : d ∈ (plan.calls argvs).flatMap Call.made := by
  rw [← (dropped_perm_made hall).mem_iff]
  exact List.mem_flatMap.2 ⟨_, hclosed, List.mem_singleton_self d⟩

end Plan

end Pipework
