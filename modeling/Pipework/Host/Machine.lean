import Pipework.Host.Stream

/-!
# Machines

A machine decides what the system answers to the calls of a program that runs pipelines: which
of the calls for a pipe or for closing a descriptor fail, which descriptors the pipes get, which
processes are started, and how each of them will behave. A machine can follow a script, which
answers call by call.

## Main definitions

* `Conduct` — what a process will answer, and what it writes
* `Descriptors` — the descriptors of successive pipes, none of them twice
* `Machine` — the answers to all calls
* `Behaviour`, `Script` — answers listed call by call
* `Machine.ofScript` — the machine that follows a script
-/

namespace Pipework

/-- What a process answers to the calls that concern it. -/
structure Conduct where
  returnCode : Int := 0
  /-- The faults of the successive waits; further waits are fine. -/
  waits : List (Option Fault) := []
  /-- What the successive polls answer; on further ones the process is still running. -/
  polls : List (Option Int) := []
  killFailure : Option Fault := none
  /-- What it writes into a pipe, if its output leads into one. -/
  piped : Bytes := []
  stdout : Stream := {}
  stderr : Stream := {}
  deriving Repr, DecidableEq

/-- The descriptors of the two ends of successive pipes. None of them comes twice. -/
structure Descriptors where
  reader : Nat → Nat
  writer : Nat → Nat
  reader_injective : ∀ {m n}, reader m = reader n → m = n
  writer_injective : ∀ {m n}, writer m = writer n → m = n
  reader_ne_writer : ∀ m n, reader m ≠ writer n

/-- Descriptors in order from the first on, the read end of a pipe before its write end. -/
def Descriptors.consecutive (first : Nat) : Descriptors where
  reader n := first + 2 * n
  writer n := first + 2 * n + 1
  reader_injective h := by omega
  writer_injective h := by omega
  reader_ne_writer m n := by omega

/-- What the system answers: calls of each sort are counted from zero. Whether a process is
started may depend on its number and on its program and arguments, and how it behaves then
also on the bytes it is given to read. -/
structure Machine where
  /-- A reader of captured output is a thread of its own. Where it is not, it runs to its end
  inside the call that starts it. -/
  threaded : Bool
  pipeFailure : Nat → Option Fault
  closeFailure : Nat → Option Fault
  descriptors : Descriptors
  start : Nat → List String → Except Fault (Bytes → Conduct)

/-- What a script has for a start: the reason for which the process is not started, or else what
it answers. -/
structure Behaviour extends Conduct where
  refusal : Option Fault := none
  deriving Repr, DecidableEq

/-- Answers listed call by call. Calls that are not listed are fine. -/
structure Script where
  pipeFailures : List (Nat × Fault) := []
  closeFailures : List (Nat × Fault) := []
  processes : List Behaviour := []
  deriving Repr, DecidableEq

namespace Machine

/-- The descriptor of the first pipe end. -/
def firstDescriptor : Nat := 10

/-- The machine that follows a script. It has no threads. -/
def ofScript (s : Script) : Machine where
  threaded := false
  pipeFailure n := s.pipeFailures.lookup n
  closeFailure n := s.closeFailures.lookup n
  descriptors := .consecutive firstDescriptor
  start n _ :=
    let b := s.processes[n]?.getD {}
    match b.refusal with
    | some f => .error f
    | none => .ok fun _ => b.toConduct

end Machine

end Pipework
