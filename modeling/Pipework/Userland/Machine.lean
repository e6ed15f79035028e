import Pipework.Host.Machine
import Pipework.Userland.Shell

/-!
# The machine of small tools

A machine whose processes are the small tools of this library. Programs are found by their
name or by a path; what cannot be found or run is refused the way a system does.

## Main definitions

* `startable` — the program that is started, or why none is
* `streamOf` — what a process writes, as its reader finds it
* `conductOf` — what a process does
* `machine` — the machine
-/

namespace Pipework.Userland

open Text (Utf8.encode)

/-- The refusal to start a program, with the number and the words that the system has for it. -/
def refuse (kind : Fault.Kind) (number : Nat) (words program : String) : Fault :=
  ⟨kind, "[Errno " ++ toString number ++ "] " ++ words ++ ": " ++ Text.literal program⟩

/-- There is no such program. -/
def notFound (program : String) : Fault := refuse .notFound 2 "No such file or directory" program

/-- It is no program. -/
def notPermitted (program : String) : Fault := refuse .notPermitted 13 "Permission denied" program

/-- The longest name that a file can have, in bytes. -/
def longestName : Nat := 255

/-- The longest argument that a program can be given, in bytes. -/
def longestArgument : Nat := 131071

/-- The program that a name or a path leads to. A name is looked for where programs are. -/
def locate (program : String) : Except Fault String :=
  let names := program.splitOn "/"
  if names.any fun name => name.utf8ByteSize > longestName then
    .error (refuse .system 36 "File name too long" program)
  else if names.length == 1 then
    if programNames.contains program then .ok program
    else if program == "." || program == ".." then .error (notPermitted program)
    else .error (notFound program)
  else
    match find programNames program with
    | .program name => .ok name
    | .missing => .error (notFound program)
    | .notDirectory => .error (refuse .notDirectory 20 "Not a directory" program)
    | _ => .error (notPermitted program)

/-- The program that is started with an argument list. No argument may hold a zero byte. -/
def startable (argv : List String) : Except Fault String := do
  if argv.any fun arg => arg.toList.contains '\x00' then throw ⟨.invalid, "embedded null byte"⟩
  let program := argv.headD ""
  let name ← locate program
  if argv.any fun arg => arg.utf8ByteSize > longestArgument then
    throw (refuse .system 7 "Argument list too long" program)
  return name

/-- How deep shells run shells at most. -/
def shellDepth : Nat := 64

/-- The bytes that memory has addresses for, of 47 bits. -/
def addressable : Nat := 0x800000000000

/-- A stream of bytes for a reader that asks for so many of them at a time. If memory cannot hold
that many, then every read fails before it looks at the stream. -/
def streamOf (request : Nat) (bs : Bytes) : Stream :=
  if addressable ≤ request then { failure := some ⟨.noMemory, ""⟩ }
  else { chunks := if bs.isEmpty then [] else [bs] }

/-- What a process does that runs a program with the bytes of its input, towards readers that ask
for so many bytes at a time. -/
def conductOf (request number : Nat) (name : String) (argv : List String) (input : Bytes) :
    Conduct :=
  let (y, _) := runProgram shellDepth (4000 + 100 * number) name argv.tail input
  { returnCode := y.code, piped := y.stdout,
    stdout := streamOf request y.stdout, stderr := streamOf request y.stderr }

/-- The machine whose processes are small tools, and whose readers are threads that ask for so many
bytes at a time. Pipes are always to be had, and closing never fails. -/
def machine (request : Nat) : Machine where
  threaded := true
  pipeFailure _ := none
  closeFailure _ := none
  descriptors := .consecutive Machine.firstDescriptor
  start number argv := do return conductOf request number (← startable argv) argv

end Pipework.Userland
