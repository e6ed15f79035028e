import Pipework.Cli.Run
import Pipework.Userland.Machine

/-!
# The command line tool

The tool runs pipelines of the small programs of this library. Its input is read to the end
before it begins, and only by the interactive command.
-/

namespace Pipework.Cli

/-- Reads all bytes of a stream, after those that were read already. -/
partial def readAll (stream : IO.FS.Stream) (done : ByteArray) : IO ByteArray := do
  let block ← stream.read 65536
  if block.isEmpty then return done else readAll stream (done ++ block)

/-- The input that the command line asks for: none, unless the command is interactive. -/
def readInput (words : List String) : IO Input := do
  match Invocation.ofWords words with
  | .ok (.shell _) => return .ofBytes (← readAll (← IO.getStdin) .empty).toList
  | _ => return { lines := [], failure := none }

end Pipework.Cli

open Pipework

/-- Runs the tool with the words of the command line. -/
def main (words : List String) : IO UInt32 := do
  let start : World := { machine := Userland.machine ({} : Executor).chunkSize }
  let (ending, console) := Cli.run words (← Cli.readInput words) { world := start }
  (← IO.getStdout).write console.stdout.toByteArray
  (← IO.getStderr).write console.stderr.toByteArray
  match ending with
  | .ok code => return (code % 256).toNat.toUInt32
  | .error failure => do
    (← IO.getStderr).putStrLn failure.message
    return 1
