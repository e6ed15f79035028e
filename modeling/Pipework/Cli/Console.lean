import Pipework.Host.World
import Pipework.Text.Utf8

/-!
# The console

A console is where a command line tool runs: its standard output and error output collect
what is written, and the world is where it runs pipelines. Notes go to the error output as
they are taken: all of them if the console is verbose, else only warnings, as their bare text.

## Main definitions

* `Console` — outputs and world
* `Console.print`, `Console.complain` — writing text
* `Console.perform` — an action on the world, its notes shown
-/

namespace Pipework.Cli

/-- The outputs of a tool, and the world it runs in. -/
structure Console where
  world : World
  verbose : Bool := false
  stdout : Bytes := []
  stderr : Bytes := []

namespace Console

/-- Writes bytes to the standard output. -/
def write (c : Console) (bs : Bytes) : Console := { c with stdout := c.stdout ++ bs }

/-- Writes bytes to the error output. -/
def writeError (c : Console) (bs : Bytes) : Console := { c with stderr := c.stderr ++ bs }

/-- Writes text to the standard output. -/
def print (c : Console) (s : String) : Console := c.write (Text.Utf8.encode s)

/-- Writes text to the error output. -/
def complain (c : Console) (s : String) : Console := c.writeError (Text.Utf8.encode s)

/-- Shows a note, if the console is verbose or the note is a warning. -/
def showNote (c : Console) (n : Note) : Console :=
  if c.verbose then c.complain (n.render " - " ++ "\n")
  else
    match n.level with
    | .warning => c.complain (n.message ++ "\n")
    | .debug => c

/-- Takes a note and shows it. -/
def note (c : Console) (n : Note) : Console :=
  { c with world := c.world.takeNote n }.showNote n

/-- Acts on the world and shows the notes that are taken. -/
def perform {ε α : Type} (c : Console) (a : Action World ε α) : Except ε α × Console :=
  let (outcome, world) := a.outcome c.world
  (outcome, (world.notes.drop c.world.notes.length).foldl showNote { c with world })

end Console

end Pipework.Cli
