import Pipework.Line.Segment
import Pipework.Pipeline

/-!
# Pipelines on a line

A pipeline is written on a line with pipes between its stages. The first word of each stage is its
program. The first flaw on the line, from the left, is the one that is reported; only a quote that
is left open comes before all others.

## Main definitions

* `Line.segmentTexts` — the parts of a line between pipes
* `Line.tokenize`, `Line.parseCommand` — the words of a line that holds one command, and the
  command
* `Line.parse` — the pipeline that a line holds
-/

namespace Pipework.Line

/-- The parts of a line between pipes, as they stand there. -/
def segmentTexts (line : String) : Except Flaw (List String) :=
  return (← scan line).map (·.source)

/-- The stage that words make: the first one is the program, which must not be empty. -/
def stageOfWords (index : Nat) : List String → Except Flaw Stage
  | [] => .error (.noCommand index)
  | program :: args =>
    if program.isEmpty then .error (.emptyProgram index) else .ok { program, args }

/-- The stage that a line without pipes holds. -/
def parseStage (line : String) : Except Flaw Stage := do
  match ← scan line with
  | [] => .error (.noCommand 0)
  | [segment] => stageOfWords 0 segment.words
  | first :: _ => .error (.strayPipe first.stop)

/-- The words of a line without pipes. -/
def tokenize (line : String) : Except Flaw (List String) := return (← parseStage line).argv

/-- The command that a line without pipes holds. -/
def parseCommand (line : String) : Except Flaw Command := return .ofStage (← parseStage line)

/-- The stage of one segment among several. A segment without words points at the pipe before
it, or after it if it is the first. -/
def segmentStage (index : Nat) (s : Segment) : Except Flaw Stage :=
  if s.words.isEmpty then
    .error (.emptySegment index (if index == 0 then s.stop else s.start - 1))
  else stageOfWords index s.words

/-- The stages of segments, the first of which has the given index. -/
def segmentStages (index : Nat) : List Segment → Except Flaw (List Stage)
  | [] => .ok []
  | s :: rest => return (← segmentStage index s) :: (← segmentStages (index + 1) rest)

/-- The pipeline that a line holds. -/
def parse (line : String) : Except Flaw Pipeline := do
  match ← scan line with
  | [segment] => return { stages := [← stageOfWords 0 segment.words] }
  | segments => return { stages := ← segmentStages 0 segments }

end Pipework.Line
