import Pipework.Main
import Pipework.Session.Run
import Pipework.Proofs.Line.Grammar
import Pipework.Proofs.Line.Reading
import Pipework.Proofs.Line.Recognition
import Pipework.Proofs.Line.EntryPoints
import Pipework.Proofs.Line.RoundTrip
import Pipework.Proofs.Host.Draining
import Pipework.Proofs.Run.Launch
import Pipework.Proofs.Run.Wiring
import Pipework.Proofs.Run.Ledger
import Pipework.Proofs.Run.Release
import Pipework.Proofs.Run.Progress
import Pipework.Proofs.Run.Confinement
import Pipework.Proofs.Run.Reaping
import Pipework.Proofs.Run.Abandon
import Pipework.Proofs.Run.Leaks
import Pipework.Proofs.Run.Refusal
import Pipework.Proofs.Session.Replies
import Pipework.Proofs.Session.Descriptors
import Pipework.Proofs.Run.Capture
import Pipework.Proofs.Run.Bystanders
import Pipework.Proofs.Session.Footprint
import Pipework.Proofs.Session.Hearing
import Pipework.Proofs.Session.Independence
import Pipework.Proofs.Line.Embedding
import Pipework.Proofs.Cli.Exec
import Pipework.Proofs.Cli.Shell
import Pipework.Proofs.Builder.Runnable
import Pipework.Proofs.Line.FirstFlaw
import Pipework.Proofs.Run.Chunking
import Pipework.Proofs.Run.Policy
import Pipework.Proofs.Run.Holding
import Pipework.Proofs.Run.Streams
import Pipework.Proofs.Run.Recapture
import Pipework.Proofs.Line.Rows
import Pipework.Proofs.Cli.Listing
import Pipework.Proofs.Builder.Composition
