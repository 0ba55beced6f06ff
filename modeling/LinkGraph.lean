import LinkGraph.Main
import LinkGraph.Proofs.Batch.Foremost
import LinkGraph.Proofs.Cli.Exit
import LinkGraph.Proofs.Cli.Reopening
import LinkGraph.Proofs.Conversion.Format
import LinkGraph.Proofs.Conversion.Inputs
import LinkGraph.Proofs.Conversion.Line
import LinkGraph.Proofs.Conversion.Reserved
import LinkGraph.Proofs.Conversion.Stages
import LinkGraph.Proofs.Operation.Wire
import LinkGraph.Proofs.Plan.Annotation
import LinkGraph.Proofs.Plan.Injective
import LinkGraph.Proofs.Plan.Names
import LinkGraph.Proofs.Plan.Renaming
import LinkGraph.Proofs.Plan.Root
import LinkGraph.Proofs.Plan.Text
import LinkGraph.Proofs.Schema.Edits
import LinkGraph.Proofs.Session.Arrangement
import LinkGraph.Proofs.Session.Backends
import LinkGraph.Proofs.Session.Given
import LinkGraph.Proofs.Session.Integrity
import LinkGraph.Proofs.Session.Partition
import LinkGraph.Proofs.Session.Pending
import LinkGraph.Proofs.Session.Ranking
import LinkGraph.Proofs.Session.Reopening
import LinkGraph.Proofs.Session.Staged
import LinkGraph.Proofs.Store.Alike
