import LinkGraph.Cli.Convert
import LinkGraph.Proofs.Session.Reopening

namespace LinkGraph

namespace Cli.Convert

variable {host : Host} {path : String} {container : Option LinkId} {s : Store}

end Cli.Convert

end LinkGraph
