import LinkGraph.Proofs.Conversion.Effect
import LinkGraph.Proofs.Session.Untouched
import LinkGraph.Proofs.Store.Growth

namespace LinkGraph.Session

theorem grows_runAll {session : Session} {s : Store} (hs : s.Ahead) {calls : List Call}
    (hroom : session.HasRoom s calls) :
    Store.Grows s (session.journalAll s calls) (session.runAll s calls).2 :=
  (session.trail_runAll s calls).grows hs hroom

end LinkGraph.Session
