import LinkGraph.Conversion.Basic
import LinkGraph.Conversion.Staging

namespace LinkGraph.Conversion

def Report.toJson (r : Report) : Json :=
  .obj [("rootLinkId", .ofOption .ofNat r.root), ("containerLinkId", .ofNat r.container),
    ("reserved", .ofNat r.reserved), ("operations", .ofNat r.operations)]

def logJson (log : List Log.Entry) : Json := .arr (log.map fun e => .str e.text)

def Outcome.toJson (o : Outcome) : Json :=
  match o.result with
  | .ok report => .obj [("result", report.toJson), ("logs", logJson o.log)]
  | .error e => .obj [("error", .str e.message), ("code", .str e.code), ("logs", logJson o.log)]

def Staged.toJson (s : Staged) : Json :=
  .obj [("triggerLinkId", .ofNat s.trigger), ("configLinkId", .ofNat s.configuration),
    ("schemaLinkId", .ofNat s.schema), ("containerLinkId", .ofNat s.container)]

end LinkGraph.Conversion
