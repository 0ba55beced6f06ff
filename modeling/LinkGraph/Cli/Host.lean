import LinkGraph.Store.Database

namespace LinkGraph.Cli

/-- What a command finds around it. Files, the engine that opens a database and the words in which
JSON is found at fault are no part of this library. -/
structure Host where
  stdin : Except String String
  read (path : String) : Except String String
  jsonFault (text : String) : String
  /-- The rows of a database, none when it is new. -/
  connect (name : String) : Except String Rows

def standardInput : String := "-"

def Host.input (host : Host) (path : String) : Except String String :=
  if path = standardInput then host.stdin else host.read path

def cannotRead (path why : String) : String :=
  "failed to read " ++ (if path = standardInput then "stdin" else path) ++ ": " ++ why

end LinkGraph.Cli
