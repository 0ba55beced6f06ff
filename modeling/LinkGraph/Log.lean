import LinkGraph.Json.Summary

namespace LinkGraph

structure Log.Entry where
  scope : String
  message : String
  deriving DecidableEq, Repr

def Log.Entry.text (e : Log.Entry) : String := e.scope ++ ": " ++ e.message

/-- What happened, in order, and down to which level documents are shown. -/
structure Log where
  entries : List Log.Entry
  depth : Nat
  deriving DecidableEq, Repr

namespace Log

def defaultDepth : Nat := 3

def start (depth : Nat) : Log := ⟨[], depth⟩

def add (log : Log) (scope message : String) : Log :=
  { log with entries := log.entries ++ [⟨scope, message⟩] }

def withDepth (log : Log) (depth : Nat) : Log := { log with depth }

def summary (log : Log) (j : Json) : String := j.summary log.depth

def texts (log : Log) : List String := log.entries.map (·.text)

end Log

end LinkGraph
