import LinkGraph.Json.Basic
import LinkGraph.Kind.Basic
import Std.Data.ExtTreeMap

namespace LinkGraph

structure Name where
  scope : String
  name : String
  deriving DecidableEq, Repr

/-- Links with the texts and documents attached to them. -/
structure Store where
  links : Std.ExtTreeMap LinkId Link
  strings : Std.ExtTreeMap LinkId String
  documents : Std.ExtTreeMap LinkId Json
  names : List (Name × LinkId)
  nextId : LinkId

/-- Why a store refuses a call. The last three hold any text, for stores of another make. -/
inductive StoreError where
  | notFound (what : String)
  | conflict (what : String)
  | rejected (why : String)
  | internal (why : String)
  deriving DecidableEq, Repr

def StoreError.message : StoreError → String
  | .notFound what => "not found: " ++ what
  | .conflict what => "conflict: " ++ what
  | .rejected why => "rejected: " ++ why
  | .internal why => "internal storage error: " ++ why

def coreScope : String := "@deep-foundation/core"

structure Document where
  link : LinkId
  value : Option Json

namespace Store

def empty : Store := ⟨∅, ∅, ∅, [], 1⟩

def hasLink (s : Store) (id : LinkId) : Bool := s.links.contains id

def link? (s : Store) (id : LinkId) : Option Link := s.links[id]?

def string? (s : Store) (id : LinkId) : Option String := s.strings[id]?

def document? (s : Store) (id : LinkId) : Option Json := s.documents[id]?

def allLinks (s : Store) : List Link := s.links.toList.map (·.2)

def linksOfKind (s : Store) (kind : LinkId) : List Link :=
  s.allLinks.filter (·.kind = kind)

def size (s : Store) : Nat := s.links.size

def putLink (s : Store) (l : Link) : Store := { s with links := s.links.insert l.id l }

def putString (s : Store) (id : LinkId) (value : String) : Store :=
  { s with strings := s.strings.insert id value }

def putDocument (s : Store) (id : LinkId) (value : Json) : Store :=
  { s with documents := s.documents.insert id value }

/-- Moves the next id on. It has 64 bits, so that it comes round in the end. -/
def advance (s : Store) (count : Nat) : Store :=
  { s with nextId := (s.nextId + count) % LinkId.bound }

/-- The ids up to where the next id moves, none when it comes round. -/
def idsAhead (s : Store) (count : Nat) : List LinkId :=
  List.range' s.nextId ((s.advance count).nextId - s.nextId)

def allocate (s : Store) (count : Nat) : List LinkId × Store := (s.idsAhead count, s.advance count)

def addKind (s : Store) (kind : Kind) : Store :=
  match s.allocate 1 with
  | ([], s) => s
  | (id :: _, s) =>
      { s.putLink ⟨⟨KindTable.core.type, none, none⟩, id⟩ with
        names := s.names ++ [(⟨coreScope, kind.name⟩, id)] }

/-- A new store: the core vocabulary, whose ids count as handed out. -/
def fresh : Store := Kind.all.foldl addKind empty

end Store

end LinkGraph
