import LinkGraph.Json.Reread
import LinkGraph.Store.Basic

namespace LinkGraph.Store.Database

/-- A number as a row holds it: of its 64 bits one is the sign. -/
def toRow (n : Nat) : Int := if n < LinkId.bound / 2 then n else n - LinkId.bound

def ofRow (n : Int) : LinkId := (n % LinkId.bound).toNat

def moveSequence (s : Store) (count : Nat) : Store :=
  -- Were the sum no number of 64 bits with a sign, the ids up to it would fit no memory.
  { s with nextId := ofRow (toRow s.nextId + toRow count) }

def reserve (s : Store) (count : Nat) : Except StoreError (List LinkId × Store) :=
  if count = 0 then .error (.rejected "cannot reserve zero ids")
  else
    let last := (s.nextId + count) % LinkId.bound
    .ok (List.range' s.nextId (last - s.nextId), moveSequence s count)

def resolve (s : Store) (scope name : String) : Except StoreError LinkId :=
  match s.names.find? fun row => row.1.scope = scope && row.1.name = name with
  | some row => .ok row.2
  | none => .error (.notFound (scope ++ "/" ++ name))

def joined (s : Store) (anchor : LinkId) (side : End) : Option (LinkId × Option Json) := do
  let anchor ← s.links[anchor]?
  let target ← s.links[← anchor.follow side]?
  return (target.id, s.documents[target.id]?)

/-- Documents are kept as texts, and a text that is nested too deep is not read. -/
def fetch (s : Store) (anchor : LinkId) (side : End) : Except StoreError (Option Document) :=
  match joined s anchor side with
  | none => .ok none
  | some (link, none) => .ok (some ⟨link, none⟩)
  | some (link, some text) =>
      match text.readBack with
      | .ok value => .ok (some ⟨link, some value⟩)
      | .error why => .error (.internal ("JSON error: " ++ why))

def insertLink (s : Store) (node : Node) : Except StoreError (LinkId × Store) :=
  match node.references.find? fun id => !s.hasLink id with
  | some id => .error (.rejected ("unknown id " ++ toString id))
  | none =>
      if s.hasLink s.nextId then .error (.internal "UNIQUE constraint failed: links.id")
      else .ok (s.nextId, (moveSequence s 1).putLink ⟨node, s.nextId⟩)

def upsert (m : Std.ExtTreeMap LinkId Json) (id : LinkId) (value : Json) :
    Std.ExtTreeMap LinkId Json :=
  if m.contains id then m.modify id fun _ => value else m.insertIfNew id value

def setDocument (s : Store) (id : LinkId) (value : Json) : Except StoreError Store :=
  if s.hasLink id then .ok { s with documents := upsert s.documents id value }
  else .error (.notFound ("link " ++ toString id))

end LinkGraph.Store.Database

namespace LinkGraph

/-- What a database file holds: the rows of a store, and the row of the sequence if there is one. -/
structure Rows where
  links : Std.ExtTreeMap LinkId Link := ∅
  strings : Std.ExtTreeMap LinkId String := ∅
  documents : Std.ExtTreeMap LinkId Json := ∅
  names : List (Name × LinkId) := []
  sequence : Option LinkId := none

namespace Rows

def addKind (rows : Rows) (kind : Kind) : Rows :=
  let id := KindTable.core.get kind
  let name : Name := ⟨coreScope, kind.name⟩
  { rows with
    links := rows.links.insertIfNew id ⟨⟨KindTable.core.type, none, none⟩, id⟩
    names := if (rows.names.lookup name).isSome then rows.names else rows.names ++ [(name, id)] }

def addSequence (rows : Rows) : Rows :=
  { rows with sequence := rows.sequence.or (some (Kind.all.length + 1)) }

/-- The core vocabulary is added with every opening. -/
def bootstrap (rows : Rows) : Rows := (Kind.all.foldl addKind rows).addSequence

end Rows

namespace Store

def rows (s : Store) : Rows :=
  ⟨s.links, s.strings, s.documents, s.names, some s.nextId⟩

def opened (rows : Rows) : Store :=
  let rows := rows.bootstrap
  ⟨rows.links, rows.strings, rows.documents, rows.names, rows.sequence.getD 0⟩

end Store

end LinkGraph
