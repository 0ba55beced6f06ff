import LinkGraph.Json.Read
import LinkGraph.Json.Text
import LinkGraph.Store.Database

namespace LinkGraph.Rows

open Json

def linkJson (l : Link) : Json :=
  .arr [.ofNat l.id, .ofNat l.kind, .ofOption .ofNat l.source, .ofOption .ofNat l.dest]

def entriesJson (f : α → Json) (m : Std.ExtTreeMap LinkId α) : Json :=
  .arr (m.toList.map fun (id, a) => .arr [.ofNat id, f a])

mutual

/-- A document that spells every double by its bits, as a marked string, so that it comes back
exactly. Other strings have a mark of their own. -/
def spelled : Json → Json
  | .null => .null
  | .bool b => .bool b
  | .num (.int n fits) => .num (.int n fits)
  | .num (.double x) => .str ("#" ++ toString x.toBits.toNat)
  | .str s => .str ("=" ++ s)
  | .arr items => .arr (spelledItems items)
  | .obj members => .obj (spelledMembers members)

def spelledItems : List Json → List Json
  | [] => []
  | j :: rest => spelled j :: spelledItems rest

def spelledMembers : List (String × Json) → List (String × Json)
  | [] => []
  | (k, j) :: rest => (k, spelled j) :: spelledMembers rest

end

def readMarked? (s : String) : Option Json :=
  match s.toList with
  | '#' :: digits =>
      (String.ofList digits).toNat?.map fun n => .num (.double (Float.ofBits (UInt64.ofNat n)))
  | '=' :: rest => some (.str (String.ofList rest))
  | _ => none

mutual

def readSpelled? : Json → Option Json
  | .null => some .null
  | .bool b => some (.bool b)
  | .num n => some (.num n)
  | .str s => readMarked? s
  | .arr items => .arr <$> readSpelledItems? items
  | .obj members => .obj <$> readSpelledMembers? members

def readSpelledItems? : List Json → Option (List Json)
  | [] => some []
  | j :: rest => do return (← readSpelled? j) :: (← readSpelledItems? rest)

def readSpelledMembers? : List (String × Json) → Option (List (String × Json))
  | [] => some []
  | (k, j) :: rest => do return (k, ← readSpelled? j) :: (← readSpelledMembers? rest)

end

/-- All rows as one document. Attached documents are kept as texts, so that they may nest as deep as
any. -/
def toJson (rows : Rows) : Json :=
  .obj [("sequence", .ofOption .ofNat rows.sequence), ("links", entriesJson linkJson rows.links),
    ("strings", entriesJson .str rows.strings),
    ("documents", entriesJson (fun j => .str (spelled j).compact) rows.documents),
    ("names", .arr (rows.names.map fun (name, id) =>
      .arr [.str name.scope, .str name.name, .ofNat id]))]

def readNat? : Json → Option Nat
  | .num (.int n _) => if 0 ≤ n then some n.toNat else none
  | _ => none

def readId? : Json → Option (Option LinkId)
  | .null => some none
  | j => some <$> readNat? j

def readLink? : Json → Option Link
  | .arr [id, kind, source, dest] => do
      return ⟨⟨← readNat? kind, ← readId? source, ← readId? dest⟩, ← readNat? id⟩
  | _ => none

def readDocument? (j : Json) : Option Json := do readSpelled? (← read? (← j.asString?))

def readEntries? (f : Json → Option α) : Option Json → Option (Std.ExtTreeMap LinkId α)
  | some (.arr items) =>
      items.foldlM (fun m j =>
        match j with
        | .arr [id, a] => do return m.insert (← readNat? id) (← f a)
        | _ => none) ∅
  | _ => none

def readName? : Json → Option (Name × LinkId)
  | .arr [.str scope, .str name, id] => do return (⟨scope, name⟩, ← readNat? id)
  | _ => none

def readNames? : Option Json → Option (List (Name × LinkId))
  | some (.arr items) => items.mapM readName?
  | _ => none

def ofJson? (j : Json) : Option Rows := do
  let sequence ← readId? (← j.get? "sequence")
  let links ← readEntries? readLink? (j.get? "links")
  let strings ← readEntries? asString? (j.get? "strings")
  let documents ← readEntries? readDocument? (j.get? "documents")
  let names ← readNames? (j.get? "names")
  return { links, strings, documents, names, sequence }

end LinkGraph.Rows
