import LinkGraph.Proofs.Cli.Reopening
import LinkGraph.Proofs.Conversion.Commit
import LinkGraph.Proofs.Conversion.Staged

namespace LinkGraph.Cli.Convert

namespace Command

/-- The document of a command is read and staged, on links that are typed in its scope. -/
inductive Stages (command : Command) (path : String) (container : Option LinkId)
    (host : Host) (s : Store) : Conversion.Staged → Store → Prop where
  | staged {schema : Json} {type : LinkId} {staged : Conversion.Staged} {s' : Store}
      (read : readDocument host path = .ok schema)
      (typed : s.resolve command.backend command.scope Kind.type.name = .ok type)
      (contained : staged.container = container.getD s.nextId)
      (extended : s.Extends (staged.events type schema container) s') :
      Stages command path container host s staged s'

/-- Whether a command is in want of its document, or of the type that it stages one with. -/
def Refuses (command : Command) (host : Host) (s : Store) : Prop :=
  ∃ path, command.action.path? = some path ∧
    ((∀ schema, readDocument host path ≠ .ok schema) ∨
      ∀ type, s.resolve command.backend command.scope Kind.type.name ≠ .ok type)

/-- How a command ends on an open store: its exit status, and what it leaves of the store. -/
inductive Ends (command : Command) (host : Host) (s : Store) :
    Nat → Store → Prop where
  | refused (refuses : command.Refuses host s) : Ends command host s 2 s
  | failed {trigger : LinkId} {s' : Store} (action : command.action = .run trigger)
      (unwritten : s.Unwritten s') : Ends command host s 1 s'
  | committed {trigger : LinkId} {s' : Store} (action : command.action = .run trigger)
      (commits : Conversion.Commits command.backend command.scope trigger s s') :
      Ends command host s 0 s'
  | seeded {path : String} {container : Option LinkId} {staged : Conversion.Staged} {s' : Store}
      (action : command.action = .seed path container)
      (stages : command.Stages path container host s staged s') : Ends command host s 0 s'
  | stagedOnly {path : String} {container : Option LinkId} {staged : Conversion.Staged}
      {s' : Store} (action : command.action = .convert path container)
      (stages : command.Stages path container host s staged s') : Ends command host s 1 s'
  | converted {path : String} {container : Option LinkId} {staged : Conversion.Staged}
      {t s' : Store} (action : command.action = .convert path container)
      (stages : command.Stages path container host s staged t)
      (commits : Conversion.Commits command.backend command.scope staged.trigger t s') :
      Ends command host s 0 s'

end Command

variable {session : Session} {command : Command} {host : Host} {s s' : Store} {path : String}
  {container : Option LinkId} {staged : Conversion.Staged}

theorem Command.Stages.unwritten (h : command.Stages path container host s staged s')
    {t : Store} (ht : s'.Unwritten t) : command.Stages path container host s staged t := by
  obtain ⟨read, typed, contained, extended⟩ := h
  exact .staged read typed contained (extended.unwritten ht)

end LinkGraph.Cli.Convert
