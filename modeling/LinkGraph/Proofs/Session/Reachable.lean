import LinkGraph.Proofs.Session.Journal

namespace LinkGraph.Session

/-- The stores that clients of a session lead a new store to, by calls of any kind that succeed or
fail, and by closing and opening it. -/
inductive Reachable (session : Session) : Store → Prop where
  | fresh : Reachable session .fresh
  | run {s : Store} (h : Reachable session s) (call : Call) :
      Reachable session (session.run s call).2
  | reopen {s : Store} (h : Reachable session s) : Reachable session (session.reopen s)

theorem reopen_of_closed (session : Session) {s : Store} (h : s.Closed) :
    session.reopen s = if session.durable = true then s else .fresh := by
  rw [reopen, h.opened_rows]

variable {session : Session} {s t : Store}

theorem Reachable.closed (h : session.Reachable s) : s.Closed := by
  induction h with
  | fresh => exact Store.sound_fresh.toClosed
  | run _ call ih => exact (session.trail_run _ call).closed ih
  | reopen _ ih =>
      rw [session.reopen_of_closed ih]
      split
      · exact ih
      · exact Store.sound_fresh.toClosed

theorem Reachable.sound (h : session.Reachable s) (hs : s.Ahead) : s.Sound := ⟨h.closed, hs⟩

theorem Reachable.names (h : session.Reachable s) : s.names = Store.fresh.names := by
  induction h with
  | fresh => rfl
  | run _ call ih => exact (session.trail_run _ call).names.trans ih
  | reopen h ih =>
      rw [session.reopen_of_closed h.closed]
      split
      · exact ih
      · rfl

theorem Reachable.runAll (h : session.Reachable s) (calls : List Call) :
    session.Reachable (session.runAll s calls).2 := by
  induction calls generalizing s with
  | nil => exact h
  | cons call rest ih => exact ih (h.run call)

/-- The calls ask for fewer ids than there are before the next one comes round. -/
def HasRoom (session : Session) (s : Store) (calls : List Call) : Prop :=
  s.HasRoom (asked (session.journalAll s calls))

instance (session : Session) (s : Store) (calls : List Call) :
    Decidable (session.HasRoom s calls) := inferInstanceAs (Decidable (s.HasRoom _))

theorem HasRoom.head {call : Call} {calls : List Call} (h : session.HasRoom s (call :: calls)) :
    s.HasRoom (asked (session.journal s call)) := by
  rw [HasRoom, journalAll, asked_append] at h
  exact h.left

theorem HasRoom.tail {call : Call} {calls : List Call} (h : session.HasRoom s (call :: calls)) :
    session.HasRoom (session.run s call).2 calls := by
  rw [HasRoom, journalAll, asked_append] at h
  exact (session.trail_run s call).room h

theorem HasRoom.append {calls calls' : List Call} (h : session.HasRoom s (calls ++ calls')) :
    session.HasRoom s calls ∧ session.HasRoom (session.runAll s calls).2 calls' := by
  rw [HasRoom, journalAll_append, asked_append] at h
  exact ⟨h.left, (session.trail_runAll s calls).room h⟩

end LinkGraph.Session
