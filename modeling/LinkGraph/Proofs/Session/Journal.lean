import LinkGraph.Proofs.Session.Moves
import LinkGraph.Proofs.Store.Trail
import LinkGraph.Session

namespace LinkGraph

structure Traced (σ : Type) where
  store : σ
  events : List Event

variable {σ ε α : Type}

def noting (events : α → List Event) (call : EStateM ε σ α) : EStateM ε (Traced σ) α := fun t =>
  match call.run t.store with
  | .ok a s => .ok a ⟨s, t.events ++ events a⟩
  | .error e s => .error e { t with store := s }

theorem run_noting (events : α → List Event) (call : EStateM ε σ α) (t : Traced σ) :
    (noting events call).run t =
      match call.run t.store with
      | .ok a s => .ok a ⟨s, t.events ++ events a⟩
      | .error e s => .error e ⟨s, t.events⟩ := rfl

/-- The same calls, on a store beside which all events are noted. -/
def Access.traced (access : Access σ) : Access (Traced σ) where
  reserve count := noting (fun ids => [.reserved count ids]) (access.reserve count)
  resolve scope name := noting (fun _ => []) (access.resolve scope name)
  apply batch := noting (fun _ => [.applied batch]) (access.apply batch)
  fetch anchor side := noting (fun _ => []) (access.fetch anchor side)
  insertLink node := noting (fun id => [.inserted id node]) (access.insertLink node)
  setDocument id value := noting (fun _ => [.documented id value]) (access.setDocument id value)

def Traced.Shows (t : Traced σ) (s : σ) : Prop := t.store = s

theorem agree_noting (events : α → List Event) (call : EStateM ε σ α) :
    Agree Traced.Shows (noting events call) call := by
  rintro ⟨s, es⟩ _ rfl
  rw [EStateM.run, noting]
  dsimp only
  cases call.run s with
  | ok a s' => exact .ok rfl
  | error e s' => exact .error rfl

theorem Access.traced_agrees (access : Access σ) : access.traced.Agrees access Traced.Shows where
  reserve _ := agree_noting _ _
  resolve _ _ := agree_noting _ _
  apply _ := agree_noting _ _
  fetch _ _ := agree_noting _ _

/-- The events noted on the way account for how the store has changed. -/
def Traced.Follows (t t' : Traced Store) : Prop :=
  ∃ es, t'.events = t.events ++ es ∧ Store.Trail t.store es t'.store

theorem Traced.follows_refl (t : Traced Store) : t.Follows t :=
  ⟨[], (List.append_nil _).symm, .nil _⟩

theorem Traced.follows_trans ⦃t u v : Traced Store⦄ (h : t.Follows u) (h' : u.Follows v) :
    t.Follows v := by
  obtain ⟨es, hes, htrail⟩ := h
  obtain ⟨es', hes', htrail'⟩ := h'
  refine ⟨es ++ es', ?_, htrail.append htrail'⟩
  rw [hes', hes, List.append_assoc]

theorem leads_noting_view (f : Store → Except StoreError α) :
    Leads Traced.Follows (noting (fun _ => []) (Access.ofView f)) := by
  intro t
  rw [EStateM.run, noting, EStateM.run, Access.ofView]
  cases f t.store with
  | ok a => exact ⟨[], rfl, .nil _⟩
  | error e => exact t.follows_refl

theorem leads_noting_change (event : α → Event) {f : Store → Except StoreError (α × Store)}
    (h : ∀ s a s', f s = .ok (a, s') → Store.Step s (event a) s') :
    Leads Traced.Follows (noting (fun a => [event a]) (Access.ofChange f)) := by
  intro t
  rw [EStateM.run, noting, EStateM.run, Access.ofChange]
  cases hf : f t.store with
  | ok p => exact ⟨_, rfl, (h t.store p.1 p.2 hf).trail⟩
  | error e => exact t.follows_refl

theorem map_unit_eq_ok {x : Except StoreError Store} {u : Unit} {s : Store}
    (h : x.map ((), ·) = .ok (u, s)) : x = .ok s := by
  cases x with
  | error e => cases h
  | ok t => cases h; rfl

theorem Store.traced_moves (backend : Backend) :
    (Store.access backend).traced.Moves Traced.Follows where
  refl := Traced.follows_refl
  trans := Traced.follows_trans
  reserve count := leads_noting_change (.reserved count) fun _ _ _ h => step_reserve h
  resolve _ _ := leads_noting_view _
  apply batch :=
    leads_noting_change (f := fun s => (s.apply backend batch).map ((), ·))
      (fun _ => .applied batch) fun _ _ _ h => step_apply (map_unit_eq_ok h)
  fetch _ _ := leads_noting_view _
  insertLink node := leads_noting_change (.inserted · node) fun _ _ _ h => step_insertLink h
  setDocument id value :=
    leads_noting_change (f := fun s => (s.setDocument backend id value).map ((), ·))
      (fun _ => .documented id value) fun _ _ _ h => step_setDocument (map_unit_eq_ok h)

namespace Session

def eventsOf (x : EStateM ε (Traced Store) α) (s : Store) : List Event :=
  (ending (x.run ⟨s, []⟩)).events

def journal (session : Session) (s : Store) (call : Call) : List Event :=
  let access := session.access.traced
  match call with
  | .reserve count => eventsOf (access.reserve count) s
  | .resolve scope name => eventsOf (access.resolve scope name) s
  | .resolveAll scope => eventsOf (Conversion.resolveKinds access scope) s
  | .apply batch => eventsOf (access.apply batch) s
  | .fetch anchor side => eventsOf (access.fetch anchor side) s
  | .insertLink node => eventsOf (access.insertLink node) s
  | .setDocument id value => eventsOf (access.setDocument id value) s
  | .link _ | .string _ | .linksOfKind _ | .count => []
  | .stage scope schema container => eventsOf (Conversion.stage access scope schema container) s
  | .convert scope trigger => (Conversion.convert access scope trigger ⟨s, []⟩).2.events

def journalAll (session : Session) (s : Store) : List Call → List Event
  | [] => []
  | call :: rest => session.journal s call ++ session.journalAll (session.run s call).2 rest

theorem eventsOf_noting {events : α → List Event} {call : EStateM StoreError Store α}
    {f : α → Answer} {s : Store} {a : Answer} (h : (answer f call s).1 = a)
    (hdone : ∀ e, a ≠ .failed e) : ∃ x, f x = a ∧ eventsOf (noting events call) s = events x := by
  rw [answer] at h
  rw [eventsOf, EStateM.run, noting]
  cases hrun : call.run s with
  | ok x t =>
      rw [hrun] at h
      exact ⟨x, h, rfl⟩
  | error e t =>
      rw [hrun] at h
      exact absurd h.symm (hdone e)

theorem journal_reserve {session : Session} {s : Store} {count : Nat} {ids : List LinkId}
    (h : (session.run s (.reserve count)).1 = .ids ids) :
    session.journal s (.reserve count) = [.reserved count ids] := by
  obtain ⟨_, ⟨⟩, hevents⟩ := eventsOf_noting h fun _ => nofun
  exact hevents

theorem journal_insertLink {session : Session} {s : Store} {node : Node} {id : LinkId}
    (h : (session.run s (.insertLink node)).1 = .id id) :
    session.journal s (.insertLink node) = [.inserted id node] := by
  obtain ⟨_, ⟨⟩, hevents⟩ := eventsOf_noting h fun _ => nofun
  exact hevents

theorem answer_snd (f : α → Answer) (call : EStateM StoreError Store α) (s : Store) :
    (answer f call s).2 = ending (call.run s) := by
  rw [answer]
  cases call.run s <;> rfl

theorem trail_answer {x : EStateM StoreError (Traced Store) α} {y : EStateM StoreError Store α}
    {f : α → Answer} (hx : Leads Traced.Follows x) (hxy : Agree Traced.Shows x y) (s : Store) :
    Store.Trail s (eventsOf x s) (answer f y s).2 := by
  obtain ⟨es, hes, htrail⟩ := hx ⟨s, []⟩
  have hstore : (ending (x.run ⟨s, []⟩)).store = ending (y.run s) := by
    have hsame := hxy ⟨s, []⟩ s rfl
    generalize x.run ⟨s, []⟩ = r at hsame
    generalize y.run s = r' at hsame
    cases hsame with
    | ok h => exact h
    | error h => exact h
  rw [hstore] at htrail
  rw [answer_snd, eventsOf, hes]
  exact htrail

theorem trail_run (session : Session) (s : Store) (call : Call) :
    Store.Trail s (session.journal s call) (session.run s call).2 := by
  have hmoves : session.access.traced.Moves Traced.Follows := Store.traced_moves session.backend
  have hagrees := session.access.traced_agrees
  cases call with
  | reserve count => exact trail_answer (hmoves.reserve count) (hagrees.reserve count) s
  | resolve scope name =>
      exact trail_answer (hmoves.resolve scope name) (hagrees.resolve scope name) s
  | resolveAll scope =>
      exact trail_answer (Conversion.leads_resolveKinds hmoves.prepares scope)
        (Conversion.agree_resolveKinds hagrees.resolve scope) s
  | apply batch => exact trail_answer (hmoves.apply batch) (hagrees.apply batch) s
  | fetch anchor side =>
      exact trail_answer (hmoves.fetch anchor side) (hagrees.fetch anchor side) s
  | insertLink node => exact trail_answer (hmoves.insertLink node) (agree_noting _ _) s
  | setDocument id value => exact trail_answer (hmoves.setDocument id value) (agree_noting _ _) s
  | link | string | linksOfKind | count => exact .nil s
  | stage scope schema container =>
      refine trail_answer (Conversion.leads_stage hmoves scope schema container) ?_ s
      exact Conversion.agree_stage hagrees.resolve (fun _ => agree_noting _ _)
        (fun _ _ => agree_noting _ _) scope schema container
  | convert scope trigger =>
      obtain ⟨es, hes, htrail⟩ := Conversion.moved_convert hmoves.prepares scope trigger ⟨s, []⟩
        fun _ _ _ _ _ => hmoves.apply _ _
      have hstore : (Conversion.convert session.access.traced scope trigger ⟨s, []⟩).2.store =
          (Conversion.convert session.access scope trigger s).2 :=
        (Conversion.agree_convert hagrees scope trigger rfl).2
      rw [hstore] at htrail
      rw [journal, hes]
      exact htrail

theorem journalAll_append (session : Session) (s : Store) (calls calls' : List Call) :
    session.journalAll s (calls ++ calls') =
      session.journalAll s calls ++ session.journalAll (session.runAll s calls).2 calls' := by
  induction calls generalizing s with
  | nil => rfl
  | cons call rest ih =>
      rw [List.cons_append, journalAll, ih, ← List.append_assoc]
      rfl

theorem trail_runAll (session : Session) (s : Store) (calls : List Call) :
    Store.Trail s (session.journalAll s calls) (session.runAll s calls).2 := by
  induction calls generalizing s with
  | nil => exact .nil s
  | cons call rest ih => exact (session.trail_run s call).append (ih _)

end Session

end LinkGraph
