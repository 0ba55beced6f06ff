import LinkGraph.Proofs.Conversion.Effect
import LinkGraph.Proofs.Session.Reachable
import LinkGraph.Proofs.Store.Growth

namespace LinkGraph

namespace Store

variable {s t : Store}

theorem access_resolve_eq (backend : Backend) (scope name : String) :
    (access backend).resolve scope name = (access .memory).resolve scope name := by
  simp only [access, resolve_eq]

theorem access_setDocument_eq (backend : Backend) (id : LinkId) (value : Json) :
    (access backend).setDocument id value = (access .memory).setDocument id value := by
  simp only [access, setDocument_eq]

theorem insertLink_memory_eq (hs : s.Ahead) {node : Node}
    (hroom : ∀ id t, s.insertLink .database node = .ok (id, t) → s.HasRoom 1) :
    s.insertLink .memory node = s.insertLink .database node := by
  have hfree := hs.fresh_nextId (Nat.le_refl _)
  cases hfind : node.references.find? fun id => !s.hasLink id with
  | some x => rw [insertLink_of_unknown hfind, insertLink_of_unknown hfind]
  | none =>
      have known : ∀ x ∈ node.references, s.hasLink x = true := by simpa using hfind
      have hinsert : s.insertLink .database node =
          .ok (s.nextId, (Database.moveSequence s 1).putLink ⟨node, s.nextId⟩) := by
        rw [insertLink, Database.insertLink, hfind, hfree]
        rfl
      have hone := hroom _ _ hinsert
      rw [insertLink_of_room hone hfree known, insertLink_of_room hone hfree known]

end Store

/-- What a program does on a database, it does in memory as well, and the same comes of it, as long
as the ids that it is given on the way do not come round. -/
structure Carries (x : EStateM StoreError (Traced Store) α) (y : EStateM StoreError Store α) :
    Prop where
  follows : Leads Traced.Follows x
  same : ∀ (t : Traced Store) (es : List Event), t.store.Sound →
    (ending (x.run t)).events = t.events ++ es → t.store.HasRoom (asked es) →
    Same Traced.Shows (x.run t) (y.run t.store)

namespace Carries

theorem pure (a : α) : Carries (Pure.pure a) (Pure.pure a) where
  follows := Leads.pure Traced.follows_refl a
  same _ _ _ _ _ := .ok rfl

theorem bind {x : EStateM StoreError (Traced Store) α} {y : EStateM StoreError Store α}
    {f : α → EStateM StoreError (Traced Store) β} {g : α → EStateM StoreError Store β}
    (hx : Carries x y) (hf : ∀ a, Carries (f a) (g a)) : Carries (x >>= f) (y >>= g) where
  follows := Leads.bind Traced.follows_trans hx.follows fun a => (hf a).follows
  same := by
    intro t es ht hes hroom
    obtain ⟨es₁, hes₁, htrail⟩ := hx.follows t
    have hfirst := hx.same t es₁ ht hes₁
    rw [EStateM.run_bind] at hes ⊢
    rw [EStateM.run_bind]
    generalize x.run t = r at hes hes₁ htrail hfirst ⊢
    cases r with
    | error e t₁ =>
        obtain rfl : es₁ = es := List.append_cancel_left (hes₁.symm.trans hes)
        have hsame := hfirst hroom
        generalize y.run t.store = r' at hsame
        cases hsame
        exact .error ‹_›
    | ok a t₁ =>
        obtain ⟨es₂, hes₂, -⟩ := (hf a).follows t₁
        have happend : es = es₁ ++ es₂ := by
          refine List.append_cancel_left (hes.symm.trans (hes₂.trans ?_))
          rw [← List.append_assoc]
          exact congrArg (· ++ es₂) hes₁
        rw [happend, asked_append] at hroom
        have hsame := hfirst hroom.left
        generalize y.run t.store = r' at hsame
        cases hsame with
        | ok hshows =>
            cases hshows
            exact (hf a).same t₁ es₂ (htrail.sound ht hroom.left) hes₂ (htrail.room hroom)

theorem of_agree {x : EStateM StoreError (Traced Store) α} {y : EStateM StoreError Store α}
    (follows : Leads Traced.Follows x) (h : Agree Traced.Shows x y) : Carries x y :=
  ⟨follows, fun t _ _ _ _ => h t t.store rfl⟩

theorem insertLink (node : Node) :
    Carries ((Store.access .database).traced.insertLink node)
      ((Store.access .memory).insertLink node) where
  follows := (Store.traced_moves .database).insertLink node
  same := by
    intro t es ht hes hroom
    have hinsert : t.store.insertLink .memory node = t.store.insertLink .database node := by
      refine Store.insertLink_memory_eq ht.ahead fun id s hrun => ?_
      rw [Access.traced, run_noting, Store.access, Access.run_ofChange, hrun] at hes
      obtain rfl : [.inserted id node] = es := List.append_cancel_left hes
      exact hroom
    have hcall : ((Store.access .memory).insertLink node).run t.store =
        ((Store.access .database).insertLink node).run t.store := by
      rw [Store.access, Store.access, Access.run_ofChange, Access.run_ofChange, hinsert]
    rw [hcall]
    exact agree_noting _ _ t t.store rfl

theorem stage (scope : String) (schema : Json) (container : Option LinkId) :
    Carries (Conversion.stage (Store.access .database).traced scope schema container)
      (Conversion.stage (Store.access .memory) scope schema container) := by
  have hmoves := Store.traced_moves .database
  have hresolve (scope name : String) : Carries ((Store.access .database).traced.resolve scope name)
      ((Store.access .memory).resolve scope name) := by
    rw [← Store.access_resolve_eq .database]
    exact of_agree (hmoves.resolve scope name) (agree_noting _ _)
  have hset (id : LinkId) (value : Json) :
      Carries ((Store.access .database).traced.setDocument id value)
        ((Store.access .memory).setDocument id value) := by
    rw [← Store.access_setDocument_eq .database]
    exact of_agree (hmoves.setDocument id value) (agree_noting _ _)
  refine Conversion.stage_related pure bind hresolve insertLink (fun type value => ?_)
    scope schema container
  exact bind (insertLink _) fun id => bind (hset id value) fun _ => pure id

end Carries

namespace Session

variable {s : Store}

def documents (session : Session) (calls : List Call) : List Json :=
  (session.journalAll .fresh calls).filterMap Event.document?

end Session

end LinkGraph
