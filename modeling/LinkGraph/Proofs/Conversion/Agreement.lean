import LinkGraph.Conversion.Staging
import LinkGraph.Proofs.Conversion.Course

namespace LinkGraph

variable {σ τ ε α β : Type}

/-- Both runs end alike, with one answer or one fault, and in related states. -/
inductive Same (R : σ → τ → Prop) : EStateM.Result ε σ α → EStateM.Result ε τ α → Prop where
  | ok {a : α} {s : σ} {t : τ} (h : R s t) : Same R (.ok a s) (.ok a t)
  | error {e : ε} {s : σ} {t : τ} (h : R s t) : Same R (.error e s) (.error e t)

def Agree (R : σ → τ → Prop) (x : EStateM ε σ α) (y : EStateM ε τ α) : Prop :=
  ∀ s t, R s t → Same R (x.run s) (y.run t)

namespace Agree

variable {R : σ → τ → Prop} {x : EStateM ε σ α} {y : EStateM ε τ α}

theorem pure (a : α) : Agree R (Pure.pure a : EStateM ε σ α) (Pure.pure a) :=
  fun _ _ h => .ok h

theorem bind {f : α → EStateM ε σ β} {g : α → EStateM ε τ β} (hx : Agree R x y)
    (hf : ∀ a, Agree R (f a) (g a)) : Agree R (x >>= f) (y >>= g) := by
  intro s t h
  have hxy := hx s t h
  rw [EStateM.run_bind, EStateM.run_bind]
  generalize x.run s = r at hxy
  generalize y.run t = r' at hxy
  cases hxy with
  | error h => exact .error h
  | @ok a s' t' h => exact hf a s' t' h

end Agree

/-- The calls of a conversion do the same in related states. -/
structure Access.Agrees (a : Access σ) (b : Access τ) (R : σ → τ → Prop) : Prop where
  reserve : ∀ count, Agree R (a.reserve count) (b.reserve count)
  resolve : ∀ scope name, Agree R (a.resolve scope name) (b.resolve scope name)
  apply : ∀ batch, Agree R (a.apply batch) (b.apply batch)
  fetch : ∀ anchor side, Agree R (a.fetch anchor side) (b.fetch anchor side)

/-- What is called before the batch does the same in related states, and fetching does so for the
trigger at least. -/
structure Access.Matches (a : Access σ) (b : Access τ) (trigger : LinkId) (R : σ → τ → Prop) :
    Prop where
  reserve : ∀ count, Agree R (a.reserve count) (b.reserve count)
  resolve : ∀ scope name, Agree R (a.resolve scope name) (b.resolve scope name)
  fetch : ∀ side, Agree R (a.fetch trigger side) (b.fetch trigger side)

namespace Conversion

variable {R S : σ → τ → Prop} {a : Access σ} {b : Access τ} {trigger : LinkId} {scope : String}

def State.Related (R : σ → τ → Prop) (s : State σ) (t : State τ) : Prop :=
  R s.store t.store ∧ s.log = t.log

inductive FetchedAlike (R : σ → τ → Prop) (a : Access σ) (trigger : LinkId) (side : End) (s : σ) :
    EStateM.Result Error (State σ) Json → EStateM.Result Error (State τ) Json → Prop where
  | found {d : Found} {s' : σ} {t' : τ} {log : Log} (finds : Finds a trigger side s d s')
      (h : R s' t') : FetchedAlike R a trigger side s (.ok d.document ⟨s', log⟩)
        (.ok d.document ⟨t', log⟩)
  | missed {e : Error} {s' : σ} {t' : τ} {log : Log} (h : R s' t') :
      FetchedAlike R a trigger side s (.error e ⟨s', log⟩) (.error e ⟨t', log⟩)

theorem fetchDocument_alike {side : End} {s : σ} {t : τ}
    (h : Agree R (a.fetch trigger side) (b.fetch trigger side)) (hst : R s t) (log : Log) :
    FetchedAlike R a trigger side s ((fetchDocument a trigger side).run ⟨s, log⟩)
      ((fetchDocument b trigger side).run ⟨t, log⟩) := by
  have hfetch := h s t hst
  simp only [fetchDocument, EStateM.run_bind, note, EStateM.run_modify, run_call]
  generalize hf : (a.fetch trigger side).run s = r at hfetch
  generalize (b.fetch trigger side).run t = r' at hfetch
  cases hfetch with
  | error h => exact .missed h
  | @ok found _ _ h =>
      obtain _ | ⟨link, _ | value⟩ := found
      · exact .missed h
      · exact .missed h
      · cases value with
        | null => exact .missed h
        | bool | num | str | arr | obj => exact .found (d := ⟨link, _⟩) ⟨hf, rfl⟩ h

theorem agree_resolveKinds
    (h : ∀ scope name, Agree R (a.resolve scope name) (b.resolve scope name)) (scope : String) :
    Agree R (resolveKinds a scope) (resolveKinds b scope) := by
  iterate 7 refine Agree.bind (h _ _) fun _ => ?_
  exact Agree.pure _

theorem agree_reserveIds (h : ∀ count, Agree R (a.reserve count) (b.reserve count)) (count : Nat) :
    Agree R (reserveIds a count) (reserveIds b count) := by
  rw [reserveIds, reserveIds]
  by_cases hcount : count = 0
  · rw [if_pos hcount, if_pos hcount]
    exact Agree.pure []
  · rw [if_neg hcount, if_neg hcount]
    exact h count

section Batch

variable {s : σ} {t : τ} (h : a.Matches b trigger R) (hRS : ∀ s t, R s t → S s t)
  (happly : ∀ m plan s' t', Gathers a scope trigger s m s' → m.plan = .ok plan → R s' t' →
    Same S ((a.apply plan.batch).run s') ((b.apply plan.batch).run t'))
include h hRS happly

theorem same_finish {i : Input} {s₁ : σ} {t₁ : τ} (hreads : Reads a trigger s i s₁)
    (hst : R s₁ t₁) (log : Log) :
    Same (State.Related S) ((finish a scope i.configuration i.schema).run ⟨s₁, log⟩)
      ((finish b scope i.configuration i.schema).run ⟨t₁, log⟩) := by
  have hkinds := agree_resolveKinds h.resolve scope s₁ t₁ hst
  rw [finish, finish]
  simp only [EStateM.run_bind, run_call]
  generalize hk : (resolveKinds a scope).run s₁ = r at hkinds
  generalize (resolveKinds b scope).run t₁ = r' at hkinds
  cases hkinds with
  | error hst => exact .error ⟨hRS _ _ hst, rfl⟩
  | @ok kinds s₂ t₂ hst =>
      have hids := agree_reserveIds h.reserve i.schema.demand s₂ t₂ hst
      simp only [note, EStateM.run_modify]
      generalize hi : (reserveIds a i.schema.demand).run s₂ = r at hids
      generalize (reserveIds b i.schema.demand).run t₂ = r' at hids
      cases hids with
      | error hst => exact .error ⟨hRS _ _ hst, rfl⟩
      | @ok ids s₃ t₃ hst =>
          have hgathers : Gathers a scope trigger s ⟨i, kinds, ids⟩ s₃ :=
            ⟨s₁, s₂, hreads, hk, hi⟩
          simp only [run_lift]
          cases hp : Plan.compile i.schema (.ofList ids) ⟨i.configuration.container, kinds⟩ with
          | error e => exact .error ⟨hRS _ _ hst, rfl⟩
          | ok plan =>
              dsimp only
              cases plan.batch.isEmpty with
              | true => exact .ok ⟨hRS _ _ hst, rfl⟩
              | false =>
                  have happlied := happly _ plan s₃ t₃ hgathers hp hst
                  simp only [Bool.not_false, if_true, EStateM.run_bind, run_call]
                  generalize (a.apply plan.batch).run s₃ = r at happlied
                  generalize (b.apply plan.batch).run t₃ = r' at happlied
                  cases happlied with
                  | error hst => exact .error ⟨hst, rfl⟩
                  | ok hst => exact .ok ⟨hst, rfl⟩

theorem same_attempt (hst : R s t) :
    Same (State.Related S) ((attempt a scope trigger).run ⟨s, .start Log.defaultDepth⟩)
      ((attempt b scope trigger).run ⟨t, .start Log.defaultDepth⟩) := by
  have hsource := fetchDocument_alike (h.fetch .source) hst (.start Log.defaultDepth)
  rw [attempt_eq_finish, attempt_eq_finish]
  simp only [EStateM.run_bind]
  generalize (fetchDocument a trigger .source).run _ = r at hsource
  generalize (fetchDocument b trigger .source).run _ = r' at hsource
  cases hsource with
  | missed hst => exact .error ⟨hRS _ _ hst, rfl⟩
  | @found d s₁ t₁ log hfinds hst =>
      simp only [run_readConfiguration]
      cases hc : Configuration.ofJson d.document with
      | error e => exact .error ⟨hRS _ _ hst, rfl⟩
      | ok c =>
          have hdest := fetchDocument_alike (h.fetch .dest) hst
            ⟨log.entries ++ [Input.settingEntry c], c.depth⟩
          dsimp only
          generalize (fetchDocument a trigger .dest).run _ = r at hdest
          generalize (fetchDocument b trigger .dest).run _ = r' at hdest
          cases hdest with
          | missed hst => exact .error ⟨hRS _ _ hst, rfl⟩
          | @found d' s₂ t₂ log hfinds' hst =>
              have hreads : Reads a trigger s ⟨d, c, d'⟩ s₂ := ⟨s₁, hfinds, hc, hfinds'⟩
              exact same_finish h hRS happly hreads hst log

theorem same_convert (hst : R s t) :
    (convert a scope trigger s).1 = (convert b scope trigger t).1 ∧
      S (convert a scope trigger s).2 (convert b scope trigger t).2 := by
  have hattempt := same_attempt h hRS happly hst
  rw [convert, convert]
  generalize (attempt a scope trigger).run ⟨s, .start Log.defaultDepth⟩ = r at hattempt
  generalize (attempt b scope trigger).run ⟨t, .start Log.defaultDepth⟩ = r' at hattempt
  cases hattempt with
  | ok h => exact ⟨by simp only [h.2], h.1⟩
  | error h => exact ⟨by simp only [h.2], h.1⟩

end Batch

theorem agree_convert (h : a.Agrees b R) (scope : String) (trigger : LinkId) {s : σ} {t : τ}
    (hst : R s t) :
    (convert a scope trigger s).1 = (convert b scope trigger t).1 ∧
      R (convert a scope trigger s).2 (convert b scope trigger t).2 := by
  have hmatches : a.Matches b trigger R := ⟨h.reserve, h.resolve, h.fetch trigger⟩
  exact same_convert hmatches (fun _ _ hst => hst)
    (fun _ plan s' t' _ _ hst => h.apply plan.batch s' t' hst) hst

def containerFor (access : Access σ) (type : LinkId) : Option LinkId → EStateM StoreError σ LinkId
  | some id => pure id
  | none => access.insertLink ⟨type, none, none⟩

def attach (access : Access σ) (type : LinkId) (value : Json) : EStateM StoreError σ LinkId := do
  let id ← access.insertLink ⟨type, none, none⟩
  access.setDocument id value
  return id

def stageIn (access : Access σ) (type : LinkId) (schema : Json) (container : LinkId) :
    EStateM StoreError σ Staged := do
  let configurationLink ← attach access type (Configuration.document container)
  let schemaLink ← attach access type schema
  let trigger ← access.insertLink ⟨type, some configurationLink, some schemaLink⟩
  return ⟨trigger, configurationLink, schemaLink, container⟩

theorem stage_eq_stageIn (access : Access σ) (scope : String) (schema : Json)
    (container : Option LinkId) :
    stage access scope schema container = (do
      let type ← access.resolve scope Kind.type.name
      let container ← containerFor access type container
      stageIn access type schema container) := by
  simp only [stageIn, attach, bind_assoc, pure_bind]
  cases container <;> rfl

/-- What goes through a sequence of programs, and holds of the calls of a staging, holds of it. -/
theorem stage_related {P : ∀ {α : Type}, EStateM StoreError σ α → EStateM StoreError τ α → Prop}
    (pure : ∀ {α : Type} (x : α), P (Pure.pure x) (Pure.pure x))
    (bind : ∀ {α β : Type} {x : EStateM StoreError σ α} {y : EStateM StoreError τ α}
      {f : α → EStateM StoreError σ β} {g : α → EStateM StoreError τ β},
      P x y → (∀ x, P (f x) (g x)) → P (x >>= f) (y >>= g))
    (resolve : ∀ scope name, P (a.resolve scope name) (b.resolve scope name))
    (insertLink : ∀ node, P (a.insertLink node) (b.insertLink node))
    (attaching : ∀ type value, P (attach a type value) (attach b type value))
    (scope : String) (schema : Json) (container : Option LinkId) :
    P (stage a scope schema container) (stage b scope schema container) := by
  rw [stage_eq_stageIn, stage_eq_stageIn]
  refine bind (resolve _ _) fun type => ?_
  have hcontainer : P (containerFor a type container) (containerFor b type container) := by
    cases container with
    | some id => exact pure id
    | none => exact insertLink _
  refine bind hcontainer fun container => ?_
  refine bind (attaching _ _) fun configurationLink => ?_
  refine bind (attaching _ _) fun schemaLink => ?_
  exact bind (insertLink _) fun trigger => pure _

theorem agree_stage
    (hresolve : ∀ scope name, Agree R (a.resolve scope name) (b.resolve scope name))
    (hinsert : ∀ node, Agree R (a.insertLink node) (b.insertLink node))
    (hset : ∀ id value, Agree R (a.setDocument id value) (b.setDocument id value)) :
    ∀ scope schema container,
      Agree R (stage a scope schema container) (stage b scope schema container) := by
  refine stage_related Agree.pure Agree.bind hresolve hinsert fun type value => ?_
  exact Agree.bind (hinsert _) fun id => Agree.bind (hset id value) fun _ => Agree.pure id

end Conversion

end LinkGraph
