import LinkGraph.Conversion.Basic

namespace LinkGraph.Conversion

variable {σ : Type}

structure Found where
  link : LinkId
  document : Json

def askEntry (trigger : LinkId) (side : End) : Log.Entry :=
  ⟨"fetch", side.document ++ " document via " ++ side.name ++ " end of #" ++ toString trigger⟩

def Found.entry (depth : Nat) (d : Found) : Log.Entry :=
  ⟨"fetch", "#" ++ toString d.link ++ " = " ++ d.document.summary depth⟩

def Finds (access : Access σ) (trigger : LinkId) (side : End) (s : σ) (d : Found) (s' : σ) : Prop :=
  (access.fetch trigger side).run s = .ok (some ⟨d.link, some d.document⟩) s' ∧
    d.document.isNull = false

inductive Misses (access : Access σ) (trigger : LinkId) (side : End) (s : σ) :
    Error → σ → Prop where
  | refused {e : StoreError} {s' : σ} (h : (access.fetch trigger side).run s = .error e s') :
      Misses access trigger side s (.store e) s'
  | noEnd {s' : σ} (h : (access.fetch trigger side).run s = .ok none s') :
      Misses access trigger side s (.missingEnd side trigger) s'
  | noValue {link : LinkId} {value : Option Json} {s' : σ}
      (h : (access.fetch trigger side).run s = .ok (some ⟨link, value⟩) s')
      (hv : value = none ∨ value = some .null) :
      Misses access trigger side s (.missingValue side link) s'

inductive Fetched (access : Access σ) (trigger : LinkId) (side : End) (t : State σ) :
    EStateM.Result Error (State σ) Json → Prop where
  | found {d : Found} {s' : σ} (h : Finds access trigger side t.store d s') :
      Fetched access trigger side t
        (.ok d.document ⟨s',
          ⟨t.log.entries ++ [askEntry trigger side] ++ [d.entry t.log.depth], t.log.depth⟩⟩)
  | missed {e : Error} {s' : σ} (h : Misses access trigger side t.store e s') :
      Fetched access trigger side t
        (.error e ⟨s', ⟨t.log.entries ++ [askEntry trigger side], t.log.depth⟩⟩)

theorem run_call (cause : StoreError → Error) (f : EStateM StoreError σ α) (t : State σ) :
    (call cause f).run t =
      match f.run t.store with
      | .ok a s => .ok a { t with store := s }
      | .error e s => .error (cause e) { t with store := s } := rfl

theorem fetchDocument_fetched (access : Access σ) (trigger : LinkId) (side : End) (t : State σ) :
    Fetched access trigger side t ((fetchDocument access trigger side).run t) := by
  simp only [fetchDocument, EStateM.run_bind, note, EStateM.run_modify, run_call]
  cases hf : (access.fetch trigger side).run t.store with
  | error e s' => exact .missed (.refused hf)
  | ok found s' =>
      obtain _ | ⟨link, _ | value⟩ := found
      · exact .missed (.noEnd hf)
      · exact .missed (.noValue hf (.inl rfl))
      · cases value with
        | null => exact .missed (.noValue hf (.inr rfl))
        | bool | num | str | arr | obj => exact .found (d := ⟨link, _⟩) ⟨hf, rfl⟩

structure Input where
  source : Found
  configuration : Configuration
  dest : Found

namespace Input

def schema (i : Input) : Schema := Schema.ofJson i.dest.document

def settingEntry (c : Configuration) : Log.Entry := ⟨"config", c.describe⟩

def log (trigger : LinkId) (i : Input) : List Log.Entry :=
  [askEntry trigger .source, i.source.entry Log.defaultDepth, settingEntry i.configuration,
    askEntry trigger .dest, i.dest.entry i.configuration.depth]

end Input

structure Material extends Input where
  kinds : KindTable
  ids : List LinkId

namespace Material

def plan (m : Material) : Except PoolError Plan :=
  Plan.compile m.schema (.ofList m.ids) ⟨m.configuration.container, m.kinds⟩

def log (trigger : LinkId) (m : Material) : List Log.Entry :=
  m.toInput.log trigger ++
    [⟨"kinds", m.kinds.describe⟩, ⟨"estimate", toString m.schema.demand ++ " ids"⟩]

end Material

def planEntry (plan : Plan) : Log.Entry :=
  ⟨"compile", toString plan.batch.length ++ " operations, root " ++ rootText plan.root⟩

variable (access : Access σ) (scope : String) (trigger : LinkId)

def Reads (s : σ) (i : Input) (s' : σ) : Prop :=
  ∃ t, Finds access trigger .source s i.source t ∧
    Configuration.ofJson i.source.document = .ok i.configuration ∧
    Finds access trigger .dest t i.dest s'

def Gathers (s : σ) (m : Material) (s' : σ) : Prop :=
  ∃ t u, Reads access trigger s m.toInput t ∧
    (resolveKinds access scope).run t = .ok m.kinds u ∧
    (reserveIds access m.schema.demand).run u = .ok m.ids s'

def Applies (s : σ) (batch : Batch) (s' : σ) : Prop :=
  if batch.isEmpty then s' = s else (access.apply batch).run s = .ok () s'

/-- Every way in which a conversion may end, with its log up to there and the store after it. -/
inductive Course (s : σ) : Except Error Report → List Log.Entry → σ → Prop where
  | noSource {e : Error} {s' : σ} (h : Misses access trigger .source s e s') :
      Course s (.error e) [askEntry trigger .source] s'
  | noConfiguration {d : Found} {e : ConfigurationError} {s' : σ}
      (h : Finds access trigger .source s d s')
      (refused : Configuration.ofJson d.document = .error e) :
      Course s (.error (.configuration e))
        [askEntry trigger .source, d.entry Log.defaultDepth] s'
  | noDest {d : Found} {c : Configuration} {e : Error} {t s' : σ}
      (h : Finds access trigger .source s d t)
      (configured : Configuration.ofJson d.document = .ok c)
      (missed : Misses access trigger .dest t e s') :
      Course s (.error e)
        [askEntry trigger .source, d.entry Log.defaultDepth, Input.settingEntry c,
          askEntry trigger .dest] s'
  | noKinds {i : Input} {e : StoreError} {t s' : σ} (h : Reads access trigger s i t)
      (refused : (resolveKinds access scope).run t = .error e s') :
      Course s (.error (.store e)) (i.log trigger) s'
  | noIds {i : Input} {kinds : KindTable} {e : StoreError} {t u s' : σ}
      (h : Reads access trigger s i t) (resolved : (resolveKinds access scope).run t = .ok kinds u)
      (refused : (reserveIds access i.schema.demand).run u = .error e s') :
      Course s (.error (.store e)) (Material.log trigger ⟨i, kinds, []⟩) s'
  | noPlan {m : Material} {e : PoolError} {s' : σ} (h : Gathers access scope trigger s m s')
      (refused : m.plan = .error e) : Course s (.error (.pool e)) (m.log trigger) s'
  | noBatch {m : Material} {plan : Plan} {e : StoreError} {t s' : σ}
      (h : Gathers access scope trigger s m t) (compiled : m.plan = .ok plan)
      (nonempty : plan.batch.isEmpty = false)
      (refused : (access.apply plan.batch).run t = .error e s') :
      Course s (.error (.batch e)) (m.log trigger ++ [planEntry plan]) s'
  | done {m : Material} {plan : Plan} {t s' : σ} (h : Gathers access scope trigger s m t)
      (compiled : m.plan = .ok plan) (applied : Applies access t plan.batch s') :
      Course s
        (.ok ⟨plan.root, m.configuration.container, m.schema.demand, plan.batch.length⟩)
        (m.log trigger ++ [planEntry plan, ⟨"apply", "committed"⟩]) s'

theorem bind_eq_ok {ε α β : Type} {x : Except ε α} {f : α → Except ε β} {b : β} :
    (x >>= f) = .ok b ↔ ∃ a, x = .ok a ∧ f a = .ok b := by
  cases x with
  | error e => exact ⟨nofun, nofun⟩
  | ok a => exact ⟨fun h => ⟨a, rfl, h⟩, fun ⟨_, ha, h⟩ => Except.ok.inj ha ▸ h⟩

theorem run_lift {ε : Type} (cause : ε → Error) (x : Except ε α) (t : State σ) :
    (lift cause x).run t =
      match x with
      | .ok a => .ok a t
      | .error e => .error (cause e) t := by
  cases x <;> rfl

theorem run_readConfiguration (j : Json) (t : State σ) :
    (readConfiguration j).run t =
      match Configuration.ofJson j with
      | .ok c => .ok c ⟨t.store, ⟨t.log.entries ++ [Input.settingEntry c], c.depth⟩⟩
      | .error e => .error (.configuration e) t := by
  rw [readConfiguration]
  cases Configuration.ofJson j <;> rfl

def Ends (s : σ) : EStateM.Result Error (State σ) Report → Prop
  | .ok report t => Course access scope trigger s (.ok report) t.log.entries t.store
  | .error e t => Course access scope trigger s (.error e) t.log.entries t.store

def finish (configuration : Configuration) (schema : Schema) : Run σ Report := do
  let kinds ← call .store (resolveKinds access scope)
  note "kinds" kinds.describe
  let count := schema.demand
  note "estimate" (toString count ++ " ids")
  let ids ← call .store (reserveIds access count)
  let plan ← lift .pool (Plan.compile schema (.ofList ids) ⟨configuration.container, kinds⟩)
  note "compile" (toString plan.batch.length ++ " operations, root " ++ rootText plan.root)
  if !plan.batch.isEmpty then
    call .batch (access.apply plan.batch)
  note "apply" "committed"
  return ⟨plan.root, configuration.container, count, plan.batch.length⟩

theorem attempt_eq_finish :
    attempt access scope trigger = (do
      let configuration ← readConfiguration (← fetchDocument access trigger .source)
      let document ← fetchDocument access trigger .dest
      finish access scope configuration (Schema.ofJson document)) := rfl

theorem finish_ends {s t : σ} {i : Input} (hreads : Reads access trigger s i t) :
    Ends access scope trigger s
      ((finish access scope i.configuration i.schema).run
        ⟨t, ⟨i.log trigger, i.configuration.depth⟩⟩) := by
  rw [finish]
  simp only [EStateM.run_bind, run_call]
  cases hk : (resolveKinds access scope).run t with
  | error e u => exact .noKinds hreads hk
  | ok kinds u =>
      simp only [note, EStateM.run_modify]
      cases hi : (reserveIds access i.schema.demand).run u with
      | error e v => exact .noIds hreads hk hi
      | ok ids v =>
          have hgathers : Gathers access scope trigger s ⟨i, kinds, ids⟩ v := ⟨t, u, hreads, hk, hi⟩
          simp only [run_lift]
          cases hp : Plan.compile i.schema (.ofList ids) ⟨i.configuration.container, kinds⟩ with
          | error e => exact .noPlan (m := ⟨i, kinds, ids⟩) hgathers hp
          | ok plan =>
              dsimp only
              cases hempty : plan.batch.isEmpty with
              | true =>
                  refine .done (m := ⟨i, kinds, ids⟩) hgathers hp ?_
                  rw [Applies, if_pos hempty]
              | false =>
                  simp only [Bool.not_false, if_true, EStateM.run_bind, run_call]
                  cases ha : (access.apply plan.batch).run v with
                  | error e w => exact .noBatch (m := ⟨i, kinds, ids⟩) hgathers hp hempty ha
                  | ok _ w =>
                      refine .done (m := ⟨i, kinds, ids⟩) hgathers hp ?_
                      rw [Applies, hempty]
                      exact ha

theorem attempt_ends (s : σ) :
    Ends access scope trigger s
      ((attempt access scope trigger).run ⟨s, .start Log.defaultDepth⟩) := by
  have hsource := fetchDocument_fetched access trigger .source ⟨s, .start Log.defaultDepth⟩
  rw [attempt_eq_finish]
  simp only [EStateM.run_bind]
  generalize (fetchDocument access trigger .source).run ⟨s, .start Log.defaultDepth⟩ = r at hsource
  cases hsource with
  | missed h => exact .noSource h
  | @found d t hfinds =>
      simp only [run_readConfiguration]
      cases hc : Configuration.ofJson d.document with
      | error e => exact .noConfiguration hfinds hc
      | ok c =>
          dsimp only
          generalize hlog : Log.mk _ c.depth = log
          have hdest := fetchDocument_fetched access trigger .dest ⟨t, log⟩
          generalize (fetchDocument access trigger .dest).run ⟨t, log⟩ = r at hdest
          subst hlog
          cases hdest with
          | missed h => exact .noDest hfinds hc h
          | @found d' u hfinds' =>
              have hreads : Reads access trigger s ⟨d, c, d'⟩ u := ⟨t, hfinds, hc, hfinds'⟩
              exact finish_ends (i := ⟨d, c, d'⟩) access scope trigger hreads

def closingEntries : Except Error Report → List Log.Entry
  | .ok _ => []
  | .error e => [⟨"convert", "failed: " ++ e.message⟩]

theorem convert_course (s : σ) :
    ∃ log, Course access scope trigger s (convert access scope trigger s).1.result log
        (convert access scope trigger s).2 ∧
      (convert access scope trigger s).1.log =
        log ++ closingEntries (convert access scope trigger s).1.result := by
  have h := attempt_ends access scope trigger s
  rw [convert]
  cases hrun : (attempt access scope trigger).run ⟨s, .start Log.defaultDepth⟩ with
  | ok report t =>
      rw [hrun] at h
      exact ⟨_, h, (List.append_nil _).symm⟩
  | error e t =>
      rw [hrun] at h
      exact ⟨_, h, rfl⟩

end LinkGraph.Conversion
