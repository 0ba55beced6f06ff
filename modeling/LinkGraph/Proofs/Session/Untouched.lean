import LinkGraph.Proofs.Session.Acceptance
import LinkGraph.Proofs.Session.Reachable

namespace LinkGraph

/-- The ids whose links or documents an event may write. -/
def Event.touched : Event → List LinkId
  | .reserved _ _ => []
  | .inserted id _ => [id]
  | .applied batch => batch.inserted
  | .documented id _ => [id]

def touchedBy (es : List Event) : List LinkId := es.flatMap Event.touched

@[simp] theorem touchedBy_append (es es' : List Event) :
    touchedBy (es ++ es') = touchedBy es ++ touchedBy es' := List.flatMap_append

namespace Store

variable {s t : Store} {e : Event} {es : List Event} {id : LinkId}

theorem Written.links_of_notMem {batch : Batch} (h : Written s batch t)
    (hid : id ∉ batch.inserted) : t.links[id]? = s.links[id]? := by
  refine Option.ext fun l => (h.links id l).trans (or_iff_left fun hmem => ?_)
  exact hid (Batch.mem_inserted.mpr ⟨_, hmem.2⟩)

theorem Step.untouched (h : Step s e t) (hid : id ∉ e.touched) :
    t.links[id]? = s.links[id]? ∧ t.documents[id]? = s.documents[id]? := by
  cases h with
  | reserved count => exact ⟨rfl, rfl⟩
  | inserted known =>
      have hne : s.nextId ≠ id := Ne.symm (List.ne_of_not_mem_cons hid)
      exact ⟨by simp [putLink, advance, Std.ExtTreeMap.getElem?_insert, hne], rfl⟩
  | applied written => exact ⟨written.links_of_notMem hid, by rw [written.documents]⟩
  | @documented target known value =>
      have hne : target ≠ id := Ne.symm (List.ne_of_not_mem_cons hid)
      exact ⟨rfl, by simp [putDocument, Std.ExtTreeMap.getElem?_insert, hne]⟩

theorem Trail.untouched (h : Trail s es t) (hid : id ∉ touchedBy es) :
    t.links[id]? = s.links[id]? ∧ t.documents[id]? = s.documents[id]? := by
  induction h with
  | nil => exact ⟨rfl, rfl⟩
  | cons step _ ih =>
      rw [touchedBy, List.flatMap_cons, List.mem_append, not_or] at hid
      obtain ⟨hlink, hdocument⟩ := step.untouched hid.1
      obtain ⟨hlink', hdocument'⟩ := ih hid.2
      exact ⟨hlink'.trans hlink, hdocument'.trans hdocument⟩

end Store

namespace Traced

variable {σ : Type}

/-- What has been written since stands on ids that have been given out by the end. -/
def Owned (t t' : Traced σ) : Prop :=
  ∃ es, t'.events = t.events ++ es ∧ ∀ id ∈ touchedBy es, id ∈ givenBy t'.events

theorem owned_refl (t : Traced σ) : t.Owned t := ⟨[], (List.append_nil _).symm, nofun⟩

theorem owned_trans ⦃t u v : Traced σ⦄ (h : t.Owned u) (h' : u.Owned v) : t.Owned v := by
  obtain ⟨es, hes, howned⟩ := h
  obtain ⟨es', hes', howned'⟩ := h'
  refine ⟨es ++ es', by rw [hes', hes, List.append_assoc], fun id hid => ?_⟩
  rw [touchedBy_append, List.mem_append] at hid
  rcases hid with hid | hid
  · rw [hes', givenBy_append]
    exact List.mem_append_left _ (howned id hid)
  · exact howned' id hid

theorem leads_owned {ε α : Type} {events : α → List Event} {call : EStateM ε σ α}
    (h : ∀ a, touchedBy (events a) ⊆ givenBy (events a)) : Leads Owned (noting events call) := by
  intro t
  rw [run_noting]
  cases call.run t.store with
  | error e s => exact owned_refl t
  | ok a s =>
      refine ⟨events a, rfl, fun id hid => ?_⟩
      dsimp only [ending]
      rw [givenBy_append]
      exact List.mem_append_right _ (h a hid)

theorem prepares_owned (access : Access σ) : access.traced.Prepares Owned where
  refl := owned_refl
  trans := owned_trans
  reserve _ := leads_owned fun _ => List.nil_subset _
  resolve _ _ := leads_owned fun _ => List.nil_subset _
  fetch _ _ := leads_owned fun _ => List.nil_subset _

end Traced

namespace Conversion

variable {σ : Type} (access : Access σ)

theorem owned_attach (type : LinkId) (value : Json) :
    Leads Traced.Owned (attach access.traced type value) := by
  intro t
  simp only [attach, EStateM.run_bind, Access.traced, run_noting]
  cases (access.insertLink ⟨type, none, none⟩).run t.store with
  | error e s => exact t.owned_refl
  | ok id s =>
      dsimp only
      cases (access.setDocument id value).run s with
      | error e s' =>
          refine ⟨[.inserted id ⟨type, none, none⟩], rfl, fun x hx => ?_⟩
          exact List.mem_flatMap.mpr ⟨_, List.mem_append_right _ List.mem_cons_self, hx⟩
      | ok a s' =>
          refine ⟨[.inserted id ⟨type, none, none⟩, .documented id value],
            List.append_assoc _ _ _, fun x hx => ?_⟩
          obtain rfl : x = id := by simpa [touchedBy, Event.touched] using hx
          simp [givenBy, ending, EStateM.run, pure, EStateM.pure, Event.given]

theorem owned_stage (scope : String) (schema : Json) (container : Option LinkId) :
    Leads Traced.Owned (stage access.traced scope schema container) :=
  leads_stage_attaching Traced.owned_refl Traced.owned_trans
    (Traced.prepares_owned access).resolve
    (fun _ => Traced.leads_owned fun _ => List.Subset.refl _) (owned_attach access)
    scope schema container

theorem given_of_reserveIds {count : Nat} {t u : Traced σ} {ids : List LinkId}
    (h : (reserveIds access.traced count).run t = .ok ids u) : ids ⊆ givenBy u.events := by
  rw [reserveIds] at h
  split at h
  · cases h
    exact List.nil_subset _
  · rw [Access.traced, run_noting] at h
    cases hrun : (access.reserve count).run t.store with
    | error e s => rw [hrun] at h; cases h
    | ok ids' s =>
        rw [hrun] at h
        cases h
        intro id hid
        exact List.mem_flatMap.mpr ⟨_, List.mem_append_right _ List.mem_cons_self, hid⟩

/-- A conversion inserts only ids that it has reserved itself. -/
theorem owned_convert (scope : String) (trigger : LinkId) (t : Traced σ) :
    t.Owned (convert access.traced scope trigger t).2 := by
  refine moved_convert (Traced.prepares_owned access) scope trigger t ?_
  intro m plan u hgathers hplan
  obtain ⟨_, _, -, -, hi⟩ := hgathers
  have hgiven := given_of_reserveIds access hi
  have hcompiled : Plan.Compiled m.schema m.ids ⟨m.configuration.container, m.kinds⟩ m.plan :=
    Plan.compile_compiled _ _ _
  rw [hplan] at hcompiled
  cases hcompiled with
  | @done f entities drawn =>
      rw [Access.traced, run_noting]
      cases (access.apply _).run u.store with
      | error e s => exact u.owned_refl
      | ok a s =>
          refine ⟨[.applied _], rfl, fun id hid => ?_⟩
          have hmem : id ∈ m.ids := by
            rw [← List.mem_reverse, ← drawn, ← f.inserted_batch _ none]
            simpa [touchedBy, Event.touched] using hid
          dsimp only [ending]
          rw [givenBy_append]
          exact List.mem_append_left _ (hgiven hmem)

end Conversion

namespace Session

variable {session : Session} {s : Store} {id : LinkId}

theorem owned_eventsOf {ε α : Type} {x : EStateM ε (Traced Store) α} (h : Leads Traced.Owned x)
    (s : Store) : touchedBy (eventsOf x s) ⊆ givenBy (eventsOf x s) := by
  obtain ⟨es, hes, howned⟩ := h ⟨s, []⟩
  rw [List.nil_append] at hes
  intro id hid
  rw [eventsOf, hes] at hid
  exact howned id hid

theorem touched_journal (session : Session) (s : Store) (call : Call)
    (hbatch : ∀ batch, call ≠ .apply batch) (hdocument : ∀ id value, call ≠ .setDocument id value) :
    touchedBy (session.journal s call) ⊆ givenBy (session.journal s call) := by
  have hprepares := Traced.prepares_owned session.access
  cases call with
  | apply batch => exact absurd rfl (hbatch batch)
  | setDocument id value => exact absurd rfl (hdocument id value)
  | reserve count => exact owned_eventsOf (hprepares.reserve count) s
  | resolve scope name => exact owned_eventsOf (hprepares.resolve scope name) s
  | resolveAll scope => exact owned_eventsOf (Conversion.leads_resolveKinds hprepares scope) s
  | fetch anchor side => exact owned_eventsOf (hprepares.fetch anchor side) s
  | insertLink node => exact owned_eventsOf (Traced.leads_owned fun _ => List.Subset.refl _) s
  | link | string | linksOfKind | count => exact List.nil_subset _
  | stage scope schema container =>
      exact owned_eventsOf (Conversion.owned_stage _ scope schema container) s
  | convert scope trigger =>
      obtain ⟨es, hes, howned⟩ := Conversion.owned_convert session.access scope trigger ⟨s, []⟩
      rw [List.nil_append] at hes
      intro id hid
      rw [journal, hes] at hid
      exact howned id hid

theorem nextId_le_run {call : Call} (hroom : s.HasRoom (asked (session.journal s call))) :
    s.nextId ≤ (session.run s call).2.nextId := by
  rw [(session.trail_run s call).nextId hroom]
  exact Nat.le_add_right _ _

theorem untouched_run {call : Call} (hid : id < s.nextId)
    (hroom : s.HasRoom (asked (session.journal s call)))
    (hbatch : ∀ batch, call ≠ .apply batch) (hdocument : ∀ id value, call ≠ .setDocument id value) :
    (session.run s call).2.links[id]? = s.links[id]? ∧
      (session.run s call).2.documents[id]? = s.documents[id]? := by
  have htrail := session.trail_run s call
  refine htrail.untouched fun hmem => ?_
  have hgiven := session.touched_journal s call hbatch hdocument hmem
  rw [htrail.given hroom, List.mem_range'_1] at hgiven
  exact Nat.not_lt.mpr hgiven.1 hid

theorem documents_run {call : Call} (hid : id < s.nextId)
    (hroom : s.HasRoom (asked (session.journal s call)))
    (hdocument : ∀ value, call ≠ .setDocument id value) :
    (session.run s call).2.documents[id]? = s.documents[id]? := by
  cases call with
  | apply batch =>
      rw [run_apply]
      cases happly : s.apply session.backend batch with
      | error e => rfl
      | ok t => exact congrArg (·[id]?) (Store.apply_eq_ok_iff_written.mp happly).documents
  | setDocument target value =>
      have hne : target ≠ id := fun heq => hdocument value (heq ▸ rfl)
      rw [run_setDocument]
      cases hset : s.setDocument session.backend target value with
      | error e => rfl
      | ok t =>
          rw [(Store.setDocument_eq_ok hset).2]
          simp [Store.putDocument, Std.ExtTreeMap.getElem?_insert, hne]
  | _ => exact (untouched_run hid hroom (by simp) (by simp)).2

theorem documents_runAll {calls : List Call} (hroom : session.HasRoom s calls)
    (hcalls : ∀ value, .setDocument id value ∉ calls) (hid : id < s.nextId) :
    (session.runAll s calls).2.documents[id]? = s.documents[id]? := by
  induction calls generalizing s with
  | nil => rfl
  | cons call rest ih =>
      have hrest := ih hroom.tail (fun value hmem => hcalls value (List.mem_cons_of_mem _ hmem))
        (Nat.lt_of_lt_of_le hid (nextId_le_run hroom.head))
      refine hrest.trans (documents_run hid hroom.head ?_)
      rintro value rfl
      exact hcalls value List.mem_cons_self

end Session

end LinkGraph
