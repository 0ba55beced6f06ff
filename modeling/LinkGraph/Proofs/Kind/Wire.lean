import LinkGraph.Kind.Wire
import LinkGraph.Proofs.Json.Natural
import LinkGraph.Proofs.Json.Rebuilt

namespace LinkGraph

open Json

theorem Kind.ofField?_field (kind : Kind) : Kind.ofField? kind.field = some kind := by
  cases kind <;> rfl

namespace KindTable

variable {table : KindTable}

def Sized (table : KindTable) : Prop := ∀ kind, table.get kind < 18446744073709551616

theorem whole_toJson (h : table.Sized) : table.toJson.Whole := by
  refine .obj fun m hm => ?_
  obtain ⟨kind, -, rfl⟩ := List.mem_map.mp hm
  exact whole_ofNat (h kind)

theorem idOf_toDraft (j : Json) : idOf j.toDraft = shaped j.head.id := by
  rw [idOf, head_toDraft]
  rfl

theorem idOf_ofNat {id : LinkId} (h : id < 18446744073709551616) :
    idOf (Json.ofNat id).toDraft = .ok id := by
  rw [idOf_toDraft, id_head_ofNat h]
  rfl

def pairs (table : KindTable) (kinds : List Kind) : List (Kind × LinkId) :=
  kinds.map fun kind => (kind, table.get kind)

theorem ofMembers_memberDrafts (h : table.Sized) {kinds : List Kind} (hnodup : kinds.Nodup)
    {done : List (Kind × LinkId)} (hnew : ∀ kind ∈ kinds, done.lookup kind = none) :
    ofMembers done (memberDrafts (kinds.map fun kind => (kind.field, .ofNat (table.get kind)))) =
      .ok ((table.pairs kinds).reverse ++ done) := by
  induction kinds generalizing done with
  | nil => rfl
  | cons kind kinds ih =>
      obtain ⟨hfirst, hnodup⟩ := List.nodup_cons.mp hnodup
      obtain ⟨hkind, hnew⟩ := List.forall_mem_cons.mp hnew
      have hstill : ∀ other ∈ kinds, ((kind, table.get kind) :: done).lookup other = none := by
        intro other hother
        have hne : other ≠ kind := by
          rintro rfl
          exact hfirst hother
        rw [List.lookup_cons, beq_eq_false_iff_ne.mpr hne]
        exact hnew other hother
      rw [List.map_cons, memberDrafts, ofMembers, Kind.ofField?_field]
      simp only [hkind, idOf_ofNat (h kind)]
      refine (ih hnodup hstill).trans ?_
      simp [pairs]

theorem ofPairs_pairs (table : KindTable) : ofPairs (table.pairs Kind.all).reverse = .ok table := by
  have hlookup (kind : Kind) :
      (table.pairs Kind.all).reverse.lookup kind = some (table.get kind) := by
    cases kind <;> rfl
  simp only [ofPairs, hlookup]
  rfl

theorem ofDraft_toJson (h : table.Sized) : ofDraft table.toJson.toDraft = .ok table := by
  have hnodup : Kind.all.Nodup := by decide
  have hmembers : ofMembers [] (memberDrafts
      (Kind.all.map fun kind => (kind.field, .ofNat (table.get kind)))) =
      .ok (table.pairs Kind.all).reverse := by
    rw [ofMembers_memberDrafts h hnodup (by simp), List.append_nil]
  have hshaped : shaped (ofPairs (table.pairs Kind.all).reverse) = .ok table := by
    rw [ofPairs_pairs]
    rfl
  rw [toJson, toDraft, ofDraft, hmembers]
  exact hshaped

theorem ofText_of_draft (h : table.Sized) {text : String}
    (htext : draft text = (table.toJson.toDraft, true)) : ofText text = .ok table := by
  rw [ofText, htext]
  change (do let table ← ofDraft _; _) = _
  rw [ofDraft_toJson h]
  rfl

end KindTable

end LinkGraph
