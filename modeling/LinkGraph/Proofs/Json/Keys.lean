import LinkGraph.Json.Read
import Mathlib.Data.List.Nodup

namespace LinkGraph.Json

/-- No object of the document, at any depth, has a key twice. -/
inductive DistinctKeys : Json → Prop where
  | null : DistinctKeys .null
  | bool (b : Bool) : DistinctKeys (.bool b)
  | num (n : Number) : DistinctKeys (.num n)
  | str (s : String) : DistinctKeys (.str s)
  | arr {items : List Json} (items_distinct : ∀ j ∈ items, DistinctKeys j) :
      DistinctKeys (.arr items)
  | obj {members : List (String × Json)} (nodup : (members.map Prod.fst).Nodup)
      (members_distinct : ∀ m ∈ members, DistinctKeys m.2) : DistinctKeys (.obj members)

theorem keys_put (key : String) (value : Json) (members : List (String × Json)) :
    (put key value members).map Prod.fst =
      if key ∈ members.map Prod.fst then members.map Prod.fst
      else members.map Prod.fst ++ [key] := by
  induction members with
  | nil => rfl
  | cons m rest ih =>
      obtain ⟨k, v⟩ := m
      rw [put]
      by_cases hk : k = key
      · rw [if_pos hk, if_pos (by simp [hk])]
        rfl
      · rw [if_neg hk, List.map_cons, ih, List.map_cons]
        by_cases hrest : key ∈ rest.map Prod.fst
        · rw [if_pos hrest, if_pos (List.mem_cons_of_mem k hrest)]
        · have hmem : key ∉ k :: rest.map Prod.fst := by
            rw [List.mem_cons, not_or]
            exact ⟨Ne.symm hk, hrest⟩
          rw [if_neg hrest, if_neg hmem, List.cons_append]

theorem nodup_put {key : String} {value : Json} {members : List (String × Json)}
    (h : (members.map Prod.fst).Nodup) : ((put key value members).map Prod.fst).Nodup := by
  rw [keys_put]
  split
  · exact h
  · rename_i hkey
    refine List.nodup_append.mpr ⟨h, List.nodup_singleton key, fun k hk k' hk' => ?_⟩
    rw [List.mem_singleton.mp hk']
    rintro rfl
    exact hkey hk

theorem of_mem_put {key : String} {value : Json} {members : List (String × Json)}
    {m : String × Json} (h : m ∈ put key value members) : m.2 = value ∨ m ∈ members := by
  induction members with
  | nil => exact .inl (congrArg Prod.snd (List.mem_singleton.mp h))
  | cons m' rest ih =>
      obtain ⟨k, v⟩ := m'
      rw [put] at h
      split at h
      · rcases List.mem_cons.mp h with rfl | h
        · exact .inl rfl
        · exact .inr (List.mem_cons_of_mem _ h)
      · rcases List.mem_cons.mp h with rfl | h
        · exact .inr List.mem_cons_self
        · exact (ih h).imp_right (List.mem_cons_of_mem _)

theorem DistinctKeys.distinct {members : List (String × Json)}
    (h : ∀ m ∈ members, m.2.DistinctKeys) : DistinctKeys (.obj (distinct members)) := by
  have kept (done : List (String × Json)) (hdone : DistinctKeys (.obj done)) :
      DistinctKeys (.obj (members.foldl (fun done m => put m.1 m.2 done) done)) := by
    induction members generalizing done with
    | nil => exact hdone
    | cons m rest ih =>
        refine ih (fun m' hm' => h m' (List.mem_cons_of_mem m hm')) (put m.1 m.2 done) ?_
        cases hdone with
        | obj nodup hmembers =>
            refine .obj (nodup_put nodup) fun m' hm' => ?_
            rcases of_mem_put hm' with hvalue | hold
            · rw [hvalue]
              exact h m List.mem_cons_self
            · exact hmembers m' hold
  exact kept [] (.obj List.nodup_nil nofun)

namespace Draft

mutual

theorem distinctKeys_of_value? {depth : Nat} {d : Draft} {j : Json}
    (h : d.value? depth = some j) : j.DistinctKeys :=
  match d with
  | .broken => nomatch h
  | .null => by
      cases h
      exact .null
  | .bool b => by
      cases h
      exact .bool b
  | .num n => by
      obtain ⟨n, -, rfl⟩ := Option.map_eq_some_iff.mp h
      exact .num n
  | .str s => by
      obtain ⟨s, -, rfl⟩ := Option.map_eq_some_iff.mp h
      exact .str s
  | .arr items closed => by
      cases depth with
      | zero => cases h
      | succ depth =>
          rw [value?] at h
          split at h
          · obtain ⟨js, hjs, rfl⟩ := Option.map_eq_some_iff.mp h
            exact .arr (distinctKeys_of_itemValues? hjs)
          · cases h
  | .obj members closed => by
      cases depth with
      | zero => cases h
      | succ depth =>
          rw [value?] at h
          split at h
          · obtain ⟨ms, hms, rfl⟩ := Option.map_eq_some_iff.mp h
            exact .distinct (distinctKeys_of_memberValues? hms)
          · cases h

theorem distinctKeys_of_itemValues? {depth : Nat} {items : List Draft} {js : List Json}
    (h : itemValues? depth items = some js) : ∀ j ∈ js, j.DistinctKeys :=
  match items with
  | [] => by
      cases h
      exact nofun
  | d :: rest => by
      obtain ⟨j, hj, h⟩ := Option.bind_eq_some_iff.mp h
      obtain ⟨js, hjs, ⟨⟩⟩ := Option.bind_eq_some_iff.mp h
      exact List.forall_mem_cons.mpr
        ⟨distinctKeys_of_value? hj, distinctKeys_of_itemValues? hjs⟩

theorem distinctKeys_of_memberValues? {depth : Nat} {members : List (Option String × Draft)}
    {ms : List (String × Json)} (h : memberValues? depth members = some ms) :
    ∀ m ∈ ms, m.2.DistinctKeys :=
  match members with
  | [] => by
      cases h
      exact nofun
  | (key, d) :: rest => by
      obtain ⟨k, -, h⟩ := Option.bind_eq_some_iff.mp h
      obtain ⟨j, hj, h⟩ := Option.bind_eq_some_iff.mp h
      obtain ⟨ms, hms, ⟨⟩⟩ := Option.bind_eq_some_iff.mp h
      exact List.forall_mem_cons.mpr
        ⟨distinctKeys_of_value? hj, distinctKeys_of_memberValues? hms⟩

end

end Draft

/-- A document that is read from a text has each key once, also if the text repeats it. -/
theorem DistinctKeys.of_read {text : String} {j : Json} (h : read? text = some j) :
    j.DistinctKeys := by
  rw [read?] at h
  generalize draft text = r at h
  obtain ⟨d, complete⟩ := r
  cases complete with
  | true => exact Draft.distinctKeys_of_value? h
  | false => cases h

end LinkGraph.Json
