import LinkGraph.Json.Basic

namespace LinkGraph.Json

variable {key other : String} {value : Json} {members members' : List (String × Json)}

theorem member?_cons_self (key : String) (value : Json) (rest : List (String × Json)) :
    member? key ((key, value) :: rest) = some value := List.lookup_cons_self

theorem member?_cons_of_ne (h : other ≠ key) (rest : List (String × Json)) :
    member? other ((key, value) :: rest) = member? other rest := by
  rw [member?, List.lookup_cons, beq_eq_false_iff_ne.mpr h]
  rfl

theorem member?_append (key : String) (front back : List (String × Json)) :
    member? key (front ++ back) = (member? key front).or (member? key back) := List.lookup_append

theorem member?_eq_none (h : key ∉ members.map Prod.fst) : member? key members = none := by
  rw [member?, List.lookup_eq_none_iff]
  intro p hp
  refine bne_iff_ne.mpr ?_
  rintro rfl
  exact h (List.mem_map_of_mem hp)

theorem member?_eq_some_iff (distinct : (members.map Prod.fst).Nodup) :
    member? key members = some value ↔ (key, value) ∈ members := by
  rw [member?, List.lookup_eq_some_iff]
  constructor
  · rintro ⟨front, back, rfl, -⟩
    exact List.mem_append_right front List.mem_cons_self
  · intro h
    obtain ⟨front, back, rfl⟩ := List.append_of_mem h
    refine ⟨front, back, rfl, fun p hp => ?_⟩
    rw [List.map_append, List.nodup_append] at distinct
    have hne := distinct.2.2 p.1 (List.mem_map_of_mem hp) key List.mem_cons_self
    exact bne_iff_ne.mpr hne.symm

theorem member?_perm (distinct : (members.map Prod.fst).Nodup) (h : members.Perm members')
    (key : String) : member? key members = member? key members' := by
  have distinct' : (members'.map Prod.fst).Nodup := (h.map Prod.fst).nodup_iff.mp distinct
  refine Option.ext fun value => ?_
  rw [member?_eq_some_iff distinct, member?_eq_some_iff distinct', h.mem_iff]

theorem member?_filter {keep : String → Bool} (h : keep key = true)
    (members : List (String × Json)) :
    member? key (members.filter fun m => keep m.1) = member? key members := by
  induction members with
  | nil => rfl
  | cons m rest ih =>
      obtain ⟨k, value⟩ := m
      by_cases hkey : key = k
      · subst hkey
        simp only [List.filter_cons, h, if_pos, member?_cons_self]
      · rw [List.filter_cons, member?_cons_of_ne hkey]
        split
        · rw [member?_cons_of_ne hkey, ih]
        · exact ih

end LinkGraph.Json
