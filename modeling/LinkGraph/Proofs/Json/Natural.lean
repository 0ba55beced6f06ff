import LinkGraph.Json.Shape
import LinkGraph.Proofs.Json.Spelled

namespace LinkGraph.Json

variable {n : Nat} {j : Json}

theorem ofNat_of_lt (h : n < 18446744073709551616) :
    ofNat n = .num (.int n ⟨by omega, by omega⟩) := by
  rw [ofNat, Number.ofInt, dif_pos ⟨by omega, by omega⟩]

theorem whole_ofNat (h : n < 18446744073709551616) : (ofNat n).Whole := by
  rw [ofNat_of_lt h]
  exact .int _ _

theorem nat_head_eq_ok {expected : String} :
    j.head.nat expected = .ok n ↔ j = .ofNat n ∧ n < 18446744073709551616 := by
  constructor
  · intro h
    cases j with
    | num number =>
        cases number with
        | int i fits =>
            simp only [head, Head.nat] at h
            split at h
            · cases h
              have hlt : i.toNat < 18446744073709551616 := by omega
              refine ⟨?_, hlt⟩
              rw [ofNat_of_lt hlt]
              congr 2
              omega
            · cases h
        | double x => cases h
    | null | bool | str | arr | obj => cases h
  · rintro ⟨rfl, hlt⟩
    rw [ofNat_of_lt hlt]
    simp [head, Head.nat]

theorem id_head_ofNat (h : n < 18446744073709551616) : (ofNat n).head.id = .ok n :=
  nat_head_eq_ok.mpr ⟨rfl, h⟩

theorem head_toDraft (j : Json) : j.toDraft.head = .ok j.head := by
  cases j <;> rfl

end LinkGraph.Json
