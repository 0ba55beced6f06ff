import LinkGraph.Proofs.Batch.Ordered
import Mathlib.Order.Bounds.Defs

namespace LinkGraph.Batch

def OrderError.index : OrderError → Nat
  | .duplicateId index _ _ => index
  | .forwardReference index _ _ => index

def Violates (batch : Batch) (place : Nat) : Prop :=
  batch.InsertsAgain place ∨ batch.RefersAhead place

variable {batch : Batch} {place : Nat}

theorem Repeats.insertsAgain {index first : Nat} {id : LinkId}
    (h : batch.Repeats index id first) : batch.InsertsAgain index :=
  ⟨id, first, h.lt, h.inserts, h.again⟩

theorem Anticipates.refersAhead {index insertedAt : Nat} {id : LinkId}
    (h : batch.Anticipates index id insertedAt) (once : batch.InsertsOnce) :
    batch.RefersAhead index := by
  refine ⟨id, h.refers, h.inserts.mem_inserted, fun earlier hlt hearlier => ?_⟩
  rw [once hearlier h.inserts] at hlt
  exact Nat.not_lt_of_le h.le hlt

theorem insertsOnce_of_not_insertsAgain (h : ∀ place, ¬batch.InsertsAgain place) :
    batch.InsertsOnce := by
  intro id i j hi hj
  rcases Nat.lt_trichotomy i j with hlt | heq | hlt
  · exact absurd ⟨id, i, hlt, hi, hj⟩ (h j)
  · exact heq
  · exact absurd ⟨id, j, hlt, hj, hi⟩ (h i)

theorem ordered_iff_not_violates : batch.Ordered ↔ ∀ place, ¬batch.Violates place := by
  constructor
  · rintro hordered place (hagain | hahead)
    · exact InsertsOnce.not_insertsAgain hordered.once hagain
    · exact not_refersAhead hordered.back hahead
  · intro h
    have once : batch.InsertsOnce :=
      insertsOnce_of_not_insertsAgain fun place hagain => h place (.inl hagain)
    refine ⟨once, fun {id i j} hrefers hinserts => Nat.lt_of_not_le fun hle => ?_⟩
    exact h i (.inr (Anticipates.refersAhead ⟨hrefers, hinserts, hle⟩ once))

theorem isLeast_of_forall_lt {p : Nat → Prop} {n : Nat} (h : p n) (hbefore : ∀ i < n, ¬p i) :
    IsLeast {i | p i} n :=
  ⟨h, fun i hi => Nat.le_of_not_lt fun hlt => hbefore i hlt hi⟩

/-- All operations are looked at for ids that are inserted again before any is looked at for its
references. So the first violation is told of unless it is a reference ahead and some later
operation inserts an id again: then the first of those is told of. -/
theorem checkOrder_tells_first (batch : Batch) :
    (batch.checkOrder = .ok () ↔ ∀ place, ¬batch.Violates place) ∧
    ∀ e, batch.checkOrder = .error e →
      ((∃ place, batch.InsertsAgain place) → IsLeast {i | batch.InsertsAgain i} e.index) ∧
      ((∀ place, ¬batch.InsertsAgain place) → IsLeast {i | batch.RefersAhead i} e.index) ∧
      (IsLeast {i | batch.Violates i} e.index ↔ ∀ i < e.index, ¬batch.RefersAhead i) := by
  refine ⟨checkOrder_eq_ok_iff_ordered.trans ordered_iff_not_violates, fun e herror => ?_⟩
  have hchecked := batch.checkOrder_checked
  rw [herror] at hchecked
  cases hchecked with
  | @duplicate index first id hrepeats foremost =>
      have hagain : batch.InsertsAgain index := hrepeats.insertsAgain
      refine ⟨fun _ => isLeast_of_forall_lt hagain foremost,
        fun hnone => absurd hagain (hnone index), fun hleast i hlt hi => ?_, fun hahead => ?_⟩
      · exact Nat.not_le_of_lt hlt (hleast.2 (.inr hi))
      · exact isLeast_of_forall_lt (.inl hagain) fun i hlt hi =>
          hi.elim (foremost i hlt) (hahead i hlt)
  | @forward index insertedAt id once hanticipates foremost =>
      have hahead : batch.RefersAhead index := hanticipates.refersAhead once
      have hleast : IsLeast {i | batch.Violates i} index :=
        isLeast_of_forall_lt (.inr hahead) fun i hlt hi =>
          hi.elim once.not_insertsAgain (foremost i hlt)
      exact ⟨fun ⟨_, hi⟩ => absurd hi once.not_insertsAgain,
        fun _ => isLeast_of_forall_lt hahead foremost, iff_of_true hleast foremost⟩

theorem first_repeat_told :
    let batch : Batch := [.node 10 1, .node 10 1, .insertValue 12 "a", .node 12 1]
    batch.checkOrder = .error (.duplicateId 1 10 0) ∧ IsLeast {i | batch.Violates i} 1 := by
  intro batch
  have herror : batch.checkOrder = .error (.duplicateId 1 10 0) := rfl
  refine ⟨herror, ((checkOrder_tells_first batch).2 _ herror).2.2.mpr ?_⟩
  rintro i hlt ⟨id, ⟨op, hop, hid⟩, hin, -⟩
  obtain rfl : i = 0 := Nat.lt_one_iff.mp hlt
  obtain rfl : op = .node 10 1 := (Option.some.inj hop).symm
  obtain rfl : id = 1 := List.mem_singleton.mp hid
  exact absurd hin (by decide)

/-- The first operation refers ahead, but it is the last one that the batch is refused for. -/
theorem early_reference_untold :
    let batch : Batch := [.insertValue 10 "a", .node 10 1, .node 10 1]
    batch.checkOrder = .error (.duplicateId 2 10 1) ∧ batch.Violates 0 ∧
      ¬IsLeast {i | batch.Violates i} (OrderError.duplicateId 2 10 1).index := by
  intro batch
  have hahead : batch.Violates 0 := by
    refine .inr ⟨10, ⟨_, rfl, List.mem_singleton_self 10⟩, by decide, fun earlier hlt => ?_⟩
    exact absurd hlt (Nat.not_lt_zero earlier)
  exact ⟨rfl, hahead, fun hleast => Nat.not_lt_of_le (hleast.2 hahead) (by decide)⟩

end LinkGraph.Batch
