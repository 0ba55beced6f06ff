import LinkGraph.Proofs.Batch.Text
import LinkGraph.Proofs.Plan.Annotation
import LinkGraph.Proofs.Plan.Grounded

namespace LinkGraph

open Operation

/-- The targets of the values, which a text leaves out, are the edges before them. -/
theorem Batch.Annotated.eq_of_sameLine {site site' : Site} {batch batch' : Batch}
    (h : Annotated site batch) (h' : Annotated site' batch')
    (hlines : List.Forall₂ SameLine batch batch') : batch = batch' := by
  induction h generalizing batch' with
  | nil => exact (List.forall₂_nil_left_iff.mp hlines).symm
  | cons _ _ ih =>
      cases h' with
      | nil => cases hlines
      | cons _ annotated =>
          simp only [List.forall₂_cons] at hlines
          obtain ⟨hnode, hedge, hvalue, hrest⟩ := hlines
          have hedgeEq := hedge.eq_insertNode
          rw [hnode.eq_insertNode, hedgeEq, (Operation.insertNode.inj hedgeEq).1, hvalue.value_eq,
            ih annotated hrest]

namespace Plan

variable {s s' : Schema} {p p' : Pool} {site site' : Site} {plan plan' : Plan}

theorem annotated_of_compile (h : compile s p site = .ok plan) :
    plan.batch.Annotated site := by
  obtain ⟨rest, hbuild⟩ := batch_of_compile h
  obtain ⟨f, -, -, hbatch⟩ := Site.build_eq_ok_iff.mp hbuild
  rw [hbatch]
  exact f.annotated site none

/-- Two batches that are compiled from whatever schemas, pools and sites are one batch if they have
one text, which may show the kinds by any table. -/
theorem batch_eq_of_batchText (kinds : KindTable) (h : compile s p site = .ok plan)
    (h' : compile s' p' site' = .ok plan')
    (htext : batchText kinds plan.batch = batchText kinds plan'.batch) :
    plan.batch = plan'.batch :=
  (annotated_of_compile h).eq_of_sameLine (annotated_of_compile h') (sameLine_of_batchText htext)

theorem alike_texts_one_batch :
    let kinds : KindTable := ⟨1, 1, 2, 2, 3, 3, 1⟩
    let s : Schema := .list (some "Tags") (.boolean true)
    let s' : Schema := .object (some "Tags") [("x", .other)] ∅
    ∃ plan plan', compile s (.ofList [8, 9, 10, 11]) ⟨2, ⟨5, 6, 3, 4, 1, 1, 7⟩⟩ = .ok plan ∧
      compile s' (.consecutive 8 4) ⟨2, ⟨5, 6, 2, 4, 9, 9, 7⟩⟩ = .ok plan' ∧
      batchText kinds plan.batch = batchText kinds plan'.batch ∧ plan.batch = plan'.batch := by
  intro kinds s s'
  obtain ⟨plan, h⟩ :
      ∃ plan, compile s (.ofList [8, 9, 10, 11]) ⟨2, ⟨5, 6, 3, 4, 1, 1, 7⟩⟩ = .ok plan := ⟨_, rfl⟩
  obtain ⟨plan', h'⟩ :
      ∃ plan, compile s' (.consecutive 8 4) ⟨2, ⟨5, 6, 2, 4, 9, 9, 7⟩⟩ = .ok plan := ⟨_, rfl⟩
  have htext : batchText kinds plan.batch = batchText kinds plan'.batch := by
    cases h
    cases h'
    decide +kernel
  exact ⟨plan, plan', h, h', htext, batch_eq_of_batchText kinds h h' htext⟩

end Plan

end LinkGraph
