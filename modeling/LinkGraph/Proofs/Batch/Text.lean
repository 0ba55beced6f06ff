import LinkGraph.Proofs.Operation.Line
import Mathlib.Data.List.Forall2

namespace LinkGraph.Operation

open Text

variable {kinds : KindTable}

theorem toList_batchText_cons (op : Operation) (batch : Batch) :
    (batchText kinds (op :: batch)).toList =
      (op.text kinds).toList ++ '\n' :: (batchText kinds batch).toList := by
  simp only [batchText, String.toList_join, List.map_cons, List.flatMap_cons, String.toList_append,
    List.append_assoc]
  rfl

theorem splitOn_batchText (batch : Batch) :
    (batchText kinds batch).toList.splitOn '\n' =
      batch.map (fun op => (op.text kinds).toList) ++ [[]] := by
  induction batch with
  | nil => rfl
  | cons op batch ih =>
      rw [toList_batchText_cons, List.splitOn_append_cons_self_of_not_mem (oneLine_text op).1, ih]
      rfl

theorem sameLine_of_batchText {batch batch' : Batch}
    (h : batchText kinds batch = batchText kinds batch') : List.Forall₂ SameLine batch batch' := by
  have hlines := congrArg (fun s => s.toList.splitOn '\n') h
  simp only [splitOn_batchText, List.append_cancel_right_eq] at hlines
  rw [← List.forall₂_eq_eq_eq, List.forall₂_map_left_iff, List.forall₂_map_right_iff] at hlines
  exact hlines.imp fun _ _ hline => text_eq_iff.mp (String.toList_inj.mp hline)

/-- The text of a batch has one line for each operation, whatever texts the operations give, and
each line is ended. The line of a value shows the value so that it can be read back. -/
theorem batchText_lines (kinds : KindTable) (batch : Batch) :
    (batchText kinds batch).toList.splitOn '\n' =
        batch.map (fun op => (op.text kinds).toList) ++ [[]] ∧
      (∀ op : Operation, OneLine (op.text kinds).toList) ∧
      (∀ target value, text kinds (.insertValue target value) = "      = " ++ quoted value) ∧
      Function.Injective quoted :=
  ⟨splitOn_batchText batch, oneLine_text, fun _ _ => rfl, quoted_injective⟩

example : batchText .core [.edge 11 2 500 12, .insertValue 11 "\"\n", .anchored 20 3 (some 12)] =
    "  #11 Contain    #500 -> #12\n      = \"\\\"\\n\"\n  #20 Required   @ #12\n" := by
  decide

end LinkGraph.Operation
