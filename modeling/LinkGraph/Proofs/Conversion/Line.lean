import LinkGraph.Proofs.Conversion.Effect
import LinkGraph.Proofs.Json.Line

namespace LinkGraph.Conversion

open Text

theorem oneLine_toString (id : LinkId) : OneLine (toString id).toList := by
  rw [Nat.toString_eq_repr, Nat.toList_repr]
  exact Json.oneLine_toDigits id

theorem oneLine_askEntry (trigger : LinkId) (side : End) :
    OneLine (askEntry trigger side).text.toList := by
  have hid := oneLine_toString trigger
  cases side <;>
    simp only [askEntry, Log.Entry.text, String.toList_append, oneLine_append, hid] <;> decide

theorem oneLine_entry (depth : Nat) (d : Found) :
    OneLine (d.entry depth).text.toList ↔
      ∀ key ∈ (d.document.prune depth).keys, OneLine key.toList := by
  have hid := oneLine_toString d.link
  have hscope : OneLine "fetch".toList ∧ OneLine ": ".toList := by decide
  have hsigns : OneLine "#".toList ∧ OneLine " = ".toList := by decide
  simp only [Found.entry, Log.Entry.text, String.toList_append, oneLine_append, hid, hscope,
    hsigns, true_and, Json.oneLine_summary]

variable {σ : Type}

/-- The entry for a document that is found is on one line as long as no key that it shows breaks the
line: numbers and strings never do. -/
theorem fetched_on_one_line {access : Access σ} {trigger : LinkId} {side : End} {t t' : State σ}
    {j : Json} (h : (fetchDocument access trigger side).run t = .ok j t') :
    (∀ depth, OneLine (j.summary depth).toList ↔
      ∀ key ∈ (j.prune depth).keys, OneLine key.toList) ∧
    ∃ link : LinkId,
      let asked := askEntry trigger side
      let shown := Found.entry t.log.depth ⟨link, j⟩
      t'.log.entries = t.log.entries ++ [asked, shown] ∧ OneLine asked.text.toList ∧
        (OneLine shown.text.toList ↔
          ∀ key ∈ (j.prune t.log.depth).keys, OneLine key.toList) := by
  refine ⟨fun depth => Json.oneLine_summary depth j, ?_⟩
  have hfetched := fetchDocument_fetched access trigger side t
  rw [h] at hfetched
  cases hfetched with
  | @found d s' hd =>
      exact ⟨d.link, List.append_assoc _ _ _, oneLine_askEntry trigger side,
        oneLine_entry t.log.depth d⟩

theorem sample_schema_on_one_line :
    let t : State Store := ⟨sampleStore none, .start Log.defaultDepth⟩
    ∃ t', (fetchDocument (Store.access .memory) 11 .dest).run t = .ok sampleSchema t' ∧
      ∃ link, t'.log.entries = [askEntry 11 .dest, Found.entry 3 ⟨link, sampleSchema⟩] ∧
        OneLine (Found.entry 3 ⟨link, sampleSchema⟩).text.toList := by
  intro t
  have hfetch : ∃ t', (fetchDocument (Store.access .memory) 11 .dest).run t =
      .ok sampleSchema t' := ⟨_, rfl⟩
  obtain ⟨t', h⟩ := hfetch
  obtain ⟨-, link, hentries, -, hline⟩ := fetched_on_one_line h
  exact ⟨t', h, link, hentries, hline.mpr (by decide)⟩

theorem key_breaks_line : ¬ ∀ (j : Json) (depth : Nat), OneLine (j.summary depth).toList := by
  intro h
  have hkey : OneLine "a\nb".toList :=
    (Json.oneLine_summary 0 (.obj [("a\nb", .num (.int 1 (by decide)))])).mp (h _ 0) "a\nb"
      List.mem_cons_self
  exact absurd hkey (by decide)

end LinkGraph.Conversion
