import LinkGraph.Proofs.Conversion.Course

namespace LinkGraph.Conversion

def stages : List String :=
  ["fetch", "fetch", "config", "fetch", "fetch", "kinds", "estimate", "compile", "apply"]

def codesAfter : Nat → List String
  | 1 | 4 => ["missing_document", "store_error"]
  | 2 => ["invalid_configuration"]
  | 5 => ["store_error"]
  | 7 => ["store_error", "pool_mismatch"]
  | 8 => ["batch_application_failed"]
  | _ => []

/-- The log shows how far a conversion came, and the error belongs there. -/
structure StopsAfter (count : Nat) (log : List Log.Entry) (e : Error) : Prop where
  scopes : log.map (·.scope) = stages.take count
  code : e.code ∈ codesAfter count

variable {σ : Type} {access : Access σ} {scope : String} {trigger : LinkId} {s s' : σ}

theorem lt_of_codesAfter {count : Nat} {code : String} (h : code ∈ codesAfter count) :
    0 < count ∧ count < stages.length := by
  have hlength : stages.length = 9 := rfl
  rw [hlength]
  unfold codesAfter at h
  split at h
  all_goals first | omega | cases h

theorem Misses.code_mem {side : End} {e : Error} (h : Misses access trigger side s e s') :
    e.code ∈ ["missing_document", "store_error"] := by
  cases h with
  | refused => exact List.mem_cons_of_mem _ List.mem_cons_self
  | noEnd | noValue => exact List.mem_cons_self

theorem Course.stages_eq {report : Report} {log : List Log.Entry}
    (h : Course access scope trigger s (.ok report) log s') : log.map (·.scope) = stages := by
  cases h
  rfl

theorem Course.stopsAfter {e : Error} {log : List Log.Entry}
    (h : Course access scope trigger s (.error e) log s') : ∃ count, StopsAfter count log e := by
  cases h with
  | noSource missed => exact ⟨1, rfl, missed.code_mem⟩
  | noConfiguration => exact ⟨2, rfl, List.mem_cons_self⟩
  | noDest _ _ missed => exact ⟨4, rfl, missed.code_mem⟩
  | noKinds => exact ⟨5, rfl, List.mem_cons_self⟩
  | noIds => exact ⟨7, rfl, List.mem_cons_self⟩
  | noPlan => exact ⟨7, rfl, List.mem_cons_of_mem _ List.mem_cons_self⟩
  | noBatch => exact ⟨8, rfl, List.mem_cons_self⟩

/-- Whatever the calls of the store answer, the log of a conversion goes through the same stages,
and where one fails it ends with the error. -/
theorem log_tells_end (access : Access σ) (scope : String) (trigger : LinkId) (s : σ) :
    let o := (convert access scope trigger s).1
    match o.result with
    | .ok _ => o.log.map (·.scope) = stages
    | .error e => ∃ count before, 0 < count ∧ count < stages.length ∧
        before.map (·.scope) = stages.take count ∧
        o.log = before ++ [⟨"convert", "failed: " ++ e.message⟩] ∧ e.code ∈ codesAfter count := by
  obtain ⟨log, hcourse, hlog⟩ := convert_course access scope trigger s
  dsimp only
  rw [hlog]
  cases hresult : (convert access scope trigger s).1.result with
  | ok report =>
      rw [hresult] at hcourse
      exact (congrArg _ (List.append_nil log)).trans hcourse.stages_eq
  | error e =>
      rw [hresult] at hcourse
      obtain ⟨count, hscopes, hcode⟩ := hcourse.stopsAfter
      obtain ⟨hpos, hlt⟩ := lt_of_codesAfter hcode
      exact ⟨count, log, hpos, hlt, hscopes, rfl, hcode⟩

end LinkGraph.Conversion
