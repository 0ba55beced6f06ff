import LinkGraph.Proofs.Conversion.Effect
import LinkGraph.Proofs.Session.Reachable

namespace LinkGraph.Session

def given (session : Session) (calls : List Call) : List LinkId :=
  givenBy (session.journalAll .fresh calls)

variable {session : Session} {calls : List Call}

theorem given_eq_range' (hroom : session.HasRoom .fresh calls) :
    session.given calls = List.range' 8 ((session.runAll .fresh calls).2.nextId - 8) := by
  have htrail := session.trail_runAll .fresh calls
  have hfirst : Store.fresh.nextId = 8 := rfl
  rw [htrail.nextId hroom, hfirst, Nat.add_sub_cancel_left, ← hfirst]
  exact htrail.given hroom

theorem mem_core_of_lt {id : LinkId} (hpos : id ≠ 0) (hid : id < 8) : id ∈ KindTable.core.ids := by
  have hcore : KindTable.core.ids = List.range' 1 7 := rfl
  rw [hcore, List.mem_range'_1]
  exact ⟨Nat.one_le_iff_ne_zero.mpr hpos, hid⟩

theorem given_of_lt {id : LinkId} (hid : id < (session.runAll .fresh calls).2.nextId) :
    id = 0 ∨ id ∈ KindTable.core.ids ∨ id ∈ session.given calls := by
  by_cases hzero : id = 0
  · exact .inl hzero
  · exact .inr (((session.trail_runAll .fresh calls).given_of_lt hid).imp_left
      (mem_core_of_lt hzero))

/-- Ids are given out one after the other until the next one comes round. All ids of links, except
zero, were given out before or belong to the core vocabulary; and a batch that inserts others is
refused. -/
theorem stored_ids_given (session : Session) (calls : List Call) :
    let s := (session.runAll .fresh calls).2
    (session.HasRoom .fresh calls → session.given calls = List.range' 8 (s.nextId - 8)) ∧
    (∀ id, s.hasLink id = true →
      id = 0 ∨ id ∈ KindTable.core.ids ∨ id ∈ session.given calls) ∧
    ∀ batch, (∃ id ∈ batch.inserted, id ≠ 0 ∧ id ∉ session.given calls) →
      ∃ e, s.apply session.backend batch = .error e := by
  intro s
  have htrail : Store.Trail .fresh (session.journalAll .fresh calls) s :=
    session.trail_runAll .fresh calls
  refine ⟨given_eq_range', fun id hid => ?_, ?_⟩
  · by_cases hzero : id = 0
    · exact .inl hzero
    · refine .inr ?_
      rcases htrail.given_of_hasLink hid with hlink | hlt | hmem
      · exact .inl (mem_core_of_lt hzero (Store.sound_fresh.ahead hlink))
      · exact .inl (mem_core_of_lt hzero hlt)
      · exact .inr hmem
  rintro batch ⟨id, hid, hzero, hgiven⟩
  cases happly : s.apply session.backend batch with
  | error e => exact ⟨e, rfl⟩
  | ok s' =>
      obtain ⟨hfree, hlt⟩ := (Store.apply_eq_ok_iff_written.mp happly).inserted_fresh hid
      rcases given_of_lt hlt with rfl | hcore | hin
      · exact absurd rfl hzero
      · obtain ⟨kind, -, rfl⟩ := List.mem_map.mp hcore
        have hstored := (htrail.closed Store.sound_fresh.toClosed).core kind
        exact absurd (hstored.symm.trans hfree) (by decide)
      · exact absurd hin hgiven

theorem unreserved_batch_refused :
    let s := (Session.runAll ⟨.memory, false⟩ .fresh [.reserve 2]).2
    ∃ e, s.apply .memory [.insertNode 10 ⟨1, none, none⟩] = .error e :=
  (stored_ids_given ⟨.memory, false⟩ [.reserve 2]).2.2 _ ⟨10, by decide, by decide, by decide⟩

/-- Zero is below the next id as well, so that it can be inserted. -/
theorem zero_inserted :
    let calls : List Call := [.apply [.insertNode 0 ⟨1, none, none⟩]]
    (Session.runAll ⟨.memory, false⟩ .fresh calls).2.hasLink 0 = true ∧
      0 ∉ KindTable.core.ids ∧ Session.given ⟨.memory, false⟩ calls = [] :=
  ⟨rfl, by decide, rfl⟩

theorem given_append (session : Session) (calls : List Call) (call : Call) :
    session.given (calls ++ [call]) =
      session.given calls ++ givenBy (session.journal (session.runAll .fresh calls).2 call) := by
  rw [given, given, journalAll_append, givenBy_append, journalAll, journalAll, List.append_nil]

/-- Whichever calls ask for ids, also within others and before one that fails, what they answer is
neither given twice nor left out, and the ids of a reservation have no links when it returns. So it
is until the next id comes round. -/
theorem ids_given_once (hroom : session.HasRoom .fresh calls) :
    let s := (session.runAll .fresh calls).2
    session.given calls = List.range' 8 (s.nextId - 8) ∧
    (∀ count ids, (session.run s (.reserve count)).1 = .ids ids →
      session.given (calls ++ [.reserve count]) = session.given calls ++ ids) ∧
    (∀ node id, (session.run s (.insertLink node)).1 = .id id →
      session.given (calls ++ [.insertLink node]) = session.given calls ++ [id]) ∧
    ∀ before count ids after,
      session.journalAll .fresh calls = before ++ .reserved count ids :: after →
      (∃ t, Store.Trail .fresh (before ++ [.reserved count ids]) t ∧ Store.Trail t after s) ∧
      ∀ t, Store.Trail .fresh (before ++ [.reserved count ids]) t →
        ∀ id ∈ ids, t.hasLink id = false := by
  intro s
  refine ⟨given_eq_range' hroom, fun count ids h => ?_, fun node id h => ?_,
    fun before count ids after hevents => ⟨?_, fun t htrail => ?_⟩⟩
  · rw [given_append, journal_reserve h]
    exact congrArg _ (List.append_nil ids)
  · rw [given_append, journal_insertLink h]
    rfl
  · have htrail := session.trail_runAll .fresh calls
    rw [hevents, List.append_cons] at htrail
    exact htrail.exists_between
  · rw [HasRoom, hevents, List.append_cons, asked_append] at hroom
    exact htrail.reserved_fresh Store.sound_fresh.ahead (Store.HasRoom.left hroom)

def sampleCalls : List Call :=
  [.reserve 2, .apply [.insertNode 9 ⟨1, none, none⟩],
    .stage coreScope Conversion.sampleSchema none, .convert coreScope 13]

theorem sample_ids_given_once :
    Session.given ⟨.memory, false⟩ sampleCalls = List.range' 8 16 ∧
      (∃ t, Store.Trail .fresh [.reserved 2 [8, 9]] t ∧ t.hasLink 9 = false) ∧
      (Session.runAll ⟨.memory, false⟩ .fresh sampleCalls).2.hasLink 9 = true := by
  have hroom : Session.HasRoom ⟨.memory, false⟩ .fresh sampleCalls := by decide +kernel
  have hnext : (Session.runAll ⟨.memory, false⟩ .fresh sampleCalls).2.nextId = 24 := by
    decide +kernel
  obtain ⟨hgiven, -, -, hfresh⟩ := ids_given_once hroom
  obtain ⟨⟨t, htrail, -⟩, hfree⟩ := hfresh [] 2 [8, 9] _ rfl
  rw [hnext] at hgiven
  exact ⟨hgiven, ⟨t, htrail, hfree t htrail 9 (by decide)⟩, by decide +kernel⟩

end LinkGraph.Session
