import LinkGraph.Proofs.Json.Spelled

namespace LinkGraph.Json

open Builder

/-- The tokens of one value: they build its draft wherever a value may stand. -/
structure Builds (ts : List Token) (d : Draft) : Prop where
  value : ∀ around : List Frame, ts.foldl push (.value around) = .after around d
  firstItem : ∀ around : List Frame,
    ts.foldl push (.firstItem around) = .after (.arr [] :: around) d

structure BuildsMember (ts : List Token) (m : Option String × Draft) : Prop where
  nextKey : ∀ (around : List Frame) (done : List (Option String × Draft)),
    ts.foldl push (.nextKey around done) = .after (.obj done m.1 :: around) m.2
  firstKey : ∀ around : List Frame,
    ts.foldl push (.firstKey around) = .after (.obj [] m.1 :: around) m.2

section Containers

variable {ts : List Token} {tss : List (List Token)}

theorem foldl_push_parts {part : Type} (next : List part → Builder)
    (behind : List part → part → Builder) (closed : List part → Builder) {closing : Token}
    (hcomma : ∀ done p, push (behind done p) .comma = next (p :: done))
    (hclosing : ∀ done p, push (behind done p) closing = closed (p :: done).reverse)
    {ps : List part} (h : List.Forall₂ (fun ts p => ∀ done, ts.foldl push (next done) =
      behind done p) tss ps)
    {b : Builder} {done : List part} {p : part} (hfirst : ts.foldl push b = behind done p) :
    ([Token.comma].intercalate (ts :: tss) ++ [closing]).foldl push b =
      closed (done.reverse ++ p :: ps) := by
  induction h generalizing b ts done p with
  | nil =>
      rw [List.intercalate_singleton, List.foldl_append, hfirst, List.foldl_cons, hclosing,
        List.reverse_cons, List.foldl_nil]
  | @cons ts' p' tss ps hsecond hrest ih =>
      rw [List.intercalate_cons_cons, List.append_assoc, List.append_assoc, List.foldl_append,
        hfirst, List.singleton_append, List.foldl_cons, hcomma, ih (hsecond (p :: done)),
        List.reverse_cons, List.append_assoc, List.singleton_append]

theorem Builds.array {ds : List Draft} (h : List.Forall₂ Builds tss ds) :
    Builds (.openArray :: ([Token.comma].intercalate tss ++ [Token.closeArray]))
      (.arr ds true) := by
  have hbody (around : List Frame) :
      ([Token.comma].intercalate tss ++ [Token.closeArray]).foldl push (.firstItem around) =
        .after around (.arr ds true) := by
    cases h with
    | nil => rfl
    | cons hfirst hrest =>
        exact foldl_push_parts (fun done => .value (.arr done :: around))
          (fun done d => .after (.arr done :: around) d) (fun ds => .after around (.arr ds true))
          (fun _ _ => rfl) (fun _ _ => rfl) (hrest.imp fun _ _ hb _ => hb.value _)
          (hfirst.firstItem around)
  exact ⟨hbody, fun around => hbody (.arr [] :: around)⟩

theorem Builds.object {ms : List (Option String × Draft)} (h : List.Forall₂ BuildsMember tss ms) :
    Builds (.openObject :: ([Token.comma].intercalate tss ++ [Token.closeObject]))
      (.obj ms true) := by
  have hbody (around : List Frame) :
      ([Token.comma].intercalate tss ++ [Token.closeObject]).foldl push (.firstKey around) =
        .after around (.obj ms true) := by
    cases h with
    | nil => rfl
    | cons hfirst hrest =>
        exact foldl_push_parts (fun done => .nextKey around done)
          (fun done m => .after (.obj done m.1 :: around) m.2)
          (fun ms => .after around (.obj ms true)) (fun _ _ => rfl) (fun _ _ => rfl)
          (hrest.imp fun _ _ hb _ => hb.nextKey _ _) (hfirst.firstKey around)
  exact ⟨hbody, fun around => hbody (.arr [] :: around)⟩

theorem Builds.member {d : Draft} (h : Builds ts d) (key : Option String) :
    BuildsMember (.str key :: .colon :: ts) (key, d) :=
  ⟨fun around done => h.value (.obj done key :: around),
    fun around => h.value (.obj [] key :: around)⟩

end Containers

mutual

theorem builds_tokens (j : Json) : Builds j.tokens j.toDraft :=
  match j with
  | .null => ⟨fun _ => rfl, fun _ => rfl⟩
  | .bool _ => ⟨fun _ => rfl, fun _ => rfl⟩
  | .num _ => ⟨fun _ => rfl, fun _ => rfl⟩
  | .str _ => ⟨fun _ => rfl, fun _ => rfl⟩
  | .arr items => .array (builds_itemTokens items)
  | .obj members => .object (builds_memberTokens members)

theorem builds_itemTokens (items : List Json) :
    List.Forall₂ Builds (itemTokens items) (itemDrafts items) :=
  match items with
  | [] => .nil
  | j :: rest => .cons (builds_tokens j) (builds_itemTokens rest)

theorem builds_memberTokens (members : List (String × Json)) :
    List.Forall₂ BuildsMember (memberTokens members) (memberDrafts members) :=
  match members with
  | [] => .nil
  | (key, j) :: rest => .cons ((builds_tokens j).member key) (builds_memberTokens rest)

end

/-- A text that spells a document is read as this document, and as a whole. -/
theorem draft_of_spells {text : String} {j : Json} (h : Spells text.toList j.tokens) :
    draft text = (j.toDraft, true) :=
  draft_of_tokens h.tokens_eq ((builds_tokens j).value [])

theorem Whole.draft_compact {j : Json} (h : j.Whole) : draft j.compact = (j.toDraft, true) :=
  draft_of_spells (spells_compact h)

theorem Whole.draft_pretty {j : Json} (h : j.Whole) : draft j.pretty = (j.toDraft, true) :=
  draft_of_spells (spells_indented h 0)

end LinkGraph.Json
