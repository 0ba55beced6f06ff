import LinkGraph.Proofs.Json.Pieces

namespace LinkGraph.Json

inductive Whole : Json → Prop where
  | null : Whole .null
  | bool (b : Bool) : Whole (.bool b)
  | int (i : Int) (fits : -9223372036854775808 ≤ i ∧ i < 18446744073709551616) :
      Whole (.num (.int i fits))
  | str (s : String) : Whole (.str s)
  | arr {items : List Json} (items_whole : ∀ j ∈ items, Whole j) : Whole (.arr items)
  | obj {members : List (String × Json)} (members_whole : ∀ m ∈ members, Whole m.2) :
      Whole (.obj members)

mutual

def tokens : Json → List Token
  | .null => [.null]
  | .bool b => [.bool b]
  | .num n => [.num (some n)]
  | .str s => [.str (some s)]
  | .arr items => .openArray :: ([Token.comma].intercalate (itemTokens items) ++ [.closeArray])
  | .obj members =>
      .openObject :: ([Token.comma].intercalate (memberTokens members) ++ [.closeObject])

def itemTokens : List Json → List (List Token)
  | [] => []
  | j :: rest => j.tokens :: itemTokens rest

def memberTokens : List (String × Json) → List (List Token)
  | [] => []
  | (k, j) :: rest => (.str (some k) :: .colon :: j.tokens) :: memberTokens rest

end

section Parts

variable {cs gap gap' : List Char} {ts : List Token}

theorem spells_null : Spells "null".toList [.null] := fun _ _ => rfl

theorem spells_bool (b : Bool) : Spells (boolText b).toList [.bool b] := by
  cases b <;> exact fun _ _ => rfl

theorem endsNumeral_colon : EndsNumeral ':' := ⟨rfl, by decide, rfl⟩

theorem Spells.member (hgap : Gap gap) (key : String) (h : Spells cs ts) :
    Spells ((quoted key).toList ++ ':' :: (gap ++ cs)) (.str (some key) :: .colon :: ts) :=
  (spells_quoted key).append_cons endsNumeral_colon (.sign rfl (.gap_append hgap h))

theorem Spells.array (hgap : Gap gap) (hgap' : Gap gap') (h : Spells cs ts) :
    Spells ('[' :: (gap ++ (cs ++ (gap' ++ [']'])))) (.openArray :: (ts ++ [.closeArray])) :=
  .enclosed rfl rfl ⟨rfl, by decide, rfl⟩ hgap hgap' h

theorem Spells.object (hgap : Gap gap) (hgap' : Gap gap') (h : Spells cs ts) :
    Spells ('\x7b' :: (gap ++ (cs ++ (gap' ++ ['\x7d']))))
      (.openObject :: (ts ++ [.closeObject])) :=
  .enclosed rfl rfl ⟨rfl, by decide, rfl⟩ hgap hgap' h

end Parts

section Compact

theorem toList_compact_arr (items : List Json) : (compact (.arr items)).toList =
    '[' :: ([','].intercalate ((itemTexts items).map String.toList) ++ [']']) := by
  simp [compact]

theorem toList_compact_obj (members : List (String × Json)) : (compact (.obj members)).toList =
    '\x7b' :: ([','].intercalate ((memberTexts members).map String.toList) ++ ['\x7d']) := by
  simp [compact]

mutual

theorem spells_compact {j : Json} (h : j.Whole) : Spells j.compact.toList j.tokens :=
  match j with
  | .null => spells_null
  | .bool b => spells_bool b
  | .num n => by
      cases h with
      | int i fits => exact spells_int fits
  | .str s => spells_quoted s
  | .arr items => by
      cases h with
      | arr hitems =>
          rw [toList_compact_arr]
          exact .array gap_nil gap_nil
            (.separated gap_nil (spells_itemTexts hitems))
  | .obj members => by
      cases h with
      | obj hmembers =>
          rw [toList_compact_obj]
          exact .object gap_nil gap_nil
            (.separated gap_nil (spells_memberTexts hmembers))

theorem spells_itemTexts {items : List Json} (h : ∀ j ∈ items, j.Whole) :
    List.Forall₂ Spells ((itemTexts items).map String.toList) (itemTokens items) :=
  match items with
  | [] => .nil
  | _ :: _ =>
      have ⟨hfirst, hrest⟩ := List.forall_mem_cons.mp h
      .cons (spells_compact hfirst) (spells_itemTexts hrest)

theorem spells_memberTexts {members : List (String × Json)} (h : ∀ m ∈ members, m.2.Whole) :
    List.Forall₂ Spells ((memberTexts members).map String.toList) (memberTokens members) :=
  match members with
  | [] => .nil
  | (key, j) :: rest => by
      have ⟨hfirst, hrest⟩ := List.forall_mem_cons.mp h
      refine .cons ?_ (spells_memberTexts hrest)
      have hmember := Spells.member gap_nil key (spells_compact hfirst)
      simpa using hmember

end

end Compact

section Indented

def margin (level : Nat) : List Char := '\n' :: List.replicate (2 * level) ' '

theorem toList_pushn (s : String) (c : Char) (n : Nat) :
    (s.pushn c n).toList = s.toList ++ List.replicate n c := by
  induction n with
  | zero => exact (List.append_nil _).symm
  | succ n ih =>
      have hpush : s.pushn c (n + 1) = (s.pushn c n).push c := rfl
      rw [hpush, String.toList_push, ih, List.append_assoc, ← List.replicate_succ']

theorem toList_newline (level : Nat) : (newline level).toList = margin level := by
  simp [newline, margin, toList_pushn]

theorem gap_margin (level : Nat) : Gap (margin level) := by
  intro c hc
  rcases List.mem_cons.mp hc with rfl | hc
  · decide
  · rw [List.eq_of_mem_replicate hc]
    decide

theorem toList_block_nil (opening closing : String) (level : Nat) :
    (block opening closing level []).toList = opening.toList ++ closing.toList := by
  simp [block]

theorem toList_block {opening closing : String} {o c : Char} {line : String} {lines : List String}
    (ho : opening.toList = [o]) (hc : closing.toList = [c]) (level : Nat) :
    (block opening closing level (line :: lines)).toList =
      o :: (margin (level + 1) ++
        ((',' :: margin (level + 1)).intercalate ((line :: lines).map String.toList) ++
          (margin level ++ [c]))) := by
  simp [block, ho, hc, toList_newline]

mutual

theorem spells_indented {j : Json} (h : j.Whole) (level : Nat) :
    Spells (j.indented level).toList j.tokens :=
  match j with
  | .null => by
      rw [indented, tokens]
      exact spells_null
  | .bool b => spells_bool b
  | .num n => by
      cases h with
      | int i fits => exact spells_int fits
  | .str s => spells_quoted s
  | .arr items => by
      cases h with
      | arr hitems =>
          have hlines := spells_indentedItems hitems (level + 1)
          rw [indented, tokens]
          cases items with
          | nil =>
              rw [indentedItems, toList_block_nil]
              exact .array gap_nil gap_nil .nil
          | cons first rest =>
              rw [indentedItems, toList_block rfl rfl]
              exact .array (gap_margin _) (gap_margin _)
                (.separated (gap_margin _) hlines)
  | .obj members => by
      cases h with
      | obj hmembers =>
          have hlines := spells_indentedMembers hmembers (level + 1)
          rw [indented, tokens]
          cases members with
          | nil =>
              rw [indentedMembers, toList_block_nil]
              exact .object gap_nil gap_nil .nil
          | cons first rest =>
              rw [indentedMembers, toList_block rfl rfl]
              exact .object (gap_margin _) (gap_margin _)
                (.separated (gap_margin _) hlines)

theorem spells_indentedItems {items : List Json} (h : ∀ j ∈ items, j.Whole) (level : Nat) :
    List.Forall₂ Spells ((indentedItems level items).map String.toList) (itemTokens items) :=
  match items with
  | [] => .nil
  | _ :: _ =>
      have ⟨hfirst, hrest⟩ := List.forall_mem_cons.mp h
      .cons (spells_indented hfirst level) (spells_indentedItems hrest level)

theorem spells_indentedMembers {members : List (String × Json)} (h : ∀ m ∈ members, m.2.Whole)
    (level : Nat) :
    List.Forall₂ Spells ((indentedMembers level members).map String.toList)
      (memberTokens members) :=
  match members with
  | [] => .nil
  | (key, j) :: rest => by
      have ⟨hfirst, hrest⟩ := List.forall_mem_cons.mp h
      refine .cons ?_ (spells_indentedMembers hrest level)
      have hmember := Spells.member gap_space key (spells_indented hfirst level)
      simpa using hmember

end

end Indented

end LinkGraph.Json
