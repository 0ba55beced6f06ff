import LinkGraph.Proofs.Json.Pieces
import LinkGraph.Proofs.Json.Pruned

namespace LinkGraph.Json

open Text

section Pieces

theorem oneLine_nil : OneLine [] := by decide

theorem oneLine_cons {c : Char} {cs : List Char} :
    OneLine (c :: cs) ↔ (c ≠ '\n' ∧ c ≠ '\r') ∧ OneLine cs := by
  simp only [OneLine, List.mem_cons, not_or, ne_eq, eq_comm]
  exact and_and_and_comm

theorem oneLine_intercalate {sep : List Char} (hsep : OneLine sep) {parts : List (List Char)} :
    OneLine (sep.intercalate parts) ↔ ∀ part ∈ parts, OneLine part := by
  induction parts with
  | nil => simp [OneLine]
  | cons part parts ih =>
      cases parts with
      | nil => simp
      | cons next parts =>
          rw [List.intercalate_cons_cons, oneLine_append, oneLine_append, ih,
            and_iff_left hsep, ← List.forall_mem_cons]

theorem oneLine_of_subset {cs ds : List Char} (h : OneLine ds) (hsub : cs ⊆ ds) : OneLine cs :=
  ⟨fun hc => h.1 (hsub hc), fun hc => h.2 (hsub hc)⟩

end Pieces

section Numbers

open Decimal

theorem oneLine_toDigits (n : Nat) : OneLine (Nat.toDigits 10 n) := by
  have hdigit {c : Char} (hc : c ∈ Nat.toDigits 10 n) : c.isDigit = true :=
    Nat.isDigit_of_mem_toDigits (by decide) (by decide) hc
  exact ⟨fun hc => absurd (hdigit hc) (by decide), fun hc => absurd (hdigit hc) (by decide)⟩

theorem oneLine_zeros (n : Nat) : OneLine (zeros n) := by
  constructor <;> exact fun h => absurd (List.eq_of_mem_replicate h) (by decide)

variable {digits : List Char}

theorem oneLine_positional (h : OneLine digits) (exponent : Int) :
    OneLine (positional digits exponent) := by
  have htake (n : Nat) : OneLine (digits.take n) := oneLine_of_subset h (List.take_subset n digits)
  have hdrop (n : Nat) : OneLine (digits.drop n) := oneLine_of_subset h (List.drop_subset n digits)
  rw [positional]
  split
  · simp [oneLine_cons, oneLine_append, oneLine_zeros, h]
  · split
    · simp [oneLine_append, oneLine_cons, htake, hdrop]
    · simp [oneLine_append, oneLine_cons, oneLine_zeros, oneLine_nil, h]

theorem oneLine_scientific (h : OneLine digits) (exponent : Int) :
    OneLine (scientific digits exponent) := by
  have htake (n : Nat) : OneLine (digits.take n) := oneLine_of_subset h (List.take_subset n digits)
  have hdrop (n : Nat) : OneLine (digits.drop n) := oneLine_of_subset h (List.drop_subset n digits)
  have hfraction : OneLine (if digits.length ≤ 1 then [] else '.' :: digits.drop 1) := by
    split
    · exact oneLine_nil
    · exact oneLine_cons.mpr ⟨by decide, hdrop 1⟩
  rw [scientific, oneLine_append, oneLine_append, oneLine_cons, oneLine_cons]
  refine ⟨⟨htake 1, hfraction⟩, by decide, ?_, oneLine_toDigits _⟩
  split <;> decide

theorem oneLine_write (layout : Layout) (x : Scaled) : OneLine (layout.write x) := by
  simp only [Layout.write]
  split
  · exact oneLine_positional (oneLine_toDigits _) _
  · exact oneLine_scientific (oneLine_toDigits _) _

theorem oneLine_signed (negative : Bool) (h : OneLine digits) :
    OneLine (if negative then '-' :: digits else digits) := by
  cases negative with
  | true => exact oneLine_cons.mpr ⟨by decide, h⟩
  | false => exact h

theorem oneLine_writeDouble (layout : Layout) (x : Float) : OneLine (layout.writeDouble x) := by
  rw [Layout.writeDouble]
  obtain ⟨negative, cell⟩ := ofDouble x
  cases cell with
  | none =>
      have hzero : OneLine ['0', '.', '0'] := by decide
      exact oneLine_signed negative hzero
  | some cell => exact oneLine_signed negative (oneLine_write layout cell.shortest)

theorem oneLine_number (n : Number) : OneLine n.text.toList := by
  cases n with
  | int i fits =>
      rw [Number.text, Int.toString_eq_repr, Int.repr_eq_if]
      split
      · rw [Nat.toList_repr]
        exact oneLine_toDigits _
      · rw [String.toList_append, Nat.toList_repr, oneLine_append]
        exact ⟨by decide, oneLine_toDigits _⟩
  | double x =>
      rw [Number.text, String.toList_ofList]
      exact oneLine_writeDouble _ x

end Numbers

section Strings

theorem Escapes.oneLine {c : Char} {spelled : List Char} (h : Escapes c spelled) :
    OneLine spelled := by
  cases h with
  | letter not_number h =>
      simp only [oneLine_cons, oneLine_nil, and_true]
      refine ⟨by decide, ?_, ?_⟩
      · rintro rfl
        cases h
      · rintro rfl
        cases h
  | number h =>
      have hdigit : ∀ d < 16, Nat.digitChar d ≠ '\n' ∧ Nat.digitChar d ≠ '\r' := by decide
      simp only [oneLine_cons, oneLine_nil, and_true]
      exact ⟨by decide, by decide, by decide, by decide, hdigit _ (by omega), hdigit _ (by omega)⟩
  | self not_quote not_backslash h =>
      simp only [oneLine_cons, oneLine_nil, and_true]
      refine ⟨?_, ?_⟩
      · rintro rfl
        exact absurd h (by decide)
      · rintro rfl
        exact absurd h (by decide)

theorem oneLine_quoted (s : String) : OneLine (quoted s).toList := by
  have hquote : OneLine ['\"'] := by decide
  rw [quoted, String.toList_ofList, ← List.singleton_append, oneLine_append, oneLine_append]
  exact ⟨hquote, oneLine_flatMap (fun c => (escapes_quoteChar c).oneLine) _, hquote⟩

end Strings

section Summaries

namespace Pruned

mutual

def keys : Pruned → List String
  | .leaf _ => []
  | .arr items => itemKeys items
  | .obj members => memberKeys members

def itemKeys : List Pruned → List String
  | [] => []
  | p :: rest => p.keys ++ itemKeys rest

def memberKeys : List (String × Pruned) → List String
  | [] => []
  | (k, p) :: rest => k :: (p.keys ++ memberKeys rest)

end

theorem oneLine_leafText (head : Head) : OneLine (leafText head).toList := by
  cases head with
  | null => decide
  | bool b => cases b <;> decide
  | num n => exact oneLine_number n
  | str s => exact oneLine_quoted s
  | arr => decide
  | obj => decide

theorem oneLine_enclosed {opening closing : String} (hopening : OneLine opening.toList)
    (hclosing : OneLine closing.toList) (parts : List String) :
    OneLine (opening ++ ", ".intercalate parts ++ closing).toList ↔
      ∀ part ∈ parts, OneLine part.toList := by
  have hsep : OneLine ", ".toList := by decide
  simp only [String.toList_append, String.toList_intercalate, oneLine_append,
    oneLine_intercalate hsep, List.forall_mem_map, hopening, hclosing, true_and, and_true]

mutual

theorem oneLine_render (p : Pruned) :
    OneLine p.render.toList ↔ ∀ key ∈ p.keys, OneLine key.toList :=
  match p with
  | .leaf head => by simp [render, keys, oneLine_leafText]
  | .arr [] => by
      simp only [render, keys, itemKeys]
      decide
  | .obj [] => by
      simp only [render, keys, memberKeys]
      decide
  | .arr (first :: rest) => by
      rw [render, oneLine_enclosed (by decide) (by decide)]
      exact oneLine_renderItems (first :: rest)
  | .obj (first :: rest) => by
      rw [render, oneLine_enclosed (by decide) (by decide)]
      exact oneLine_renderMembers (first :: rest)

theorem oneLine_renderItems (items : List Pruned) :
    (∀ part ∈ renderItems items, OneLine part.toList) ↔
      ∀ key ∈ itemKeys items, OneLine key.toList :=
  match items with
  | [] => by simp [renderItems, itemKeys]
  | p :: rest => by
      rw [renderItems, itemKeys, List.forall_mem_cons, List.forall_mem_append, oneLine_render p,
        oneLine_renderItems rest]

theorem oneLine_renderMembers (members : List (String × Pruned)) :
    (∀ part ∈ renderMembers members, OneLine part.toList) ↔
      ∀ key ∈ memberKeys members, OneLine key.toList :=
  match members with
  | [] => by simp [renderMembers, memberKeys]
  | (k, p) :: rest => by
      have hcolon : OneLine ": ".toList := by decide
      rw [renderMembers, memberKeys, List.forall_mem_cons, List.forall_mem_cons,
        List.forall_mem_append, oneLine_renderMembers rest, String.toList_append,
        String.toList_append, oneLine_append, oneLine_append, oneLine_render p,
        and_iff_left hcolon, and_assoc]

end

end Pruned

theorem oneLine_summary (depth : Nat) (j : Json) :
    OneLine (j.summary depth).toList ↔ ∀ key ∈ (j.prune depth).keys, OneLine key.toList := by
  rw [summary_eq, Pruned.oneLine_render]

end Summaries

end LinkGraph.Json
