import LinkGraph.Json.Shape
import LinkGraph.Json.Summary

namespace LinkGraph.Json

/-- A document in which some containers are only named: a leaf is a scalar, or the mark that stands
in the place of a container. -/
inductive Pruned where
  | leaf (head : Head)
  | arr (items : List Pruned)
  | obj (members : List (String × Pruned))

namespace Pruned

def leafText : Head → String
  | .null => "null"
  | .bool b => boolText b
  | .num n => n.text
  | .str s => quoted s
  | .arr => "[Array]"
  | .obj => "[Object]"

mutual

def render : Pruned → String
  | .leaf head => leafText head
  | .arr [] => "[]"
  | .arr (first :: rest) => "[ " ++ ", ".intercalate (first.render :: renderItems rest) ++ " ]"
  | .obj [] => "\x7b\x7d"
  | .obj ((k, first) :: rest) =>
      "\x7b " ++ ", ".intercalate ((k ++ ": " ++ first.render) :: renderMembers rest) ++ " \x7d"

def renderItems : List Pruned → List String
  | [] => []
  | p :: rest => p.render :: renderItems rest

def renderMembers : List (String × Pruned) → List String
  | [] => []
  | (k, p) :: rest => (k ++ ": " ++ p.render) :: renderMembers rest

end

end Pruned

mutual

def keep (levels : Nat) : Json → Pruned
  | .arr items =>
      match levels with
      | 0 => if items.isEmpty then .arr [] else .leaf .arr
      | levels + 1 => .arr (keepItems levels items)
  | .obj members =>
      match levels with
      | 0 => if members.isEmpty then .obj [] else .leaf .obj
      | levels + 1 => .obj (keepMembers levels members)
  | j => .leaf j.head

def keepItems (levels : Nat) : List Json → List Pruned
  | [] => []
  | j :: rest => j.keep levels :: keepItems levels rest

def keepMembers (levels : Nat) : List (String × Json) → List (String × Pruned)
  | [] => []
  | (k, j) :: rest => (k, j.keep levels) :: keepMembers levels rest

end

/-- The containers nested at most `depth` levels below the top stay. -/
def prune (depth : Nat) (j : Json) : Pruned := j.keep (depth + 1)

mutual

def whole : Json → Pruned
  | .arr items => .arr (wholeItems items)
  | .obj members => .obj (wholeMembers members)
  | j => .leaf j.head

def wholeItems : List Json → List Pruned
  | [] => []
  | j :: rest => j.whole :: wholeItems rest

def wholeMembers : List (String × Json) → List (String × Pruned)
  | [] => []
  | (k, j) :: rest => (k, j.whole) :: wholeMembers rest

end

mutual

def levels : Json → Nat
  | .arr items => if items.isEmpty then 0 else itemLevels items + 1
  | .obj members => if members.isEmpty then 0 else memberLevels members + 1
  | _ => 0

def itemLevels : List Json → Nat
  | [] => 0
  | j :: rest => max j.levels (itemLevels rest)

def memberLevels : List (String × Json) → Nat
  | [] => 0
  | (_, j) :: rest => max j.levels (memberLevels rest)

end

def nesting (j : Json) : Nat := j.levels - 1

section Summaries

open Pruned

mutual

/-- The level is counted up from the top, and what is left of the levels is counted down. -/
theorem summaryBelow_eq (depth level : Nat) (j : Json) :
    j.summaryBelow depth level = (j.keep (depth + 1 - level)).render :=
  match j with
  | .null | .bool _ | .num _ | .str _ => by
      simp [summaryBelow, keep, render, leafText, compact, head]
  | .arr [] => by
      cases hlevels : depth + 1 - level <;> simp [summaryBelow, keep, keepItems, render]
  | .obj [] => by
      cases hlevels : depth + 1 - level <;> simp [summaryBelow, keep, keepMembers, render]
  | .arr (first :: rest) => by
      by_cases h : depth < level
      · have hlevels : depth + 1 - level = 0 := by omega
        rw [summaryBelow, if_pos h, hlevels]
        rfl
      · have hlevels : depth + 1 - level = (depth + 1 - (level + 1)) + 1 := by omega
        rw [summaryBelow, if_neg h, hlevels, itemSummaries, summaryBelow_eq, itemSummaries_eq]
        rfl
  | .obj ((key, first) :: rest) => by
      by_cases h : depth < level
      · have hlevels : depth + 1 - level = 0 := by omega
        rw [summaryBelow, if_pos h, hlevels]
        rfl
      · have hlevels : depth + 1 - level = (depth + 1 - (level + 1)) + 1 := by omega
        rw [summaryBelow, if_neg h, hlevels, memberSummaries, summaryBelow_eq, memberSummaries_eq]
        rfl

theorem itemSummaries_eq (depth level : Nat) (items : List Json) :
    itemSummaries depth level items = renderItems (keepItems (depth + 1 - level) items) :=
  match items with
  | [] => by simp [itemSummaries, keepItems, renderItems]
  | j :: rest => by
      rw [itemSummaries, summaryBelow_eq, itemSummaries_eq, keepItems, renderItems]

theorem memberSummaries_eq (depth level : Nat) (members : List (String × Json)) :
    memberSummaries depth level members = renderMembers (keepMembers (depth + 1 - level) members) :=
  match members with
  | [] => by simp [memberSummaries, keepMembers, renderMembers]
  | (key, j) :: rest => by
      rw [memberSummaries, summaryBelow_eq, memberSummaries_eq, keepMembers, renderMembers]

end

theorem summary_eq (depth : Nat) (j : Json) : j.summary depth = (j.prune depth).render :=
  summaryBelow_eq depth 0 j

end Summaries

section Levels

mutual

theorem keep_eq_whole (levels : Nat) (j : Json) : j.keep levels = j.whole ↔ j.levels ≤ levels :=
  match j with
  | .null | .bool _ | .num _ | .str _ => by simp [keep, whole, Json.levels]
  | .arr [] => by cases levels <;> simp [keep, keepItems, whole, wholeItems, Json.levels]
  | .obj [] => by cases levels <;> simp [keep, keepMembers, whole, wholeMembers, Json.levels]
  | .arr (first :: rest) => by
      cases levels with
      | zero => simp [keep, whole, Json.levels]
      | succ levels =>
          have hitems := keepItems_eq_whole levels (first :: rest)
          simp [keep, whole, Json.levels, hitems]
  | .obj (first :: rest) => by
      cases levels with
      | zero => simp [keep, whole, Json.levels]
      | succ levels =>
          have hmembers := keepMembers_eq_whole levels (first :: rest)
          simp [keep, whole, Json.levels, hmembers]

theorem keepItems_eq_whole (levels : Nat) (items : List Json) :
    keepItems levels items = wholeItems items ↔ itemLevels items ≤ levels :=
  match items with
  | [] => by simp [keepItems, wholeItems, itemLevels]
  | j :: rest => by
      have hfirst := keep_eq_whole levels j
      have hrest := keepItems_eq_whole levels rest
      simp only [keepItems, wholeItems, itemLevels, List.cons.injEq, hfirst, hrest, Nat.max_le]

theorem keepMembers_eq_whole (levels : Nat) (members : List (String × Json)) :
    keepMembers levels members = wholeMembers members ↔ memberLevels members ≤ levels :=
  match members with
  | [] => by simp [keepMembers, wholeMembers, memberLevels]
  | (_, j) :: rest => by
      have hfirst := keep_eq_whole levels j
      have hrest := keepMembers_eq_whole levels rest
      simp only [keepMembers, wholeMembers, memberLevels, List.cons.injEq, Prod.mk.injEq, true_and,
        hfirst, hrest, Nat.max_le]

end

theorem prune_eq_whole {depth : Nat} {j : Json} : j.prune depth = j.whole ↔ j.nesting ≤ depth := by
  rw [prune, keep_eq_whole, nesting]
  omega

end Levels

/-- A summary renders, without any limit, what is left of the document at its depth. So documents
of which the same is left have one summary, and nothing is left out from the depth of the deepest
container on. -/
theorem summary_renders_pruned (depth : Nat) (j : Json) :
    j.summary depth = (j.prune depth).render ∧
      (∀ j' : Json, j.prune depth = j'.prune depth → j.summary depth = j'.summary depth) ∧
      (j.prune depth = j.whole ↔ j.nesting ≤ depth) ∧
      (j.nesting ≤ depth → j.summary depth = j.whole.render) := by
  refine ⟨summary_eq depth j, fun j' h => ?_, prune_eq_whole, fun h => ?_⟩
  · rw [summary_eq, summary_eq, h]
  · rw [summary_eq, prune_eq_whole.mpr h]

theorem deep_array_left_out :
    let j : Json := .obj [("a", .obj [("c", .arr [.bool true])]), ("b", .arr [])]
    let j' : Json := .obj [("a", .obj [("d", .null)]), ("b", .arr [])]
    (j.prune 0 = j'.prune 0 ∧ j.nesting ≤ 2) ∧ j.summary 0 = j'.summary 0 ∧
      j.summary 2 = j.whole.render := by
  intro j j'
  have hprune : j.prune 0 = j'.prune 0 := rfl
  have hnesting : j.nesting ≤ 2 := by decide
  exact ⟨⟨hprune, hnesting⟩, (summary_renders_pruned 0 j).2.1 j' hprune,
    (summary_renders_pruned 2 j).2.2.2 hnesting⟩

end LinkGraph.Json
