import LinkGraph.Proofs.Session.Integrity
import Mathlib.Algebra.Order.BigOperators.Group.List
import Mathlib.Algebra.Order.Group.Nat
import Mathlib.Logic.Function.Basic
import Mathlib.Logic.Relation

namespace LinkGraph

namespace Store

def RefersTo (s : Store) (id x : LinkId) : Prop := ∃ l, s.link? id = some l ∧ x ∈ l.references

def RankedBy (s : Store) (rank : LinkId → Nat) : Prop :=
  ∀ {id x}, s.RefersTo id x → id ≠ KindTable.core.type → rank x < rank id

def Ranked (s : Store) : Prop := ∃ rank, s.RankedBy rank

variable {s t : Store} {rank : LinkId → Nat} {id x : LinkId}

theorem refersTo_putLink {l : Link} (hfree : s.hasLink l.id = false) :
    (s.putLink l).RefersTo id x ↔ s.RefersTo id x ∨ l.id = id ∧ x ∈ l.references := by
  have hlinks := getElem?_putLink hfree id
  constructor
  · rintro ⟨l', hl', hx⟩
    rcases (hlinks l').mp hl' with hl' | ⟨hid, rfl⟩
    · exact .inl ⟨l', hl', hx⟩
    · exact .inr ⟨hid.symm, hx⟩
  · rintro (⟨l', hl', hx⟩ | ⟨hid, hx⟩)
    · exact ⟨l', (hlinks l').mpr (.inl hl'), hx⟩
    · exact ⟨l, (hlinks l).mpr (.inr ⟨hid.symm, rfl⟩), hx⟩

namespace RefersTo

theorem hasLink_left (h : s.RefersTo id x) : s.hasLink id = true := by
  obtain ⟨l, hl, -⟩ := h
  exact hasLink_of_link hl

theorem hasLink_right (h : s.RefersTo id x) (hs : s.Closed) : s.hasLink x = true := by
  obtain ⟨l, hl, hx⟩ := h
  exact hs.closed hl x hx

end RefersTo

/-- A link that is written ranks above all that it refers to. Nothing refers to it yet, so that the
ranks of the others need not change. -/
theorem Ranked.putLink (h : s.Ranked) (hs : s.Closed) {l : Link} (hfree : s.hasLink l.id = false)
    (known : ∀ x ∈ l.references, s.hasLink x = true) : (s.putLink l).Ranked := by
  obtain ⟨rank, hrank⟩ := h
  let above : Nat := (l.references.map rank).sum + 1
  have hkept {x : LinkId} (hx : s.hasLink x = true) :
      Function.update rank l.id above x = rank x := by
    refine Function.update_of_ne ?_ above rank
    rintro rfl
    exact Bool.false_ne_true (hfree.symm.trans hx)
  refine ⟨Function.update rank l.id above, fun {id x} h htype => ?_⟩
  rcases (refersTo_putLink hfree).mp h with h | ⟨rfl, hx⟩
  · rw [hkept (h.hasLink_right hs), hkept h.hasLink_left]
    exact hrank h htype
  · rw [hkept (known x hx), Function.update_self]
    exact Nat.lt_succ_of_le (List.le_sum_of_mem (List.mem_map_of_mem hx))

theorem Written.ranked {batch : Batch} (hw : Written s batch t) (h : s.Ranked) (hs : s.Closed) :
    t.Ranked := by
  induction hw with
  | nil => exact h
  | @cons s _ op _ admits _ ih =>
      refine ih ?_ (closed_write hs admits)
      cases op with
      | insertNode id node => exact h.putLink hs admits.2.1 admits.1
      | insertValue target value => exact h

theorem Step.ranked {e : Event} (h : Step s e t) (hr : s.Ranked) (hs : s.Sound) : t.Ranked := by
  cases h with
  | reserved | documented => exact hr
  | inserted known =>
      exact Ranked.putLink (s := s.advance 1) hr (hs.toClosed.nextId _)
        (hs.ahead.fresh_nextId (Nat.le_refl _)) known
  | applied written => exact written.ranked hr hs.toClosed

theorem Trail.ranked {es : List Event} (h : Trail s es t) (hr : s.Ranked) (hs : s.Sound)
    (hroom : s.HasRoom (asked es)) : t.Ranked := by
  induction h with
  | nil => exact hr
  | cons step _ ih =>
      rw [asked_cons] at hroom
      exact ih (step.ranked hr hs) (step.sound hs hroom.left) (step.room hroom)

end Store

namespace Session

end Session

end LinkGraph
