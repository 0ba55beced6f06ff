import LinkGraph.Proofs.Text.Line
import LinkGraph.Text.Quoted
import Mathlib.Logic.Function.Defs

namespace LinkGraph.Text

theorem append_cons_inj {x : Char} {cs ds r r' : List Char} (hcs : x ∉ cs) (hds : x ∉ ds)
    (h : cs ++ x :: r = ds ++ x :: r') : cs = ds ∧ r = r' := by
  have hfirst := congrArg (List.splitOn x) h
  rw [List.splitOn_append_cons_self_of_not_mem hcs, List.splitOn_append_cons_self_of_not_mem hds,
    List.cons.injEq] at hfirst
  obtain ⟨rfl, -⟩ := hfirst
  exact ⟨rfl, (List.cons.inj (List.append_cancel_left h)).2⟩

section Digits

variable {b : Nat}

theorem digit_of_mem_toDigits (hb : 1 < b) {n : Nat} {c : Char} (h : c ∈ Nat.toDigits b n) :
    ∃ d < b, c = d.digitChar := by
  induction n using Nat.strongRecOn with
  | ind n ih =>
      rw [Nat.toDigits_eq_if hb] at h
      split at h
      · rename_i hn
        exact ⟨n, hn, List.mem_singleton.mp h⟩
      · rename_i hn
        rcases List.mem_append.mp h with h | h
        · exact ih (n / b) (Nat.div_lt_self (by omega) hb) h
        · exact ⟨n % b, Nat.mod_lt n (by omega), List.mem_singleton.mp h⟩

theorem digitChar_inj (hb : b ≤ 16) {d e : Nat} (hd : d < b) (he : e < b)
    (h : d.digitChar = e.digitChar) : d = e := by
  have hall : ∀ d < 16, ∀ e < 16, d.digitChar = e.digitChar → d = e := by decide
  exact hall d (by omega) e (by omega) h

theorem toDigits_inj (hb : 1 < b) (hb' : b ≤ 16) {n m : Nat}
    (h : Nat.toDigits b n = Nat.toDigits b m) : n = m := by
  induction n using Nat.strongRecOn generalizing m with
  | ind n ih =>
      rw [Nat.toDigits_eq_if hb, Nat.toDigits_eq_if (n := m) hb] at h
      have hn := Nat.mod_lt n (Nat.lt_of_succ_lt hb)
      have hm := Nat.mod_lt m (Nat.lt_of_succ_lt hb)
      split at h
      · split at h
        · exact digitChar_inj hb' ‹_› ‹_› (List.singleton_inj.mp h)
        · have hlength := congrArg List.length h
          have := Nat.length_toDigits_pos (b := b) (n := m / b)
          simp only [List.length_append, List.length_singleton] at hlength
          omega
      · split at h
        · have hlength := congrArg List.length h
          have := Nat.length_toDigits_pos (b := b) (n := n / b)
          simp only [List.length_append, List.length_singleton] at hlength
          omega
        · obtain ⟨hdiv, hmod⟩ := List.append_inj' h rfl
          have hdiv : n / b = m / b := ih (n / b) (Nat.div_lt_self (by omega) hb) hdiv
          have hmod : n % b = m % b := digitChar_inj hb' hn hm (List.singleton_inj.mp hmod)
          rw [← Nat.div_add_mod n b, ← Nat.div_add_mod m b, hdiv, hmod]

end Digits

def letters : List (Char × Char) :=
  [('\x00', '0'), ('\t', 't'), ('\n', 'n'), ('\r', 'r'), ('\"', '\"'), ('\\', '\\')]

/-- How a character may be quoted: as itself, by a letter, or by its number. -/
inductive Quotes (c : Char) : List Char → Prop where
  | self (h : ∀ p ∈ letters, c ≠ p.1) : Quotes c [c]
  | letter {x : Char} (h : (c, x) ∈ letters) : Quotes c ['\\', x]
  | number : Quotes c ('\\' :: 'u' :: '\x7b' :: (Nat.toDigits 16 c.toNat ++ ['\x7d']))

theorem quotes_quoteChar (hidden : Char → Bool) (c : Char) : Quotes c (quoteChar hidden c) := by
  rw [quoteChar]
  by_cases hc : ∃ p ∈ letters, c = p.1
  · obtain ⟨p, hp, rfl⟩ := hc
    simp only [letters, List.mem_cons, List.not_mem_nil, or_false] at hp
    rcases hp with rfl | rfl | rfl | rfl | rfl | rfl <;> exact .letter (by decide)
  · have hself : ∀ p ∈ letters, c ≠ p.1 := fun p hp heq => hc ⟨p, hp, heq⟩
    rw [if_neg (hself ('\x00', '0') (by decide)), if_neg (hself ('\t', 't') (by decide)),
      if_neg (hself ('\n', 'n') (by decide)), if_neg (hself ('\r', 'r') (by decide)),
      if_neg (hself ('\"', '\"') (by decide)), if_neg (hself ('\\', '\\') (by decide))]
    split
    · exact .number
    · exact .self hself

theorem not_mem_toDigits {n : Nat} {c : Char} (h : ∀ d < 16, c ≠ d.digitChar) :
    c ∉ Nat.toDigits 16 n := by
  intro hc
  obtain ⟨d, hd, heq⟩ := digit_of_mem_toDigits (by decide) hc
  exact h d hd heq

namespace Quotes

variable {c c' : Char} {q q' r r' : List Char}

theorem append_inj (h : Quotes c q) (h' : Quotes c' q') (heq : q ++ r = q' ++ r') :
    c = c' ∧ r = r' := by
  have hbackslash : ('\\', '\\') ∈ letters := by decide
  have hsame : ∀ p ∈ letters, ∀ p' ∈ letters, p.2 = p'.2 → p.1 = p'.1 := by decide
  have hnumber : ∀ p ∈ letters, p.2 ≠ 'u' := by decide
  have hclosing {n : Nat} : '\x7d' ∉ Nat.toDigits 16 n := not_mem_toDigits (by decide)
  cases h with
  | self hself =>
      cases h' with
      | self => exact List.cons.inj heq
      | letter => exact absurd (List.cons.inj heq).1 (hself _ hbackslash)
      | number => exact absurd (List.cons.inj heq).1 (hself _ hbackslash)
  | @letter x hx =>
      cases h' with
      | self hself => exact absurd (List.cons.inj heq).1.symm (hself _ hbackslash)
      | @letter y hy =>
          simp only [List.cons_append, List.nil_append, List.cons.injEq, true_and] at heq
          exact ⟨hsame _ hx _ hy heq.1, heq.2⟩
      | number =>
          simp only [List.cons_append, List.nil_append, List.cons.injEq, true_and] at heq
          exact absurd heq.1 (hnumber _ hx)
  | number =>
      cases h' with
      | self hself => exact absurd (List.cons.inj heq).1.symm (hself _ hbackslash)
      | @letter y hy =>
          simp only [List.cons_append, List.nil_append, List.cons.injEq, true_and] at heq
          exact absurd heq.1.symm (hnumber _ hy)
      | number =>
          simp only [List.cons_append, List.nil_append, List.append_assoc, List.cons.injEq,
            true_and] at heq
          obtain ⟨hdigits, hrest⟩ := append_cons_inj hclosing hclosing heq
          exact ⟨Char.toNat_inj.mp (toDigits_inj (by decide) (by decide) hdigits), hrest⟩

theorem not_closing (h : Quotes c q) : q ++ r ≠ '\"' :: r' := by
  intro heq
  cases h with
  | self hself => exact hself ('\"', '\"') (by decide) (List.cons.inj heq).1
  | letter => cases heq
  | number => cases heq

theorem oneLine (h : Quotes c q) : OneLine q := by
  cases h with
  | self hself =>
      simp only [OneLine, List.mem_singleton]
      exact ⟨(hself ('\n', 'n') (by decide)).symm, (hself ('\r', 'r') (by decide)).symm⟩
  | letter hx =>
      have hall : ∀ p ∈ letters, OneLine ['\\', p.2] := by decide
      exact hall _ hx
  | number =>
      simp only [OneLine, List.mem_cons, List.mem_append, List.not_mem_nil, or_false, not_or]
      exact ⟨⟨by decide, by decide, by decide, not_mem_toDigits (by decide), by decide⟩,
        ⟨by decide, by decide, by decide, not_mem_toDigits (by decide), by decide⟩⟩

end Quotes

/-- A quoted text tells what it quotes and where it ends. -/
theorem quoteChars_append_inj {hidden : Char → Bool} {cs ds r r' : List Char}
    (h : quoteChars hidden cs ++ r = quoteChars hidden ds ++ r') : cs = ds ∧ r = r' := by
  simp only [quoteChars, List.cons_append, List.append_assoc, List.cons.injEq, true_and,
    List.nil_append] at h
  induction cs generalizing ds with
  | nil =>
      cases ds with
      | nil => exact ⟨rfl, (List.cons.inj h).2⟩
      | cons d ds =>
          rw [List.flatMap_cons, List.append_assoc] at h
          exact absurd h.symm (quotes_quoteChar hidden d).not_closing
  | cons c cs ih =>
      cases ds with
      | nil =>
          rw [List.flatMap_cons, List.append_assoc] at h
          exact absurd h (quotes_quoteChar hidden c).not_closing
      | cons d ds =>
          simp only [List.flatMap_cons, List.append_assoc] at h
          obtain ⟨rfl, htail⟩ :=
            (quotes_quoteChar hidden c).append_inj (quotes_quoteChar hidden d) h
          obtain ⟨rfl, hrest⟩ := ih htail
          exact ⟨rfl, hrest⟩

theorem toList_quoted (s : String) : (quoted s).toList = quoteChars isHidden s.toList :=
  String.toList_ofList

theorem quoted_injective : Function.Injective quoted := by
  intro s t h
  have hchars : quoteChars isHidden s.toList ++ [] = quoteChars isHidden t.toList ++ [] := by
    rw [← toList_quoted, ← toList_quoted, h]
  exact String.toList_inj.mp (quoteChars_append_inj hchars).1

theorem oneLine_quoted (s : String) : OneLine (quoted s).toList := by
  have hquote : OneLine ['\"'] := by decide
  rw [toList_quoted, quoteChars, ← List.singleton_append, oneLine_append, oneLine_append]
  exact ⟨hquote, oneLine_flatMap (fun c => (quotes_quoteChar isHidden c).oneLine) _, hquote⟩

end LinkGraph.Text
