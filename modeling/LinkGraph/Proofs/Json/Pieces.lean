import LinkGraph.Json.Read
import LinkGraph.Json.Text
import LinkGraph.Proofs.Text.Quoted
import Mathlib.Data.List.Forall2

namespace LinkGraph.Json

/-- The tokens of a text that is read from a mode on, up to its end. -/
def Mode.tokens (mode : Mode) : List Char → List Token
  | [] => mode.finish
  | c :: rest => (mode.step c).2 ++ Mode.tokens (mode.step c).1 rest

/-- Characters are read one by one, but what is built depends on the tokens alone. -/
theorem Reader.foldl_finish_run (r : Reader) (cs : List Char) :
    (r.run cs).mode.finish.foldl Builder.push (r.run cs).built =
      (r.mode.tokens cs).foldl Builder.push r.built := by
  induction cs generalizing r with
  | nil => rfl
  | cons c cs ih =>
      have hstep : r.step c =
          ⟨(r.mode.step c).1, (r.mode.step c).2.foldl Builder.push r.built⟩ := rfl
      rw [Reader.run, List.foldl_cons, ← Reader.run, ih, hstep, Mode.tokens, List.foldl_append]

theorem draft_of_tokens {text : String} {ts : List Token} {d : Draft}
    (htokens : Mode.between.tokens text.toList = ts)
    (hbuilt : ts.foldl Builder.push (.value []) = .after [] d) : draft text = (d, true) := by
  have hrun : (Reader.start.run text.toList).mode.finish.foldl Builder.push
      (Reader.start.run text.toList).built = .after [] d := by
    rw [Reader.foldl_finish_run, Reader.start, htokens, hbuilt]
  simp only [draft, hrun]

structure EndsNumeral (c : Char) : Prop where
  digit : Numeral.digit? c = none
  point : c ≠ '.'
  mark : Numeral.isMark c = false

/-- The text is read as these tokens wherever it stands, unless what follows goes on with a
numeral. -/
def Spells (cs : List Char) (tokens : List Token) : Prop :=
  ∀ rest : List Char, (∀ c ∈ rest.head?, EndsNumeral c) →
    Mode.between.tokens (cs ++ rest) = tokens ++ Mode.between.tokens rest

namespace Spells

variable {c : Char} {cs ds : List Char} {ts us : List Token}

theorem tokens_eq (h : Spells cs ts) : Mode.between.tokens cs = ts := by
  have hend := h [] (by simp)
  rwa [List.append_nil, Mode.tokens, Mode.finish, List.append_nil] at hend

theorem nil : Spells [] [] := fun _ _ => rfl

theorem sign {t : Token} (hc : Mode.start c = (.between, [t])) (h : Spells cs ts) :
    Spells (c :: cs) (t :: ts) := by
  intro rest hrest
  rw [List.cons_append, Mode.tokens, Mode.step, hc, h rest hrest]
  rfl

theorem append_cons (hcs : Spells cs ts) (hc : EndsNumeral c) (hds : Spells (c :: ds) us) :
    Spells (cs ++ c :: ds) (ts ++ us) := by
  intro rest hrest
  rw [List.append_assoc, List.append_assoc, ← hds rest hrest]
  apply hcs
  simp [hc]

end Spells

section Gaps

variable {c : Char} {cs ds gap gap' : List Char} {ts us : List Token}

def blanks : List Char := [' ', '\t', '\n', '\r']

def Gap (gap : List Char) : Prop := ∀ c ∈ gap, c ∈ blanks

theorem gap_nil : Gap [] := List.forall_mem_nil _

theorem gap_space : Gap [' '] := List.forall_mem_singleton.mpr (by decide)

theorem start_blank (h : c ∈ blanks) : Mode.start c = (.between, []) := by
  simp only [blanks, List.mem_cons, List.not_mem_nil, or_false] at h
  rcases h with rfl | rfl | rfl | rfl <;> rfl

theorem endsNumeral_blank (h : c ∈ blanks) : EndsNumeral c := by
  simp only [blanks, List.mem_cons, List.not_mem_nil, or_false] at h
  rcases h with rfl | rfl | rfl | rfl <;> exact ⟨rfl, by decide, rfl⟩

theorem Spells.gap_append (hgap : Gap gap) (h : Spells cs ts) : Spells (gap ++ cs) ts := by
  induction gap with
  | nil => exact h
  | cons c gap ih =>
      obtain ⟨hblank, hgap⟩ := List.forall_mem_cons.mp hgap
      intro rest hrest
      rw [List.cons_append, List.cons_append, Mode.tokens, Mode.step, start_blank hblank,
        List.nil_append]
      exact ih hgap rest hrest

theorem Spells.append_gap_cons (hcs : Spells cs ts) (hgap : Gap gap) (hc : EndsNumeral c)
    (hds : Spells (c :: ds) us) : Spells (cs ++ (gap ++ c :: ds)) (ts ++ us) := by
  have htail : Spells (gap ++ c :: ds) us := hds.gap_append hgap
  cases gap with
  | nil => exact hcs.append_cons hc htail
  | cons b gap => exact hcs.append_cons (endsNumeral_blank (hgap b List.mem_cons_self)) htail

theorem endsNumeral_comma : EndsNumeral ',' := ⟨rfl, by decide, rfl⟩

theorem Spells.separated (hgap : Gap gap) {texts : List (List Char)} {tokens : List (List Token)}
    (h : List.Forall₂ Spells texts tokens) :
    Spells ((',' :: gap).intercalate texts) ([Token.comma].intercalate tokens) := by
  induction h with
  | nil => exact .nil
  | @cons cs ts texts tokens hfirst hrest ih =>
      cases hrest with
      | nil => simpa using hfirst
      | cons hsecond hrest =>
          rw [List.intercalate_cons_cons, List.intercalate_cons_cons, List.append_assoc,
            List.append_assoc, List.cons_append]
          exact hfirst.append_cons endsNumeral_comma (.sign rfl (.gap_append hgap ih))

theorem Spells.enclosed {opening closing : Char} {t t' : Token}
    (hopening : Mode.start opening = (.between, [t]))
    (hclosing : Mode.start closing = (.between, [t'])) (hends : EndsNumeral closing)
    (hgap : Gap gap) (hgap' : Gap gap') (h : Spells cs ts) :
    Spells (opening :: (gap ++ (cs ++ (gap' ++ [closing])))) (t :: (ts ++ [t'])) :=
  .sign hopening (.gap_append hgap (h.append_gap_cons hgap' hends (.sign hclosing .nil)))

end Gaps

section Numerals

open Numeral

variable {x : Numeral} {n : Nat} {negative : Bool}

theorem tokens_of_more {stage stage' : Stage} {x' : Numeral} {c : Char} (rest : List Char)
    (h : x.step stage c = .more stage' x') :
    (Mode.numeral stage x).tokens (c :: rest) = (Mode.numeral stage' x').tokens rest := by
  rw [Mode.tokens, Mode.step, h]
  rfl

theorem digit?_digitChar {d : Nat} (h : d < 10) : digit? d.digitChar = some d := by
  have hall : ∀ d < 10, digit? (Nat.digitChar d) = some d := by decide
  exact hall d h

theorem pushWhole_of_lt {d : Nat} (h : n * 10 + d < 18446744073709551616) :
    pushWhole { negative, significand := n } d = { negative, significand := n * 10 + d } := by
  simp [pushWhole, fits, h]

theorem tokens_toDigits (hpos : n ≠ 0) (h : n < 18446744073709551616) (rest : List Char) :
    (Mode.numeral .sign { negative }).tokens (Nat.toDigits 10 n ++ rest) =
      (Mode.numeral .whole { negative, significand := n }).tokens rest := by
  induction n using Nat.strongRecOn generalizing rest with
  | ind n ih =>
      rw [Nat.toDigits_eq_if (by decide)]
      by_cases hn : n < 10
      · have hpush : pushWhole { negative } n = { negative, significand := n } := by
          have hempty : 0 * 10 + n < 18446744073709551616 := by omega
          simpa using pushWhole_of_lt hempty
        rw [if_pos hn]
        apply tokens_of_more
        obtain ⟨k, rfl⟩ := Nat.exists_eq_succ_of_ne_zero hpos
        simp only [step, digit?_digitChar hn, hpush]
      · have hlast : n % 10 < 10 := Nat.mod_lt n (by decide)
        have hsplit : n / 10 * 10 + n % 10 = n := by omega
        have hpush : pushWhole { negative, significand := n / 10 } (n % 10) =
            { negative, significand := n } := by
          rw [pushWhole_of_lt (by omega), hsplit]
        rw [if_neg hn, List.append_assoc, ih (n / 10) (by omega) (by omega) (by omega)]
        apply tokens_of_more
        simp only [step, digit?_digitChar hlast, hpush]

theorem afterDigits_of_endsNumeral {c : Char} (h : EndsNumeral c) (pointAllowed : Bool) :
    x.afterDigits pointAllowed c = .complete := by
  simp [afterDigits, h.point, h.mark]

theorem tokens_of_complete {stage : Stage} {number : Option Number}
    (hstep : ∀ c, EndsNumeral c → x.step stage c = .complete)
    (hfinish : x.finish? stage = some number) {rest : List Char}
    (hrest : ∀ c ∈ rest.head?, EndsNumeral c) :
    (Mode.numeral stage x).tokens rest = .num number :: Mode.between.tokens rest := by
  cases rest with
  | nil => simp only [Mode.tokens, Mode.finish, hfinish]
  | cons c rest =>
      have hc : EndsNumeral c := hrest c rfl
      simp only [Mode.tokens, Mode.step, hstep c hc, hfinish, List.cons_append]

theorem number?_whole {i : Int} (hi : i = if negative then -(n : Int) else n) (hpos : n ≠ 0)
    (fits : -9223372036854775808 ≤ i ∧ i < 18446744073709551616) :
    number? { negative, significand := n } = some (.int i fits) := by
  subst hi
  simp only [number?, hpos, and_false, not_false_eq_true, and_self, true_and, Bool.false_eq_true]
  exact dif_pos fits

theorem tokens_whole {i : Int} (hi : i = if negative then -(n : Int) else n) (hpos : n ≠ 0)
    (fits : -9223372036854775808 ≤ i ∧ i < 18446744073709551616) {rest : List Char}
    (hrest : ∀ c ∈ rest.head?, EndsNumeral c) :
    (Mode.numeral .sign { negative }).tokens (Nat.toDigits 10 n ++ rest) =
      .num (some (.int i fits)) :: Mode.between.tokens rest := by
  have hlt : n < 18446744073709551616 := by
    cases negative <;> simp only [Bool.false_eq_true, if_true, if_false] at hi <;> omega
  have hfinish : finish? .whole { negative, significand := n } = some (some (.int i fits)) := by
    rw [finish?, number?_whole hi hpos]
  rw [tokens_toDigits hpos hlt]
  refine tokens_of_complete (fun c hc => ?_) hfinish hrest
  simp only [step, hc.digit]
  exact afterDigits_of_endsNumeral hc true

theorem start_digitChar {d : Nat} (h : d < 10) :
    Mode.start d.digitChar = Mode.step (.numeral .sign { negative := false }) d.digitChar := by
  have hall : ∀ d < 10, Mode.start (Nat.digitChar d) =
      Mode.step (.numeral .sign { negative := false }) (Nat.digitChar d) := by decide
  exact hall d h

theorem between_tokens_toDigits (n : Nat) (rest : List Char) :
    Mode.between.tokens (Nat.toDigits 10 n ++ rest) =
      (Mode.numeral .sign { negative := false }).tokens (Nat.toDigits 10 n ++ rest) := by
  cases hdigits : Nat.toDigits 10 n with
  | nil => exact absurd hdigits (Nat.toDigits_ne_nil)
  | cons c cs =>
      obtain ⟨d, hd, rfl⟩ := Text.digit_of_mem_toDigits (by decide) (hdigits ▸ List.mem_cons_self)
      rw [List.cons_append, Mode.tokens, Mode.tokens, Mode.step, start_digitChar hd]

theorem spells_zero : Spells ['0'] [.num (some (.int 0 (by decide)))] := by
  intro rest hrest
  have hfinish : finish? .zero { negative := false } =
      some (some (.int 0 (by decide))) := rfl
  refine tokens_of_complete (fun c hc => ?_) hfinish hrest
  simp only [step, hc.digit]
  exact afterDigits_of_endsNumeral hc true

theorem spells_int {i : Int} (fits : -9223372036854775808 ≤ i ∧ i < 18446744073709551616) :
    Spells (Number.int i fits).text.toList [.num (some (.int i fits))] := by
  rw [Number.text, Int.toString_eq_repr, Int.repr_eq_if]
  by_cases hi : 0 ≤ i
  · rw [if_pos hi, Nat.toList_repr]
    by_cases hzero : i = 0
    · subst hzero
      exact spells_zero
    · intro rest hrest
      rw [between_tokens_toDigits]
      exact tokens_whole (by simp; omega) (by omega) fits hrest
  · rw [if_neg hi, String.toList_append, Nat.toList_repr]
    intro rest hrest
    have hneg : i = if true then -((-i).toNat : Int) else (-i).toNat := by simp; omega
    exact tokens_whole hneg (by omega) fits hrest

end Numerals

section Strings

/-- How a string spells a character: by a letter, by its number, or as itself. -/
inductive Escapes (c : Char) : List Char → Prop where
  | letter {letter : Char} (not_number : letter ≠ 'u') (h : escaped? letter = some c) :
      Escapes c ['\\', letter]
  | number (h : c.toNat < 0x20) : Escapes c
      ['\\', 'u', '0', '0', Nat.digitChar (c.toNat / 16), Nat.digitChar (c.toNat % 16)]
  | self (not_quote : c ≠ '\"') (not_backslash : c ≠ '\\') (h : 0x20 ≤ c.toNat) : Escapes c [c]

theorem escapes_quoteChar (c : Char) : Escapes c (quoteChar c) := by
  rw [quoteChar]
  split
  · subst c
    exact .letter (by decide) rfl
  · rename_i hquote
    split
    · subst c
      exact .letter (by decide) rfl
    · rename_i hbackslash
      iterate 5
        split
        · subst c
          exact .letter (by decide) rfl
      split
      · exact .number ‹_›
      · exact .self hquote hbackslash (by omega)

variable {c : Char} (read rest : List Char)

def inString (read : List Char) : Mode := .string ⟨some read, none⟩

theorem hexDigit?_digitChar {d : Nat} (h : d < 16) : hexDigit? d.digitChar = some d := by
  have hall : ∀ d < 16, hexDigit? (Nat.digitChar d) = some d := by decide
  exact hall d h

theorem tokens_escaped {letter : Char} (hletter : letter ≠ 'u') (h : escaped? letter = some c) :
    (inString read).tokens ('\\' :: letter :: rest) = (inString (c :: read)).tokens rest := by
  have hstep : Mode.step (.escape ⟨some read, none⟩) letter = (inString (c :: read), []) := by
    rw [Mode.step, if_neg hletter, h]
    rfl
  change (Mode.escape ⟨some read, none⟩).tokens (letter :: rest) = _
  rw [Mode.tokens, hstep, List.nil_append]

theorem tokens_unit {left value d : Nat} (s : Spelling) (hd : d < 16) (hleft : 1 < left) :
    (Mode.unit s left value).tokens (d.digitChar :: rest) =
      (Mode.unit s (left - 1) (value * 16 + d)).tokens rest := by
  have hleft' : ¬ left ≤ 1 := by omega
  simp only [Mode.tokens, Mode.step, hexDigit?_digitChar hd, if_neg hleft', List.nil_append]

theorem tokens_number (h : c.toNat < 0x20) :
    (inString read).tokens ('\\' :: 'u' :: '0' :: '0' :: Nat.digitChar (c.toNat / 16) ::
      Nat.digitChar (c.toNat % 16) :: rest) = (inString (c :: read)).tokens rest := by
  have hhigh : c.toNat / 16 < 16 := by omega
  have hlow : c.toNat % 16 < 16 := by omega
  have hvalue : c.toNat / 16 * 16 + c.toNat % 16 = c.toNat := by omega
  have hpush : Spelling.pushUnit ⟨some read, none⟩ c.toNat = ⟨some (c :: read), none⟩ := by
    have hsurrogate : ¬ 0xd800 ≤ c.toNat := by omega
    have hsurrogate' : ¬ 0xdc00 ≤ c.toNat := by omega
    simp [Spelling.pushUnit, Spelling.push, hsurrogate, hsurrogate']
  change (Mode.unit ⟨some read, none⟩ 4 0).tokens (Nat.digitChar 0 :: Nat.digitChar 0 :: _) = _
  rw [tokens_unit _ _ (by decide) (by decide), tokens_unit _ _ (by decide) (by decide),
    tokens_unit _ _ hhigh (by decide), Mode.tokens, Mode.step, hexDigit?_digitChar hlow]
  simp only [Nat.zero_mul, Nat.zero_add, hvalue, hpush]
  rfl

theorem tokens_escapes {spelled : List Char} (h : Escapes c spelled) :
    (inString read).tokens (spelled ++ rest) = (inString (c :: read)).tokens rest := by
  cases h with
  | letter hletter h => exact tokens_escaped read rest hletter h
  | number h => exact tokens_number read rest h
  | self hquote hbackslash h =>
      have hcontrol : ¬ c.toNat < 0x20 := by omega
      simp only [List.singleton_append, Mode.tokens, inString, Mode.step, if_neg hquote,
        if_neg hbackslash, if_neg hcontrol]
      rfl

theorem tokens_quoteChars (cs : List Char) :
    (inString read).tokens (cs.flatMap quoteChar ++ '\"' :: rest) =
      .str (some (String.ofList (read.reverse ++ cs))) :: Mode.between.tokens rest := by
  induction cs generalizing read with
  | nil =>
      rw [List.append_nil]
      rfl
  | cons c cs ih =>
      rw [List.flatMap_cons, List.append_assoc, tokens_escapes _ _ (escapes_quoteChar c), ih,
        List.reverse_cons, List.append_assoc, List.singleton_append]

/-- A string is read back from its text, whatever characters it holds. -/
theorem spells_quoted (s : String) : Spells (quoted s).toList [.str (some s)] := by
  intro rest _
  have hread := tokens_quoteChars [] rest s.toList
  rw [List.reverse_nil, List.nil_append, String.ofList_toList] at hread
  rw [quoted, String.toList_ofList, List.cons_append, List.append_assoc]
  exact hread

end Strings

end LinkGraph.Json
