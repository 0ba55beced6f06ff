import LinkGraph.Text.Padding

namespace LinkGraph.Text

/-- The text has neither a line feed nor a carriage return. -/
def OneLine (cs : List Char) : Prop := '\n' ∉ cs ∧ '\r' ∉ cs

instance : DecidablePred OneLine := fun cs => inferInstanceAs (Decidable ('\n' ∉ cs ∧ '\r' ∉ cs))

theorem oneLine_append {cs ds : List Char} : OneLine (cs ++ ds) ↔ OneLine cs ∧ OneLine ds := by
  simp only [OneLine, List.mem_append, not_or]
  exact and_and_and_comm

theorem oneLine_flatMap {α : Type} {f : α → List Char} (h : ∀ a, OneLine (f a)) (l : List α) :
    OneLine (l.flatMap f) := by
  induction l with
  | nil =>
      rw [List.flatMap_nil]
      decide
  | cons a l ih =>
      rw [List.flatMap_cons, oneLine_append]
      exact ⟨h a, ih⟩

theorem oneLine_blanks (n : Nat) : OneLine (List.replicate n ' ') := by
  constructor <;> exact fun h => absurd (List.eq_of_mem_replicate h) (by decide)

section Padding

variable {s : String} (h : OneLine s.toList) (width : Nat)
include h

theorem oneLine_padLeft : OneLine (padLeft width s).toList := by
  rw [padLeft, String.toList_ofList, oneLine_append]
  exact ⟨oneLine_blanks _, h⟩

theorem oneLine_padRight : OneLine (padRight width s).toList := by
  rw [padRight, String.toList_ofList, oneLine_append]
  exact ⟨h, oneLine_blanks _⟩

end Padding

def words (cs : List Char) : List (List Char) := (cs.splitOn ' ').filter (· ≠ [])

theorem words_append_blank (cs ds : List Char) :
    words (cs ++ ' ' :: ds) = words cs ++ words ds := by
  rw [words, List.splitOn_append_cons_self, List.filter_append, words, words]

theorem words_cons_blank (cs : List Char) : words (' ' :: cs) = words cs := words_append_blank [] cs

theorem words_eq_singleton {cs : List Char} (hne : cs ≠ []) (hcs : ' ' ∉ cs) : words cs = [cs] := by
  rw [words, List.splitOn_eq_singleton hcs]
  exact List.filter_cons_of_pos (decide_eq_true hne)

theorem words_blanks_append (n : Nat) (cs : List Char) :
    words (List.replicate n ' ' ++ cs) = words cs := by
  induction n with
  | zero => rfl
  | succ n ih =>
      rw [List.replicate_succ, List.cons_append, words_cons_blank]
      exact ih

theorem words_append_blanks (cs : List Char) (n : Nat) :
    words (cs ++ List.replicate n ' ') = words cs := by
  cases n with
  | zero => rw [List.replicate_zero, List.append_nil]
  | succ n =>
      have hblanks := words_blanks_append n []
      rw [List.append_nil] at hblanks
      rw [List.replicate_succ, words_append_blank, hblanks]
      exact List.append_nil _

theorem words_append_space (s t : String) :
    words (s ++ " " ++ t).toList = words s.toList ++ words t.toList := by
  rw [String.toList_append, String.toList_append, List.append_assoc]
  exact words_append_blank _ _

theorem words_append_sign {sep : String} {sign : List Char}
    (hsep : sep.toList = ' ' :: (sign ++ [' '])) (hsign : words sign = [sign]) (s t : String) :
    words (s ++ sep ++ t).toList = words s.toList ++ sign :: words t.toList := by
  rw [String.toList_append, String.toList_append, hsep, List.append_assoc, List.cons_append,
    List.append_assoc, List.singleton_append, words_append_blank, words_append_blank, hsign]
  rfl

theorem words_padLeft (width : Nat) (s : String) :
    words (padLeft width s).toList = words s.toList := by
  rw [padLeft, String.toList_ofList]
  exact words_blanks_append _ _

theorem words_padRight (width : Nat) (s : String) :
    words (padRight width s).toList = words s.toList := by
  rw [padRight, String.toList_ofList]
  exact words_append_blanks _ _

end LinkGraph.Text
