import LinkGraph.Operation.Text
import LinkGraph.Proofs.Text.Quoted

namespace LinkGraph

theorem Kind.name_injective : Function.Injective Kind.name := by
  intro kind kind' h
  cases kind <;> cases kind' <;> first | rfl | exact absurd h (by decide)

namespace Operation

open Text

def inToken (c : Char) : Bool := c == '#' || c.isAlphanum

structure Token (s : String) : Prop where
  nonempty : s.toList ≠ []
  chars : s.toList.all inToken

namespace Token

variable {s : String}

theorem not_mem (h : Token s) {c : Char} (hc : inToken c = false) : c ∉ s.toList := by
  intro hmem
  have hin : inToken c = true := List.all_eq_true.mp h.chars c hmem
  cases hc.symm.trans hin

theorem words (h : Token s) : words s.toList = [s.toList] :=
  words_eq_singleton h.nonempty (h.not_mem rfl)

theorem oneLine (h : Token s) : OneLine s.toList :=
  ⟨h.not_mem rfl, h.not_mem rfl⟩

end Token

theorem toList_idText (id : LinkId) : (idText id).toList = '#' :: Nat.toDigits 10 id := by
  rw [idText, String.toList_append, Nat.toString_eq_repr, Nat.toList_repr]
  rfl

theorem token_idText (id : LinkId) : Token (idText id) := by
  constructor
  · rw [toList_idText]
    exact List.cons_ne_nil _ _
  · rw [toList_idText, List.all_cons, Bool.and_eq_true, List.all_eq_true]
    refine ⟨rfl, fun c hc => ?_⟩
    have hdigit : c.isDigit = true := Nat.isDigit_of_mem_toDigits (by decide) (by decide) hc
    rw [inToken, Char.isAlphanum, hdigit, Bool.or_true, Bool.or_true]

theorem token_name (kind : Kind) : Token kind.name := by
  constructor <;> cases kind <;> decide

theorem token_label (kinds : KindTable) (id : LinkId) : Token (label kinds id) := by
  rw [label]
  split
  · exact token_name _
  · exact token_idText id

theorem idText_injective : Function.Injective idText := by
  intro id id' h
  have hchars := congrArg String.toList h
  rw [toList_idText, toList_idText] at hchars
  exact toDigits_inj (by decide) (by decide) (List.cons.inj hchars).2

theorem name_ne_idText (kind : Kind) (id : LinkId) : kind.name ≠ idText id := by
  intro h
  have hfirst := congrArg (fun s => s.toList.head?) h
  rw [toList_idText, List.head?_cons] at hfirst
  cases kind <;> exact absurd hfirst (by decide)

/-- Two ids never get one label, whatever the table is: of two kinds of one id, the label is the
name of the first. -/
theorem label_injective (kinds : KindTable) : Function.Injective (label kinds) := by
  intro id id' h
  rw [label, label] at h
  split at h <;> split at h
  · rename_i kind hkind _ kind' hkind'
    obtain rfl := Kind.name_injective h
    have hid := List.find?_some hkind
    have hid' := List.find?_some hkind'
    exact (of_decide_eq_true hid).symm.trans (of_decide_eq_true hid')
  · exact absurd h (name_ne_idText _ _)
  · exact absurd h.symm (name_ne_idText _ _)
  · exact idText_injective h

section Ends

variable (kinds : KindTable)

def labelChars (id : LinkId) : List Char := (label kinds id).toList

def loopSign : List Char := ['@']

def arrow : List Char := ['-', '>']

def endWords : Option LinkId → Option LinkId → List (List Char)
  | some source, some dest =>
      if source = dest then [loopSign, labelChars kinds source]
      else [labelChars kinds source, arrow, labelChars kinds dest]
  | some source, none => [labelChars kinds source, arrow]
  | none, some dest => [arrow, labelChars kinds dest]
  | none, none => []

def readEnds : List (List Char) → Option (List Char) × Option (List Char)
  | [w, w'] =>
      if w = loopSign then (some w', some w')
      else if w = arrow then (none, some w')
      else (some w, none)
  | [w, _, w'] => (some w, some w')
  | _ => (none, none)

variable {kinds}

theorem labelChars_ne_loopSign {id : LinkId} : labelChars kinds id ≠ loopSign := by
  intro h
  have hmem : '@' ∈ labelChars kinds id := h ▸ List.mem_cons_self
  exact (token_label kinds id).not_mem rfl hmem

theorem labelChars_ne_arrow {id : LinkId} : labelChars kinds id ≠ arrow := by
  intro h
  have hmem : '-' ∈ labelChars kinds id := h ▸ List.mem_cons_self
  exact (token_label kinds id).not_mem rfl hmem

theorem readEnds_endWords (source dest : Option LinkId) :
    readEnds (endWords kinds source dest) =
      (source.map (labelChars kinds), dest.map (labelChars kinds)) := by
  cases source with
  | none => cases dest <;> rfl
  | some source =>
      cases dest with
      | none => exact (if_neg labelChars_ne_loopSign).trans (if_neg labelChars_ne_arrow)
      | some dest =>
          by_cases h : source = dest
          · subst h
            rw [endWords, if_pos rfl]
            rfl
          · rw [endWords, if_neg h]
            rfl

theorem labelChars_injective : Function.Injective (labelChars kinds) :=
  fun _ _ h => label_injective kinds (String.toList_inj.mp h)

theorem endWords_inj {source source' dest dest' : Option LinkId}
    (h : endWords kinds source dest = endWords kinds source' dest') :
    source = source' ∧ dest = dest' := by
  have hends := congrArg readEnds h
  rw [readEnds_endWords, readEnds_endWords, Prod.mk.injEq] at hends
  exact ⟨Option.map_injective labelChars_injective hends.1,
    Option.map_injective labelChars_injective hends.2⟩

end Ends

section Lines

variable {kinds : KindTable}

theorem words_insertNode (id kind : LinkId) (source dest : Option LinkId) :
    words (text kinds (.insertNode id ⟨kind, source, dest⟩)).toList =
      (idText id).toList :: labelChars kinds kind :: endWords kinds source dest := by
  have hid := (token_idText id).words
  have hlabel (id : LinkId) : words (label kinds id).toList = [labelChars kinds id] :=
    (token_label kinds id).words
  have harrow (s t : String) : words (s ++ " -> " ++ t).toList =
      words s.toList ++ arrow :: words t.toList := words_append_sign rfl rfl s t
  have hloop (s t : String) : words (s ++ " @ " ++ t).toList =
      words s.toList ++ loopSign :: words t.toList := words_append_sign rfl rfl s t
  have hhead : words (padLeft 5 (idText id) ++ " " ++ padRight 10 (label kinds kind)).toList =
      [(idText id).toList, labelChars kinds kind] := by
    rw [words_append_space, words_padLeft, words_padRight, hid, hlabel]
    rfl
  cases source with
  | none =>
      cases dest with
      | none =>
          simp only [text, words_append_space, words_padLeft, hid, hlabel]
          rfl
      | some dest =>
          simp only [text, harrow, hhead, hlabel]
          rfl
  | some source =>
      cases dest with
      | none =>
          have hlast (s : String) : s ++ " ->" = s ++ " " ++ "->" := by
            rw [String.append_assoc]
            rfl
          simp only [text, hlast, words_append_space, hhead, hlabel]
          rfl
      | some dest =>
          rw [text, endWords]
          simp only
          split
          · rw [hloop, hhead, hlabel]
            rfl
          · rw [harrow, words_append_space, hhead, hlabel, hlabel]
            rfl

theorem words_insertValue (target : LinkId) (value : String) :
    words (text kinds (.insertValue target value)).toList =
      ['='] :: words (quoted value).toList := by
  have hsign : words "      =".toList = [['=']] := rfl
  have hsplit : "      = " ++ quoted value = "      =" ++ " " ++ quoted value := rfl
  rw [text, hsplit, words_append_space, hsign, List.singleton_append]

theorem oneLine_text (op : Operation) : OneLine (op.text kinds).toList := by
  cases op with
  | insertNode id node =>
      obtain ⟨kind, source, dest⟩ := node
      have hid := oneLine_padLeft (token_idText id).oneLine 5
      have hkind := oneLine_padRight (token_label kinds kind).oneLine 10
      have hlabel (id : LinkId) := (token_label kinds id).oneLine
      cases source with
      | none =>
          cases dest <;>
            simp only [text, String.toList_append, oneLine_append, hid, hkind, hlabel] <;> decide
      | some source =>
          cases dest with
          | none =>
              simp only [text, String.toList_append, oneLine_append, hid, hkind, hlabel]
              decide
          | some dest =>
              rw [text]
              simp only
              split <;> simp only [String.toList_append, oneLine_append, hid, hkind, hlabel] <;>
                decide
  | insertValue target value =>
      rw [text, String.toList_append, oneLine_append]
      exact ⟨by decide, oneLine_quoted value⟩

/-- Two operations that differ at most by the target of a value. -/
inductive SameLine : Operation → Operation → Prop where
  | insertNode (id : LinkId) (node : Node) : SameLine (.insertNode id node) (.insertNode id node)
  | insertValue (target target' : LinkId) (value : String) :
      SameLine (.insertValue target value) (.insertValue target' value)

theorem SameLine.eq_insertNode {id : LinkId} {node : Node} {op : Operation}
    (h : SameLine (.insertNode id node) op) : op = .insertNode id node := by
  cases h
  rfl

theorem SameLine.value_eq {target target' : LinkId} {value value' : String}
    (h : SameLine (.insertValue target value) (.insertValue target' value')) : value = value' := by
  cases h
  rfl

theorem text_eq_iff {op op' : Operation} : op.text kinds = op'.text kinds ↔ SameLine op op' := by
  constructor
  · intro h
    have hwords := congrArg (fun s => words s.toList) h
    have hsign (id : LinkId) : (idText id).toList ≠ ['='] := by
      rw [toList_idText]
      intro hsign
      cases hsign
    cases op with
    | insertNode id node =>
        cases op' with
        | insertNode id' node' =>
            obtain ⟨kind, source, dest⟩ := node
            obtain ⟨kind', source', dest'⟩ := node'
            simp only [words_insertNode, List.cons.injEq] at hwords
            obtain ⟨hid, hkind, hends⟩ := hwords
            obtain rfl := idText_injective (String.toList_inj.mp hid)
            obtain rfl := labelChars_injective hkind
            obtain ⟨rfl, rfl⟩ := endWords_inj hends
            exact .insertNode id _
        | insertValue target value =>
            rw [words_insertNode, words_insertValue] at hwords
            exact absurd (List.cons.inj hwords).1 (hsign _)
    | insertValue target value =>
        cases op' with
        | insertNode id node =>
            rw [words_insertNode, words_insertValue] at hwords
            exact absurd (List.cons.inj hwords).1.symm (hsign _)
        | insertValue target' value' =>
            rw [text, text, String.append_right_inj] at h
            obtain rfl := quoted_injective h
            exact .insertValue target target' value
  · rintro (_ | _) <;> rfl

end Lines

end Operation

end LinkGraph
