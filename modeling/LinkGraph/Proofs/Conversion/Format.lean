import LinkGraph.Proofs.Conversion.Course
import LinkGraph.Proofs.Json.Members
import LinkGraph.Proofs.Json.Natural

namespace LinkGraph.Conversion

open Json

inductive Unsigned : Json → Nat → Prop where
  | int (n : Nat) (fits) : Unsigned (.num (.int n fits)) n

/-- The two forms of a configuration. In an object the first member under a key is the one that
counts, and the members under other keys do not. -/
inductive Format : Json → Configuration → Prop where
  | object {members : List (String × Json)} {container : Json} {c : Configuration}
      (given : member? Configuration.containerField members = some container)
      (unsigned : Unsigned container c.container) (positive : c.container ≠ 0)
      (depth : match member? Configuration.depthField members with
        | none => c.depth = Log.defaultDepth
        | some depth => Unsigned depth c.depth) :
      Format (.obj members) c
  | single {container : Json} {c : Configuration} (unsigned : Unsigned container c.container)
      (positive : c.container ≠ 0) (depth : c.depth = Log.defaultDepth) :
      Format (.arr [container]) c
  | pair {container depth : Json} {c : Configuration} (unsigned : Unsigned container c.container)
      (positive : c.container ≠ 0) (depth_unsigned : Unsigned depth c.depth) :
      Format (.arr [container, depth]) c

section Fields

variable {j : Json} {n : Nat} {known known' : Option Nat} {found : Option Json}

theorem nat_head_eq_ok_iff_unsigned {expected : String} :
    j.head.nat expected = .ok n ↔ Unsigned j n := by
  rw [nat_head_eq_ok]
  constructor
  · rintro ⟨rfl, hlt⟩
    rw [ofNat_of_lt hlt]
    exact .int n _
  · rintro ⟨n, fits⟩
    have hlt : n < 18446744073709551616 := by omega
    exact ⟨(ofNat_of_lt hlt).symm, hlt⟩

inductive Field : Option Nat → Option Json → Option Nat → Prop where
  | known {n : Nat} {found : Option Json} : Field (some n) found (some n)
  | absent : Field none none none
  | given {j : Json} {n : Nat} (unsigned : Unsigned j n) : Field none (some j) (some n)

theorem field_some : Field (some n) found known' ↔ known' = some n := by
  constructor
  · rintro ⟨⟩
    rfl
  · rintro rfl
    exact .known

theorem field_none : Field none none known' ↔ known' = none := by
  constructor
  · rintro ⟨⟩
    rfl
  · rintro rfl
    exact .absent

theorem field_given : Field none (some j) known' ↔ ∃ n, Unsigned j n ∧ known' = some n := by
  constructor
  · rintro (_ | _ | ⟨unsigned⟩)
    exact ⟨_, unsigned, rfl⟩
  · rintro ⟨n, unsigned, rfl⟩
    exact .given unsigned

end Fields

namespace Configuration

variable {members : List (String × Json)} {container depth container' depth' : Option Nat}

/-- The two fields are read each for itself, although their members may stand in any order and
between others. -/
theorem readMembers_eq_ok :
    readMembers container depth members = .ok (container', depth') ↔
      Field container (member? containerField members) container' ∧
        Field depth (member? depthField members) depth' := by
  induction members generalizing container depth with
  | nil =>
      cases container <;> cases depth <;>
        simp [readMembers, member?, field_some, field_none, eq_comm]
  | cons m rest ih =>
      obtain ⟨key, j⟩ := m
      have hne : depthField ≠ containerField := by decide
      -- A field is read from its first member. Its later ones are passed over like other keys.
      by_cases hc : key = containerField
      · subst hc
        rw [member?_cons_self, member?_cons_of_ne hne]
        cases container with
        | none =>
            rw [readMembers, if_pos ⟨rfl, rfl⟩, bind_eq_ok]
            simp only [Head.id, nat_head_eq_ok_iff_unsigned, ih, field_some, field_given,
              ← exists_and_right, and_assoc]
        | some n =>
            rw [readMembers, if_neg (by simp), if_neg (by simp [hne.symm]), ih]
            simp only [field_some]
      · by_cases hd : key = depthField
        · subst hd
          rw [member?_cons_self, member?_cons_of_ne hne.symm]
          cases depth with
          | none =>
              rw [readMembers, if_neg (by simp [hne]), if_pos ⟨rfl, rfl⟩, bind_eq_ok]
              simp only [depthOf, nat_head_eq_ok_iff_unsigned, ih, field_some, field_given,
                ← exists_and_left, and_left_comm]
          | some n =>
              rw [readMembers, if_neg (by simp [hne]), if_neg (by simp), ih]
              simp only [field_some]
        · rw [member?_cons_of_ne (Ne.symm hc), member?_cons_of_ne (Ne.symm hd), readMembers,
            if_neg (by simp [hc]), if_neg (by simp [hd]), ih]

variable {c : Configuration}

theorem read_obj :
    read (.obj members) = .ok c ↔ ∃ given, member? containerField members = some given ∧
      Unsigned given c.container ∧ match member? depthField members with
        | none => c.depth = Log.defaultDepth
        | some depth => Unsigned depth c.depth := by
  obtain ⟨container, depth⟩ := c
  rw [read, bind_eq_ok]
  simp only [Prod.exists, readMembers_eq_ok]
  cases hgiven : member? containerField members with
  | none => simp [field_none]
  | some given =>
      cases hdepth : member? depthField members with
      | none =>
          simp [field_given, field_none, pure, Except.pure, eq_comm (a := depth)]
      | some n => simp [field_given, pure, Except.pure]

theorem read_single {given : Json} :
    read (.arr [given]) = .ok c ↔ Unsigned given c.container ∧ c.depth = Log.defaultDepth := by
  obtain ⟨container, depth⟩ := c
  rw [read, bind_eq_ok]
  simp [Head.id, nat_head_eq_ok_iff_unsigned, pure, Except.pure, eq_comm (a := depth)]

theorem read_pair {given depth : Json} :
    read (.arr [given, depth]) = .ok c ↔ Unsigned given c.container ∧ Unsigned depth c.depth := by
  obtain ⟨container, depth⟩ := c
  rw [read, bind_eq_ok]
  simp [bind_eq_ok, Head.id, depthOf, nat_head_eq_ok_iff_unsigned, pure, Except.pure]

theorem read_longer {given depth more : Json} {rest : List Json} :
    read (.arr (given :: depth :: more :: rest)) ≠ .ok c := by
  rw [read]
  intro h
  obtain ⟨container, -, h⟩ := bind_eq_ok.mp h
  obtain ⟨depth, -, h⟩ := bind_eq_ok.mp h
  cases h

theorem ofJson_eq_ok {j : Json} : ofJson j = .ok c ↔ read j = .ok c ∧ c.container ≠ 0 := by
  rw [ofJson]
  cases read j with
  | error e => simp
  | ok d =>
      by_cases h : d.container = 0
      · simp only [h, if_true, reduceCtorEq, Except.ok.injEq, false_iff, not_and, not_not]
        rintro rfl
        exact h
      · simp only [h, if_false, Except.ok.injEq, iff_self_and]
        rintro rfl
        exact h

theorem ofJson_eq_ok_iff_format (j : Json) (c : Configuration) :
    ofJson j = .ok c ↔ Format j c := by
  rw [ofJson_eq_ok]
  constructor
  · rintro ⟨hread, positive⟩
    cases j with
    | obj members =>
        obtain ⟨given, hgiven, unsigned, depth⟩ := read_obj.mp hread
        exact .object hgiven unsigned positive depth
    | arr items =>
        match items with
        | [] => cases hread
        | [given] =>
            obtain ⟨unsigned, depth⟩ := read_single.mp hread
            exact .single unsigned positive depth
        | [given, depth] =>
            obtain ⟨unsigned, depth_unsigned⟩ := read_pair.mp hread
            exact .pair unsigned positive depth_unsigned
        | _ :: _ :: _ :: _ => exact absurd hread read_longer
    | null | bool | num | str => cases hread
  · rintro (⟨given, unsigned, positive, depth⟩ | ⟨unsigned, positive, depth⟩ |
      ⟨unsigned, positive, depth_unsigned⟩)
    · exact ⟨read_obj.mpr ⟨_, given, unsigned, depth⟩, positive⟩
    · exact ⟨read_single.mpr ⟨unsigned, depth⟩, positive⟩
    · exact ⟨read_pair.mpr ⟨unsigned, depth_unsigned⟩, positive⟩

end Configuration

variable {σ : Type}

/-- The configurations that are read are the ones that have the format. Any other document is
refused as a configuration, and nothing is logged then. -/
theorem reads_exactly_format (j : Json) (t : State σ) :
    (∀ c, Configuration.ofJson j = .ok c ↔ Format j c) ∧
    (∀ c, (∃ t', (readConfiguration j).run t = .ok c t') ↔ Format j c) ∧
    ((∃ e, (readConfiguration j).run t = .error (.configuration e) t) ↔ ∀ c, ¬Format j c) := by
  have hformat := Configuration.ofJson_eq_ok_iff_format j
  refine ⟨hformat, ?_⟩
  simp only [← hformat, run_readConfiguration]
  cases hread : Configuration.ofJson j with
  | ok c => simp
  | error e => simp

example : Configuration.ofJson (.obj [("containerLinkId", .ofNat 9), ("logDepth", .null)]) =
    .error (.shape (.invalidType .null "usize")) := rfl

end LinkGraph.Conversion
