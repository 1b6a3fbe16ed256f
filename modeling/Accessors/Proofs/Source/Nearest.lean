/-
  Accessors.Proofs.Source.Nearest — the search for a declaration, from any cursor.

  A cursor is moved into the document (`clamped`) and its search ends on the nearest line
  at or above it that declares a property (`Nearest`), or on none if there is no such
  line (`Undeclared`). Up to a line this is one induction, in which the lowest line either declares the
  property or can be left out (`findAbove?_take_eq_some`, `findAbove?_take_eq_none`).
  - `find?_nearest`: what a search finds, that it asks for no line out of the document and
    for none below its cursor, and that with the cursor further down it ends no higher up.
-/
import Accessors.Proofs.Source.Grammar
import Accessors.Proofs.Source.Walk

namespace Accessors.Property

variable {lines : List Text} {cursor : Int} {f : Found}

/-- The line that is found declares the property, and none between it and the cursor does. -/
structure Nearest (lines : List Text) (cursor : Int) (f : Found) : Prop where
  reached : (f.line : Int) ≤ clamped lines cursor
  declares : declaredOn? lines f.line = some f.property
  nearest : ∀ i : Nat, f.line < i → (i : Int) ≤ clamped lines cursor → declaredOn? lines i = none

/-- No line at or above the cursor declares a property. -/
def Undeclared (lines : List Text) (cursor : Int) : Prop :=
  ∀ i : Nat, (i : Int) ≤ clamped lines cursor → declaredOn? lines i = none

/-! ## Up to a line -/

theorem findAbove?_take_eq_none {k : Nat} (h : k ≤ lines.length) :
    findAbove? (lines.take k).reverse = none ↔ ∀ i < k, declaredOn? lines i = none := by
  induction k with
  | zero => exact ⟨fun _ i hi => absurd hi (Nat.not_lt_zero i), fun _ => rfl⟩
  | succ k ih =>
    rw [findAbove?_take_succ h, Option.or_eq_none_iff, Option.map_eq_none_iff, ih (by omega)]
    constructor
    · rintro ⟨hlast, habove⟩ i hi
      rcases Nat.lt_succ_iff_lt_or_eq.1 hi with hi | rfl
      · exact habove i hi
      · exact hlast
    · intro hall
      exact ⟨hall k (by omega), fun i hi => hall i (by omega)⟩

theorem findAbove?_take_eq_some {k : Nat} (h : k ≤ lines.length) :
    findAbove? (lines.take k).reverse = some f ↔ f.line < k ∧ declaredOn? lines f.line = some f.property ∧
      ∀ i, f.line < i → i < k → declaredOn? lines i = none := by
  -- The last line that is added is the first that is looked at.
  induction k with
  | zero =>
    constructor
    · intro hf
      cases hf
    · intro hf
      exact absurd hf.1 (Nat.not_lt_zero _)
  | succ k ih =>
    rw [findAbove?_take_succ h]
    cases hp : declaredOn? lines k with
    | some p =>
      rw [Option.map_some, Option.some_or, Option.some_inj]
      constructor
      · rintro rfl
        exact ⟨Nat.lt_succ_self k, hp, fun i hki hik => absurd (Nat.lt_succ_iff.1 hik) (Nat.not_le.2 hki)⟩
      · rintro ⟨hline, hdeclares, hnone⟩
        have hlast : f.line = k := by
          by_contra hne
          rw [hnone k (by omega) (Nat.lt_succ_self k)] at hp
          cases hp
        rw [hlast, hp] at hdeclares
        rw [← hlast, Option.some.inj hdeclares]
    | none =>
      rw [Option.map_none, Option.none_or, ih (by omega)]
      constructor
      · rintro ⟨hline, hdeclares, hnone⟩
        refine ⟨by omega, hdeclares, fun i hi hik => ?_⟩
        rcases Nat.lt_succ_iff_lt_or_eq.1 hik with hik | rfl
        · exact hnone i hi hik
        · exact hp
      · rintro ⟨hline, hdeclares, hnone⟩
        have hne : f.line ≠ k := by
          intro heq
          rw [heq, hp] at hdeclares
          cases hdeclares
        exact ⟨by omega, hdeclares, fun i hi hik => hnone i hi (by omega)⟩

/-! ## From a cursor -/

theorem find?_eq_none : find? lines cursor = none ↔ Undeclared lines cursor := by
  by_cases hne : lines = []
  · subst hne
    exact ⟨fun _ _ _ => rfl, fun _ => find?_nil cursor⟩
  · have hreach := clamped_lt hne cursor
    unfold find?
    rw [linesToCursor_eq hne, findAbove?_take_eq_none (by omega)]
    exact forall_congr' fun i => imp_congr_left (by omega)

theorem find?_eq_some : find? lines cursor = some f ↔ Nearest lines cursor f := by
  by_cases hne : lines = []
  · subst hne
    rw [find?_nil]
    constructor
    · intro hf
      cases hf
    · intro hf
      cases hf.declares
  · have hreach := clamped_lt hne cursor
    unfold find?
    rw [linesToCursor_eq hne, findAbove?_take_eq_some (by omega)]
    constructor
    · rintro ⟨hline, hdeclares, hnone⟩
      exact ⟨by omega, hdeclares, fun i hi hic => hnone i hi (by omega)⟩
    · rintro ⟨hline, hdeclares, hnone⟩
      exact ⟨by omega, hdeclares, fun i hi hic => hnone i hi (by omega)⟩

theorem clamped_mono (lines : List Text) {a b : Int} (h : a ≤ b) : clamped lines a ≤ clamped lines b := by
  unfold clamped
  omega

theorem find?_mono {lower : Int} (hlower : cursor ≤ lower) (h : find? lines cursor = some f) :
    ∃ g, find? lines lower = some g ∧ f.line ≤ g.line := by
  have hf := find?_eq_some.1 h
  have hreached : (f.line : Int) ≤ clamped lines lower := Int.le_trans hf.reached (clamped_mono lines hlower)
  cases hg : find? lines lower with
  | none =>
    have hnone := find?_eq_none.1 hg f.line hreached
    rw [hf.declares] at hnone
    cases hnone
  | some g =>
    refine ⟨g, rfl, ?_⟩
    by_contra habove
    have hnone := (find?_eq_some.1 hg).nearest f.line (by omega) hreached
    rw [hf.declares] at hnone
    cases hnone

/-- The line that is found holds the declaration, at the cursor or above it. -/
theorem find?_declares (h : find? lines cursor = some f) : f.line ≤ cursor.toNat ∧
    ∃ l, lines[f.line]? = some l ∧ ofLine? (lines.take f.line).reverse l = some f.property := by
  have hf := find?_eq_some.1 h
  refine ⟨?_, Option.bind_eq_some_iff.1 hf.declares⟩
  have hreached := hf.reached
  unfold clamped at hreached
  omega

theorem isName_of_find? (h : find? lines cursor = some f) : Grammar.IsName f.property.name := by
  obtain ⟨-, l, -, hl⟩ := find?_declares h
  obtain ⟨d, hd, hp⟩ := Option.map_eq_some_iff.1 hl
  rw [← hp]
  exact (Grammar.declares_of_scan? hd).parts.1

/-! ## Lines below the cursor -/

theorem take_before {A X : List Text} {cursor : Int} (h : cursor.toNat < A.length) :
    (A ++ X).take (linesToCursor (A ++ X).length cursor) = A.take (cursor.toNat + 1) := by
  have hcount : linesToCursor (A ++ X).length cursor = cursor.toNat + 1 := by
    unfold linesToCursor
    rw [List.length_append]
    omega
  rw [hcount, List.take_append_of_le_length (by omega)]

theorem find?_before {A X Y : List Text} {cursor : Int} (h : cursor.toNat < A.length) :
    find? (A ++ X) cursor = find? (A ++ Y) cursor := by
  unfold find?
  rw [take_before h, take_before h]

theorem find?_cut (h₀ : 0 ≤ cursor) (h₁ : cursor < lines.length) (below : List Text) :
    find? (lines.take (cursor.toNat + 1) ++ below) cursor = find? lines cursor := by
  have hreach : cursor.toNat < (lines.take (cursor.toNat + 1)).length := by
    rw [List.length_take]
    omega
  have hbelow := find?_before (X := below) (Y := lines.drop (cursor.toNat + 1)) hreach
  rwa [List.take_append_drop] at hbelow

/-- The search from any cursor in any document. It asks for no line that there is not, and
    nor does what it asks of a line; it ends on the nearest declaration at or above the
    cursor, and on none if and only if there is none, as in an empty document; what it
    finds has a name. The lines below the cursor do not matter to it. With the cursor
    further down a declaration is found too, and none that is higher up. -/
theorem find?_nearest (lines : List Text) (cursor : Int) :
    search lines cursor = .ok (find? lines cursor) ∧
    (∀ i < lines.length, declaredAt? lines i = .ok (declaredOn? lines i)) ∧
    (∀ f, find? lines cursor = some f ↔ Nearest lines cursor f) ∧
    (find? lines cursor = none ↔ ∀ i : Nat, (i : Int) ≤ clamped lines cursor → declaredOn? lines i = none) ∧
    (lines = [] → find? lines cursor = none) ∧
    (∀ f, find? lines cursor = some f → Grammar.IsName f.property.name) ∧
    (0 ≤ cursor → cursor < lines.length →
      ∀ below, find? (lines.take (cursor.toNat + 1) ++ below) cursor = find? lines cursor) ∧
    (∀ f lower, cursor ≤ lower → find? lines cursor = some f →
      ∃ g, find? lines lower = some g ∧ f.line ≤ g.line) := by
  refine ⟨search_eq lines cursor, fun i hi => declaredAt?_eq hi, fun f => find?_eq_some, find?_eq_none, ?_,
    fun f => isName_of_find?, find?_cut, fun f lower => find?_mono⟩
  rintro rfl
  exact find?_nil cursor

/-- A documented declaration, and one two lines below it. -/
def sampleLines : List Text := ["  /** @var int */".toList, "  $a;".toList, [], "  $b;".toList]

/-- From the line between the declarations the upper one is found, and from below the
    document one that is not above it. -/
theorem find?_nearest_sample : ∃ f g, find? sampleLines 2 = some f ∧ f.line = 1 ∧
    find? sampleLines 9 = some g ∧ f.line ≤ g.line := by
  have hfound : (find? sampleLines 2).map Found.line = some 1 := by decide +kernel
  obtain ⟨f, hf, hline⟩ := Option.map_eq_some_iff.1 hfound
  obtain ⟨-, -, -, -, -, -, -, hlower⟩ := find?_nearest sampleLines 2
  obtain ⟨g, hg, hle⟩ := hlower f 9 (by decide) hf
  exact ⟨f, g, hf, hline, hg, hle⟩

end Accessors.Property
