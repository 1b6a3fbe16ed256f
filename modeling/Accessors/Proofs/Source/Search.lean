/-
  Accessors.Proofs.Source.Search — the search for a declaration, with lines put in.

  Inert lines `S` are put before a line `b` that starts with a closing brace. A cursor in
  the new document comes from a cursor in the old one (`origin`): one above `S` from
  itself, one below it from as many lines further up, and one in `S` from the last line
  before it. Above `S` nothing is new to the search (`find?_before`).
  - `at?_origin`: everywhere it ends with the property at the cursor's origin.

  It ends with some property if and only if a line at or above the cursor declares one
  (`isSome_at?`).
-/
import Accessors.Proofs.Source.Inert
import Accessors.Proofs.Source.Nearest

namespace Accessors.Property

/-- The property at or above the cursor. -/
def at? (lines : List Text) (cursor : Int) : Option Property := (find? lines cursor).map Found.property

/-- Whether some line at or above the cursor declares a property. -/
def declared (lines : List Text) (cursor : Int) : Bool :=
  (lines.take (linesToCursor lines.length cursor)).any fun l => (Declaration.scan? (Text.trim (Text.dropBreak l))).isSome

/-- Where a cursor was before `count` lines were put before a line. -/
def origin (line count : Nat) (cursor : Int) : Int :=
  if cursor < line then cursor else max ((line : Int) - 1) (cursor - count)

theorem origin_zero (line : Nat) (cursor : Int) : origin line 0 cursor = cursor := by
  unfold origin
  split <;> omega

theorem origin_mono (line count : Nat) {a b : Int} (h : a ≤ b) : origin line count a ≤ origin line count b := by
  unfold origin
  split <;> split <;> omega

/-! ## Upward -/

theorem isSome_findAbove? (above : List Text) : (findAbove? above).isSome =
    above.any fun l => (Declaration.scan? (Text.trim (Text.dropBreak l))).isSome := by
  induction above with
  | nil => rfl
  | cons l above ih =>
    have hline : (ofLine? above l).isSome = (Declaration.scan? (Text.trim (Text.dropBreak l))).isSome :=
      Option.isSome_map
    rw [findAbove?, List.any_cons, ← ih, ← hline]
    cases ofLine? above l <;> rfl

theorem isSome_at? (lines : List Text) (cursor : Int) : (at? lines cursor).isSome = declared lines cursor := by
  unfold at? find? declared
  rw [Option.isSome_map, isSome_findAbove?, List.any_reverse]

theorem findAbove?_cons_inert {l : Text} (h : Inert l) (above : List Text) : findAbove? (l :: above) = findAbove? above := by
  rw [findAbove?, h above]

theorem findAbove?_inert {S : List Text} (h : ∀ l ∈ S, Inert l) (above : List Text) :
    findAbove? (S ++ above) = findAbove? above := by
  induction S with
  | nil => rfl
  | cons l S ih =>
    rw [List.cons_append, findAbove?_cons_inert (h l (by simp)), ih fun m hm => h m (List.mem_cons_of_mem _ hm)]

/-- Below a closing brace, inert lines above it make no difference. -/
theorem findAbove?_brace {b : Text} (hb : StartsWithBrace b) {S : List Text} (hS : ∀ l ∈ S, Inert l)
    (R above : List Text) : (findAbove? (R ++ b :: (S ++ above))).map Found.property =
      (findAbove? (R ++ b :: above)).map Found.property := by
  induction R with
  | nil =>
    rw [List.nil_append, List.nil_append, findAbove?_cons_inert hb.inert, findAbove?_cons_inert hb.inert,
      findAbove?_inert hS]
  | cons l R ih =>
    have hl := ofLine?_above_brace hb R (S ++ above) above l
    rw [List.cons_append, List.cons_append, findAbove?, findAbove?, hl]
    cases ofLine? (R ++ b :: above) l with
    | some p => rfl
    | none => exact ih

/-! ## From a cursor -/

/-- With the lines to the cursor cut in two, the search looks at the lower ones first. -/
theorem at?_of_take {lines A C : List Text} {cursor : Int}
    (h : lines.take (linesToCursor lines.length cursor) = A ++ C) :
    at? lines cursor = (findAbove? (C.reverse ++ A.reverse)).map Found.property := by
  unfold at? find?
  rw [h, List.reverse_append]

variable {A S B : List Text} {b : Text}

/-- In the inert lines, or on the brace, the search looks at the lines before them. -/
theorem at?_inside (hb : StartsWithBrace b) (hS : ∀ l ∈ S, Inert l) {cursor : Int}
    (h₁ : A.length ≤ cursor.toNat) (h₂ : cursor.toNat ≤ A.length + S.length) :
    at? (A ++ S ++ b :: B) cursor = (findAbove? A.reverse).map Found.property := by
  obtain ⟨k, hk⟩ : ∃ k, cursor.toNat = A.length + k := ⟨cursor.toNat - A.length, by omega⟩
  have htake : (A ++ S ++ b :: B).take (linesToCursor (A ++ S ++ b :: B).length cursor) =
      A ++ (S ++ [b]).take (k + 1) := by
    have hcount : linesToCursor (A ++ S ++ b :: B).length cursor = A.length + (k + 1) := by
      unfold linesToCursor
      simp only [List.length_append, List.length_cons]
      omega
    have hcut : A ++ S ++ b :: B = A ++ (S ++ [b] ++ B) := by simp
    have hlen : k + 1 ≤ (S ++ [b]).length := by
      rw [List.length_append, List.length_singleton]
      omega
    rw [hcount, hcut, List.take_length_add_append, List.take_append_of_le_length hlen]
  have hinert : ∀ l ∈ ((S ++ [b]).take (k + 1)).reverse, Inert l := by
    intro l hl
    rcases List.mem_append.1 (List.mem_of_mem_take (List.mem_reverse.1 hl)) with hl | hl
    · exact hS l hl
    · rw [List.mem_singleton.1 hl]
      exact hb.inert
  rw [at?_of_take htake, findAbove?_inert hinert]

theorem at?_below (hb : StartsWithBrace b) (hS : ∀ l ∈ S, Inert l) (k : Nat) :
    at? (A ++ S ++ b :: B) (A.length + S.length + k : Nat) = at? (A ++ b :: B) (A.length + k : Nat) := by
  have htake : ∀ (X : List Text), (X ++ b :: B).take (linesToCursor (X ++ b :: B).length (X.length + k : Nat)) =
      X ++ (b :: B.take (min k B.length)) := by
    intro X
    have hcount : linesToCursor (X ++ b :: B).length (X.length + k : Nat) = X.length + (min k B.length + 1) := by
      unfold linesToCursor
      simp only [List.length_append, List.length_cons, Int.toNat_natCast]
      omega
    rw [hcount, List.take_length_add_append, List.take_succ_cons]
  have hsplit : ∀ X : List Text, (b :: B.take (min k B.length)).reverse ++ X =
      (B.take (min k B.length)).reverse ++ b :: X := by
    intro X
    rw [List.reverse_cons, List.append_assoc, List.singleton_append]
  rw [← List.length_append, at?_of_take (htake (A ++ S)), at?_of_take (htake A), hsplit, hsplit, List.reverse_append]
  exact findAbove?_brace hb (fun l hl => hS l (List.mem_reverse.1 hl)) _ _

/-- Before the first line there is nothing to be found. -/
theorem at?_top (hb : StartsWithBrace b) {cursor : Int} (h : cursor ≤ 0) : at? (b :: B) cursor = none := by
  have htop : at? ([] ++ [] ++ b :: B) cursor = (findAbove? ([] : List Text).reverse).map Found.property :=
    at?_inside hb (by simp) (Nat.zero_le _) (by simpa using h)
  simpa [findAbove?] using htop

theorem at?_origin (hb : StartsWithBrace b) (hS : ∀ l ∈ S, Inert l) (cursor : Int) :
    at? (A ++ S ++ b :: B) cursor = at? (A ++ b :: B) (origin A.length S.length cursor) := by
  by_cases h₁ : cursor.toNat < A.length
  · have ho : origin A.length S.length cursor = cursor := if_pos (by omega)
    rw [ho, at?, at?, List.append_assoc, find?_before h₁]
  by_cases h₂ : cursor.toNat < A.length + S.length
  · rw [at?_inside hb hS (by omega) (by omega)]
    -- The origin is the last line before the brace, or, with none before it, the brace.
    cases A with
    | nil =>
      have ho : origin 0 S.length cursor ≤ 0 := by
        unfold origin
        simp only [List.length_nil] at h₂
        split <;> omega
      exact (at?_top hb ho).symm
    | cons a A =>
      have ho : origin (a :: A).length S.length cursor = (A.length : Nat) := by
        unfold origin
        rw [List.length_cons] at h₁ h₂ ⊢
        split <;> omega
      have htake : (a :: A ++ b :: B).take (linesToCursor (a :: A ++ b :: B).length (A.length : Nat)) =
          (a :: A) ++ [] := by
        rw [take_before (by simp), Int.toNat_natCast, ← List.length_cons, List.take_length, List.append_nil]
      rw [ho, at?_of_take htake, List.reverse_nil, List.nil_append]
  · by_cases hneg : cursor < 0
    · have hA : A = [] := List.length_eq_zero_iff.1 (by omega)
      have hS' : S = [] := List.length_eq_zero_iff.1 (by omega)
      rw [hA, hS', List.length_nil, origin_zero, List.nil_append]
    · obtain ⟨k, hk⟩ : ∃ k : Nat, cursor = (A.length + S.length + k : Nat) :=
        ⟨cursor.toNat - (A.length + S.length), by omega⟩
      have ho : origin A.length S.length cursor = (A.length + k : Nat) := by
        unfold origin
        split <;> omega
      rw [ho, hk, at?_below hb hS]

end Accessors.Property
