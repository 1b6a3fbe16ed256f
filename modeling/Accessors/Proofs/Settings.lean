/-
  Accessors.Proofs.Settings — what is read of the settings.

  A spacing key stands for the whole number written under it, or else for two (`count`);
  the key for the cursor stands for the truth value, or else for yes (`follows`). A value
  of another type is complained about once each time it is read, a null is not
  (`complaints`), and nothing else about the settings counts: `spaces_eq`, `redirect_eq`.
  Reading spaces fails for a count that no memory could hold, and never otherwise
  (`outcome_spaces`).
-/
import Accessors.Proofs.Trace
import Accessors.Settings

namespace Accessors.Settings

/-- The keys that stand for counts of spaces. -/
def spacingKeys : List Codes := [spacesAfterReturn, spacesAfterParam, spacesAfterParamVar]

/-- The value is of the type that the key asks for; under any other key none is. -/
def fits (key : Codes) : Value → Bool
  | .int _ => decide (key ∈ spacingKeys)
  | .bool _ => decide (key = redirectKey)
  | _ => false

def wanted (key : Codes) : Text := if key = redirectKey then "a boolean".toList else "an integer".toList

/-- What is said when a key is read under which there is a value of the wrong type. -/
def complaints (s : Settings) (key : Codes) : List Log.Notice :=
  ((s.written? key).filter fun v => !fits key v).toList.map fun v =>
    complaint key v (wanted key) ((Entries.find? key documented).getD .null).plain

/-- The count that a spacing key stands for; a negative number is none. -/
def count (s : Settings) (key : Codes) : Nat :=
  match s.written? key with
  | some (.int n) => n.toNat
  | _ => 2

/-- Whether the cursor follows an insertion: it does, unless a truth value says no. -/
def follows (s : Settings) : Bool :=
  match s.written? redirectKey with
  | some (.bool b) => b
  | _ => true

variable {s : Settings} {key : Codes}

theorem find?_documented (hk : key ∈ spacingKeys) : Entries.find? key documented = some (.int 2) := by
  simp only [spacingKeys, List.mem_cons, List.not_mem_nil, or_false] at hk
  rcases hk with rfl | rfl | rfl <;> rfl

theorem wanted_spacing (hk : key ∈ spacingKeys) : wanted key = "an integer".toList := by
  simp only [spacingKeys, List.mem_cons, List.not_mem_nil, or_false] at hk
  rcases hk with rfl | rfl | rfl <;> rfl

theorem fits_spacing (hk : key ∈ spacingKeys) (n : Int) : fits key (.int n) = true := decide_eq_true hk

theorem not_fits_spacing (hk : key ∈ spacingKeys) (b : Bool) : fits key (.bool b) = false := by
  simp only [spacingKeys, List.mem_cons, List.not_mem_nil, or_false] at hk
  rcases hk with rfl | rfl | rfl <;> rfl

theorem not_null_of_written? {v : Value} (h : s.written? key = some v) : v.isNull = false := by
  have hnull := (Option.filter_eq_some_iff.1 h).2
  rwa [Bool.not_eq_true'] at hnull

/-- Whatever is written, two is there to fall back on, and a complaint can be worded. -/
theorem getInt_eq (hk : key ∈ spacingKeys) :
    ∃ v, s.getInt key .null = ⟨s.complaints key, .ok v⟩ ∧ countOf v = s.count key := by
  have hfallback : ∀ otherwise, fallback key .null otherwise = .int 2 := by
    intro otherwise
    show (Entries.find? key documented).getD otherwise = .int 2
    rw [find?_documented hk, Option.getD_some]
  have hget : s.get key (.int 2) = (s.written? key).getD (.int 2) := rfl
  unfold getInt complaints count
  simp only [hfallback, hget, wanted_spacing hk, find?_documented hk]
  cases hwritten : s.written? key with
  | none => exact ⟨.int 2, rfl, rfl⟩
  | some v =>
    cases v with
    | null => cases not_null_of_written? hwritten
    | int n =>
      rw [Option.filter_some, fits_spacing hk]
      exact ⟨.int n, rfl, rfl⟩
    | bool b =>
      rw [Option.filter_some, not_fits_spacing hk]
      exact ⟨.int 2, rfl, rfl⟩
    | float x | str t | list items | object members => exact ⟨.int 2, rfl, rfl⟩

theorem spaces_eq (hk : key ∈ spacingKeys) : s.spaces key = ⟨s.complaints key,
    if countLimit ≤ s.count key then .error .countTooLarge else .ok (Text.spaces (s.count key))⟩ := by
  obtain ⟨v, hv, hcount⟩ := getInt_eq (s := s) hk
  unfold spaces
  rw [hv, Traced.mk_ok_bind, ← hcount]
  dsimp only
  split
  · exact congrArg (Traced.mk · _) (List.append_nil _)
  · exact congrArg (Traced.mk · _) (List.append_nil _)

theorem outcome_spaces (hk : key ∈ spacingKeys) : (s.spaces key).outcome =
    if countLimit ≤ s.count key then .error .countTooLarge else .ok (Text.spaces (s.count key)) := by
  rw [spaces_eq hk]

theorem redirect_eq (s : Settings) : s.redirect = ⟨s.complaints redirectKey, .ok (.bool s.follows)⟩ := by
  have hother : fallback redirectKey .null (.bool false) = .bool true := rfl
  have hget : s.get redirectKey (.bool true) = (s.written? redirectKey).getD (.bool true) := rfl
  unfold redirect getBool complaints follows
  simp only [hother, hget]
  cases hwritten : s.written? redirectKey with
  | none => rfl
  | some v =>
    cases v with
    | null => cases not_null_of_written? hwritten
    | bool b => rfl
    | int n | float x | str t | list items | object members => rfl

theorem outcome_redirect (s : Settings) : s.redirect.outcome = .ok (.bool s.follows) := by
  rw [redirect_eq]

theorem redirect_ok (s : Settings) : ∃ b, s.redirect.outcome = .ok (.bool b) := ⟨s.follows, s.outcome_redirect⟩

end Accessors.Settings
