/-
  Accessors.Proofs.Settings.Typed — settings without what is badly typed.

  Of the settings only a value of the right type counts (`fits`), and of a count only
  whether it is above zero and by how much. So the settings can be written again without
  all that does not fit (`typed`), under plain keys, and with zeros for negative counts
  (`raised`). What is read is the same (`count_typed`, `follows_typed`, `count_raised`),
  but of what is left there is nothing to complain about (`complaints_typed`).
-/
import Accessors.Proofs.Settings
import Accessors.Proofs.Settings.Ways

namespace Accessors.Settings

/-- The entries of the right type, in a mapping of their own. -/
def typed (s : Settings) : Settings := ofEntries (s.entries.filter fun e => fits e.1 e.2)

/-- The value, or zero in place of a count below it. -/
def raise (key : Codes) : Value → Value
  | .int n => .int (if fits key (.int n) ∧ n < 0 then 0 else n)
  | v => v

def raised (s : Settings) : Settings := ⟨s.entries.map fun e => (e.1, raise e.1 e.2)⟩

/-! ## Without what does not fit -/

section Typed

/-- A key that a value can fit is a plain one. -/
theorem plain_of_fits {key : Codes} {v : Value} (h : fits key v = true) : ¬sectionMark <+: key ∧ key ≠ sectionName := by
  have hkeys : ∀ k ∈ redirectKey :: spacingKeys, ¬sectionMark <+: k ∧ k ≠ sectionName := by decide
  refine hkeys key (List.mem_cons.2 ?_)
  cases v with
  | bool b => exact .inl (of_decide_eq_true h)
  | int n => exact .inr (of_decide_eq_true h)
  | null | float x | str t | list items | object members => cases h

variable {es : Entries Codes Value}

theorem nodup_ofEntries (es : Entries Codes Value) : (Entries.keys (ofEntries es).entries).Nodup := by
  rw [entries_ofEntries]
  exact Entries.nodup_assignAll (show (Entries.keys []).Nodup from List.nodup_nil) _

theorem entries_typed (es : Entries Codes Value) :
    (ofEntries es).typed.entries = (ofEntries es).entries.filter fun e => fits e.1 e.2 := by
  refine entries_of_supplied (Entries.nodup_filter (nodup_ofEntries es) _) (flatMap_supplied_plain fun e he => ?_)
  obtain ⟨hmark, hname⟩ := plain_of_fits (List.mem_filter.1 he).2
  exact ⟨hmark, fun members h => hname (congrArg Prod.fst h)⟩

theorem written?_typed (es : Entries Codes Value) (key : Codes) :
    (ofEntries es).typed.written? key = ((ofEntries es).written? key).filter (fits key) := by
  unfold written?
  rw [entries_typed, Entries.find?_filter (nodup_ofEntries es), Option.filter_filter, Option.filter_filter]
  congr 1
  funext v
  exact Bool.and_comm _ _

theorem complaints_typed (es : Entries Codes Value) (key : Codes) : (ofEntries es).typed.complaints key = [] := by
  unfold complaints
  rw [written?_typed]
  cases (ofEntries es).written? key with
  | none => rfl
  | some v => cases hfits : fits key v <;> simp [Option.filter, hfits]

theorem count_typed {key : Codes} (hk : key ∈ spacingKeys) (es : Entries Codes Value) :
    (ofEntries es).typed.count key = (ofEntries es).count key := by
  unfold count
  rw [written?_typed]
  cases (ofEntries es).written? key with
  | none => rfl
  | some v =>
    cases v with
    | int n => rw [Option.filter_some, fits_spacing hk, if_pos rfl]
    | bool b => rw [Option.filter_some, not_fits_spacing hk, if_neg Bool.false_ne_true]
    | null | float x | str t | list items | object members => rfl

theorem follows_typed (es : Entries Codes Value) : (ofEntries es).typed.follows = (ofEntries es).follows := by
  unfold follows
  rw [written?_typed]
  cases (ofEntries es).written? redirectKey with
  | none => rfl
  | some v => cases v <;> rfl

end Typed

/-! ## Without counts below zero -/

section Raised

variable (s : Settings)

theorem written?_raised (key : Codes) : s.raised.written? key = (s.written? key).map (raise key) := by
  unfold written? raised
  rw [Entries.find?_mapValues]
  cases Entries.find? key s.entries with
  | none => rfl
  | some v => cases v <;> rfl

theorem complaints_raised (key : Codes) : s.raised.complaints key = s.complaints key := by
  unfold complaints
  rw [written?_raised]
  cases s.written? key with
  | none => rfl
  | some v =>
    cases v with
    | int n =>
      by_cases hk : key ∈ spacingKeys
      · rw [Option.map_some, raise, Option.filter_some, Option.filter_some, fits_spacing hk, fits_spacing hk]
        rfl
      · rw [Option.map_some, raise, if_neg fun h => hk (of_decide_eq_true h.1)]
    | null | bool b | float x | str t | list items | object members => rfl

theorem count_raised {key : Codes} (hk : key ∈ spacingKeys) : s.raised.count key = s.count key := by
  unfold count
  rw [written?_raised]
  cases s.written? key with
  | none => rfl
  | some v =>
    cases v with
    | int n =>
      show (if fits key (.int n) ∧ n < 0 then 0 else n).toNat = n.toNat
      by_cases hn : n < 0
      · rw [if_pos ⟨fits_spacing hk n, hn⟩]
        omega
      · rw [if_neg fun h => hn h.2]
    | null | bool b | float x | str t | list items | object members => rfl

theorem follows_raised : s.raised.follows = s.follows := by
  unfold follows
  rw [written?_raised]
  cases s.written? redirectKey with
  | none => rfl
  | some v => cases v <;> rfl

end Raised

end Accessors.Settings
