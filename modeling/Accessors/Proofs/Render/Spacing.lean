/-
  Accessors.Proofs.Render.Spacing — accessors as the settings space them.

  Of the settings an accessor reads a few counts of spaces (`spacing`). If they can all be
  held, rendering comes to the text with that many spaces (`text`), and if one of them
  cannot, to nothing: `outcome_accessors`.
-/
import Accessors.Proofs.Settings
import Accessors.Render.Accessor
import Mathlib.Logic.Basic

namespace Accessors.Render

/-- The keys that the spacing of accessors is read from. -/
def spacing : AccessorKind → List Codes
  | .getter => [Settings.spacesAfterReturn]
  | .setter => [Settings.spacesAfterParam, Settings.spacesAfterParamVar, Settings.spacesAfterReturn]
  | .both => [Settings.spacesAfterReturn] ++
      [Settings.spacesAfterParam, Settings.spacesAfterParamVar, Settings.spacesAfterReturn]

/-- Every run of spaces can be held. -/
def Spaceable (s : Settings) (kind : AccessorKind) : Prop := ∀ key ∈ spacing kind, s.count key < Settings.countLimit

instance (s : Settings) (kind : AccessorKind) : Decidable (Spaceable s kind) :=
  inferInstanceAs (Decidable (∀ key ∈ spacing kind, s.count key < Settings.countLimit))

theorem spaceable_defaults (kind : AccessorKind) : Spaceable Settings.defaults kind := by
  cases kind <;> decide

/-- The getter with as many spaces as the settings say. -/
def spacedGetter (s : Settings) (p : Property) : Text := getterText p (Text.spaces (s.count Settings.spacesAfterReturn))

def spacedSetter (s : Settings) (p : Property) : Text :=
  setterText p (Text.spaces (s.count Settings.spacesAfterParam)) (Text.spaces (s.count Settings.spacesAfterParamVar))
    (Text.spaces (s.count Settings.spacesAfterReturn))

def text (s : Settings) (p : Property) : AccessorKind → Text
  | .getter => spacedGetter s p
  | .setter => spacedSetter s p
  | .both => spacedGetter s p ++ spacedSetter s p

variable (s : Settings) (p : Property)

/-- What goes on once the spaces of a key are read. -/
theorem outcome_spaces_bind {α : Type} {key : Codes} (hk : key ∈ Settings.spacingKeys) (f : Text → Rendering α) :
    (s.spaces key >>= f).outcome = if s.count key < Settings.countLimit then
      (f (Text.spaces (s.count key))).outcome else .error .countTooLarge := by
  rw [Traced.outcome_bind, Settings.outcome_spaces hk]
  by_cases h : s.count key < Settings.countLimit
  · rw [if_neg (by omega), if_pos h]
    rfl
  · rw [if_pos (by omega), if_neg h]
    rfl

theorem outcome_getter : (getter s p).outcome =
    if Spaceable s .getter then .ok (spacedGetter s p) else .error .countTooLarge := by
  have hspaceable : Spaceable s .getter ↔ s.count Settings.spacesAfterReturn < Settings.countLimit := by
    simp [Spaceable, spacing]
  unfold getter
  rw [outcome_spaces_bind s (by decide)]
  simp only [hspaceable]
  rfl

theorem outcome_setter : (setter s p).outcome =
    if Spaceable s .setter then .ok (spacedSetter s p) else .error .countTooLarge := by
  have hspaceable : Spaceable s .setter ↔ s.count Settings.spacesAfterParam < Settings.countLimit ∧
      s.count Settings.spacesAfterParamVar < Settings.countLimit ∧
        s.count Settings.spacesAfterReturn < Settings.countLimit := by
    simp [Spaceable, spacing]
  unfold setter
  rw [outcome_spaces_bind s (by decide), outcome_spaces_bind s (by decide), outcome_spaces_bind s (by decide)]
  simp only [hspaceable, ite_and]
  rfl

theorem outcome_accessors (kind : AccessorKind) : (accessors s p kind).outcome =
    if Spaceable s kind then .ok (text s p kind) else .error .countTooLarge := by
  cases kind with
  | getter => exact outcome_getter s p
  | setter => exact outcome_setter s p
  | both =>
    have hspaceable : Spaceable s .both ↔ Spaceable s .getter ∧ Spaceable s .setter := List.forall_mem_append
    show (getter s p >>= fun g => setter s p >>= fun t => pure (g ++ t)).outcome = _
    rw [Traced.outcome_bind, outcome_getter]
    by_cases hg : Spaceable s .getter
    · rw [if_pos hg]
      show (setter s p >>= fun t => pure (spacedGetter s p ++ t)).outcome = _
      rw [Traced.outcome_bind, outcome_setter]
      by_cases ht : Spaceable s .setter
      · rw [if_pos ht, if_pos (hspaceable.2 ⟨hg, ht⟩)]
        rfl
      · rw [if_neg ht, if_neg fun h => ht (hspaceable.1 h).2]
        rfl
    · rw [if_neg hg, if_neg fun h => hg (hspaceable.1 h).1]
      rfl

end Accessors.Render
