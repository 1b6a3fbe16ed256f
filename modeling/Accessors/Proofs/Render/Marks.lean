/-
  Accessors.Proofs.Render.Marks — marks along a line.

  The key of a mark is a word (`IsKey`), so that no mark starts within another one, nor
  with the sign at its end if no word follows that (`EndsMark`). While other marks are
  filled in, one stays as it is, whatever their texts are (`replaceAll_mark`).
  - `fill_mark`: in the end it is filled with the text of its own key, and what stands
    behind it on its own, as long as no other mark can start in that text.
-/
import Accessors.Proofs.Render.Block

namespace Accessors.Render

open Template (mark)

/-- What ends a mark: nothing, or a character that is neither in a key nor its sign. -/
def EndsMark (t : Text) : Prop := ∀ c ∈ t.head?, isNameChar c = false ∧ c ≠ '%'

instance : (t : Text) → Decidable (EndsMark t)
  | [] => isTrue fun _ hc => by cases hc
  | c :: _ => decidable_of_iff (isNameChar c = false ∧ c ≠ '%')
      ⟨fun h _ hd => Option.some.inj hd ▸ h, fun h => h c rfl⟩

/-- The key of a mark is a word. -/
def IsKey (key : Text) : Prop := ∀ c ∈ key, isNameChar c = true

instance (key : Text) : Decidable (IsKey key) := decidable_of_iff (key.all isNameChar = true) List.all_eq_true

/-- Texts under keys that are words. -/
def Keyed (texts : List (Text × Text)) : Prop := ∀ e ∈ texts, IsKey e.1

theorem sign_not_mem {key : Text} (h : IsKey key) : '%' ∉ key :=
  fun hm => absurd (h _ hm) (by decide)

theorem startsWith_mark {k l : Text} (hk : '%' ∉ k) (hl : '%' ∉ l) {t : Text}
    (h : Text.startsWith (mark k) (mark l ++ t) = true) : k = l := by
  have hkeys : ∀ {k l : Text}, '%' ∉ k → '%' ∉ l → k ++ ['%'] <+: l ++ '%' :: t → k = l := by
    intro k
    induction k with
    | nil =>
      intro l _ hl hp
      cases l with
      | nil => rfl
      | cons d l => exact absurd ((List.cons_prefix_cons.1 hp).1 ▸ List.mem_cons_self) hl
    | cons c k ih =>
      intro l hk hl hp
      cases l with
      | nil => exact absurd ((List.cons_prefix_cons.1 hp).1 ▸ List.mem_cons_self) hk
      | cons d l =>
        obtain ⟨rfl, hrest⟩ := List.cons_prefix_cons.1 hp
        rw [ih (fun hm => hk (List.mem_cons_of_mem _ hm)) (fun hm => hl (List.mem_cons_of_mem _ hm)) hrest]
  have hcut : mark l ++ t = '%' :: (l ++ '%' :: t) := by simp [mark]
  rw [Text.startsWith_iff, hcut] at h
  exact hkeys hk hl (List.cons_prefix_cons.1 h).2

/-- The sign at the end of a mark starts no other one. -/
theorem startsWith_sign {k : Text} (hk : IsKey k) {t : Text} (ht : EndsMark t) :
    Text.startsWith (mark k) ('%' :: t) = false := by
  rw [← Bool.not_eq_true, Text.startsWith_iff]
  intro hp
  obtain ⟨r, rfl⟩ : k ++ ['%'] <+: t := (List.cons_prefix_cons.1 hp).2
  cases k with
  | nil => exact (ht '%' rfl).2 rfl
  | cons c k =>
    have hc : isNameChar c = false := (ht c rfl).1
    rw [hk c List.mem_cons_self] at hc
    cases hc

section Fill

variable {texts : List (Text × Text)}

theorem keyed_nil : Keyed [] := fun _ he => absurd he List.not_mem_nil

theorem keyed_cons {key t : Text} (hkey : IsKey key) (h : Keyed texts) : Keyed ((key, t) :: texts) :=
  List.forall_mem_cons.2 ⟨hkey, h⟩

theorem keyed_getterTexts (p : Property) : Keyed (getterTexts p) :=
  keyed_cons (by decide) <| keyed_cons (by decide) <| keyed_cons (by decide) <| keyed_cons (by decide) keyed_nil

theorem keyed_setterTexts (p : Property) : Keyed (setterTexts p) :=
  keyed_cons (by decide) <| keyed_cons (by decide) <| keyed_cons (by decide) <| keyed_cons (by decide) keyed_nil

/-- A mark of another key stays, and what is behind it is looked through. -/
theorem replaceAll_mark {k l : Text} (hk : IsKey k) (hl : IsKey l)
    (hne : k ≠ l) {t : Text} (ht : EndsMark t) (new : Text) :
    Text.replaceAll (mark k) new (mark l ++ t) = mark l ++ Text.replaceAll (mark k) new t := by
  have hcut : ∀ u : Text, mark l ++ u = '%' :: (l ++ '%' :: u) := by simp [mark]
  have hfirst : Text.startsWith (mark k) (mark l ++ t) = false := by
    rw [← Bool.not_eq_true]
    exact fun h => hne (startsWith_mark (sign_not_mem hk) (sign_not_mem hl) h)
  have hkey : ∀ c ∈ (mark k).head?, c ∉ l := by
    intro c hc
    obtain rfl : '%' = c := Option.some.inj hc
    exact sign_not_mem hl
  rw [hcut] at hfirst
  rw [hcut, hcut, Text.replaceAll, Text.replaceFrom, hfirst, if_neg Bool.false_ne_true, ← Text.replaceAll,
    Text.replaceAll_append hkey (apart_mark k).1, Text.replaceAll, Text.replaceFrom, startsWith_sign hk ht,
    if_neg Bool.false_ne_true, ← Text.replaceAll]

theorem EndsMark.replaceAll {t : Text} (ht : EndsMark t) (k new : Text) :
    EndsMark (Text.replaceAll (mark k) new t) := by
  cases t with
  | nil => exact ht
  | cons c r =>
    have hother : Text.startsWith (mark k) (c :: r) = false := by
      refine Text.startsWith_of_ne (apart_mark k).1 (fun d hd hdc => ?_) r
      obtain rfl : '%' = d := Option.some.inj hd
      exact (ht c rfl).2 hdc.symm
    rw [Text.replaceAll, Text.replaceFrom, hother, if_neg Bool.false_ne_true]
    exact fun d hd => ht d hd

/-- A mark is filled with the text of its key. -/
theorem fill_mark (htexts : Keyed texts) {key v : Text} (hkey : IsKey key) (hv : texts.lookup key = some v)
    (hsign : '%' ∉ v) {t : Text} (ht : EndsMark t) :
    Template.fill (mark key ++ t) texts = v ++ Template.fill t texts := by
  induction texts generalizing t with
  | nil => cases hv
  | cons e texts ih =>
    obtain ⟨he, htexts⟩ := List.forall_mem_cons.1 htexts
    have hstep : ∀ u : Text, Template.fill u (e :: texts) =
        Template.fill (Text.replaceAll (mark e.1) e.2 u) texts := fun _ => rfl
    rw [hstep, hstep]
    by_cases heq : e.1 = key
    · rw [← heq, List.lookup_cons_self] at hv
      obtain rfl := Option.some.inj hv
      rw [heq, Text.replaceAll_head (apart_mark key).1, fill_append _ hsign]
    · have hrest : texts.lookup key = some v := by
        have hbeq : (key == e.1) = false := by simpa using fun h => heq h.symm
        rwa [List.lookup_cons, hbeq] at hv
      rw [replaceAll_mark he hkey heq ht, ih htexts hrest (ht.replaceAll _ _)]

theorem fill_mark_self (htexts : Keyed texts) {key v : Text} (hkey : IsKey key) (hv : texts.lookup key = some v)
    (hsign : '%' ∉ v) : Template.fill (mark key) texts = v := by
  have hmark := fill_mark htexts hkey hv hsign (t := []) (by decide)
  rwa [List.append_nil, fill_plain [] List.not_mem_nil, List.append_nil] at hmark

end Fill

end Accessors.Render
