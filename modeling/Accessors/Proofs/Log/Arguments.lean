/-
  Accessors.Proofs.Log.Arguments — where the code points of a filled message come from.

  A place shows a value as a text, except for a string, which it can show as it is. The
  values that places take are the arguments and the members of the only one
  (`Supply.values`), and each step takes one of them and leaves the rest (`fill?_taken`).
  So a message of code points stays one, if the strings among those values are of code
  points too (`isString_filled`).
-/
import Accessors.Log.Arguments
import Accessors.Proofs.Value.Encoded

namespace Accessors.Log

open Codes (IsString)

/-! ## A value in a field -/

/-- A value that is a string is one of code points. -/
def OfPoints (v : Value) : Prop := ∀ s, v = .str s → IsString s

namespace Field

variable (f : Field)

theorem isString_text {s : Codes} (h : IsString s) : IsString (f.text s) := by
  have hmissing : IsString (Text.codes (Text.spaces (f.width - s.length))) := Codes.isString_codes _
  unfold text
  split
  · exact h.append hmissing
  · exact hmissing.append h

theorem isString_cut {s : Codes} (h : IsString s) : IsString (f.cut s) := by
  unfold cut
  split
  · exact fun n hn => h n (List.mem_of_mem_take hn)
  · exact h

theorem isString_number (n : Numeral) : IsString (f.number n) := by
  unfold number
  split
  · exact Codes.isString_codes _
  · exact f.isString_text (Codes.isString_codes _)

end Field

theorem code?_lt {v : Value} {code : Nat} (hv : OfPoints v) (h : code? v = some code) : code < 0x110000 := by
  unfold code? at h
  split at h
  · cases h
    exact hv _ rfl _ List.mem_cons_self
  · obtain ⟨n, -, hn⟩ := Option.bind_eq_some_iff.1 h
    split at hn
    · cases hn
      omega
    · cases hn

theorem isString_plain {v : Value} (hv : OfPoints v) : IsString v.plain := by
  unfold Value.plain
  split
  · exact hv _ rfl
  · exact Codes.isString_codes _

theorem isString_shown {f : Field} {v : Value} {style : Style} {t : Codes} (hv : OfPoints v)
    (h : style.shown? f v = some t) : IsString t := by
  have hnumber : ∀ {capitals p}, Style.shown?.shownNumber f v capitals p = some t → IsString t := by
    intro capitals p h
    obtain ⟨x, -, rfl⟩ := Option.map_eq_some_iff.1 h
    exact f.isString_number _
  cases style with
  | plain =>
    cases h
    exact f.isString_text (f.isString_cut (isString_plain hv))
  | quoted | ascii =>
    cases h
    exact f.isString_text (f.isString_cut (Codes.isString_codes _))
  | character =>
    obtain ⟨code, hcode, rfl⟩ := Option.map_eq_some_iff.1 h
    exact f.isString_text (List.forall_mem_singleton.2 (code?_lt hv hcode))
  | decimal | octal | hexadecimal =>
    obtain ⟨n, -, rfl⟩ := Option.map_eq_some_iff.1 h
    exact f.isString_number _
  | places | scientific | digits => exact hnumber h

/-! ## Taking arguments -/

namespace Supply

variable {s s' : Supply} {v : Value}

/-- The values that places can still take. -/
def values : Supply → List Value
  | .queue vs => vs
  | .members ms next => next.toList ++ ms.map Prod.snd

theorem next?_taken (h : s.next? = some (v, s')) : v ∈ s.values ∧ s'.values ⊆ s.values := by
  cases s with
  | queue vs =>
    cases vs with
    | nil => cases h
    | cons v' vs =>
      cases h
      exact ⟨List.mem_cons_self, List.subset_cons_self _ _⟩
  | members ms next =>
    cases next with
    | none => cases h
    | some v' =>
      cases h
      exact ⟨List.mem_cons_self, List.subset_append_right _ _⟩

theorem keyed?_taken {key : Option Codes} (h : s.keyed? key = some s') : s'.values ⊆ s.values := by
  cases key with
  | none =>
    cases h
    exact List.Subset.refl _
  | some key =>
    cases s with
    | queue vs => cases h
    | members ms next =>
      obtain ⟨v, hv, rfl⟩ := Option.map_eq_some_iff.1 h
      have hmem : v ∈ ms.map Prod.snd := List.mem_map.2 ⟨_, Entries.mem_of_find? hv, rfl⟩
      rintro w hw
      rcases List.mem_cons.1 hw with rfl | hw
      · exact List.mem_append_right _ hmem
      · exact List.mem_append_right _ hw

theorem count?_taken {count : Option Count} {n : Option Int} (h : s.count? count = some (n, s')) :
    s'.values ⊆ s.values := by
  cases count with
  | none =>
    cases h
    exact List.Subset.refl _
  | some c =>
    cases c with
    | written k =>
      cases h
      exact List.Subset.refl _
    | argument =>
      obtain ⟨⟨v, s''⟩, hnext, hn⟩ := Option.bind_eq_some_iff.1 h
      obtain ⟨k, -, he⟩ := Option.map_eq_some_iff.1 hn
      cases he
      exact (next?_taken hnext).2

/-- A place shows one of the values, and leaves none but them. -/
theorem fill?_taken {p : Place} {t : Codes} (h : s.fill? p = some (t, s')) :
    (∃ v ∈ s.values, ∃ field, p.style.shown? field v = some t) ∧ s'.values ⊆ s.values := by
  simp only [fill?, Option.bind_eq_bind, Option.bind_eq_some_iff, Option.pure_def, Option.some.injEq,
    Prod.mk.injEq] at h
  obtain ⟨s₁, hkey, ⟨width, s₂⟩, hwidth, ⟨precision, s₃⟩, hprecision, field, -, ⟨v, s₄⟩, hnext, t, hshown, rfl, rfl⟩ := h
  have hleft : s₃.values ⊆ s.values :=
    List.Subset.trans (count?_taken hprecision) (List.Subset.trans (count?_taken hwidth) (keyed?_taken hkey))
  obtain ⟨hv, hrest⟩ := next?_taken hnext
  exact ⟨⟨v, hleft hv, field, hshown⟩, List.Subset.trans hrest hleft⟩

end Supply

/-! ## Messages -/

theorem mem_of_code_mem_pieces {message : Codes} {ps : List Piece} (h : pieces? message = some ps) {code : Nat}
    (hcode : .code code ∈ ps) : code ∈ message := by
  suffices hfrom : ∀ k ps, piecesFrom k message = some ps → .code code ∈ ps → code ∈ message from hfrom 0 ps h hcode
  clear h hcode
  intro k ps h hcode
  induction message generalizing k ps with
  | nil =>
    rw [piecesFrom] at h
    cases h
    cases hcode
  | cons c r ih =>
    have hkept : ∀ {k}, (piecesFrom k r).map (.code c :: ·) = some ps → code ∈ c :: r := by
      intro k h
      obtain ⟨ps', hps', rfl⟩ := Option.map_eq_some_iff.1 h
      rcases List.mem_cons.1 hcode with he | hcode
      · cases he
        exact List.mem_cons_self
      · exact List.mem_cons_of_mem _ (ih _ _ hps' hcode)
    cases k with
    | succ k => exact List.mem_cons_of_mem _ (ih k ps h hcode)
    | zero =>
      rw [piecesFrom] at h
      split at h
      · exact hkept h
      split at h
      · exact hkept h
      split at h
      · obtain ⟨ps', hps', rfl⟩ := Option.map_eq_some_iff.1 h
        rcases List.mem_cons.1 hcode with he | hcode
        · cases he
        · exact List.mem_cons_of_mem _ (ih _ _ hps' hcode)
      · cases h

theorem isString_filledFrom {ps : List Piece} {s : Supply} {t : Codes} (h : filledFrom s ps = some t)
    (hcodes : ∀ code, .code code ∈ ps → code < 0x110000) (hvalues : ∀ v ∈ s.values, OfPoints v) : IsString t := by
  induction ps generalizing s t with
  | nil =>
    rw [filledFrom] at h
    split at h
    · cases h
      exact List.forall_mem_nil _
    · cases h
  | cons p ps ih =>
    have hrest : ∀ code, .code code ∈ ps → code < 0x110000 := fun code hc => hcodes code (List.mem_cons_of_mem _ hc)
    cases p with
    | code c =>
      obtain ⟨t', ht', rfl⟩ := Option.map_eq_some_iff.1 h
      exact List.forall_mem_cons.2 ⟨hcodes c List.mem_cons_self, ih ht' hrest hvalues⟩
    | place p =>
      simp only [filledFrom, Option.bind_eq_bind, Option.bind_eq_some_iff, Option.pure_def, Option.some.injEq] at h
      obtain ⟨⟨shown, s'⟩, hfill, t', ht', rfl⟩ := h
      obtain ⟨⟨v, hv, field, hshown⟩, hleft⟩ := Supply.fill?_taken hfill
      exact (isString_shown (hvalues v hv) hshown).append (ih ht' hrest fun w hw => hvalues w (hleft hw))

/-- The strings that a value can put into a message as they are: itself, or its members. -/
def givenStrings : Value → List Codes
  | .str s => [s]
  | .object ms => ms.filterMap fun m => match m.2 with
    | .str s => some s
    | _ => none
  | _ => []

theorem ofPoints_of_mem_values {args : List Value} (h : ∀ s ∈ args.flatMap givenStrings, IsString s) {v : Value}
    (hv : v ∈ (Supply.ofArgs args).values) : OfPoints v := by
  rintro s rfl
  refine h s ?_
  unfold Supply.ofArgs at hv
  split at hv
  · rename_i ms
    split at hv
    · cases List.mem_singleton.1 hv
    · rcases List.mem_cons.1 hv with he | hv
      · cases he
      · obtain ⟨m, hm, he⟩ := List.mem_map.1 hv
        exact List.mem_flatMap.2 ⟨_, List.mem_singleton_self _, List.mem_filterMap.2 ⟨m, hm, by rw [he]⟩⟩
  · exact List.mem_flatMap.2 ⟨_, hv, List.mem_singleton_self _⟩

theorem isString_filled {message t : Codes} {args : List Value} (h : filled? message args = some t)
    (hmessage : IsString message) (hargs : ∀ s ∈ args.flatMap givenStrings, IsString s) : IsString t := by
  unfold filled? at h
  split at h
  · cases h
    exact hmessage
  · obtain ⟨ps, hps, h⟩ := Option.bind_eq_some_iff.1 h
    exact isString_filledFrom h (fun code hc => hmessage _ (mem_of_code_mem_pieces hps hc))
      fun v hv => ofPoints_of_mem_values hargs hv

end Accessors.Log
