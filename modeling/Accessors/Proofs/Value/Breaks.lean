/-
  Accessors.Proofs.Value.Breaks — the kind of a break makes no difference.

  Breaks stand between the parts of a value and in none of them: a string holds a break
  as an escape only (`Plain`). A text that becomes another one when its breaks are unified
  can be cut like that one, part by part, so what the one writes the other writes too.
  - `json_unifyBreaks`: a text writes what it writes with its breaks unified.
-/
import Accessors.Proofs.Text.Lines
import Accessors.Proofs.Value.Reader

namespace Accessors.Value

open Text (Of unifyBreaks)

/-- No character is a control character. -/
def Plain (t : Text) : Prop := Of (fun c => 0x20 ≤ c.toNat) t

instance (t : Text) : Decidable (Plain t) := inferInstanceAs (Decidable (Of _ t))

section Plain

variable {p : Text}

theorem Plain.not_mem (h : Plain p) {c : Char} (hc : c.toNat < 0x20) : c ∉ p :=
  fun hmem => absurd (h c hmem) (by omega)

theorem plain_hexDigit {c : Char} {n : Nat} (h : HexDigit c n) : 0x20 ≤ c.toNat := by
  have hdigits : ∀ n < 16, 0x20 ≤ (Nat.digitChar n).toNat ∧ 0x20 ≤ (Nat.digitChar n).toUpper.toNat := by decide
  obtain ⟨hn, rfl | rfl⟩ := h
  · exact (hdigits n hn).1
  · exact (hdigits n hn).2

theorem plain_piece {n : Nat} (h : Piece p n) : Plain p := by
  cases h with
  | plain hc _ _ => simpa [Plain] using hc
  | @letter c n hmem =>
    have hletters : ∀ e ∈ letterEscapes, 0x20 ≤ e.1.toNat := by decide
    simpa [Plain] using hletters _ hmem
  | digits ha hb hc hd =>
    simp only [Plain, Text.of_cons, Text.of_nil, and_true]
    exact ⟨by decide, by decide, plain_hexDigit ha, plain_hexDigit hb, plain_hexDigit hc, plain_hexDigit hd⟩

theorem plain_pieces {ns : Codes} (h : Pieces p ns) : Plain p := by
  induction h with
  | nil => exact Text.of_nil
  | cons hp _ ih => exact Text.of_append.2 ⟨plain_piece hp, ih⟩

theorem plain_quoted {s : Codes} (h : Quoted p s) : Plain p := by
  obtain ⟨hs⟩ := h
  exact Text.of_cons.2 ⟨by decide, Text.of_append.2 ⟨plain_pieces hs, by simp [Of]⟩⟩

theorem plain_digits (h : ∀ c ∈ p, isAsciiDigit c = true) : Plain p := by
  intro c hc
  have hdigit := h c hc
  simp only [isAsciiDigit, Bool.and_eq_true, decide_eq_true_eq] at hdigit
  exact Nat.le_trans (by decide) hdigit.1

theorem plain_whole (h : Whole p) : Plain p := by
  cases h with
  | zero => simp [Plain]
  | other _ hds => exact plain_digits hds.2

theorem plain_number {digits : Nat} {v : Value} (h : Number digits p v) : Plain p := by
  have hsign : ∀ negative, Plain (signText negative) := by
    simp [Plain, signText]
  cases h with
  | int negative hw _ => exact Text.of_append.2 ⟨hsign negative, plain_whole hw⟩
  | float negative hw hf he _ =>
    refine Text.of_append.2 ⟨hsign negative, Text.of_append.2 ⟨plain_whole hw, Text.of_append.2 ⟨?_, ?_⟩⟩⟩
    · cases hf with
      | none => exact Text.of_nil
      | some hds => exact Text.of_cons.2 ⟨by decide, plain_digits hds.2⟩
    · have hsigns : ∀ e ∈ exponentSigns, Plain e.1 := by decide
      cases he with
      | none => exact Text.of_nil
      | some hc hs hds =>
        refine Text.of_cons.2 ⟨?_, Text.of_append.2 ⟨hsigns _ hs, plain_digits hds.2⟩⟩
        rcases hc with rfl | rfl <;> decide

theorem plain_named {v : Value} (h : (p, v) ∈ named) : Plain p := by
  have hnames : ∀ e ∈ named, Plain e.1 := by decide
  exact hnames _ h

theorem Plain.eq_of_unifyBreaks (h : Plain p) {u : Text} (hu : unifyBreaks u = unifyBreaks p) : u = p :=
  Text.eq_of_unifyBreaks (h.not_mem (by decide)) (h.not_mem (by decide)) hu

theorem Plain.getLast? (h : Plain p) : p.getLast? ≠ some '\r' :=
  fun he => h.not_mem (by decide) (List.mem_of_getLast? he)

end Plain

/-! ## Parts of a text -/

section Cuts

variable {g u b : Text} {c : Char}

theorem cut_part {p : Text} (hp : p.getLast? ≠ some '\r') (h : unifyBreaks u = unifyBreaks (p ++ b)) :
    ∃ q t, u = q ++ t ∧ unifyBreaks q = unifyBreaks p ∧ unifyBreaks t = unifyBreaks b :=
  Text.exists_of_unifyBreaks_eq (fun he => absurd he hp) h

theorem cut_mark (hc : 0x20 < c.toNat) (h : unifyBreaks u = unifyBreaks (c :: b)) :
    ∃ t, u = c :: t ∧ unifyBreaks t = unifyBreaks b := by
  have hplain : Plain [c] := by simpa [Plain] using hc.le
  obtain ⟨s, t, rfl, hs, ht⟩ := cut_part (p := [c]) hplain.getLast? h
  rw [hplain.eq_of_unifyBreaks hs]
  exact ⟨t, rfl, ht⟩

theorem gap_of_unifyBreaks (hg : Gap g) (h : unifyBreaks u = unifyBreaks g) : Gap u := by
  intro c hc
  by_cases hr : c = '\r'
  · rw [hr]
    rfl
  · have hmem : c ∈ unifyBreaks g := h ▸ Text.mem_unifyBreaks.2 (.inl ⟨hc, hr⟩)
    rcases Text.mem_unifyBreaks.1 hmem with ⟨hmem, -⟩ | ⟨rfl, -⟩
    · exact hg c hmem
    · rfl

theorem cut_gap (hg : Gap g) (hb : ∀ c ∈ b.head?, isGap c = false) (h : unifyBreaks u = unifyBreaks (g ++ b)) :
    ∃ g' t, u = g' ++ t ∧ Gap g' ∧ unifyBreaks t = unifyBreaks b := by
  obtain ⟨g', t, rfl, hg', ht⟩ := Text.exists_of_unifyBreaks_eq (fun _ he => absurd (hb _ he) (by decide)) h
  exact ⟨g', t, rfl, gap_of_unifyBreaks hg hg', ht⟩

theorem cut_gap_start (hg : Gap g) (hb : Starts b) (h : unifyBreaks u = unifyBreaks (g ++ b)) :
    ∃ g' t, u = g' ++ t ∧ Gap g' ∧ unifyBreaks t = unifyBreaks b := by
  refine cut_gap hg ?_ h
  obtain ⟨d, r, rfl, hd, -⟩ := hb
  intro c hc
  rwa [← Option.some.inj hc]

theorem cut_gap_mark (hg : Gap g) (hc : 0x20 < c.toNat) (h : unifyBreaks u = unifyBreaks (g ++ c :: b)) :
    ∃ g' t, u = g' ++ c :: t ∧ Gap g' ∧ unifyBreaks t = unifyBreaks b := by
  have hgap : ∀ d ∈ (c :: b).head?, isGap d = false := by
    intro d hd
    obtain rfl := Option.some.inj hd
    rw [← Bool.not_eq_true]
    intro hblank
    simp only [isGap, Bool.or_eq_true, decide_eq_true_eq] at hblank
    rcases hblank with ((rfl | rfl) | rfl) | rfl <;> exact absurd hc (by decide)
  obtain ⟨g', r, rfl, hg', hr⟩ := cut_gap hg hgap h
  obtain ⟨t, rfl, ht⟩ := cut_mark hc hr
  exact ⟨g', t, rfl, hg', ht⟩

theorem cut_gap_end (hg : Gap g) (hc : 0x20 < c.toNat) (h : unifyBreaks u = unifyBreaks (g ++ [c])) :
    ∃ g', u = g' ++ [c] ∧ Gap g' := by
  obtain ⟨g', t, rfl, hg', ht⟩ := cut_gap_mark hg hc h
  rw [Text.eq_of_unifyBreaks List.not_mem_nil List.not_mem_nil ht]
  exact ⟨g', rfl, hg'⟩

end Cuts

/-! ## Values -/

section Values

variable {digits d : Nat} {u : Text}

theorem getLast?_items {p : Text} {vs : List Value} : WritesItems digits d p vs → p.getLast? = some ']'
  | .last _ _ => by simp
  | .more _ _ _ hvs => by simp [List.getLast?_append, List.getLast?_cons, getLast?_items hvs]

theorem getLast?_members {p : Text} {ms : List (Codes × Value)} :
    WritesMembers digits d p ms → p.getLast? = some '\x7d'
  | .last _ _ => by simp
  | .more _ _ _ hms => by simp [List.getLast?_append, List.getLast?_cons, getLast?_members hms]

/-- No value ends in a break, so none is parted where it ends. -/
theorem getLast?_writes {p : Text} {v : Value} (h : Writes digits d p v) : p.getLast? ≠ some '\r' := by
  cases h with
  | named hmem _ => exact (plain_named hmem).getLast?
  | number hn => exact (plain_number hn).getLast?
  | str hq => exact (plain_quoted hq).getLast?
  | noItems _ | noMembers _ => simp [List.getLast?_cons]
  | items _ hvs => simp [List.getLast?_cons, getLast?_items hvs]
  | members _ hms => simp [List.getLast?_cons, getLast?_members hms]

theorem getLast?_member {p : Text} {m : Codes × Value} (h : WritesMember digits d p m) : p.getLast? ≠ some '\r' := by
  obtain ⟨-, -, -, hv⟩ := h
  have hlast := getLast?_writes hv
  obtain ⟨c, r, rfl, -⟩ := starts_writes hv
  simpa [List.getLast?_append, List.getLast?_cons] using hlast

mutual

theorem writes_of_unifyBreaks {d : Nat} {p : Text} {v : Value} :
    Writes digits d p v → ∀ {u}, unifyBreaks u = unifyBreaks p → Writes digits d u v
  | .named hmem hd, u, hu => by
    rw [(plain_named hmem).eq_of_unifyBreaks hu]
    exact .named hmem hd
  | .number hn, u, hu => by
    rw [(plain_number hn).eq_of_unifyBreaks hu]
    exact .number hn
  | .str hq, u, hu => by
    rw [(plain_quoted hq).eq_of_unifyBreaks hu]
    exact .str hq
  | .noItems hg, u, hu => by
    obtain ⟨t, rfl, ht⟩ := cut_mark (by decide) hu
    obtain ⟨g', rfl, hg'⟩ := cut_gap_end hg (by decide) ht
    exact .noItems hg'
  | .items hg hvs, u, hu => by
    obtain ⟨t, rfl, ht⟩ := cut_mark (by decide) hu
    obtain ⟨g', r, rfl, hg', hr⟩ := cut_gap_start hg (starts_items hvs) ht
    exact .items hg' (items_of_unifyBreaks hvs hr)
  | .noMembers hg, u, hu => by
    obtain ⟨t, rfl, ht⟩ := cut_mark (by decide) hu
    obtain ⟨g', rfl, hg'⟩ := cut_gap_end hg (by decide) ht
    exact .noMembers hg'
  | .members hg hms, u, hu => by
    obtain ⟨t, rfl, ht⟩ := cut_mark (by decide) hu
    obtain ⟨g', r, rfl, hg', hr⟩ := cut_gap_start hg (starts_members hms) ht
    exact .members hg' (members_of_unifyBreaks hms hr)

theorem items_of_unifyBreaks {d : Nat} {p : Text} {vs : List Value} :
    WritesItems digits d p vs → ∀ {u}, unifyBreaks u = unifyBreaks p → WritesItems digits d u vs
  | .last hv hg, u, hu => by
    obtain ⟨q, t, rfl, hq, ht⟩ := cut_part (getLast?_writes hv) hu
    obtain ⟨g₁, rfl, hg₁⟩ := cut_gap_end hg (by decide) ht
    exact .last (writes_of_unifyBreaks hv hq) hg₁
  | .more hv hg hg' hvs, u, hu => by
    obtain ⟨q, t, rfl, hq, ht⟩ := cut_part (getLast?_writes hv) hu
    obtain ⟨g₁, t, rfl, hg₁, ht⟩ := cut_gap_mark hg (by decide) ht
    obtain ⟨g₂, t, rfl, hg₂, ht⟩ := cut_gap_start hg' (starts_items hvs) ht
    exact .more (writes_of_unifyBreaks hv hq) hg₁ hg₂ (items_of_unifyBreaks hvs ht)

theorem member_of_unifyBreaks {d : Nat} {p : Text} {m : Codes × Value} :
    WritesMember digits d p m → ∀ {u}, unifyBreaks u = unifyBreaks p → WritesMember digits d u m
  | .mk hq hg hg' hv, u, hu => by
    obtain ⟨q, t, rfl, hname, ht⟩ := cut_part (plain_quoted hq).getLast? hu
    obtain ⟨g₁, t, rfl, hg₁, ht⟩ := cut_gap_mark hg (by decide) ht
    obtain ⟨g₂, t, rfl, hg₂, ht⟩ := cut_gap_start hg' (starts_writes hv) ht
    rw [(plain_quoted hq).eq_of_unifyBreaks hname]
    exact .mk hq hg₁ hg₂ (writes_of_unifyBreaks hv ht)

theorem members_of_unifyBreaks {d : Nat} {p : Text} {ms : List (Codes × Value)} :
    WritesMembers digits d p ms → ∀ {u}, unifyBreaks u = unifyBreaks p → WritesMembers digits d u ms
  | .last hm hg, u, hu => by
    obtain ⟨q, t, rfl, hq, ht⟩ := cut_part (getLast?_member hm) hu
    obtain ⟨g₁, rfl, hg₁⟩ := cut_gap_end hg (by decide) ht
    exact .last (member_of_unifyBreaks hm hq) hg₁
  | .more hm hg hg' hms, u, hu => by
    obtain ⟨q, t, rfl, hq, ht⟩ := cut_part (getLast?_member hm) hu
    obtain ⟨g₁, t, rfl, hg₁, ht⟩ := cut_gap_mark hg (by decide) ht
    obtain ⟨g₂, t, rfl, hg₂, ht⟩ := cut_gap_start hg' (starts_members hms) ht
    exact .more (member_of_unifyBreaks hm hq) hg₁ hg₂ (members_of_unifyBreaks hms ht)

end

theorem json_of_unifyBreaks {t : Text} {v : Value} (h : Json digits d t v) (hu : unifyBreaks u = unifyBreaks t) :
    Json digits d u v := by
  obtain ⟨hg, hv, hg'⟩ := h
  obtain ⟨g₁, r, rfl, hg₁, hr⟩ := cut_gap_start hg ((starts_writes hv).append _) hu
  obtain ⟨q, g₂, rfl, hq, hg₂⟩ := cut_part (getLast?_writes hv) hr
  exact .mk hg₁ (writes_of_unifyBreaks hv hq) (gap_of_unifyBreaks hg' hg₂)

/-- A text writes what it writes with its breaks unified. -/
theorem json_unifyBreaks {t : Text} {v : Value} : Json digits d (unifyBreaks t) v ↔ Json digits d t v := by
  have hidem : unifyBreaks (unifyBreaks t) = unifyBreaks t :=
    Text.unifyBreaks_of_not_mem fun hmem => by simpa using Text.mem_unifyBreaks.1 hmem
  exact ⟨fun h => json_of_unifyBreaks h hidem.symm, fun h => json_of_unifyBreaks h hidem⟩

end Values

end Accessors.Value
