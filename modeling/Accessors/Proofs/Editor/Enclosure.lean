/-
  Accessors.Proofs.Editor.Enclosure — in whose braces accessors go.

  A text leaves the block that it starts in where it has closed more braces than it has
  opened; `Enclosed` says that it does so nowhere, and `EndsOn` on which line it does so
  first. A declaration is looked for from the cursor upward, and the place of an insertion
  from the end of the document upward: it is before the last line that starts with a
  closing brace, whatever block that closes.
  - `enclosed_iff`: so the accessors go into the block of their declaration just when some
    line below it starts with a closing brace, and none does that stands below the end of
    that block;
  - `next_class_not_enclosed`: a class behind that of the declaration gets the accessors.
-/
import Accessors.Proofs.Editor.Build

namespace Accessors

/-- Nowhere in the text are more braces closed than were opened. -/
def Enclosed (t : Text) : Prop := ∀ p, p <+: t → p.count '\x7d' ≤ p.count '\x7b'

theorem Enclosed.of_prefix {s t : Text} (h : Enclosed t) (hp : s <+: t) : Enclosed s := fun p hs => h p (hs.trans hp)

/-- The lines below line `i` and above line `k`, as one text. -/
def between (lines : List Text) (i k : Nat) : Text := ((lines.take k).drop (i + 1)).flatten

theorem between_mono (lines : List Text) (i : Nat) {j k : Nat} (h : j ≤ k) :
    between lines i j <+: between lines i k := by
  obtain ⟨rest, hrest⟩ := List.take_prefix_take_left (l := lines) h
  refine ⟨(rest.drop (i + 1 - (lines.take j).length)).flatten, ?_⟩
  unfold between
  rw [← hrest, List.drop_append, List.flatten_append]

theorem between_succ (lines : List Text) (i : Nat) : between lines i (i + 1) = [] := by
  have hdrop : (lines.take (i + 1)).drop (i + 1) = [] := List.drop_eq_nil_iff.2 (List.length_take_le _ _)
  rw [between, hdrop, List.flatten_nil]

/-- The block that line `i` stands in ends on line `e`. -/
structure EndsOn (lines : List Text) (i e : Nat) : Prop where
  below : i < e
  within : Enclosed (between lines i e)
  left : ¬Enclosed (between lines i (e + 1))

theorem exists_endsOn {lines : List Text} {i k : Nat} (hk : i < k) (h : ¬Enclosed (between lines i k)) :
    ∃ e, e < k ∧ EndsOn lines i e := by
  induction k with
  | zero => omega
  | succ k ih =>
    by_cases hik : i = k
    · -- Nothing stands between a line and the next.
      subst hik
      rw [between_succ] at h
      exact absurd (fun p hp => by rw [List.prefix_nil.1 hp]; rfl) h
    · by_cases hw : Enclosed (between lines i k)
      · exact ⟨k, Nat.lt_succ_self k, by omega, hw, h⟩
      · obtain ⟨e, he, hends⟩ := ih (by omega) hw
        exact ⟨e, Nat.lt_succ_of_lt he, hends⟩

namespace Command

/-- Line `k` starts with a closing brace. -/
def ClosesAt (lines : List Text) (k : Nat) : Prop := ∃ l, lines[k]? = some l ∧ StartsWithBrace l

theorem closesAt_of_closingLine? {lines : List Text} {L : Nat} (h : closingLine? lines = some L) :
    ClosesAt lines L ∧ ∀ k, ClosesAt lines k → k ≤ L := by
  obtain ⟨A, b, B, rfl, rfl, hb, hB⟩ := closingLine?_iff.1 h
  refine ⟨⟨b, by simp, hb⟩, ?_⟩
  rintro k ⟨l, hl, hclose⟩
  by_contra hk
  obtain ⟨m, rfl⟩ : ∃ m, k = A.length + 1 + m := ⟨k - (A.length + 1), by omega⟩
  rw [List.getElem?_append_right (by omega), show A.length + 1 + m - A.length = m + 1 by omega,
    List.getElem?_cons_succ] at hl
  exact hB l (List.mem_of_getElem? hl) hclose

/-- The last of the lines that start with a closing brace is in the block of line `i` if
    there is one below `i`, and none below the end of that block. -/
theorem enclosed_last_iff {lines : List Text} {L : Nat} (hL : ClosesAt lines L) (hlast : ∀ k, ClosesAt lines k → k ≤ L)
    (i : Nat) : i < L ∧ Enclosed (between lines i L) ↔
      (∃ k, i < k ∧ ClosesAt lines k) ∧ ∀ e, EndsOn lines i e → ∀ k, ClosesAt lines k → k ≤ e := by
  constructor
  · rintro ⟨hbelow, henclosed⟩
    refine ⟨⟨L, hbelow, hL⟩, ?_⟩
    intro e he k hk
    by_contra hke
    have hleft : e + 1 ≤ L := by
      have := hlast k hk
      omega
    exact he.left (henclosed.of_prefix (between_mono lines i hleft))
  · rintro ⟨⟨k, hik, hk⟩, hends⟩
    have hbelow : i < L := Nat.lt_of_lt_of_le hik (hlast k hk)
    refine ⟨hbelow, ?_⟩
    by_contra hleft
    obtain ⟨e, heL, he⟩ := exists_endsOn hbelow hleft
    have := hends e he L hL
    omega

/-- The accessors of the declaration at or above the cursor go before the last line that
    starts with a closing brace. That is in the block of the declaration if and only if
    there is such a line below it and none below the end of its block. -/
theorem enclosed_iff {s : Settings} {d : Document} {kind : AccessorKind} {cursor : Int}
    (hcursor : d.selections = [cursor]) {found : Property.Found}
    (hfound : Property.find? d.lines cursor = some found) {i : Insertion}
    (hbuild : (build s d kind).outcome = .ok (.ok i)) :
    (∃ l, d.lines[found.line]? = some l ∧
      Property.ofLine? (d.lines.take found.line).reverse l = some found.property) ∧
    i.text = Render.text s found.property kind ∧
    ∃ L : Nat, i.line = L ∧ ClosesAt d.lines L ∧ (∀ k, ClosesAt d.lines k → k ≤ L) ∧
      (found.line < L ∧ Enclosed (between d.lines found.line L) ↔
        (∃ k, found.line < k ∧ ClosesAt d.lines k) ∧
          ∀ e, EndsOn d.lines found.line e → ∀ k, ClosesAt d.lines k → k ≤ e) := by
  obtain ⟨L, hL, hline, -, -⟩ := build_iff.1 hbuild
  obtain ⟨hcloses, hlast⟩ := closesAt_of_closingLine? hL
  exact ⟨(Property.find?_declares hfound).2, build_single hcursor hfound hbuild, L, hline, hcloses, hlast,
    enclosed_last_iff hcloses hlast found.line⟩

/-! ## One class behind the other -/

/-- Two classes, the first with a property. -/
def twoClasses : Document :=
  Document.ofText "class A \x7b\nprivate $a;\n\x7d\nclass B \x7b\n\x7d".toList [1] languageId none

theorem find?_twoClasses : ∃ found, Property.find? twoClasses.lines 1 = some found ∧ found.line = 1 := by
  have h : (Property.find? twoClasses.lines 1).map Property.Found.line = some 1 := by decide +kernel
  exact Option.map_eq_some_iff.1 h

theorem build_twoClasses : ∃ i, (build Settings.defaults twoClasses .getter).outcome = .ok (.ok i) ∧ i.line = 4 := by
  obtain ⟨found, hfound, -⟩ := find?_twoClasses
  exact build_found (by decide) (fun _ hl => Text.unbroken_of_mem_lines hl) (c := 1) (by decide) hfound (L := 4)
    (by decide +kernel)

theorem enclosed_iff_sample : ∃ found i, Property.find? twoClasses.lines 1 = some found ∧
    (build Settings.defaults twoClasses .getter).outcome = .ok (.ok i) ∧
      i.text = Render.text Settings.defaults found.property .getter ∧
        ∃ L : Nat, i.line = L ∧ (found.line < L ∧ Enclosed (between twoClasses.lines found.line L) ↔
          (∃ k, found.line < k ∧ ClosesAt twoClasses.lines k) ∧
            ∀ e, EndsOn twoClasses.lines found.line e → ∀ k, ClosesAt twoClasses.lines k → k ≤ e) := by
  obtain ⟨found, hfound, -⟩ := find?_twoClasses
  obtain ⟨i, hi, -⟩ := build_twoClasses
  obtain ⟨-, htext, L, hline, -, -, henclosed⟩ := enclosed_iff (show twoClasses.selections = [1] from rfl) hfound hi
  exact ⟨found, i, hfound, hi, htext, L, hline, henclosed⟩

/-- There are no quotes and no comments in the way: the accessors of the first class go
    into the second. -/
theorem next_class_not_enclosed :
    (∀ l ∈ twoClasses.lines, ∀ c ∈ l, c ≠ '\x27' ∧ c ≠ '\x22' ∧ c ≠ '#' ∧ c ≠ '/') ∧ twoClasses.selections = [1] ∧
      ∃ found i, Property.find? twoClasses.lines 1 = some found ∧
        (build Settings.defaults twoClasses .getter).outcome = .ok (.ok i) ∧
          ¬(found.line < i.line.toNat ∧ Enclosed (between twoClasses.lines found.line i.line.toNat)) := by
  obtain ⟨found, hfound, hline⟩ := find?_twoClasses
  obtain ⟨i, hi, hbefore⟩ := build_twoClasses
  have hplain : (twoClasses.lines.all fun l => l.all fun c =>
      c != '\x27' && c != '\x22' && c != '#' && c != '/') = true := by decide +kernel
  refine ⟨?_, rfl, found, i, hfound, hi, ?_⟩
  · intro l hl c hc
    have hchar := List.all_eq_true.1 (List.all_eq_true.1 hplain l hl) c hc
    simpa only [Bool.and_eq_true, bne_iff_ne, and_assoc] using hchar
  rw [hline, hbefore]
  rintro ⟨-, henclosed⟩
  have hbrace : ['\x7d'] <+: between twoClasses.lines 1 4 := by decide +kernel
  exact absurd (henclosed _ hbrace) (by decide)

end Command

end Accessors
