/-
  Accessors.Proofs.Editor.Language — which files hold PHP.

  The suffix of a path is its last dot with what is behind that, or nothing
  (`suffix_cases`), and no other character has a lower case with a dot in it
  (`dot_mem_lowerAfter`). So a suffix that is not known as one of PHP never comes to the
  name of the language when its dots are taken away.
  - `languageId_iff`: a file holds PHP if and only if its suffix is a known one in any case.
-/
import Accessors.Editor.SourceFile
import Accessors.Proofs.Source.Keyword
import Mathlib.Data.List.TakeWhile

namespace Accessors

namespace Text

theorem dot_mem_lowerOf {c : Char} (h : '.' ∈ lowerOf c) : c = '.' := by
  unfold lowerOf at h
  split at h
  · have hlower : c.toLower = '.' := (List.mem_singleton.1 h).symm
    by_cases hcapital : c.val ≥ 'A'.val ∧ c.val ≤ 'Z'.val
    · have hlow : 65 ≤ c.val.toNat := UInt32.le_iff_toNat_le.1 hcapital.1
      have hhigh : c.val.toNat ≤ 90 := UInt32.le_iff_toNat_le.1 hcapital.2
      have hval : (c.val + ('a'.val - 'A'.val)).toNat = 46 := by
        rw [show c.toLower = ⟨c.val + ('a'.val - 'A'.val), _⟩ from dif_pos hcapital] at hlower
        exact congrArg (fun d : Char => d.val.toNat) hlower
      have hshift : ('a'.val - 'A'.val).toNat = 32 := by decide
      rw [UInt32.toNat_add, hshift] at hval
      omega
    · rwa [show c.toLower = c from dif_neg hcapital] at hlower
  · rename_i hc
    split at h
    · exact absurd h (by decide)
    · have hcode : (Char.ofNat (mapByRows lowerRows c.toNat)).toNat = 46 :=
        congrArg Char.toNat (List.mem_singleton.1 h).symm
      by_cases hv : (mapByRows lowerRows c.toNat).isValidChar
      · rw [toNat_ofNat, if_pos hv] at hcode
        have hm := mapByRows_lower (by omega : 128 ≤ c.toNat)
        omega
      · rw [toNat_ofNat, if_neg hv] at hcode
        exact absurd hcode (by decide)

theorem dot_mem_lowerAfter {t before : Text} (h : '.' ∈ lowerAfter before t) : '.' ∈ t := by
  induction t generalizing before with
  | nil => exact h
  | cons c r ih =>
    rw [lowerAfter, List.mem_append] at h
    rcases h with h | h
    · split at h
      · split at h <;> exact absurd h (by decide)
      · rw [dot_mem_lowerOf h]
        exact List.mem_cons_self
    · exact List.mem_cons_of_mem _ (ih h)

end Text

theorem Path.suffix_cases (p : Path) : p.suffix = [] ∨ ∃ ending, p.suffix = '.' :: ending ∧ '.' ∉ ending := by
  have hdot : '.' ∉ p.name.reverse.takeWhile (· ≠ '.') := by
    intro hdot
    simpa using List.mem_takeWhile_imp hdot
  have hsplit := List.takeWhile_append_dropWhile (p := (· ≠ '.')) (l := p.name.reverse)
  have hhead := List.head?_dropWhile_not (· ≠ '.') p.name.reverse
  unfold suffix
  dsimp only
  generalize p.name.reverse.takeWhile (· ≠ '.') = ending at hdot hsplit ⊢
  cases hrest : p.name.reverse.dropWhile (· ≠ '.') with
  | nil =>
    -- A name without a dot has no suffix.
    have hlength : ending.length = p.name.length := by
      rw [hrest, List.append_nil] at hsplit
      rw [hsplit, List.length_reverse]
    exact .inl (by simp [hlength])
  | cons c rest =>
    rw [hrest] at hsplit hhead
    obtain rfl : c = '.' := by simpa using hhead
    have hname : p.name = rest.reverse ++ '.' :: ending.reverse := by
      rw [← List.reverse_inj, ← hsplit]
      simp
    split
    · exact .inl rfl
    · have hstem : p.name.length - ending.length - 1 = rest.reverse.length := by
        rw [hname]
        simp only [List.length_append, List.length_cons, List.length_reverse]
        omega
      refine .inr ⟨ending.reverse, ?_, fun h => hdot (List.mem_reverse.1 h)⟩
      rw [hstem, hname, List.drop_left]

namespace SourceFile

theorem languageId_iff (f : SourceFile) : f.languageId = Command.languageId ↔ Text.lower f.path.suffix ∈ suffixes := by
  unfold languageId
  dsimp only
  rw [← List.contains_iff_mem]
  split
  · rename_i h
    exact ⟨fun _ => h, fun _ => rfl⟩
  rename_i hunknown
  refine ⟨fun hdots => ?_, fun h => absurd h hunknown⟩
  rcases f.path.suffix_cases with hsuffix | ⟨ending, hsuffix, hending⟩
  · rw [hsuffix] at hdots
    cases hdots
  · have hlower : Text.lower f.path.suffix = '.' :: Text.lowerAfter ['.'] ending := by
      rw [hsuffix]
      rfl
    have hplain : '.' ∉ Text.lowerAfter ['.'] ending := fun h => hending (Text.dot_mem_lowerAfter h)
    have hdrop : (Text.lowerAfter ['.'] ending).dropWhile (· = '.') = Text.lowerAfter ['.'] ending := by
      cases hcases : Text.lowerAfter ['.'] ending with
      | nil => rfl
      | cons c rest =>
        have hc : c ≠ '.' := by
          rintro rfl
          exact hplain (hcases ▸ List.mem_cons_self)
        rw [List.dropWhile_cons, if_neg (by simpa using hc)]
    have hphp : Text.lower f.path.suffix = ".php".toList := by
      rw [hlower, List.dropWhile_cons, if_pos (decide_eq_true rfl), hdrop] at hdots
      rw [hlower, hdots]
      rfl
    exact absurd (by rw [hphp]; rfl) hunknown

end SourceFile

end Accessors
