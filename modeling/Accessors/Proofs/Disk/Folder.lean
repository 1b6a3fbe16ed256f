/-
  Accessors.Proofs.Disk.Folder — a file that is written is read back.

  Where a path leads depends on which names are taken and which of them are folders
  (`follow_congr`). Other bytes in a file change neither, so that its path still leads to
  it, and nothing else is another than it was, in the folder or outside of it
  (`write_rewritten`). If they are the old ones with others in between, then no file has
  lost anything (`Kept`).
-/
import Accessors.Disk.Folder
import Mathlib.Init

namespace Accessors.Folder

/-- The same names are taken, and the same ones by folders. -/
structure SameShape (d e : Folder) : Prop where
  taken : ∀ names, (d.item? names).isSome = (e.item? names).isSome
  folders : ∀ spot, d.isFolder spot = e.isFolder spot

theorem SameShape.enter {d e : Folder} (h : SameShape d e) : d.enter = e.enter := by
  funext spot name
  unfold Folder.enter
  cases spot with
  | outside => rfl
  | within names =>
    have hname := h.taken (names ++ [name])
    dsimp only
    rw [h.folders]
    cases hd : d.item? (names ++ [name]) with
    | none =>
      cases he : e.item? (names ++ [name]) with
      | none => rfl
      | some _ =>
        rw [hd, he] at hname
        cases hname
    | some _ =>
      cases he : e.item? (names ++ [name]) with
      | none =>
        rw [hd, he] at hname
        cases hname
      | some _ => rfl

theorem follow_congr {d e : Folder} (h : SameShape d e) (path : Text) : d.follow path = e.follow path := by
  unfold follow
  simp only [h.enter, h.folders]

theorem item?_assign {names : List Text} (hne : names ≠ []) (item : Item) (d : Folder) (other : List Text) :
    (d.assign names item).item? other = if other = names then some item else d.item? other := by
  unfold item? assign
  by_cases ho : other = []
  · subst ho
    rw [if_neg (Ne.symm hne)]
    rfl
  · have hempty : other.isEmpty = false := by simpa using ho
    rw [hempty]
    simp only [Bool.false_eq_true, if_false, Entries.find?_assign]

theorem ne_nil_of_file {d : Folder} {names : List Text} {bytes : Bytes} (h : d.item? names = some (.file bytes)) :
    names ≠ [] := by
  rintro rfl
  cases h

theorem sameShape_assign {d : Folder} {names : List Text} {old new : Bytes} (h : d.item? names = some (.file old)) :
    SameShape (d.assign names (.file new)) d := by
  have hne := ne_nil_of_file h
  refine ⟨?_, ?_⟩
  · intro other
    rw [item?_assign hne]
    by_cases ho : other = names
    · rw [if_pos ho, ho, h]
      rfl
    · rw [if_neg ho]
  · intro spot
    cases spot with
    | outside => rfl
    | within other =>
      show ((d.assign names (.file new)).item? other == some .folder) = (d.item? other == some .folder)
      rw [item?_assign hne]
      by_cases ho : other = names
      · rw [if_pos ho, ho, h]
        rfl
      · rw [if_neg ho]

/-! ## Reading -/

/-- The file that a path leads to, in the folder or outside of it. -/
inductive Finds (d : Folder) (path : Text) (bytes : Bytes) : Prop
  | within {names : List Text} : d.follow path = .ok (.within names) → d.item? names = some (.file bytes) →
      Finds d path bytes
  | outside : d.follow path = .ok .outside → d.outside path = .ok bytes → Finds d path bytes

theorem read_eq_ok {d : Folder} {path : Text} {bytes : Bytes} : d.read path = .ok bytes ↔ Finds d path bytes := by
  unfold read
  constructor
  · intro h
    cases hf : d.follow path with
    | error e =>
      rw [hf] at h
      cases h
    | ok spot =>
      rw [hf] at h
      cases spot with
      | outside => exact .outside hf h
      | within names =>
        simp only [Bind.bind, Except.bind] at h
        split at h
        · rename_i hi
          rw [Except.ok.inj h] at hi
          exact .within hf hi
        · cases h
        · cases h
  · rintro (⟨hf, hi⟩ | ⟨hf, ho⟩)
    · rw [hf]
      simp only [Bind.bind, Except.bind, hi]
      rfl
    · rw [hf]
      exact ho

/-! ## Writing -/

/-- The file that a path leads to holds other bytes. All else is as it was, in the folder
    and outside of it, and so are the ways through the folder. -/
inductive Rewritten (d e : Folder) (path : Text) (old new : Bytes) : Prop
  | within {names : List Text} (leads : d.follow path = .ok (.within names)) (held : d.item? names = some (.file old))
      (holds : e.item? names = some (.file new)) (others : ∀ other, other ≠ names → e.item? other = d.item? other)
      (outside : e.outside = d.outside) (ways : e.follow = d.follow) : Rewritten d e path old new
  | outside (leads : d.follow path = .ok .outside) (held : d.outside path = .ok old) (holds : e.outside path = .ok new)
      (others : ∀ other, other ≠ path → e.outside other = d.outside other) (within : e.item? = d.item?)
      (ways : e.follow = d.follow) : Rewritten d e path old new

theorem write_rewritten {d : Folder} {path : Text} {old : Bytes} (h : d.read path = .ok old) (new : Bytes) :
    Rewritten d (d.write path new) path old new := by
  cases read_eq_ok.1 h with
  | @within names hf hi =>
    have hne := ne_nil_of_file hi
    have hwrite : d.write path new = d.assign names (.file new) := by
      unfold write
      rw [hf]
    rw [hwrite]
    refine .within hf hi ?_ ?_ rfl (funext (follow_congr (sameShape_assign hi)))
    · rw [item?_assign hne, if_pos rfl]
    · intro other ho
      rw [item?_assign hne, if_neg ho]
  | outside hf ho =>
    have hwrite : d.write path new = { d with outside := fun p => if p = path then .ok new else d.outside p } := by
      unfold write
      rw [hf]
    rw [hwrite]
    exact .outside hf ho (if_pos rfl) (fun other hother => if_neg hother) rfl
      (funext (follow_congr ⟨fun _ => rfl, fun spot => by cases spot <;> rfl⟩))

theorem Rewritten.finds {d e : Folder} {path : Text} {old new : Bytes} (h : Rewritten d e path old new) :
    Finds e path new := by
  cases h with
  | within hf _ holds _ _ ways => exact .within (ways ▸ hf) holds
  | outside hf _ holds _ _ ways => exact .outside (ways ▸ hf) holds

theorem read_write {d : Folder} {path : Text} {old : Bytes} (h : d.read path = .ok old) (new : Bytes) :
    (d.write path new).read path = .ok new :=
  read_eq_ok.2 (write_rewritten h new).finds

/-! ## What is kept -/

/-- All else is as it was, and what files held is still there, in its order. -/
def Keeps {κ α : Type} (file : Bytes → α) (before after : κ → α) : Prop := ∀ k, after k = before k ∨
  ∃ old new : Bytes, before k = file old ∧ after k = file new ∧ old.Sublist new

section Keeps

variable {κ α : Type} {file : Bytes → α} {a b c : κ → α}

theorem Keeps.refl : Keeps file a a := fun _ => .inl rfl

theorem Keeps.trans (hfile : ∀ m n, file m = file n → m = n) (h : Keeps file a b) (k : Keeps file b c) :
    Keeps file a c := by
  intro i
  rcases k i with hsame | ⟨mid, new, hmid, hnew, hsub⟩
  · rw [hsame]
    exact h i
  · rcases h i with hsame | ⟨old, mid', hold, hmid', hsub'⟩
    · exact .inr ⟨mid, new, hsame ▸ hmid, hnew, hsub⟩
    · obtain rfl : mid' = mid := hfile _ _ (hmid'.symm.trans hmid)
      exact .inr ⟨old, new, hold, hnew, hsub'.trans hsub⟩

theorem keeps_of_others {k : κ} {old new : Bytes} (hold : a k = file old) (hnew : b k = file new)
    (hothers : ∀ i, i ≠ k → b i = a i) (hsub : old.Sublist new) : Keeps file a b := by
  intro i
  by_cases hi : i = k
  · subst hi
    exact .inr ⟨old, new, hold, hnew, hsub⟩
  · exact .inl (hothers i hi)

end Keeps

/-- No file has lost anything, in the folder or outside of it. -/
structure Kept (d e : Folder) : Prop where
  within : Keeps (fun bytes => some (Item.file bytes)) d.item? e.item?
  outside : Keeps Except.ok d.outside e.outside

theorem Kept.refl (d : Folder) : Kept d d := ⟨Keeps.refl, Keeps.refl⟩

theorem Kept.trans {a b c : Folder} (h : Kept a b) (k : Kept b c) : Kept a c :=
  ⟨h.within.trans (fun _ _ e => Item.file.inj (Option.some.inj e)) k.within,
    h.outside.trans (fun _ _ e => Except.ok.inj e) k.outside⟩

theorem Rewritten.kept {d e : Folder} {path : Text} {old new : Bytes} (h : Rewritten d e path old new)
    (hsub : old.Sublist new) : Kept d e := by
  cases h with
  | within _ held holds others outside _ => exact ⟨keeps_of_others held holds others hsub, outside ▸ Keeps.refl⟩
  | outside _ held holds others within _ => exact ⟨within ▸ Keeps.refl, keeps_of_others held holds others hsub⟩

end Accessors.Folder
