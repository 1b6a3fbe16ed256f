/-
  Accessors.Entries — mappings that remember the order of insertion.

  An entry whose key is written again keeps its place and takes the new value.

  - `find?_assign`: what a key holds after an assignment.
  - `keys_assign`: an assignment adds its key at the end, or no key at all.
  - `find?_assignAll`: after several assignments a key holds the last value it was given.
  - `assignAll_new`: entries of new keys, all different, are added as they are.
  - `nodup_assignAll`: no key is ever there twice.
  - `find?_filter`: where keys are all different, leaving entries out takes away their
    values and no others.
-/

namespace Accessors

abbrev Entries (κ α : Type) := List (κ × α)

namespace Entries

variable {κ α : Type}

def keys (es : Entries κ α) : List κ := es.map Prod.fst

@[simp] theorem keys_cons (e : κ × α) (es : Entries κ α) : keys (e :: es) = e.1 :: keys es := rfl

theorem nodup_filter {es : Entries κ α} (h : (keys es).Nodup) (p : κ × α → Bool) : (keys (es.filter p)).Nodup :=
  h.sublist (List.filter_sublist.map _)

variable [DecidableEq κ]

def assign (key : κ) (value : α) : Entries κ α → Entries κ α
  | [] => [(key, value)]
  | e :: es => if e.1 = key then (key, value) :: es else e :: assign key value es

def find? (key : κ) : Entries κ α → Option α
  | [] => none
  | e :: es => if e.1 = key then some e.2 else find? key es

/-- The entries of `more`, one after the other, assigned to `es`. -/
def assignAll (es more : Entries κ α) : Entries κ α := more.foldl (fun es e => assign e.1 e.2 es) es

def ofPairs (pairs : List (κ × α)) : Entries κ α := assignAll [] pairs

@[simp] theorem find?_assign (key k : κ) (value : α) (es : Entries κ α) :
    find? k (assign key value es) = if k = key then some value else find? k es := by
  induction es with
  | nil => simp [assign, find?, eq_comm]
  | cons e es ih =>
    simp only [assign]
    split
    · rename_i h
      simp only [find?]
      by_cases hk : k = key
      · simp [hk]
      · have h1 : key ≠ k := fun h' => hk h'.symm
        simp [h1, h, hk]
    · rename_i h
      simp only [find?, ih]
      by_cases hk : k = key
      · simp [hk, h]
      · simp [hk]

theorem keys_assign (key : κ) (value : α) (es : Entries κ α) :
    keys (assign key value es) = if key ∈ keys es then keys es else keys es ++ [key] := by
  induction es with
  | nil => simp [assign, keys]
  | cons e es ih =>
    simp only [assign]
    split
    · rename_i h
      simp [h]
    · rename_i h
      have h' : key ≠ e.1 := fun hk => h hk.symm
      by_cases hm : key ∈ keys es <;> simp [ih, hm, h']

variable {key : κ} {value : α} {es more : Entries κ α}

theorem find?_append (key : κ) (es more : Entries κ α) :
    find? key (es ++ more) = (find? key es).or (find? key more) := by
  induction es with
  | nil => rfl
  | cons e es ih =>
    rw [List.cons_append, find?, find?, ih]
    split <;> rfl

theorem mem_of_find? (h : find? key es = some value) : (key, value) ∈ es := by
  induction es with
  | nil => simp [find?] at h
  | cons e es ih =>
    rw [find?] at h
    split at h
    · rename_i he
      obtain rfl := Option.some.inj h
      rw [← he]
      exact List.mem_cons_self
    · exact List.mem_cons_of_mem _ (ih h)

theorem find?_of_mem (h : (keys es).Nodup) (hm : (key, value) ∈ es) : find? key es = some value := by
  induction es with
  | nil => exact absurd hm List.not_mem_nil
  | cons e es ih =>
    rw [keys_cons, List.nodup_cons] at h
    rw [find?]
    rcases List.mem_cons.1 hm with rfl | hm
    · rw [if_pos rfl]
    · have hne : e.1 ≠ key := fun he => h.1 (he ▸ List.mem_map_of_mem hm)
      rw [if_neg hne, ih h.2 hm]

theorem find?_assignAll (key : κ) (es more : Entries κ α) :
    find? key (assignAll es more) = (find? key more.reverse).or (find? key es) := by
  induction more generalizing es with
  | nil => rfl
  | cons e more ih =>
    show find? key (assignAll (assign e.1 e.2 es) more) = _
    rw [ih, find?_assign, List.reverse_cons, find?_append, Option.or_assoc, find?]
    by_cases hk : key = e.1
    · simp [hk]
    · simp [hk, Ne.symm hk, find?]

theorem assign_new (h : key ∉ keys es) (value : α) : assign key value es = es ++ [(key, value)] := by
  induction es with
  | nil => rfl
  | cons e es ih =>
    rw [keys_cons, List.mem_cons, not_or] at h
    rw [assign, if_neg (Ne.symm h.1), ih h.2]
    rfl

theorem assignAll_new (h : (keys (es ++ more)).Nodup) : assignAll es more = es ++ more := by
  induction more generalizing es with
  | nil => exact (List.append_nil es).symm
  | cons e more ih =>
    have hsplit : es ++ e :: more = (es ++ [e]) ++ more := by simp
    have hnew : e.1 ∉ keys es := by
      intro he
      rw [keys, List.map_append, List.nodup_append] at h
      exact h.2.2 _ he _ List.mem_cons_self rfl
    show assignAll (assign e.1 e.2 es) more = es ++ e :: more
    rw [assign_new hnew, hsplit, ← ih (hsplit ▸ h)]

theorem nodup_assign (h : (keys es).Nodup) (key : κ) (value : α) : (keys (assign key value es)).Nodup := by
  rw [keys_assign]
  split
  · exact h
  · rename_i hnew
    rw [List.nodup_append]
    refine ⟨h, List.nodup_cons.2 ⟨List.not_mem_nil, List.nodup_nil⟩, ?_⟩
    intro k hk l hl
    rw [List.mem_singleton.1 hl]
    exact fun he => hnew (he ▸ hk)

theorem nodup_assignAll (h : (keys es).Nodup) (more : Entries κ α) : (keys (assignAll es more)).Nodup := by
  induction more generalizing es with
  | nil => exact h
  | cons e more ih => exact ih (nodup_assign h e.1 e.2)

theorem find?_filter (h : (keys es).Nodup) (p : κ × α → Bool) (key : κ) :
    find? key (es.filter p) = (find? key es).filter fun value => p (key, value) := by
  induction es with
  | nil => rfl
  | cons e es ih =>
    obtain ⟨k, v⟩ := e
    obtain ⟨hnew, hrest⟩ := List.nodup_cons.1 h
    rw [List.filter_cons, find?]
    by_cases hk : k = key
    · subst hk
      have hnone : find? k (es.filter p) = none := by
        cases hfind : find? k (es.filter p) with
        | none => rfl
        | some w => exact absurd (List.mem_map_of_mem (List.mem_filter.1 (mem_of_find? hfind)).1) hnew
      rw [if_pos rfl, Option.filter_some]
      by_cases hp : p (k, v) = true
      · rw [if_pos hp, if_pos hp, find?, if_pos rfl]
      · rw [if_neg hp, if_neg hp, hnone]
    · rw [if_neg hk]
      by_cases hp : p (k, v) = true
      · rw [if_pos hp, find?, if_neg hk, ih hrest]
      · rw [if_neg hp, ih hrest]

/-- Values that are changed by their keys. -/
theorem find?_mapValues (f : κ → α → α) (key : κ) (es : Entries κ α) :
    find? key (es.map fun e => (e.1, f e.1 e.2)) = (find? key es).map (f key) := by
  induction es with
  | nil => rfl
  | cons e es ih =>
    rw [List.map_cons, find?, find?, ih]
    by_cases hk : e.1 = key
    · rw [if_pos hk, if_pos hk, ← hk]
      rfl
    · rw [if_neg hk, if_neg hk]

end Entries

end Accessors
