/-
  Accessors.Proofs.Text.Replace — replacing in a text, piece by piece.

  What is replaced and what is put in its place hold no separator. An occurrence then lies
  within one piece, and replacing goes through the pieces:
  - `splitOn_replaceAll`: every occurrence, in each piece for itself;
  - `splitOn_replaceFirst`: the first one, in the first piece that has one.
  Where a text starts with characters that are not the first of an occurrence, they stay
  (`replaceAll_append`, `replaceFirst_append`).
-/
import Accessors.Proofs.Text.Pieces
import Accessors.Proofs.Text.Trim
import Mathlib.Data.List.Infix

namespace Accessors.Text

theorem startsWith_iff {head t : Text} : startsWith head t = true ↔ head <+: t := List.isPrefixOf_iff_prefix

/-- An occurrence before a separator, which it does not hold, ends before it. -/
theorem prefix_append_sep {old p t : Text} {sep : Char} (h : sep ∉ old) : old <+: p ++ sep :: t ↔ old <+: p := by
  constructor
  · intro ho
    induction old generalizing p with
    | nil => exact List.nil_prefix
    | cons c old ih =>
      have hc : c ≠ sep := fun e => h (e ▸ List.mem_cons_self)
      cases p with
      | nil => exact absurd (List.cons_prefix_cons.1 ho).1 hc
      | cons d p =>
        obtain ⟨rfl, ho'⟩ := List.cons_prefix_cons.1 ho
        exact List.cons_prefix_cons.2 ⟨rfl, ih (fun hm => h (List.mem_cons_of_mem _ hm)) ho'⟩
  · exact fun ho => ho.trans (List.prefix_append _ _)

theorem startsWith_append_sep {old : Text} {sep : Char} (h : sep ∉ old) (p t : Text) :
    startsWith old (p ++ sep :: t) = startsWith old p := by
  rw [Bool.eq_iff_iff, startsWith_iff, startsWith_iff, prefix_append_sep h]

/-- No occurrence starts with a separator. -/
theorem startsWith_sep {old : Text} {sep : Char} (hne : old ≠ []) (h : sep ∉ old) (t : Text) :
    startsWith old (sep :: t) = false := by
  have ho := startsWith_append_sep h [] t
  rw [List.nil_append] at ho
  rw [ho, ← Bool.not_eq_true, startsWith_iff, List.prefix_nil]
  exact hne

/-- No occurrence starts with a character that is not its first. -/
theorem startsWith_of_ne {old : Text} (hne : old ≠ []) {c : Char} (h : ∀ d ∈ old.head?, d ≠ c) (t : Text) :
    startsWith old (c :: t) = false := by
  obtain ⟨d, r, rfl⟩ := List.exists_cons_of_ne_nil hne
  rw [← Bool.not_eq_true, startsWith_iff, List.cons_prefix_cons]
  intro hp
  exact h d rfl hp.1

theorem contains_iff {part t : Text} : contains part t = true ↔ part <:+: t := by
  induction t with
  | nil => simp [contains]
  | cons c t ih => rw [contains, Bool.or_eq_true, startsWith_iff, ih, List.infix_cons_iff]

theorem contains_char_iff {c : Char} {t : Text} : contains [c] t = true ↔ c ∈ t :=
  contains_iff.trans (List.singleton_infix_iff c t)

/-! ## Every occurrence -/

section All

variable {old new : Text} {sep : Char}

theorem replaceFrom_append_sep (hne : old ≠ []) (h : sep ∉ old) (t : Text) {k : Nat} {p : Text} (hk : k ≤ p.length) :
    replaceFrom old new k (p ++ sep :: t) = replaceFrom old new k p ++ sep :: replaceAll old new t := by
  induction p generalizing k with
  | nil =>
    obtain rfl : k = 0 := by simpa using hk
    simp [replaceFrom, replaceAll, startsWith_sep hne h]
  | cons c p ih =>
    cases k with
    | succ k =>
      rw [List.length_cons] at hk
      simp only [List.cons_append, replaceFrom]
      exact ih (by omega)
    | zero =>
      have hs := startsWith_append_sep h (c :: p) t
      simp only [List.cons_append] at hs ⊢
      simp only [replaceFrom, hs]
      by_cases ho : startsWith old (c :: p) = true
      · have hlen := (startsWith_iff.1 ho).length_le
        rw [List.length_cons] at hlen
        rw [if_pos ho, if_pos ho, ih (by omega), List.append_assoc]
      · rw [if_neg ho, if_neg ho, ih (by omega), List.cons_append]

theorem Of.replaceAll {p : Char → Prop} (hn : Of p new) {t : Text} (ht : Of p t) : Of p (replaceAll old new t) := by
  have hfrom : ∀ k, Of p (replaceFrom old new k t) := by
    induction t with
    | nil =>
      intro k
      exact of_nil
    | cons c t ih =>
      obtain ⟨hc, ht⟩ := of_cons.1 ht
      intro k
      cases k with
      | succ k => exact ih ht k
      | zero =>
        simp only [replaceFrom]
        by_cases ho : startsWith old (c :: t) = true
        · rw [if_pos ho]
          exact of_append.2 ⟨hn, ih ht _⟩
        · rw [if_neg ho]
          exact of_cons.2 ⟨hc, ih ht _⟩
  exact hfrom 0

theorem splitOn_replaceAll (hne : old ≠ []) (h : sep ∉ old) (hn : sep ∉ new) (t : Text) :
    splitOn sep (replaceAll old new t) = (splitOn sep t).map (replaceAll old new) := by
  have hjoin : ∀ {ps : List Text}, ps ≠ [] → (∀ p ∈ ps, sep ∉ p) →
      splitOn sep (replaceAll old new (joinWith [sep] ps)) = ps.map (replaceAll old new) := by
    intro ps hps hm
    induction ps with
    | nil => exact absurd rfl hps
    | cons p ps ih =>
      have hp : sep ∉ replaceAll old new p := of_ne_iff.1 ((of_ne_iff.2 hn).replaceAll (of_ne_iff.2 (hm p (by simp))))
      cases ps with
      | nil => simpa [joinWith] using splitOn_of_not_mem hp
      | cons q ps =>
        have hq := ih (by simp) fun x hx => hm x (List.mem_cons_of_mem _ hx)
        rw [joinWith_cons_cons, replaceAll, replaceFrom_append_sep hne h _ (Nat.zero_le _), ← replaceAll,
          splitOn_append_sep hp, hq]
        simp only [List.map_cons]
  have ht := hjoin (splitOn_ne_nil sep t) fun _ hp => not_mem_of_mem_splitOn hp
  rwa [joinWith_splitOn] at ht

/-- Characters that do not start an occurrence stay where they are. -/
theorem replaceAll_append {head : Text} (h : ∀ c ∈ old.head?, c ∉ head) (hne : old ≠ []) (t : Text) :
    replaceAll old new (head ++ t) = head ++ replaceAll old new t := by
  induction head with
  | nil => rfl
  | cons c head ih =>
    have hs : startsWith old (c :: (head ++ t)) = false :=
      startsWith_of_ne hne (fun d hd => List.ne_of_not_mem_cons (h d hd)) _
    have hrest := ih fun d hd hm => h d hd (List.mem_cons_of_mem _ hm)
    simp only [replaceAll] at hrest ⊢
    simp [replaceFrom, hs, hrest]

/-- The rest of an occurrence is skipped. -/
theorem replaceFrom_append (w v : Text) : replaceFrom old new w.length (w ++ v) = replaceAll old new v := by
  induction w with
  | nil => rfl
  | cons c w ih => exact ih

theorem replaceAll_head (hne : old ≠ []) (t : Text) : replaceAll old new (old ++ t) = new ++ replaceAll old new t := by
  obtain ⟨c, r, rfl⟩ := List.exists_cons_of_ne_nil hne
  have hs : startsWith (c :: r) (c :: (r ++ t)) = true := startsWith_iff.2 (List.prefix_append _ _)
  have hskip : replaceFrom (c :: r) new ((c :: r).length - 1) (r ++ t) = replaceAll (c :: r) new t :=
    replaceFrom_append r t
  rw [replaceAll, List.cons_append, replaceFrom, if_pos hs, hskip]

theorem replaceAll_self (hne : old ≠ []) : replaceAll old new old = new := by
  have hhead := @replaceAll_head old new hne []
  rwa [List.append_nil, show replaceAll old new [] = [] from rfl, List.append_nil] at hhead

theorem replaceAll_eq_self {t : Text} (h : contains old t = false) : replaceAll old new t = t := by
  induction t with
  | nil => rfl
  | cons c t ih =>
    obtain ⟨hs, ht⟩ := Bool.or_eq_false_iff.1 h
    have hrest := ih ht
    simp only [replaceAll] at hrest ⊢
    simp [replaceFrom, hs, hrest]

/-- No occurrence starts in such characters. -/
theorem contains_append {head : Text} (h : ∀ c ∈ old.head?, c ∉ head) (hne : old ≠ []) (t : Text) :
    contains old (head ++ t) = contains old t := by
  induction head with
  | nil => rfl
  | cons c head ih =>
    have hs : startsWith old (c :: (head ++ t)) = false :=
      startsWith_of_ne hne (fun d hd => List.ne_of_not_mem_cons (h d hd)) _
    rw [List.cons_append, contains, hs, Bool.false_or, ih fun d hd hm => h d hd (List.mem_cons_of_mem _ hm)]

/-- One character is replaced wherever it stands. -/
theorem replaceAll_singleton (c : Char) (t : Text) :
    replaceAll [c] new t = t.flatMap fun d => if d = c then new else [d] := by
  induction t with
  | nil => rfl
  | cons d t ih =>
    have hs : startsWith [c] (d :: t) = true ↔ d = c := by
      rw [startsWith_iff, List.cons_prefix_cons]
      exact ⟨fun h => h.1.symm, fun h => ⟨h.symm, List.nil_prefix⟩⟩
    simp only [replaceAll] at ih ⊢
    simp only [replaceFrom, hs, List.flatMap_cons, List.length_singleton, Nat.sub_self, ih]
    split <;> rfl

end All

/-! ## The first occurrence -/

/-- The first occurrence in the first of the pieces that has one. -/
def replaceFirstIn (old new : Text) : List Text → List Text
  | [] => []
  | p :: ps => if contains old p then replaceFirst old new p :: ps else p :: replaceFirstIn old new ps

section First

variable {old new : Text} {sep : Char}

theorem length_replaceFirstIn (ps : List Text) : (replaceFirstIn old new ps).length = ps.length := by
  induction ps with
  | nil => rfl
  | cons p ps ih =>
    rw [replaceFirstIn]
    split
    · rfl
    · rw [List.length_cons, ih, List.length_cons]

theorem contains_nil (hne : old ≠ []) : contains old [] = false := by
  simp [contains, hne]

theorem replaceFirst_eq_self {t : Text} (h : contains old t = false) : replaceFirst old new t = t := by
  induction t with
  | nil =>
    have hne : old ≠ [] := by
      intro he
      simp [contains, he] at h
    simp [replaceFirst, hne]
  | cons c t ih =>
    simp only [contains, Bool.or_eq_false_iff] at h
    simp [replaceFirst, h.1, ih h.2]

theorem replaceFirst_append_sep (hne : old ≠ []) (h : sep ∉ old) (p t : Text) :
    replaceFirst old new (p ++ sep :: t) =
      if contains old p then replaceFirst old new p ++ sep :: t else p ++ sep :: replaceFirst old new t := by
  induction p with
  | nil => simp [replaceFirst, startsWith_sep hne h, contains_nil hne]
  | cons c p ih =>
    have hs := startsWith_append_sep h (c :: p) t
    simp only [List.cons_append] at hs ⊢
    simp only [replaceFirst, hs, contains]
    by_cases ho : startsWith old (c :: p) = true
    · obtain ⟨u, hu⟩ := startsWith_iff.1 ho
      have hcut : (c :: (p ++ sep :: t)).drop old.length = (c :: p).drop old.length ++ sep :: t := by
        rw [← List.cons_append, ← hu, List.append_assoc, List.drop_left, List.drop_left]
      simp [ho, hcut]
    · rw [Bool.not_eq_true] at ho
      simp only [ho, Bool.false_or, Bool.false_eq_true, if_false, ih]
      split <;> simp

theorem Of.replaceFirst {p : Char → Prop} (hn : Of p new) {t : Text} (ht : Of p t) : Of p (replaceFirst old new t) := by
  induction t with
  | nil =>
    simp only [Text.replaceFirst]
    split
    · exact hn
    · exact of_nil
  | cons c t ih =>
    obtain ⟨hc, ht'⟩ := of_cons.1 ht
    simp only [Text.replaceFirst]
    split
    · exact of_append.2 ⟨hn, ht.sublist (List.drop_sublist _ _)⟩
    · exact of_cons.2 ⟨hc, ih ht'⟩

theorem splitOn_replaceFirst (hne : old ≠ []) (h : sep ∉ old) (hn : sep ∉ new) (t : Text) :
    splitOn sep (replaceFirst old new t) = replaceFirstIn old new (splitOn sep t) := by
  have hpiece : ∀ {p : Text}, sep ∉ p → sep ∉ replaceFirst old new p := by
    intro p hp
    exact of_ne_iff.1 ((of_ne_iff.2 hn).replaceFirst (of_ne_iff.2 hp))
  have hjoin : ∀ {ps : List Text}, ps ≠ [] → (∀ p ∈ ps, sep ∉ p) →
      splitOn sep (replaceFirst old new (joinWith [sep] ps)) = replaceFirstIn old new ps ∧
        splitOn sep (joinWith [sep] ps) = ps := by
    intro ps hps hm
    induction ps with
    | nil => exact absurd rfl hps
    | cons p ps ih =>
      have hp : sep ∉ p := hm p (by simp)
      cases ps with
      | nil =>
        refine ⟨?_, splitOn_of_not_mem hp⟩
        simp only [joinWith, replaceFirstIn]
        rw [splitOn_of_not_mem (hpiece hp)]
        by_cases hc : contains old p = true
        · rw [if_pos hc]
        · rw [if_neg hc, replaceFirst_eq_self (by simpa using hc)]
      | cons q ps =>
        obtain ⟨hq, hqs⟩ := ih (by simp) fun x hx => hm x (List.mem_cons_of_mem _ hx)
        rw [joinWith_cons_cons, replaceFirst_append_sep hne h, splitOn_append_sep hp, hqs, replaceFirstIn]
        refine ⟨?_, rfl⟩
        split
        · rw [splitOn_append_sep (hpiece hp), hqs]
        · rw [splitOn_append_sep hp, hq]
  have ht := (hjoin (splitOn_ne_nil sep t) fun _ hp => not_mem_of_mem_splitOn hp).1
  rwa [joinWith_splitOn] at ht

theorem replaceFirst_append {head : Text} (h : ∀ c ∈ old.head?, c ∉ head) (hne : old ≠ []) (t : Text) :
    replaceFirst old new (head ++ t) = head ++ replaceFirst old new t := by
  induction head with
  | nil => rfl
  | cons c head ih =>
    have hs : startsWith old (c :: (head ++ t)) = false :=
      startsWith_of_ne hne (fun d hd => List.ne_of_not_mem_cons (h d hd)) _
    simp [replaceFirst, hs, ih fun d hd hm => h d hd (List.mem_cons_of_mem _ hm)]

theorem replaceFirst_head (hne : old ≠ []) (t : Text) : replaceFirst old new (old ++ t) = new ++ t := by
  obtain ⟨c, r, rfl⟩ := List.exists_cons_of_ne_nil hne
  have hs : startsWith (c :: r) (c :: (r ++ t)) = true := startsWith_iff.2 (List.prefix_append _ _)
  rw [List.cons_append, replaceFirst, if_pos hs, ← List.cons_append, List.drop_left]

/-- Each piece is as it was, or has its first occurrence replaced. -/
theorem mem_replaceFirstIn {ps : List Text} {q : Text} (h : q ∈ replaceFirstIn old new ps) :
    q ∈ ps ∨ ∃ p ∈ ps, q = replaceFirst old new p := by
  induction ps with
  | nil => exact .inl h
  | cons p ps ih =>
    simp only [replaceFirstIn] at h
    split at h
    · rcases List.mem_cons.1 h with rfl | h
      · exact .inr ⟨p, by simp, rfl⟩
      · exact .inl (List.mem_cons_of_mem _ h)
    · rcases List.mem_cons.1 h with rfl | h
      · exact .inl (by simp)
      · rcases ih h with h | ⟨r, hr, rfl⟩
        · exact .inl (List.mem_cons_of_mem _ h)
        · exact .inr ⟨r, List.mem_cons_of_mem _ hr, rfl⟩

end First

end Accessors.Text
