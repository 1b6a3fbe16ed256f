/-
  Accessors.Proofs.Message — what is left out of messages.

  Markup is `$(`, a name, `)` and two blanks, where the name has one character at least
  and stays on its line (`Markup`). It is that of an icon if there are no parentheses in
  its name (`Icon`). `Without P t u` says that `u` is `t` without the first of its parts
  that are `P`: the part that starts first, and the shortest of those that start there.
  - `without_markup`: users are shown a message without its first markup;
  - `without_icon_iff`: this is the message without the first markup of an icon if and
    only if the first markup is one, as no more than two parentheses may get lost
    (`Without.parens`).

  As built, a name may go on past a parenthesis that has no two blanks behind it:
  - `error_parentheses`: two remarks in parentheses are taken for one markup, and all that
    stands between them is not shown.
-/
import Accessors.Message
import Mathlib.Data.List.Infix

namespace Accessors.Message

/-! ## Parts of a message -/

/-- A name that may stand in markup. -/
def Name (name : Text) : Prop := name ≠ [] ∧ '\n' ∉ name

/-- The blanks, two of them, behind markup. -/
def Blanks (g : Text) : Prop := ∃ a b, g = [a, b] ∧ Text.isBlank a = true ∧ Text.isBlank b = true

def Markup (m : Text) : Prop := ∃ name g, Name name ∧ Blanks g ∧ m = '$' :: '(' :: (name ++ ')' :: g)

/-- The markup of an icon: its name holds no parentheses. -/
def Icon (m : Text) : Prop :=
  ∃ name g, Name name ∧ '(' ∉ name ∧ ')' ∉ name ∧ Blanks g ∧ m = '$' :: '(' :: (name ++ ')' :: g)

/-- The part `m` of `t` is `P`; no part that is `P` starts before, and none that starts in
    the same place is shorter. -/
structure First (P : Text → Prop) (t a m b : Text) : Prop where
  cut : t = a ++ (m ++ b)
  holds : P m
  first : ∀ a' m' b', t = a' ++ (m' ++ b') → P m' →
    a.length < a'.length ∨ a.length = a'.length ∧ m.length ≤ m'.length

/-- The text without its first part that is `P`, if it has one. -/
inductive Without (P : Text → Prop) (t : Text) : Text → Prop
  | part {a m b : Text} : First P t a m b → Without P t (a ++ b)
  | whole : (∀ m, P m → ¬m <:+: t) → Without P t t

section Parts

variable {P Q : Text → Prop} {t u a m b : Text}

theorem First.unique (h : First P t a m b) {a' m' b' : Text} (h' : First P t a' m' b') : a = a' ∧ m = m' ∧ b = b' := by
  have hfirst := h.first a' m' b' h'.cut h'.holds
  have hfirst' := h'.first a m b h.cut h.holds
  have hcut := h.cut.symm.trans h'.cut
  obtain ⟨rfl, hrest⟩ := List.append_inj hcut (by omega)
  obtain ⟨rfl, rfl⟩ := List.append_inj hrest (by omega)
  exact ⟨rfl, rfl, rfl⟩

theorem First.isInfix (h : First P t a m b) : m <:+: t := ⟨a, b, by rw [h.cut, List.append_assoc]⟩

theorem Without.unique (h : Without P t u) {u' : Text} (h' : Without P t u') : u = u' := by
  cases h with
  | part h =>
    cases h' with
    | part h' =>
      obtain ⟨rfl, -, rfl⟩ := h.unique h'
      rfl
    | whole hnone => exact absurd h.isInfix (hnone _ h.holds)
  | whole hnone =>
    cases h' with
    | part h' => exact absurd h'.isInfix (hnone _ h'.holds)
    | whole _ => rfl

/-- Among more parts the first one is still the first, if it is one of the fewer. -/
theorem First.mono (h : First P t a m b) (hQ : ∀ m, Q m → P m) (hm : Q m) : First Q t a m b :=
  ⟨h.cut, hm, fun a' m' b' hcut hm' => h.first a' m' b' hcut (hQ m' hm')⟩

theorem First.cons {c : Char} (h : First P t a m b) (hnot : ∀ m b, c :: t = m ++ b → ¬P m) :
    First P (c :: t) (c :: a) m b := by
  refine ⟨by rw [h.cut]; rfl, h.holds, fun a' m' b' hcut hm' => ?_⟩
  cases a' with
  | nil => exact absurd hm' (hnot m' b' hcut)
  | cons d a' =>
    have hfirst := h.first a' m' b' (List.cons.inj hcut).2 hm'
    rw [List.length_cons, List.length_cons]
    omega

theorem Without.cons {c : Char} (h : Without P t u) (hnot : ∀ m b, c :: t = m ++ b → ¬P m) :
    Without P (c :: t) (c :: u) := by
  cases h with
  | part h => exact .part (h.cons hnot)
  | whole hnone =>
    refine .whole fun m hm hinfix => ?_
    rcases List.infix_cons_iff.1 hinfix with ⟨b, hb⟩ | hinfix
    · exact hnot m b hb.symm hm
    · exact hnone m hm hinfix

end Parts

/-! ## The first markup -/

theorem afterTwoBlanks?_eq_some {t r : Text} : afterTwoBlanks? t = some r ↔ ∃ g, Blanks g ∧ t = g ++ r := by
  unfold afterTwoBlanks?
  constructor
  · intro h
    split at h
    · rename_i a b r'
      split at h
      · rename_i hblank
        obtain ⟨ha, hb⟩ := Bool.and_eq_true_iff.1 hblank
        obtain rfl := Option.some.inj h
        exact ⟨[a, b], ⟨a, b, rfl, ha, hb⟩, rfl⟩
      · cases h
    · cases h
  · rintro ⟨g, ⟨a, b, rfl, ha, hb⟩, rfl⟩
    show (if Text.isBlank a && Text.isBlank b then some r else none) = some r
    rw [ha, hb]
    rfl

/-- The text is the rest of a name with the end of markup behind it, and then `r`. -/
def Ends (fresh : Bool) (t name r : Text) : Prop :=
  (fresh = true → name ≠ []) ∧ '\n' ∉ name ∧ ∃ g, Blanks g ∧ t = name ++ ')' :: (g ++ r)

theorem ends_nil {fresh : Bool} {c : Char} {t r : Text} :
    Ends fresh (c :: t) [] r ↔ (c = ')' ∧ fresh = false) ∧ afterTwoBlanks? t = some r := by
  rw [afterTwoBlanks?_eq_some]
  constructor
  · rintro ⟨hfresh, -, g, hg, ht⟩
    obtain ⟨rfl, rfl⟩ := List.cons.inj ht
    exact ⟨⟨rfl, Bool.eq_false_iff.2 fun h => hfresh h rfl⟩, g, hg, rfl⟩
  · rintro ⟨⟨rfl, rfl⟩, g, hg, rfl⟩
    exact ⟨fun h => absurd h Bool.false_ne_true, List.not_mem_nil, g, hg, rfl⟩

theorem ends_cons {fresh : Bool} {c d : Char} {t name r : Text} :
    Ends fresh (c :: t) (d :: name) r ↔ c = d ∧ c ≠ '\n' ∧ Ends false t name r := by
  constructor
  · rintro ⟨-, hline, g, hg, ht⟩
    obtain ⟨rfl, rfl⟩ := List.cons.inj ht
    rw [List.mem_cons, not_or] at hline
    exact ⟨rfl, Ne.symm hline.1, fun h => absurd h Bool.false_ne_true, hline.2, g, hg, rfl⟩
  · rintro ⟨rfl, hc, -, hname, g, hg, rfl⟩
    refine ⟨fun _ => List.cons_ne_nil _ _, ?_, g, hg, rfl⟩
    rw [List.mem_cons, not_or]
    exact ⟨Ne.symm hc, hname⟩

/-- A name ends at the first parenthesis with two blanks behind it. -/
theorem afterName?_some {fresh : Bool} {t r : Text} (h : afterName? fresh t = some r) :
    ∃ name, Ends fresh t name r ∧ ∀ name' r', Ends fresh t name' r' → name.length ≤ name'.length := by
  induction t generalizing fresh with
  | nil => cases h
  | cons c t ih =>
    rw [afterName?] at h
    split at h
    · rename_i r' hend
      obtain rfl := Option.some.inj h
      split at hend
      · rename_i hc
        exact ⟨[], ends_nil.2 ⟨hc, hend⟩, fun name' r' _ => Nat.zero_le _⟩
      · cases hend
    · rename_i hend
      split at h
      · cases h
      · rename_i hline
        obtain ⟨name, hname, hshortest⟩ := ih h
        refine ⟨c :: name, ends_cons.2 ⟨rfl, hline, hname⟩, fun name' r' hname' => ?_⟩
        cases name' with
        | nil =>
          obtain ⟨hc, hblanks⟩ := ends_nil.1 hname'
          rw [if_pos hc, hblanks] at hend
          cases hend
        | cons d name' => exact Nat.succ_le_succ (hshortest name' r' (ends_cons.1 hname').2.2)

theorem afterName?_none {fresh : Bool} {t : Text} (h : afterName? fresh t = none) (name r : Text) :
    ¬Ends fresh t name r := by
  induction t generalizing fresh name with
  | nil =>
    rintro ⟨-, -, g, -, ht⟩
    cases name <;> cases ht
  | cons c t ih =>
    rw [afterName?] at h
    split at h
    · cases h
    · rename_i hend
      intro hname
      cases name with
      | nil =>
        obtain ⟨hc, hblanks⟩ := ends_nil.1 hname
        rw [if_pos hc, hblanks] at hend
        cases hend
      | cons d name =>
        obtain ⟨-, hline, hname⟩ := ends_cons.1 hname
        rw [if_neg hline] at h
        exact ih h name hname

theorem Blanks.length {g : Text} (h : Blanks g) : g.length = 2 := by
  obtain ⟨a, b, rfl, -, -⟩ := h
  rfl

/-- What starts with markup, by its name. -/
theorem exists_ends {m t b : Text} (hm : Markup m) (ht : t = m ++ b) :
    ∃ name r, t = '$' :: '(' :: r ∧ Ends true r name b ∧ m.length = name.length + 5 := by
  obtain ⟨name, g, ⟨hne, hline⟩, hg, rfl⟩ := hm
  refine ⟨name, name ++ ')' :: (g ++ b), ?_, ⟨fun _ => hne, hline, g, hg, rfl⟩, ?_⟩
  · rw [ht]
    simp
  · simp [hg.length]

theorem afterMarkup?_some {t r : Text} (h : afterMarkup? t = some r) :
    ∃ m, t = m ++ r ∧ Markup m ∧ ∀ m' b', t = m' ++ b' → Markup m' → m.length ≤ m'.length := by
  unfold afterMarkup? at h
  split at h
  · rename_i u
    obtain ⟨name, ⟨hfresh, hline, g, hg, rfl⟩, hshortest⟩ := afterName?_some h
    have hmarkup : Markup ('$' :: '(' :: (name ++ ')' :: g)) := ⟨name, g, ⟨hfresh rfl, hline⟩, hg, rfl⟩
    refine ⟨_, by simp, hmarkup, fun m' b' ht hm' => ?_⟩
    obtain ⟨name', u', hu', hends', hlength'⟩ := exists_ends hm' ht
    obtain rfl := (List.cons.inj (List.cons.inj hu').2).2
    have hle := hshortest name' b' hends'
    simp only [List.length_cons, List.length_append, hg.length]
    omega
  · cases h

theorem afterMarkup?_none {t : Text} (h : afterMarkup? t = none) (m b : Text) (ht : t = m ++ b) : ¬Markup m := by
  intro hm
  obtain ⟨name, r, rfl, hends, -⟩ := exists_ends hm ht
  exact afterName?_none h name b hends

theorem not_markup_nil : ¬Markup [] := by
  rintro ⟨name, g, -, -, h⟩
  cases h

/-- Users are shown a message without its first markup. -/
theorem without_markup (t : Text) : Without Markup t (clean t) := by
  induction t with
  | nil =>
    refine .whole fun m hm hinfix => ?_
    rw [List.infix_nil.1 hinfix] at hm
    exact not_markup_nil hm
  | cons c t ih =>
    rw [clean]
    split
    · rename_i r h
      obtain ⟨m, hcut, hm, hshortest⟩ := afterMarkup?_some h
      have hfirst : First Markup (c :: t) [] m r := by
        refine ⟨hcut, hm, fun a' m' b' hcut' hm' => ?_⟩
        cases a' with
        | nil => exact .inr ⟨rfl, hshortest m' b' hcut' hm'⟩
        | cons d a' => exact .inl (Nat.succ_pos _)
      exact .part hfirst
    · rename_i h
      exact ih.cons (afterMarkup?_none h)

/-! ## The markup of icons -/

theorem Icon.markup {m : Text} (h : Icon m) : Markup m := by
  obtain ⟨name, g, hname, -, -, hg, hm⟩ := h
  exact ⟨name, g, hname, hg, hm⟩

/-- How many parentheses there are in a text. -/
def parens (t : Text) : Nat := t.count '(' + t.count ')'

theorem parens_append (t u : Text) : parens (t ++ u) = parens t + parens u := by
  simp only [parens, List.count_append]
  omega

theorem Blanks.parens {g : Text} (h : Blanks g) : parens g = 0 := by
  obtain ⟨a, b, rfl, ha, hb⟩ := h
  have hnot : ∀ {c : Char}, Text.isBlank c = true → c ≠ '(' ∧ c ≠ ')' := by
    intro c hc
    constructor
    · rintro rfl
      exact absurd hc (by decide)
    · rintro rfl
      exact absurd hc (by decide)
  obtain ⟨ha, ha'⟩ := hnot ha
  obtain ⟨hb, hb'⟩ := hnot hb
  simp [Message.parens, ha, ha', hb, hb']

/-- The parentheses of markup are its own two and those of its name. -/
theorem parens_markup (name : Text) {g : Text} (hg : Blanks g) :
    parens ('$' :: '(' :: (name ++ ')' :: g)) = parens name + 2 := by
  have hcut : '$' :: '(' :: (name ++ ')' :: g) = ['$', '('] ++ (name ++ ([')'] ++ g)) := rfl
  have hstart : parens ['$', '('] = 1 := rfl
  have hclose : parens [')'] = 1 := rfl
  rw [hcut, parens_append, parens_append, parens_append, hstart, hclose, hg.parens]
  omega

theorem parens_eq_zero_iff {t : Text} : parens t = 0 ↔ '(' ∉ t ∧ ')' ∉ t := by
  rw [parens, Nat.add_eq_zero_iff, List.count_eq_zero, List.count_eq_zero]

theorem Icon.parens {m : Text} (h : Icon m) : parens m = 2 := by
  obtain ⟨name, g, -, hopen, hclose, hg, rfl⟩ := h
  rw [parens_markup name hg, parens_eq_zero_iff.2 ⟨hopen, hclose⟩]

theorem Markup.icon_of_parens {m : Text} (h : Markup m) (hm : parens m ≤ 2) : Icon m := by
  obtain ⟨name, g, hname, hg, rfl⟩ := h
  rw [parens_markup name hg] at hm
  obtain ⟨hopen, hclose⟩ := parens_eq_zero_iff.1 (show parens name = 0 by omega)
  exact ⟨name, g, hname, hopen, hclose, hg, rfl⟩

/-- Without the markup of an icon, two parentheses less are left at most. -/
theorem Without.parens {t u : Text} (h : Without Icon t u) : parens t ≤ parens u + 2 := by
  cases h with
  | part h =>
    rw [h.cut, parens_append, parens_append, parens_append, h.holds.parens]
    omega
  | whole _ => omega

theorem without_icon_iff (t : Text) :
    Without Icon t (clean t) ↔ ∀ a m b, First Markup t a m b → Icon m := by
  have hclean := without_markup t
  constructor
  · intro h a m b hfirst
    have hparens := h.parens
    rw [hclean.unique (.part hfirst), hfirst.cut, parens_append, parens_append, parens_append] at hparens
    exact hfirst.holds.icon_of_parens (by omega)
  · intro h
    generalize clean t = u at hclean
    cases hclean with
    | part hfirst => exact .part (hfirst.mono (fun m => Icon.markup) (h _ _ _ hfirst))
    | whole hnone => exact .whole fun m hm => hnone m hm.markup

/-- For every message: behind the name of the tool stands the message without its first
    markup, or the whole message if it has none. It is the message without the first
    markup of an icon if and only if the first markup, if there is any, has no parentheses
    in its name. -/
theorem shown_without (t : Text) : ∃ u,
    error t = "phpGettersSetters error: ".toList ++ u ∧ info t = "phpGettersSetters info: ".toList ++ u ∧
    Without Markup t u ∧ (Without Icon t u ↔ ∀ a m b, First Markup t a m b → Icon m) :=
  ⟨clean t, rfl, rfl, without_markup t, without_icon_iff t⟩

/-- Two remarks in parentheses, the first behind a dollar sign and the second before two
    blanks. What stands between them gets lost, and it is no icon's markup. -/
theorem error_parentheses : error "Use $(x) or (y)  now".toList = "phpGettersSetters error: Use now".toList ∧
    ∀ u, "phpGettersSetters error: Use now".toList = "phpGettersSetters error: ".toList ++ u →
      ¬Without Icon "Use $(x) or (y)  now".toList u := by
  refine ⟨by decide, fun u hu h => ?_⟩
  have hrest : u = "Use now".toList := List.append_cancel_left (hu.symm.trans (by decide))
  have hparens := h.parens
  rw [hrest] at hparens
  exact absurd hparens (by decide)

end Accessors.Message
