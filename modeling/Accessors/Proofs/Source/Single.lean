/-
  Accessors.Proofs.Source.Single — single literals, and where they end.

  A string or an array has something that opens it, a character that closes it, and in
  between what can stand there (`Opens`): a string holds no quote of its own but behind a
  backslash (`Grammar.Quoted`), and between the brackets of an array the same brackets
  stand in pairs, strings apart (`Nested`). A text is opened in one way (`Opens.unique`),
  and what it opens ends at the first character that closes it (`Opens.unique_end`). A
  value is one literal if that is its last (`Single`).

  What infers the type of a value looks at both of its ends only (`Fenced`):
  - `isString_iff`, `isArray_iff`: what passes for a string and for an array;
  - `single_iff`: which of these are one.
-/
import Accessors.Proofs.Source.Grammar
import Accessors.Proofs.Text.Trim
import Accessors.Source.Literal

namespace Accessors.Literal

open Grammar (IsQuote Quoted)
open Text (IsLetter)

/-! ## Single literals -/

/-- What can stand between the brackets `o` and `c`, strings apart the same in pairs. -/
inductive Nested (o c : Char) : Text → Prop
  | nil : Nested o c []
  | char {d : Char} {t : Text} : d ≠ o → d ≠ c → ¬IsQuote d → Nested o c t → Nested o c (d :: t)
  | string {q : Char} {b t : Text} : IsQuote q → Quoted q b → Nested o c t → Nested o c (q :: b ++ q :: t)
  | group {b t : Text} : Nested o c b → Nested o c t → Nested o c (o :: b ++ c :: t)

/-- The start of a literal, the character that closes it, and what can stand between. -/
inductive Opens : Literal → Text → Char → (Text → Prop) → Prop
  | quote {q : Char} : IsQuote q → Opens .string [q] q (Quoted q)
  | bracket : Opens .array ['['] ']' (Nested '[' ']')
  | call {w g : Text} : w.map Char.toLower = "array".toList → (∀ c ∈ g, Text.isBlank c = true) →
      Opens .array (w ++ g ++ ['(']) ')' (Nested '(' ')')

/-- The text starts and ends as the literal does. -/
def Fenced (l : Literal) (v : Text) : Prop :=
  ∃ head close Body body, Opens l head close Body ∧ v = head ++ body ++ [close]

/-- What opens the literal is closed by the last character, and not before. -/
def Single (l : Literal) (v : Text) : Prop :=
  ∃ head close Body body, Opens l head close Body ∧ Body body ∧ v = head ++ body ++ [close]

/-! ## The word of a call -/

theorem not_letter_of_quote {c : Char} (h : IsQuote c) : ¬IsLetter c := by
  rcases h with rfl | rfl <;> decide

theorem letters_of_array {w : Text} (hw : w.map Char.toLower = "array".toList) : ∀ c ∈ w, IsLetter c := by
  have hplain : ∀ d ∈ "array".toList, Text.isPlainLetter d = true := List.all_eq_true.1 (by decide)
  intro c hc
  exact Keyword.isLetter_of_toLower (hplain _ (hw ▸ List.mem_map_of_mem hc))

theorem call_ne {w g r u : Text} {c : Char} (hw : w.map Char.toLower = "array".toList) (hc : ¬IsLetter c) :
    w ++ g ++ ['('] ++ r ≠ c :: u := by
  cases w with
  | nil => cases hw
  | cons d w =>
    intro he
    obtain rfl := (List.cons.inj he).1
    exact hc (letters_of_array hw d List.mem_cons_self)

/-! ## Where a literal ends -/

section Ends

variable {q o c : Char} {b b' r r' : Text}

theorem quoted_unique (hq : q ≠ '\x5c') (hb : Quoted q b) (hb' : Quoted q b') (h : b ++ q :: r = b' ++ q :: r') :
    b = b' ∧ r = r' := by
  induction hb generalizing b' with
  | nil =>
    cases hb' with
    | nil => exact ⟨rfl, (List.cons.inj h).2⟩
    | char hne => exact absurd (List.cons.inj h).1.symm hne
    | escape => exact absurd (List.cons.inj h).1 hq
  | char hne hescape _ ih =>
    cases hb' with
    | nil => exact absurd (List.cons.inj h).1 hne
    | char _ _ hb' =>
      obtain ⟨rfl, hrest⟩ := List.cons.inj h
      obtain ⟨rfl, rfl⟩ := ih hb' hrest
      exact ⟨rfl, rfl⟩
    | escape => exact absurd (List.cons.inj h).1 hescape
  | escape _ ih =>
    cases hb' with
    | nil => exact absurd (List.cons.inj h).1.symm hq
    | char _ hescape => exact absurd (List.cons.inj h).1.symm hescape
    | escape hb' =>
      simp only [List.cons_append, List.cons.injEq, true_and] at h
      obtain ⟨rfl, hrest⟩ := h
      obtain ⟨rfl, rfl⟩ := ih hb' hrest
      exact ⟨rfl, rfl⟩

theorem nested_unique (hoc : o ≠ c) (ho : ¬IsQuote o) (hc : ¬IsQuote c) (hb : Nested o c b) (hb' : Nested o c b')
    (h : b ++ c :: r = b' ++ c :: r') : b = b' ∧ r = r' := by
  induction hb generalizing b' r r' with
  | nil =>
    cases hb' with
    | nil => exact ⟨rfl, (List.cons.inj h).2⟩
    | char _ hne => exact absurd (List.cons.inj h).1.symm hne
    | string hq => exact absurd ((List.cons.inj h).1 ▸ hq) hc
    | group => exact absurd (List.cons.inj h).1.symm hoc
  | char hdo hdc hd _ ih =>
    cases hb' with
    | nil => exact absurd (List.cons.inj h).1 hdc
    | char _ _ _ hb' =>
      obtain ⟨rfl, hrest⟩ := List.cons.inj h
      obtain ⟨rfl, rfl⟩ := ih hb' hrest
      exact ⟨rfl, rfl⟩
    | string hq => exact absurd ((List.cons.inj h).1 ▸ hq) hd
    | group => exact absurd (List.cons.inj h).1 hdo
  | @string q s t hq hs _ ih =>
    cases hb' with
    | nil => exact absurd ((List.cons.inj h).1 ▸ hq) hc
    | char _ _ hd => exact absurd ((List.cons.inj h).1 ▸ hq) hd
    | @string q' s' t' hq' hs' ht' =>
      simp only [List.cons_append, List.append_assoc, List.cons.injEq] at h
      obtain ⟨rfl, hrest⟩ := h
      obtain ⟨rfl, hbehind⟩ := quoted_unique hq.ne_backslash hs hs' hrest
      obtain ⟨rfl, rfl⟩ := ih ht' hbehind
      exact ⟨rfl, rfl⟩
    | group => exact absurd ((List.cons.inj h).1 ▸ hq) ho
  | @group s t _ _ ihs iht =>
    cases hb' with
    | nil => exact absurd (List.cons.inj h).1 hoc
    | char hdo => exact absurd (List.cons.inj h).1.symm hdo
    | string hq => exact absurd ((List.cons.inj h).1 ▸ hq) ho
    | @group s' t' hs' ht' =>
      simp only [List.cons_append, List.append_assoc, List.cons.injEq, true_and] at h
      obtain ⟨rfl, hrest⟩ := ihs hs' h
      obtain ⟨rfl, rfl⟩ := iht ht' hrest
      exact ⟨rfl, rfl⟩

end Ends

section Opens

variable {l : Literal} {head : Text} {close : Char} {Body : Text → Prop}

/-- A literal ends once: at the first character that closes it. -/
theorem Opens.unique_end (h : Opens l head close Body) {b b' r r' : Text} (hb : Body b) (hb' : Body b')
    (he : b ++ close :: r = b' ++ close :: r') : b = b' ∧ r = r' := by
  cases h with
  | quote hq => exact quoted_unique hq.ne_backslash hb hb' he
  | bracket => exact nested_unique (by decide) (by decide) (by decide) hb hb' he
  | call => exact nested_unique (by decide) (by decide) (by decide) hb hb' he

/-- Blanks before a character that is none are told from it. -/
theorem blanks_unique {g g' : Text} {c : Char} (hc : Text.isBlank c = false) (hg : ∀ d ∈ g, Text.isBlank d = true)
    (hg' : ∀ d ∈ g', Text.isBlank d = true) {r r' : Text} (he : g ++ c :: r = g' ++ c :: r') : g = g' ∧ r = r' := by
  have hindent : ∀ {x u : Text}, (∀ d ∈ x, Text.isBlank d = true) → Text.indentation (x ++ c :: u) = x :=
    fun hx => Text.indentation_append_of_flush hx (Text.flush_cons.2 hc)
  have hblanks : g = g' := by rw [← hindent hg, he, hindent hg']
  subst hblanks
  exact ⟨rfl, (List.cons.inj (List.append_cancel_left he)).2⟩

/-- A text is opened as one literal at most, and in one way. -/
theorem Opens.unique {l' : Literal} {head' : Text} {close' : Char} {Body' : Text → Prop} (h : Opens l head close Body)
    (h' : Opens l' head' close' Body') {r r' : Text} (he : head ++ r = head' ++ r') :
    l = l' ∧ head = head' ∧ close = close' ∧ Body = Body' ∧ r = r' := by
  cases h with
  | quote hq =>
    cases h' with
    | quote hq' =>
      obtain ⟨rfl, rfl⟩ := List.cons.inj he
      exact ⟨rfl, rfl, rfl, rfl, rfl⟩
    | bracket => exact absurd ((List.cons.inj he).1 ▸ hq) (by decide)
    | call hw _ => exact absurd he.symm (call_ne hw (not_letter_of_quote hq))
  | bracket =>
    cases h' with
    | quote hq' => exact absurd ((List.cons.inj he).1 ▸ hq') (by decide)
    | bracket => exact ⟨rfl, rfl, rfl, rfl, (List.cons.inj he).2⟩
    | call hw _ => exact absurd he.symm (call_ne hw (by decide))
  | @call w g hw hg =>
    cases h' with
    | quote hq' => exact absurd he (call_ne hw (not_letter_of_quote hq'))
    | bracket => exact absurd he (call_ne hw (by decide))
    | @call w' g' hw' hg' =>
      have hlength : w.length = w'.length := by
        rw [← List.length_map (f := Char.toLower), hw, ← hw', List.length_map]
      simp only [List.append_assoc, List.singleton_append] at he
      obtain ⟨rfl, hrest⟩ := List.append_inj he hlength
      obtain ⟨rfl, rfl⟩ := blanks_unique (by decide) hg hg' hrest
      exact ⟨rfl, rfl, rfl, rfl, rfl⟩

end Opens

/-- A value has the ends of one literal at most. -/
theorem Fenced.unique {l l' : Literal} {v : Text} (h : Fenced l v) (h' : Fenced l' v) : l = l' := by
  obtain ⟨head, close, Body, body, hopens, rfl⟩ := h
  obtain ⟨head', close', Body', body', hopens', he⟩ := h'
  rw [List.append_assoc, List.append_assoc] at he
  exact (hopens.unique hopens' he).1

/-! ## Both ends of a value -/

theorem isQuote_iff {c : Char} : isQuote c = true ↔ IsQuote c := by
  rw [isQuote, Bool.or_eq_true, decide_eq_true_eq, decide_eq_true_eq]
  exact Iff.rfl

theorem isString_iff (v : Text) : isString v = true ↔ Fenced .string v := by
  constructor
  · intro h
    unfold isString at h
    split at h
    · rename_i q c r
      rw [Bool.and_eq_true, isQuote_iff, beq_iff_eq, List.getLast?_eq_some_iff] at h
      obtain ⟨hq, body, hbody⟩ := h
      exact ⟨[q], q, _, body, .quote hq, congrArg (q :: ·) hbody⟩
    · cases h
  · rintro ⟨head, close, Body, body, hopens, rfl⟩
    cases hopens with
    | @quote q hq =>
      have hquote := isQuote_iff.2 hq
      cases body with
      | nil => simp [isString, hquote]
      | cons c r => simp [isString, hquote, List.getLast?_cons]

theorem isArrayCall_iff (v : Text) : isArrayCall v = true ↔ ∃ w g body, w.map Char.toLower = "array".toList ∧
    (∀ c ∈ g, Text.isBlank c = true) ∧ v = w ++ g ++ ['('] ++ body ++ [')'] := by
  unfold isArrayCall
  rw [Bool.and_eq_true, beq_iff_eq]
  constructor
  · rintro ⟨hw, h⟩
    split at h
    · rename_i c r hrest
      rw [beq_iff_eq, List.getLast?_eq_some_iff] at h
      obtain ⟨body, hbody⟩ := h
      refine ⟨v.take 5, Text.indentation (v.drop 5), body, hw, Text.indentation_blank _, ?_⟩
      have hcut : Text.indentation (v.drop 5) ++ Text.trimStart (v.drop 5) = v.drop 5 :=
        List.takeWhile_append_dropWhile
      rw [hrest, hbody] at hcut
      have hwhole := List.take_append_drop 5 v
      rw [← hcut] at hwhole
      simpa only [List.append_assoc, List.cons_append, List.nil_append] using hwhole.symm
    · cases h
  · rintro ⟨w, g, body, hw, hg, rfl⟩
    have hlength : w.length = 5 := by rw [← List.length_map (f := Char.toLower), hw]; rfl
    have hwhole : w ++ g ++ ['('] ++ body ++ [')'] = w ++ (g ++ ('(' :: (body ++ [')']))) := by
      simp only [List.append_assoc, List.cons_append, List.nil_append]
    have hstart : Text.trimStart (g ++ ('(' :: (body ++ [')']))) = '(' :: (body ++ [')']) := by
      rw [Text.trimStart_append hg]
      exact Text.Flush.trimStart (Text.flush_cons.2 (by decide))
    rw [hwhole, List.take_left' hlength, List.drop_left' hlength, hstart]
    refine ⟨hw, ?_⟩
    cases body with
    | nil => rfl
    | cons c r => simp [List.getLast?_cons]

theorem isArray_iff (v : Text) : isBracketed v = true ∨ isArrayCall v = true ↔ Fenced .array v := by
  rw [isArrayCall_iff, isBracketed, Bool.and_eq_true, beq_iff_eq, beq_iff_eq]
  constructor
  · rintro (⟨hfirst, hlast⟩ | ⟨w, g, body, hw, hg, hv⟩)
    · cases v with
      | nil => cases hfirst
      | cons c r =>
        obtain rfl := Option.some.inj hfirst
        cases r with
        | nil => exact absurd (Option.some.inj hlast) (by decide)
        | cons d r =>
          rw [List.getLast?_cons_cons, List.getLast?_eq_some_iff] at hlast
          obtain ⟨body, hbody⟩ := hlast
          exact ⟨['['], ']', _, body, .bracket, congrArg ('[' :: ·) hbody⟩
    · exact ⟨_, ')', _, body, .call hw hg, hv⟩
  · rintro ⟨head, close, Body, body, hopens, rfl⟩
    cases hopens with
    | bracket => exact .inl ⟨rfl, List.getLast?_concat⟩
    | @call w g hw hg => exact .inr ⟨w, g, body, hw, hg, rfl⟩

/-- A value with the ends of a literal is one if and only if what is between can stand there. -/
theorem single_iff {l : Literal} {head : Text} {close : Char} {Body : Text → Prop} (h : Opens l head close Body)
    (body : Text) : Single l (head ++ body ++ [close]) ↔ Body body := by
  constructor
  · rintro ⟨head', close', Body', body', hopens, hbody, he⟩
    rw [List.append_assoc, List.append_assoc] at he
    obtain ⟨-, rfl, rfl, rfl, hrest⟩ := h.unique hopens he
    rwa [List.append_cancel_right hrest]
  · intro hbody
    exact ⟨head, close, Body, body, h, hbody, rfl⟩

end Accessors.Literal
