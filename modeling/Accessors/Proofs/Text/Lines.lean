/-
  Accessors.Proofs.Text.Lines — which lists of lines are those of a text.

  A list of lines is proper if no body holds a break, each line has one break as its
  ending, the last one perhaps none, and no carriage return is parted from a line feed
  right behind it. The lines of a text are proper (`proper_splitLines`), and proper lines
  are those of the text that they make (`splitLines_flatMap`): so a text can be changed
  by changing its lines.

  Line feeds stand in endings only, so what a text says of them its lines say:
  - `contains_crlf_iff`: a carriage return with a line feed behind it is an ending;
  - `feedsReturned_of_endings`, `endings_of_feedsReturned`: every line feed has a carriage
    return before it if no ending is a line feed alone, and only then.

  A text whose breaks become line feeds can be cut before and after where the other one
  can (`exists_of_unifyBreaks_eq`), unless that parts a carriage return from a line feed.
-/
import Accessors.Proofs.Text.Replace
import Mathlib.Data.List.Chain

namespace Accessors.Text

def Unbroken (t : Text) : Prop := Of (isBreak · = false) t

theorem unbroken_of_all {t : Text} (h : (t.all fun c => !isBreak c) = true) : Unbroken t := by
  intro c hc
  simpa using List.all_eq_true.1 h c hc

theorem Unbroken.not_mem {t : Text} (h : Unbroken t) : '\n' ∉ t := by
  intro hm
  exact absurd (h '\n' hm) (by decide)

structure Line.Proper (l : Line) : Prop where
  body : Unbroken l.body
  ending : l.ending = [] ∨ l.ending = ['\r', '\n'] ∨ ∃ c, isBreak c = true ∧ l.ending = [c]
  notEmpty : l.ending = [] → l.body ≠ []

/-- `m` can stand behind `l` without their text being cut elsewhere. -/
def Line.Follows (l m : Line) : Prop := l.ending ≠ [] ∧ ¬(l.ending = ['\r'] ∧ m.body = [] ∧ m.ending = ['\n'])

structure Proper (ls : List Line) : Prop where
  each : ∀ l ∈ ls, l.Proper
  chain : ls.IsChain Line.Follows

theorem proper_append {a b : List Line} :
    Proper (a ++ b) ↔ Proper a ∧ Proper b ∧ ∀ l ∈ a.getLast?, ∀ m ∈ b.head?, l.Follows m := by
  constructor
  · intro h
    obtain ⟨he₁, he₂⟩ := List.forall_mem_append.1 h.each
    obtain ⟨hc₁, hc₂, hf⟩ := List.isChain_append.1 h.chain
    exact ⟨⟨he₁, hc₁⟩, ⟨he₂, hc₂⟩, hf⟩
  · intro h
    obtain ⟨⟨he₁, hc₁⟩, ⟨he₂, hc₂⟩, hf⟩ := h
    exact ⟨List.forall_mem_append.2 ⟨he₁, he₂⟩, List.isChain_append.2 ⟨hc₁, hc₂, hf⟩⟩

/-! ## The lines of a text are proper -/

theorem splitLines_cons (c : Char) (t : Text) : splitLines (c :: t) = consLine c (splitLines t) := rfl

theorem proper_singleton {l : Line} (h : l.Proper) : Proper [l] :=
  ⟨by simpa using h, by simp⟩

theorem proper_break {c : Char} (hc : isBreak c = true) : Line.Proper ⟨[], [c]⟩ :=
  ⟨of_nil, .inr (.inr ⟨c, hc, rfl⟩), by simp⟩

theorem proper_consLine (c : Char) {ls : List Line} (h : Proper ls) : Proper (consLine c ls) := by
  cases ls with
  | nil =>
    simp only [consLine]
    by_cases hc : isBreak c = true
    · rw [if_pos hc]
      exact proper_singleton (proper_break hc)
    · rw [if_neg hc]
      exact proper_singleton ⟨by simpa [Unbroken] using hc, .inl rfl, by simp⟩
  | cons l ls =>
    have hl := h.each l (by simp)
    have hrest : ∀ m ∈ ls, m.Proper := fun m hm => h.each m (List.mem_cons_of_mem _ hm)
    have hchain := List.isChain_cons.1 h.chain
    simp only [consLine]
    by_cases hp : c = '\r' ∧ l.body = [] ∧ l.ending = ['\n']
    · rw [if_pos hp]
      refine ⟨fun m hm => ?_, List.isChain_cons.2 ⟨fun m hm => ⟨by simp, by simp⟩, hchain.2⟩⟩
      rcases List.mem_cons.1 hm with rfl | hm
      · exact ⟨of_nil, .inr (.inl rfl), by simp⟩
      · exact hrest m hm
    · rw [if_neg hp]
      by_cases hc : isBreak c = true
      · rw [if_pos hc]
        refine ⟨fun m hm => ?_, List.isChain_cons_cons.2 ⟨⟨by simp, ?_⟩, h.chain⟩⟩
        · rcases List.mem_cons.1 hm with rfl | hm
          · exact proper_break hc
          · exact h.each m hm
        · intro hparted
          obtain ⟨he, hb, hn⟩ := hparted
          exact hp ⟨by simpa using he, hb, hn⟩
      · rw [if_neg hc]
        refine ⟨fun m hm => ?_, List.isChain_cons.2 ⟨fun m hm => ?_, hchain.2⟩⟩
        · rcases List.mem_cons.1 hm with rfl | hm
          · exact ⟨of_cons.2 ⟨by simpa using hc, hl.body⟩, hl.ending, by simp⟩
          · exact hrest m hm
        · exact hchain.1 m hm

theorem proper_splitLines (t : Text) : Proper (splitLines t) := by
  induction t with
  | nil => exact ⟨by simp [splitLines], by simp [splitLines]⟩
  | cons c t ih => exact proper_consLine c ih

/-- No break is left in the lines of a text. -/
theorem unbroken_of_mem_lines {t l : Text} (h : l ∈ lines t) : Unbroken l := by
  obtain ⟨m, hm, rfl⟩ := List.mem_map.1 h
  exact ((proper_splitLines t).each m hm).body

/-! ## Proper lines are those of their text -/

theorem consLine_of_not_break {c : Char} (hc : isBreak c = false) (l : Line) (ls : List Line) :
    consLine c (l :: ls) = ⟨c :: l.body, l.ending⟩ :: ls := by
  have hr : c ≠ '\r' := by
    intro e
    subst e
    exact absurd hc (by decide)
  simp [consLine, hr, hc]

theorem splitLines_unbroken_append {b r e : Text} {ls : List Line} (hb : Unbroken b)
    (hr : splitLines r = ⟨[], e⟩ :: ls) : splitLines (b ++ r) = ⟨b, e⟩ :: ls := by
  induction b with
  | nil => exact hr
  | cons c b ih =>
    obtain ⟨hc, hb⟩ := of_cons.1 hb
    rw [List.cons_append, splitLines_cons, ih hb, consLine_of_not_break hc]

theorem splitLines_unbroken {b : Text} (hb : Unbroken b) (hne : b ≠ []) : splitLines b = [⟨b, []⟩] := by
  induction b with
  | nil => exact absurd rfl hne
  | cons c b ih =>
    obtain ⟨hc, hb⟩ := of_cons.1 hb
    rw [splitLines_cons]
    by_cases e : b = []
    · subst e
      simp [splitLines, consLine, hc]
    · rw [ih hb e, consLine_of_not_break hc]

theorem splitLines_text {l : Line} (hl : l.Proper) {t : Text} (hf : ∀ m ∈ (splitLines t).head?, l.Follows m) :
    splitLines (l.text ++ t) = l :: splitLines t := by
  obtain ⟨b, e⟩ := l
  rw [Line.text, List.append_assoc]
  rcases hl.ending with he | he | ⟨c, hc, he⟩ <;> simp only at he <;> subst he
  · have ht : splitLines t = [] := by
      rw [← List.head?_eq_none_iff, Option.eq_none_iff_forall_ne_some]
      exact fun m hm => (hf m hm).1 rfl
    have ht' : t = [] := by
      rw [← flatMap_splitLines t, ht]
      rfl
    rw [ht, ht', List.append_nil, List.append_nil, splitLines_unbroken hl.body (hl.notEmpty rfl)]
  · refine splitLines_unbroken_append hl.body ?_
    have hn : consLine '\n' (splitLines t) = ⟨[], ['\n']⟩ :: splitLines t := by
      cases splitLines t with
      | nil => rfl
      | cons m ms => simp [consLine, show isBreak '\n' = true by decide]
    simp only [List.cons_append, List.nil_append, splitLines_cons, hn]
    simp [consLine]
  · refine splitLines_unbroken_append hl.body ?_
    rw [List.singleton_append, splitLines_cons]
    cases hs : splitLines t with
    | nil => simp [consLine, hc]
    | cons m ms =>
      have hm := (hf m (by simp [hs])).2
      have hp : ¬(c = '\r' ∧ m.body = [] ∧ m.ending = ['\n']) := by
        rintro ⟨h₁, h₂, h₃⟩
        exact hm ⟨by rw [h₁], h₂, h₃⟩
      simp only [consLine, if_neg hp, hc, if_true]

theorem splitLines_flatMap {ls : List Line} (h : Proper ls) : splitLines (ls.flatMap Line.text) = ls := by
  induction ls with
  | nil => rfl
  | cons l ls ih =>
    obtain ⟨hf, hc⟩ := List.isChain_cons.1 h.chain
    have hls := ih ⟨fun m hm => h.each m (List.mem_cons_of_mem _ hm), hc⟩
    rw [List.flatMap_cons, splitLines_text (h.each l (by simp)), hls]
    rw [hls]
    exact hf

/-! ## Line feeds -/

/-- Every line feed is the second half of a break. -/
def FeedsReturned (t : Text) : Prop := ∀ a b, t = a ++ '\n' :: b → a.getLast? = some '\r'

theorem Line.Proper.feed {l : Line} (hl : l.Proper) (hn : l.ending ≠ ['\n']) {a b : Text}
    (h : l.text = a ++ '\n' :: b) : a.getLast? = some '\r' := by
  have hbody : ∀ {x : Text}, ¬l.body = a ++ '\n' :: x := fun hx => by
    have hb := hl.body '\n' (by simp [hx])
    exact absurd hb (by decide)
  rw [Line.text] at h
  rcases List.append_eq_append_iff.1 h with ⟨x, rfl, hx⟩ | ⟨x, hx, hx'⟩
  · rcases hl.ending with he | he | ⟨c, -, he⟩
    · simp [he] at hx
    · rw [he] at hx
      cases x with
      | nil => simp at hx
      | cons y x =>
        obtain ⟨rfl, hx⟩ : '\r' = y ∧ ['\n'] = x ++ '\n' :: b := by simpa using hx
        cases x with
        | nil => simp
        | cons z x =>
          have hlen := congrArg List.length hx
          simp at hlen
    · rw [he] at hx
      cases x with
      | nil =>
        obtain ⟨rfl, -⟩ : c = '\n' ∧ [] = b := by simpa using hx
        exact absurd he hn
      | cons y x =>
        have hlen := congrArg List.length hx
        simp at hlen
  · cases x with
    | nil =>
      rw [List.append_nil] at hx
      rcases hl.ending with he | he | ⟨c, -, he⟩
      · simp [he] at hx'
      · simp [he] at hx'
      · rw [he] at hx'
        obtain ⟨rfl, -⟩ : '\n' = c ∧ b = [] := by simpa using hx'
        exact absurd he hn
    | cons y x =>
      obtain ⟨rfl, -⟩ : '\n' = y ∧ b = x ++ l.ending := by simpa using hx'
      exact absurd hx hbody

theorem feedsReturned_of_endings {ls : List Line} (h : ∀ l ∈ ls, l.Proper) (hn : ∀ l ∈ ls, l.ending ≠ ['\n']) :
    FeedsReturned (ls.flatMap Line.text) := by
  induction ls with
  | nil =>
    intro a b hab
    simp at hab
  | cons l ls ih =>
    intro a b hab
    rw [List.flatMap_cons] at hab
    rcases List.append_eq_append_iff.1 hab with ⟨x, rfl, hx⟩ | ⟨x, hx, hx'⟩
    · have hlast := ih (fun m hm => h m (List.mem_cons_of_mem _ hm)) (fun m hm => hn m (List.mem_cons_of_mem _ hm)) x b hx
      rw [List.getLast?_append, hlast, Option.some_or]
    · cases x with
      | nil =>
        have hlast := ih (fun m hm => h m (List.mem_cons_of_mem _ hm)) (fun m hm => hn m (List.mem_cons_of_mem _ hm))
          [] b (by simpa using hx'.symm)
        cases hlast
      | cons y x =>
        obtain ⟨rfl, -⟩ : '\n' = y ∧ b = x ++ ls.flatMap Line.text := by simpa using hx'
        exact (h l (by simp)).feed (hn l (by simp)) hx

theorem endings_of_feedsReturned {ls : List Line} (hp : Proper ls) (h : FeedsReturned (ls.flatMap Line.text)) :
    ∀ l ∈ ls, l.ending ≠ ['\n'] := by
  intro l hl he
  obtain ⟨x, y, rfl⟩ := List.append_of_mem hl
  have hcut : (x ++ l :: y).flatMap Line.text = (x.flatMap Line.text ++ l.body) ++ '\n' :: y.flatMap Line.text := by
    simp [Line.text, he]
  have hlast := h _ _ hcut
  rw [List.getLast?_append] at hlast
  cases hb : l.body.getLast? with
  | some c =>
    rw [hb, Option.some_or, Option.some.injEq] at hlast
    have hc := (hp.each l hl).body c (List.mem_of_getLast? hb)
    exact absurd (hlast ▸ hc) (by decide)
  | none =>
    rw [hb, Option.none_or] at hlast
    have hbody := List.getLast?_eq_none_iff.1 hb
    rcases List.eq_nil_or_concat x with rfl | ⟨x, m, rfl⟩
    · cases hlast
    have hf : m.Follows l := (proper_append.1 hp).2.2 m (by simp) l rfl
    have hm : m.ending.getLast? = some '\r' := by
      have hm' : m.ending.getLast? ≠ none := fun e => hf.1 (List.getLast?_eq_none_iff.1 e)
      obtain ⟨c, hc⟩ := Option.ne_none_iff_exists'.1 hm'
      simpa [Line.text, List.getLast?_append, hc] using hlast
    rcases (hp.each m (by simp)).ending with e | e | ⟨c, -, e⟩
    · exact hf.1 e
    · rw [e] at hm
      cases hm
    · rw [e] at hm
      obtain rfl : c = '\r' := by simpa using hm
      exact hf.2 ⟨e, hbody, he⟩

/-- The text starts with a line feed if its first line is nothing else. -/
theorem head?_splitLines_feed (t : Text) : t.head? = some '\n' ↔ (splitLines t).head? = some ⟨[], ['\n']⟩ := by
  constructor
  · intro h
    cases t with
    | nil => cases h
    | cons c t =>
      obtain rfl : c = '\n' := by simpa using h
      rw [splitLines_cons]
      cases splitLines t with
      | nil => rfl
      | cons l ls => simp [consLine, show isBreak '\n' = true by decide]
  · intro h
    cases hs : splitLines t with
    | nil => simp [hs] at h
    | cons l ls =>
      have ht := flatMap_splitLines t
      rw [hs] at h ht
      obtain rfl : l = ⟨[], ['\n']⟩ := by simpa using h
      rw [← ht]
      rfl

theorem contains_crlf_iff (t : Text) :
    contains ['\r', '\n'] t = true ↔ ∃ l ∈ splitLines t, l.ending = ['\r', '\n'] := by
  induction t with
  | nil => simp [contains, splitLines]
  | cons c t ih =>
    have hstart : startsWith ['\r', '\n'] (c :: t) = true ↔ c = '\r' ∧ (splitLines t).head? = some ⟨[], ['\n']⟩ := by
      rw [startsWith_iff, List.cons_prefix_cons, ← head?_splitLines_feed]
      cases t with
      | nil => simp
      | cons d t => simp [eq_comm]
    rw [contains, Bool.or_eq_true, hstart, ih, splitLines_cons]
    cases splitLines t with
    | nil =>
      simp only [consLine]
      split <;> simp
    | cons l ls =>
      have hl : l = ⟨[], ['\n']⟩ ↔ l.body = [] ∧ l.ending = ['\n'] := by
        cases l
        simp
      simp only [List.head?_cons, Option.some.injEq, hl, consLine]
      split
      · rename_i h
        simp [h]
      · rename_i h
        split <;> simp [h]

/-! ## Carriage returns as line feeds -/

section Unify

variable {s t u : Text}

theorem unifyBreaks_pair (t : Text) : unifyBreaks ('\r' :: '\n' :: t) = '\n' :: unifyBreaks t := rfl

theorem unifyBreaks_cons {c : Char} (h : c = '\r' → t.head? ≠ some '\n') :
    unifyBreaks (c :: t) = (if c = '\r' then '\n' else c) :: unifyBreaks t := by
  rw [unifyBreaks]
  rintro r rfl rfl
  exact h rfl rfl

/-- Two texts are unified one by one unless they meet within a pair. -/
theorem unifyBreaks_append (h : s.getLast? = some '\r' → t.head? ≠ some '\n') :
    unifyBreaks (s ++ t) = unifyBreaks s ++ unifyBreaks t := by
  induction s using unifyBreaks.induct with
  | case1 => rfl
  | case2 r ih =>
    refine congrArg _ (ih fun hlast => h ?_)
    rw [List.getLast?_cons_cons, List.getLast?_cons, hlast]
    rfl
  | case3 c r hpair ih =>
    have hr : c = '\r' → r.head? ≠ some '\n' := by
      intro hc hhead
      obtain ⟨r', rfl⟩ := List.head?_eq_some_iff.1 hhead
      exact hpair r' hc rfl
    have hrt : c = '\r' → (r ++ t).head? ≠ some '\n' := by
      intro hc
      cases r with
      | nil => exact h (congrArg some hc)
      | cons d r => exact hr hc
    rw [unifyBreaks_cons hr, List.cons_append, unifyBreaks_cons hrt, ih, List.cons_append]
    intro hlast
    refine h ?_
    rw [List.getLast?_cons, hlast]
    rfl

/-- What unifies to a part of a text is a part of what unifies to the text. -/
theorem exists_of_unifyBreaks {a b : Text} (h : unifyBreaks u = a ++ b) :
    ∃ s t, u = s ++ t ∧ unifyBreaks s = a ∧ unifyBreaks t = b := by
  induction u using unifyBreaks.induct generalizing a with
  | case1 =>
    obtain ⟨rfl, rfl⟩ := List.nil_eq_append_iff.1 h
    exact ⟨[], [], rfl, rfl, rfl⟩
  | case2 r ih =>
    cases a with
    | nil => exact ⟨[], _, rfl, rfl, h⟩
    | cons d a =>
      obtain ⟨rfl, hr⟩ := List.cons.inj h
      obtain ⟨s, t, rfl, rfl, rfl⟩ := ih hr
      exact ⟨'\r' :: '\n' :: s, t, rfl, rfl, rfl⟩
  | case3 c r hpair ih =>
    cases a with
    | nil => exact ⟨[], _, rfl, rfl, h⟩
    | cons d a =>
      rw [unifyBreaks.eq_3 _ _ hpair] at h
      obtain ⟨rfl, hr⟩ := List.cons.inj h
      obtain ⟨s, t, rfl, rfl, rfl⟩ := ih hr
      refine ⟨c :: s, t, rfl, unifyBreaks.eq_3 _ _ ?_, rfl⟩
      rintro s' hc rfl
      exact hpair _ hc rfl

/-- Texts that unify to the same can be cut alike. -/
theorem exists_of_unifyBreaks_eq {a b : Text} (hseam : a.getLast? = some '\r' → b.head? ≠ some '\n')
    (h : unifyBreaks u = unifyBreaks (a ++ b)) :
    ∃ s t, u = s ++ t ∧ unifyBreaks s = unifyBreaks a ∧ unifyBreaks t = unifyBreaks b :=
  exists_of_unifyBreaks (h.trans (unifyBreaks_append hseam))

theorem unifyBreaks_of_not_mem (h : '\r' ∉ t) : unifyBreaks t = t := by
  induction t with
  | nil => rfl
  | cons c t ih =>
    obtain ⟨hc, ht⟩ := not_or.1 (mt List.mem_cons.2 h)
    rw [unifyBreaks_cons fun he => absurd he.symm hc, if_neg (Ne.symm hc), ih ht]

theorem mem_unifyBreaks {c : Char} : c ∈ unifyBreaks t ↔ c ∈ t ∧ c ≠ '\r' ∨ c = '\n' ∧ '\r' ∈ t := by
  induction t using unifyBreaks.induct with
  | case1 => simp [unifyBreaks]
  | case2 r ih =>
    rw [unifyBreaks_pair, List.mem_cons, ih]
    by_cases hc : c = '\n'
    · simp [hc]
    · simp only [hc, List.mem_cons, false_or, false_and, or_false]
      tauto
  | case3 d r hpair ih =>
    rw [unifyBreaks.eq_3 _ _ hpair, List.mem_cons, ih]
    by_cases hd : d = '\r'
    · by_cases hc : c = '\n'
      · simp [hd, hc]
      · simp only [hd, hc, if_true, List.mem_cons, false_or, false_and, or_false]
        tauto
    · by_cases hc : c = d
      · simp [hc, hd]
      · simp [hc, hd, Ne.symm hd]

/-- No other text unifies to the same as one without these breaks. -/
theorem eq_of_unifyBreaks (hreturn : '\r' ∉ t) (hfeed : '\n' ∉ t) (h : unifyBreaks u = unifyBreaks t) : u = t := by
  rw [unifyBreaks_of_not_mem hreturn] at h
  rw [← h, unifyBreaks_of_not_mem]
  intro hu
  exact hfeed (h ▸ mem_unifyBreaks.2 (.inr ⟨rfl, hu⟩))

end Unify
end Accessors.Text
