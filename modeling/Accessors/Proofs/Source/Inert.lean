/-
  Accessors.Proofs.Source.Inert — lines that declare nothing.

  A line is inert if it is no declaration, whatever stands above it. That is so of a line
  whose text starts with
  - a slash, an asterisk or a brace (`inert_of_head`): no declaration does;
  - a word that is no hint, or a modifier and then such a word (`inert_statement`,
    `inert_modifier_statement`);
  - a variable with an arrow behind it (`scan?_member`): no default value follows.

  The documentation of a declaration is looked for upward, and never beyond a line that
  starts with a closing brace (`read_above_brace`). What stands above such a line can be
  changed without a declaration below it being read differently (`ofLine?_above_brace`).
-/
import Accessors.Proofs.Source.Grammar
import Accessors.Proofs.Text.Trim
import Accessors.Source.Property

namespace Accessors

open Text (Solid Flush)

/-- No declaration, whatever stands above it. -/
def Inert (line : Text) : Prop := ∀ above, Property.ofLine? above line = none

theorem inert_iff (line : Text) : Inert line ↔ Declaration.scan? (Text.trim line) = none := by
  have hline : ∀ above, Property.ofLine? above line = none ↔ Declaration.scan? (Text.trim line) = none := by
    intro above
    unfold Property.ofLine?
    rw [Option.map_eq_none_iff, Text.trim_dropBreak]
  constructor
  · intro h
    exact (hline []).1 (h [])
  · intro h above
    exact (hline above).2 h

/-! ## How a declaration starts -/

/-- A first character of a declaration. -/
def StartsDeclaration (c : Char) : Prop := isNameStart c = true ∨ c = '?' ∨ c = '\x5c' ∨ c = '$'

theorem startsDeclaration_modifier {w : Text} (h : Keyword.AnyCase Keyword.modifiers w) :
    ∀ c ∈ w.head?, StartsDeclaration c := by
  intro c hc
  have hn := Keyword.isLetter_of_toLower (h.modifier_letter c (List.mem_of_mem_head? hc))
  unfold Text.IsLetter at hn
  exact .inl (Grammar.isNameStart_iff.2 (by omega))

theorem startsDeclaration_typeName {t : Text} (h : Grammar.TypeName t) : ∀ c ∈ t.head?, StartsDeclaration c := by
  obtain ⟨nullable, rooted, hn, -⟩ := h
  intro d hd
  cases nullable
  · cases rooted
    · obtain rfl := by simpa using hd
      exact .inl hn
    · obtain rfl := by simpa using hd
      exact .inr (.inr (.inl rfl))
  · obtain rfl := by simpa using hd
    exact .inr (.inl rfl)

theorem startsDeclaration_typeUnion {t : Text} (h : Grammar.TypeUnion t) : ∀ c ∈ t.head?, StartsDeclaration c := by
  cases h with
  | name h => exact startsDeclaration_typeName h
  | bar h _ =>
    intro c hc
    rw [List.head?_append_of_ne_nil _ h.chars.1] at hc
    exact startsDeclaration_typeName h c hc

theorem head?_of_declares {t : Text} {d : Declaration} (h : Grammar.Declares t d) :
    ∃ c ∈ t.head?, StartsDeclaration c := by
  have hfirst : ∀ {u v : Text}, u ≠ [] → (∀ c ∈ u.head?, StartsDeclaration c) →
      ∃ c ∈ (u ++ v).head?, StartsDeclaration c := by
    intro u v hu hs
    obtain ⟨c, r, rfl⟩ := List.exists_cons_of_ne_nil hu
    exact ⟨c, rfl, hs c rfl⟩
  obtain ⟨hm, hh, hv⟩ := h
  rename_i m h v n hint default
  rw [List.append_assoc]
  cases hm with
  | cons hw _ _ =>
    rw [List.append_assoc, List.append_assoc]
    exact hfirst hw.modifier_ne_nil (startsDeclaration_modifier hw)
  | nil =>
    rw [List.nil_append]
    cases hh with
    | some hh _ =>
      rw [List.append_assoc]
      exact hfirst hh.ne_nil (startsDeclaration_typeUnion hh.union)
    | none => exact ⟨'$', hv.head?, .inr (.inr (.inr rfl))⟩

theorem scan?_of_head {t : Text} (h : ∀ c ∈ t.head?, ¬StartsDeclaration c) : Declaration.scan? t = none := by
  rw [Option.eq_none_iff_forall_ne_some]
  intro d hd
  obtain ⟨c, hc, hs⟩ := head?_of_declares (Grammar.declares_of_scan? hd)
  exact h c hc hs

/-- A line whose first character other than blanks does not start a declaration. -/
theorem inert_of_head {g t : Text} (hg : ∀ c ∈ g, Text.isBlank c = true)
    (ht : ∀ c ∈ t.head?, Text.isBlank c = false ∧ ¬StartsDeclaration c) : Inert (g ++ t) := by
  have hflush : Flush t := fun c hc => (ht c hc).1
  rw [inert_iff, Text.trim_append_of_flush hg hflush]
  apply scan?_of_head
  cases t with
  | nil =>
    intro c hc
    cases hc
  | cons c r =>
    obtain ⟨hb, hs⟩ := ht c rfl
    rw [Text.trimEnd_cons hb]
    intro d hd
    obtain rfl : c = d := by simpa using hd
    exact hs

/-! ## Statements -/

/-- A word that is no hint, at the start of a text, with a blank or nothing behind it. -/
theorem scan?_statement {w x : Text} (hw : Solid w) (hne : w ≠ []) (hm : Keyword.isModifier w = false)
    (hd : w.head? ≠ some '$') (hh : isHint w = false) (hx : ∀ c ∈ x.head?, Text.isBlank c = true) :
    Declaration.scan? (w ++ x) = none := by
  have hcut : w ++ x = w ++ x.takeWhile Text.isBlank ++ x.dropWhile Text.isBlank := by
    rw [List.append_assoc, List.takeWhile_append_dropWhile]
  have hgap : x.takeWhile Text.isBlank = [] → x.dropWhile Text.isBlank = [] := by
    intro hg
    cases x with
    | nil => rfl
    | cons c r => simp [hx c rfl] at hg
  have hhead : (w ++ x).head? ≠ some '$' := by
    rw [List.head?_append_of_ne_nil _ hne]
    exact hd
  rw [hcut, Grammar.scan?_word hw (fun c hc => List.mem_takeWhile_imp hc) (Text.flush_dropWhile x) hgap (by simp [hne]),
    ← hcut, hm, if_neg (by simp), if_neg hhead, hh, if_neg (by simp)]

/-- A variable with something behind it that is neither a comma nor an assignment. -/
theorem scan?_member {n : Name} (hn : Grammar.IsName n) {c : Char} (hc : isNameChar c = false)
    (hb : Text.isBlank c = false) (hq : ¬Grammar.IsQuote c) {r : Text} (he : ¬Grammar.Ends (c :: r))
    (hv : c ≠ ',' ∧ c ≠ '=') : Declaration.scan? ('$' :: n.text ++ c :: r) = none := by
  have hends : Grammar.EndsName (c :: r) := by
    intro d hd
    obtain rfl : c = d := by simpa using hd
    exact hc
  have htake : Name.take? (n.text ++ c :: r) = some (n, c :: r) := Grammar.Name.take?_iff.2 ⟨rfl, hn, hends⟩
  have hstatement : statement (c :: r) = c :: Text.trimEnd (beforeEnd .outside r) := by
    rw [statement, Grammar.beforeEnd_char hq he, Text.trimEnd_cons hb]
  have hdefault : ∀ s : Text, Declaration.default? (c :: s) = none := by
    intro s
    rw [Option.eq_none_iff_forall_ne_some]
    intro d h
    cases Grammar.default?_iff.1 h with
    | comma => exact hv.1 rfl
    | assigned => exact hv.2 rfl
  rw [Grammar.scan?_variable (by rfl), List.cons_append]
  unfold Declaration.ofVariable?
  simp only [htake, Text.Flush.trimStart (Text.flush_cons.2 hb), hstatement, hdefault, Option.map_none]

section Behind

variable {g w r : Text}

/-- What trimming leaves of a blank and what is behind it starts with the blank. -/
theorem head?_trimEnd_blank (r : Text) : ∀ c ∈ (Text.trimEnd (' ' :: r)).head?, Text.isBlank c = true := by
  intro c hc
  obtain ⟨t, ht⟩ := List.head?_eq_some_iff.1 hc
  have hpre := Text.trimEnd_prefix (' ' :: r)
  rw [ht] at hpre
  obtain rfl := (List.cons_prefix_cons.1 hpre).1
  decide

theorem inert_statement (hg : ∀ c ∈ g, Text.isBlank c = true) (hw : Solid w) (hne : w ≠ [])
    (hm : Keyword.isModifier w = false) (hd : w.head? ≠ some '$') (hh : isHint w = false) :
    Inert (g ++ (w ++ ' ' :: r)) := by
  rw [inert_iff, Text.trim_word hg hw hne]
  exact scan?_statement hw hne hm hd hh (head?_trimEnd_blank r)

theorem inert_modifier_statement {m : Text} (hg : ∀ c ∈ g, Text.isBlank c = true)
    (hm : Keyword.AnyCase Keyword.modifiers m) (hw : Solid w) (hne : w ≠ []) (hwm : Keyword.isModifier w = false)
    (hd : w.head? ≠ some '$') (hh : isHint w = false) : Inert (g ++ (m ++ (' ' :: w ++ ' ' :: r))) := by
  have hlast : ∀ c ∈ (' ' :: w).getLast?, Text.isBlank c = false := by
    intro c hc
    rw [List.getLast?_cons_of_ne_nil hne] at hc
    exact hw c (List.mem_of_getLast? hc)
  have hgap : Text.Gap [' '] := ⟨by simp, List.all_eq_true.1 (by decide)⟩
  have hcut : m ++ (' ' :: w ++ Text.trimEnd (' ' :: r)) = m ++ [' '] ++ (w ++ Text.trimEnd (' ' :: r)) := by
    simp
  rw [inert_iff, Text.trim_word hg hm.modifier_solid hm.modifier_ne_nil, Text.trimEnd_append hlast, hcut,
    Grammar.scan?_modifier hm hgap (hw.flush_append hne)]
  exact scan?_statement hw hne hwm hd hh (head?_trimEnd_blank r)

end Behind

/-! ## Closing braces -/

/-- The line starts with a closing brace. -/
def StartsWithBrace (line : Text) : Prop := (Text.trimStart line).head? = some '\x7d'

theorem StartsWithBrace.trim {line : Text} (h : StartsWithBrace line) : ∃ r, Text.trim line = '\x7d' :: r := by
  unfold StartsWithBrace at h
  cases hl : Text.trimStart line with
  | nil => simp [hl] at h
  | cons c r =>
    obtain rfl : c = '\x7d' := by simpa [hl] using h
    exact ⟨Text.trimEnd r, by rw [Text.trim, hl, Text.trimEnd_cons (by decide)]⟩

theorem StartsWithBrace.inert {line : Text} (h : StartsWithBrace line) : Inert line := by
  obtain ⟨r, hr⟩ := h.trim
  rw [inert_iff, hr]
  apply scan?_of_head
  intro c hc
  obtain rfl : '\x7d' = c := by simpa using hc
  unfold StartsDeclaration
  decide

/-- A comment that ends below a closing brace starts below it. -/
theorem commentFrom?_above_brace {b : Text} (hb : StartsWithBrace b) (R X Y done : List Text) :
    DocBlock.commentFrom? done (R ++ b :: X) = DocBlock.commentFrom? done (R ++ b :: Y) := by
  obtain ⟨r, hr⟩ := hb.trim
  induction R generalizing done with
  | nil =>
    have hopen : Text.startsWith DocBlock.opener ('\x7d' :: r) = false := rfl
    have hstar : Text.startsWith ['*'] ('\x7d' :: r) = false := rfl
    simp only [List.nil_append, DocBlock.commentFrom?, hr, hopen, hstar, Bool.false_eq_true, if_false]
  | cons l R ih => simp only [List.cons_append, DocBlock.commentFrom?, ih]

theorem read_above_brace {b : Text} (hb : StartsWithBrace b) (R X Y : List Text) :
    DocBlock.read (R ++ b :: X) = DocBlock.read (R ++ b :: Y) := by
  have hcomment : DocBlock.comment? (R ++ b :: X) = DocBlock.comment? (R ++ b :: Y) := by
    have hfrom := commentFrom?_above_brace hb R X Y []
    cases R with
    | nil => simp only [List.nil_append, DocBlock.comment?] at hfrom ⊢; rw [hfrom]
    | cons l R => simp only [List.cons_append, DocBlock.comment?] at hfrom ⊢; rw [hfrom]
  unfold DocBlock.read
  rw [hcomment]

theorem ofLine?_above_brace {b : Text} (hb : StartsWithBrace b) (R X Y : List Text) (line : Text) :
    Property.ofLine? (R ++ b :: X) line = Property.ofLine? (R ++ b :: Y) line := by
  unfold Property.ofLine?
  rw [read_above_brace hb R X Y]

end Accessors
