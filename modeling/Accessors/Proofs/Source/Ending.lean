/-
  Accessors.Proofs.Source.Ending — what follows the end of a statement.

  A semicolon ends a statement unless it stands in a string. Behind the name of a property
  a line has strings, each with its end (`Whole`), or else the end of the statement stands
  there already, outside of strings (`Terminated`): either way the text is `Settled`, and
  a semicolon behind it is no part of a string that it left open.
  - `beforeEnd_append`: a scan goes on from a text without open strings as it would from
    any other such text, so that what two such texts say is the same if what follows is;
  - `beforeEnd_semicolon`: behind a settled text a semicolon, and whatever follows it, is
    not part of the statement;
  - `declaredFrom?_semicolon`: so the line declares the same with them, its blanks at the
    end aside. Lines are asked for by numbers from either end of the document.
-/
import Accessors.Proofs.Source.Provenance

namespace Accessors

namespace Grammar

open Text (Flush)

/-! ## Strings and their ends -/

/-- Every string in the text has its end. -/
inductive Whole : Text → Prop
  | nil : Whole []
  | char {c : Char} {t : Text} : ¬IsQuote c → Whole t → Whole (c :: t)
  | string {q : Char} {b t : Text} : IsQuote q → Quoted q b → Whole t → Whole (q :: b ++ q :: t)

/-- The text holds the end of a statement, and no string is open there. -/
def Terminated (t : Text) : Prop := ∃ p r, t = p ++ r ∧ Whole p ∧ Ends r

def Settled (t : Text) : Prop := Whole t ∨ Terminated t

theorem Ends.append {r : Text} (h : Ends r) (s : Text) : Ends (r ++ s) := by
  cases h with
  | semicolon r => exact .semicolon (r ++ s)
  | hash r => exact .hash (r ++ s)
  | slashes r => exact .slashes (r ++ s)
  | comment r => exact .comment (r ++ s)

/-- The first two characters tell whether a statement ends. -/
theorem ends_cons_cons {c d : Char} {s t : Text} : Ends (c :: d :: s) ↔ Ends (c :: d :: t) := by
  rw [ends_iff, ends_iff]
  simp only [endsStatement, List.head?_cons, ne_eq, reduceCtorEq, not_false_eq_true]

theorem ends_append_iff {c : Char} {a b p : Text} (h : Ends (c :: a) ↔ Ends (c :: b)) :
    Ends (c :: (p ++ a)) ↔ Ends (c :: (p ++ b)) := by
  cases p with
  | nil => exact h
  | cons d p => exact ends_cons_cons

/-- A semicolon behind a character makes no end of a statement of the two. -/
theorem ends_semicolon_iff {c : Char} {s : Text} : Ends (c :: ';' :: s) ↔ Ends [c] := by
  rw [ends_iff, ends_iff]
  simp [endsStatement]

/-- Behind a text without an open string the scan is as at its start, but for a slash at
    the end of that text, which may begin a comment. -/
theorem beforeEnd_append {p a b : Text} (hp : Whole p) (hseam : ∀ c, Ends (c :: a) ↔ Ends (c :: b))
    (h : beforeEnd .outside a = beforeEnd .outside b) :
    beforeEnd .outside (p ++ a) = beforeEnd .outside (p ++ b) := by
  induction hp with
  | nil => exact h
  | @char c t hc _ ih =>
    have hends : Ends (c :: (t ++ a)) ↔ Ends (c :: (t ++ b)) := ends_append_iff (hseam c)
    rw [List.cons_append, List.cons_append]
    by_cases he : Ends (c :: (t ++ a))
    · rw [beforeEnd_ends he, beforeEnd_ends (hends.1 he)]
    · rw [beforeEnd_char hc he, beforeEnd_char hc fun hb => he (hends.2 hb), ih]
  | @string q b' t hq hb _ ih =>
    have hscan : ∀ u, beforeEnd .outside (q :: b' ++ q :: t ++ u) = q :: (b' ++ q :: beforeEnd .outside (t ++ u)) := by
      intro u
      rw [List.append_assoc, List.cons_append, List.cons_append, beforeEnd_quote hq, beforeEnd_quoted hb,
        beforeEnd_unquote hq]
    rw [hscan, hscan, ih]

theorem beforeEnd_semicolon {t : Text} (h : Settled t) (s : Text) :
    beforeEnd .outside (t ++ ';' :: s) = beforeEnd .outside t := by
  rcases h with hwhole | ⟨p, r, rfl, hp, hr⟩
  · have hnil : beforeEnd .outside (';' :: s) = beforeEnd .outside [] := beforeEnd_ends (.semicolon s)
    have hscan := beforeEnd_append hwhole (fun _ => ends_semicolon_iff) hnil
    rwa [List.append_nil] at hscan
  · have hr' : Ends (r ++ ';' :: s) := hr.append _
    rw [List.append_assoc]
    refine beforeEnd_append hp (fun c => ?_) (by rw [beforeEnd_ends hr', beforeEnd_ends hr])
    obtain ⟨d, r, rfl⟩ := List.exists_cons_of_ne_nil ((ends_iff r).1 hr).1
    exact ends_cons_cons

/-! ## Blanks around a text -/

section Blanks

variable {g t : Text}

theorem Ends.flush {r : Text} (h : Ends r) : Flush r := by
  cases h <;> exact Text.flush_cons.2 (by decide)

theorem Whole.of_cons {c : Char} (hc : ¬IsQuote c) (h : Whole (c :: t)) : Whole t := by
  cases h with
  | char _ h => exact h
  | string hq => exact absurd hq hc

theorem Whole.of_blanks_append (hg : ∀ c ∈ g, Text.isBlank c = true) (h : Whole (g ++ t)) : Whole t := by
  induction g with
  | nil => exact h
  | cons c g ih =>
    exact ih (fun d hd => hg d (List.mem_cons_of_mem c hd))
      (h.of_cons (not_quote_of_isBlank (hg c List.mem_cons_self)))

/-- No string of the text ends in blanks behind it. -/
theorem Whole.of_append_blanks (hg : ∀ c ∈ g, Text.isBlank c = true) (h : Whole (t ++ g)) : Whole t := by
  have hquote : ∀ q, IsQuote q → q ∉ g := fun q hq hm => not_quote_of_isBlank (hg q hm) hq
  generalize hu : t ++ g = u at h
  induction h generalizing t with
  | nil =>
    obtain ⟨rfl, -⟩ := List.append_eq_nil_iff.1 hu
    exact .nil
  | @char c u hc _ ih =>
    cases t with
    | nil => exact .nil
    | cons d t =>
      obtain ⟨rfl, hrest⟩ := List.cons.inj hu
      exact .char hc (ih hrest)
  | @string q b u hq hb _ ih =>
    cases t with
    | nil => exact .nil
    | cons d t =>
      obtain ⟨rfl, hrest⟩ := List.cons.inj hu
      -- The second quote stands in the text, as none stands in the blanks.
      rcases List.append_eq_append_iff.1 hrest with ⟨x, hx, hgap⟩ | ⟨x, hx, hgap⟩
      · exact absurd (hgap ▸ List.mem_append_right x List.mem_cons_self) (hquote d hq)
      · cases x with
        | nil =>
          rw [List.nil_append] at hgap
          exact absurd (hgap ▸ List.mem_cons_self) (hquote d hq)
        | cons e x =>
          obtain ⟨rfl, hrest⟩ := List.cons.inj hgap
          rw [hx]
          exact .string hq hb (ih hrest.symm)

theorem Terminated.of_blanks_append (hg : ∀ c ∈ g, Text.isBlank c = true) (h : Terminated (g ++ t)) :
    Terminated t := by
  obtain ⟨p, r, hsplit, hp, hr⟩ := h
  rcases List.append_eq_append_iff.1 hsplit with ⟨x, hx, ht⟩ | ⟨x, hx, ht⟩
  · rw [hx] at hp
    exact ⟨x, r, ht, hp.of_blanks_append hg, hr⟩
  · cases x with
    | nil => exact ⟨[], r, ht.symm, .nil, hr⟩
    | cons c x =>
      rw [ht] at hr
      have hblank := hg c (hx ▸ List.mem_append_right p List.mem_cons_self)
      rw [Text.flush_cons.1 hr.flush] at hblank
      cases hblank

theorem Ends.of_append_blanks (hg : ∀ c ∈ g, Text.isBlank c = true) {r : Text} (hr : r ≠ []) (h : Ends (r ++ g)) :
    Ends r := by
  obtain ⟨c, r, rfl⟩ := List.exists_cons_of_ne_nil hr
  cases r with
  | cons d r => exact ends_cons_cons.1 h
  | nil =>
    cases g with
    | nil => exact h
    | cons d g =>
      have hd := hg d List.mem_cons_self
      rw [List.singleton_append] at h
      cases h with
      | semicolon => exact .semicolon []
      | hash => exact .hash []
      | slashes => exact absurd hd (by decide)
      | comment => exact absurd hd (by decide)

theorem Terminated.of_append_blanks (hg : ∀ c ∈ g, Text.isBlank c = true) (h : Terminated (t ++ g)) :
    Terminated t := by
  obtain ⟨p, r, hsplit, hp, hr⟩ := h
  have hblank : ∀ x y : Text, g = x ++ y → y = r → False := by
    intro x y hxy hyr
    obtain ⟨c, r', rfl⟩ := List.exists_cons_of_ne_nil ((ends_iff r).1 hr).1
    have hc := hg c (hxy ▸ hyr ▸ List.mem_append_right x List.mem_cons_self)
    rw [Text.flush_cons.1 hr.flush] at hc
    cases hc
  rcases List.append_eq_append_iff.1 hsplit with ⟨x, -, hgap⟩ | ⟨x, ht, hgap⟩
  · exact (hblank x r hgap rfl).elim
  · cases x with
    | nil => exact (hblank [] g rfl hgap.symm).elim
    | cons c x =>
      rw [hgap] at hr
      exact ⟨p, c :: x, ht, hp, hr.of_append_blanks hg (List.cons_ne_nil c x)⟩

theorem Settled.of_blanks_append (hg : ∀ c ∈ g, Text.isBlank c = true) : Settled (g ++ t) → Settled t :=
  Or.imp (Whole.of_blanks_append hg) (Terminated.of_blanks_append hg)

theorem Settled.of_append_blanks (hg : ∀ c ∈ g, Text.isBlank c = true) : Settled (t ++ g) → Settled t :=
  Or.imp (Whole.of_append_blanks hg) (Terminated.of_append_blanks hg)

end Blanks

/-! ## The statement of a line -/

theorem append_dollar_inj {x y u v : Text} (hx : '$' ∉ x) (hy : '$' ∉ y) (h : x ++ '$' :: u = y ++ '$' :: v) :
    x = y ∧ u = v := by
  have hstart : ∀ {z w : Text}, '$' ∉ z → (z ++ '$' :: w).takeWhile (· ≠ '$') = z := by
    intro z w hz
    have hpos : ∀ c ∈ z, decide (c ≠ '$') = true := fun c hc => decide_eq_true fun e => hz (e ▸ hc)
    rw [List.takeWhile_append_of_pos hpos, List.takeWhile_cons_of_neg (by decide), List.append_nil]
  have hxy : x = y := by rw [← hstart hx, h, hstart hy]
  subst hxy
  exact ⟨rfl, (List.cons.inj (List.append_cancel_left h)).2⟩

/-- `part` is what the line says behind the name `n`, which stands behind its first dollar. -/
def Behind (line : Text) (n : Name) (part : Text) : Prop :=
  ∃ before, '$' ∉ before ∧ line = before ++ '$' :: (n.text ++ part)

theorem Behind.unique {line : Text} {n : Name} {part other : Text} (h : Behind line n part) (h' : Behind line n other) :
    part = other := by
  obtain ⟨x, hx, rfl⟩ := h
  obtain ⟨y, hy, hxy⟩ := h'
  exact List.append_cancel_left (append_dollar_inj hx hy hxy).2

/-- Up to a seam that is no blank, texts start with a blank or not as they do without it. -/
theorem flush_append {r t : Text} (hr : Flush r) (ht : Flush t) : Flush (r ++ t) := by
  cases r with
  | nil => exact ht
  | cons c r => exact hr

/-- Something stands behind the name of a declaration. If that is settled, a semicolon and
    whatever follows it do not change what is declared. -/
theorem Declares.exists_behind {t : Text} {d : Declaration} (h : Declares t d) :
    ∃ part, Behind t d.name part ∧ (Settled part → ∀ s, Declares (t ++ ';' :: s) d) := by
  obtain ⟨hm, hh, hv⟩ := h
  rename_i m h v n hint default
  obtain ⟨hn, hend, hw, hr, hp, hd⟩ := hv
  rename_i w r p
  refine ⟨w ++ r, ⟨m ++ h, ?_, by simp only [List.append_assoc, List.cons_append]⟩, fun hsettled s => ?_⟩
  · rw [List.mem_append, not_or]
    exact ⟨hm.dollar_not_mem, hh.dollar_not_mem⟩
  have hr' : Flush (r ++ ';' :: s) := flush_append hr (Text.flush_cons.2 (by decide))
  have hend' : EndsName (w ++ (r ++ ';' :: s)) := by
    rw [← List.append_assoc]
    cases hwr : w ++ r with
    | nil =>
      intro c hc
      rw [← Option.some.inj hc]
      decide
    | cons c u =>
      rw [hwr] at hend
      exact hend
  have hp' : Before (r ++ ';' :: s) p :=
    before_iff.2 ((beforeEnd_semicolon (hsettled.of_blanks_append hw) s).trans (before_iff.1 hp))
  have hdeclares := Declares.mk hm hh (Variable.mk hn hend' hw hr' hp' hd)
  simpa only [List.append_assoc, List.cons_append] using hdeclares

/-- With the blanks around a line there is as much more behind the name. -/
theorem Behind.of_trim {line : Text} {n : Name} {part : Text} (h : Behind (Text.trim line) n part) :
    ∃ g, (∀ c ∈ g, Text.isBlank c = true) ∧ Behind line n (part ++ g) := by
  obtain ⟨g, hline, hg⟩ := Text.exists_blanks line
  obtain ⟨before, hbefore, htrim⟩ := h
  refine ⟨g, hg, Text.indentation line ++ before, ?_, ?_⟩
  · rw [List.mem_append, not_or]
    exact ⟨fun hc => absurd (Text.indentation_blank line '$' hc) (by decide), hbefore⟩
  · rw [htrim] at hline
    simpa only [List.append_assoc, List.cons_append] using hline

end Grammar

namespace Property

open Grammar (Behind Settled)

variable {lines : List Text} {i : Int} {p : Property}

/-- Where the line of a number is. Numbers below zero count the lines from the last one. -/
def position (lines : List Text) (i : Int) : Int := if i < 0 then lines.length + i else i

/-- The property that the line of a number declares, read as if nothing were above it if the
    number is below zero. -/
def declaredFrom? (lines : List Text) (i : Int) : Except Int (Option Property) := do
  let line := Text.dropBreak (← lineAt lines (position lines i))
  match Declaration.scan? (Text.trim line) with
  | some d => do
    let doc ← DocBlock.readAt lines i.toNat
    .ok (some (ofDeclaration d doc (Text.indentation line)))
  | none => .ok none

theorem toNat_le_position (lines : List Text) (i : Int) : i.toNat ≤ (position lines i).toNat := by
  unfold position
  split <;> omega

theorem declaredFrom?_of_line {line : Text} (h : lineAt lines (position lines i) = .ok line) :
    declaredFrom? lines i = .ok ((Declaration.scan? (Text.trim line)).map fun d =>
      ofDeclaration d (DocBlock.read (lines.take i.toNat).reverse) (Text.indentation line)) := by
  have hline := (lineAt_eq_ok.1 h).2
  have hreach : i.toNat ≤ lines.length :=
    Nat.le_of_lt (Nat.lt_of_le_of_lt (toNat_le_position lines i) (List.getElem?_eq_some_iff.1 hline).1)
  rw [← ofLine?_eq]
  unfold declaredFrom? ofLine?
  rw [h, DocBlock.readAt_eq hreach]
  show (match Declaration.scan? (Text.trim (Text.dropBreak line)) with
    | some d => Except.ok (some
        (ofDeclaration d (DocBlock.read (lines.take i.toNat).reverse) (Text.indentation (Text.dropBreak line))))
    | none => Except.ok none) = Except.ok ((Declaration.scan? (Text.trim (Text.dropBreak line))).map fun d =>
      ofDeclaration d (DocBlock.read (lines.take i.toNat).reverse) (Text.indentation (Text.dropBreak line)))
  cases Declaration.scan? (Text.trim (Text.dropBreak line)) <;> rfl

theorem declaredFrom?_eq_some (h : declaredFrom? lines i = .ok (some p)) : ∃ line d,
    lineAt lines (position lines i) = .ok line ∧ Declaration.scan? (Text.trim line) = some d ∧
      p = ofDeclaration d (DocBlock.read (lines.take i.toNat).reverse) (Text.indentation line) := by
  cases hline : lineAt lines (position lines i) with
  | error k =>
    unfold declaredFrom? at h
    rw [hline] at h
    cases h
  | ok line =>
    rw [declaredFrom?_of_line hline, Except.ok.injEq, Option.map_eq_some_iff] at h
    obtain ⟨d, hd, hp⟩ := h
    exact ⟨line, d, rfl, hd, hp.symm⟩

/-- With another line in its place the number stands for that one. -/
theorem lineAt_set {line : Text} (h : lineAt lines (position lines i) = .ok line) (new : Text) :
    lineAt (lines.set (position lines i).toNat new) (position (lines.set (position lines i).toNat new) i) =
      .ok new := by
  obtain ⟨hpos, hline⟩ := lineAt_eq_ok.1 h
  have hsame : position (lines.set (position lines i).toNat new) i = position lines i := by
    unfold position
    rw [List.length_set]
  rw [hsame, lineAt_eq_ok]
  exact ⟨hpos, List.getElem?_set_self (List.getElem?_eq_some_iff.1 hline).1⟩

/-- The text of a line that is cut off behind its last word and goes on with a semicolon. -/
theorem trim_semicolon {line : Text} (h : Text.trim line ≠ []) (s : Text) :
    Text.trim (Text.trimEnd line ++ ';' :: s) = Text.trim line ++ ';' :: Text.trimEnd s ∧
      Text.indentation (Text.trimEnd line ++ ';' :: s) = Text.indentation line := by
  have hflush : Text.Flush (Text.trim line ++ ';' :: s) :=
    Grammar.flush_append (Text.flush_trim line) (Text.flush_cons.2 (by decide))
  have hblank := Text.indentation_blank line
  rw [Text.trimEnd_eq h, List.append_assoc]
  refine ⟨?_, Text.indentation_append_of_flush hblank hflush⟩
  have hlast : ∀ c ∈ (Text.trim line ++ [';']).getLast?, Text.isBlank c = false := by
    intro c hc
    rw [List.getLast?_concat, Option.mem_some] at hc
    rw [← hc]
    decide
  rw [Text.trim_append_of_flush hblank hflush, ← List.singleton_append, ← List.append_assoc,
    Text.trimEnd_append hlast, List.append_assoc, List.singleton_append]

/-- The line of a number, from either end of the document, that declares a property says
    something behind its name. If every string there has its end, or the statement ends
    there outside of strings, then the line without the blanks at its end, and with a
    semicolon and anything at all behind that, declares exactly the same in its place. -/
theorem declaredFrom?_semicolon (h : declaredFrom? lines i = .ok (some p)) :
    ∃ line, lineAt lines (position lines i) = .ok line ∧ (∃ part, Behind line p.name part) ∧
      ∀ part, Behind line p.name part → Settled part → ∀ s,
        declaredFrom? (lines.set (position lines i).toNat (Text.trimEnd line ++ ';' :: s)) i = .ok (some p) := by
  obtain ⟨line, d, hline, hd, rfl⟩ := declaredFrom?_eq_some h
  obtain ⟨rest, hrest, hsemicolon⟩ := (Grammar.declares_of_scan? hd).exists_behind
  obtain ⟨g, hg, hbehind⟩ := hrest.of_trim
  refine ⟨line, hline, ⟨rest ++ g, hbehind⟩, fun part hpart hsettled s => ?_⟩
  rw [hpart.unique hbehind] at hsettled
  have hdeclares := hsemicolon (hsettled.of_append_blanks hg) (Text.trimEnd s)
  have hne : Text.trim line ≠ [] := by
    intro hnil
    rw [hnil] at hd
    cases hd
  obtain ⟨htrim, hindentation⟩ := trim_semicolon hne s
  have habove : (lines.set (position lines i).toNat (Text.trimEnd line ++ ';' :: s)).take i.toNat =
      lines.take i.toNat := List.take_set_of_le (toNat_le_position lines i)
  rw [declaredFrom?_of_line (lineAt_set hline _), htrim, hdeclares.scan?, hindentation, habove]
  rfl

/-- A declaration without a semicolon, whose default value holds one in a string. -/
def unended : List Text := [[], "  $a ='x;' ".toList]

theorem declaredFrom?_semicolon_sample : ∃ p, declaredFrom? unended (-1) = .ok (some p) ∧
    declaredFrom? [[], "  $a ='x;';'$b".toList] (-1) = .ok (some p) := by
  have hp : declaredFrom? unended (-1) =
      .ok (some ⟨⟨'a', []⟩, none, some "string".toList, none, "  ".toList⟩) := by
    have hline : lineAt unended (position unended (-1)) = .ok "  $a ='x;' ".toList := by rfl
    rw [declaredFrom?_of_line hline]
    exact congrArg Except.ok (by decide +kernel)
  refine ⟨_, hp, ?_⟩
  obtain ⟨line, hline, -, hbehind⟩ := declaredFrom?_semicolon hp
  obtain rfl : "  $a ='x;' ".toList = line := Except.ok.inj hline
  have hquoted : Grammar.Quoted '\x27' "x;".toList := .char (by decide) (by decide) (.char (by decide) (by decide) .nil)
  have hwhole : Grammar.Whole " ='x;' ".toList :=
    .char (by decide) (.char (by decide) (.string (.inl rfl) hquoted (.char (by decide) .nil)))
  exact hbehind " ='x;' ".toList ⟨"  ".toList, by decide, rfl⟩ (.inl hwhole) "'$b".toList

end Property

end Accessors
