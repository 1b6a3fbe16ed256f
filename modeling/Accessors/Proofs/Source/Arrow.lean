/-
  Accessors.Proofs.Source.Arrow — what stands behind the variable of a declaration.

  A text announces a variable with modifiers and a hint before it, or without them
  (`Announces`). Whether it declares the variable is for what stands behind the name, and
  the blanks there, to say: nothing more, the end of the statement, a comma, or an equals
  sign that is not followed by a second one (`GoesOn`). No more than two characters are
  looked at for that (`default?_statement_iff`).

  The arrow between a key and its value starts with such an equals sign.
  - `infer?_angle`: the rest of an arrow, which is read as a default value, shows no type;
  - `scan?_arrow`: so a pair is taken for a declaration of its key, and comes to the
    property that the variable is when it stands alone; a search ends on it;
  - `scan?_pair`: also in the body of a method.
-/
import Accessors.Proofs.Source.Compound
import Accessors.Proofs.Source.Ending
import Accessors.Proofs.Source.Nearest

namespace Accessors

namespace Grammar

open Text (Flush)

/-- Modifiers, a hint or none, and a variable; `r` is what follows the blanks behind its
    name. -/
inductive Announces : Text → Name → Option Text → Text → Prop
  | mk {m h w r : Text} {n : Name} {hint : Option Text} : Modifiers m → HintPart h hint → IsName n →
      EndsName (w ++ r) → (∀ c ∈ w, Text.isBlank c = true) → Flush r →
      Announces (m ++ h ++ ('$' :: n.text ++ w ++ r)) n hint r

/-- What a declaration can go on with behind its variable. -/
inductive GoesOn : Text → Prop
  | nothing : GoesOn []
  | ended {r : Text} : Ends r → GoesOn r
  | comma (r : Text) : GoesOn (',' :: r)
  | assigned {r : Text} : r.head? ≠ some '=' → GoesOn ('=' :: r)

variable {t r : Text} {n : Name} {hint : Option Text}

/-! ## The start of a statement -/

theorem prefix_beforeEnd (q : Quoting) (t : Text) : beforeEnd q t <+: t := by
  induction t generalizing q with
  | nil => exact List.prefix_rfl
  | cons c t ih =>
    rw [beforeEnd]
    split
    · exact List.nil_prefix
    · exact List.cons_prefix_cons.2 ⟨rfl, ih _⟩

theorem prefix_statement (t : Text) : statement t <+: t := (Text.trimEnd_prefix _).trans (prefix_beforeEnd _ t)

theorem statement_ends (h : Ends r) : statement r = [] := by
  unfold statement
  rw [beforeEnd_ends h]
  rfl

/-- A statement starts with the first character of its text, if that does not end it. -/
theorem exists_statement {c : Char} (hb : Text.isBlank c = false) (he : ¬Ends (c :: r)) :
    ∃ u, statement (c :: r) = c :: u := by
  have hnot : ¬endsStatement (c :: r) = true := fun h => he ((ends_iff _).2 ⟨List.cons_ne_nil c r, h⟩)
  unfold statement beforeEnd
  rw [if_neg fun h => hnot h.2, Text.trimEnd_cons hb]
  exact ⟨_, rfl⟩

theorem statement_char {c : Char} (hq : ¬IsQuote c) (hb : Text.isBlank c = false) (he : ¬Ends (c :: r)) :
    statement (c :: r) = c :: statement r := by
  unfold statement
  rw [beforeEnd_char hq he, Text.trimEnd_cons hb]

theorem not_ends_equals (r : Text) : ¬Ends ('=' :: r) := by
  intro h
  cases h

theorem statement_equals (r : Text) : statement ('=' :: r) = '=' :: statement r :=
  statement_char (by decide) (by decide) (not_ends_equals r)

theorem head?_statement : (statement r).head? = some '=' ↔ r.head? = some '=' := by
  constructor
  · intro h
    obtain ⟨u, hu⟩ := prefix_statement r
    obtain ⟨v, hv⟩ := List.head?_eq_some_iff.1 h
    rw [← hu, hv]
    rfl
  · intro h
    obtain ⟨v, rfl⟩ := List.head?_eq_some_iff.1 h
    rw [statement_equals]
    rfl

/-! ## The variable and what follows -/

theorem default?_statement_iff (hr : Flush r) : (∃ d, Declaration.default? (statement r) = some d) ↔ GoesOn r := by
  simp only [default?_iff]
  cases r with
  | nil => exact ⟨fun _ => .nothing, fun _ => ⟨_, .done⟩⟩
  | cons c r =>
    by_cases he : Ends (c :: r)
    · rw [statement_ends he]
      exact ⟨fun _ => .ended he, fun _ => ⟨_, .done⟩⟩
    · obtain ⟨u, hu⟩ := exists_statement (Text.flush_cons.1 hr) he
      constructor
      · rintro ⟨d, hd⟩
        rw [hu] at hd
        cases hd with
        | comma => exact .comma r
        | assigned hne =>
          rw [statement_equals] at hu
          refine .assigned fun hsecond => hne ?_
          rw [← (List.cons.inj hu).2]
          exact head?_statement.2 hsecond
      · intro h
        cases h with
        | ended h => exact absurd h he
        | comma =>
          rw [hu]
          exact ⟨_, .comma u⟩
        | assigned hne =>
          rw [statement_equals]
          exact ⟨_, .assigned fun h => hne (head?_statement.1 h)⟩

theorem Announces.scan? (h : Announces t n hint r) :
    Declaration.scan? t = (Declaration.default? (statement r)).map fun d => ⟨n, hint, d⟩ := by
  obtain ⟨hm, hh, hn, he, hw, hr⟩ := h
  rw [scan?_upTo hm hh rfl, ofVariable?_name hn he hw hr]

theorem Announces.flush (h : Announces t n hint r) : Flush r := by
  obtain ⟨-, -, -, -, -, hr⟩ := h
  exact hr

/-- The default value behind an arrow starts with the rest of the arrow. -/
theorem default?_arrow (v : Text) :
    Declaration.default? (statement ('=' :: '>' :: v)) = some (some ('>' :: statement v)) := by
  have hangle : ¬Ends ('>' :: v) := by
    intro h
    cases h
  rw [statement_equals, statement_char (by decide) (by decide) hangle]
  have hflush : Flush ('>' :: statement v) := Text.flush_cons.2 (by decide)
  have htwice : Text.trimEnd (statement v) = statement v := List.rdropWhile_idempotent _ _
  show some (some (Text.trim ('>' :: statement v))) = _
  rw [Text.trim, hflush.trimStart, Text.trimEnd_cons (by decide), htwice]

end Grammar

/-! ## The value behind an arrow -/

namespace Literal

theorem bare_angle (v : Text) : ∃ u, bare ('>' :: v) = '>' :: u := by
  have hflush : ∀ u : Text, Text.Flush ('>' :: u) := fun u => Text.flush_cons.2 (by decide)
  have hmark : ∀ c ∈ ['>'].getLast?, decide (c = ';') = false := by
    intro c hc
    obtain rfl := Option.some.inj hc
    rfl
  have hsemicolon : ∀ u : Text, Text.dropEndWhile (· = ';') ('>' :: u) = '>' :: Text.dropEndWhile (· = ';') u :=
    Text.dropEndWhile_append (s := ['>']) hmark
  have htrim : ∀ u : Text, Text.trim ('>' :: u) = '>' :: Text.trimEnd u := by
    intro u
    rw [Text.trim, (hflush u).trimStart, Text.trimEnd_cons (by decide)]
  unfold bare
  rw [htrim, hsemicolon, htrim]
  exact ⟨_, rfl⟩

theorem infer?_angle (v : Text) : infer? ('>' :: v) = none := by
  obtain ⟨u, hu⟩ := bare_angle v
  obtain ⟨hnumeral, hconstant⟩ : ¬Numeral ('>' :: u) ∧ Text.lower ('>' :: u) ∉ constants :=
    not_word_of_mem List.mem_cons_self (by decide)
  have hstring : ¬isString ('>' :: u) = true := by
    cases u with
    | nil => exact Bool.false_ne_true
    | cons c u => simp [isString, isQuote]
  have harray : ¬(isBracketed ('>' :: u) = true ∨ isArrayCall ('>' :: u) = true) := by
    simp [isBracketed, isArrayCall]
  unfold infer?
  rw [hu, ofBare?_ends hnumeral hconstant, if_neg hstring, if_neg harray]

end Literal

/-! ## Pairs -/

namespace Property

/-- A default value that shows no type makes no difference. -/
theorem ofDeclaration_angle (n : Name) (hint : Option Text) (v : Text) (doc : DocBlock) (indentation : Text) :
    ofDeclaration ⟨n, hint, some ('>' :: v)⟩ doc indentation = ofDeclaration ⟨n, hint, none⟩ doc indentation := by
  have hshown : inferred? (some ('>' :: v)) = inferred? none := by
    unfold inferred?
    rw [Option.bind_some, Literal.infer?_angle]
    rfl
  unfold ofDeclaration
  rw [hshown]

end Property

namespace Grammar

open Text (Flush)

variable {t r : Text} {n : Name} {hint : Option Text}

/-- A text that announces a variable declares it if and only if it goes on as declarations
    do. An arrow passes for an equals sign, whatever the value behind it. So a pair of a
    key and a value is a declaration of its key; the line that it stands on declares the
    property that it would without the value; a search ends there if its cursor is on that
    line, and goes no further up if it is below. -/
theorem scan?_arrow (h : Announces t n hint r) :
    (Declaration.scan? t = none ↔ ¬GoesOn r) ∧
    ∀ v, r = '=' :: '>' :: v → Declaration.scan? t = some ⟨n, hint, some ('>' :: statement v)⟩ ∧
      ∀ (lines : List Text) (i : Nat) (l : Text), lines[i]? = some l → Text.trim l = t → ∀ cursor,
        (Property.clamped lines cursor = i → Property.find? lines cursor = some ⟨i, Property.ofDeclaration
          ⟨n, hint, none⟩ (DocBlock.read (lines.take i).reverse) (Text.indentation l)⟩) ∧
        (i ≤ Property.clamped lines cursor → ∃ f, Property.find? lines cursor = some f ∧ i ≤ f.line) := by
  refine ⟨?_, ?_⟩
  · rw [h.scan?, Option.map_eq_none_iff, ← default?_statement_iff h.flush, ← Option.isSome_iff_exists]
    exact Option.not_isSome_iff_eq_none.symm
  rintro v rfl
  have hscan : Declaration.scan? t = some ⟨n, hint, some ('>' :: statement v)⟩ := by
    rw [h.scan?, default?_arrow]
    rfl
  refine ⟨hscan, ?_⟩
  rintro lines i l hl rfl cursor
  have hdeclared : Property.declaredOn? lines i = some (Property.ofDeclaration ⟨n, hint, none⟩
      (DocBlock.read (lines.take i).reverse) (Text.indentation l)) := by
    rw [Property.declaredOn?_eq hl, Property.ofLine?_eq, hscan, Option.map_some, Property.ofDeclaration_angle]
  constructor
  · intro hcursor
    refine Property.find?_eq_some.2 ⟨Int.le_of_eq hcursor.symm, hdeclared, fun k hik hk => ?_⟩
    replace hik : i < k := hik
    omega
  · intro hbelow
    cases hfind : Property.find? lines cursor with
    | none =>
      rw [Property.find?_eq_none.1 hfind i hbelow] at hdeclared
      cases hdeclared
    | some f =>
      refine ⟨f, rfl, ?_⟩
      by_contra habove
      rw [(Property.find?_eq_some.1 hfind).nearest i (by omega) hbelow] at hdeclared
      cases hdeclared

/-- A pair of a key and a value, as the elements of an array stand on lines of their own. -/
def pair : Text := "$k => 1,".toList

theorem announces_pair : Announces pair ⟨'k', []⟩ none "=> 1,".toList := by
  have hname : IsName ⟨'k', []⟩ := ⟨by decide, List.forall_mem_nil _⟩
  have hends : EndsName ([' '] ++ "=> 1,".toList) := by
    intro c hc
    obtain rfl := Option.some.inj hc
    decide
  have hflush : Flush "=> 1,".toList := by
    intro c hc
    obtain rfl := Option.some.inj hc
    decide
  have hblank : Text.Of (Text.isBlank · = true) [' '] := by decide
  exact .mk .nil .none hname hends hblank hflush

/-- A property, and a pair in the body of the method below it. -/
def pairLines : List Text := ["class A \x7b".toList, "    private $a;".toList, "    function f() \x7b return [".toList,
  "        ".toList ++ pair, "    ]; \x7d".toList, "\x7d".toList]

/-- From the line below the pair the search comes to the pair, and not to the property. -/
theorem scan?_arrow_sample : Announces pair ⟨'k', []⟩ none "=> 1,".toList ∧
    Declaration.scan? pair = some ⟨⟨'k', []⟩, none, some "> 1,".toList⟩ ∧
    ∃ f, Property.find? pairLines 4 = some f ∧ 3 ≤ f.line := by
  obtain ⟨-, harrow⟩ := scan?_arrow announces_pair
  obtain ⟨hscan, hfind⟩ := harrow " 1,".toList rfl
  have hstatement : statement " 1,".toList = " 1,".toList := by decide
  rw [hstatement] at hscan
  exact ⟨announces_pair, hscan, (hfind pairLines 3 ("        ".toList ++ pair) rfl (by decide) 4).2 (by decide)⟩

/-- So there is a pair that is a declaration, and a method in whose body it is taken for a
    property. -/
theorem scan?_pair : (Announces pair ⟨'k', []⟩ none "=> 1,".toList ∧ Declaration.scan? pair ≠ none) ∧
    (Property.find? pairLines 3).map (fun f => (f.line, f.property.name.text)) = some (3, "k".toList) :=
  ⟨⟨announces_pair, by decide +kernel⟩, by decide +kernel⟩

end Grammar

end Accessors
