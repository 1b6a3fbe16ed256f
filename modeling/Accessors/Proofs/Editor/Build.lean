/-
  Accessors.Proofs.Editor.Build — where accessors go, and what they are.

  An insertion goes before the last line that starts with a closing brace, which cuts the
  document in two (`closingLine?_iff`). Its text depends on nothing but what is found at
  the cursors, in their order (`renderAll_congr`, `ordered_map`), and it is made of the
  lines of accessors (`build_ok`). There is one where something is found and a line closes
  the document (`build_found`).
-/
import Accessors.Editor.Command
import Accessors.Proofs.Render.Block
import Accessors.Proofs.Render.Spacing
import Accessors.Proofs.Source.Search

namespace Accessors

open Text (Unbroken)

/-! ## The closing brace -/

namespace Command

theorem closes_iff (line : Text) : closes line = true ↔ StartsWithBrace line := by
  unfold closes StartsWithBrace
  exact beq_iff_eq

theorem closingLine?_cut {A B : List Text} {b : Text} (hb : StartsWithBrace b) (hB : ∀ l ∈ B, ¬StartsWithBrace l) :
    closingLine? (A ++ b :: B) = some A.length := by
  have hrest : B.reverse.findIdx? closes = none := by
    rw [List.findIdx?_eq_none_iff]
    intro l hl
    rw [← Bool.not_eq_true, closes_iff]
    exact hB l (List.mem_reverse.1 hl)
  have hcut : (A ++ b :: B).reverse = B.reverse ++ b :: A.reverse := by simp
  unfold closingLine?
  rw [hcut, List.findIdx?_append, hrest, List.findIdx?_cons, (closes_iff b).2 hb]
  simp only [if_true, Option.map_some, Option.none_or, List.length_append, List.length_cons, List.length_reverse]
  congr 1
  omega

/-- The last line of a kind cuts the lines in two. -/
theorem exists_last {P : Text → Prop} {lines : List Text} (h : ∃ l ∈ lines, P l) :
    ∃ A b B, lines = A ++ b :: B ∧ P b ∧ ∀ l ∈ B, ¬P l := by
  induction lines with
  | nil =>
    obtain ⟨l, hl, -⟩ := h
    cases hl
  | cons m lines ih =>
    by_cases hrest : ∃ l ∈ lines, P l
    · obtain ⟨A, b, B, rfl, hb, hB⟩ := ih hrest
      exact ⟨m :: A, b, B, rfl, hb, hB⟩
    · obtain ⟨l, hl, hP⟩ := h
      rcases List.mem_cons.1 hl with rfl | hl
      · exact ⟨[], l, lines, rfl, hP, fun k hk hPk => hrest ⟨k, hk, hPk⟩⟩
      · exact absurd ⟨l, hl, hP⟩ hrest

theorem closingLine?_iff {lines : List Text} {line : Nat} : closingLine? lines = some line ↔
    ∃ A b B, lines = A ++ b :: B ∧ A.length = line ∧ StartsWithBrace b ∧ ∀ l ∈ B, ¬StartsWithBrace l := by
  constructor
  · intro h
    have hsome : ∃ l ∈ lines, StartsWithBrace l := by
      obtain ⟨i, hi, -⟩ := Option.map_eq_some_iff.1 h
      obtain ⟨hlt, hc, -⟩ := List.findIdx?_eq_some_iff_getElem.1 hi
      exact ⟨_, List.mem_reverse.1 (List.getElem_mem hlt), (closes_iff _).1 hc⟩
    obtain ⟨A, b, B, rfl, hb, hB⟩ := exists_last hsome
    rw [closingLine?_cut hb hB] at h
    exact ⟨A, b, B, rfl, Option.some.inj h, hb, hB⟩
  · intro h
    obtain ⟨A, b, B, rfl, rfl, hb, hB⟩ := h
    exact closingLine?_cut hb hB

/-! ## The accessors at the cursors -/

theorem outcome_renderAt (s : Settings) (kind : AccessorKind) (lines : List Text) (cursor : Int) :
    (renderAt s kind lines cursor).outcome =
      (Property.at? lines cursor).elim (.ok []) fun p => (Render.accessors s p kind).outcome := by
  unfold renderAt Property.at?
  cases Property.find? lines cursor with
  | none => rfl
  | some found =>
    show (note _ _ _ >>= fun _ => quietly (Render.accessors s found.property kind)).outcome = _
    rw [Traced.outcome_bind]
    rfl

/-- Documents in which the same is found at the cursors. -/
theorem renderAll_congr (s : Settings) (kind : AccessorKind) {old new : List Text} {f : Int → Int}
    {cursors : List Int} (h : ∀ c ∈ cursors, Property.at? new c = Property.at? old (f c)) :
    (renderAll s kind new cursors).outcome = (renderAll s kind old (cursors.map f)).outcome := by
  induction cursors with
  | nil => rfl
  | cons c cursors ih =>
    have hrest := ih fun d hd => h d (List.mem_cons_of_mem _ hd)
    rw [List.map_cons, renderAll, renderAll, Traced.outcome_bind, Traced.outcome_bind, outcome_renderAt,
      outcome_renderAt, h c (by simp)]
    cases (Property.at? old (f c)).elim (.ok []) fun p => (Render.accessors s p kind).outcome with
    | error e => rfl
    | ok t =>
      show (renderAll s kind new cursors >>= fun ts => pure (t ++ ts)).outcome =
        (renderAll s kind old (cursors.map f) >>= fun ts => pure (t ++ ts)).outcome
      rw [Traced.outcome_bind, Traced.outcome_bind, hrest]

/-- Accessors are lines, however they are spaced. -/
theorem generated_text (s : Settings) {p : Property} (hp : p.Unbroken) (kind : AccessorKind) :
    ∃ lines, Render.Generated (Render.text s p kind) lines := by
  obtain ⟨G, hG⟩ := Render.generated_getterText hp (s.count Settings.spacesAfterReturn)
  obtain ⟨U, hU⟩ := Render.generated_setterText hp (s.count Settings.spacesAfterParam)
    (s.count Settings.spacesAfterParamVar) (s.count Settings.spacesAfterReturn)
  cases kind with
  | getter => exact ⟨G, hG⟩
  | setter => exact ⟨U, hU⟩
  | both => exact ⟨G ++ U, hG.append hU⟩

theorem accessors_ok {s : Settings} {p : Property} (hp : p.Unbroken) {kind : AccessorKind} {t : Text}
    (h : (Render.accessors s p kind).outcome = .ok t) : ∃ lines, Render.Generated t lines := by
  rw [Render.outcome_accessors] at h
  split at h
  · rw [← Except.ok.inj h]
    exact generated_text s hp kind
  · cases h

theorem renderAll_ok {s : Settings} {kind : AccessorKind} {lines : List Text} (hl : ∀ l ∈ lines, Unbroken l)
    {cursors : List Int} {t : Text} (h : (renderAll s kind lines cursors).outcome = .ok t) :
    t = [] ∨ ∃ T, Render.Generated t T := by
  induction cursors generalizing t with
  | nil => exact .inl (Except.ok.inj h).symm
  | cons c cursors ih =>
    obtain ⟨u, hu, h⟩ := Traced.bind_eq_ok.1 h
    obtain ⟨v, hv, h⟩ := Traced.bind_eq_ok.1 h
    obtain rfl := Except.ok.inj h
    rw [outcome_renderAt] at hu
    have hfirst : u = [] ∨ ∃ T, Render.Generated u T := by
      unfold Property.at? at hu
      cases hf : Property.find? lines c with
      | none =>
        rw [hf] at hu
        exact .inl (Except.ok.inj hu).symm
      | some found =>
        rw [hf] at hu
        exact .inr (accessors_ok (Property.unbroken_of_find? hl hf) hu)
    rcases hfirst with rfl | ⟨U, hU⟩
    · exact ih hv
    · rcases ih hv with rfl | ⟨V, hV⟩
      · exact .inr ⟨U, by rwa [List.append_nil]⟩
      · exact .inr ⟨U ++ V, hU.append hV⟩

end Command

/-! ## The order of the cursors -/

/-- The same cursors in order are the same list. -/
theorem eq_of_perm_ordered {as bs : List Int} (h : as.Perm bs) (ha : as.Pairwise (· ≤ ·)) (hb : bs.Pairwise (· ≤ ·)) :
    as = bs := h.eq_of_pairwise (fun _ _ _ _ hab hba => Int.le_antisymm hab hba) ha hb

/-- Cursors that are moved without one overtaking another keep their order. -/
theorem Document.ordered_map {f : Int → Int} (hf : ∀ a b, a ≤ b → f a ≤ f b) {d e : Document}
    (h : e.selections = d.selections.map f) : e.ordered = d.ordered.map f := by
  have hperm : e.ordered.Perm (d.ordered.map f) :=
    (e.perm_ordered.trans (List.Perm.of_eq h)).trans (d.perm_ordered.map f).symm
  exact eq_of_perm_ordered hperm e.pairwise_ordered (d.pairwise_ordered.map f hf)

theorem Document.ordered_perm {d e : Document} (h : e.selections.Perm d.selections) : e.ordered = d.ordered :=
  eq_of_perm_ordered ((e.perm_ordered.trans h).trans d.perm_ordered.symm) e.pairwise_ordered d.pairwise_ordered

/-- More cursors make no difference to those that they are not among. -/
theorem Document.filter_ordered {d e : Document} {extra : List Int} (h : e.selections.Perm (extra ++ d.selections))
    {p : Int → Bool} (hextra : ∀ c ∈ extra, p c = false) : e.ordered.filter p = d.ordered.filter p := by
  have hnone : extra.filter p = [] := List.filter_eq_nil_iff.2 fun c hc => Bool.eq_false_iff.1 (hextra c hc)
  have hall : e.ordered.Perm (extra ++ d.ordered) :=
    (e.perm_ordered.trans h).trans (List.Perm.append_left extra d.perm_ordered.symm)
  have hperm := hall.filter p
  rw [List.filter_append, hnone, List.nil_append] at hperm
  exact eq_of_perm_ordered hperm (e.pairwise_ordered.filter _) (d.pairwise_ordered.filter _)

/-! ## The insertion -/

namespace Command

theorem build_iff {s : Settings} {d : Document} {kind : AccessorKind} {i : Insertion} :
    (build s d kind).outcome = .ok (.ok i) ↔ ∃ L : Nat, closingLine? d.lines = some L ∧ i.line = L ∧ i.text ≠ [] ∧
      (collect s d kind).outcome = .ok i.text := by
  constructor
  · intro h
    obtain ⟨text, ht, h⟩ := Traced.bind_eq_ok.1 h
    by_cases hne : text.isEmpty = true
    · rw [if_pos hne] at h
      cases h
    · rw [if_neg hne] at h
      split at h
      · rename_i line hline
        obtain rfl := Except.ok.inj (Except.ok.inj h)
        exact ⟨line, hline, rfl, by simpa using hne, ht⟩
      · cases h
  · intro h
    obtain ⟨line, text⟩ := i
    obtain ⟨L, hL, hline, hne, ht⟩ := h
    simp only at hline hne ht
    subst hline
    have hempty : text.isEmpty = false := by simpa using hne
    refine Traced.bind_eq_ok.2 ⟨text, ht, ?_⟩
    simp only [hempty, hL, Bool.false_eq_true, if_false]
    rfl

/-- The insertion goes before the line that closes the document, and is the lines of
    accessors. -/
theorem build_ok {s : Settings} {d : Document} (hd : ∀ l ∈ d.lines, Unbroken l) {kind : AccessorKind} {i : Insertion}
    (h : (build s d kind).outcome = .ok (.ok i)) : ∃ A b B T, d.lines = A ++ b :: B ∧ i.line = (A.length : Nat) ∧
      StartsWithBrace b ∧ (∀ l ∈ B, ¬StartsWithBrace l) ∧ Render.Generated i.text T := by
  obtain ⟨L, hL, hline, hne, ht⟩ := build_iff.1 h
  obtain ⟨A, b, B, hlines, rfl, hb, hB⟩ := closingLine?_iff.1 hL
  rcases renderAll_ok hd ht with ht | ⟨T, hT⟩
  · exact absurd ht hne
  · exact ⟨A, b, B, T, hlines, hline, hb, hB, hT⟩

/-! ## Something to insert -/

/-- What is rendered for one cursor. -/
def renderedAt (s : Settings) (kind : AccessorKind) (lines : List Text) (cursor : Int) : Text :=
  (Property.at? lines cursor).elim [] fun p => Render.text s p kind

theorem outcome_renderAt_ok {s : Settings} {kind : AccessorKind} (hs : Render.Spaceable s kind) (lines : List Text)
    (cursor : Int) : (renderAt s kind lines cursor).outcome = .ok (renderedAt s kind lines cursor) := by
  rw [outcome_renderAt, renderedAt]
  cases Property.at? lines cursor with
  | none => rfl
  | some p =>
    show (Render.accessors s p kind).outcome = _
    rw [Render.outcome_accessors, if_pos hs]
    rfl

theorem outcome_renderAll {s : Settings} {kind : AccessorKind} (hs : Render.Spaceable s kind) (lines : List Text)
    (cursors : List Int) :
    (renderAll s kind lines cursors).outcome = .ok (cursors.flatMap (renderedAt s kind lines)) := by
  induction cursors with
  | nil => rfl
  | cons c cursors ih =>
    exact Traced.bind_eq_ok.2 ⟨_, outcome_renderAt_ok hs lines c, Traced.bind_eq_ok.2 ⟨_, ih, rfl⟩⟩

/-- With a single cursor it is the accessors of what is found there. -/
theorem build_single {s : Settings} {d : Document} {kind : AccessorKind} {cursor : Int}
    (hcursor : d.selections = [cursor]) {found : Property.Found}
    (hfound : Property.find? d.lines cursor = some found) {i : Insertion}
    (h : (build s d kind).outcome = .ok (.ok i)) : i.text = Render.text s found.property kind := by
  obtain ⟨-, -, -, -, ht⟩ := build_iff.1 h
  have hordered : d.ordered = [cursor] := List.perm_singleton.1 (hcursor ▸ d.perm_ordered)
  have hall : (renderAll s kind d.lines [cursor]).outcome = .ok i.text := by
    rw [← hordered]
    exact ht
  obtain ⟨t, hat, hrest⟩ := Traced.bind_eq_ok.1 hall
  obtain ⟨rest, hnil, htext⟩ := Traced.bind_eq_ok.1 hrest
  obtain rfl := Except.ok.inj hnil
  rw [outcome_renderAt, Property.at?, hfound] at hat
  replace hat : (Render.accessors s found.property kind).outcome = .ok t := hat
  rw [Render.outcome_accessors] at hat
  split at hat
  · rw [← Except.ok.inj htext, List.append_nil]
    exact (Except.ok.inj hat).symm
  · cases hat

/-- With a property at a cursor and a closing brace there is an insertion. -/
theorem build_found {s : Settings} {d : Document} {kind : AccessorKind} (hs : Render.Spaceable s kind)
    (hd : ∀ l ∈ d.lines, Text.Unbroken l) {c : Int} (hc : c ∈ d.selections) {found : Property.Found}
    (hfound : Property.find? d.lines c = some found) {L : Nat} (hL : closingLine? d.lines = some L) :
    ∃ i, (build s d kind).outcome = .ok (.ok i) ∧ i.line = L := by
  have hne : d.ordered.flatMap (renderedAt s kind d.lines) ≠ [] := by
    intro h
    have hat := List.flatMap_eq_nil_iff.1 h c (d.perm_ordered.mem_iff.2 hc)
    rw [renderedAt, Property.at?, hfound] at hat
    obtain ⟨T, hT⟩ := generated_text s (Property.unbroken_of_find? hd hfound) kind
    exact hT.ne_nil hat
  exact ⟨⟨L, _⟩, build_iff.2 ⟨L, hL, rfl, hne, outcome_renderAll hs d.lines d.ordered⟩, rfl⟩

end Command

/-- One property and its closing brace. -/
def sample : Text := ['$', 'a', ';', '\n', '\x7d']

theorem Command.build_sample (languageId : Text) (uri : Option Codes) : ∃ i,
    (build Settings.defaults (Document.ofText sample [0] languageId uri) .getter).outcome = .ok (.ok i) := by
  have hlines : ∀ l ∈ Text.lines sample, Unbroken l := fun _ hl => Text.unbroken_of_mem_lines hl
  obtain ⟨f, hf⟩ : ∃ f, Property.find? (Text.lines sample) 0 = some f :=
    Option.isSome_iff_exists.1 (by decide +kernel)
  have hclosing : closingLine? (Text.lines sample) = some 1 := by decide
  have hbuilt : ∃ i, (build Settings.defaults (Document.ofText sample [0] languageId uri) .getter).outcome =
      .ok (.ok i) ∧ i.line = (1 : Nat) := build_found (by decide) hlines List.mem_cons_self hf hclosing
  obtain ⟨i, hi, -⟩ := hbuilt
  exact ⟨i, hi⟩

end Accessors
