/-
  Accessors.Proofs.Editor.Selections — the cursors of a document, one by one.

  The cursors are gone through from the top, and what is done for one does not depend on
  the others (`trace_renderAll`, `outcome_renderAll`). A search ends no higher up from a
  cursor further down; so once a declaration is found, one is found for every cursor that
  follows, and their lines ascend (`exists_missing`). A cursor without one leaves its two
  reports (`skipped`) and adds nothing to the text.
  - `collect_inOrder`: whatever the order of the cursors, the reports on those without a
    declaration come first, and the text is that of the declarations found for the others,
    downward (`InOrder`); cursors without a declaration never change it.
-/
import Accessors.Proofs.Editor.Calls
import Accessors.Proofs.Source.Nearest

namespace Accessors.Command

open Property (Found Nearest Undeclared)

/-- What is left of a cursor without a declaration: a warning and an error. -/
def skipped (cursor : Int) : List Event := [
  .notice (.ofText Log.Level.warning (Log.logger "resolver")
    ("Skipping selection on line ".toList ++ Text.ofInt cursor ++ ": ".toList ++ noProperty)),
  shown noProperty]

/-- What is collected for a document: its cursors from the top are `missing`, without a
    declaration, and `rest`, with those in `found`. -/
structure InOrder (s : Settings) (d : Document) (kind : AccessorKind) (missing rest : List Int) (found : List Found) :
    Prop where
  ordered : d.ordered = missing ++ rest
  all : (missing ++ rest).Perm d.selections
  sorted : (missing ++ rest).Pairwise (· ≤ ·)
  undeclared : ∀ c ∈ missing, Undeclared d.lines c
  nearest : List.Forall₂ (Nearest d.lines) rest found
  ascending : found.Pairwise fun f g => f.line ≤ g.line
  rendered : ∀ f ∈ found, (Render.accessors s f.property kind).outcome = .ok (Render.text s f.property kind)
  text : (collect s d kind).outcome = .ok (found.flatMap fun f => Render.text s f.property kind)
  reports : ∃ notices, (∀ e ∈ notices, ∃ n, e = .notice n) ∧
    (collect s d kind).trace = missing.flatMap skipped ++ notices

/-! ## Cursors in order -/

section Cursors

variable {lines : List Text} {cursors : List Int}

/-- Below a cursor with a declaration there is none without. -/
theorem exists_missing (h : cursors.Pairwise (· ≤ ·)) : ∃ missing rest, cursors = missing ++ rest ∧
    (∀ c ∈ missing, Property.find? lines c = none) ∧ ∀ c ∈ rest, ∃ f, Property.find? lines c = some f := by
  induction cursors with
  | nil => exact ⟨[], [], rfl, by simp, by simp⟩
  | cons c cursors ih =>
    obtain ⟨hc, hsorted⟩ := List.pairwise_cons.1 h
    cases hf : Property.find? lines c with
    | none =>
      obtain ⟨missing, rest, rfl, hmissing, hrest⟩ := ih hsorted
      exact ⟨c :: missing, rest, rfl, List.forall_mem_cons.2 ⟨hf, hmissing⟩, hrest⟩
    | some f =>
      have hrest : ∀ b ∈ cursors, ∃ g, Property.find? lines b = some g := by
        intro b hb
        obtain ⟨g, hg, -⟩ := Property.find?_mono (hc b hb) hf
        exact ⟨g, hg⟩
      exact ⟨[], c :: cursors, rfl, by simp, List.forall_mem_cons.2 ⟨⟨f, hf⟩, hrest⟩⟩

theorem nearest_found (h : ∀ c ∈ cursors, ∃ f, Property.find? lines c = some f) :
    List.Forall₂ (Nearest lines) cursors (cursors.filterMap (Property.find? lines)) := by
  induction cursors with
  | nil => exact .nil
  | cons c cursors ih =>
    obtain ⟨⟨f, hf⟩, hrest⟩ := List.forall_mem_cons.1 h
    rw [List.filterMap_cons_some hf]
    exact .cons (Property.find?_eq_some.1 hf) (ih hrest)

theorem pairwise_found (h : cursors.Pairwise (· ≤ ·)) :
    (cursors.filterMap (Property.find? lines)).Pairwise fun f g => f.line ≤ g.line := by
  refine h.filterMap _ ?_
  intro a b hab f hf g hg
  obtain ⟨g', hg', hle⟩ := Property.find?_mono hab hf
  obtain rfl := Option.some.inj (hg'.symm.trans hg)
  exact hle

end Cursors

/-! ## What is left of each -/

section Steps

variable {s : Settings} {kind : AccessorKind} {lines : List Text}

theorem flatMap_renderedAt (cursors : List Int) : cursors.flatMap (renderedAt s kind lines) =
    (cursors.filterMap (Property.find? lines)).flatMap fun f => Render.text s f.property kind := by
  induction cursors with
  | nil => rfl
  | cons c cursors ih =>
    rw [List.flatMap_cons, ih, renderedAt, Property.at?]
    cases hf : Property.find? lines c with
    | none =>
      rw [List.filterMap_cons_none hf]
      rfl
    | some f =>
      rw [List.filterMap_cons_some hf, List.flatMap_cons]
      rfl

theorem flatMap_filter_declared (cursors : List Int) :
    (cursors.filter (Property.declared lines)).flatMap (renderedAt s kind lines) =
      cursors.flatMap (renderedAt s kind lines) := by
  induction cursors with
  | nil => rfl
  | cons c cursors ih =>
    rw [List.filter_cons, List.flatMap_cons, ← ih]
    cases hc : Property.declared lines c with
    | true => rfl
    | false =>
      rw [(renderedAt_eq_nil lines c).2 hc]
      rfl

theorem trace_renderAll (hs : Render.Spaceable s kind) (cursors : List Int) :
    (renderAll s kind lines cursors).trace = cursors.flatMap fun c => (renderAt s kind lines c).trace := by
  induction cursors with
  | nil => rfl
  | cons c cursors ih =>
    unfold renderAll
    rw [(Traced.trace_bind_ok (outcome_renderAt_ok hs lines c) _).1,
      (Traced.trace_bind_ok (outcome_renderAll hs lines cursors) _).1, ih, List.flatMap_cons, Traced.trace_pure,
      List.append_nil]

theorem trace_renderAt_none {c : Int} (h : Property.find? lines c = none) :
    (renderAt s kind lines c).trace = skipped c := by
  unfold renderAt
  rw [h]
  rfl

/-- Of a cursor with a declaration only notices are left. -/
theorem only_renderAt_some {c : Int} {f : Found} (h : Property.find? lines c = some f) :
    Traced.Only (fun e => ∃ n, e = Event.notice n) (renderAt s kind lines c) := by
  unfold renderAt
  rw [h]
  exact (Traced.only_emit ⟨_, rfl⟩).bind fun _ => Traced.only_mapTrace fun n => ⟨n, rfl⟩

end Steps

/-! ## The cursors of a document -/

variable {s : Settings} {d : Document} {kind : AccessorKind}

theorem exists_inOrder (hs : Render.Spaceable s kind) : ∃ missing rest found, InOrder s d kind missing rest found := by
  obtain ⟨missing, rest, hordered, hmissing, hrest⟩ := @exists_missing d.lines _ d.pairwise_ordered
  have hfound : d.ordered.filterMap (Property.find? d.lines) = rest.filterMap (Property.find? d.lines) := by
    rw [hordered, List.filterMap_append, List.filterMap_eq_nil_iff.2 hmissing, List.nil_append]
  refine ⟨missing, rest, rest.filterMap (Property.find? d.lines), hordered, hordered ▸ d.perm_ordered,
    hordered ▸ d.pairwise_ordered, ?_, nearest_found hrest, hfound ▸ pairwise_found d.pairwise_ordered, ?_, ?_,
    rest.flatMap fun c => (renderAt s kind d.lines c).trace, ?_, ?_⟩
  · intro c hc
    exact Property.find?_eq_none.1 (hmissing c hc)
  · intro f _
    rw [Render.outcome_accessors, if_pos hs]
  · unfold collect
    rw [outcome_renderAll hs, flatMap_renderedAt, hfound]
  · intro e he
    obtain ⟨c, hc, he⟩ := List.mem_flatMap.1 he
    obtain ⟨f, hf⟩ := hrest c hc
    exact only_renderAt_some hf e he
  · unfold collect
    rw [trace_renderAll hs, hordered, List.flatMap_append,
      List.flatMap_congr fun c hc => trace_renderAt_none (hmissing c hc)]

theorem collect_perm {e : Document} (hlines : e.lines = d.lines) (h : e.selections.Perm d.selections) :
    collect s e kind = collect s d kind := by
  unfold collect
  rw [hlines, Document.ordered_perm h]

/-- What is collected for the cursors of a document does not depend on their order. From
    the top, those without a declaration at or above them come first; each is reported
    once and adds nothing, and the text is that of the declarations nearest to the others,
    in the order of their lines. More cursors without a declaration, or fewer, leave the
    text as it is. -/
theorem collect_inOrder (hs : Render.Spaceable s kind) :
    (∀ e : Document, e.lines = d.lines → e.selections.Perm d.selections → collect s e kind = collect s d kind) ∧
    (∃ missing rest found, InOrder s d kind missing rest found) ∧
    (∀ (e : Document) (extra : List Int), e.lines = d.lines → e.selections.Perm (extra ++ d.selections) →
      (∀ c ∈ extra, Undeclared d.lines c) → (collect s e kind).outcome = (collect s d kind).outcome) := by
  refine ⟨fun e => collect_perm, exists_inOrder hs, fun e extra hlines hperm hextra => ?_⟩
  have hundeclared : ∀ c ∈ extra, Property.declared d.lines c = false := by
    intro c hc
    rw [← Property.isSome_at?, Property.at?, Property.find?_eq_none.2 (hextra c hc)]
    rfl
  unfold collect
  rw [outcome_renderAll hs, outcome_renderAll hs, hlines, ← flatMap_filter_declared e.ordered,
    ← flatMap_filter_declared d.ordered, Document.filter_ordered hperm hundeclared]

/-- Two declarations below a line without one. -/
def twoDeclared (selections : List Int) : Document := ⟨[[], "$a;".toList, "$b;".toList], languageId, selections, none⟩

theorem collect_inOrder_sample : Render.Spaceable Settings.defaults .both ∧
    Undeclared (twoDeclared []).lines 0 ∧
    (collect Settings.defaults (twoDeclared [9, 0, 1]) .both).outcome =
      (collect Settings.defaults (twoDeclared [1, 9]) .both).outcome := by
  have hs : Render.Spaceable Settings.defaults .both := by decide
  have hnone : Undeclared (twoDeclared []).lines 0 := Property.find?_eq_none.1 (by decide +kernel)
  obtain ⟨-, -, hextra⟩ := @collect_inOrder Settings.defaults (twoDeclared [1, 9]) .both hs
  have hperm : [9, 0, 1].Perm ([0] ++ [1, 9] : List Int) := by decide
  exact ⟨hs, hnone, hextra (twoDeclared [9, 0, 1]) [0] rfl hperm (List.forall_mem_singleton.2 hnone)⟩

end Accessors.Command
