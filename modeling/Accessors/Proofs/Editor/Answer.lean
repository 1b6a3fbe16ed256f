/-
  Accessors.Proofs.Editor.Answer — whether a command answers.

  With an editor that does not itself come to a stop, one thing alone stops a command: an
  accessor to be rendered with more spaces than can be held (`Overfull`). Up to the
  insertion the steps are gone through one by one (`renderAt_eq_error`,
  `renderAll_eq_error`, `prepare_eq_error`); behind it nothing fails (`settled_ok`).
  - `run_answers_iff`: a command answers yes or no unless it is overfull, and then it stops
    at that fault.
-/
import Accessors.Proofs.Editor.Build
import Accessors.Proofs.Editor.Command

namespace Accessors.Command

/-- A property is found, and one of the counts that its accessors are spaced by is too
    great. -/
structure Overfull (s : Settings) (d : Document) (kind : AccessorKind) : Prop where
  language : d.languageId = languageId
  found : ∃ c ∈ d.selections, (Property.find? d.lines c).isSome = true
  count : ∃ key ∈ Render.spacing kind, Settings.countLimit ≤ s.count key

section Fault

variable {s : Settings} {kind : AccessorKind} {lines : List Text} {fault : Fault}

theorem not_spaceable_iff : ¬Render.Spaceable s kind ↔ ∃ key ∈ Render.spacing kind, Settings.countLimit ≤ s.count key := by
  unfold Render.Spaceable
  simp only [not_forall, not_lt, exists_prop]

theorem renderAt_eq_error {c : Int} : (renderAt s kind lines c).outcome = .error fault ↔
    fault = .countTooLarge ∧ ¬Render.Spaceable s kind ∧ (Property.find? lines c).isSome = true := by
  rw [outcome_renderAt, Property.at?]
  cases Property.find? lines c with
  | none => simp
  | some found =>
    show (Render.accessors s found.property kind).outcome = .error fault ↔ _
    rw [Render.outcome_accessors]
    by_cases h : Render.Spaceable s kind
    · simp [h]
    · simp [h, eq_comm]

/-- One cursor with a property is enough to stop at. -/
theorem renderAll_eq_error {cursors : List Int} : (renderAll s kind lines cursors).outcome = .error fault ↔
    fault = .countTooLarge ∧ ¬Render.Spaceable s kind ∧ ∃ c ∈ cursors, (Property.find? lines c).isSome = true := by
  induction cursors with
  | nil =>
    constructor
    · intro h
      cases h
    · intro h
      obtain ⟨-, -, c, hc, -⟩ := h
      cases hc
  | cons c cursors ih =>
    rw [renderAll, Traced.bind_eq_error, renderAt_eq_error]
    have hrest : ∀ t : Text, (renderAll s kind lines cursors >>= fun ts => pure (t ++ ts)).outcome = .error fault ↔
        (renderAll s kind lines cursors).outcome = .error fault := by
      intro t
      rw [Traced.bind_eq_error]
      constructor
      · rintro (h | ⟨ts, -, h⟩)
        · exact h
        · cases h
      · exact .inl
    constructor
    · rintro (⟨hf, hs, hfound⟩ | ⟨t, -, h⟩)
      · exact ⟨hf, hs, c, List.mem_cons_self, hfound⟩
      · obtain ⟨hf, hs, e, he, hfound⟩ := ih.1 ((hrest t).1 h)
        exact ⟨hf, hs, e, List.mem_cons_of_mem _ he, hfound⟩
    · rintro ⟨hf, hs, e, he, hfound⟩
      rcases List.mem_cons.1 he with rfl | he
      · exact .inl ⟨hf, hs, hfound⟩
      · cases ht : (renderAt s kind lines c).outcome with
        | error fault' =>
          obtain ⟨-, -, hc⟩ := renderAt_eq_error.1 ht
          exact .inl ⟨hf, hs, hc⟩
        | ok t => exact .inr ⟨t, rfl, (hrest t).2 (ih.2 ⟨hf, hs, e, he, hfound⟩)⟩

theorem prepare_eq_error {d : Document} : (prepare s d kind).outcome = .error fault ↔
    fault = .countTooLarge ∧ ¬Render.Spaceable s kind ∧
      ∃ c ∈ d.selections, (Property.find? d.lines c).isSome = true := by
  have hcollect : (collect s d kind).outcome = .error fault ↔ fault = .countTooLarge ∧ ¬Render.Spaceable s kind ∧
      ∃ c ∈ d.selections, (Property.find? d.lines c).isSome = true := by
    unfold collect
    rw [renderAll_eq_error]
    simp only [d.perm_ordered.mem_iff]
  have hbuild : (build s d kind).outcome = .error fault ↔ (collect s d kind).outcome = .error fault := by
    unfold build
    rw [Traced.bind_eq_error]
    constructor
    · rintro (h | ⟨t, -, h⟩)
      · exact h
      · split at h
        · cases h
        · split at h <;> cases h
    · exact .inl
  rw [← hcollect, ← hbuild]
  unfold prepare
  rw [Traced.bind_eq_error]
  constructor
  · rintro (h | ⟨r, -, h⟩)
    · exact h
    · cases r <;> cases h
  · exact .inl

end Fault

/-! ## Behind the insertion -/

variable {s : Settings} {d : Document} {kind : AccessorKind} {editor : Insertion → Reply}

theorem settled_ok (i : Insertion) {r : Reply} (hr : ∀ fault, r ≠ .broken fault) :
    ∃ yes, (settled s i r).outcome = .ok yes := by
  cases r with
  | broken fault => exact absurd rfl (hr fault)
  | failed reason => exact ⟨false, rfl⟩
  | refused => exact ⟨false, rfl⟩
  | accepted =>
    obtain ⟨b, hb⟩ := s.redirect_ok
    exact ⟨true, outcome_redirected hb i⟩

section Unbroken

variable (he : ∀ i, (build s d kind).outcome = .ok (.ok i) → ∀ fault, editor i ≠ .broken fault)
include he

theorem runIn_eq_error {fault : Fault} :
    (runIn s d kind editor).outcome = .error fault ↔ (prepare s d kind).outcome = .error fault := by
  rw [runIn_eq, Traced.bind_eq_error]
  constructor
  · rintro (h | ⟨r, hr, h⟩)
    · exact h
    · cases r with
      | none => cases h
      | some i =>
        obtain ⟨yes, hyes⟩ := settled_ok (s := s) i (he i (prepare_some hr))
        have hok : (Traced.emit (.insert i) >>= fun _ => settled s i (editor i)).outcome = .ok yes := hyes
        cases hok.symm.trans h
  · exact .inl

theorem run_eq_error {fault : Fault} :
    (run s d kind editor).outcome = .error fault ↔ fault = .countTooLarge ∧ Overfull s d kind := by
  unfold run
  by_cases hl : d.languageId = languageId
  · rw [if_pos hl, runIn_eq_error he, prepare_eq_error, not_spaceable_iff]
    constructor
    · rintro ⟨hf, hcount, hfound⟩
      exact ⟨hf, hl, hfound, hcount⟩
    · rintro ⟨hf, -, hfound, hcount⟩
      exact ⟨hf, hcount, hfound⟩
  · rw [if_neg hl]
    constructor
    · intro h
      cases h
    · intro h
      exact absurd h.2.language hl

end Unbroken

/-- A command answers yes or no, whatever its document, its settings and its editor, unless
    an accessor is to be rendered with more spaces than can be held. -/
theorem run_answers_iff (he : ∀ i fault, editor i ≠ .broken fault) :
    ((∃ yes, (run s d kind editor).outcome = .ok yes) ↔ ¬Overfull s d kind) ∧
      (Overfull s d kind → (run s d kind editor).outcome = .error .countTooLarge) := by
  have hbuilt : ∀ i, (build s d kind).outcome = .ok (.ok i) → ∀ fault, editor i ≠ .broken fault := fun i _ => he i
  refine ⟨⟨?_, ?_⟩, fun h => (run_eq_error hbuilt).2 ⟨rfl, h⟩⟩
  · rintro ⟨yes, hyes⟩ h
    cases hyes.symm.trans ((run_eq_error hbuilt).2 ⟨rfl, h⟩)
  · intro h
    cases ho : (run s d kind editor).outcome with
    | ok yes => exact ⟨yes, rfl⟩
    | error fault => exact absurd ((run_eq_error hbuilt).1 ho).2 h

/-- A run of spaces longer than can be held, behind one tag. -/
def overfullSettings : Settings := Settings.ofEntries [(Settings.spacesAfterReturn, .int Settings.countLimit)]

def sampleDocument : Document := Document.ofText sample [0] languageId none

theorem run_answers_sample : (∀ i fault, (fun _ => Reply.refused : Insertion → Reply) i ≠ .broken fault) ∧
    (∃ yes, (run Settings.defaults sampleDocument .both fun _ => .refused).outcome = .ok yes) ∧
      (run overfullSettings sampleDocument .both fun _ => .refused).outcome = .error .countTooLarge := by
  have he : ∀ i fault, (fun _ => Reply.refused : Insertion → Reply) i ≠ .broken fault := by
    intro i fault h
    cases h
  have hfits : ¬Overfull Settings.defaults sampleDocument .both := by
    intro h
    exact absurd h.count (by decide)
  have hover : Overfull overfullSettings sampleDocument .both :=
    ⟨rfl, ⟨0, by decide, by decide +kernel⟩, Settings.spacesAfterReturn, by decide, by decide⟩
  exact ⟨he, (run_answers_iff he).1.2 hfits, (run_answers_iff he).2 hover⟩

/-- So a command is stopped that an editor would have carried out. -/
theorem run_stops : ¬∃ yes, (run overfullSettings sampleDocument .getter fun _ => .accepted).outcome = .ok yes := by
  have he : ∀ i, (build overfullSettings sampleDocument .getter).outcome = .ok (.ok i) → ∀ fault,
      (fun _ => Reply.accepted : Insertion → Reply) i ≠ .broken fault := by
    intro i _ fault h
    cases h
  have hover : Overfull overfullSettings sampleDocument .getter :=
    ⟨rfl, ⟨0, by decide, by decide +kernel⟩, Settings.spacesAfterReturn, by decide, by decide⟩
  rintro ⟨yes, hyes⟩
  cases hyes.symm.trans ((run_eq_error he).2 ⟨rfl, hover⟩)

/-! ## What a command shows -/

/-- A command that comes to no insertion has told its user why. -/
theorem prepare_none_told (h : (prepare s d kind).outcome = .ok none) : ∃ t, .error t ∈ (prepare s d kind).trace := by
  obtain ⟨r, hr, h⟩ := Traced.bind_eq_ok.1 h
  cases r with
  | ok i => cases h
  | error o =>
    refine ⟨Message.error o.message, ?_⟩
    unfold prepare
    rw [(Traced.trace_bind_ok hr _).1]
    exact List.mem_append_right _ List.mem_cons_self

theorem settled_false_told {i : Insertion} {r : Reply} (h : (settled s i r).outcome = .ok false) :
    ∃ t, .error t ∈ (settled s i r).trace := by
  cases r with
  | broken fault => cases h
  | failed reason => exact ⟨Message.error (generationError reason), List.mem_cons_of_mem _ List.mem_cons_self⟩
  | refused => exact ⟨Message.error (generationError rejected), List.mem_cons_of_mem _ List.mem_cons_self⟩
  | accepted =>
    obtain ⟨b, hb⟩ := s.redirect_ok
    cases h.symm.trans (outcome_redirected hb i)

/-- A command that answers no has shown an error. -/
theorem runIn_false_told (h : (runIn s d kind editor).outcome = .ok false) :
    ∃ t, .error t ∈ (runIn s d kind editor).trace := by
  rw [runIn_eq] at h ⊢
  obtain ⟨r, hr, h⟩ := Traced.bind_eq_ok.1 h
  rw [(Traced.trace_bind_ok hr _).1]
  cases r with
  | none =>
    obtain ⟨t, ht⟩ := prepare_none_told hr
    exact ⟨t, List.mem_append_left _ ht⟩
  | some i =>
    obtain ⟨-, -, h⟩ := Traced.bind_eq_ok.1 h
    obtain ⟨t, ht⟩ := settled_false_told h
    exact ⟨t, List.mem_append_right _ (List.mem_cons_of_mem _ ht)⟩

theorem run_false_told (h : (run s d kind editor).outcome = .ok false) :
    ∃ t, .error t ∈ (run s d kind editor).trace := by
  unfold run at h ⊢
  by_cases hl : d.languageId = languageId
  · rw [if_pos hl] at h ⊢
    exact runIn_false_told h
  · rw [if_neg hl]
    exact ⟨Message.error notApplicable, List.mem_cons_self⟩

/-- Besides messages there is the insertion that was built, and the line behind it. -/
theorem run_events : ∀ e ∈ (run s d kind editor).trace, e.IsMessage ∨
    ∃ i, (build s d kind).outcome = .ok (.ok i) ∧ (e = .insert i ∨ e = .goTo i.redirectLine) := by
  have hsettled : ∀ (i : Insertion) (r : Reply), ∀ e ∈ (settled s i r).trace,
      e.IsMessage ∨ e = .goTo i.redirectLine := by
    intro i r e he
    cases r with
    | broken fault => cases he
    | failed reason | refused =>
      refine .inl (((only_note _ _ _).bind fun _ => (only_tell _).bind fun _ => Traced.only_pure _) e he)
    | accepted =>
      obtain ⟨b, hb⟩ := s.redirect_ok
      have he' : e ∈ (redirected s i).trace := he
      rw [trace_redirected hb] at he'
      rcases List.mem_append.1 he' with he' | he'
      · exact .inl (only_quietly s.redirect e he')
      · split at he'
        · exact .inr (List.mem_singleton.1 he')
        · cases he'
  intro e he
  unfold run at he
  by_cases hl : d.languageId = languageId
  · rw [if_pos hl, runIn_eq, Traced.trace_bind] at he
    rcases List.mem_append.1 he with he | he
    · exact .inl (prepare_only s d kind e he)
    · cases hr : (prepare s d kind).outcome with
      | error fault =>
        rw [hr] at he
        cases he
      | ok r =>
        rw [hr] at he
        cases r with
        | none => cases he
        | some i =>
          rcases List.mem_cons.1 he with rfl | he
          · exact .inr ⟨i, prepare_some hr, .inl rfl⟩
          · rcases hsettled i _ e he with he | he
            · exact .inl he
            · exact .inr ⟨i, prepare_some hr, .inr he⟩
  · rw [if_neg hl] at he
    exact .inl ((only_tell _).bind (fun _ => Traced.only_pure _) e he)

/-- An insertion that is asked for is the one that was built, and once it is accepted the
    command answers yes. -/
theorem run_insert {i : Insertion} (h : .insert i ∈ (run s d kind editor).trace) :
    (build s d kind).outcome = .ok (.ok i) ∧ (editor i = .accepted → (run s d kind editor).outcome = .ok true) := by
  have hbuilt : (build s d kind).outcome = .ok (.ok i) := by
    rcases run_events _ h with (⟨n, hn⟩ | ⟨t, ht⟩) | ⟨j, hj, hi | hg⟩
    · cases hn
    · cases ht
    · rw [Event.insert.inj hi, hj]
    · cases hg
  refine ⟨hbuilt, fun haccepted => ?_⟩
  have hlanguage : d.languageId = languageId := by
    by_cases hl : d.languageId = languageId
    · exact hl
    · unfold run at h
      rw [if_neg hl] at h
      cases List.mem_singleton.1 h
  exact run_of_accepted hlanguage hbuilt haccepted s.outcome_redirect

end Accessors.Command
