/-
  Accessors.Proofs.Editor.Calls — what a command asks of its editor, call by call.

  Of a command an editor is asked for what its user sees: errors, an insertion, a line to
  go to. With counts of spaces that can be held, the calls of every step are told at once
  (`keep_renderAt`, `keep_renderAll`, `keep_build`, `keep_settled`), and so are those of
  a whole command: an error for each cursor with nothing declared at or above it, then
  what stands in the way (`Aim`), or the insertion and what its reply leads to (`behind`).
  That nothing is declared shows in a text that is empty, as accessors never are
  (`renderedAt_eq_nil`).
  - `runIn_calls`: these are the calls of a command and its answer; so it answers yes if
    and only if the insertion was accepted, goes to a line only behind an insertion that
    was, and has shown an error if it answers no.
-/
import Accessors.Proofs.Editor.Answer

namespace Accessors.Command

/-- The error, as an editor is asked to show it. -/
def shown (t : Text) : Event := .error (Message.error t)

/-- An error for each of the cursors with nothing declared at or above it. -/
def passedOver (lines : List Text) (cursors : List Int) : List Event :=
  (cursors.filter fun c => !Property.declared lines c).map fun _ => shown noProperty

/-- What a document gives a command to insert, or the obstacle that it is. -/
inductive Aim (s : Settings) (d : Document) (kind : AccessorKind) : Except Obstacle Insertion → Prop where
  | nothingToInsert : (∀ c ∈ d.selections, Property.declared d.lines c = false) →
      Aim s d kind (.error .nothingToInsert)
  | noClosingBrace : (∃ c ∈ d.selections, Property.declared d.lines c = true) → (∀ l ∈ d.lines, ¬StartsWithBrace l) →
      Aim s d kind (.error .noClosingBrace)
  | insertion {above below : List Text} {brace : Text} : (∃ c ∈ d.selections, Property.declared d.lines c = true) →
      d.lines = above ++ brace :: below → StartsWithBrace brace → (∀ l ∈ below, ¬StartsWithBrace l) →
      Aim s d kind (.ok ⟨above.length, d.ordered.flatMap (renderedAt s kind d.lines)⟩)

/-- What is asked for behind an insertion, and the answer, by the editor's reply. -/
def behind (s : Settings) (i : Insertion) : Reply → Step Bool
  | .accepted => ⟨if s.follows then [.goTo i.redirectLine] else [], .ok true⟩
  | .refused => ⟨[shown (generationError rejected)], .ok false⟩
  | .failed reason => ⟨[shown (generationError reason)], .ok false⟩
  | .broken fault => ⟨[], .error fault⟩

/-- The calls of a command with an aim, and its answer. -/
def calls (s : Settings) (d : Document) (editor : Insertion → Reply) : Except Obstacle Insertion → Step Bool
  | .error o => ⟨passedOver d.lines d.ordered ++ [shown o.message], .ok false⟩
  | .ok i => ⟨passedOver d.lines d.ordered ++ .insert i :: (behind s i (editor i)).trace,
      (behind s i (editor i)).outcome⟩

/-! ## The calls of each step -/

section Steps

variable {s : Settings} {kind : AccessorKind}

theorem keep_quietly {α : Type} (x : Settings.Reading α) : (quietly x).keep Event.isSeen = Traced.ofExcept x.outcome := by
  have hnone : (x.trace.map Event.notice).filter Event.isSeen = [] := by
    rw [List.filter_eq_nil_iff]
    intro e he
    obtain ⟨n, -, rfl⟩ := List.mem_map.1 he
    exact Bool.false_ne_true
  show (⟨(x.trace.map Event.notice).filter Event.isSeen, x.outcome⟩ : Step α) = _
  rw [hnone]
  rfl

theorem passedOver_singleton (lines : List Text) (c : Int) :
    passedOver lines [c] = (Property.at? lines c).elim [shown noProperty] fun _ => [] := by
  unfold passedOver
  rw [List.filter_singleton, ← Property.isSome_at?]
  cases Property.at? lines c <;> rfl

theorem keep_renderAt (hs : Render.Spaceable s kind) (lines : List Text) (c : Int) :
    (renderAt s kind lines c).keep Event.isSeen = ⟨passedOver lines [c], .ok (renderedAt s kind lines c)⟩ := by
  rw [passedOver_singleton]
  unfold renderAt renderedAt Property.at?
  cases Property.find? lines c with
  | none => rfl
  | some found =>
    show (note _ _ _ >>= fun _ => quietly (Render.accessors s found.property kind)).keep Event.isSeen = _
    rw [Traced.keep_bind, keep_quietly, Render.outcome_accessors, if_pos hs]
    rfl

theorem passedOver_cons (lines : List Text) (c : Int) (cursors : List Int) :
    passedOver lines (c :: cursors) = passedOver lines [c] ++ passedOver lines cursors := by
  unfold passedOver
  rw [← List.map_append, ← List.filter_append]
  rfl

theorem keep_renderAll (hs : Render.Spaceable s kind) (lines : List Text) (cursors : List Int) :
    (renderAll s kind lines cursors).keep Event.isSeen =
      ⟨passedOver lines cursors, .ok (cursors.flatMap (renderedAt s kind lines))⟩ := by
  induction cursors with
  | nil => rfl
  | cons c cursors ih =>
    unfold renderAll
    rw [Traced.keep_bind, keep_renderAt hs, Traced.mk_ok_bind, Traced.keep_bind, ih, Traced.mk_ok_bind,
      passedOver_cons lines c cursors]
    show (⟨passedOver lines [c] ++ (passedOver lines cursors ++ []), .ok _⟩ : Step Text) = _
    rw [List.append_nil]
    rfl

theorem keep_settled (s : Settings) (i : Insertion) (r : Reply) : (settled s i r).keep Event.isSeen = behind s i r := by
  cases r with
  | broken fault | failed reason | refused => rfl
  | accepted =>
    show (redirected s i).keep Event.isSeen = _
    unfold redirected behind
    rw [Traced.keep_bind, keep_quietly, s.outcome_redirect]
    cases s.follows <;> rfl

end Steps

/-! ## The calls of a command -/

section Command

variable {s : Settings} {d : Document} {kind : AccessorKind} {editor : Insertion → Reply}

theorem renderedAt_eq_nil (lines : List Text) (c : Int) :
    renderedAt s kind lines c = [] ↔ Property.declared lines c = false := by
  rw [← Property.isSome_at?]
  unfold renderedAt
  cases Property.at? lines c with
  | none => exact ⟨fun _ => rfl, fun _ => rfl⟩
  | some p =>
    have hgetter : Render.spacedGetter s p ≠ [] := by
      unfold Render.spacedGetter
      exact Render.getterText_ne_nil p _
    have hsetter : Render.spacedSetter s p ≠ [] := by
      unfold Render.spacedSetter
      exact Render.setterText_ne_nil p _ _ _
    have htext : Render.text s p kind ≠ [] := by
      cases kind with
      | getter => exact hgetter
      | setter => exact hsetter
      | both => exact List.append_ne_nil_of_left_ne_nil hgetter _
    exact ⟨fun h => absurd h htext, fun h => by cases h⟩

/-- Nothing is rendered if and only if nothing is declared at or above any cursor. -/
theorem rendered_eq_nil :
    d.ordered.flatMap (renderedAt s kind d.lines) = [] ↔ ∀ c ∈ d.selections, Property.declared d.lines c = false := by
  rw [List.flatMap_eq_nil_iff]
  simp only [renderedAt_eq_nil, d.perm_ordered.mem_iff]

theorem closingLine?_eq_none {lines : List Text} (h : closingLine? lines = none) : ∀ l ∈ lines, ¬StartsWithBrace l := by
  intro l hl hbrace
  obtain ⟨above, b, below, hcut, hb, hbelow⟩ := exists_last ⟨l, hl, hbrace⟩
  rw [hcut, closingLine?_cut hb hbelow] at h
  cases h

/-- The steps up to the insertion. -/
theorem keep_build (hs : Render.Spaceable s kind) :
    ∃ aim, Aim s d kind aim ∧ (build s d kind).keep Event.isSeen = ⟨passedOver d.lines d.ordered, .ok aim⟩ := by
  unfold build collect
  rw [Traced.keep_bind, keep_renderAll hs, Traced.mk_ok_bind]
  by_cases hnothing : ∀ c ∈ d.selections, Property.declared d.lines c = false
  · refine ⟨.error .nothingToInsert, .nothingToInsert hnothing, ?_⟩
    rw [rendered_eq_nil.2 hnothing]
    show (⟨_ ++ [], _⟩ : Step (Except Obstacle Insertion)) = _
    rw [List.append_nil]
    rfl
  · have hsome : ∃ c ∈ d.selections, Property.declared d.lines c = true := by simpa using hnothing
    have htext : (d.ordered.flatMap (renderedAt s kind d.lines)).isEmpty = false := by
      rw [List.isEmpty_eq_false_iff]
      exact fun h => hnothing (rendered_eq_nil.1 h)
    rw [htext]
    cases hL : closingLine? d.lines with
    | none =>
      refine ⟨.error .noClosingBrace, .noClosingBrace hsome (closingLine?_eq_none hL), ?_⟩
      show (⟨_ ++ [], _⟩ : Step (Except Obstacle Insertion)) = _
      rw [List.append_nil]
      rfl
    | some L =>
      obtain ⟨above, b, below, hcut, rfl, hb, hbelow⟩ := closingLine?_iff.1 hL
      refine ⟨_, .insertion hsome hcut hb hbelow, ?_⟩
      show (⟨_ ++ [], _⟩ : Step (Except Obstacle Insertion)) = _
      rw [List.append_nil]
      rfl

theorem keep_runIn (hs : Render.Spaceable s kind) :
    ∃ aim, Aim s d kind aim ∧ (runIn s d kind editor).keep Event.isSeen = calls s d editor aim := by
  obtain ⟨aim, haim, hbuild⟩ := keep_build (d := d) hs
  refine ⟨aim, haim, ?_⟩
  rw [runIn_eq, Traced.keep_bind]
  unfold prepare
  rw [Traced.keep_bind, hbuild]
  cases aim with
  | error o =>
    show (⟨passedOver d.lines d.ordered ++ [shown o.message] ++ [], .ok false⟩ : Step Bool) = _
    rw [List.append_nil]
    rfl
  | ok i =>
    have hsettled := keep_settled s i (editor i)
    show (⟨passedOver d.lines d.ordered ++ [] ++ .insert i :: ((settled s i (editor i)).keep Event.isSeen).trace,
      ((settled s i (editor i)).keep Event.isSeen).outcome⟩ : Step Bool) = _
    rw [hsettled, List.append_nil]
    rfl

/-! ## What they say of the answer -/

theorem mem_keep {α : Type} {e : Event} (he : e.isSeen = true) (x : Step α) :
    e ∈ x.trace ↔ e ∈ (x.keep Event.isSeen).trace :=
  ⟨fun h => List.mem_filter.2 ⟨h, he⟩, fun h => (List.mem_filter.1 h).1⟩

theorem mem_passedOver {lines : List Text} {cursors : List Int} {e : Event} (h : e ∈ passedOver lines cursors) :
    e = shown noProperty := by
  obtain ⟨c, -, rfl⟩ := List.mem_map.1 h
  rfl

/-- Behind an insertion there is an error, or the one line that an accepted insertion is
    followed to. -/
theorem mem_behind {i : Insertion} {r : Reply} {e : Event} (h : e ∈ (behind s i r).trace) :
    (∃ t, e = shown t) ∨ r = .accepted ∧ e = .goTo i.redirectLine ∧ (behind s i r).trace = [.goTo i.redirectLine] := by
  cases r with
  | broken fault => cases h
  | refused | failed reason => exact .inl ⟨_, List.mem_singleton.1 h⟩
  | accepted =>
    change e ∈ if s.follows then [Event.goTo i.redirectLine] else [] at h
    have htrace : (behind s i .accepted).trace = if s.follows then [.goTo i.redirectLine] else [] := rfl
    split at h
    · rename_i hfollows
      rw [if_pos hfollows] at htrace
      exact .inr ⟨rfl, List.mem_singleton.1 h, htrace⟩
    · cases h

section Aim

variable {aim : Except Obstacle Insertion}

theorem insert_mem_calls {i : Insertion} : .insert i ∈ (calls s d editor aim).trace ↔ aim = .ok i := by
  constructor
  · intro h
    cases aim with
    | error o =>
      rcases List.mem_append.1 h with h | h
      · cases mem_passedOver h
      · cases List.mem_singleton.1 h
    | ok j =>
      rcases List.mem_append.1 h with h | h
      · cases mem_passedOver h
      · rcases List.mem_cons.1 h with h | h
        · rw [Event.insert.inj h]
        · rcases mem_behind h with ⟨t, ht⟩ | ⟨-, hgoTo, -⟩
          · cases ht
          · cases hgoTo
  · intro h
    rw [h]
    exact List.mem_append_right _ List.mem_cons_self

theorem calls_eq_true :
    (calls s d editor aim).outcome = .ok true ↔ ∃ i, .insert i ∈ (calls s d editor aim).trace ∧ editor i = .accepted := by
  simp only [insert_mem_calls]
  constructor
  · intro h
    cases aim with
    | error o => cases h
    | ok i =>
      refine ⟨i, rfl, ?_⟩
      change (behind s i (editor i)).outcome = .ok true at h
      cases hr : editor i with
      | accepted => rfl
      | broken fault | refused | failed reason =>
        rw [hr] at h
        cases h
  · intro h
    obtain ⟨i, rfl, hr⟩ := h
    show (behind s i (editor i)).outcome = .ok true
    rw [hr]
    rfl

theorem calls_goTo {line : Int} (h : .goTo line ∈ (calls s d editor aim).trace) :
    ∃ i, editor i = .accepted ∧ line = i.redirectLine ∧
      (calls s d editor aim).trace = passedOver d.lines d.ordered ++ [.insert i, .goTo line] := by
  cases aim with
  | error o =>
    rcases List.mem_append.1 h with h | h
    · cases mem_passedOver h
    · cases List.mem_singleton.1 h
  | ok i =>
    rcases List.mem_append.1 h with h | h
    · cases mem_passedOver h
    · rcases List.mem_cons.1 h with h | h
      · cases h
      · rcases mem_behind h with ⟨t, ht⟩ | ⟨hr, hgoTo, htrace⟩
        · cases ht
        · obtain rfl := Event.goTo.inj hgoTo
          refine ⟨i, hr, rfl, ?_⟩
          show passedOver d.lines d.ordered ++ .insert i :: (behind s i (editor i)).trace = _
          rw [htrace]

end Aim

/-- The calls of a command on any document, with any editor: an error for each cursor with
    nothing declared at or above it; then one for the obstacle, and the answer no; or the
    insertion and, by the reply, an error and the answer no, or the line to go to, if the
    cursor follows, and the answer yes. So the answer is yes if and only if the insertion
    was accepted, a line is gone to only behind an accepted insertion, and no one hears no
    without an error. -/
theorem runIn_calls (hs : Render.Spaceable s kind) :
    (∃ aim, Aim s d kind aim ∧ (runIn s d kind editor).keep Event.isSeen = calls s d editor aim) ∧
    ((runIn s d kind editor).outcome = .ok true ↔
      ∃ i, .insert i ∈ (runIn s d kind editor).trace ∧ editor i = .accepted) ∧
    (∀ line, .goTo line ∈ (runIn s d kind editor).trace → ∃ i, editor i = .accepted ∧ line = i.redirectLine ∧
      ((runIn s d kind editor).keep Event.isSeen).trace =
        passedOver d.lines d.ordered ++ [.insert i, .goTo line]) ∧
    ((runIn s d kind editor).outcome = .ok false → ∃ t, .error t ∈ (runIn s d kind editor).trace) := by
  obtain ⟨aim, haim, hcalls⟩ := @keep_runIn s d kind editor hs
  have hmem : ∀ e : Event, e.isSeen = true →
      (e ∈ (runIn s d kind editor).trace ↔ e ∈ (calls s d editor aim).trace) := by
    intro e he
    rw [mem_keep he, hcalls]
  refine ⟨⟨aim, haim, hcalls⟩, ?_, ?_, runIn_false_told⟩
  · have houtcome : (runIn s d kind editor).outcome = (calls s d editor aim).outcome := by
      rw [← hcalls]
      rfl
    rw [houtcome, calls_eq_true]
    constructor
    · rintro ⟨i, hi, hr⟩
      exact ⟨i, (hmem _ rfl).2 hi, hr⟩
    · rintro ⟨i, hi, hr⟩
      exact ⟨i, (hmem _ rfl).1 hi, hr⟩
  · intro line hline
    obtain ⟨i, hr, hredirect, htrace⟩ := calls_goTo ((hmem _ rfl).1 hline)
    exact ⟨i, hr, hredirect, hcalls ▸ htrace⟩

end Command

/-- A property and its closing brace: the accessors go in, and the cursor follows them. -/
theorem runIn_calls_sample : Render.Spaceable Settings.defaults .both ∧ ∃ i,
    ((runIn Settings.defaults sampleDocument .both fun _ => .accepted).keep Event.isSeen).trace =
      [.insert i, .goTo i.redirectLine] := by
  have hs : Render.Spaceable Settings.defaults .both := by decide
  have hdeclared : Property.declared sampleDocument.lines 0 = true := by decide +kernel
  obtain ⟨⟨aim, haim, hcalls⟩, -⟩ := @runIn_calls Settings.defaults sampleDocument .both (fun _ => .accepted) hs
  have hpassed : passedOver sampleDocument.lines sampleDocument.ordered = [] := by
    show passedOver sampleDocument.lines [0] = []
    unfold passedOver
    rw [List.filter_singleton, hdeclared]
    rfl
  have htrace : ∀ i, (calls Settings.defaults sampleDocument (fun _ => .accepted) (.ok i)).trace =
      [.insert i, .goTo i.redirectLine] := by
    intro i
    rw [calls, hpassed]
    rfl
  cases haim with
  | nothingToInsert h =>
    rw [h 0 List.mem_cons_self] at hdeclared
    cases hdeclared
  | noClosingBrace _ h => exact absurd (by unfold StartsWithBrace; decide) (h ['\x7d'] (by decide))
  | insertion _ _ _ _ => exact ⟨hs, _, (congrArg Traced.trace hcalls).trans (htrace _)⟩

end Accessors.Command
