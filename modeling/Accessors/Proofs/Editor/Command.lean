/-
  Accessors.Proofs.Editor.Command — a command that changed its document.

  Up to its insertion a command only gives messages (`prepare_only`). If it answers yes,
  it asked for one insertion, the one that was built, the editor accepted it, and after
  it nothing was done but that the cursor went to its last line, if it should
  (`run_true`).

  `runIn_eq` names the parts of a command: `prepare`, the insertion, and what comes of
  the editor's reply (`settled`).
-/
import Accessors.Editor.Command
import Accessors.Proofs.Trace

namespace Accessors

/-- Whether a user sees the event. -/
def Event.isSeen : Event → Bool
  | .notice _ => false
  | _ => true

/-- The event only says something. -/
def Event.IsMessage (e : Event) : Prop := (∃ n, e = .notice n) ∨ ∃ t, e = .error t

namespace Command

open Traced (Only)

theorem only_tell (t : Text) : Only Event.IsMessage (tell t) := Traced.only_emit (.inr ⟨_, rfl⟩)

theorem only_note (level : Int) (part : String) (message : Text) : Only Event.IsMessage (note level part message) :=
  Traced.only_emit (.inl ⟨_, rfl⟩)

theorem only_quietly {α : Type} (x : Settings.Reading α) : Only Event.IsMessage (quietly x) :=
  Traced.only_mapTrace fun n => .inl ⟨n, rfl⟩

theorem only_renderAt (s : Settings) (kind : AccessorKind) (lines : List Text) (cursor : Int) :
    Only Event.IsMessage (renderAt s kind lines cursor) := by
  unfold renderAt
  split
  · exact (only_note _ _ _).bind fun _ => only_quietly _
  · exact (only_note _ _ _).bind fun _ => (only_tell _).bind fun _ => Traced.only_pure _

theorem only_renderAll (s : Settings) (kind : AccessorKind) (lines : List Text) (cursors : List Int) :
    Only Event.IsMessage (renderAll s kind lines cursors) := by
  induction cursors with
  | nil => exact Traced.only_pure _
  | cons c cursors ih => exact (only_renderAt s kind lines c).bind fun _ => ih.bind fun _ => Traced.only_pure _

theorem only_build (s : Settings) (d : Document) (kind : AccessorKind) : Only Event.IsMessage (build s d kind) := by
  refine (only_renderAll s kind d.lines d.ordered).bind fun text => ?_
  split
  · exact Traced.only_pure _
  · split
    · exact Traced.only_pure _
    · exact Traced.only_pure _

theorem prepare_only (s : Settings) (d : Document) (kind : AccessorKind) : Only Event.IsMessage (prepare s d kind) := by
  refine (only_build s d kind).bind fun r => ?_
  cases r with
  | ok i => exact Traced.only_pure _
  | error o => exact (only_tell _).bind fun _ => Traced.only_pure _

theorem prepare_some {s : Settings} {d : Document} {kind : AccessorKind} {i : Insertion}
    (h : (prepare s d kind).outcome = .ok (some i)) : (build s d kind).outcome = .ok (.ok i) := by
  obtain ⟨r, hr, h⟩ := Traced.bind_eq_ok.1 h
  cases r with
  | ok j =>
    obtain rfl : j = i := Option.some.inj (Except.ok.inj h)
    exact hr
  | error o =>
    obtain ⟨-, -, h⟩ := Traced.bind_eq_ok.1 h
    cases h

/-! ## Behind the insertion -/

/-- The cursor follows an accepted insertion, if it should. -/
def redirected (s : Settings) (i : Insertion) : Step Bool :=
  quietly s.redirect >>= fun v =>
    if v.isTrue then Traced.emit (.goTo i.redirectLine) >>= fun _ => pure true else pure true

/-- What an editor's reply leads to. -/
def settled (s : Settings) (i : Insertion) : Reply → Step Bool
  | .broken fault => Traced.stop fault
  | .failed reason => reportFailure reason
  | .refused => reportFailure rejected
  | .accepted => redirected s i

theorem runIn_eq (s : Settings) (d : Document) (kind : AccessorKind) (editor : Insertion → Reply) :
    runIn s d kind editor = prepare s d kind >>= fun r =>
      r.elim (pure false) fun i => Traced.emit (.insert i) >>= fun _ => settled s i (editor i) := by
  unfold runIn
  congr 1
  funext r
  cases r with
  | none => rfl
  | some i =>
    dsimp only [Option.elim_some]
    congr 1

/-- The setting for the cursor says that it is to follow. -/
def Redirects (s : Settings) : Prop := ∃ v, s.redirect.outcome = .ok v ∧ v.isTrue = true

theorem trace_redirected {s : Settings} {v : Value} (hv : s.redirect.outcome = .ok v) (i : Insertion) :
    (redirected s i).trace =
      s.redirect.trace.map .notice ++ if v.isTrue then [.goTo i.redirectLine] else [] := by
  have hquiet : (quietly s.redirect).outcome = .ok v := hv
  unfold redirected
  rw [(Traced.trace_bind_ok hquiet _).1]
  congr 1
  split <;> rfl

theorem outcome_redirected {s : Settings} {v : Value} (hv : s.redirect.outcome = .ok v) (i : Insertion) :
    (redirected s i).outcome = .ok true := by
  have hquiet : (quietly s.redirect).outcome = .ok v := hv
  unfold redirected
  rw [(Traced.trace_bind_ok hquiet _).2]
  split <;> rfl

/-- What a command did that changed its document. -/
structure Changed (s : Settings) (d : Document) (kind : AccessorKind) (editor : Insertion → Reply) (i : Insertion)
    (events : List Event) : Prop where
  built : (build s d kind).outcome = .ok (.ok i)
  accepted : editor i = .accepted
  once : ∃ before behind, events = before ++ .insert i :: behind ∧ (∀ e ∈ before, e.IsMessage) ∧
    (∀ e ∈ behind, e.IsMessage ∨ e = .goTo i.redirectLine) ∧
    (Redirects s → behind.getLast? = some (.goTo i.redirectLine))

theorem Changed.asked {s : Settings} {d : Document} {kind : AccessorKind} {editor : Insertion → Reply} {i : Insertion}
    {events : List Event} (h : Changed s d kind editor i events) : .insert i ∈ events := by
  obtain ⟨before, behind, hevents, -⟩ := h.once
  rw [hevents]
  exact List.mem_append_right _ List.mem_cons_self

theorem run_true {s : Settings} {d : Document} {kind : AccessorKind} {editor : Insertion → Reply}
    (h : (run s d kind editor).outcome = .ok true) : ∃ i, Changed s d kind editor i (run s d kind editor).trace := by
  unfold run at h ⊢
  by_cases hlanguage : d.languageId = languageId
  · rw [if_pos hlanguage, runIn_eq] at h ⊢
    obtain ⟨r, hr, h⟩ := Traced.bind_eq_ok.1 h
    cases r with
    | none => cases h
    | some i =>
      obtain ⟨-, -, h⟩ := Traced.bind_eq_ok.1 h
      have haccepted : editor i = .accepted := by
        cases hreply : editor i with
        | accepted => rfl
        | broken fault | failed reason | refused =>
          rw [hreply] at h
          cases h
      rw [haccepted] at h
      obtain ⟨v, hv, -⟩ := Traced.bind_eq_ok.1 h
      refine ⟨i, prepare_some hr, haccepted, (prepare s d kind).trace, (redirected s i).trace, ?_,
        prepare_only s d kind, ?_, ?_⟩
      · rw [(Traced.trace_bind_ok hr _).1, Option.elim_some, haccepted]
        rfl
      · intro e he
        rw [trace_redirected hv] at he
        rcases List.mem_append.1 he with he | he
        · exact .inl (only_quietly s.redirect e he)
        · split at he
          · exact .inr (List.mem_singleton.1 he)
          · cases he
      · intro hredirects
        obtain ⟨w, hw, htrue⟩ := hredirects
        obtain rfl : v = w := Except.ok.inj (hv.symm.trans hw)
        rw [trace_redirected hv, htrue, if_pos rfl, List.getLast?_append]
        rfl
  · rw [if_neg hlanguage] at h
    cases h

theorem run_of_accepted {s : Settings} {d : Document} {kind : AccessorKind} {editor : Insertion → Reply} {i : Insertion}
    (hlanguage : d.languageId = languageId) (hbuilt : (build s d kind).outcome = .ok (.ok i))
    (haccepted : editor i = .accepted) {v : Value} (hv : s.redirect.outcome = .ok v) :
    (run s d kind editor).outcome = .ok true := by
  have hprepare : (prepare s d kind).outcome = .ok (some i) := Traced.bind_eq_ok.2 ⟨_, hbuilt, rfl⟩
  unfold run
  rw [if_pos hlanguage, runIn_eq]
  refine Traced.bind_eq_ok.2 ⟨_, hprepare, Traced.bind_eq_ok.2 ⟨(), rfl, ?_⟩⟩
  rw [haccepted]
  exact outcome_redirected hv i

end Command

end Accessors
