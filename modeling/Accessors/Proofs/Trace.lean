/-
  Accessors.Proofs.Trace — what comes of two steps, and what they leave.

  Both are told from the steps one by one: `outcome_bind`, `trace_bind`. A step that comes
  to a value came through each of its parts (`bind_eq_ok`), one that stops did so in the
  first of them that stops (`bind_eq_error`), and events are of a kind if those of each
  part are (`Only.bind`).
-/
import Accessors.Trace
import Mathlib.Init

namespace Accessors.Traced

variable {ε δ φ α β γ : Type}

theorem outcome_bind (x : Traced ε φ α) (f : α → Traced ε φ β) :
    (x >>= f).outcome = x.outcome.bind fun a => (f a).outcome := by
  show (Traced.bind x f).outcome = _
  unfold Traced.bind
  cases x.outcome with
  | ok a => rfl
  | error e => rfl

/-- A step that came to a value leaves what it did before what the next one does. -/
theorem mk_ok_bind (trace : List ε) (a : α) (f : α → Traced ε φ β) :
    ((⟨trace, .ok a⟩ : Traced ε φ α) >>= f) = ⟨trace ++ (f a).trace, (f a).outcome⟩ := rfl

theorem trace_bind (x : Traced ε φ α) (f : α → Traced ε φ β) :
    (x >>= f).trace = x.trace ++ x.outcome.toOption.elim [] fun a => (f a).trace := by
  show (Traced.bind x f).trace = _
  unfold Traced.bind
  cases x.outcome with
  | ok a => rfl
  | error e => exact (List.append_nil _).symm

theorem bind_eq_ok {x : Traced ε φ α} {f : α → Traced ε φ β} {b : β} :
    (x >>= f).outcome = .ok b ↔ ∃ a, x.outcome = .ok a ∧ (f a).outcome = .ok b := by
  rw [outcome_bind]
  cases x.outcome with
  | ok a => simp [Except.bind]
  | error e => simp [Except.bind]

theorem bind_eq_error {x : Traced ε φ α} {f : α → Traced ε φ β} {e : φ} :
    (x >>= f).outcome = .error e ↔ x.outcome = .error e ∨ ∃ a, x.outcome = .ok a ∧ (f a).outcome = .error e := by
  rw [outcome_bind]
  cases x.outcome with
  | ok a => simp [Except.bind]
  | error e => simp [Except.bind]

/-! ## Events of a kind -/

/-- Every event of the step is one of `P`. -/
def Only (P : ε → Prop) (x : Traced ε φ α) : Prop := ∀ e ∈ x.trace, P e

variable {P : ε → Prop}

theorem only_pure (a : α) : Only P (pure a : Traced ε φ α) := by
  intro e he
  cases he

theorem only_emit {event : ε} (h : P event) : Only P (emit event : Traced ε φ Unit) := by
  intro e he
  rw [List.mem_singleton.1 he]
  exact h

theorem Only.bind {x : Traced ε φ α} {f : α → Traced ε φ β} (hx : Only P x) (hf : ∀ a, Only P (f a)) :
    Only P (x >>= f) := by
  intro e he
  rw [trace_bind] at he
  rcases List.mem_append.1 he with he | he
  · exact hx e he
  · cases ho : x.outcome with
    | ok a =>
      rw [ho] at he
      exact hf a e he
    | error _ =>
      rw [ho] at he
      cases he

theorem only_mapTrace {f : δ → ε} {x : Traced δ φ α} (h : ∀ e, P (f e)) : Only P (x.mapTrace f) := by
  intro e he
  obtain ⟨d, -, rfl⟩ := List.mem_map.1 he
  exact h d

/-! ## Some of the events -/

/-- The step with the events of a class alone. -/
def keep (p : ε → Bool) (x : Traced ε φ α) : Traced ε φ α := ⟨x.trace.filter p, x.outcome⟩

theorem keep_bind (p : ε → Bool) (x : Traced ε φ α) (f : α → Traced ε φ β) :
    (x >>= f).keep p = x.keep p >>= fun a => (f a).keep p := by
  obtain ⟨trace, outcome⟩ := x
  cases outcome with
  | ok a =>
    show (⟨(trace ++ (f a).trace).filter p, (f a).outcome⟩ : Traced ε φ β) = _
    rw [List.filter_append]
    rfl
  | error e => rfl

theorem keep_emit {p : ε → Bool} {event : ε} (h : p event = true) :
    (emit event : Traced ε φ Unit).keep p = emit event := by
  show (⟨[event].filter p, .ok ()⟩ : Traced ε φ Unit) = _
  rw [List.filter_cons_of_pos h]
  rfl

theorem keep_all {p : ε → Bool} (h : ∀ e, p e = true) (x : Traced ε φ α) : x.keep p = x := by
  unfold keep
  rw [List.filter_eq_self.2 fun e _ => h e]

/-- Of the events of a class those of a smaller one. -/
theorem keep_keep {p q : ε → Bool} (h : ∀ e, q e = true → p e = true) (x : Traced ε φ α) :
    (x.keep p).keep q = x.keep q := by
  have hboth : ∀ e, (q e && p e) = q e := by
    intro e
    cases hq : q e with
    | false => rfl
    | true => rw [h e hq]; rfl
  unfold keep
  rw [List.filter_filter]
  simp only [hboth]

theorem bind_assoc (x : Traced ε φ α) (f : α → Traced ε φ β) (g : β → Traced ε φ γ) :
    x >>= f >>= g = x >>= fun a => f a >>= g := by
  obtain ⟨trace, outcome⟩ := x
  cases outcome with
  | ok a =>
    show Traced.bind ⟨trace ++ (f a).trace, (f a).outcome⟩ g =
      ⟨trace ++ (Traced.bind (f a) g).trace, (Traced.bind (f a) g).outcome⟩
    obtain ⟨more, outcome⟩ := f a
    cases outcome with
    | ok b =>
      show (⟨trace ++ more ++ (g b).trace, (g b).outcome⟩ : Traced ε φ γ) =
        ⟨trace ++ (more ++ (g b).trace), (g b).outcome⟩
      rw [List.append_assoc]
    | error e => rfl
  | error e => rfl

theorem bind_pure_unit (x : Traced ε φ Unit) : (x >>= fun _ => pure ()) = x := by
  obtain ⟨trace, outcome⟩ := x
  cases outcome with
  | ok a =>
    show (⟨trace ++ [], .ok ()⟩ : Traced ε φ Unit) = _
    rw [List.append_nil]
  | error e => rfl

theorem pure_bind (a : α) (f : α → Traced ε φ β) : pure a >>= f = f a := rfl

end Accessors.Traced
