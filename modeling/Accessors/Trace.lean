/-
  Accessors.Trace — steps that leave a trace.

  A traced step yields a value or stops at a fault. Either way it leaves what it did on
  the way, in order: a fault takes nothing back.

  - `trace_bind_ok`, `trace_bind_error`: the trace of two steps, one after the other.
-/

namespace Accessors

structure Traced (ε φ α : Type) where
  trace : List ε
  outcome : Except φ α

namespace Traced

variable {ε φ α β : Type}

protected def pure (a : α) : Traced ε φ α := ⟨[], .ok a⟩

protected def bind (x : Traced ε φ α) (f : α → Traced ε φ β) : Traced ε φ β :=
  match x.outcome with
  | .ok a => ⟨x.trace ++ (f a).trace, (f a).outcome⟩
  | .error e => ⟨x.trace, .error e⟩

instance : Monad (Traced ε φ) where
  pure := Traced.pure
  bind := Traced.bind

def emit (event : ε) : Traced ε φ Unit := ⟨[event], .ok ()⟩

def stop (fault : φ) : Traced ε φ α := ⟨[], .error fault⟩

def ofExcept (x : Except φ α) : Traced ε φ α := ⟨[], x⟩

/-- The same step, its trace told in other words. -/
def mapTrace {δ : Type} (f : ε → δ) (x : Traced ε φ α) : Traced δ φ α := ⟨x.trace.map f, x.outcome⟩

@[simp] theorem trace_pure (a : α) : (pure a : Traced ε φ α).trace = [] := rfl

@[simp] theorem outcome_pure (a : α) : (pure a : Traced ε φ α).outcome = .ok a := rfl

@[simp] theorem trace_emit (event : ε) : (emit event : Traced ε φ Unit).trace = [event] := rfl

@[simp] theorem outcome_emit (event : ε) : (emit event : Traced ε φ Unit).outcome = .ok () := rfl

theorem trace_bind_ok {x : Traced ε φ α} {a : α} (h : x.outcome = .ok a) (f : α → Traced ε φ β) :
    (x >>= f).trace = x.trace ++ (f a).trace ∧ (x >>= f).outcome = (f a).outcome := by
  simp [Bind.bind, Traced.bind, h]

theorem trace_bind_error {x : Traced ε φ α} {e : φ} (h : x.outcome = .error e) (f : α → Traced ε φ β) :
    (x >>= f).trace = x.trace ∧ (x >>= f).outcome = .error e := by
  simp [Bind.bind, Traced.bind, h]

end Traced

end Accessors
