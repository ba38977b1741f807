/-!
# Traced computations

A traced computation leaves a trace, the records of what it did in the order it did it, and then
ends in a result or in an error.  A failed computation keeps the records made before it failed, and
nothing runs after it.
-/

namespace Abacus

/-- A computation with records `τ`, errors `ε` and results `α`. -/
structure Traced (τ ε α : Type) where
  trace : List τ
  result : Except ε α

namespace Traced

variable {τ σ ε δ α β : Type}

/-- A result without records. -/
def ok (a : α) : Traced τ ε α := ⟨[], .ok a⟩

/-- A failure without records. -/
def error (e : ε) : Traced τ ε α := ⟨[], .error e⟩

/-- A single record. -/
def record (t : τ) : Traced τ ε Unit := ⟨[t], .ok ()⟩

/-- Runs `f` on the result of `x`; a failure of `x` is final. -/
def bind (x : Traced τ ε α) (f : α → Traced τ ε β) : Traced τ ε β :=
  match x.result with
  | .ok a =>
    let y := f a
    ⟨x.trace ++ y.trace, y.result⟩
  | .error e => ⟨x.trace, .error e⟩

instance : Monad (Traced τ ε) where
  pure := ok
  bind := bind

/-- The same computation with its records and errors put into wider types. -/
def embed (f : τ → σ) (g : ε → δ) (x : Traced τ ε α) : Traced σ δ α :=
  ⟨x.trace.map f, x.result.mapError g⟩

/-! ## Traces and results of the operations -/

@[simp] theorem trace_pure (a : α) : (pure a : Traced τ ε α).trace = [] := rfl

@[simp] theorem result_pure (a : α) : (pure a : Traced τ ε α).result = .ok a := rfl

@[simp] theorem trace_embed (f : τ → σ) (g : ε → δ) (x : Traced τ ε α) :
    (x.embed f g).trace = x.trace.map f := rfl

@[simp] theorem result_embed (f : τ → σ) (g : ε → δ) (x : Traced τ ε α) :
    (x.embed f g).result = x.result.mapError g := rfl

theorem bind_of_ok {x : Traced τ ε α} {a : α} (h : x.result = .ok a) (f : α → Traced τ ε β) :
    x >>= f = ⟨x.trace ++ (f a).trace, (f a).result⟩ := by
  change bind x f = _
  rw [bind, h]

theorem bind_of_error {x : Traced τ ε α} {e : ε} (h : x.result = .error e)
    (f : α → Traced τ ε β) : x >>= f = ⟨x.trace, .error e⟩ := by
  change bind x f = _
  rw [bind, h]

/-- The result of a sequence, apart from its records. -/
theorem result_bind (x : Traced τ ε α) (f : α → Traced τ ε β) :
    (x >>= f).result =
      match x.result with
      | .ok a => (f a).result
      | .error e => .error e := by
  cases h : x.result with
  | ok a => rw [bind_of_ok h]
  | error e => rw [bind_of_error h]

end Traced

end Abacus
