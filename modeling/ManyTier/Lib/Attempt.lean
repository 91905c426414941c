import ManyTier.Lib.Run

/-! Attempts: calls that may fail and keep the state they reached.

Unlike a step of a `Run`, which faults without a next state, a call that fails half-way
leaves what it has written. -/
namespace ManyTier

/-- What is returned with errors in other words is returned. -/
theorem ok_of_mapError {ε δ α : Type} {f : ε → δ} {x : Except ε α} {a : α} (h : x.mapError f = .ok a) : x = .ok a := by
  cases x with
  | error e => cases h
  | ok b => exact congrArg Except.ok (Except.ok.inj h)

/-- What a call returns, and the state after it. -/
structure Attempt (σ ε α : Type) where
  run : σ → Except ε α × σ

namespace Attempt
variable {σ ε α β : Type}

instance : Monad (Attempt σ ε) where
  pure a := ⟨fun s => (.ok a, s)⟩
  bind x f := ⟨fun s =>
    match x.run s with
    | (.ok a, s) => (f a).run s
    | (.error e, s) => (.error e, s)⟩

def fail (e : ε) : Attempt σ ε α := ⟨fun s => (.error e, s)⟩

/-- A computation that does not look at the state. -/
def lift (x : Except ε α) : Attempt σ ε α := ⟨fun s => (x, s)⟩

def read (f : σ → Except ε α) : Attempt σ ε α := ⟨fun s => (f s, s)⟩

/-- The state that `f` gives, or the one there was. -/
def write (f : σ → Except ε σ) : Attempt σ ε Unit := ⟨fun s =>
  match f s with
  | .ok s' => (.ok (), s')
  | .error e => (.error e, s)⟩

/-- The same call with its errors in other words. -/
def mapError {δ : Type} (f : ε → δ) (x : Attempt σ ε α) : Attempt σ δ α := ⟨fun s => ((x.run s).1.mapError f, (x.run s).2)⟩

@[simp] theorem run_pure (a : α) (s : σ) : (pure a : Attempt σ ε α).run s = (.ok a, s) := rfl

@[simp] theorem run_fail (e : ε) (s : σ) : (fail e : Attempt σ ε α).run s = (.error e, s) := rfl

@[simp] theorem run_lift (x : Except ε α) (s : σ) : (lift x : Attempt σ ε α).run s = (x, s) := rfl

/-- A call whose first part returned goes on with the second. -/
theorem run_bind_ok {x : Attempt σ ε α} {s s' : σ} {a : α} (h : x.run s = (.ok a, s')) (f : α → Attempt σ ε β) :
    (x >>= f).run s = (f a).run s' := by
  show (match x.run s with
    | (.ok a, s) => (f a).run s
    | (.error e, s) => (.error e, s)) = _
  rw [h]

/-- A call whose first part failed failed. -/
theorem run_bind_error {x : Attempt σ ε α} {s s' : σ} {e : ε} (h : x.run s = (.error e, s')) (f : α → Attempt σ ε β) :
    (x >>= f).run s = (.error e, s') := by
  show (match x.run s with
    | (.ok a, s) => (f a).run s
    | (.error e, s) => (.error e, s)) = _
  rw [h]

/-- What a call in two parts returned, its parts returned. -/
theorem run_bind_eq_ok {x : Attempt σ ε α} {f : α → Attempt σ ε β} {s s' : σ} {b : β}
    (h : (x >>= f).run s = (.ok b, s')) : ∃ a s₁, x.run s = (.ok a, s₁) ∧ (f a).run s₁ = (.ok b, s') := by
  cases hx : x.run s with
  | mk r s₁ =>
    cases r with
    | ok a => exact ⟨a, s₁, rfl, (run_bind_ok hx f).symm.trans h⟩
    | error e => cases (run_bind_error hx f).symm.trans h

theorem run_read {f : σ → Except ε α} {s : σ} {a : α} (h : f s = .ok a) : (read f).run s = (.ok a, s) := by
  simp [read, h]

theorem run_write {f : σ → Except ε σ} {s s' : σ} (h : f s = .ok s') : (write f).run s = (.ok (), s') := by
  simp [write, h]

/-- A write that failed left the state as it was. -/
theorem run_write_error {f : σ → Except ε σ} {s : σ} {e : ε} (h : f s = .error e) : (write f).run s = (.error e, s) := by
  simp [write, h]

theorem run_mapError {δ : Type} {x : Attempt σ ε α} {s s' : σ} {r : Except ε α} (h : x.run s = (r, s')) (f : ε → δ) :
    (x.mapError f).run s = (r.mapError f, s') := by
  show ((x.run s).1.mapError f, (x.run s).2) = _
  rw [h]

/-! ### What a call leaves -/

/-- The state behind a call. -/
def after (x : Attempt σ ε α) (s : σ) : σ := (x.run s).2

@[simp] theorem after_lift (x : Except ε α) (s : σ) : (lift x : Attempt σ ε α).after s = s := rfl

@[simp] theorem after_read (f : σ → Except ε α) (s : σ) : (read f).after s = s := rfl

@[simp] theorem after_mapError {δ : Type} (f : ε → δ) (x : Attempt σ ε α) (s : σ) : (x.mapError f).after s = x.after s := rfl

section
variable {R : σ → σ → Prop}

/-- What lies between the states around each part of a call lies between those around the
call. -/
theorem after_bind (htrans : ∀ s₁ s₂ s₃, R s₁ s₂ → R s₂ s₃ → R s₁ s₃) {x : Attempt σ ε α} {f : α → Attempt σ ε β} {s : σ}
    (hx : R s (x.after s)) (hf : ∀ a, x.run s = (.ok a, x.after s) → R (x.after s) ((f a).after (x.after s))) :
    R s ((x >>= f).after s) := by
  cases hrun : x.run s with
  | mk r s₁ =>
    have hafter : x.after s = s₁ := congrArg Prod.snd hrun
    rw [hafter] at hx hf
    cases r with
    | ok a =>
      have hwhole : (x >>= f).after s = (f a).after s₁ := congrArg Prod.snd (run_bind_ok hrun f)
      rw [hwhole]
      exact htrans _ _ _ hx (hf a hrun)
    | error e =>
      have hwhole : (x >>= f).after s = s₁ := congrArg Prod.snd (run_bind_error hrun f)
      rw [hwhole]
      exact hx

/-- A write that leaves what it should where it writes at all. -/
theorem after_write (hrefl : ∀ s, R s s) {f : σ → Except ε σ} {s : σ} (h : ∀ s', f s = .ok s' → R s s') :
    R s ((write f).after s) := by
  cases hf : f s with
  | ok s' =>
    rw [after, run_write hf]
    exact h s' hf
  | error e =>
    rw [after, run_write_error hf]
    exact hrefl s

end

/-- A call that reads and no more. -/
def Reads (x : Attempt σ ε α) : Prop := ∀ s, x.after s = s

theorem Reads.bind {x : Attempt σ ε α} {f : α → Attempt σ ε β} (hx : Reads x) (hf : ∀ a, Reads (f a)) : Reads (x >>= f) := by
  intro s
  refine after_bind (R := fun s s' => s' = s) (fun _ _ _ h h' => h'.trans h) (hx s) fun a _ => ?_
  exact hf a _

end Attempt

end ManyTier
