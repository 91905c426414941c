import Mathlib.Data.List.Basic
import Mathlib.Tactic

/-! Runs of a machine whose step may fail.

A step takes a state and an event and either faults or gives the next state with
an output. A `Run` is a sequence of steps that did not fault, with what each one
saw and gave. An invariant is proved once, from one step (`Run.invariant`), and a
fact about every step of a run from the states the run passes through
(`Run.forall_entries`). -/
namespace ManyTier

/-- Why a step did not complete: it indexed outside a buffer, or it was given fewer
nested calls than it needed. -/
inductive Fault where
  | panic
  | outOfFuel
  deriving Repr, DecidableEq

/-- What a computation in two parts returned, its parts returned. -/
theorem bind_eq_ok {ε α β : Type} {x : Except ε α} {f : α → Except ε β} {b : β} (h : (x >>= f) = .ok b) :
    ∃ a, x = .ok a ∧ f a = .ok b := by
  cases x with
  | error e => cases h
  | ok a => exact ⟨a, rfl, h⟩

/-- What a computation in two parts failed with, one of its parts failed with. -/
theorem bind_eq_error {ε α β : Type} {x : Except ε α} {f : α → Except ε β} {e : ε}
    (h : (x >>= f) = .error e) : x = .error e ∨ ∃ a, x = .ok a ∧ f a = .error e := by
  cases x with
  | error e' => exact .inl (congrArg Except.error (Except.error.inj h))
  | ok a => exact .inr ⟨a, rfl, h⟩

/-- A computation whose first part returned goes on with the second. -/
@[simp] theorem ok_bind {ε α β : Type} (a : α) (f : α → Except ε β) : ((.ok a : Except ε α) >>= f) = f a :=
  rfl

/-- Whether a computation returned a result with a property. -/
def okWith {ε α : Type} (x : Except ε α) (p : α → Bool) : Bool :=
  match x with
  | .ok a => p a
  | .error _ => false

theorem exists_of_okWith {ε α : Type} {x : Except ε α} {p : α → Bool} (h : okWith x p = true) :
    ∃ a, x = .ok a ∧ p a = true := by
  cases x with
  | error e => cases h
  | ok a => exact ⟨a, rfl, h⟩

/-- What each member of a list gives, in order, without those that give nothing. -/
def collect {ε α β : Type} (f : α → Except ε (Option β)) : List α → Except ε (List β)
  | [] => .ok []
  | a :: rest => do
    let b ← f a
    let bs ← collect f rest
    return b.toList ++ bs

/-- A computation in two parts returns when both parts do. -/
theorem bind_returns_iff {ε α β : Type} {x : Except ε α} {f : α → Except ε β} :
    (∃ b, (x >>= f) = .ok b) ↔ ∃ a, x = .ok a ∧ ∃ b, f a = .ok b := by
  constructor
  · rintro ⟨b, h⟩
    obtain ⟨a, ha, hb⟩ := bind_eq_ok h
    exact ⟨a, ha, b, hb⟩
  · rintro ⟨a, rfl, b, hb⟩
    exact ⟨b, hb⟩

/-- What is collected is collected from a list on all of which the function returns. -/
theorem collect_returns_iff {ε α β : Type} {f : α → Except ε (Option β)} {l : List α} :
    (∃ bs, collect f l = .ok bs) ↔ ∀ a ∈ l, ∃ b, f a = .ok b := by
  induction l with
  | nil => exact iff_of_true ⟨[], rfl⟩ fun _ ha => nomatch ha
  | cons a rest ih =>
    rw [List.forall_mem_cons, ← ih, collect, bind_returns_iff]
    constructor
    · rintro ⟨b, hb, hrest⟩
      obtain ⟨bs, hbs, -⟩ := bind_returns_iff.mp hrest
      exact ⟨⟨b, hb⟩, bs, hbs⟩
    · rintro ⟨⟨b, hb⟩, bs, hbs⟩
      exact ⟨b, hb, bind_returns_iff.mpr ⟨bs, hbs, _, rfl⟩⟩

/-- A relation that every turn of a loop respects holds between its start and its end. -/
theorem foldlM_rel {ε α β : Type} {f : β → α → Except ε β} (R : β → β → Prop) (hrefl : ∀ b, R b b)
    (htrans : ∀ a b c, R a b → R b c → R a c) {l : List α}
    (hstep : ∀ x ∈ l, ∀ b b', f b x = .ok b' → R b b') {b b' : β} (h : l.foldlM f b = .ok b') :
    R b b' := by
  induction l generalizing b with
  | nil =>
    cases h
    exact hrefl _
  | cons x rest ih =>
    rw [List.foldlM_cons] at h
    obtain ⟨c, hc, hrest⟩ := bind_eq_ok h
    have hfirst := hstep x List.mem_cons_self b c hc
    exact htrans _ _ _ hfirst (ih (fun y hy => hstep y (List.mem_cons_of_mem _ hy)) hrest)

/-- A loop that fails fails in one of its turns. -/
theorem foldlM_error {ε α β : Type} {f : β → α → Except ε β} {l : List α} {b : β} {e : ε}
    (h : l.foldlM f b = .error e) :
    ∃ before x after c, l = before ++ x :: after ∧ before.foldlM f b = .ok c ∧ f c x = .error e := by
  induction l generalizing b with
  | nil => cases h
  | cons x rest ih =>
    rw [List.foldlM_cons] at h
    cases hx : f b x with
    | error e' =>
      rw [hx] at h
      exact ⟨[], x, rest, b, rfl, rfl, hx.trans h⟩
    | ok c =>
      rw [hx, ok_bind] at h
      obtain ⟨before, y, after, d, rfl, hbefore, hy⟩ := ih h
      refine ⟨x :: before, y, after, d, rfl, ?_, hy⟩
      rw [List.foldlM_cons, hx, ok_bind, hbefore]

/-- Every turn of a loop that returned returned. -/
theorem foldlM_ok_split {ε α β : Type} {f : β → α → Except ε β} {before after : List α} {x : α} {b b' c : β}
    (h : (before ++ x :: after).foldlM f b = .ok b') (hbefore : before.foldlM f b = .ok c) :
    ∃ d, f c x = .ok d := by
  rw [List.foldlM_append] at h
  obtain ⟨c', hc, h⟩ := bind_eq_ok h
  rw [hbefore] at hc
  obtain rfl := Except.ok.inj hc
  rw [List.foldlM_cons] at h
  obtain ⟨d, hd, -⟩ := bind_eq_ok h
  exact ⟨d, hd⟩

/-- One step of a run: the state before, the event, the output and the state after. -/
structure Entry (σ ε ω : Type) where
  before : σ
  event : ε
  output : ω
  after : σ

section
variable {σ ε ω φ : Type} {step : σ → ε → Except φ (σ × ω)}

/-- `Run step s t s'`: from `s`, the steps `t` lead to `s'`. -/
inductive Run (step : σ → ε → Except φ (σ × ω)) (s : σ) : List (Entry σ ε ω) → σ → Prop where
  | nil : Run step s [] s
  | snoc {t : List (Entry σ ε ω)} {s₁ s₂ : σ} {e : ε} {o : ω} :
      Run step s t s₁ → step s₁ e = .ok (s₂, o) → Run step s (t ++ [⟨s₁, e, o, s₂⟩]) s₂

namespace Run

/-- One step is a run. -/
theorem one {s s' : σ} {e : ε} {o : ω} (h : step s e = .ok (s', o)) : Run step s [⟨s, e, o, s'⟩] s' :=
  snoc nil h

/-- What one step preserves under a condition on the step, a run whose steps all
meet the condition preserves. -/
theorem invariant (Inv : σ → Prop) (Cond : Entry σ ε ω → Prop)
    (hstep : ∀ n : Entry σ ε ω, step n.before n.event = .ok (n.after, n.output) →
      Cond n → Inv n.before → Inv n.after)
    {s s' : σ} {t : List (Entry σ ε ω)} (hrun : Run step s t s') (hs : Inv s)
    (hcond : ∀ n ∈ t, Cond n) : Inv s' := by
  induction hrun with
  | nil => exact hs
  | @snoc t s₁ s₂ e o _ he ih =>
    refine hstep ⟨s₁, e, o, s₂⟩ he (hcond _ (by simp)) (ih ?_)
    intro n hn
    exact hcond n (List.mem_append_left _ hn)

/-- A fact about a step taken in a state with the invariant holds of every step
of a run whose steps all meet the condition. -/
theorem forall_entries (Inv : σ → Prop) (Cond Good : Entry σ ε ω → Prop)
    (hstep : ∀ n : Entry σ ε ω, step n.before n.event = .ok (n.after, n.output) →
      Cond n → Inv n.before → Inv n.after ∧ Good n)
    {s s' : σ} {t : List (Entry σ ε ω)} (hrun : Run step s t s') (hs : Inv s)
    (hcond : ∀ n ∈ t, Cond n) : ∀ n ∈ t, Good n := by
  induction hrun with
  | nil => intro n hn; cases hn
  | @snoc t s₁ s₂ e o hinit he ih =>
    have hcond' : ∀ n ∈ t, Cond n := fun n hn => hcond n (List.mem_append_left _ hn)
    have hinv : Inv s₁ :=
      invariant Inv Cond (fun n hn hc hi => (hstep n hn hc hi).1) hinit hs hcond'
    intro n hn
    rcases List.mem_append.mp hn with hn | hn
    · exact ih hcond' n hn
    · obtain rfl := List.mem_singleton.mp hn
      exact (hstep _ he (hcond _ (by simp)) hinv).2

/-- Where a step from a good state leads to a good one exactly if it meets a condition,
all states of a run from a good one are good exactly if all its steps meet the condition. -/
theorem forall_after_iff (Inv Good : σ → Prop) (Cond : Entry σ ε ω → Prop)
    (hstep : ∀ n : Entry σ ε ω, step n.before n.event = .ok (n.after, n.output) →
      Inv n.before → Inv n.after ∧ (Good n.before → (Good n.after ↔ Cond n)))
    {s s' : σ} {t : List (Entry σ ε ω)} (hrun : Run step s t s') (hs : Inv s) (hgood : Good s) :
    (∀ n ∈ t, Good n.after) ↔ ∀ n ∈ t, Cond n := by
  suffices h : Inv s' ∧ ((∀ n ∈ t, Good n.after) ↔ ∀ n ∈ t, Cond n) ∧ ((∀ n ∈ t, Cond n) → Good s') from h.2.1
  induction hrun with
  | nil => exact ⟨hs, by simp, fun _ => hgood⟩
  | @snoc t s₁ s₂ e o _ he ih =>
    obtain ⟨hinv, hiff, hlast⟩ := ih
    obtain ⟨hinv', hnext⟩ := hstep ⟨s₁, e, o, s₂⟩ he hinv
    simp only [List.forall_mem_append, List.forall_mem_singleton]
    refine ⟨hinv', ?_, fun hcond => (hnext (hlast hcond.1)).mpr hcond.2⟩
    rw [hiff]
    exact and_congr_right fun hcond => hnext (hlast hcond)

/-- Every entry of a run is a step. -/
theorem steps {s s' : σ} {t : List (Entry σ ε ω)} (hrun : Run step s t s') :
    ∀ n ∈ t, step n.before n.event = .ok (n.after, n.output) :=
  forall_entries (fun _ => True) (fun _ => True) _ (fun _ hn _ _ => ⟨trivial, hn⟩) hrun trivial
    (fun _ _ => trivial)

end Run

/-- The events taken one after the other, with what each step saw and gave. -/
def runAll (step : σ → ε → Except φ (σ × ω)) (s : σ) (events : List ε) : Except φ (List (Entry σ ε ω) × σ) :=
  events.foldlM (fun r e => do
    let (s', o) ← step r.2 e
    return (r.1 ++ [⟨r.2, e, o, s'⟩], s')) ([], s)

/-- What `runAll` returns is a run. -/
theorem run_runAll {s s' : σ} {events : List ε} {t : List (Entry σ ε ω)} (h : runAll step s events = .ok (t, s')) :
    Run step s t s' := by
  let R (r r' : List (Entry σ ε ω) × σ) : Prop := Run step s r.1 r.2 → Run step s r'.1 r'.2
  refine foldlM_rel R (fun _ h => h) (fun _ _ _ h h' hr => h' (h hr)) (fun e _ r r' hr' hr => ?_) h .nil
  obtain ⟨⟨s₂, o⟩, hstep, heq⟩ := bind_eq_ok hr'
  cases heq
  exact hr.snoc hstep

end

end ManyTier
