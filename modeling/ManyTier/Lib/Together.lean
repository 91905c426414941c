import ManyTier.Lib.Run
import Mathlib.Logic.Function.Basic

/-! Machines that take turns, and machines made of others.

`together` runs a family of machines as one: an event names the machine it is for and the
others stay as they are, so a run is any interleaving of their steps. What each of them
does in it is a run of its own (`Run.part`). A machine is `MadeOf` another if each of its
steps is a run of that one on a part of the state; its runs then are runs of the other
(`Run.unfold`), and a family of such machines is made of the family of the others
(`MadeOf.together`). Beside these stand facts of any run: it can be cut at a step
(`Run.cut`), and what a state holds was there from the start or was added by a step
(`Run.origin`), or has held since some step (`Run.since`). -/
namespace ManyTier

section
variable {σ ε ω φ : Type} {step : σ → ε → Except φ (σ × ω)}

namespace Run

/-- A run up to one of its steps, and the step. -/
theorem cut {s s' : σ} {earlier later : List (Entry σ ε ω)} {e : Entry σ ε ω}
    (hrun : Run step s (earlier ++ e :: later) s') :
    Run step s earlier e.before ∧ step e.before e.event = .ok (e.after, e.output) := by
  generalize ht : earlier ++ e :: later = t at hrun
  induction hrun generalizing later with
  | nil => simp at ht
  | @snoc t s₁ s₂ event o hinit hstep ih =>
    rcases List.eq_nil_or_concat later with rfl | ⟨rest, last, rfl⟩
    · obtain ⟨rfl, rfl⟩ := List.append_inj' ht rfl |>.imp_right List.cons.inj |>.imp_right And.left
      exact ⟨hinit, hstep⟩
    · rw [List.concat_eq_append, ← List.cons_append, ← List.append_assoc] at ht
      exact ih (List.append_inj' ht rfl).1

/-- A run that went anywhere starts with the first of its steps. -/
theorem before_cons {s s' : σ} {t : List (Entry σ ε ω)} {e : Entry σ ε ω} (hrun : Run step s (e :: t) s') : e.before = s := by
  obtain ⟨hnone, -⟩ := cut (show Run step s ([] ++ e :: t) s' from hrun)
  generalize ht : ([] : List (Entry σ ε ω)) = none at hnone
  cases hnone with
  | nil => rfl
  | snoc _ _ => simp at ht

/-- A run goes on with a run from where it ended. -/
theorem append {s s₁ s' : σ} {t t' : List (Entry σ ε ω)} (hrun : Run step s t s₁) (hmore : Run step s₁ t' s') :
    Run step s (t ++ t') s' := by
  induction hmore with
  | nil => rwa [List.append_nil]
  | snoc _ hstep ih =>
    rw [← List.append_assoc]
    exact ih.snoc hstep

/-- A run that went anywhere ends with one of its steps. -/
theorem exists_last {s s' : σ} {t : List (Entry σ ε ω)} (hrun : Run step s t s') (hne : t ≠ []) : ∃ e ∈ t, e.after = s' := by
  cases hrun with
  | nil => exact absurd rfl hne
  | snoc _ _ => exact ⟨_, List.mem_append_right _ List.mem_cons_self, rfl⟩

/-- Where what a state holds comes from, if each step keeps what there is and says where
it has the rest from. -/
theorem origin {α : Type} (Held : σ → α → Prop) (Adds : Entry σ ε ω → α → Prop)
    (hstep : ∀ e : Entry σ ε ω, step e.before e.event = .ok (e.after, e.output) →
      ∀ a, Held e.after a → Held e.before a ∨ Adds e a)
    {s s' : σ} {t : List (Entry σ ε ω)} (hrun : Run step s t s') {a : α} (ha : Held s' a) :
    Held s a ∨ ∃ e ∈ t, Adds e a := by
  induction hrun with
  | nil => exact .inl ha
  | @snoc t s₁ s₂ event o _ he ih =>
    rcases hstep ⟨s₁, event, o, s₂⟩ he a ha with hbefore | hadds
    · rcases ih hbefore with hstart | ⟨e, hmem, hadds⟩
      · exact .inl hstart
      · exact .inr ⟨e, List.mem_append_left _ hmem, hadds⟩
    · exact .inr ⟨_, List.mem_append_right _ List.mem_cons_self, hadds⟩

/-- What a state has it had all along, or some step gave it and it has had it since. -/
theorem since (P : σ → Prop) {s s' : σ} {t : List (Entry σ ε ω)} (hrun : Run step s t s') (hs' : P s') :
    (P s ∧ ∀ e ∈ t, P e.after) ∨
      ∃ earlier e later, t = earlier ++ e :: later ∧ ¬ P e.before ∧ P e.after ∧ ∀ x ∈ later, P x.after := by
  induction hrun with
  | nil => exact .inl ⟨hs', fun _ h => nomatch h⟩
  | @snoc t s₁ s₂ event o _ _ ih =>
    by_cases hbefore : P s₁
    · rcases ih hbefore with ⟨hs, ht⟩ | ⟨earlier, e, later, rfl, hnot, he, hlater⟩
      · exact .inl ⟨hs, List.forall_mem_append.mpr ⟨ht, List.forall_mem_singleton.mpr hs'⟩⟩
      · exact .inr ⟨earlier, e, later ++ [_], by rw [List.append_assoc, List.cons_append], hnot, he,
          List.forall_mem_append.mpr ⟨hlater, List.forall_mem_singleton.mpr hs'⟩⟩
    · exact .inr ⟨t, ⟨s₁, event, o, s₂⟩, [], rfl, hbefore, hs', fun _ h => nomatch h⟩

end Run

end

section
variable {ι σ ε ω φ : Type} [DecidableEq ι]

/-- A step of the machine the event names. -/
def together (step : ι → σ → ε → Except φ (σ × ω)) (states : ι → σ) (event : ι × ε) : Except φ ((ι → σ) × ω) := do
  let (s, o) ← step event.1 (states event.1) event.2
  return (Function.update states event.1 s, o)

theorem together_ok {step : ι → σ → ε → Except φ (σ × ω)} {states : ι → σ} {i : ι} {event : ε} {s : σ} {o : ω}
    (h : step i (states i) event = .ok (s, o)) : together step states (i, event) = .ok (Function.update states i s, o) := by
  show (step i (states i) event >>= _) = _
  rw [h]
  rfl

/-- A step as the machine that took it saw it. -/
def Entry.part (e : Entry (ι → σ) (ι × ε) ω) : Entry σ ε ω :=
  ⟨e.before e.event.1, e.event.2, e.output, e.after e.event.1⟩

/-- The steps of one machine. -/
def stepsOf (i : ι) (t : List (Entry (ι → σ) (ι × ε) ω)) : List (Entry σ ε ω) :=
  (t.filter fun e => e.event.1 = i).map Entry.part

theorem mem_stepsOf {i : ι} {t : List (Entry (ι → σ) (ι × ε) ω)} {e : Entry σ ε ω} :
    e ∈ stepsOf i t ↔ ∃ e' ∈ t, e'.event.1 = i ∧ e'.part = e := by
  simp [stepsOf, and_assoc]

theorem stepsOf_concat (i : ι) (t : List (Entry (ι → σ) (ι × ε) ω)) (e : Entry (ι → σ) (ι × ε) ω) :
    stepsOf i (t ++ [e]) = if e.event.1 = i then stepsOf i t ++ [e.part] else stepsOf i t := by
  by_cases hi : e.event.1 = i <;> simp [stepsOf, List.filter_append, hi]

variable {step : ι → σ → ε → Except φ (σ × ω)}

/-- One machine steps and the others stay. -/
theorem together_eq_ok {e : Entry (ι → σ) (ι × ε) ω}
    (h : together step e.before e.event = .ok (e.after, e.output)) :
    step e.event.1 e.part.before e.part.event = .ok (e.part.after, e.part.output) ∧
      ∀ i, i ≠ e.event.1 → e.after i = e.before i := by
  obtain ⟨⟨s, o⟩, hstep, heq⟩ := bind_eq_ok h
  obtain ⟨hafter, rfl⟩ := Prod.mk.inj (Except.ok.inj heq)
  simp only [Entry.part, ← hafter]
  refine ⟨by rw [Function.update_self]; exact hstep, fun i hi => Function.update_of_ne hi ..⟩

/-- A run of the family is a run of each machine. -/
theorem Run.part {states states' : ι → σ} {t : List (Entry (ι → σ) (ι × ε) ω)}
    (hrun : Run (together step) states t states') (i : ι) :
    Run (step i) (states i) (stepsOf i t) (states' i) := by
  induction hrun with
  | nil => exact .nil
  | @snoc t s₁ s₂ event o _ he ih =>
    obtain ⟨hstep, hothers⟩ := together_eq_ok (e := ⟨s₁, event, o, s₂⟩) he
    rw [stepsOf_concat]
    split
    · rename_i hi
      subst hi
      exact ih.snoc hstep
    · rename_i hi
      rw [show s₂ i = s₁ i from hothers i (Ne.symm hi)]
      exact ih

/-- What one machine does alone, the family does while the others stay. -/
theorem Run.alone (states : ι → σ) (i : ι) {t : List (Entry σ ε ω)} {s : σ} (hrun : Run (step i) (states i) t s) :
    ∃ t', Run (together step) states t' (Function.update states i s) ∧ t'.map Entry.part = t ∧
      ∀ e ∈ t', e.event.1 = i := by
  induction hrun with
  | nil => exact ⟨[], by rw [Function.update_eq_self]; exact .nil, rfl, by simp⟩
  | @snoc t s₁ s₂ event o _ hstep ih =>
    obtain ⟨t', hrun', hparts, howner⟩ := ih
    have hnext : together step (Function.update states i s₁) (i, event) = .ok (Function.update states i s₂, o) := by
      have hhere : step i (Function.update states i s₁ i) event = .ok (s₂, o) := by rwa [Function.update_self]
      unfold together
      rw [hhere, ok_bind]
      exact congrArg Except.ok (Prod.ext (Function.update_idem ..) rfl)
    refine ⟨_, hrun'.snoc hnext, ?_, ?_⟩
    · rw [List.map_append, hparts]
      simp [Entry.part]
    · intro e he
      rcases List.mem_append.mp he with he | he
      · exact howner e he
      · obtain rfl := List.mem_singleton.mp he
        rfl

end

/-! ### Steps made of steps -/

section
variable {σ ε ω φ τ η ψ : Type} {outer : σ → ε → Except φ (σ × ω)} {inner : τ → η → Except φ (τ × ψ)}
  {part : σ → τ} {R : Entry σ ε ω → List (Entry τ η ψ) → Prop}

/-- Each step of a machine is a run of another on a part of its state, and `R` says what
the two have to do with each other. -/
def MadeOf (outer : σ → ε → Except φ (σ × ω)) (inner : τ → η → Except φ (τ × ψ)) (part : σ → τ)
    (R : Entry σ ε ω → List (Entry τ η ψ) → Prop) : Prop :=
  ∀ e : Entry σ ε ω, outer e.before e.event = .ok (e.after, e.output) →
    ∃ t, Run inner (part e.before) t (part e.after) ∧ R e t

/-- A run is a run of the other machine, the parts of its steps one after the other. -/
theorem Run.unfold (hmade : MadeOf outer inner part R) {s s' : σ} {t : List (Entry σ ε ω)} (hrun : Run outer s t s') :
    ∃ parts, List.Forall₂ R t parts ∧ Run inner (part s) parts.flatten (part s') := by
  induction hrun with
  | nil => exact ⟨[], .nil, .nil⟩
  | @snoc t s₁ s₂ event o _ hstep ih =>
    obtain ⟨parts, hparts, hinner⟩ := ih
    obtain ⟨t', hrun', hR⟩ := hmade ⟨s₁, event, o, s₂⟩ hstep
    refine ⟨parts ++ [t'], List.rel_append hparts (.cons hR .nil), ?_⟩
    rw [List.flatten_append, List.flatten_singleton]
    exact hinner.append hrun'

/-- A step of the other machine belongs to a step of the run. -/
theorem mem_flatten_parts {t : List (Entry σ ε ω)} {parts : List (List (Entry τ η ψ))} (h : List.Forall₂ R t parts)
    {x : Entry τ η ψ} (hx : x ∈ parts.flatten) : ∃ e ∈ t, ∃ t', R e t' ∧ x ∈ t' := by
  induction h with
  | nil => cases hx
  | cons hR _ ih =>
    rcases List.mem_append.mp hx with hx | hx
    · exact ⟨_, List.mem_cons_self, _, hR, hx⟩
    · obtain ⟨e, he, hrest⟩ := ih hx
      exact ⟨e, List.mem_cons_of_mem _ he, hrest⟩

/-- Machines made of others take turns as those do. -/
theorem MadeOf.together {ι : Type} [DecidableEq ι] {outer : ι → σ → ε → Except φ (σ × ω)} {inner : ι → τ → η → Except φ (τ × ψ)}
    {R : ι → Entry σ ε ω → List (Entry τ η ψ) → Prop} (hmade : ∀ i, MadeOf (outer i) (inner i) part (R i)) :
    MadeOf (ManyTier.together outer) (ManyTier.together inner) (fun states i => part (states i))
      fun e t => R e.event.1 e.part (t.map Entry.part) ∧ ∀ x ∈ t, x.event.1 = e.event.1 := by
  intro e he
  obtain ⟨hstep, hothers⟩ := together_eq_ok he
  obtain ⟨t, hrun, hR⟩ := hmade e.event.1 e.part hstep
  obtain ⟨t', hrun', hparts, howner⟩ := Run.alone (fun i => part (e.before i)) e.event.1 hrun
  have hafter : Function.update (fun i => part (e.before i)) e.event.1 (part e.part.after) = fun i => part (e.after i) := by
    refine funext fun i => ?_
    by_cases hi : i = e.event.1
    · rw [hi, Function.update_self]
      rfl
    · rw [Function.update_of_ne hi, hothers i hi]
  rw [hafter] at hrun'
  exact ⟨t', hrun', hparts.symm ▸ hR, howner⟩

end

end ManyTier
