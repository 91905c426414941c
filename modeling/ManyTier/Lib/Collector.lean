import Mathlib.Data.Finset.Lattice.Basic
import Mathlib.Tactic

/-! Collecting the parts of a whole.

A collector holds the indices it has been given so far. When a delivery leaves none
missing it reports the whole and starts over with nothing; otherwise it keeps what
it has. `step_run` says when the first report comes: on exactly the delivery that
supplies the last missing index, whatever the order and however often a part is
given before. -/
namespace ManyTier.Collector
variable {ι : Type} [DecidableEq ι] (whole : Finset ι)

/-- What is held after the indices `new` arrive, and whether the whole is reported. -/
def step (held new : Finset ι) : Finset ι × Bool :=
  if whole ⊆ held ∪ new then (∅, true) else (held ∪ new, false)

/-- What is held after a list of deliveries. -/
def run (held : Finset ι) : List (Finset ι) → Finset ι
  | [] => held
  | new :: rest => run (step whole held new).1 rest

/-- Everything a list of deliveries has supplied. -/
def supplied : List (Finset ι) → Finset ι
  | [] => ∅
  | new :: rest => new ∪ supplied rest

/-- Until the whole has been supplied, what is held is what was supplied. -/
theorem run_of_missing (held : Finset ι) (ds : List (Finset ι))
    (h : ¬ whole ⊆ held ∪ supplied ds) : run whole held ds = held ∪ supplied ds := by
  induction ds generalizing held with
  | nil => simp [run, supplied]
  | cons new rest ih =>
    have hassoc : held ∪ supplied (new :: rest) = held ∪ new ∪ supplied rest := by
      rw [supplied, Finset.union_assoc]
    rw [hassoc] at h ⊢
    have hmissing : ¬ whole ⊆ held ∪ new := fun hw => h (hw.trans Finset.subset_union_left)
    rw [run, step, if_neg hmissing]
    exact ih _ h

/-- Something is always missing after a step. -/
theorem step_missing (held new : Finset ι) (hw : whole.Nonempty) :
    ¬ whole ⊆ (step whole held new).1 := by
  unfold step
  split
  · intro h
    exact hw.ne_empty (Finset.subset_empty.mp h)
  · assumption

theorem step_nothing (held : Finset ι) (h : ¬ whole ⊆ held) : step whole held ∅ = (held, false) := by
  rw [step, Finset.union_empty, if_neg h]

/-- The first report comes on the delivery that supplies the last missing index. -/
theorem step_run (ds : List (Finset ι)) (new : Finset ι) (h : ¬ whole ⊆ supplied ds) :
    (step whole (run whole ∅ ds) new).2 = decide (whole ⊆ supplied ds ∪ new) := by
  have hrun : run whole ∅ ds = supplied ds := by
    simpa using run_of_missing whole ∅ ds (by simpa using h)
  rw [hrun, step]
  split <;> simp_all

/-- The report on one more index, by what is missing: none while another index is
missing, and one when this is the only one. -/
theorem report_missing (ds : List (Finset ι)) (i : ι) :
    let report := (step whole (run whole ∅ ds) {i}).2
    let missing := whole \ supplied ds
    (¬ missing ⊆ {i} → report = false) ∧ (missing = {i} → report = true) := by
  intro report missing
  have hsplit : whole ⊆ supplied ds ∪ {i} ↔ missing ⊆ {i} := sdiff_le_iff.symm
  refine ⟨?_, ?_⟩
  · intro hother
    have hnot : ¬ whole ⊆ supplied ds := by
      intro hall
      exact hother (hsplit.mp (hall.trans Finset.subset_union_left))
    exact (step_run whole ds {i} hnot).trans (decide_eq_false (mt hsplit.mp hother))
  · intro hlast
    have hnot : ¬ whole ⊆ supplied ds := by
      intro hall
      have hempty : missing = ∅ := Finset.sdiff_eq_empty_iff_subset.mpr hall
      rw [hlast] at hempty
      exact Finset.singleton_ne_empty _ hempty
    exact (step_run whole ds {i} hnot).trans (decide_eq_true (hsplit.mpr hlast.subset))

end ManyTier.Collector
