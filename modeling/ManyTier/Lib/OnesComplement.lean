import ManyTier.Lib.Bytes
import Mathlib.Data.Nat.ModEq

/-! Ones' complement sums.

Words of at most `m` are added with the carry brought in at the low end. What adds up so
is found from the plain sum as well (`sum_eq_of_represents`), and carries may be brought
in at any later time (`Represents.carry`); a number and what it lacks to `m` add up to
`m` (`Represents.complement`). -/
namespace ManyTier.OnesComplement

section
variable (m : Nat)

/-- Two words with an end-around carry. -/
def add (a b : Nat) : Nat := if a + b ≤ m then a + b else a + b - m

def sum (words : List Nat) : Nat := words.foldl (add m) 0

/-- A word stands for a number: it is congruent to it, and zero only for zero. -/
structure Represents (s r : Nat) : Prop where
  le : r ≤ m
  congr : r ≡ s [MOD m]
  zero : r = 0 ↔ s = 0

end

variable {m : Nat}

theorem represents_self {s : Nat} (h : s ≤ m) : Represents m s s := ⟨h, rfl, Iff.rfl⟩

/-- A number has one word. -/
theorem Represents.unique {s r r' : Nat} (h : Represents m s r) (h' : Represents m s r') : r = r' := by
  have hsame : r ≡ r' [MOD m] := h.congr.trans h'.congr.symm
  have hle := h.le
  have hle' := h'.le
  rcases Nat.eq_zero_or_pos s with hs | hs
  · rw [h.zero.mpr hs, h'.zero.mpr hs]
  · have hr : r ≠ 0 := fun hr => hs.ne' (h.zero.mp hr)
    have hr' : r' ≠ 0 := fun hr => hs.ne' (h'.zero.mp hr)
    -- between 1 and `m`, only `m` itself is a multiple of it
    have hnone : ∀ {r : Nat}, r ≠ 0 → r ≡ m [MOD m] → ¬ r < m := by
      intro r hr hcongr hlt
      have hdvd : m ∣ r := Nat.modEq_zero_iff_dvd.mp (hcongr.trans (Nat.modEq_zero_iff_dvd.mpr dvd_rfl))
      exact absurd (Nat.le_of_dvd (Nat.pos_of_ne_zero hr) hdvd) (Nat.not_le.mpr hlt)
    rcases hle.lt_or_eq with hlt | heq
    · rcases hle'.lt_or_eq with hlt' | heq'
      · exact hsame.eq_of_lt_of_lt hlt hlt'
      · rw [heq'] at hsame
        exact absurd hlt (hnone hr hsame)
    · rcases hle'.lt_or_eq with hlt' | heq'
      · rw [heq] at hsame
        exact absurd hlt' (hnone hr' hsame.symm)
      · exact heq.trans heq'.symm

/-- A word added. -/
theorem Represents.add {s r w : Nat} (h : Represents m s r) (hw : w ≤ m) : Represents m (s + w) (add m r w) := by
  have hle := h.le
  have hzero := h.zero
  unfold OnesComplement.add
  split
  · rename_i hsmall
    exact ⟨hsmall, h.congr.add_right w, by omega⟩
  · rename_i hlarge
    refine ⟨by omega, ?_, by omega⟩
    have hback : r + w - m + m = r + w := by omega
    have hdrop : r + w - m + m ≡ r + w - m [MOD m] := by simp [Nat.ModEq]
    rw [hback] at hdrop
    exact hdrop.symm.trans (h.congr.add_right w)

theorem represents_sum {words : List Nat} (h : ∀ w ∈ words, w ≤ m) : Represents m words.sum (sum m words) := by
  have hfold : ∀ (words : List Nat) (s r : Nat), (∀ w ∈ words, w ≤ m) → Represents m s r →
      Represents m (s + words.sum) (words.foldl (OnesComplement.add m) r) := by
    intro words
    induction words with
    | nil => exact fun _ _ _ hr => hr
    | cons w rest ih =>
      intro s r hwords hr
      obtain ⟨hw, hrest⟩ := List.forall_mem_cons.mp hwords
      rw [List.sum_cons, ← Nat.add_assoc]
      exact ih _ _ hrest (hr.add hw)
  have hall := hfold words 0 0 h (represents_self (Nat.zero_le m))
  rwa [Nat.zero_add] at hall

theorem sum_eq_of_represents {words : List Nat} (h : ∀ w ∈ words, w ≤ m) {r : Nat} (hr : Represents m words.sum r) :
    sum m words = r :=
  (represents_sum h).unique hr

/-- The part above a word carried in at the low end. -/
theorem Represents.carry {s r : Nat} (h : Represents m (s % (m + 1) + s / (m + 1)) r) : Represents m s r := by
  have hparts := Nat.div_add_mod s (m + 1)
  have hsplit : s = s % (m + 1) + s / (m + 1) + m * (s / (m + 1)) := by
    rw [Nat.succ_mul] at hparts
    omega
  have hcongr : s % (m + 1) + s / (m + 1) ≡ s [MOD m] := by
    conv_rhs => rw [hsplit]
    simp [Nat.ModEq]
  refine ⟨h.le, h.congr.trans hcongr, h.zero.trans ?_⟩
  constructor
  · intro hzero
    have hdiv : s / (m + 1) = 0 := (Nat.add_eq_zero_iff.mp hzero).2
    rw [hzero, hdiv] at hsplit
    exact hsplit
  · rintro rfl
    simp

/-- What a number lacks to the largest word, added. -/
theorem Represents.complement {s r : Nat} (h : Represents m s r) : Represents m (s + (m - r)) m := by
  have hle := h.le
  have hzero := h.zero
  refine ⟨le_rfl, ?_, by omega⟩
  have hsum : r + (m - r) = m := by omega
  calc m = r + (m - r) := hsum.symm
    _ ≡ s + (m - r) [MOD m] := h.congr.add_right _

end ManyTier.OnesComplement
