import Mathlib.Topology.MetricSpace.PiNat

/-! What is known by its first places.

Things whose places are a sequence fall into the cylinders of their first `n` places. A
`Block` is such a cylinder, given by the one member that is blank behind its length
(`Block.eq_of_mem`). An operation that blanks all places behind the first `n` (`Cuts`)
gives the block of what it is given, changes nothing when it is done again, and gives the
same for two things exactly if they agree on their first `n` places. -/
namespace ManyTier

variable {α β : Type} [Inhabited α] {n : Nat}

/-! ### Sequences -/

/-- The first `n` places, and blanks behind them. -/
def cut (n : Nat) (s : Nat → α) (k : Nat) : α := if k < n then s k else default

theorem cut_of_lt {k : Nat} (h : k < n) (s : Nat → α) : cut n s k = s k := if_pos h

theorem cut_of_le {k : Nat} (h : n ≤ k) (s : Nat → α) : cut n s k = default := if_neg (Nat.not_lt.mpr h)

/-- Of bits, those behind are cleared. -/
theorem cut_bits (n : Nat) (s : Nat → Bool) (k : Nat) : cut n s k = (decide (k < n) && s k) := by
  rcases Nat.lt_or_ge k n with hk | hk
  · rw [cut_of_lt hk, decide_eq_true hk, Bool.true_and]
  · rw [cut_of_le hk, decide_eq_false (Nat.not_lt.mpr hk), Bool.false_and]
    rfl

theorem cut_eq_cut_iff {s t : Nat → α} : cut n s = cut n t ↔ ∀ k < n, s k = t k := by
  constructor
  · intro h k hk
    have hplace := congrFun h k
    rwa [cut_of_lt hk, cut_of_lt hk] at hplace
  · intro h
    funext k
    rcases Nat.lt_or_ge k n with hk | hk
    · rw [cut_of_lt hk, cut_of_lt hk, h k hk]
    · rw [cut_of_le hk, cut_of_le hk]

/-- What is blank behind its first `n` places is what it is cut to. -/
theorem cut_eq_self {s : Nat → α} (h : ∀ k, n ≤ k → s k = default) : cut n s = s := by
  funext k
  rcases Nat.lt_or_ge k n with hk | hk
  · exact cut_of_lt hk s
  · rw [cut_of_le hk, h k hk]

/-! ### Blocks -/

/-- A length, and a thing that is blank behind it. -/
@[ext] structure Block (places : β → Nat → α) where
  base : β
  length : Nat
  blank : ∀ k, length ≤ k → places base k = default

namespace Block
variable {places : β → Nat → α}

/-- What agrees with the base as far as the length says. -/
def members (B : Block places) : Set β := Set.preimage places (PiNat.cylinder (places B.base) B.length)

/-- The base has the places that its members have in common. -/
theorem places_base {B : Block places} {b : β} (h : b ∈ B.members) : places B.base = cut B.length (places b) := by
  rw [← cut_eq_self B.blank]
  exact cut_eq_cut_iff.mpr fun k hk => (h k hk).symm

/-- There is one block of a length around a thing. -/
theorem eq_of_mem (hinj : Function.Injective places) {B C : Block places} {b : β} (hlength : B.length = C.length)
    (hB : b ∈ B.members) (hC : b ∈ C.members) : B = C := by
  have hbase : places B.base = places C.base := by
    rw [places_base hB, places_base hC, hlength]
  exact Block.ext (hinj hbase) hlength

end Block

/-! ### Operations that cut -/

/-- An operation that leaves the first `n` places and blanks the others. -/
def Cuts (places : β → Nat → α) (n : Nat) (op : β → β) : Prop := ∀ b, places (op b) = cut n (places b)

namespace Cuts
variable {places : β → Nat → α} {op : β → β} (h : Cuts places n op)
include h

theorem kept (b : β) {k : Nat} (hk : k < n) : places (op b) k = places b k := by
  rw [h b, cut_of_lt hk]

theorem blank (b : β) {k : Nat} (hk : n ≤ k) : places (op b) k = default := by
  rw [h b, cut_of_le hk]

theorem idempotent (hinj : Function.Injective places) (b : β) : op (op b) = op b := by
  refine hinj ?_
  rw [h (op b)]
  exact cut_eq_self fun k hk => h.blank b hk

theorem eq_iff (hinj : Function.Injective places) (a b : β) : op a = op b ↔ ∀ k < n, places a k = places b k := by
  rw [← hinj.eq_iff, h a, h b, cut_eq_cut_iff]

/-- The block that a thing is cut to. -/
def block (b : β) : Block places := ⟨op b, n, fun _ hk => h.blank b hk⟩

theorem mem_block (b : β) : b ∈ (h.block b).members := fun _ hk => (h.kept b hk).symm

end Cuts

end ManyTier
