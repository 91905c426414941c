import Mathlib.Data.List.Basic

/-! A bounded queue whose members are tried again until they leave it.

At the bound a new member takes the place of the oldest (`pushBounded`). In a turn each
member in order is late or is answered for (`Swept`), and an answer says whether the
member leaves. What is late, what leaves and what stays are between them the members,
each once and each in the order of the queue (`perm_parts`). -/
namespace ManyTier

section
variable {α : Type} {bound : Nat} {l arrivals : List α}

/-- A new member at the end; at the bound the oldest gives way. -/
def pushBounded (bound : Nat) (l : List α) (a : α) : List α :=
  (if bound ≤ l.length then l.tail else l) ++ [a]

theorem pushBounded_room (h : l.length < bound) (a : α) : pushBounded bound l a = l ++ [a] := by
  rw [pushBounded, if_neg (Nat.not_le.mpr h)]

/-- At the bound the oldest goes, and nothing else does. -/
theorem pushBounded_full (hpos : 0 < bound) (h : bound ≤ l.length) (a : α) :
    ∃ oldest rest, l = oldest :: rest ∧ pushBounded bound l a = rest ++ [a] := by
  cases l with
  | nil =>
    rw [List.length_nil] at h
    omega
  | cons oldest rest => exact ⟨oldest, rest, rfl, by rw [pushBounded, if_pos h, List.tail_cons]⟩

theorem length_pushBounded_le (hpos : 0 < bound) (h : l.length ≤ bound) (a : α) :
    (pushBounded bound l a).length ≤ bound := by
  unfold pushBounded
  split
  · rw [List.length_append, List.length_tail, List.length_singleton]
    omega
  · rw [List.length_append, List.length_singleton]
    omega

/-- A queue in the order of the arrivals stays in that order. -/
theorem sublist_pushBounded (h : l.Sublist arrivals) (a : α) : (pushBounded bound l a).Sublist (arrivals ++ [a]) := by
  refine List.Sublist.append ?_ (List.Sublist.refl [a])
  split
  · exact l.tail_sublist.trans h
  · exact h

end

/-! ### A turn -/

/-- What a turn finds about a member: it is late, or there is an answer. -/
inductive Finding (β : Type) where
  | late
  | answered (answer : β)

namespace Finding
variable {α β : Type} (leaves : β → Bool)

def isLate : Finding β → Bool
  | late => true
  | answered _ => false

/-- The answer with which a member leaves. -/
def leaving : Finding β → Option β
  | late => none
  | answered b => if leaves b then some b else none

/-- The answer with which a member stays. -/
def staying : Finding β → Option β
  | late => none
  | answered b => if leaves b then none else some b

/-- The members that are late, those that leave and those that stay. -/
def lateOf (found : List (α × Finding β)) : List α := (found.filter fun e => e.2.isLate).map Prod.fst

def leavingOf (found : List (α × Finding β)) : List α :=
  (found.filter fun e => (e.2.leaving leaves).isSome).map Prod.fst

def stayingOf (found : List (α × Finding β)) : List α :=
  (found.filter fun e => (e.2.staying leaves).isSome).map Prod.fst

variable {leaves}

theorem stayingOf_sublist (found : List (α × Finding β)) : (stayingOf leaves found).Sublist (found.map Prod.fst) :=
  List.filter_sublist.map Prod.fst

theorem leavingOf_sublist (found : List (α × Finding β)) : (leavingOf leaves found).Sublist (found.map Prod.fst) :=
  List.filter_sublist.map Prod.fst

/-- Every member is late, leaves or stays, and no more than one of these. -/
theorem perm_parts (found : List (α × Finding β)) :
    (found.map Prod.fst).Perm (lateOf found ++ leavingOf leaves found ++ stayingOf leaves found) := by
  induction found with
  | nil => exact .nil
  | cons e rest ih =>
    obtain ⟨a, finding⟩ := e
    have hrest := ih.cons a
    cases finding with
    | late => exact hrest
    | answered b =>
      cases hb : leaves b with
      | true =>
        refine hrest.trans ?_
        simpa [lateOf, leavingOf, stayingOf, isLate, leaving, staying, hb] using List.perm_middle.symm
      | false =>
        have hmiddle : (a :: ((lateOf rest ++ leavingOf leaves rest) ++ stayingOf leaves rest)).Perm
            ((lateOf rest ++ leavingOf leaves rest) ++ a :: stayingOf leaves rest) := List.perm_middle.symm
        refine hrest.trans ?_
        simpa [lateOf, leavingOf, stayingOf, isLate, leaving, staying, hb] using hmiddle

end Finding

/-- A turn over the members in order, from one state of what answers to another. -/
inductive Swept {σ α β ε : Type} (late : α → Prop) (answer : σ → α → Except ε (σ × β)) :
    σ → List (α × Finding β) → σ → Prop where
  | nil (s : σ) : Swept late answer s [] s
  | late {s s' : σ} {a : α} {found : List (α × Finding β)} (hlate : late a) :
      Swept late answer s found s' → Swept late answer s ((a, .late) :: found) s'
  | answered {s s₁ s' : σ} {a : α} {b : β} {found : List (α × Finding β)} (hlate : ¬ late a)
      (hanswer : answer s a = .ok (s₁, b)) :
      Swept late answer s₁ found s' → Swept late answer s ((a, .answered b) :: found) s'

/-- Exactly the members that are late are found so. -/
theorem Swept.isLate_iff {σ α β ε : Type} {late : α → Prop} {answer : σ → α → Except ε (σ × β)} {s s' : σ}
    {found : List (α × Finding β)} (h : Swept late answer s found s') :
    ∀ e ∈ found, e.2.isLate = true ↔ late e.1 := by
  induction h with
  | nil => exact fun e he => nomatch he
  | late hlate _ ih =>
    rintro e (_ | ⟨_, he⟩)
    · exact iff_of_true rfl hlate
    · exact ih e he
  | answered hlate _ _ ih =>
    rintro e (_ | ⟨_, he⟩)
    · exact iff_of_false (by simp [Finding.isLate]) hlate
    · exact ih e he

end ManyTier
