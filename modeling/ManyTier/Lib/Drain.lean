import Mathlib.Data.List.Basic

/-! A buffer that is emptied key by key.

What waits has a key, and is handed on as something that shows its key. `Drains` says
that nothing is lost and nothing handed on twice: what was handed on of a key, followed
by what still waits of it, is what waited of it before, in the same order, and of no key
is only a part handed on. Drains follow one another (`Drains.trans`), and handing on all
of one key, with other drains in between, is a drain (`Drains.of_taken`). -/
namespace ManyTier

section
variable {α β κ : Type} [DecidableEq κ] (view : α → β) (key : β → κ)

/-- What has a key. -/
def ofKey (k : κ) (l : List β) : List β := l.filter fun b => key b = k

/-- What has another key. -/
def besides (k : κ) (l : List β) : List β := l.filter fun b => key b ≠ k

variable {key}

@[simp] theorem ofKey_nil (k : κ) : ofKey key k [] = [] := rfl

theorem ofKey_append (k : κ) (l l' : List β) : ofKey key k (l ++ l') = ofKey key k l ++ ofKey key k l' :=
  List.filter_append ..

theorem besides_append (k : κ) (l l' : List β) : besides key k (l ++ l') = besides key k l ++ besides key k l' :=
  List.filter_append ..

theorem ofKey_cons {k : κ} {b : β} (h : key b = k) (l : List β) : ofKey key k (b :: l) = b :: ofKey key k l :=
  List.filter_cons_of_pos (decide_eq_true h)

theorem besides_cons {k : κ} {b : β} (h : key b = k) (l : List β) : besides key k (b :: l) = besides key k l :=
  List.filter_cons_of_neg (by simp [h])

theorem besides_of_none {k : κ} {l : List β} (h : ofKey key k l = []) : besides key k l = l := by
  rw [besides, List.filter_eq_self]
  intro b hb
  have hne := List.filter_eq_nil_iff.mp h b hb
  simpa using hne

theorem ofKey_besides_self (k : κ) (l : List β) : ofKey key k (besides key k l) = [] := by
  rw [ofKey, List.filter_eq_nil_iff]
  intro b hb
  simpa using (List.mem_filter.mp hb).2

theorem ofKey_besides {k k' : κ} (hne : k' ≠ k) (l : List β) : ofKey key k' (besides key k l) = ofKey key k' l := by
  rw [ofKey, besides, List.filter_filter]
  refine List.filter_congr fun b _ => ?_
  by_cases hb : key b = k'
  · simp [hb, hne]
  · simp [hb]

variable (key)

/-- From one buffer to another, by handing something on. -/
structure Drains (before after : List α) (handed : List β) : Prop where
  order : after.Sublist before
  once : ∀ k, ofKey key k handed ++ ofKey key k (after.map view) = ofKey key k (before.map view)
  whole : ∀ k, ofKey key k handed = [] ∨ ofKey key k (after.map view) = []

variable {view key} {before mid after : List α} {handed handed' : List β}

namespace Drains

theorem refl (l : List α) : Drains view key l l [] :=
  ⟨List.Sublist.refl l, fun _ => rfl, fun _ => .inl rfl⟩

theorem trans (h : Drains view key before mid handed) (h' : Drains view key mid after handed') :
    Drains view key before after (handed ++ handed') := by
  refine ⟨h'.order.trans h.order, fun k => ?_, fun k => ?_⟩
  · rw [ofKey_append, List.append_assoc, h'.once, h.once]
  · rcases h.whole k with hnone | hgone
    · rw [ofKey_append, hnone, List.nil_append]
      exact h'.whole k
    · have honce := h'.once k
      rw [hgone] at honce
      exact .inr (List.append_eq_nil_iff.mp honce).2

/-- Of a key that nothing waits of, nothing is handed on and nothing waits afterwards. -/
theorem idle (h : Drains view key before after handed) {k : κ} (hnone : ofKey key k (before.map view) = []) :
    ofKey key k handed = [] ∧ ofKey key k (after.map view) = [] := by
  have honce := h.once k
  rw [hnone] at honce
  exact List.append_eq_nil_iff.mp honce

/-- All of one key is taken out and handed on, and what else is handed on meanwhile is a
drain of the rest. -/
theorem of_taken {k : κ} {rest : List α} (hrest : rest.Sublist before)
    (hbesides : rest.map view = besides key k (before.map view))
    (hall : ofKey key k handed = ofKey key k (before.map view))
    (h : Drains view key rest after (besides key k handed)) :
    Drains view key before after handed ∧ ofKey key k (after.map view) = [] := by
  have hgone : ofKey key k (after.map view) = [] := by
    refine (h.idle ?_).2
    rw [hbesides, ofKey_besides_self]
  refine ⟨⟨h.order.trans hrest, fun k' => ?_, fun k' => ?_⟩, hgone⟩
  · by_cases hk : k' = k
    · rw [hk, hgone, List.append_nil, hall]
    · have honce := h.once k'
      rw [hbesides, ofKey_besides hk, ofKey_besides hk] at honce
      exact honce
  · by_cases hk : k' = k
    · rw [hk]
      exact .inr hgone
    · have hwhole := h.whole k'
      rw [ofKey_besides hk] at hwhole
      exact hwhole

end Drains
end

end ManyTier
