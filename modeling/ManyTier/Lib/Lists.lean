import Mathlib.Data.List.Perm.Basic
import Mathlib.Data.List.Destutter
import Mathlib.Data.List.Sort
import Mathlib.Tactic

/-! List operations of the standard library that Lean's own do not cover: the least
element by a key, elements with a key each, an update of the first match, removal that
moves the last element, and sorting without repeats. -/
namespace ManyTier
variable {α β : Type}

/-- The first of the elements with the least key. -/
def minByKey (key : α → Nat) : List α → Option α
  | [] => none
  | a :: rest =>
    match minByKey key rest with
    | none => some a
    | some b => if key b < key a then some b else some a

theorem minByKey_mem {key : α → Nat} {l : List α} {a : α} (h : minByKey key l = some a) : a ∈ l := by
  induction l generalizing a with
  | nil => cases h
  | cons b rest ih =>
    rw [minByKey] at h
    split at h
    · cases h
      exact List.mem_cons_self
    · rename_i c hc
      split at h
      · cases h
        exact List.mem_cons_of_mem _ (ih hc)
      · cases h
        exact List.mem_cons_self

theorem minByKey_isSome (key : α → Nat) {l : List α} {a : α} (h : a ∈ l) : (minByKey key l).isSome = true := by
  cases l with
  | nil => cases h
  | cons b rest =>
    rw [minByKey]
    split
    · rfl
    · split <;> rfl

/-- Before it all keys are greater, and behind it none is smaller. -/
theorem minByKey_split {key : α → Nat} {l : List α} {a : α} (h : minByKey key l = some a) :
    ∃ front back, l = front ++ a :: back ∧ (∀ b ∈ front, key a < key b) ∧ ∀ b ∈ back, key a ≤ key b := by
  induction l generalizing a with
  | nil => cases h
  | cons b rest ih =>
    rw [minByKey] at h
    split at h
    · rename_i hnone
      cases h
      refine ⟨[], rest, rfl, by simp, ?_⟩
      intro c hc
      have hsome := minByKey_isSome key hc
      rw [hnone] at hsome
      cases hsome
    · rename_i c hc
      obtain ⟨front, back, rfl, hfront, hback⟩ := ih hc
      split at h
      · rename_i hless
        cases h
        exact ⟨b :: front, back, rfl, List.forall_mem_cons.mpr ⟨hless, hfront⟩, hback⟩
      · rename_i hleast
        cases h
        refine ⟨[], front ++ c :: back, rfl, by simp, ?_⟩
        intro d hd
        rcases List.mem_append.mp hd with hd | hd
        · have := hfront d hd
          omega
        · rcases List.mem_cons.mp hd with rfl | hd
          · omega
          · have := hback d hd
            omega

theorem minByKey_le {key : α → Nat} {l : List α} {a : α} (h : minByKey key l = some a) : ∀ b ∈ l, key a ≤ key b := by
  obtain ⟨front, back, rfl, hfront, hback⟩ := minByKey_split h
  intro b hb
  rcases List.mem_append.mp hb with hb | hb
  · exact (hfront b hb).le
  · rcases List.mem_cons.mp hb with rfl | hb
    · exact le_rfl
    · exact hback b hb

/-! ### Elements with a key each -/

section
variable {κ : Type} {key : α → κ} {l l' : List α}

/-- The element with a key is found wherever it stands. -/
theorem find?_perm [DecidableEq κ] (hnodup : (l.map key).Nodup) (hperm : l'.Perm l) (k : κ) :
    l'.find? (fun a => key a = k) = l.find? fun a => key a = k := by
  have hsame : ∀ a ∈ l, ∀ b ∈ l, key a = key b → a = b := fun a ha b hb => List.inj_on_of_nodup_map hnodup ha hb
  cases hfound : l.find? fun a => key a = k with
  | none =>
    rw [List.find?_eq_none] at hfound ⊢
    exact fun a ha => hfound a (hperm.mem_iff.mp ha)
  | some a =>
    have hmem := List.mem_of_find?_eq_some hfound
    have hkey : key a = k := by simpa using List.find?_some hfound
    cases hother : l'.find? fun a => key a = k with
    | none =>
      rw [List.find?_eq_none] at hother
      exact absurd (decide_eq_true hkey) (hother a (hperm.mem_iff.mpr hmem))
    | some b =>
      have hb : key b = k := by simpa using List.find?_some hother
      rw [hsame b (hperm.mem_iff.mp (List.mem_of_find?_eq_some hother)) a hmem (hb.trans hkey.symm)]

/-- The order in which elements are sorted by their keys is the same. -/
theorem insertionSort_perm [LinearOrder κ] (hnodup : (l.map key).Nodup) (hperm : l'.Perm l) :
    l'.insertionSort (fun a b => key a ≤ key b) = l.insertionSort fun a b => key a ≤ key b := by
  have hsorted : ∀ l : List α, (l.insertionSort fun a b => key a ≤ key b).Pairwise fun a b => key a ≤ key b := by
    intro l
    exact List.pairwise_insertionSort (r := fun a b => key a ≤ key b) l
  refine List.Perm.eq_of_pairwise ?_ (hsorted l') (hsorted l)
    (((List.perm_insertionSort _ l').trans hperm).trans (List.perm_insertionSort _ l).symm)
  intro a b ha hb hab hba
  have ha' : a ∈ l := hperm.mem_iff.mp ((List.perm_insertionSort _ l').mem_iff.mp ha)
  have hb' : b ∈ l := (List.perm_insertionSort _ l).mem_iff.mp hb
  exact List.inj_on_of_nodup_map hnodup ha' hb' (le_antisymm hab hba)

end

/-! ### The first match updated -/

/-- The first element that satisfies `p`, updated. -/
def modifyFirst (p : α → Bool) (f : α → α) : List α → List α
  | [] => []
  | a :: rest => if p a then f a :: rest else a :: modifyFirst p f rest

section
variable {p : α → Bool} {f : α → α} {l : List α}

/-- An element of the result is the update of the first match or an old element. -/
theorem mem_modifyFirst {b : α} (h : b ∈ modifyFirst p f l) :
    b ∈ l ∨ ∃ a, l.find? p = some a ∧ b = f a := by
  induction l with
  | nil => cases h
  | cons a rest ih =>
    rw [modifyFirst] at h
    split at h
    · rename_i hp
      rcases List.mem_cons.mp h with rfl | h
      · exact .inr ⟨a, by simp [hp], rfl⟩
      · exact .inl (List.mem_cons_of_mem _ h)
    · rename_i hp
      rcases List.mem_cons.mp h with rfl | h
      · exact .inl List.mem_cons_self
      · rcases ih h with hb | ⟨c, hc, rfl⟩
        · exact .inl (List.mem_cons_of_mem _ hb)
        · exact .inr ⟨c, by simp [hp, hc], rfl⟩

/-- A view that the update leaves alone is the same list. -/
theorem map_modifyFirst (g : α → β) (h : ∀ a, l.find? p = some a → g (f a) = g a) :
    (modifyFirst p f l).map g = l.map g := by
  induction l with
  | nil => rfl
  | cons a rest ih =>
    rw [modifyFirst]
    split
    · rename_i hp
      simp [h a (by simp [hp])]
    · rename_i hp
      have hrest : ∀ b, rest.find? p = some b → g (f b) = g b := fun b hb => h b (by simp [hp, hb])
      simp [ih hrest]

/-- Element by element, an update is related to what was there if it is at its place. -/
theorem forall₂_modifyFirst {R : α → α → Prop} (hrefl : ∀ a, R a a) :
    List.Forall₂ R l (modifyFirst p f l) ↔ ∀ a, l.find? p = some a → R a (f a) := by
  induction l with
  | nil => simp [modifyFirst]
  | cons a rest ih =>
    rw [modifyFirst]
    split
    · rename_i hp
      simp [hp, hrefl]
    · rename_i hp
      simp [hp, hrefl a, ih]

/-- An element of a list updated twice is an old element or the first match, updated twice. -/
theorem mem_modifyFirst_twice {g : α → α} (hf : ∀ a, p a = true → p (f a) = true) {b : α}
    (h : b ∈ modifyFirst p g (modifyFirst p f l)) : b ∈ l ∨ ∃ a, p a = true ∧ b = g (f a) := by
  induction l with
  | nil => cases h
  | cons a rest ih =>
    by_cases ha : p a = true
    · rw [modifyFirst, if_pos ha, modifyFirst, if_pos (hf a ha)] at h
      rcases List.mem_cons.mp h with rfl | hrest
      · exact .inr ⟨a, ha, rfl⟩
      · exact .inl (List.mem_cons_of_mem _ hrest)
    · rw [modifyFirst, if_neg ha, modifyFirst, if_neg ha] at h
      rcases List.mem_cons.mp h with rfl | hrest
      · exact .inl List.mem_cons_self
      · exact (ih hrest).imp_left (List.mem_cons_of_mem _)

/-- The first match behind elements that do not match is updated. -/
theorem modifyFirst_append (hl : l.any p = false) {a : α} (ha : p a = true) :
    modifyFirst p f (l ++ [a]) = l ++ [f a] := by
  induction l with
  | nil => simp [modifyFirst, ha]
  | cons b rest ih =>
    rw [List.any_cons, Bool.or_eq_false_iff] at hl
    rw [List.cons_append, modifyFirst, hl.1, ih hl.2]
    rfl

theorem any_modifyFirst (hf : ∀ a, p a = true → p (f a) = true) : (modifyFirst p f l).any p = l.any p := by
  induction l with
  | nil => rfl
  | cons a rest ih =>
    rw [modifyFirst]
    split
    · rename_i ha
      simp [ha, hf a ha]
    · rename_i ha
      simp [ha, ih]

/-- Where the keys are distinct, the update of one key is an update of every element with it. -/
theorem modifyFirst_eq_map [DecidableEq β] (key : α → β) (k : β) (h : (l.map key).Nodup) :
    modifyFirst (fun a => key a = k) f l = l.map fun a => if key a = k then f a else a := by
  induction l with
  | nil => rfl
  | cons a rest ih =>
    rw [List.map_cons, List.nodup_cons] at h
    rw [modifyFirst, List.map_cons]
    by_cases ha : key a = k
    · have hrest : rest.map (fun b => if key b = k then f b else b) = rest := by
        rw [List.map_congr_left (g := id), List.map_id]
        intro b hb
        refine if_neg fun hk => h.1 ?_
        rw [ha, ← hk]
        exact List.mem_map_of_mem hb
      simp [ha, hrest]
    · simp [ha, ih h.2]

/-- Searching for the element that was updated finds its update. -/
theorem find?_modifyFirst (h : ∀ a, l.find? p = some a → p (f a) = true) :
    (modifyFirst p f l).find? p = (l.find? p).map f := by
  induction l with
  | nil => rfl
  | cons a rest ih =>
    rw [modifyFirst]
    split
    · rename_i hp
      simp [hp, h a (by simp [hp])]
    · rename_i hp
      have hrest : ∀ b, rest.find? p = some b → p (f b) = true := fun b hb => h b (by simp [hp, hb])
      simp [hp, ih hrest]

/-- Searching for something else is not disturbed. -/
theorem find?_modifyFirst_of_ne {q : α → Bool}
    (h : ∀ a, p a = true → q a = false ∧ q (f a) = false) :
    (modifyFirst p f l).find? q = l.find? q := by
  induction l with
  | nil => rfl
  | cons a rest ih =>
    rw [modifyFirst]
    split
    · rename_i hp
      simp [(h a hp).1, (h a hp).2]
    · by_cases hq : q a = true
      · simp [hq]
      · simp [hq, ih]

end

/-! ### Removal -/

/-- The element at an index removed, and the last one put in its place. -/
def swapRemove (l : List α) (index : Nat) : List α :=
  match l.getLast? with
  | some last => (l.set index last).dropLast
  | none => []

/-- Up to order, the element is removed. -/
theorem swapRemove_perm {l : List α} {index : Nat} (h : index < l.length) :
    (swapRemove l index).Perm (l.eraseIdx index) := by
  have hne : l ≠ [] := fun h0 => by simp [h0] at h
  obtain ⟨front, last, rfl⟩ : ∃ front last, l = front ++ [last] :=
    ⟨l.dropLast, l.getLast hne, (List.dropLast_append_getLast hne).symm⟩
  simp only [swapRemove, List.getLast?_append, List.getLast?_singleton, Option.some_or]
  rw [List.length_append, List.length_singleton] at h
  rcases Nat.lt_or_ge index front.length with hlt | hge
  · rw [List.set_append_left _ _ hlt, List.dropLast_concat, List.eraseIdx_append_of_lt_length hlt]
    exact (List.set_perm_cons_eraseIdx hlt last).trans (List.perm_append_singleton _ _).symm
  · obtain rfl : index = front.length := by omega
    rw [List.set_append_right _ _ le_rfl, List.eraseIdx_append_of_length_le le_rfl]
    simp

/-- With distinct keys, removing an element removes exactly what has its key. -/
theorem eraseIdx_eq_filter [DecidableEq β] (key : α → β) {l : List α} (hl : (l.map key).Nodup)
    {index : Nat} (h : index < l.length) :
    l.eraseIdx index = l.filter fun b => key b ≠ key l[index] := by
  induction l generalizing index with
  | nil => cases h
  | cons a rest ih =>
    obtain ⟨ha, hrest⟩ := List.nodup_cons.mp hl
    cases index with
    | zero =>
      have hkeep : ∀ b ∈ rest, decide (key b ≠ key a) = true := by
        intro b hb
        refine decide_eq_true fun heq => ha ?_
        rw [← heq]
        exact List.mem_map_of_mem hb
      simp only [List.eraseIdx_cons_zero, List.getElem_cons_zero]
      rw [List.filter_cons_of_neg (by simp), List.filter_eq_self.mpr hkeep]
    | succ index =>
      have hlt : index < rest.length := by simpa using h
      have hkey : key a ≠ key rest[index] := by
        intro heq
        apply ha
        rw [heq]
        exact List.mem_map_of_mem (List.getElem_mem hlt)
      simp only [List.eraseIdx_cons_succ, List.getElem_cons_succ]
      rw [List.filter_cons_of_pos (by simpa using hkey), ih hrest hlt]

/-- What holds of all members of a list, in terms of a list related to it. -/
theorem forall_mem_iff_of_forall₂ {α β : Type} {R : α → β → Prop} {l : List α} {l' : List β}
    (h : List.Forall₂ R l l') {p : α → Prop} {q : β → Prop}
    (hiff : ∀ a ∈ l, ∀ b, R a b → (p a ↔ q b)) : (∀ a ∈ l, p a) ↔ ∀ b ∈ l', q b := by
  induction h with
  | nil => simp
  | cons hab _ ih =>
    simp only [List.forall_mem_cons]
    exact and_congr (hiff _ List.mem_cons_self _ hab) (ih fun a ha => hiff a (List.mem_cons_of_mem _ ha))

/-- What a turn of a loop establishes about its element, and the other turns keep, holds
of every element at the end. -/
theorem foldl_each {α β : Type} {f : β → α → β} (Inv : β → Prop) (P : α → β → Prop)
    (hinv : ∀ b a, Inv b → Inv (f b a)) (hthis : ∀ b a, Inv b → P a (f b a))
    (hkeep : ∀ b a x, Inv b → P x b → P x (f b a)) {l : List α} {b : β} (hb : Inv b) :
    ∀ x ∈ l, P x (l.foldl f b) := by
  -- It holds of the elements whose turn is over.
  suffices h : ∀ (done : List α) (b : β), Inv b → (∀ x ∈ done, P x b) →
      ∀ x, x ∈ done ∨ x ∈ l → P x (l.foldl f b) from
    fun x hx => h [] b hb (by simp) x (.inr hx)
  induction l with
  | nil =>
    intro done b _ hdone x hx
    exact hdone x (hx.resolve_right (by simp))
  | cons a rest ih =>
    intro done b hb hdone x hx
    refine ih (a :: done) (f b a) (hinv b a hb) ?_ x ?_
    · intro y hy
      rcases List.mem_cons.mp hy with rfl | hy
      · exact hthis b _ hb
      · exact hkeep b a y hb (hdone y hy)
    · rw [List.mem_cons] at hx ⊢
      tauto

/-! ### Sorted, without repeats -/

/-- Sorted, and of neighbours that are the same only the first. -/
def sortedDistinct [LinearOrder α] (l : List α) : List α := (l.insertionSort (· ≤ ·)).destutter (· ≠ ·)

theorem mem_destutter'_ne [DecidableEq α] {l : List α} {a x : α} : x ∈ l.destutter' (· ≠ ·) a ↔ x = a ∨ x ∈ l := by
  induction l generalizing a with
  | nil => simp
  | cons b rest ih =>
    rw [List.destutter'_cons]
    split
    · rw [List.mem_cons, ih, List.mem_cons]
    · rename_i hab
      obtain rfl : a = b := not_not.mp hab
      rw [ih, List.mem_cons]
      tauto

theorem pairwise_destutter'_ne [LinearOrder α] {l : List α} {a : α} (h : (a :: l).Pairwise (· ≤ ·)) :
    (l.destutter' (· ≠ ·) a).Pairwise (· < ·) := by
  induction l generalizing a with
  | nil => simp
  | cons b rest ih =>
    obtain ⟨hhead, htail⟩ := List.pairwise_cons.mp h
    rw [List.destutter'_cons]
    split
    · rename_i hab
      have hlt : a < b := lt_of_le_of_ne (hhead b List.mem_cons_self) hab
      refine List.pairwise_cons.mpr ⟨fun x hx => ?_, ih htail⟩
      rcases mem_destutter'_ne.mp hx with rfl | hx
      · exact hlt
      · exact hlt.trans_le ((List.pairwise_cons.mp htail).1 x hx)
    · rename_i hab
      obtain rfl : a = b := not_not.mp hab
      exact ih htail

@[simp] theorem mem_sortedDistinct [LinearOrder α] {l : List α} {x : α} : x ∈ sortedDistinct l ↔ x ∈ l := by
  have hsort : x ∈ l.insertionSort (· ≤ ·) ↔ x ∈ l := List.mem_insertionSort _
  rw [← hsort, sortedDistinct]
  cases l.insertionSort (· ≤ ·) with
  | nil => rfl
  | cons a rest => rw [List.destutter_cons', mem_destutter'_ne, List.mem_cons]

theorem pairwise_sortedDistinct [LinearOrder α] (l : List α) : (sortedDistinct l).Pairwise (· < ·) := by
  have hsort := List.pairwise_insertionSort (· ≤ ·) l
  rw [sortedDistinct]
  cases hl : l.insertionSort (· ≤ ·) with
  | nil => exact List.Pairwise.nil
  | cons a rest =>
    rw [hl] at hsort
    exact pairwise_destutter'_ne hsort

end ManyTier
