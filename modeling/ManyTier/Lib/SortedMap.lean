import Mathlib.Order.Basic
import Mathlib.Data.List.Basic
import Mathlib.Tactic

/-! Finite maps iterated in key order.

A `SortedMap` is a list of entries whose keys strictly increase; the order is a
field, so no key is listed twice and entries come out in order. `get?` is the
reader the rules speak of: each operation has one lemma that says what it does to
every lookup, and `mem_entries` turns membership into a lookup. -/
namespace ManyTier

structure SortedMap (κ ν : Type) [LinearOrder κ] where
  entries : List (κ × ν)
  sorted : entries.Pairwise fun a b => a.1 < b.1

namespace SortedMap
variable {κ ν : Type} [LinearOrder κ]

instance [DecidableEq ν] : DecidableEq (SortedMap κ ν) := fun m m' =>
  decidable_of_iff (m.entries = m'.entries) (by cases m; cases m'; simp)

def empty : SortedMap κ ν := ⟨[], List.Pairwise.nil⟩

def get? (m : SortedMap κ ν) (k : κ) : Option ν :=
  (m.entries.find? fun e => e.1 = k).map Prod.snd

def contains (m : SortedMap κ ν) (k : κ) : Bool := (m.get? k).isSome

def size (m : SortedMap κ ν) : Nat := m.entries.length

def keys (m : SortedMap κ ν) : List κ := m.entries.map Prod.fst

/-- Put `v` at `k`'s place in the order, over an entry already there. -/
def insertEntry (k : κ) (v : ν) : List (κ × ν) → List (κ × ν)
  | [] => [(k, v)]
  | e :: rest =>
    if k < e.1 then (k, v) :: e :: rest
    else if k = e.1 then (k, v) :: rest
    else e :: insertEntry k v rest

theorem mem_insertEntry {k : κ} {v : ν} {l : List (κ × ν)} {e : κ × ν}
    (h : e ∈ insertEntry k v l) : e = (k, v) ∨ e ∈ l := by
  induction l with
  | nil => simpa [insertEntry] using h
  | cons e' rest ih =>
    unfold insertEntry at h
    split at h
    · simpa using h
    · split at h
      · rcases List.mem_cons.mp h with rfl | h
        · exact .inl rfl
        · exact .inr (List.mem_cons_of_mem _ h)
      · rcases List.mem_cons.mp h with rfl | h
        · exact .inr List.mem_cons_self
        · exact (ih h).imp_right (List.mem_cons_of_mem _)

theorem sorted_insertEntry (k : κ) (v : ν) (l : List (κ × ν))
    (h : l.Pairwise fun a b => a.1 < b.1) :
    (insertEntry k v l).Pairwise fun a b => a.1 < b.1 := by
  induction l with
  | nil => simp [insertEntry]
  | cons e rest ih =>
    obtain ⟨hhead, htail⟩ := List.pairwise_cons.mp h
    unfold insertEntry
    split
    · rename_i hlt
      refine List.pairwise_cons.mpr ⟨?_, h⟩
      intro e' he'
      rcases List.mem_cons.mp he' with rfl | he'
      · exact hlt
      · exact hlt.trans (hhead e' he')
    · split
      · rename_i heq
        subst heq
        exact List.pairwise_cons.mpr ⟨hhead, htail⟩
      · rename_i hnlt hne
        refine List.pairwise_cons.mpr ⟨?_, ih htail⟩
        intro e' he'
        rcases mem_insertEntry he' with rfl | he'
        · exact lt_of_le_of_ne (not_lt.mp hnlt) (Ne.symm hne)
        · exact hhead e' he'

def insert (m : SortedMap κ ν) (k : κ) (v : ν) : SortedMap κ ν :=
  ⟨insertEntry k v m.entries, sorted_insertEntry k v m.entries m.sorted⟩

/-- Every entry's value replaced by a function of the entry. -/
def mapEntries (m : SortedMap κ ν) (f : κ → ν → ν) : SortedMap κ ν :=
  ⟨m.entries.map fun e => (e.1, f e.1 e.2), by simpa [List.pairwise_map] using m.sorted⟩

/-- Update the value at `k`, if there is one. -/
def modify (m : SortedMap κ ν) (k : κ) (f : ν → ν) : SortedMap κ ν :=
  m.mapEntries fun k' v => if k' = k then f v else v

/-- Keep the entries that satisfy `p`. -/
def retain (m : SortedMap κ ν) (p : κ → ν → Bool) : SortedMap κ ν :=
  ⟨m.entries.filter fun e => p e.1 e.2, m.sorted.filter _⟩

def erase (m : SortedMap κ ν) (k : κ) : SortedMap κ ν := m.retain fun k' _ => k' ≠ k

/-! ### Lookups -/

/-- An entry of a sorted list is found by its own key. -/
theorem find?_of_mem {l : List (κ × ν)} (h : l.Pairwise fun a b => a.1 < b.1) {e : κ × ν}
    (he : e ∈ l) : l.find? (fun e' => e'.1 = e.1) = some e := by
  induction l with
  | nil => cases he
  | cons e' rest ih =>
    obtain ⟨hhead, htail⟩ := List.pairwise_cons.mp h
    rcases List.mem_cons.mp he with rfl | he
    · simp
    · have hne : e'.1 ≠ e.1 := (hhead e he).ne
      simp [hne, ih htail he]

theorem mem_entries (m : SortedMap κ ν) (k : κ) (v : ν) :
    (k, v) ∈ m.entries ↔ m.get? k = some v := by
  constructor
  · intro h
    simp [get?, find?_of_mem m.sorted h]
  · intro h
    obtain ⟨e, he, hv⟩ := Option.map_eq_some_iff.mp h
    have hk : e.1 = k := by simpa using List.find?_some he
    have hmem := List.mem_of_find?_eq_some he
    rwa [← hk, ← hv]

@[simp] theorem get?_empty (k : κ) : (empty : SortedMap κ ν).get? k = none := rfl

theorem find?_insertEntry (k k' : κ) (v : ν) (l : List (κ × ν)) :
    ((insertEntry k v l).find? fun e => e.1 = k').map Prod.snd =
      if k' = k then some v else (l.find? fun e => e.1 = k').map Prod.snd := by
  induction l with
  | nil => by_cases h : k = k' <;> simp [insertEntry, h, eq_comm]
  | cons e rest ih =>
    unfold insertEntry
    split
    · by_cases h : k = k' <;> simp [h, eq_comm]
    · split
      · rename_i heq
        by_cases h : k = k'
        · simp [h]
        · have he : e.1 ≠ k' := heq ▸ h
          simp [h, Ne.symm h, he]
      · rename_i hne
        by_cases h : e.1 = k'
        · have hk : k' ≠ k := fun hk => hne (by rw [h, hk])
          simp [h, hk]
        · simpa [h] using ih

theorem get?_insert (m : SortedMap κ ν) (k k' : κ) (v : ν) :
    (m.insert k v).get? k' = if k' = k then some v else m.get? k' :=
  find?_insertEntry k k' v m.entries

@[simp] theorem get?_insert_self (m : SortedMap κ ν) (k : κ) (v : ν) :
    (m.insert k v).get? k = some v := by
  simp [get?_insert]

theorem get?_insert_of_ne (m : SortedMap κ ν) {k k' : κ} (v : ν) (h : k' ≠ k) :
    (m.insert k v).get? k' = m.get? k' := by
  simp [get?_insert, h]

theorem get?_mapEntries (m : SortedMap κ ν) (f : κ → ν → ν) (k : κ) :
    (m.mapEntries f).get? k = (m.get? k).map (f k) := by
  simp only [get?, mapEntries, List.find?_map, Option.map_map, Function.comp_def]
  cases h : m.entries.find? fun e => e.1 = k with
  | none => rfl
  | some e =>
    have hk : e.1 = k := by simpa using List.find?_some h
    simp [hk]

theorem get?_modify (m : SortedMap κ ν) (k k' : κ) (f : ν → ν) :
    (m.modify k f).get? k' = if k' = k then (m.get? k').map f else m.get? k' := by
  rw [modify, get?_mapEntries]
  by_cases h : k' = k
  · simp [h]
  · simp [h]

theorem get?_retain (m : SortedMap κ ν) (p : κ → ν → Bool) (k : κ) :
    (m.retain p).get? k = (m.get? k).filter (p k) := by
  cases h : m.get? k with
  | none =>
    simp only [Option.filter_none]
    by_contra hne
    obtain ⟨v, hv⟩ := Option.ne_none_iff_exists'.mp hne
    have hmem := (mem_entries _ _ _).mpr hv
    have hold := (mem_entries m k v).mp (List.mem_filter.mp hmem).1
    rw [h] at hold
    cases hold
  | some v =>
    have hmem := (mem_entries m k v).mpr h
    by_cases hp : p k v = true
    · have hkeep : (k, v) ∈ (m.retain p).entries := List.mem_filter.mpr ⟨hmem, hp⟩
      rw [(mem_entries _ _ _).mp hkeep, Option.filter_some, if_pos hp]
    · have hgone : (m.retain p).get? k = none := by
        by_contra hne
        obtain ⟨v', hv'⟩ := Option.ne_none_iff_exists'.mp hne
        obtain ⟨hin, hp'⟩ := List.mem_filter.mp ((mem_entries _ _ _).mpr hv')
        have := (mem_entries m k v').mp hin
        rw [h] at this
        exact hp (by cases this; exact hp')
      rw [hgone, Option.filter_some, if_neg hp]

theorem get?_erase (m : SortedMap κ ν) (k k' : κ) :
    (m.erase k).get? k' = if k' = k then none else m.get? k' := by
  rw [erase, get?_retain]
  by_cases h : k' = k
  · cases m.get? k' <;> simp [h]
  · cases m.get? k' <;> simp [h]

/-! ### Sizes -/

/-- The sum of what each entry counts for. -/
def sumBy (m : SortedMap κ ν) (f : κ × ν → Nat) : Nat := (m.entries.map f).sum

theorem size_eq_sumBy (m : SortedMap κ ν) : m.size = m.sumBy fun _ => 1 := by
  simp [size, sumBy]

theorem sumBy_erase (m : SortedMap κ ν) (k : κ) (f : κ × ν → Nat) :
    (m.erase k).sumBy f + ((m.get? k).map fun v => f (k, v)).getD 0 = m.sumBy f := by
  obtain ⟨l, hl⟩ := m
  simp only [sumBy, erase, retain, get?]
  induction l with
  | nil => rfl
  | cons e rest ih =>
    obtain ⟨hhead, htail⟩ := List.pairwise_cons.mp hl
    by_cases hk : e.1 = k
    · have hrest : rest.filter (fun e' => e'.1 ≠ k) = rest := by
        apply List.filter_eq_self.mpr
        intro e' he'
        simpa using hk ▸ (hhead e' he').ne'
      have hfe : f (k, e.2) = f e := by rw [← hk]
      simp only [ne_eq, decide_not, hk, decide_true, Bool.not_true, Bool.false_eq_true,
        not_false_eq_true, List.filter_cons_of_neg, List.find?_cons_of_pos, Option.map_some,
        Option.getD_some, List.map_cons, List.sum_cons, hfe] at hrest ⊢
      rw [hrest, Nat.add_comm]
    · have := ih htail
      simp only [ne_eq, decide_not, hk, decide_false, Bool.not_false, List.filter_cons_of_pos,
        Bool.false_eq_true, not_false_eq_true, List.find?_cons_of_neg, List.map_cons,
        List.sum_cons] at this ⊢
      omega

theorem sumBy_insert (m : SortedMap κ ν) (k : κ) (v : ν) (f : κ × ν → Nat) :
    (m.insert k v).sumBy f = (m.erase k).sumBy f + f (k, v) := by
  obtain ⟨l, hl⟩ := m
  simp only [sumBy, erase, retain, insert]
  induction l with
  | nil => simp [insertEntry]
  | cons e rest ih =>
    obtain ⟨hhead, htail⟩ := List.pairwise_cons.mp hl
    have habove : k ≤ e.1 → rest.filter (fun e' => e'.1 ≠ k) = rest := by
      intro hle
      apply List.filter_eq_self.mpr
      intro e' he'
      simpa using (hle.trans_lt (hhead e' he')).ne'
    unfold insertEntry
    split
    · rename_i hlt
      have hrest := habove hlt.le
      simp only [ne_eq, decide_not] at hrest
      simp [hlt.ne', hrest]
      omega
    · split
      · rename_i heq
        have hrest := habove heq.le
        subst heq
        simp only [ne_eq, decide_not] at hrest
        simp [hrest]
        omega
      · rename_i hne
        have := ih htail
        simp only [ne_eq, decide_not] at this
        simp [Ne.symm hne, this]
        omega

theorem size_erase (m : SortedMap κ ν) (k : κ) :
    (m.erase k).size + (if m.contains k then 1 else 0) = m.size := by
  have h := m.sumBy_erase k fun _ => 1
  rw [← size_eq_sumBy, ← size_eq_sumBy] at h
  rw [← h, contains]
  cases m.get? k <;> rfl

theorem size_insert (m : SortedMap κ ν) (k : κ) (v : ν) : (m.insert k v).size = (m.erase k).size + 1 := by
  rw [size_eq_sumBy, size_eq_sumBy, sumBy_insert]

theorem sumBy_retain_le (m : SortedMap κ ν) (p : κ → ν → Bool) (f : κ × ν → Nat) :
    (m.retain p).sumBy f ≤ m.sumBy f :=
  (List.filter_sublist.map f).sum_le_sum fun _ _ => Nat.zero_le _

theorem size_retain_le (m : SortedMap κ ν) (p : κ → ν → Bool) : (m.retain p).size ≤ m.size :=
  List.length_filter_le _ _

/-! ### From a list -/

/-- The entries of a list; of two under one key the last. -/
def ofList (l : List (κ × ν)) : SortedMap κ ν := l.foldl (fun m e => m.insert e.1 e.2) empty

/-- What comes behind all that is there is put at the end. -/
theorem insertEntry_last {k : κ} {v : ν} {l : List (κ × ν)} (h : ∀ e ∈ l, e.1 < k) : insertEntry k v l = l ++ [(k, v)] := by
  induction l with
  | nil => rfl
  | cons e rest ih =>
    have he : e.1 < k := h e List.mem_cons_self
    rw [insertEntry, if_neg (not_lt.mpr he.le), if_neg (ne_of_gt he), ih fun e' he' => h e' (List.mem_cons_of_mem _ he')]
    rfl

/-- A list in order is the map it makes. -/
theorem entries_ofList {l : List (κ × ν)} (h : l.Pairwise fun a b => a.1 < b.1) : (ofList l).entries = l := by
  suffices hfold : ∀ (m : SortedMap κ ν) (l : List (κ × ν)), (m.entries ++ l).Pairwise (fun a b => a.1 < b.1) →
      (l.foldl (fun m e => m.insert e.1 e.2) m).entries = m.entries ++ l from hfold empty l h
  intro m l hl
  induction l generalizing m with
  | nil => exact (List.append_nil _).symm
  | cons e rest ih =>
    have hlast : (m.insert e.1 e.2).entries = m.entries ++ [e] :=
      insertEntry_last fun e' he' => (List.pairwise_append.mp hl).2.2 e' he' e List.mem_cons_self
    rw [List.foldl_cons, ih, hlast, List.append_assoc]
    · rfl
    · rw [hlast, List.append_assoc]
      exact hl

end SortedMap

end ManyTier
