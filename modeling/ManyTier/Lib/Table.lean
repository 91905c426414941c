import Mathlib.Data.List.Nodup
import Mathlib.Tactic

/-! Tables with a primary key.

A table is a list of rows of which no two have one key. What a statement does is said by
what is found under each key after it (`find?_replace`, `find?_filter`, `find?_update`,
`find?_insert`); rows go in exactly when the keys stay distinct (`insertAll_isSome`). -/
namespace ManyTier

structure Table {ρ κ : Type} (key : ρ → κ) where
  rows : List ρ
  nodup : (rows.map key).Nodup

namespace Table
variable {ρ κ : Type} {key : ρ → κ}

theorem nodup_append_singleton {rows : List ρ} {r : ρ} (h : (rows.map key).Nodup) (hr : key r ∉ rows.map key) :
    ((rows ++ [r]).map key).Nodup := by
  rw [List.map_append, List.map_singleton]
  exact h.append (List.nodup_singleton _) (List.disjoint_singleton.mpr hr)

variable [DecidableEq κ]

def empty : Table key := ⟨[], List.nodup_nil⟩

/-- The row with a key. -/
def find? (t : Table key) (k : κ) : Option ρ := t.rows.find? fun r => key r = k

/-- The rows for which `p` holds. -/
def filter (t : Table key) (p : ρ → Bool) : Table key :=
  ⟨t.rows.filter p, t.nodup.sublist (List.filter_sublist.map key)⟩

/-- A new row; none may have its key. -/
def insert (t : Table key) (r : ρ) : Option (Table key) :=
  if h : key r ∈ t.rows.map key then none else some ⟨t.rows ++ [r], nodup_append_singleton t.nodup h⟩

/-- New rows one after the other, or none of them. -/
def insertAll (t : Table key) : List ρ → Option (Table key)
  | [] => some t
  | r :: rest => (t.insert r).bind fun t => t.insertAll rest

theorem key_notMem_filter (t : Table key) (k : κ) : k ∉ (t.rows.filter fun x => key x ≠ k).map key := by
  intro h
  obtain ⟨x, hx, hkey⟩ := List.mem_map.mp h
  simp [hkey] at hx

/-- A row in place of the one with its key, if there is one. -/
def replace (t : Table key) (r : ρ) : Table key :=
  ⟨(t.rows.filter fun x => key x ≠ key r) ++ [r],
    nodup_append_singleton (t.filter fun x => key x ≠ key r).nodup (t.key_notMem_filter (key r))⟩

theorem map_key_update (t : Table key) (r : ρ) :
    (t.rows.map fun x => if key x = key r then r else x).map key = t.rows.map key := by
  rw [List.map_map]
  apply List.map_congr_left
  intro x _
  by_cases h : key x = key r
  · simp [h]
  · simp [h]

/-- The row with a row's key changed to it; nothing if there is none. -/
def update (t : Table key) (r : ρ) : Table key :=
  ⟨t.rows.map fun x => if key x = key r then r else x, by rw [map_key_update]; exact t.nodup⟩

/-! ### Lookups -/

theorem find?_eq_some {t : Table key} {k : κ} {r : ρ} : t.find? k = some r ↔ r ∈ t.rows ∧ key r = k := by
  constructor
  · intro h
    exact ⟨List.mem_of_find?_eq_some h, by simpa using List.find?_some h⟩
  · rintro ⟨hmem, rfl⟩
    cases hfound : t.find? (key r) with
    | none =>
      have hnone := List.find?_eq_none.mp hfound r hmem
      simp at hnone
    | some r' =>
      have hr' : key r' = key r := by simpa using List.find?_some hfound
      rw [List.inj_on_of_nodup_map t.nodup (List.mem_of_find?_eq_some hfound) hmem hr']

theorem find?_eq_none {t : Table key} {k : κ} : t.find? k = none ↔ k ∉ t.rows.map key := by
  rw [find?, List.find?_eq_none]
  simp

theorem mem_keys {t : Table key} {k : κ} : k ∈ t.rows.map key ↔ (t.find? k).isSome := by
  rw [← not_iff_not, ← find?_eq_none, Option.not_isSome_iff_eq_none]

theorem mem_replace {t : Table key} {r x : ρ} : x ∈ (t.replace r).rows ↔ (x ∈ t.rows ∧ key x ≠ key r) ∨ x = r := by
  simp [replace]

theorem find?_replace (t : Table key) (r : ρ) (k : κ) : (t.replace r).find? k = if k = key r then some r else t.find? k := by
  by_cases hk : k = key r
  · rw [if_pos hk, find?_eq_some, mem_replace]
    exact ⟨.inr rfl, hk.symm⟩
  · rw [if_neg hk]
    apply Option.ext
    intro x
    rw [find?_eq_some, find?_eq_some, mem_replace]
    constructor
    · rintro ⟨⟨hx, -⟩ | rfl, rfl⟩
      · exact ⟨hx, rfl⟩
      · exact absurd rfl hk
    · rintro ⟨hx, rfl⟩
      exact ⟨.inl ⟨hx, hk⟩, rfl⟩

/-- Rows kept by their keys. -/
theorem find?_filter (t : Table key) (p : κ → Bool) (k : κ) :
    (t.filter fun r => p (key r)).find? k = if p k then t.find? k else none := by
  apply Option.ext
  intro x
  rw [find?_eq_some, filter, List.mem_filter]
  constructor
  · rintro ⟨⟨hx, hp⟩, rfl⟩
    rw [if_pos hp]
    exact find?_eq_some.mpr ⟨hx, rfl⟩
  · intro hx
    split at hx
    · rename_i hp
      obtain ⟨hmem, rfl⟩ := find?_eq_some.mp hx
      exact ⟨⟨hmem, hp⟩, rfl⟩
    · cases hx

theorem find?_update (t : Table key) (r : ρ) (k : κ) :
    (t.update r).find? k = if k = key r then (t.find? k).map fun _ => r else t.find? k := by
  apply Option.ext
  intro x
  rw [find?_eq_some, update, List.mem_map]
  by_cases hk : k = key r
  · rw [if_pos hk, Option.map_eq_some_iff]
    constructor
    · rintro ⟨⟨y, hy, rfl⟩, hkey⟩
      by_cases hy' : key y = key r
      · exact ⟨y, find?_eq_some.mpr ⟨hy, hy'.trans hk.symm⟩, by rw [if_pos hy']⟩
      · rw [if_neg hy'] at hkey
        exact absurd (hkey.trans hk) hy'
    · rintro ⟨y, hy, rfl⟩
      obtain ⟨hy, hkey⟩ := find?_eq_some.mp hy
      exact ⟨⟨y, hy, if_pos (hkey.trans hk)⟩, hk.symm⟩
  · rw [if_neg hk, find?_eq_some]
    constructor
    · rintro ⟨⟨y, hy, rfl⟩, hkey⟩
      by_cases hy' : key y = key r
      · rw [if_pos hy'] at hkey
        exact absurd hkey.symm hk
      · rw [if_neg hy'] at hkey ⊢
        exact ⟨hy, hkey⟩
    · rintro ⟨hx, rfl⟩
      exact ⟨⟨x, hx, if_neg hk⟩, rfl⟩

/-! ### Insertions -/

theorem insert_eq_none {t : Table key} {r : ρ} : t.insert r = none ↔ key r ∈ t.rows.map key := by
  rw [insert]
  split
  · simp_all
  · simp_all

theorem insert_of_notMem {t : Table key} {r : ρ} (h : key r ∉ t.rows.map key) :
    t.insert r = some ⟨t.rows ++ [r], nodup_append_singleton t.nodup h⟩ :=
  dif_neg h

theorem rows_insert {t t' : Table key} {r : ρ} (h : t.insert r = some t') : t'.rows = t.rows ++ [r] := by
  rw [insert] at h
  split at h
  · cases h
  · rw [← Option.some.inj h]

theorem find?_insert {t t' : Table key} {r : ρ} (h : t.insert r = some t') (k : κ) :
    t'.find? k = if k = key r then some r else t.find? k := by
  have hrows := rows_insert h
  by_cases hk : k = key r
  · rw [if_pos hk, find?_eq_some, hrows]
    exact ⟨List.mem_append_right _ (List.mem_singleton_self r), hk.symm⟩
  · rw [if_neg hk, find?, hrows, List.find?_append]
    simp [Ne.symm hk, find?]

theorem rows_insertAll {t t' : Table key} {rs : List ρ} (h : t.insertAll rs = some t') : t'.rows = t.rows ++ rs := by
  induction rs generalizing t with
  | nil =>
    obtain rfl := Option.some.inj h
    exact (List.append_nil _).symm
  | cons r rest ih =>
    rw [insertAll, Option.bind_eq_some_iff] at h
    obtain ⟨t₁, hinsert, hrest⟩ := h
    rw [ih hrest, rows_insert hinsert, List.append_assoc, List.singleton_append]

/-- Rows go in exactly if no key comes twice. -/
theorem insertAll_isSome {t : Table key} {rs : List ρ} :
    (t.insertAll rs).isSome ↔ ((t.rows ++ rs).map key).Nodup := by
  induction rs generalizing t with
  | nil => simpa [insertAll] using t.nodup
  | cons r rest ih =>
    cases hinsert : t.insert r with
    | none =>
      have hmem := insert_eq_none.mp hinsert
      rw [insertAll, hinsert, List.map_append, List.map_cons]
      simp only [Option.bind_none, Option.isSome_none, Bool.false_eq_true, false_iff]
      intro hnodup
      exact List.disjoint_of_nodup_append hnodup hmem List.mem_cons_self
    | some t₁ =>
      rw [insertAll, hinsert, Option.bind_some, ih, rows_insert hinsert, List.append_assoc, List.singleton_append]

end Table

end ManyTier
