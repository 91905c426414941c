import ManyTier.Lib.Bytes

/-! What takes a value from the front of a byte string, or fails.

`Reads p written a` says that behind any front `p` reads `a` from what was written and
leaves the rest. It holds of a sequence if it holds of its parts (`Reads.bind`), of a
counted repetition (`Reads.times`), and what is read until nothing is left gives back
every entry of a list that was written one behind the other (`all_flatMap`). -/
namespace ManyTier

abbrev Unpack (α : Type) := StateT Bytes Option α

namespace Unpack

/-- As many bytes as are asked for. -/
def take (n : Nat) : Unpack Bytes := fun b => if n ≤ b.length then some (b.take n, b.drop n) else none

def u8 : Unpack UInt8 := (fun b => byteAt b 0) <$> take 1
def u16 : Unpack UInt16 := ofBe16 <$> take 2
def u32 : Unpack UInt32 := ofBe32 <$> take 4
def u64 : Unpack UInt64 := ofBe64 <$> take 8
def vec (n : Nat) : Unpack (ByteVec n) := ByteVec.ofBytes n <$> take n

section
variable {α β γ : Type}

/-- A number of times. -/
def times (p : Unpack α) : Nat → Unpack (List α)
  | 0 => pure []
  | n + 1 => do
    let a ← p
    let rest ← times p n
    return a :: rest

/-- Until nothing is left, at most a number of times. -/
def allWithin (p : Unpack α) : Nat → Bytes → Option (List α)
  | _, [] => some []
  | 0, _ :: _ => none
  | n + 1, x :: b => do
    let (a, rest) ← p (x :: b)
    let more ← allWithin p n rest
    return a :: more

/-- Until nothing is left; each time a byte at least is taken. -/
def all (p : Unpack α) (b : Bytes) : Option (List α) := allWithin p b.length b

/-! ### What is read from what was written -/

/-- From what was written a value is read, and what is behind it is left. -/
def Reads (p : Unpack α) (written : Bytes) (a : α) : Prop := ∀ rest, p (written ++ rest) = some (a, rest)

theorem Reads.pure (a : α) : Reads (Pure.pure a) [] a := fun _ => rfl

theorem Reads.bind {p : Unpack α} {f : α → Unpack β} {front back : Bytes} {a : α} {b : β} (h : Reads p front a)
    (h' : Reads (f a) back b) : Reads (p >>= f) (front ++ back) b := by
  intro rest
  show (p (front ++ back ++ rest)).bind (fun r => f r.1 r.2) = _
  rw [List.append_assoc, h]
  exact h' rest

theorem Reads.map {p : Unpack α} {written : Bytes} {a : α} (f : α → β) (h : Reads p written a) :
    Reads (f <$> p) written (f a) := by
  intro rest
  show (p (written ++ rest)).bind (fun r => some (f r.1, r.2)) = _
  rw [h]
  rfl

/-- What is read last. -/
theorem Reads.last {p : Unpack α} {written : Bytes} {a : α} (f : α → β) (h : Reads p written a) :
    Reads (p >>= fun a => Pure.pure (f a)) written (f a) := by
  intro rest
  show (p (written ++ rest)).bind (fun r => some (f r.1, r.2)) = _
  rw [h]
  rfl

theorem reads_take (written : Bytes) : Reads (take written.length) written written := by
  intro rest
  rw [take, if_pos (by simp), List.take_left, List.drop_left]

theorem reads_take_of {written : Bytes} {n : Nat} (h : written.length = n) : Reads (take n) written written :=
  h ▸ reads_take written

theorem reads_u8 (x : UInt8) : Reads u8 [x] x := (reads_take [x]).map _

theorem reads_u16 (x : UInt16) : Reads u16 (be16 x) x := by
  have hread := (reads_take_of (length_be16 x)).map ofBe16
  rwa [ofBe16_be16] at hread

theorem reads_u32 (x : UInt32) : Reads u32 (be32 x) x := by
  have hread := (reads_take_of (length_be32 x)).map ofBe32
  rwa [ofBe32_be32] at hread

theorem reads_u64 (x : UInt64) : Reads u64 (be64 x) x := by
  have hread := (reads_take_of (length_be64 x)).map ofBe64
  rwa [ofBe64_be64] at hread

theorem reads_vec {n : Nat} (v : ByteVec n) : Reads (vec n) v.toBytes v := by
  have h : ByteVec.ofBytes n v.toBytes = v := fieldAt_last v
  have hread := (reads_take_of v.length_toBytes).map (ByteVec.ofBytes n)
  rwa [h] at hread

/-! ### Lists -/

variable {p : Unpack α} {write : β → Bytes} {view : β → α}

/-- Entries that were written one behind the other, as many as there are. -/
theorem Reads.times {l : List β} (h : ∀ b ∈ l, Reads p (write b) (view b)) :
    Reads (times p l.length) (l.flatMap write) (l.map view) := by
  induction l with
  | nil => exact Reads.pure []
  | cons b rest ih =>
    obtain ⟨hb, hrest⟩ := List.forall_mem_cons.mp h
    rw [List.flatMap_cons]
    exact hb.bind ((ih hrest).last _)

theorem allWithin_flatMap {l : List β} {n : Nat} (h : ∀ b ∈ l, Reads p (write b) (view b) ∧ write b ≠ [])
    (hn : (l.flatMap write).length ≤ n) : allWithin p n (l.flatMap write) = some (l.map view) := by
  induction l generalizing n with
  | nil => cases n <;> rfl
  | cons b rest ih =>
    obtain ⟨⟨hb, hne⟩, hrest⟩ := List.forall_mem_cons.mp h
    obtain ⟨x, written, hwritten⟩ := List.exists_cons_of_ne_nil hne
    rw [List.flatMap_cons, List.length_append, hwritten, List.length_cons] at hn
    obtain ⟨n, rfl⟩ : ∃ m, n = m + 1 := ⟨n - 1, by omega⟩
    have hfirst := hb (rest.flatMap write)
    rw [hwritten, List.cons_append] at hfirst
    rw [List.flatMap_cons, hwritten, List.cons_append, allWithin, hfirst]
    simp only [Option.bind_eq_bind, Option.bind_some]
    rw [ih hrest (by omega)]
    rfl

/-- All entries that were written one behind the other. -/
theorem all_flatMap {l : List β} (h : ∀ b ∈ l, Reads p (write b) (view b) ∧ write b ≠ []) :
    all p (l.flatMap write) = some (l.map view) :=
  allWithin_flatMap h le_rfl

/-- What holds of whatever is read once holds of all that is read. -/
theorem forall_of_all {P : α → Prop} (h : ∀ b a rest, p b = some (a, rest) → P a) {b : Bytes} {l : List α}
    (hread : all p b = some l) : ∀ a ∈ l, P a := by
  have hwithin : ∀ (n : Nat) (b : Bytes) (l : List α), allWithin p n b = some l → ∀ a ∈ l, P a := by
    intro n
    induction n with
    | zero =>
      intro b l hread
      cases b with
      | nil =>
        obtain rfl := Option.some.inj hread
        exact fun a ha => nomatch ha
      | cons x b => cases hread
    | succ n ih =>
      intro b l hread
      cases b with
      | nil =>
        obtain rfl := Option.some.inj hread
        exact fun a ha => nomatch ha
      | cons x b =>
        obtain ⟨⟨a, rest⟩, hfirst, hread⟩ := Option.bind_eq_some_iff.mp hread
        obtain ⟨more, hmore, heq⟩ := Option.bind_eq_some_iff.mp hread
        obtain rfl := Option.some.inj heq
        exact List.forall_mem_cons.mpr ⟨h _ a rest hfirst, ih rest more hmore⟩
  exact hwithin b.length b l hread

end

end Unpack

end ManyTier
