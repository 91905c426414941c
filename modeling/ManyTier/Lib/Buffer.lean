import ManyTier.Lib.Bytes
import ManyTier.Lib.Run

/-! Reading a buffer with every index checked.

`slice`, `byteAt` and the numbers built on them are total: past the end of a string they
give zeros or fewer bytes. A `Decoder` looks each byte up, and one that is not there is a
fault. Inside the buffer the two agree, so a decoder that checks its lengths first answers
what its total counterpart answers. -/
namespace ManyTier

/-- `data[pos]`. -/
def indexAt (data : Bytes) (pos : Nat) : Except Fault UInt8 :=
  match data[pos]? with
  | some b => .ok b
  | none => .error .panic

/-- `data[start..stop]`. -/
def sliceAt (data : Bytes) (start stop : Nat) : Except Fault Bytes :=
  if start ≤ stop ∧ stop ≤ data.length then .ok ((data.take stop).drop start) else .error .panic

theorem indexAt_drop {data rest : Bytes} {pos : Nat} {b : UInt8} (h : data.drop pos = b :: rest) :
    indexAt data pos = .ok b := by
  have hget : data[pos]? = some b := by
    rw [← List.head?_drop, h]
    rfl
  simp [indexAt, hget]

/-- What is left at a position inside the buffer. -/
theorem drop_pos {data : Bytes} {pos : Nat} (h : pos < data.length) :
    ∃ b, data.drop pos = b :: data.drop (pos + 1) := ⟨data[pos], List.drop_eq_getElem_cons h⟩

/-- Why a decoder stopped: it faulted, or it found an error in what it read. -/
inductive Stop (ε : Type) where
  | fault (f : Fault)
  | error (e : ε)
  deriving DecidableEq

abbrev Decoder (ε α : Type) := Except (Stop ε) α

namespace Decoder
variable {ε α β : Type}

def fail (e : ε) : Decoder ε α := .error (.error e)

/-- A result or an error, and no fault. -/
def answer : Except ε α → Decoder ε α
  | .ok a => .ok a
  | .error e => fail e

def index (data : Bytes) (pos : Nat) : Decoder ε UInt8 := (indexAt data pos).mapError .fault

/-- `n` bytes, each looked up. -/
def bytes (data : Bytes) (pos : Nat) : Nat → Decoder ε Bytes
  | 0 => return []
  | n + 1 => do
    let b ← index data pos
    let rest ← bytes data (pos + 1) n
    return b :: rest

def u16 (data : Bytes) (pos : Nat) : Decoder ε UInt16 := do
  let b ← bytes data pos 2
  return ofBe16 b

def u32 (data : Bytes) (pos : Nat) : Decoder ε UInt32 := do
  let b ← bytes data pos 4
  return ofBe32 b

def u64 (data : Bytes) (pos : Nat) : Decoder ε UInt64 := do
  let b ← bytes data pos 8
  return ofBe64 b

def range (data : Bytes) (start stop : Nat) : Decoder ε Bytes := (sliceAt data start stop).mapError .fault

/-- `data[pos..]`. -/
def behind (data : Bytes) (pos : Nat) : Decoder ε Bytes := range data pos data.length

def field (n : Nat) (data : Bytes) (pos : Nat) : Decoder ε (ByteVec n) := do
  let b ← range data pos (pos + n)
  return ByteVec.ofBytes n b

/-! ### Inside the buffer -/

@[simp] theorem answer_ok (a : α) : answer (.ok a : Except ε α) = .ok a := rfl

@[simp] theorem answer_pure (a : α) : answer (pure a : Except ε α) = .ok a := rfl

@[simp] theorem answer_error (e : ε) : (answer (.error e) : Decoder ε α) = fail e := rfl

@[simp] theorem answer_throw (e : ε) : (answer (throw e) : Decoder ε α) = fail e := rfl

@[simp] theorem fail_bind (e : ε) (f : α → Decoder ε β) : ((fail e : Decoder ε α) >>= f) = fail e := rfl

theorem answer_bind (x : Except ε α) (f : α → Except ε β) :
    answer (x >>= f) = answer x >>= fun a => answer (f a) := by
  cases x <;> rfl

theorem answer_eq_ok {x : Except ε α} {a : α} (h : answer x = .ok a) : x = .ok a := by
  cases x with
  | ok b => exact congrArg _ (Except.ok.inj h)
  | error e => cases h

section
variable {c : Prop} [Decidable c]

/-- Behind a check that both make. -/
theorem guarded {e : ε} {x : Decoder ε α} {y : Except ε α} (h : ¬ c → x = answer y) :
    (if c then fail e else x) = answer (if c then .error e else y) := by
  by_cases hc : c
  · rw [if_pos hc, if_pos hc]
    rfl
  · rw [if_neg hc, if_neg hc, h hc]

theorem branched {x x' : Decoder ε α} {y y' : Except ε α} (h : c → x = answer y) (h' : ¬ c → x' = answer y') :
    (if c then x else x') = answer (if c then y else y') := by
  by_cases hc : c
  · rw [if_pos hc, if_pos hc, h hc]
  · rw [if_neg hc, if_neg hc, h' hc]

end

variable {data : Bytes} {pos : Nat}

theorem pos_of_not_isEmpty (h : ¬ data.isEmpty = true) : 0 < data.length := by
  rw [List.length_pos_iff]
  simpa using h

theorem index_eq (h : pos < data.length) : (index data pos : Decoder ε UInt8) = .ok (byteAt data pos) := by
  obtain ⟨b, hdrop⟩ := drop_pos h
  rw [index, indexAt_drop hdrop, byteAt_of_drop hdrop]
  rfl

theorem bytes_eq {n : Nat} (h : pos + n ≤ data.length) : (bytes data pos n : Decoder ε Bytes) = .ok (slice data pos n) := by
  induction n generalizing pos with
  | zero => rw [bytes, slice, List.take_zero]; rfl
  | succ n ih =>
    obtain ⟨b, hdrop⟩ := drop_pos (show pos < data.length by omega)
    rw [bytes, index_eq (by omega), ok_bind, ih (by omega), ok_bind, byteAt_of_drop hdrop, slice, slice, hdrop,
      List.take_succ_cons]
    rfl

theorem u16_eq (h : pos + 2 ≤ data.length) : (u16 data pos : Decoder ε UInt16) = .ok (u16At data pos) := by
  rw [u16, bytes_eq h, ok_bind]
  rfl

theorem u32_eq (h : pos + 4 ≤ data.length) : (u32 data pos : Decoder ε UInt32) = .ok (u32At data pos) := by
  rw [u32, bytes_eq h, ok_bind]
  rfl

theorem u64_eq (h : pos + 8 ≤ data.length) : (u64 data pos : Decoder ε UInt64) = .ok (u64At data pos) := by
  rw [u64, bytes_eq h, ok_bind]
  rfl

theorem range_eq {n : Nat} (h : pos + n ≤ data.length) :
    (range data pos (pos + n) : Decoder ε Bytes) = .ok (slice data pos n) := by
  have hslice : (data.take (pos + n)).drop pos = slice data pos n := by
    rw [List.drop_take, Nat.add_sub_cancel_left]
    rfl
  rw [range, sliceAt, if_pos ⟨by omega, h⟩, hslice]
  rfl

theorem behind_eq (h : pos ≤ data.length) : (behind data pos : Decoder ε Bytes) = .ok (data.drop pos) := by
  rw [behind, range, sliceAt, if_pos ⟨h, Nat.le_refl _⟩, List.take_length]
  rfl

theorem field_eq {n : Nat} (h : pos + n ≤ data.length) :
    (field n data pos : Decoder ε (ByteVec n)) = .ok (fieldAt n data pos) := by
  have hbytes : ByteVec.ofBytes n (slice data pos n) = fieldAt n data pos := by
    apply ByteVec.toBytes_injective
    rw [ByteVec.toBytes_ofBytes n _ (by rw [slice_length]; omega), toBytes_fieldAt h]
    exact List.take_of_length_le (by rw [slice_length]; omega)
  rw [field, range_eq h, ok_bind, hbytes]
  rfl

end Decoder

/-! Numbers and fields of what is left at a position. -/

theorem slice_drop (data : Bytes) (pos off len : Nat) : slice (data.drop pos) off len = slice data (pos + off) len := by
  rw [slice, List.drop_drop, slice]

theorem u64At_drop (data : Bytes) (pos off : Nat) : u64At (data.drop pos) off = u64At data (pos + off) := by
  rw [u64At, slice_drop, u64At]

end ManyTier
