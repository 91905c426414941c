import Mathlib.Data.Vector.Basic
import Mathlib.Tactic

/-! Byte strings: fixed-width fields, big-endian numbers and keystreams.

A byte string is a list of bytes; a field of fixed width is a `ByteVec`, whose
length is part of its type. `toBe` and `ofBe` are the big-endian digits of a
number and the number behind a list of digits, and each undoes the other on
numbers that fit (`ofBe_toBe`) and on digit lists of the right width
(`toBe_ofBe`). Reading a field back out of a concatenation is `slice_at_append`,
`slice_append_right` and `ByteVec.ofBytes_append`. -/
namespace ManyTier

abbrev Bytes := List UInt8

/-- A byte array of width `n`. -/
abbrev ByteVec (n : Nat) := List.Vector UInt8 n

/-! ### Slices -/

/-- `len` bytes from offset `off`, fewer when the string ends before. -/
def slice (b : Bytes) (off len : Nat) : Bytes := (b.drop off).take len

/-- The byte at `off`, zero past the end. -/
def byteAt (b : Bytes) (off : Nat) : UInt8 := b.getD off 0

/-- `new` written over the bytes from `off` on. -/
def overwrite (b : Bytes) (off : Nat) (new : Bytes) : Bytes :=
  b.take off ++ new ++ b.drop (off + new.length)

@[simp] theorem slice_length (b : Bytes) (off len : Nat) :
    (slice b off len).length = min len (b.length - off) := by
  simp [slice]

theorem slice_append_right (a b : Bytes) (off len : Nat) (h : a.length ≤ off) :
    slice (a ++ b) off len = slice b (off - a.length) len := by
  rw [slice, List.drop_append, List.drop_of_length_le h, List.nil_append, slice]

theorem slice_all (a b : Bytes) : slice (a ++ b) 0 a.length = a := by
  simp [slice]

theorem byteAt_append_left (a b : Bytes) (off : Nat) (h : off < a.length) :
    byteAt (a ++ b) off = byteAt a off := by
  simp [byteAt, List.getElem?_append_left h]

theorem byteAt_append_right (a b : Bytes) (off : Nat) (h : a.length ≤ off) :
    byteAt (a ++ b) off = byteAt b (off - a.length) := by
  simp [byteAt, List.getElem?_append_right h]

@[simp] theorem byteAt_cons_zero (x : UInt8) (b : Bytes) : byteAt (x :: b) 0 = x := rfl

@[simp] theorem byteAt_cons_succ (x : UInt8) (b : Bytes) (i : Nat) :
    byteAt (x :: b) (i + 1) = byteAt b i := rfl

/-! ### Fixed-width fields -/

namespace ByteVec

/-- The first `n` bytes, padded with zeros when there are fewer. -/
def ofBytes (n : Nat) (b : Bytes) : ByteVec n :=
  ⟨(b ++ List.replicate n 0).take n, by simp⟩

/-- All zeros. -/
def zero (n : Nat) : ByteVec n := ⟨List.replicate n 0, by simp⟩

def toBytes {n : Nat} (v : ByteVec n) : Bytes := v.val

@[simp] theorem length_toBytes {n : Nat} (v : ByteVec n) : v.toBytes.length = n := v.property

theorem toBytes_injective {n : Nat} {v w : ByteVec n} (h : v.toBytes = w.toBytes) : v = w :=
  Subtype.ext h

/-- A vector of one byte or more has a first one. -/
theorem exists_cons {n : Nat} (v : ByteVec (n + 1)) : ∃ b rest, v.toBytes = b :: rest := by
  obtain ⟨_ | ⟨b, rest⟩, hlen⟩ := v
  · cases hlen
  · exact ⟨b, rest, rfl⟩

theorem toBytes_ofBytes (n : Nat) (b : Bytes) (h : n ≤ b.length) :
    (ofBytes n b).toBytes = b.take n := by
  simp [ofBytes, toBytes, List.take_append_of_le_length h]

/-- A field at the front of a string reads back. -/
@[simp] theorem ofBytes_append {n : Nat} (v : ByteVec n) (rest : Bytes) :
    ofBytes n (v.toBytes ++ rest) = v := by
  apply toBytes_injective
  rw [toBytes_ofBytes n _ (by simp), List.take_append_of_le_length (by simp)]
  exact List.take_of_length_le (by simp)

@[simp] theorem ofBytes_toBytes {n : Nat} (v : ByteVec n) : ofBytes n v.toBytes = v := by
  simpa using ofBytes_append v []

end ByteVec

/-- The field of width `n` at offset `off`. -/
def fieldAt (n : Nat) (b : Bytes) (off : Nat) : ByteVec n := ByteVec.ofBytes n (b.drop off)

theorem fieldAt_append {n : Nat} (a : Bytes) (v : ByteVec n) (rest : Bytes) (off : Nat)
    (h : a.length = off) : fieldAt n (a ++ (v.toBytes ++ rest)) off = v := by
  subst h
  simp [fieldAt]

theorem byteAt_take (b : Bytes) (m i : Nat) (h : i < m) : byteAt (b.take m) i = byteAt b i := by
  simp [byteAt, h]

/-- A field inside a prefix is a field of the whole. -/
theorem fieldAt_take (n : Nat) (b : Bytes) (m off : Nat) (h : off + n ≤ m) :
    fieldAt n (b.take m) off = fieldAt n b off := by
  apply ByteVec.toBytes_injective
  show ((List.drop off (b.take m)) ++ List.replicate n 0).take n = (b.drop off ++ List.replicate n 0).take n
  rw [List.drop_take]
  rcases Nat.lt_or_ge (m - off) (b.drop off).length with hlt | hge
  · rw [List.take_append_of_le_length (by rw [List.length_take]; omega),
      List.take_append_of_le_length (by omega), List.take_take, min_eq_left (by omega)]
  · rw [List.take_of_length_le hge]

/-- Byte `i` of a field is the byte `i` places after its offset. -/
theorem byteAt_fieldAt {n : Nat} (b : Bytes) (off i : Nat) (hi : i < n) :
    byteAt (fieldAt n b off).toBytes i = byteAt b (off + i) := by
  have hval : (fieldAt n b off).toBytes = (b.drop off ++ List.replicate n 0).take n := rfl
  simp only [byteAt, hval, List.getD_eq_getElem?_getD, List.getElem?_take, hi, if_true]
  by_cases h : i < (b.drop off).length
  · rw [List.getElem?_append_left h, List.getElem?_drop]
  · have hout : b.length ≤ off + i := by
      rw [List.length_drop] at h
      omega
    have hz : i - (b.drop off).length < n := by omega
    rw [List.getElem?_append_right (by omega), List.getElem?_replicate_of_lt hz,
      List.getElem?_eq_none hout]
    rfl

/-! ### Big-endian numbers -/

/-- The `w` low base-256 digits of `n`, most significant first. -/
def toBe : Nat → Nat → Bytes
  | 0, _ => []
  | w + 1, n => UInt8.ofNat (n / 256 ^ w) :: toBe w n

/-- The number whose base-256 digits are `b`, most significant first. -/
def ofBe (b : Bytes) : Nat := b.foldl (fun acc x => acc * 256 + x.toNat) 0

@[simp] theorem length_toBe (w n : Nat) : (toBe w n).length = w := by
  induction w with
  | zero => rfl
  | succ w ih => simp [toBe, ih]

theorem ofBe_foldl (b : Bytes) (acc : Nat) :
    b.foldl (fun acc x => acc * 256 + x.toNat) acc = acc * 256 ^ b.length + ofBe b := by
  induction b generalizing acc with
  | nil => simp [ofBe]
  | cons x rest ih =>
    have hhead : ofBe (x :: rest) = x.toNat * 256 ^ rest.length + ofBe rest := by
      rw [ofBe, List.foldl_cons, ih, Nat.zero_mul, Nat.zero_add]
    rw [List.foldl_cons, ih, hhead, List.length_cons, pow_succ]
    ring

theorem ofBe_cons (x : UInt8) (b : Bytes) : ofBe (x :: b) = x.toNat * 256 ^ b.length + ofBe b := by
  have h := ofBe_foldl b (0 * 256 + x.toNat)
  simpa [ofBe] using h

theorem ofBe_append (a b : Bytes) : ofBe (a ++ b) = ofBe a * 256 ^ b.length + ofBe b := by
  rw [ofBe, List.foldl_append]
  exact ofBe_foldl b (ofBe a)

theorem ofBe_lt (b : Bytes) : ofBe b < 256 ^ b.length := by
  induction b with
  | nil => simp [ofBe]
  | cons x rest ih =>
    have hx : x.toNat < 256 := x.toNat_lt
    rw [ofBe_cons, List.length_cons, pow_succ]
    nlinarith

/-- Digits of a number give the number back, up to the width. -/
theorem ofBe_toBe (w n : Nat) : ofBe (toBe w n) = n % 256 ^ w := by
  induction w with
  | zero => simp [toBe, ofBe, Nat.mod_one]
  | succ w ih =>
    have hdigit : (UInt8.ofNat (n / 256 ^ w)).toNat = n / 256 ^ w % 256 := by
      simp
    rw [toBe, ofBe_cons, length_toBe, ih, hdigit, pow_succ, Nat.mod_mul]
    ring

theorem toBe_mod (w n : Nat) : toBe w (n % 256 ^ w) = toBe w n := by
  have aux : ∀ v ≤ w, toBe v (n % 256 ^ w) = toBe v n := by
    intro v
    induction v with
    | zero => intro _; rfl
    | succ v ih =>
      intro hv
      have hsplit : 256 ^ w = 256 ^ v * (256 * 256 ^ (w - v - 1)) := by
        rw [← pow_succ', ← pow_add]
        congr 1
        omega
      have hdigit : n % 256 ^ w / 256 ^ v % 256 = n / 256 ^ v % 256 := by
        rw [hsplit, Nat.mod_mul_right_div_self, Nat.mod_mul_right_mod]
      have hbyte : UInt8.ofNat (n % 256 ^ w / 256 ^ v) = UInt8.ofNat (n / 256 ^ v) := by
        apply UInt8.toNat_inj.mp
        simpa using hdigit
      rw [toBe, toBe, ih (by omega), hbyte]
  exact aux w le_rfl

/-- A digit list is the digits of its number. -/
theorem toBe_ofBe (b : Bytes) : toBe b.length (ofBe b) = b := by
  induction b with
  | nil => rfl
  | cons x rest ih =>
    have hrest := ofBe_lt rest
    have hpos : 0 < 256 ^ rest.length := by positivity
    have hhead : ofBe (x :: rest) / 256 ^ rest.length = x.toNat := by
      rw [ofBe_cons, Nat.mul_comm, Nat.mul_add_div hpos, Nat.div_eq_of_lt hrest, Nat.add_zero]
    have htail : ofBe (x :: rest) % 256 ^ rest.length = ofBe rest := by
      rw [ofBe_cons, Nat.mul_comm, Nat.mul_add_mod, Nat.mod_eq_of_lt hrest]
    rw [List.length_cons, toBe, hhead, ← toBe_mod, htail, ih, UInt8.ofNat_toNat]

def be16 (x : UInt16) : Bytes := toBe 2 x.toNat
def be32 (x : UInt32) : Bytes := toBe 4 x.toNat
def be64 (x : UInt64) : Bytes := toBe 8 x.toNat

def ofBe16 (b : Bytes) : UInt16 := UInt16.ofNat (ofBe b)
def ofBe32 (b : Bytes) : UInt32 := UInt32.ofNat (ofBe b)
def ofBe64 (b : Bytes) : UInt64 := UInt64.ofNat (ofBe b)

@[simp] theorem length_be16 (x : UInt16) : (be16 x).length = 2 := length_toBe ..
@[simp] theorem length_be32 (x : UInt32) : (be32 x).length = 4 := length_toBe ..
@[simp] theorem length_be64 (x : UInt64) : (be64 x).length = 8 := length_toBe ..

@[simp] theorem ofBe16_be16 (x : UInt16) : ofBe16 (be16 x) = x := by
  have h : x.toNat < 256 ^ 2 := x.toNat_lt
  rw [ofBe16, be16, ofBe_toBe, Nat.mod_eq_of_lt h, UInt16.ofNat_toNat]

@[simp] theorem ofBe32_be32 (x : UInt32) : ofBe32 (be32 x) = x := by
  have h : x.toNat < 256 ^ 4 := x.toNat_lt
  rw [ofBe32, be32, ofBe_toBe, Nat.mod_eq_of_lt h, UInt32.ofNat_toNat]

@[simp] theorem ofBe64_be64 (x : UInt64) : ofBe64 (be64 x) = x := by
  have h : x.toNat < 256 ^ 8 := x.toNat_lt
  rw [ofBe64, be64, ofBe_toBe, Nat.mod_eq_of_lt h, UInt64.ofNat_toNat]

/-- The big-endian number in the two, four or eight bytes at `off`. -/
def u16At (b : Bytes) (off : Nat) : UInt16 := ofBe16 (slice b off 2)
def u32At (b : Bytes) (off : Nat) : UInt32 := ofBe32 (slice b off 4)
def u64At (b : Bytes) (off : Nat) : UInt64 := ofBe64 (slice b off 8)

/-! A number or a field behind a part of known length is read in what follows it;
at the front, it is read back. -/

theorem slice_at_append {a b : Bytes} {off len : Nat} (h : a.length ≤ off) :
    slice (a ++ b) off len = slice b (off - a.length) len :=
  slice_append_right a b off len h

theorem u16At_append {a b : Bytes} {off : Nat} (h : a.length ≤ off) :
    u16At (a ++ b) off = u16At b (off - a.length) := by
  rw [u16At, slice_at_append h, u16At]

theorem u32At_append {a b : Bytes} {off : Nat} (h : a.length ≤ off) :
    u32At (a ++ b) off = u32At b (off - a.length) := by
  rw [u32At, slice_at_append h, u32At]

theorem u64At_append {a b : Bytes} {off : Nat} (h : a.length ≤ off) :
    u64At (a ++ b) off = u64At b (off - a.length) := by
  rw [u64At, slice_at_append h, u64At]

theorem fieldAt_append_right {n : Nat} {a b : Bytes} {off : Nat} (h : a.length ≤ off) :
    fieldAt n (a ++ b) off = fieldAt n b (off - a.length) := by
  rw [fieldAt, List.drop_append, List.drop_of_length_le h, List.nil_append, fieldAt]

theorem byteAt_append {a b : Bytes} {off : Nat} (h : a.length ≤ off) :
    byteAt (a ++ b) off = byteAt b (off - a.length) :=
  byteAt_append_right a b off h

theorem drop_append {a b : Bytes} {off : Nat} (h : a.length ≤ off) :
    (a ++ b).drop off = b.drop (off - a.length) := by
  rw [List.drop_append, List.drop_of_length_le h, List.nil_append]

/-! Behind a part of length `n`, offset `n + k` is offset `k` of what follows. -/

section
variable {a b : Bytes} {n : Nat} (h : a.length = n) (k : Nat)
include h

theorem slice_behind (len : Nat) : slice (a ++ b) (n + k) len = slice b k len := by
  rw [slice_at_append (by omega), h, Nat.add_sub_cancel_left]

theorem byteAt_behind : byteAt (a ++ b) (n + k) = byteAt b k := by
  rw [byteAt_append (by omega), h, Nat.add_sub_cancel_left]

theorem u16At_behind : u16At (a ++ b) (n + k) = u16At b k := by
  rw [u16At, slice_behind h, u16At]

theorem u32At_behind : u32At (a ++ b) (n + k) = u32At b k := by
  rw [u32At, slice_behind h, u32At]

theorem u64At_behind : u64At (a ++ b) (n + k) = u64At b k := by
  rw [u64At, slice_behind h, u64At]

end

@[simp] theorem u16At_cons_succ (x : UInt8) (b : Bytes) (i : Nat) : u16At (x :: b) (i + 1) = u16At b i := rfl
@[simp] theorem u32At_cons_succ (x : UInt8) (b : Bytes) (i : Nat) : u32At (x :: b) (i + 1) = u32At b i := rfl
@[simp] theorem u64At_cons_succ (x : UInt8) (b : Bytes) (i : Nat) : u64At (x :: b) (i + 1) = u64At b i := rfl
@[simp] theorem fieldAt_cons_succ {n : Nat} (x : UInt8) (b : Bytes) (i : Nat) :
    fieldAt n (x :: b) (i + 1) = fieldAt n b i := rfl
@[simp] theorem slice_cons_succ (x : UInt8) (b : Bytes) (i len : Nat) :
    slice (x :: b) (i + 1) len = slice b i len := rfl

@[simp] theorem slice_front {a b : Bytes} {len : Nat} (h : a.length = len) : slice (a ++ b) 0 len = a := by
  subst h
  exact slice_all a b

@[simp] theorem u16At_be16 (x : UInt16) (rest : Bytes) : u16At (be16 x ++ rest) 0 = x := by
  rw [u16At, slice_front (by simp), ofBe16_be16]

@[simp] theorem u32At_be32 (x : UInt32) (rest : Bytes) : u32At (be32 x ++ rest) 0 = x := by
  rw [u32At, slice_front (by simp), ofBe32_be32]

@[simp] theorem u64At_be64 (x : UInt64) (rest : Bytes) : u64At (be64 x ++ rest) 0 = x := by
  rw [u64At, slice_front (by simp), ofBe64_be64]

@[simp] theorem fieldAt_front {n : Nat} (v : ByteVec n) (rest : Bytes) :
    fieldAt n (v.toBytes ++ rest) 0 = v := by
  simp [fieldAt]

/-! The last number or field of a string has nothing behind it. -/

@[simp] theorem u16At_be16_last (x : UInt16) : u16At (be16 x) 0 = x := by
  simpa using u16At_be16 x []

@[simp] theorem u32At_be32_last (x : UInt32) : u32At (be32 x) 0 = x := by
  simpa using u32At_be32 x []

@[simp] theorem u64At_be64_last (x : UInt64) : u64At (be64 x) 0 = x := by
  simpa using u64At_be64 x []

@[simp] theorem fieldAt_last {n : Nat} (v : ByteVec n) : fieldAt n v.toBytes 0 = v := by
  simpa using fieldAt_front v []

/-! A string that is written front to back is read front to back: what stands at an
offset is read from there, and the rest stands behind it. -/

section
variable {data rest : Bytes} {off : Nat}

theorem drop_behind {a : Bytes} {n : Nat} (h : data.drop off = a ++ rest) (hlen : a.length = n) :
    data.drop (off + n) = rest := by
  rw [← List.drop_drop, h]
  exact List.drop_left' hlen

theorem drop_behind_cons {x : UInt8} (h : data.drop off = x :: rest) : data.drop (off + 1) = rest :=
  drop_behind (a := [x]) h rfl

theorem byteAt_of_drop {x : UInt8} (h : data.drop off = x :: rest) : byteAt data off = x := by
  have hget : (data.drop off)[0]? = some x := by rw [h]; rfl
  rw [List.getElem?_drop, Nat.add_zero] at hget
  rw [byteAt, List.getD_eq_getElem?_getD, hget, Option.getD_some]

theorem u16At_of_drop {x : UInt16} (h : data.drop off = be16 x ++ rest) : u16At data off = x := by
  rw [u16At, slice, h, List.take_left' (length_be16 x), ofBe16_be16]

theorem u32At_of_drop {x : UInt32} (h : data.drop off = be32 x ++ rest) : u32At data off = x := by
  rw [u32At, slice, h, List.take_left' (length_be32 x), ofBe32_be32]

theorem u64At_of_drop {x : UInt64} (h : data.drop off = be64 x ++ rest) : u64At data off = x := by
  rw [u64At, slice, h, List.take_left' (length_be64 x), ofBe64_be64]

theorem fieldAt_of_drop {n : Nat} {v : ByteVec n} (h : data.drop off = v.toBytes ++ rest) :
    fieldAt n data off = v := by
  rw [fieldAt, h, ByteVec.ofBytes_append]

theorem slice_of_drop {a : Bytes} {n : Nat} (h : data.drop off = a ++ rest) (hlen : a.length = n) :
    slice data off n = a := by
  rw [slice, h, List.take_left' hlen]

/-- What stands at an offset does not end before it. -/
theorem length_of_drop {a : Bytes} (h : data.drop off = a ++ rest) (hpos : 0 < a.length) :
    data.length = off + a.length + rest.length := by
  have hlen := congrArg List.length h
  rw [List.length_drop, List.length_append] at hlen
  omega

end

theorem toNat_u16At_cons_cons (a b : UInt8) (rest : Bytes) :
    (u16At (a :: b :: rest) 0).toNat = a.toNat * 256 + b.toNat := by
  have ha := a.toNat_lt
  have hb := b.toNat_lt
  have hbe : ofBe [a, b] = a.toNat * 256 + b.toNat := by simp [ofBe]
  rw [u16At, show slice (a :: b :: rest) 0 2 = [a, b] from rfl, ofBe16, hbe,
    UInt16.toNat_ofNat_of_lt' (by simp only [UInt16.size]; omega)]

theorem ofBe_injective {a b : Bytes} (hlen : a.length = b.length) (h : ofBe a = ofBe b) : a = b := by
  rw [← toBe_ofBe a, ← toBe_ofBe b, hlen, h]

/-- Byte arrays of one width are ordered as the numbers they spell, which is the
lexicographic order of their bytes. -/
instance (n : Nat) : LinearOrder (ByteVec n) :=
  LinearOrder.lift' (fun v => ofBe v.toBytes) fun v w h =>
    ByteVec.toBytes_injective (ofBe_injective (by simp) h)

instance linearOrderUInt64 : LinearOrder UInt64 where
  le_refl := fun a => UInt64.le_refl a
  le_trans := fun _ _ _ => UInt64.le_trans
  lt_iff_le_not_ge := fun a b => by
    simp only [UInt64.lt_iff_toNat_lt, UInt64.le_iff_toNat_le]
    omega
  le_antisymm := fun _ _ => UInt64.le_antisymm
  le_total := fun a b => UInt64.le_total a b
  toDecidableLE := inferInstance
  toDecidableEq := inferInstance
  toDecidableLT := inferInstance

/-- Subtraction that stops at zero. -/
def satSub (a b : UInt64) : UInt64 := if b ≤ a then a - b else 0

@[simp] theorem toNat_satSub (a b : UInt64) : (satSub a b).toNat = a.toNat - b.toNat := by
  unfold satSub
  split
  · rename_i h
    exact UInt64.toNat_sub_of_le _ _ h
  · rename_i h
    rw [UInt64.le_iff_toNat_le] at h
    simp
    omega

/-- Two bytes written are the two bytes that were read. -/
theorem be16_ofBe16 {b : Bytes} (h : b.length = 2) : be16 (ofBe16 b) = b := by
  have hlt := ofBe_lt b
  rw [h] at hlt
  rw [be16, ofBe16, UInt16.toNat_ofNat_of_lt' (by simpa [UInt16.size] using hlt), ← h, toBe_ofBe]

theorem be32_ofBe32 {b : Bytes} (h : b.length = 4) : be32 (ofBe32 b) = b := by
  have hlt := ofBe_lt b
  rw [h] at hlt
  rw [be32, ofBe32, UInt32.toNat_ofNat_of_lt' (by simpa [UInt32.size] using hlt), ← h, toBe_ofBe]

theorem be64_ofBe64 {b : Bytes} (h : b.length = 8) : be64 (ofBe64 b) = b := by
  have hlt := ofBe_lt b
  rw [h] at hlt
  rw [be64, ofBe64, UInt64.toNat_ofNat_of_lt' (by simpa [UInt64.size] using hlt), ← h, toBe_ofBe]

/-! What was read inside a string is what stands there. -/

theorem be16_u16At {b : Bytes} {off : Nat} (h : off + 2 ≤ b.length) : be16 (u16At b off) = slice b off 2 :=
  be16_ofBe16 (by rw [slice_length]; omega)

theorem be32_u32At {b : Bytes} {off : Nat} (h : off + 4 ≤ b.length) : be32 (u32At b off) = slice b off 4 :=
  be32_ofBe32 (by rw [slice_length]; omega)

theorem be64_u64At {b : Bytes} {off : Nat} (h : off + 8 ≤ b.length) : be64 (u64At b off) = slice b off 8 :=
  be64_ofBe64 (by rw [slice_length]; omega)

theorem toBytes_fieldAt {n : Nat} {b : Bytes} {off : Nat} (h : off + n ≤ b.length) :
    (fieldAt n b off).toBytes = slice b off n :=
  ByteVec.toBytes_ofBytes n _ (by rw [List.length_drop]; omega)

/-- Two slices, one behind the other, are one. -/
theorem slice_append_slice (b : Bytes) (off m n : Nat) : slice b off m ++ slice b (off + m) n = slice b off (m + n) := by
  rw [slice, slice, slice, ← List.drop_drop, List.take_add]

/-! ### Keystreams -/

/-- Each byte combined with the keystream byte at its position. -/
def xorStream (keystream : Nat → UInt8) (b : Bytes) : Bytes :=
  b.mapIdx fun i x => x ^^^ keystream i

@[simp] theorem length_xorStream (ks : Nat → UInt8) (b : Bytes) :
    (xorStream ks b).length = b.length := by
  simp [xorStream]

/-- A keystream applied twice cancels. -/
@[simp] theorem xorStream_xorStream (ks : Nat → UInt8) (b : Bytes) :
    xorStream ks (xorStream ks b) = b := by
  apply List.ext_getElem (by simp)
  intro i h₁ h₂
  simp only [xorStream, List.getElem_mapIdx, UInt8.xor_assoc, UInt8.xor_self, UInt8.xor_zero]

theorem xorStream_append (ks : Nat → UInt8) (a b : Bytes) :
    xorStream ks (a ++ b) = xorStream ks a ++ xorStream (fun i => ks (a.length + i)) b := by
  simp [xorStream, List.mapIdx_append, Nat.add_comm]

/-- Keystreams that agree where there are bytes give the same. -/
theorem xorStream_congr {ks ks' : Nat → UInt8} {b : Bytes} (h : ∀ i < b.length, ks i = ks' i) :
    xorStream ks b = xorStream ks' b := by
  apply List.ext_getElem (by simp)
  intro i h₁ h₂
  have hi : i < b.length := by simpa using h₁
  simp [xorStream, h i hi]

/-- What holds of all 256 values holds of every byte. -/
theorem forall_byte {p : UInt8 → Prop} (h : ∀ n < 256, p (UInt8.ofNat n)) (x : UInt8) : p x := by
  simpa using h x.toNat x.toNat_lt

end ManyTier
