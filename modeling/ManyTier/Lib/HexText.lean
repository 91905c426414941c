import ManyTier.Lib.Text

/-! Bytes printed as two hexadecimal digits each.

A byte string that is printed so is read as the number its bytes spell
(`parseUnsigned_hexBytes`), so that a number printed in full width is read as itself
(`parseHexU64_be64`) and a byte as well (`parseUnsigned_hexByte`). Whatever the bound, a
text is read as one number at most (`Spells.unique`). -/
namespace ManyTier

/-- The two digits of a byte. -/
def hexByte (b : UInt8) : Bytes := [formatDigit (b.toNat / 16), formatDigit (b.toNat % 16)]

def hexBytes (bytes : Bytes) : Bytes := bytes.flatMap hexByte

@[simp] theorem hexBytes_cons (b : UInt8) (bytes : Bytes) : hexBytes (b :: bytes) = hexByte b ++ hexBytes bytes := rfl

theorem mem_hexByte {c b : UInt8} (h : c ∈ hexByte b) : ∃ d < 16, c = formatDigit d := by
  have hb := b.toNat_lt
  rcases List.mem_cons.mp h with rfl | h
  · exact ⟨_, by omega, rfl⟩
  · obtain rfl := List.mem_singleton.mp h
    exact ⟨_, by omega, rfl⟩

theorem mem_hexBytes {c : UInt8} {bytes : Bytes} (h : c ∈ hexBytes bytes) : ∃ d < 16, c = formatDigit d := by
  obtain ⟨b, -, hc⟩ := List.mem_flatMap.mp h
  exact mem_hexByte hc

/-- Digits are read onto the number before them. -/
theorem digitsOf_hexBytes {max acc : Nat} (bytes : Bytes) (h : acc * 256 ^ bytes.length + ofBe bytes ≤ max) :
    digitsOf 16 max acc (hexBytes bytes) = some (acc * 256 ^ bytes.length + ofBe bytes) := by
  induction bytes generalizing acc with
  | nil => simp [hexBytes, digitsOf, ofBe]
  | cons b rest ih =>
    have hb := b.toNat_lt
    have hpos : 0 < 256 ^ rest.length := by positivity
    have hspelled : acc * 256 ^ (b :: rest).length + ofBe (b :: rest) =
        (acc * 256 + b.toNat) * 256 ^ rest.length + ofBe rest := by
      rw [ofBe_cons, List.length_cons, pow_succ]
      ring
    have hhigh : digitOf 16 (formatDigit (b.toNat / 16)) = some (b.toNat / 16) :=
      digitOf_formatDigit (by decide) (by omega)
    have hlow : digitOf 16 (formatDigit (b.toNat % 16)) = some (b.toNat % 16) :=
      digitOf_formatDigit (by decide) (by omega)
    have hwhole : (acc * 16 + b.toNat / 16) * 16 + b.toNat % 16 = acc * 256 + b.toNat := by omega
    have hmax : acc * 256 + b.toNat ≤ max := by nlinarith
    rw [hspelled] at h ⊢
    rw [hexBytes_cons, hexByte, List.cons_append, List.cons_append, List.nil_append, digitsOf, hhigh]
    simp only [Option.bind_eq_bind, Option.bind_some]
    rw [if_pos (by omega), digitsOf, hlow]
    simp only [Option.bind_eq_bind, Option.bind_some]
    rw [hwhole, if_pos hmax]
    exact ih h

/-- Bytes are read as the number they spell. -/
theorem parseUnsigned_hexBytes {max : Nat} {bytes : Bytes} (hne : bytes ≠ []) (hmax : ofBe bytes ≤ max) :
    parseUnsigned 16 max (hexBytes bytes) = some (ofBe bytes) := by
  have hread : digitsOf 16 max 0 (hexBytes bytes) = some (ofBe bytes) := by
    have hspelled : 0 * 256 ^ bytes.length + ofBe bytes = ofBe bytes := by rw [Nat.zero_mul, Nat.zero_add]
    rw [digitsOf_hexBytes bytes (hspelled.le.trans hmax), hspelled]
  have hplus : ∀ rest, hexBytes bytes ≠ 0x2b :: rest := by
    intro rest heq
    obtain ⟨d, hd, hc⟩ := mem_hexBytes (heq ▸ List.mem_cons_self)
    exact (formatDigit_ne hd).1 hc.symm
  have hnil : (hexBytes bytes).isEmpty = false := by
    cases bytes with
    | nil => exact absurd rfl hne
    | cons b rest => rfl
  unfold parseUnsigned
  split
  · rename_i rest heq
    exact absurd heq (hplus rest)
  · simp only [hnil, Bool.false_eq_true, if_false, hread]

theorem parseUnsigned_hexByte (b : UInt8) : parseUnsigned 16 255 (hexByte b) = some b.toNat := by
  have hb := b.toNat_lt
  have hspelled : ofBe [b] = b.toNat := by simp [ofBe]
  have hone : hexByte b = hexBytes [b] := (List.append_nil _).symm
  rw [hone, parseUnsigned_hexBytes (List.cons_ne_nil b []) (by omega), hspelled]

@[simp] theorem length_hexBytes (bytes : Bytes) : (hexBytes bytes).length = 2 * bytes.length := by
  simp [hexBytes, hexByte, List.length_flatMap, Nat.mul_comm]

/-- A number printed in full width. -/
theorem parseHexU64_be64 (v : UInt64) : parseHexU64 (hexBytes (be64 v)) = some v := by
  have hv := v.toNat_lt
  have hspelled : ofBe (be64 v) = v.toNat := by
    exact (ofBe_toBe 8 v.toNat).trans (Nat.mod_eq_of_lt hv)
  have hne : be64 v ≠ [] := by
    intro h
    have := congrArg List.length h
    simp at this
  rw [parseHexU64, parseUnsigned_hexBytes hne (by omega), hspelled]
  simp

/-! ### The number a text spells -/

/-- A text spells a number, however large. -/
def Spells (radix : Nat) (s : Bytes) (n : Nat) : Prop := ∃ max, parseUnsigned radix max s = some n

theorem digitsOf_unique {radix max max' acc n n' : Nat} {s : Bytes} (h : digitsOf radix max acc s = some n)
    (h' : digitsOf radix max' acc s = some n') : n = n' := by
  induction s generalizing acc with
  | nil => exact Option.some.inj (h.symm.trans h')
  | cons c rest ih =>
    obtain ⟨d, hd, h⟩ := Option.bind_eq_some_iff.mp h
    obtain ⟨d', hd', h'⟩ := Option.bind_eq_some_iff.mp h'
    obtain rfl := Option.some.inj (hd.symm.trans hd')
    obtain ⟨-, h⟩ := Option.ite_none_right_eq_some.mp h
    obtain ⟨-, h'⟩ := Option.ite_none_right_eq_some.mp h'
    exact ih h h'

/-- The digits of a text, behind a plus sign or not. -/
theorem parseUnsigned_digits (radix : Nat) (s : Bytes) :
    ∃ digits, ∀ {max n : Nat}, parseUnsigned radix max s = some n → digitsOf radix max 0 digits = some n := by
  apply Exists.intro
  intro max n h
  unfold parseUnsigned at h
  exact (Option.ite_none_left_eq_some.mp h).2

theorem Spells.unique {radix n n' : Nat} {s : Bytes} (h : Spells radix s n) (h' : Spells radix s n') : n = n' := by
  obtain ⟨digits, hdigits⟩ := parseUnsigned_digits radix s
  obtain ⟨max, h⟩ := h
  obtain ⟨max', h'⟩ := h'
  exact digitsOf_unique (hdigits h) (hdigits h')

/-- A number that is read is within the bound it is read with. -/
theorem parseUnsigned_le {radix max n : Nat} {s : Bytes} (h : parseUnsigned radix max s = some n) : n ≤ max := by
  have hread : ∀ (s : Bytes) (acc : Nat), acc ≤ max → digitsOf radix max acc s = some n → n ≤ max := by
    intro s
    induction s with
    | nil =>
      intro acc hacc heq
      exact (Option.some.inj heq).symm.le.trans hacc
    | cons c rest ih =>
      intro acc hacc heq
      obtain ⟨d, -, heq⟩ := Option.bind_eq_some_iff.mp heq
      obtain ⟨hle, heq⟩ := Option.ite_none_right_eq_some.mp heq
      exact ih _ hle heq
  obtain ⟨digits, hdigits⟩ := parseUnsigned_digits radix s
  exact hread digits 0 (Nat.zero_le max) (hdigits h)

/-! ### Texts of ASCII characters -/

theorem isUtf8_nil : isUtf8 [] = true := rfl

/-- Bytes as a text; the empty one where they are none. -/
def Text.ofBytes (b : Bytes) : Text := if h : isUtf8 b = true then ⟨b, h⟩ else ⟨[], isUtf8_nil⟩

theorem Text.bytes_ofBytes {b : Bytes} (h : ∀ c ∈ b, c < 0x80) : (Text.ofBytes b).bytes = b := by
  rw [Text.ofBytes, dif_pos (isUtf8_of_ascii h)]

theorem formatDigit_lt {d : Nat} (hd : d < 16) : formatDigit d < 0x80 := by
  have h : ∀ d < 16, formatDigit d < 0x80 := by decide
  exact h d hd

theorem ascii_hexBytes {c : UInt8} {bytes : Bytes} (h : c ∈ hexBytes bytes) : c < 0x80 := by
  obtain ⟨d, hd, rfl⟩ := mem_hexBytes h
  exact formatDigit_lt hd

end ManyTier
