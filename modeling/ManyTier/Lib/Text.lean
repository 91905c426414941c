import ManyTier.Lib.Bytes

/-! Text as UTF-8 bytes: validity, numbers, IP addresses and the splitting and trimming
the standard library does. A `Text` carries the proof that its bytes are UTF-8. -/
namespace ManyTier

/-! ### UTF-8 -/

namespace Utf8

/-- How many continuation bytes are still due, and the range the next one is in;
nothing once a byte was out of place. -/
abbrev State := Option (Nat × UInt8 × UInt8)

def step (s : State) (b : UInt8) : State :=
  match s with
  | none => none
  | some (0, _, _) =>
    if b < 0x80 then some (0, 0, 0)
    else if b < 0xc2 then none
    else if b < 0xe0 then some (1, 0x80, 0xbf)
    else if b = 0xe0 then some (2, 0xa0, 0xbf)
    else if b = 0xed then some (2, 0x80, 0x9f)
    else if b < 0xf0 then some (2, 0x80, 0xbf)
    else if b = 0xf0 then some (3, 0x90, 0xbf)
    else if b < 0xf4 then some (3, 0x80, 0xbf)
    else if b = 0xf4 then some (3, 0x80, 0x8f)
    else none
  | some (due + 1, lo, hi) => if lo ≤ b ∧ b ≤ hi then some (due, 0x80, 0xbf) else none

end Utf8

def isUtf8 (b : Bytes) : Bool :=
  match b.foldl Utf8.step (some (0, 0, 0)) with
  | some (0, _, _) => true
  | _ => false

theorem isUtf8_of_ascii {b : Bytes} (h : ∀ c ∈ b, c < 0x80) : isUtf8 b = true := by
  have hfold : b.foldl Utf8.step (some (0, 0, 0)) = some (0, 0, 0) := by
    induction b with
    | nil => rfl
    | cons c rest ih =>
      have hc : c < 0x80 := h c List.mem_cons_self
      rw [List.foldl_cons, show Utf8.step (some (0, 0, 0)) c = some (0, 0, 0) by simp [Utf8.step, hc]]
      exact ih fun c' hc' => h c' (List.mem_cons_of_mem _ hc')
  simp [isUtf8, hfold]

/-- A string: bytes that are UTF-8. -/
structure Text where
  bytes : Bytes
  utf8 : isUtf8 bytes = true
  deriving DecidableEq

/-- The bytes of a literal. -/
def ascii (s : List Char) : Bytes := s.map fun c => UInt8.ofNat c.toNat

/-- A literal as a text; the empty one where it is none. -/
def Text.literal (s : List Char) : Text :=
  if h : isUtf8 (ascii s) = true then ⟨ascii s, h⟩ else ⟨[], rfl⟩

/-! ### Splitting and trimming -/

/-- The parts between occurrences of a byte. -/
def splitOn (sep : UInt8) (s : Bytes) : List Bytes := s.splitOn sep

/-- The parts before and after the first occurrence of a byte. -/
def splitOnce (sep : UInt8) (s : Bytes) : Option (Bytes × Bytes) :=
  match s.findIdx? (· = sep) with
  | some i => some (s.take i, s.drop (i + 1))
  | none => none

/-- Without the white space in front. White space is one byte of ASCII, or one of the
two- and three-byte forms Unicode lists. -/
def trimStart : Bytes → Bytes
  | a :: b :: c :: rest =>
    if (0x09 ≤ a ∧ a ≤ 0x0d) ∨ a = 0x20 then trimStart (b :: c :: rest)
    else if a = 0xc2 ∧ (b = 0x85 ∨ b = 0xa0) then trimStart (c :: rest)
    else if (a = 0xe1 ∧ b = 0x9a ∧ c = 0x80) ∨
        (a = 0xe2 ∧ b = 0x80 ∧ ((0x80 ≤ c ∧ c ≤ 0x8a) ∨ c = 0xa8 ∨ c = 0xa9 ∨ c = 0xaf)) ∨
        (a = 0xe2 ∧ b = 0x81 ∧ c = 0x9f) ∨ (a = 0xe3 ∧ b = 0x80 ∧ c = 0x80) then trimStart rest
    else a :: b :: c :: rest
  | [a, b] =>
    if (0x09 ≤ a ∧ a ≤ 0x0d) ∨ a = 0x20 then trimStart [b]
    else if a = 0xc2 ∧ (b = 0x85 ∨ b = 0xa0) then []
    else [a, b]
  | [a] => if (0x09 ≤ a ∧ a ≤ 0x0d) ∨ a = 0x20 then [] else [a]
  | [] => []

/-- The same from the end: the forms are read backwards. -/
def trimEndReversed : Bytes → Bytes
  | c :: b :: a :: rest =>
    if (0x09 ≤ c ∧ c ≤ 0x0d) ∨ c = 0x20 then trimEndReversed (b :: a :: rest)
    else if b = 0xc2 ∧ (c = 0x85 ∨ c = 0xa0) then trimEndReversed (a :: rest)
    else if (a = 0xe1 ∧ b = 0x9a ∧ c = 0x80) ∨
        (a = 0xe2 ∧ b = 0x80 ∧ ((0x80 ≤ c ∧ c ≤ 0x8a) ∨ c = 0xa8 ∨ c = 0xa9 ∨ c = 0xaf)) ∨
        (a = 0xe2 ∧ b = 0x81 ∧ c = 0x9f) ∨ (a = 0xe3 ∧ b = 0x80 ∧ c = 0x80) then trimEndReversed rest
    else c :: b :: a :: rest
  | [c, b] =>
    if (0x09 ≤ c ∧ c ≤ 0x0d) ∨ c = 0x20 then trimEndReversed [b]
    else if b = 0xc2 ∧ (c = 0x85 ∨ c = 0xa0) then []
    else [c, b]
  | [c] => if (0x09 ≤ c ∧ c ≤ 0x0d) ∨ c = 0x20 then [] else [c]
  | [] => []

def trim (s : Bytes) : Bytes := (trimEndReversed (trimStart s).reverse).reverse

/-! ### Numbers -/

def digitOf (radix : Nat) (c : UInt8) : Option Nat :=
  let n := c.toNat
  let d :=
    if 0x30 ≤ n ∧ n ≤ 0x39 then n - 0x30
    else if 0x61 ≤ n ∧ n ≤ 0x7a then n - 0x61 + 10
    else if 0x41 ≤ n ∧ n ≤ 0x5a then n - 0x41 + 10
    else 36
  if d < radix then some d else none

/-- Digits read onto what was read before; nothing at another character or past `max`. -/
def digitsOf (radix max : Nat) : Nat → Bytes → Option Nat
  | acc, [] => some acc
  | acc, c :: rest => do
    let d ← digitOf radix c
    if acc * radix + d ≤ max then digitsOf radix max (acc * radix + d) rest else none

/-- A number of at most `max`: one or more digits, behind a plus sign or not. -/
def parseUnsigned (radix max : Nat) (s : Bytes) : Option Nat :=
  let digits := match s with
    | 0x2b :: rest => rest
    | _ => s
  if digits.isEmpty then none else digitsOf radix max 0 digits

def parseU8 (s : Bytes) : Option UInt8 := (parseUnsigned 10 255 s).map UInt8.ofNat

def parseHexU64 (s : Bytes) : Option UInt64 := (parseUnsigned 16 (2 ^ 64 - 1) s).map UInt64.ofNat

def formatDigit (d : Nat) : UInt8 := UInt8.ofNat (if d < 10 then 0x30 + d else 0x57 + d)

/-- The digits of a number without leading zeros, at most `width` of them. -/
def formatDigits (radix : Nat) : Nat → Nat → Bytes
  | 0, _ => []
  | width + 1, n => if n < radix then [formatDigit n] else formatDigits radix width (n / radix) ++ [formatDigit (n % radix)]

def formatDecimal (n : Nat) : Bytes := formatDigits 10 20 n

def formatHex (n : UInt64) : Bytes := formatDigits 16 16 n.toNat

/-! ### Numbers printed and read -/

theorem digitOf_formatDigit {radix d : Nat} (hradix : radix ≤ 16) (hd : d < radix) :
    digitOf radix (formatDigit d) = some d := by
  have h : ∀ d < 16, ∀ radix < 17, d < radix → digitOf radix (formatDigit d) = some d := by decide
  exact h d (by omega) radix (by omega) hd

theorem digitsOf_append (radix max acc : Nat) (a b : Bytes) :
    digitsOf radix max acc (a ++ b) = (digitsOf radix max acc a).bind fun acc => digitsOf radix max acc b := by
  induction a generalizing acc with
  | nil => rfl
  | cons c rest ih =>
    simp only [List.cons_append, digitsOf]
    cases digitOf radix c with
    | none => rfl
    | some d =>
      simp only [Option.bind_eq_bind, Option.bind_some]
      split
      · exact ih _
      · rfl

/-- The digits of a number read as that number. -/
theorem digitsOf_formatDigits {radix max : Nat} (hlow : 2 ≤ radix) (hradix : radix ≤ 16) (width n : Nat)
    (hn : n < radix ^ width) (hmax : n ≤ max) : digitsOf radix max 0 (formatDigits radix width n) = some n := by
  induction width generalizing n with
  | zero =>
    obtain rfl : n = 0 := by simpa using hn
    rfl
  | succ width ih =>
    unfold formatDigits
    by_cases hsmall : n < radix
    · simp [hsmall, digitsOf, digitOf_formatDigit hradix hsmall, hmax]
    · have hdiv : n / radix < radix ^ width := Nat.div_lt_of_lt_mul (by rw [← Nat.pow_succ']; exact hn)
      have hmod : n % radix < radix := Nat.mod_lt _ (by omega)
      have hn' : n / radix * radix + n % radix = n := Nat.div_add_mod' n radix
      rw [if_neg hsmall, digitsOf_append, ih _ hdiv ((Nat.div_le_self ..).trans hmax)]
      simp [digitsOf, digitOf_formatDigit hradix hmod, hn', hmax]

/-- A printed number is made of digits, and there is one. -/
theorem mem_formatDigits {radix : Nat} (hlow : 2 ≤ radix) (hradix : radix ≤ 16) {width n : Nat} {c : UInt8}
    (hc : c ∈ formatDigits radix width n) : ∃ d < radix, c = formatDigit d := by
  induction width generalizing n with
  | zero => cases hc
  | succ width ih =>
    unfold formatDigits at hc
    split at hc
    · rename_i hsmall
      exact ⟨n, hsmall, List.mem_singleton.mp hc⟩
    · rcases List.mem_append.mp hc with hc | hc
      · exact ih hc
      · exact ⟨n % radix, Nat.mod_lt _ (by omega), List.mem_singleton.mp hc⟩

theorem formatDigits_ne_nil (radix width n : Nat) : formatDigits radix (width + 1) n ≠ [] := by
  unfold formatDigits
  split <;> simp

/-- No digit is a separator of numbers or a sign. -/
theorem formatDigit_ne {d : Nat} (hd : d < 16) :
    formatDigit d ≠ 0x2b ∧ formatDigit d ≠ 0x2e ∧ formatDigit d ≠ 0x2f ∧ formatDigit d ≠ 0x3a := by
  have h : ∀ d < 16, formatDigit d ≠ 0x2b ∧ formatDigit d ≠ 0x2e ∧ formatDigit d ≠ 0x2f ∧
    formatDigit d ≠ 0x3a := by decide
  exact h d hd

theorem parseUnsigned_formatDigits {radix max : Nat} (hlow : 2 ≤ radix) (hradix : radix ≤ 16) (width n : Nat)
    (hn : n < radix ^ (width + 1)) (hmax : n ≤ max) :
    parseUnsigned radix max (formatDigits radix (width + 1) n) = some n := by
  have hnil := formatDigits_ne_nil radix width n
  have hplus : ∀ rest, formatDigits radix (width + 1) n ≠ 0x2b :: rest := by
    intro rest heq
    obtain ⟨d, hd, hc⟩ := mem_formatDigits hlow hradix (heq ▸ List.mem_cons_self)
    exact (formatDigit_ne (by omega : d < 16)).1 hc.symm
  unfold parseUnsigned
  split
  · rename_i rest heq
    exact absurd heq (hplus rest)
  · simp [hnil, digitsOf_formatDigits hlow hradix (width + 1) n hn hmax]

theorem parseU8_formatDecimal (b : UInt8) : parseU8 (formatDecimal b.toNat) = some b := by
  have hb := b.toNat_lt
  rw [parseU8, formatDecimal, parseUnsigned_formatDigits (by decide) (by decide) 19 _ (by omega) (by omega)]
  simp

/-- Numbers print alike only if they are the same. -/
theorem formatDigits_injective {radix width n m : Nat} (hlow : 2 ≤ radix) (hradix : radix ≤ 16)
    (hn : n < radix ^ (width + 1)) (hm : m < radix ^ (width + 1))
    (h : formatDigits radix (width + 1) n = formatDigits radix (width + 1) m) : n = m := by
  have hread := parseUnsigned_formatDigits hlow hradix width n hn (Nat.le_max_left n m)
  rw [h, parseUnsigned_formatDigits hlow hradix width m hm (Nat.le_max_right n m)] at hread
  exact (Option.some.inj hread).symm

/-! ### What was read -/

theorem mem_digitsOf {radix max acc n : Nat} {s : Bytes} (h : digitsOf radix max acc s = some n) :
    ∀ c ∈ s, (digitOf radix c).isSome := by
  induction s generalizing acc with
  | nil => simp
  | cons c rest ih =>
    obtain ⟨d, hd, hrest⟩ := Option.bind_eq_some_iff.mp h
    split at hrest
    · exact List.forall_mem_cons.mpr ⟨by simp [hd], ih hrest⟩
    · cases hrest

/-- A number that was read is made of digits and perhaps a sign. -/
theorem mem_parseUnsigned {radix max n : Nat} {s : Bytes} (h : parseUnsigned radix max s = some n) :
    ∀ c ∈ s, c = 0x2b ∨ (digitOf radix c).isSome := by
  have hdigits : ∀ digits : Bytes, (if digits.isEmpty then none else digitsOf radix max 0 digits) = some n →
      ∀ c ∈ digits, (digitOf radix c).isSome := by
    intro digits hread
    split at hread
    · cases hread
    · exact mem_digitsOf hread
  unfold parseUnsigned at h
  simp only at h
  split at h
  · intro c hc
    rcases List.mem_cons.mp hc with rfl | hc
    · exact .inl rfl
    · exact .inr (hdigits _ h c hc)
  · exact fun c hc => .inr (hdigits s h c hc)

/-- No colon is in a decimal number. -/
theorem colon_notMem_parseU8 {s : Bytes} {n : UInt8} (h : parseU8 s = some n) : 0x3a ∉ s := by
  obtain ⟨v, hv, -⟩ := Option.map_eq_some_iff.mp h
  intro hc
  rcases mem_parseUnsigned hv _ hc with h | h
  · exact absurd h (by decide)
  · exact absurd h (by decide)

theorem splitOnce_eq_some {sep : UInt8} {s front back : Bytes} (h : splitOnce sep s = some (front, back)) :
    s = front ++ sep :: back ∧ sep ∉ front := by
  unfold splitOnce at h
  split at h
  · rename_i i hi
    obtain ⟨rfl, rfl⟩ := Prod.mk.inj (Option.some.inj h)
    obtain ⟨hlt, hat, hbefore⟩ := List.findIdx?_eq_some_iff_getElem.mp hi
    have hsep : s[i] = sep := by simpa using hat
    constructor
    · rw [← hsep, ← List.drop_eq_getElem_cons hlt, List.take_append_drop]
    · intro hmem
      obtain ⟨j, hj, hjeq⟩ := List.mem_take_iff_getElem.mp hmem
      have := hbefore j (by omega)
      simp [hjeq] at this
  · cases h

theorem splitOnce_append {sep : UInt8} {front : Bytes} (h : sep ∉ front) (back : Bytes) :
    splitOnce sep (front ++ sep :: back) = some (front, back) := by
  have hfound : (front ++ sep :: back).findIdx? (· = sep) = some front.length := by
    refine List.findIdx?_eq_some_iff_getElem.mpr ⟨by simp, by simp, ?_⟩
    intro j hj
    rw [List.getElem_append_left hj]
    simpa using fun heq : front[j] = sep => h (heq ▸ List.getElem_mem hj)
  rw [splitOnce, hfound]
  simp

/-! ### IP addresses -/

/-- A reader takes a value off the front, or leaves the input as it was. -/
abbrev Reader (α : Type) := Bytes → Option (α × Bytes)

namespace Reader

/-- The longest run of digits, its value and how many there were; nothing when the
value does not fit. -/
def digits (radix max : Nat) : Nat → Nat → Reader (Nat × Nat)
  | acc, count, c :: rest =>
    match digitOf radix c with
    | none => some ((acc, count), c :: rest)
    | some d => if acc * radix + d ≤ max then digits radix max (acc * radix + d) (count + 1) rest else none
  | acc, count, [] => some ((acc, count), [])

def number (radix max maxDigits : Nat) (allowZeroPrefix : Bool) : Reader Nat := fun s => do
  let ((value, count), rest) ← digits radix max 0 0 s
  if count = 0 ∨ maxDigits < count then none
  else if ! allowZeroPrefix ∧ s.head? = some 0x30 ∧ 1 < count then none
  else some (value, rest)

def given (c : UInt8) : Reader Unit
  | c' :: rest => if c' = c then some ((), rest) else none
  | [] => none

/-- Behind a separator, unless it is the first of a series. -/
def separated {α : Type} (sep : UInt8) (index : Nat) (r : Reader α) : Reader α := fun s =>
  if index = 0 then r s else (given sep s).bind fun (_, rest) => r rest

def ipv4 : Reader (ByteVec 4) := fun s => do
  let (a, s) ← number 10 255 3 false s
  let (b, s) ← separated 0x2e 1 (number 10 255 3 false) s
  let (c, s) ← separated 0x2e 2 (number 10 255 3 false) s
  let (d, s) ← separated 0x2e 3 (number 10 255 3 false) s
  some (⟨[UInt8.ofNat a, UInt8.ofNat b, UInt8.ofNat c, UInt8.ofNat d], rfl⟩, s)

/-- Up to `left` more groups of an IPv6 address, the last two of which may be written
as an IPv4 address, and whether they were. -/
def groups : Nat → Nat → Bytes → List UInt16 × Bool × Bytes
  | 0, _, s => ([], false, s)
  | left + 1, index, s =>
    let embedded := if 0 < left then separated 0x3a index ipv4 s else none
    match embedded with
    | some (v4, rest) => ([u16At v4.toBytes 0, u16At v4.toBytes 2], true, rest)
    | none =>
      match separated 0x3a index (number 16 0xffff 4 true) s with
      | some (g, rest) =>
        let (gs, embedded, rest) := groups left (index + 1) rest
        (UInt16.ofNat g :: gs, embedded, rest)
      | none => ([], false, s)

def groupBytes (gs : List UInt16) : Bytes := gs.flatMap be16

def ipv6 : Reader (ByteVec 16) := fun s =>
  let (head, embedded, rest) := groups 8 0 s
  if head.length = 8 then some (ByteVec.ofBytes 16 (groupBytes head), rest)
  else if embedded then none
  else do
    let (_, rest) ← given 0x3a rest
    let (_, rest) ← given 0x3a rest
    let (tail, _, rest) := groups (7 - head.length) 0 rest
    let zeros := List.replicate (8 - head.length - tail.length) 0
    some (ByteVec.ofBytes 16 (groupBytes (head ++ zeros ++ tail)), rest)

/-- The whole input read. -/
def whole {α : Type} (r : Reader α) (s : Bytes) : Option α :=
  match r s with
  | some (a, []) => some a
  | _ => none

end Reader

def parseIpv4Addr (s : Bytes) : Option (ByteVec 4) :=
  if 15 < s.length then none else Reader.whole Reader.ipv4 s

def parseIpv6Addr (s : Bytes) : Option (ByteVec 16) := Reader.whole Reader.ipv6 s

end ManyTier
