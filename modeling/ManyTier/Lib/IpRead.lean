import ManyTier.Lib.IpText

/-! IP addresses read as they are printed.

A reader takes a number up to the first character that is no digit, so a printed address
is read piece by piece: the numbers of an IPv4 address between its dots
(`parseIpv4Addr_formatIpv4`), the groups of an IPv6 address up to the zeros left out and
behind them (`parseIpv6Addr_formatIpv6`). -/
namespace ManyTier

/-- What does not go on with a digit. -/
def NoDigit (radix : Nat) (s : Bytes) : Prop := ∀ c, s.head? = some c → digitOf radix c = none

theorem noDigit_nil (radix : Nat) : NoDigit radix [] := fun _ h => nomatch h

theorem noDigit_cons {radix : Nat} {c : UInt8} (h : digitOf radix c = none) (s : Bytes) : NoDigit radix (c :: s) := by
  intro c' hc'
  obtain rfl := Option.some.inj hc'
  exact h

namespace Reader

theorem given_cons (c : UInt8) (s : Bytes) : given c (c :: s) = some ((), s) := if_pos rfl

/-! ### Numbers -/

/-- The digits of a number are read up to what is none. -/
theorem digits_append {radix max acc count v : Nat} {s rest : Bytes} (h : digitsOf radix max acc s = some v)
    (hrest : NoDigit radix rest) : digits radix max acc count (s ++ rest) = some ((v, count + s.length), rest) := by
  induction s generalizing acc count with
  | nil =>
    obtain rfl : acc = v := Option.some.inj h
    cases rest with
    | nil => rfl
    | cons c rest =>
      rw [List.nil_append, digits, hrest c rfl]
      rfl
  | cons c s ih =>
    obtain ⟨d, hd, h⟩ := Option.bind_eq_some_iff.mp h
    split at h
    · rename_i hle
      rw [List.cons_append, digits, hd]
      simp only [if_pos hle]
      rw [ih h, List.length_cons, Nat.add_assoc, Nat.add_comm 1]
    · cases h

theorem number_append {radix max maxDigits v : Nat} {allowZeroPrefix : Bool} {s rest : Bytes}
    (h : digitsOf radix max 0 s = some v) (hrest : NoDigit radix rest) (hne : s ≠ []) (hlen : s.length ≤ maxDigits)
    (hzero : allowZeroPrefix = true ∨ s.head? ≠ some 0x30 ∨ s.length ≤ 1) :
    number radix max maxDigits allowZeroPrefix (s ++ rest) = some (v, rest) := by
  have hpos : 0 < s.length := List.length_pos_iff.mpr hne
  have hhead : (s ++ rest).head? = s.head? := List.head?_append_of_ne_nil s hne
  unfold number
  rw [digits_append h hrest]
  simp only [Option.bind_eq_bind, Option.bind_some, Nat.zero_add, hhead]
  rw [if_neg (by omega), if_neg]
  rintro ⟨hfalse, hstart, hmany⟩
  rcases hzero with h | h | h
  · rw [h] at hfalse
    cases hfalse
  · exact h hstart
  · omega

/-- What does not begin with a digit is no number. -/
theorem number_none {radix max maxDigits : Nat} {allowZeroPrefix : Bool} {s : Bytes} (h : NoDigit radix s) :
    number radix max maxDigits allowZeroPrefix s = none := by
  have hnone : digits radix max 0 0 ([] ++ s) = some ((0, 0), s) := digits_append rfl h
  rw [List.nil_append] at hnone
  unfold number
  rw [hnone]
  rfl

/-- A byte in decimal. -/
theorem number_decimal (b : UInt8) {rest : Bytes} (hrest : NoDigit 10 rest) :
    number 10 255 3 false (formatDecimal b.toNat ++ rest) = some (b.toNat, rest) := by
  have hb := b.toNat_lt
  have hshape : ∀ b : UInt8, (formatDecimal b.toNat).length ≤ 3 ∧
      ((formatDecimal b.toNat).head? ≠ some 0x30 ∨ (formatDecimal b.toNat).length ≤ 1) :=
    forall_byte (by decide +kernel)
  exact number_append (digitsOf_formatDigits (by decide) (by decide) 20 _ (by omega) (by omega)) hrest
    (formatDigits_ne_nil 10 19 _) (hshape b).1 (.inr (hshape b).2)

theorem length_formatDigits_le (radix width n : Nat) : (formatDigits radix width n).length ≤ width := by
  induction width generalizing n with
  | zero => exact Nat.le_refl 0
  | succ width ih =>
    unfold formatDigits
    split
    · exact Nat.succ_le_succ (Nat.zero_le width)
    · rw [List.length_append, List.length_singleton]
      exact Nat.succ_le_succ (ih _)

/-- A group in hexadecimal. -/
theorem number_group (g : UInt16) {rest : Bytes} (hrest : NoDigit 16 rest) :
    number 16 0xffff 4 true (formatGroup g ++ rest) = some (g.toNat, rest) := by
  have hg := g.toNat_lt
  exact number_append (digitsOf_formatDigits (by decide) (by decide) 4 _ (by simpa using hg) (by omega)) hrest
    (formatGroup_ne_nil g) (length_formatDigits_le 16 4 _) (.inl rfl)

/-! ### IPv4 addresses -/

/-- An address behind which no digit follows is read. -/
theorem ipv4_formatIpv4 (ip : ByteVec 4) {rest : Bytes} (hrest : NoDigit 10 rest) :
    ipv4 (formatIpv4 ip ++ rest) = some (ip, rest) := by
  obtain ⟨bytes, hlen⟩ := ip
  match bytes, hlen with
  | [a, b, c, d], hlen =>
    have htext : formatIpv4 ⟨[a, b, c, d], hlen⟩ ++ rest = formatDecimal a.toNat ++ (0x2e :: (formatDecimal b.toNat ++
        (0x2e :: (formatDecimal c.toNat ++ (0x2e :: (formatDecimal d.toNat ++ rest)))))) := by
      simp [formatIpv4, ByteVec.toBytes, List.intercalate_cons_cons]
    have hdot : ∀ s, NoDigit 10 (0x2e :: s) := noDigit_cons (by decide)
    have hseparated : ∀ (i : Nat) (r : Reader Nat) (s : Bytes), separated 0x2e (i + 1) r (0x2e :: s) = r s := by
      intro i r s
      rw [separated, if_neg (Nat.succ_ne_zero i), given_cons]
      rfl
    rw [htext]
    unfold ipv4
    simp only [Option.bind_eq_bind]
    rw [number_decimal a (hdot _), Option.bind_some, hseparated 0, number_decimal b (hdot _), Option.bind_some,
      hseparated 1, number_decimal c (hdot _), Option.bind_some, hseparated 2, number_decimal d hrest, Option.bind_some]
    simp

/-- Nothing but a number begins an address. -/
theorem ipv4_none {s : Bytes} (h : NoDigit 10 s) : ipv4 s = none := by
  unfold ipv4
  rw [number_none h]
  rfl

theorem digits_suffix {radix max acc count : Nat} {s rest : Bytes} {r : Nat × Nat}
    (h : digits radix max acc count s = some (r, rest)) : rest <:+ s := by
  induction s generalizing acc count with
  | nil =>
    obtain ⟨-, rfl⟩ := Prod.mk.inj (Option.some.inj h)
    exact List.suffix_rfl
  | cons c s ih =>
    rw [digits] at h
    split at h
    · obtain ⟨-, rfl⟩ := Prod.mk.inj (Option.some.inj h)
      exact List.suffix_rfl
    · split at h
      · exact (ih h).trans (List.suffix_cons c s)
      · cases h

/-- An address has a dot. -/
theorem dot_mem_of_ipv4 {s : Bytes} {r : ByteVec 4 × Bytes} (h : ipv4 s = some r) : 0x2e ∈ s := by
  obtain ⟨⟨a, rest⟩, hnumber, h⟩ := Option.bind_eq_some_iff.mp h
  obtain ⟨⟨⟨value, count⟩, rest'⟩, hdigits, hvalue⟩ := Option.bind_eq_some_iff.mp hnumber
  have hsuffix : rest <:+ s := by
    dsimp only at hvalue
    split at hvalue
    · cases hvalue
    · split at hvalue
      · cases hvalue
      · obtain ⟨-, rfl⟩ := Prod.mk.inj (Option.some.inj hvalue)
        exact digits_suffix hdigits
  obtain ⟨_, hseparated, -⟩ := Option.bind_eq_some_iff.mp h
  unfold separated at hseparated
  rw [if_neg one_ne_zero] at hseparated
  obtain ⟨_, hgiven, -⟩ := Option.bind_eq_some_iff.mp hseparated
  refine hsuffix.subset ?_
  cases rest with
  | nil => cases hgiven
  | cons c rest =>
    by_cases hc : c = 0x2e
    · rw [hc]
      exact List.mem_cons_self
    · rw [given, if_neg hc] at hgiven
      cases hgiven

/-! ### Groups -/

/-- Groups behind `index` others. -/
def groupsText : Nat → List UInt16 → Bytes
  | 0, gs => formatGroups gs
  | _ + 1, gs => gs.flatMap fun g => 0x3a :: formatGroup g

theorem groupsText_cons (index : Nat) (g : UInt16) (gs : List UInt16) :
    groupsText index (g :: gs) = (if index = 0 then [] else [0x3a]) ++ (formatGroup g ++ groupsText (index + 1) gs) := by
  cases index with
  | zero =>
    show formatGroups (g :: gs) = formatGroup g ++ gs.flatMap _
    induction gs generalizing g with
    | nil => simp [formatGroups]
    | cons next rest ih =>
      rw [formatGroups, List.map_cons, List.map_cons, List.intercalate_cons_cons, List.flatMap_cons]
      have := ih next
      rw [formatGroups, List.map_cons] at this
      rw [this]
      simp
  | succ index => simp [groupsText]

/-- What no group follows: nothing, or two colons, and no dot. -/
structure Ends (s : Bytes) : Prop where
  shape : s = [] ∨ ∃ rest, s = 0x3a :: 0x3a :: rest
  noDot : 0x2e ∉ s

theorem separated_number_none {s : Bytes} (h : Ends s) (index : Nat) :
    separated 0x3a index (number 16 0xffff 4 true) s = none := by
  have hcolon : ∀ rest, number 16 0xffff 4 true (0x3a :: rest) = none :=
    fun rest => number_none (noDigit_cons (by decide) rest)
  unfold separated
  rcases h.shape with rfl | ⟨rest, rfl⟩
  · split
    · exact number_none (noDigit_nil 16)
    · rfl
  · split
    · exact hcolon _
    · rw [given_cons]
      exact hcolon _

theorem separated_ipv4_none {s : Bytes} (h : 0x2e ∉ s) (sep : UInt8) (index : Nat) : separated sep index ipv4 s = none := by
  have hnone : ∀ s' : Bytes, s' <:+ s → ipv4 s' = none := by
    intro s' hs'
    cases hread : ipv4 s' with
    | none => rfl
    | some r => exact absurd (hs'.subset (dot_mem_of_ipv4 hread)) h
  unfold separated
  split
  · exact hnone s List.suffix_rfl
  · cases s with
    | nil => rfl
    | cons c rest =>
      by_cases hc : c = sep
      · rw [hc, given_cons]
        exact hnone rest (List.suffix_cons c rest)
      · rw [given, if_neg hc]
        rfl

theorem dot_notMem_groupsText (index : Nat) (gs : List UInt16) : 0x2e ∉ groupsText index gs := by
  induction gs generalizing index with
  | nil => cases index <;> simp [groupsText, formatGroups]
  | cons g rest ih =>
    rw [groupsText_cons]
    simp only [List.mem_append, not_or]
    refine ⟨?_, fun hmem => (mem_formatGroup hmem).1 rfl, ih _⟩
    split <;> decide

/-- Behind a group comes a colon or nothing. -/
theorem noDigit_behind (index : Nat) (gs : List UInt16) {tail : Bytes} (h : Ends tail) :
    NoDigit 16 (groupsText (index + 1) gs ++ tail) := by
  cases gs with
  | nil =>
    rcases h.shape with rfl | ⟨rest, rfl⟩
    · exact noDigit_nil 16
    · exact noDigit_cons (by decide) _
  | cons g rest =>
    rw [groupsText_cons, if_neg (Nat.succ_ne_zero index)]
    exact noDigit_cons (by decide) _

/-- Printed groups are read up to what no group follows. -/
theorem groups_groupsText (gs : List UInt16) {left : Nat} (index : Nat) {tail : Bytes} (hlen : gs.length ≤ left)
    (htail : Ends tail) : groups left index (groupsText index gs ++ tail) = (gs, false, tail) := by
  induction gs generalizing left index with
  | nil =>
    have htext : groupsText index [] ++ tail = tail := by cases index <;> rfl
    rw [htext]
    cases left with
    | zero => rfl
    | succ left =>
      rw [groups, separated_ipv4_none htail.noDot, separated_number_none htail, ite_self]
  | cons g rest ih =>
    obtain ⟨left, rfl⟩ : ∃ k, left = k + 1 := ⟨left - 1, by rw [List.length_cons] at hlen; omega⟩
    have hdot : 0x2e ∉ groupsText index (g :: rest) ++ tail := by
      simp only [List.mem_append, not_or]
      exact ⟨dot_notMem_groupsText index _, htail.noDot⟩
    have hnumber : separated 0x3a index (number 16 0xffff 4 true) (groupsText index (g :: rest) ++ tail) =
        some (g.toNat, groupsText (index + 1) rest ++ tail) := by
      rw [groupsText_cons, List.append_assoc, List.append_assoc, separated]
      split
      · exact number_group g (noDigit_behind index rest htail)
      · rw [List.singleton_append, given_cons]
        exact number_group g (noDigit_behind index rest htail)
    rw [groups, separated_ipv4_none hdot, ite_self, hnumber]
    simp only
    rw [ih (index + 1) (by rw [List.length_cons] at hlen; omega), UInt16.ofNat_toNat]

/-! ### IPv6 addresses -/

/-- Sixteen bytes are their pairs, one behind the other. -/
theorem flatMap_slice_pairs : ∀ {bytes : Bytes}, bytes.length = 16 →
    ((List.range 8).flatMap fun i => slice bytes (2 * i) 2) = bytes
  | [_, _, _, _, _, _, _, _, _, _, _, _, _, _, _, _], _ => rfl

theorem groupBytes_groupsOf (ip : ByteVec 16) : groupBytes (groupsOf ip) = ip.toBytes := by
  have hslices : groupBytes (groupsOf ip) = (List.range 8).flatMap fun i => slice ip.toBytes (2 * i) 2 := by
    rw [groupBytes, groupsOf, List.flatMap_map]
    refine List.flatMap_congr fun i hi => ?_
    have hlt := List.mem_range.mp hi
    exact be16_u16At (by rw [ByteVec.length_toBytes]; omega)
  rw [hslices, flatMap_slice_pairs ip.length_toBytes]

theorem ends_nil : Ends [] := ⟨.inl rfl, List.not_mem_nil⟩

/-- An address printed as groups. -/
theorem ipv6_formatPlain {gs : List UInt16} (h : gs.length = 8) :
    ipv6 (formatPlain gs) = some (ByteVec.ofBytes 16 (groupBytes gs), []) := by
  unfold formatPlain
  simp only
  split
  · rename_i hrun
    have haround := groups_around_zeros gs
    simp only at haround
    generalize longestZeros 0 ⟨0, 0⟩ ⟨0, 0⟩ gs = zeroes at hrun haround ⊢
    generalize gs.take zeroes.start = l at haround ⊢
    generalize gs.drop (zeroes.start + zeroes.len) = r at haround ⊢
    have hlen := congrArg List.length haround
    simp only [List.length_append, List.length_replicate] at hlen
    have hends : Ends (0x3a :: 0x3a :: formatGroups r) := by
      refine ⟨.inr ⟨_, rfl⟩, ?_⟩
      simpa using fun hmem => (mem_formatGroups hmem).1 rfl
    have hfront : groups 8 0 (formatGroups l ++ 0x3a :: 0x3a :: formatGroups r) =
        (l, false, 0x3a :: 0x3a :: formatGroups r) := groups_groupsText l 0 (by omega) hends
    have hback := groups_groupsText r 0 (by omega : r.length ≤ 7 - l.length) ends_nil
    rw [List.append_nil, groupsText] at hback
    unfold ipv6
    rw [hfront]
    simp only
    rw [if_neg (by omega), if_neg Bool.false_ne_true]
    simp only [Option.bind_eq_bind, given_cons, Option.bind_some, hback]
    rw [show 8 - l.length - r.length = zeroes.len by omega, ← haround]
  · have hall := groups_groupsText gs 0 h.le ends_nil
    rw [List.append_nil, groupsText] at hall
    unfold ipv6
    rw [hall]
    simp only
    rw [if_pos h]

/-- An IPv4 address printed in an IPv6 address. -/
theorem ipv6_mapped (v4 : ByteVec 4) : ipv6 (ascii [':', ':', 'f', 'f', 'f', 'f', ':'] ++ formatIpv4 v4) =
    some (ByteVec.ofBytes 16 (mappedFront ++ v4.toBytes), []) := by
  have hread : ipv4 (formatIpv4 v4) = some (v4, []) := by
    simpa using ipv4_formatIpv4 v4 (noDigit_nil 10)
  have hfront : groups 8 0 (0x3a :: 0x3a :: 0x66 :: 0x66 :: 0x66 :: 0x66 :: 0x3a :: formatIpv4 v4) =
      ([], false, 0x3a :: 0x3a :: 0x66 :: 0x66 :: 0x66 :: 0x66 :: 0x3a :: formatIpv4 v4) := by
    rw [groups, separated, if_pos rfl, ipv4_none (noDigit_cons (by decide) _), ite_self, separated, if_pos rfl,
      number_none (noDigit_cons (by decide) _)]
  have hgroup : number 16 0xffff 4 true (0x66 :: 0x66 :: 0x66 :: 0x66 :: 0x3a :: formatIpv4 v4) =
      some (0xffff, 0x3a :: formatIpv4 v4) := number_group 0xffff (noDigit_cons (by decide) _)
  have hback : groups 7 0 (0x66 :: 0x66 :: 0x66 :: 0x66 :: 0x3a :: formatIpv4 v4) =
      ([0xffff, u16At v4.toBytes 0, u16At v4.toBytes 2], true, []) := by
    have hseparated : separated 0x3a 1 ipv4 (0x3a :: formatIpv4 v4) = some (v4, []) := by
      rw [separated, if_neg one_ne_zero, given_cons]
      exact hread
    have hlast : groups 6 1 (0x3a :: formatIpv4 v4) = ([u16At v4.toBytes 0, u16At v4.toBytes 2], true, []) := by
      rw [groups, if_pos (by decide), hseparated]
    rw [groups, separated, if_pos rfl, ipv4_none (noDigit_cons (by decide) _), ite_self, separated, if_pos rfl, hgroup]
    simp only [hlast]
    rfl
  show ipv6 (0x3a :: 0x3a :: 0x66 :: 0x66 :: 0x66 :: 0x66 :: 0x3a :: formatIpv4 v4) = _
  unfold ipv6
  rw [hfront]
  simp only
  rw [if_neg (by decide), if_neg Bool.false_ne_true]
  simp only [Option.bind_eq_bind, given_cons, Option.bind_some, List.length_nil, Nat.sub_zero, hback]
  have hbytes : groupBytes ([] ++ List.replicate 5 0 ++ [0xffff, u16At v4.toBytes 0, u16At v4.toBytes 2]) =
      mappedFront ++ v4.toBytes := by
    have hhigh : be16 (u16At v4.toBytes 0) = slice v4.toBytes 0 2 := be16_u16At (by simp)
    have hlow : be16 (u16At v4.toBytes 2) = slice v4.toBytes 2 2 := be16_u16At (by simp)
    have hwhole : slice v4.toBytes 0 2 ++ slice v4.toBytes 2 2 = v4.toBytes := by
      rw [slice, slice, List.drop_zero, List.take_of_length_le (l := v4.toBytes.drop 2) (by simp), List.take_append_drop]
    show mappedFront ++ (be16 (u16At v4.toBytes 0) ++ (be16 (u16At v4.toBytes 2) ++ [])) = _
    rw [hhigh, hlow, List.append_nil, hwhole]
  exact congrArg (fun bytes => some (ByteVec.ofBytes 16 bytes, ([] : Bytes))) hbytes

end Reader

theorem parseIpv4Addr_formatIpv4 (ip : ByteVec 4) : parseIpv4Addr (formatIpv4 ip) = some ip := by
  have hread := Reader.ipv4_formatIpv4 ip (noDigit_nil 10)
  rw [List.append_nil] at hread
  have hlen : (formatIpv4 ip).length ≤ 15 := by
    have hshort : ∀ b : UInt8, (formatDecimal b.toNat).length ≤ 3 := forall_byte (by decide +kernel)
    obtain ⟨bytes, hlen⟩ := ip
    match bytes, hlen with
    | [a, b, c, d], _ =>
      have ha := hshort a
      have hb := hshort b
      have hc := hshort c
      have hd := hshort d
      simp [formatIpv4, ByteVec.toBytes, List.intercalate_cons_cons]
      omega
  rw [parseIpv4Addr, if_neg (Nat.not_lt.mpr hlen), Reader.whole, hread]

theorem parseIpv6Addr_formatIpv6 (ip : ByteVec 16) : parseIpv6Addr (formatIpv6 ip) = some ip := by
  have hread : Reader.ipv6 (formatIpv6 ip) = some (ip, []) := by
    unfold formatIpv6
    split
    · rename_i hmapped
      have hback : (fieldAt 4 ip.toBytes 12).toBytes = ip.toBytes.drop 12 := by
        rw [fieldAt, ByteVec.toBytes_ofBytes 4 _ (by simp), List.take_of_length_le (by simp)]
      rw [Reader.ipv6_mapped, hback, ← hmapped, List.take_append_drop, ByteVec.ofBytes_toBytes]
    · rw [Reader.ipv6_formatPlain (length_groupsOf ip), Reader.groupBytes_groupsOf, ByteVec.ofBytes_toBytes]
  rw [parseIpv6Addr, Reader.whole, hread]

end ManyTier
