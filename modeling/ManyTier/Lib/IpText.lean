import ManyTier.Lib.Text

/-! IP addresses as the standard library prints them.

An IPv4 address is four numbers between dots. An IPv6 address is eight groups between
colons, with the longest run of two or more zero groups left out, and an IPv4 address
mapped into it is printed as one. Addresses that print alike are the same
(`formatIpv4_injective`, `formatIpv6_injective`). -/
namespace ManyTier

/-- The characters of a joined list are separators and those of its parts. -/
theorem mem_intercalate {sep c : UInt8} {parts : List Bytes} (h : c ∈ [sep].intercalate parts) :
    c = sep ∨ ∃ part ∈ parts, c ∈ part := by
  induction parts with
  | nil => simp at h
  | cons part rest ih =>
    cases rest with
    | nil => exact .inr ⟨part, List.mem_cons_self, by simpa using h⟩
    | cons next rest =>
      simp only [List.intercalate_cons_cons, List.mem_append, List.mem_singleton] at h
      rcases h with (h | h) | h
      · exact .inr ⟨part, List.mem_cons_self, h⟩
      · exact .inl h
      · rcases ih h with h | ⟨p, hp, hc⟩
        · exact .inl h
        · exact .inr ⟨p, List.mem_cons_of_mem _ hp, hc⟩

/-! ### IPv4 -/

def formatIpv4 (ip : ByteVec 4) : Bytes := [0x2e].intercalate (ip.toBytes.map fun b => formatDecimal b.toNat)

theorem mem_formatDecimal {c : UInt8} {n : Nat} (h : c ∈ formatDecimal n) : ∃ d < 10, c = formatDigit d :=
  mem_formatDigits (by decide) (by decide) h

/-- It has dots and digits only. -/
theorem mem_formatIpv4 {c : UInt8} {ip : ByteVec 4} (h : c ∈ formatIpv4 ip) :
    c = 0x2e ∨ ∃ d < 10, c = formatDigit d := by
  rcases mem_intercalate h with h | ⟨part, hpart, hc⟩
  · exact .inl h
  · obtain ⟨b, -, rfl⟩ := List.mem_map.mp hpart
    exact .inr (mem_formatDecimal hc)

theorem splitOn_formatIpv4 (ip : ByteVec 4) :
    splitOn 0x2e (formatIpv4 ip) = ip.toBytes.map fun b => formatDecimal b.toNat := by
  refine List.splitOn_intercalate _ (fun part hpart hdot => ?_) ?_
  · obtain ⟨b, -, rfl⟩ := List.mem_map.mp hpart
    obtain ⟨d, hd, heq⟩ := mem_formatDecimal hdot
    exact (formatDigit_ne (by omega : d < 16)).2.1 heq.symm
  · intro hnil
    have hlen := congrArg List.length hnil
    simp at hlen

theorem formatIpv4_injective {a b : ByteVec 4} (h : formatIpv4 a = formatIpv4 b) : a = b := by
  have hparts := (splitOn_formatIpv4 a).symm.trans ((congrArg _ h).trans (splitOn_formatIpv4 b))
  refine ByteVec.toBytes_injective (List.map_injective_iff.mpr ?_ hparts)
  intro x y (hxy : formatDecimal x.toNat = formatDecimal y.toNat)
  have hread := parseU8_formatDecimal x
  rw [hxy, parseU8_formatDecimal y] at hread
  exact (Option.some.inj hread).symm

/-! ### IPv6 -/

def groupsOf (ip : ByteVec 16) : List UInt16 := (List.range 8).map fun i => u16At ip.toBytes (2 * i)

/-- A run of groups: where it starts and how long it is. -/
structure Span where
  start : Nat
  len : Nat
  deriving DecidableEq

/-- The longest run of zero groups, the first of them when there are several. `current`
is the run that ends at place `i`. -/
def longestZeros : Nat → Span → Span → List UInt16 → Span
  | _, _, longest, [] => longest
  | i, current, longest, g :: rest =>
    if g = 0 then
      let current : Span := ⟨if current.len = 0 then i else current.start, current.len + 1⟩
      longestZeros (i + 1) current (if longest.len < current.len then current else longest) rest
    else longestZeros (i + 1) ⟨0, 0⟩ longest rest

def formatGroup (g : UInt16) : Bytes := formatDigits 16 4 g.toNat

def formatGroups (groups : List UInt16) : Bytes := [0x3a].intercalate (groups.map formatGroup)

/-- Groups with the longest run of zeros left out, if it is more than one. -/
def formatPlain (groups : List UInt16) : Bytes :=
  let zeroes := longestZeros 0 ⟨0, 0⟩ ⟨0, 0⟩ groups
  if 1 < zeroes.len then
    formatGroups (groups.take zeroes.start) ++ 0x3a :: 0x3a ::
      formatGroups (groups.drop (zeroes.start + zeroes.len))
  else formatGroups groups

/-- The first twelve bytes of an IPv4 address mapped to IPv6. -/
def mappedFront : Bytes := [0, 0, 0, 0, 0, 0, 0, 0, 0, 0, 0xff, 0xff]

def formatIpv6 (ip : ByteVec 16) : Bytes :=
  if ip.toBytes.take 12 = mappedFront then
    ascii [':', ':', 'f', 'f', 'f', 'f', ':'] ++ formatIpv4 (fieldAt 4 ip.toBytes 12)
  else formatPlain (groupsOf ip)

/-! ### Runs of zero groups -/

/-- The groups of a run are zero. -/
def ZeroRun (groups : List UInt16) (s : Span) : Prop :=
  ∃ front back, groups = front ++ List.replicate s.len 0 ++ back ∧ front.length = s.start

theorem ZeroRun.append {groups : List UInt16} {s : Span} (h : ZeroRun groups s) (more : List UInt16) :
    ZeroRun (groups ++ more) s := by
  obtain ⟨front, back, heq, hlen⟩ := h
  exact ⟨front, back ++ more, by simp [heq], hlen⟩

theorem zeroRun_longestZeros (rest done : List UInt16) (current longest : Span)
    (hcurrent : current.len = 0 ∨ ∃ front, done = front ++ List.replicate current.len 0 ∧
      front.length = current.start)
    (hlongest : ZeroRun done longest) :
    ZeroRun (done ++ rest) (longestZeros done.length current longest rest) := by
  induction rest generalizing done current longest with
  | nil => simpa [longestZeros] using hlongest
  | cons g rest ih =>
    have hshift : done ++ g :: rest = (done ++ [g]) ++ rest := by simp
    have hlen : done.length + 1 = (done ++ [g]).length := by simp
    unfold longestZeros
    split
    · rename_i hzero
      subst hzero
      set next : Span := ⟨if current.len = 0 then done.length else current.start, current.len + 1⟩ with hnext
      -- The run that ends behind this group.
      have hrun : ∃ front, done ++ [0] = front ++ List.replicate next.len 0 ∧ front.length = next.start := by
        rcases hcurrent with hnone | ⟨front, hfront, hstart⟩
        · exact ⟨done, by simp [hnext, hnone], by simp [hnext, hnone]⟩
        · by_cases hnone : current.len = 0
          · exact ⟨done, by simp [hnext, hnone], by simp [hnext, hnone]⟩
          · refine ⟨front, ?_, by simp [hnext, hnone, hstart]⟩
            rw [hfront, List.append_assoc, hnext, List.replicate_succ']
      rw [hshift, hlen]
      refine ih _ next _ (.inr hrun) ?_
      split
      · obtain ⟨front, hfront, hstart⟩ := hrun
        exact ⟨front, [], by simp [hfront], hstart⟩
      · exact hlongest.append [0]
    · rw [hshift, hlen]
      exact ih _ _ _ (.inl rfl) (hlongest.append [g])

/-- The groups are those before the longest run, zeros, and those behind it. -/
theorem groups_around_zeros (groups : List UInt16) :
    let zeroes := longestZeros 0 ⟨0, 0⟩ ⟨0, 0⟩ groups
    groups = groups.take zeroes.start ++ List.replicate zeroes.len 0 ++
      groups.drop (zeroes.start + zeroes.len) := by
  intro zeroes
  obtain ⟨front, back, heq, hstart⟩ : ZeroRun groups zeroes := by
    simpa using zeroRun_longestZeros groups [] ⟨0, 0⟩ ⟨0, 0⟩ (.inl rfl) ⟨[], [], by simp, rfl⟩
  have htake : groups.take zeroes.start = front := by
    rw [heq, List.append_assoc]
    exact List.take_left' hstart
  have hdrop : groups.drop (zeroes.start + zeroes.len) = back := by
    rw [heq]
    exact List.drop_left' (by simp [hstart])
  rw [htake, hdrop]
  exact heq

/-! ### Printed groups -/

theorem formatGroup_injective : Function.Injective formatGroup := by
  intro a b h
  have ha := a.toNat_lt
  have hb := b.toNat_lt
  exact UInt16.toNat_inj.mp
    (formatDigits_injective (by decide) (by decide) (by simpa using ha) (by simpa using hb) h)

theorem formatGroup_ne_nil (g : UInt16) : formatGroup g ≠ [] := formatDigits_ne_nil 16 3 g.toNat

theorem mem_formatGroup {c : UInt8} {g : UInt16} (h : c ∈ formatGroup g) : c ≠ 0x2e ∧ c ≠ 0x2f ∧ c ≠ 0x3a := by
  obtain ⟨d, hd, rfl⟩ := mem_formatDigits (by decide) (by decide) h
  exact (formatDigit_ne hd).2

theorem mem_formatGroups {c : UInt8} {groups : List UInt16} (h : c ∈ formatGroups groups) :
    c ≠ 0x2e ∧ c ≠ 0x2f := by
  rcases mem_intercalate h with rfl | ⟨part, hpart, hc⟩
  · decide
  · obtain ⟨g, -, rfl⟩ := List.mem_map.mp hpart
    exact ⟨(mem_formatGroup hc).1, (mem_formatGroup hc).2.1⟩

/-- What lies between the colons of printed groups. -/
def sides (groups : List UInt16) : List Bytes :=
  match groups with
  | [] => [[]]
  | _ => groups.map formatGroup

theorem splitOn_formatGroups (groups : List UInt16) : (formatGroups groups).splitOn 0x3a = sides groups := by
  cases groups with
  | nil => rfl
  | cons g rest =>
    refine List.splitOn_intercalate _ (fun part hpart hcolon => ?_) (by simp)
    obtain ⟨g, -, rfl⟩ := List.mem_map.mp hpart
    exact (mem_formatGroup hcolon).2.2 rfl

/-- Printed groups up to the first empty part. -/
theorem map_formatGroup_inj {a b : List UInt16} {as bs : List Bytes}
    (h : a.map formatGroup ++ [] :: as = b.map formatGroup ++ [] :: bs) : a = b ∧ as = bs := by
  induction a generalizing b with
  | nil =>
    cases b with
    | nil => simpa using h
    | cons y b => exact absurd (List.cons.inj h).1.symm (formatGroup_ne_nil y)
  | cons x a ih =>
    cases b with
    | nil => exact absurd (List.cons.inj h).1 (formatGroup_ne_nil x)
    | cons y b =>
      obtain ⟨hhead, htail⟩ := List.cons.inj h
      obtain ⟨rfl, rfl⟩ := ih htail
      exact ⟨by rw [formatGroup_injective hhead], rfl⟩

theorem sides_injective {a b : List UInt16} (h : sides a = sides b) : a = b := by
  cases a with
  | nil =>
    cases b with
    | nil => rfl
    | cons y b => exact absurd (List.cons.inj h).1.symm (formatGroup_ne_nil y)
  | cons x a =>
    cases b with
    | nil => exact absurd (List.cons.inj h).1 (formatGroup_ne_nil x)
    | cons y b => exact List.map_injective_iff.mpr formatGroup_injective h

/-- What lies on the two sides of a double colon. -/
theorem sides_pair_injective {l r l' r' : List UInt16}
    (h : sides l ++ [] :: sides r = sides l' ++ [] :: sides r') : l = l' ∧ r = r' := by
  cases l with
  | nil =>
    cases l' with
    | nil =>
      refine ⟨rfl, sides_injective ?_⟩
      simpa [sides] using h
    | cons y l' => exact absurd (List.cons.inj h).1.symm (formatGroup_ne_nil y)
  | cons x l =>
    cases l' with
    | nil => exact absurd (List.cons.inj h).1 (formatGroup_ne_nil x)
    | cons y l' =>
      obtain ⟨hl, hr⟩ := map_formatGroup_inj h
      exact ⟨hl, sides_injective hr⟩

/-! ### Addresses that print alike -/

@[simp] theorem length_groupsOf (ip : ByteVec 16) : (groupsOf ip).length = 8 := by simp [groupsOf]

theorem groupsOf_injective : Function.Injective groupsOf := by
  intro a b h
  have hgroup : ∀ i < 8, slice a.toBytes (2 * i) 2 = slice b.toBytes (2 * i) 2 := by
    intro i hi
    have hu16 : u16At a.toBytes (2 * i) = u16At b.toBytes (2 * i) := by
      have hget := congrArg (fun l : List UInt16 => l.getD i 0) h
      simpa [groupsOf, List.getD_eq_getElem?_getD, hi] using hget
    have hlen : ∀ c : ByteVec 16, (slice c.toBytes (2 * i) 2).length = 2 := fun c => by simp [slice]; omega
    have hnat : ofBe (slice a.toBytes (2 * i) 2) = ofBe (slice b.toBytes (2 * i) 2) := by
      have hlt : ∀ c : ByteVec 16, ofBe (slice c.toBytes (2 * i) 2) < 2 ^ 16 := fun c => by
        simpa [hlen c] using ofBe_lt (slice c.toBytes (2 * i) 2)
      have := congrArg UInt16.toNat hu16
      rwa [u16At, u16At, ofBe16, ofBe16, UInt16.toNat_ofNat_of_lt' (by simpa [UInt16.size] using hlt a),
        UInt16.toNat_ofNat_of_lt' (by simpa [UInt16.size] using hlt b)] at this
    exact ofBe_injective ((hlen a).trans (hlen b).symm) hnat
  apply ByteVec.toBytes_injective
  apply List.ext_getElem (by simp)
  intro j h₁ h₂
  have hj : j < 16 := by simpa using h₁
  have hbyte := congrArg (fun l : Bytes => l[j % 2]?) (hgroup (j / 2) (by omega))
  have hplace : 2 * (j / 2) + j % 2 = j := Nat.div_add_mod j 2
  have hget : a.toBytes[j]? = b.toBytes[j]? := by
    simpa [slice, List.getElem?_take, List.getElem?_drop, hplace, Nat.mod_lt j (by decide : 0 < 2)] using hbyte
  exact Option.some.inj ((List.getElem?_eq_getElem h₁).symm.trans (hget.trans (List.getElem?_eq_getElem h₂)))

/-- Between its colons are its groups, or those around the zeros left out. -/
theorem splitOn_formatPlain (groups : List UInt16) (hgroups : groups ≠ []) :
    (formatPlain groups).splitOn 0x3a = groups.map formatGroup ∨
    ∃ l r k, groups = l ++ List.replicate k 0 ++ r ∧
      (formatPlain groups).splitOn 0x3a = sides l ++ [] :: sides r := by
  unfold formatPlain
  simp only
  split
  · refine .inr ⟨_, _, _, groups_around_zeros groups, ?_⟩
    rw [List.splitOn_append_cons_self, splitOn_formatGroups]
    have hcons := List.splitOn_append_cons_self (a := (0x3a : UInt8)) []
      (formatGroups (groups.drop ((longestZeros 0 ⟨0, 0⟩ ⟨0, 0⟩ groups).start +
        (longestZeros 0 ⟨0, 0⟩ ⟨0, 0⟩ groups).len)))
    rw [List.nil_append, splitOn_formatGroups] at hcons
    rw [hcons]
    rfl
  · refine .inl ?_
    rw [splitOn_formatGroups]
    cases groups with
    | nil => exact absurd rfl hgroups
    | cons g rest => rfl

theorem formatPlain_injective {a b : List UInt16} (ha : a.length = 8) (hb : b.length = 8)
    (h : formatPlain a = formatPlain b) : a = b := by
  have hane : a ≠ [] := by rintro rfl; simp at ha
  have hbne : b ≠ [] := by rintro rfl; simp at hb
  have hempty : ∀ {gs : List UInt16} {l r : List UInt16}, gs.map formatGroup = sides l ++ [] :: sides r →
      False := by
    intro gs l r heq
    have hmem : ([] : Bytes) ∈ gs.map formatGroup := heq ▸ List.mem_append_right _ List.mem_cons_self
    obtain ⟨g, -, hg⟩ := List.mem_map.mp hmem
    exact formatGroup_ne_nil g hg
  rcases splitOn_formatPlain a hane with hsa | ⟨l, r, k, heqa, hsa⟩ <;>
    rcases splitOn_formatPlain b hbne with hsb | ⟨l', r', k', heqb, hsb⟩ <;>
    rw [h] at hsa
  · exact List.map_injective_iff.mpr formatGroup_injective (hsa.symm.trans hsb)
  · exact (hempty (hsa.symm.trans hsb)).elim
  · exact (hempty (hsb.symm.trans hsa)).elim
  · obtain ⟨rfl, rfl⟩ := sides_pair_injective (hsa.symm.trans hsb)
    -- Eight groups: as many zeros are left out on both sides.
    have hka := congrArg List.length heqa
    have hkb := congrArg List.length heqb
    simp only [List.length_append, List.length_replicate] at hka hkb
    obtain rfl : k = k' := by omega
    rw [heqa, heqb]

theorem mem_formatPlain {c : UInt8} {groups : List UInt16} (h : c ∈ formatPlain groups) :
    c ≠ 0x2e ∧ c ≠ 0x2f := by
  unfold formatPlain at h
  simp only at h
  split at h
  · simp only [List.mem_append, List.mem_cons] at h
    rcases h with h | rfl | rfl | h
    · exact mem_formatGroups h
    · decide
    · decide
    · exact mem_formatGroups h
  · exact mem_formatGroups h

theorem dot_mem_formatIpv4 (ip : ByteVec 4) : 0x2e ∈ formatIpv4 ip := by
  obtain ⟨bytes, hlen⟩ := ip
  match bytes, hlen with
  | [a, b, c, d], _ => simp [formatIpv4, ByteVec.toBytes, List.intercalate_cons_cons]

theorem formatIpv6_injective {a b : ByteVec 16} (h : formatIpv6 a = formatIpv6 b) : a = b := by
  have hplain : ∀ ip : ByteVec 16, ip.toBytes.take 12 ≠ mappedFront → formatIpv6 ip = formatPlain (groupsOf ip) :=
    fun ip hip => by rw [formatIpv6, if_neg hip]
  have hdot : ∀ ip : ByteVec 16, ip.toBytes.take 12 = mappedFront → 0x2e ∈ formatIpv6 ip := fun ip hip => by
    rw [formatIpv6, if_pos hip]
    exact List.mem_append_right _ (dot_mem_formatIpv4 _)
  by_cases ha : a.toBytes.take 12 = mappedFront <;> by_cases hb : b.toBytes.take 12 = mappedFront
  · have hv4 : formatIpv4 (fieldAt 4 a.toBytes 12) = formatIpv4 (fieldAt 4 b.toBytes 12) := by
      rw [formatIpv6, formatIpv6, if_pos ha, if_pos hb] at h
      exact List.append_cancel_left h
    have hlast := congrArg ByteVec.toBytes (formatIpv4_injective hv4)
    have hdrop : ∀ ip : ByteVec 16, (fieldAt 4 ip.toBytes 12 : ByteVec 4).toBytes = ip.toBytes.drop 12 := fun ip => by
      rw [fieldAt, ByteVec.toBytes_ofBytes _ _ (by simp)]
      exact List.take_of_length_le (by simp)
    rw [hdrop, hdrop] at hlast
    apply ByteVec.toBytes_injective
    rw [← List.take_append_drop 12 a.toBytes, ← List.take_append_drop 12 b.toBytes, ha, hb, hlast]
  · have := hdot a ha
    rw [h, hplain b hb] at this
    exact absurd rfl (mem_formatPlain this).1
  · have := hdot b hb
    rw [← h, hplain a ha] at this
    exact absurd rfl (mem_formatPlain this).1
  · rw [hplain a ha, hplain b hb] at h
    exact groupsOf_injective (formatPlain_injective (by simp) (by simp) h)

/-! ### Which characters they have -/

theorem slash_notMem_formatIpv4 (ip : ByteVec 4) : 0x2f ∉ formatIpv4 ip := by
  intro h
  rcases mem_formatIpv4 h with h | ⟨d, hd, h⟩
  · cases h
  · exact (formatDigit_ne (by omega : d < 16)).2.2.1 h.symm

theorem colon_notMem_formatIpv4 (ip : ByteVec 4) : 0x3a ∉ formatIpv4 ip := by
  intro h
  rcases mem_formatIpv4 h with h | ⟨d, hd, h⟩
  · cases h
  · exact (formatDigit_ne (by omega : d < 16)).2.2.2 h.symm

theorem slash_notMem_formatIpv6 (ip : ByteVec 16) : 0x2f ∉ formatIpv6 ip := by
  unfold formatIpv6
  split
  · intro h
    rcases List.mem_append.mp h with h | h
    · revert h
      decide
    · exact slash_notMem_formatIpv4 _ h
  · exact fun h => (mem_formatPlain h).2 rfl

theorem colon_mem_formatIpv6 (ip : ByteVec 16) : 0x3a ∈ formatIpv6 ip := by
  unfold formatIpv6
  split
  · exact List.mem_append_left _ (by decide)
  · unfold formatPlain
    simp only
    split
    · simp
    · obtain ⟨a, b, rest, hgroups⟩ : ∃ a b rest, groupsOf ip = a :: b :: rest := ⟨_, _, _, rfl⟩
      rw [hgroups]
      simp [formatGroups, List.intercalate_cons_cons]

end ManyTier
