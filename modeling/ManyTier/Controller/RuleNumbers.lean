import ManyTier.Controller.RuleJson

/-! The numbers of rules that are given as fields.

A number in JSON is taken as one of 64 bits and cut to the width of its field, and of a
bit count one is subtracted. What is stored spells the numbers that were given, and the
subtraction does not go below zero, exactly if every number fits its field
(`storedFaithfully_iff`). -/
namespace ManyTier.Controller

/-! ### Given numbers -/

section
variable (json : Json) (key : List Char)

/-- The number under a key has a value. -/
def GivenNumber (k : Nat) : Prop := ∃ n, json.get (ascii key) = some (.number n) ∧ n.value = k

/-- A number under a key, if there is one, has a value. -/
def GivenIfAny (k : Nat) : Prop := ∀ n, json.get (ascii key) = some (.number n) → n.value = k

/-- The text under a key spells a number in hexadecimal. -/
def GivenHex (k : Nat) : Prop := ∃ s, json.get (ascii key) = some (.string s) ∧ Spells 16 s.bytes k

/-- A code is given exactly if a number is, and has its value. -/
def GivenCode (code : Option UInt8) : Prop :=
  (∀ n, json.get (ascii key) = some (.number n) → ∃ c, code = some c ∧ n.value = c.toNat) ∧
    ∀ c, code = some c → GivenNumber json key c.toNat

/-- Six parts between colons, each spelling a byte in hexadecimal. -/
def GivenMac (mac : ByteVec 6) : Prop :=
  ∃ s, json.get (ascii ['m', 'a', 'c']) = some (.string s) ∧
    List.Forall₂ (fun part b => Spells 16 part b.toNat) (splitOn 0x3a s.bytes) mac.toBytes

/-- The text of an address, and behind a slash a mask in decimal. -/
def GivenPrefix {n : Nat} (parse : Bytes → Option (ByteVec n)) (ip : ByteVec n) (mask : UInt8) : Prop :=
  ∃ s addr text, json.get (ascii ['i', 'p']) = some (.string s) ∧ splitOnce 0x2f s.bytes = some (addr, text) ∧
    parse addr = some ip ∧ Spells 10 text mask.toNat

end

/-- The numbers of some fields are those that are given. -/
def RuleFields.GivenBy (json : Json) : RuleFields → Prop
  | forward address flags length =>
    GivenHex json ['a', 'd', 'd', 'r', 'e', 's', 's'] address.toNat ∧
      GivenIfAny json ['f', 'l', 'a', 'g', 's'] flags.toNat ∧
      GivenIfAny json ['l', 'e', 'n', 'g', 't', 'h'] length.toNat
  | ztAddress address => GivenHex json ['z', 't'] address.toNat
  | vlanId v => GivenNumber json ['v', 'l', 'a', 'n', 'I', 'd'] v.toNat
  | vlanPcp v => GivenNumber json ['v', 'l', 'a', 'n', 'P', 'c', 'p'] v.toNat
  | vlanDei v => GivenNumber json ['v', 'l', 'a', 'n', 'D', 'e', 'i'] v.toNat
  | mac m => GivenMac json m
  | ipv4 ip mask => GivenPrefix json parseIpv4Addr ip mask
  | ipv6 ip mask => GivenPrefix json parseIpv6Addr ip mask
  | ipTos mask start stop =>
    GivenNumber json ['m', 'a', 's', 'k'] mask.toNat ∧ GivenNumber json ['s', 't', 'a', 'r', 't'] start.toNat ∧
      GivenNumber json ['e', 'n', 'd'] stop.toNat
  | ipProtocol v => GivenNumber json ['i', 'p', 'P', 'r', 'o', 't', 'o', 'c', 'o', 'l'] v.toNat
  | etherType v => GivenNumber json ['e', 't', 'h', 'e', 'r', 'T', 'y', 'p', 'e'] v.toNat
  | icmp icmpType icmpCode =>
    GivenNumber json ['i', 'c', 'm', 'p', 'T', 'y', 'p', 'e'] icmpType.toNat ∧
      GivenCode json ['i', 'c', 'm', 'p', 'C', 'o', 'd', 'e'] icmpCode
  | portRange start stop =>
    GivenNumber json ['s', 't', 'a', 'r', 't'] start.toNat ∧ GivenNumber json ['e', 'n', 'd'] stop.toNat
  | characteristics v => GivenHex json ['m', 'a', 's', 'k'] v.toNat
  | frameSizeRange start stop =>
    GivenNumber json ['s', 't', 'a', 'r', 't'] start.toNat ∧ GivenNumber json ['e', 'n', 'd'] stop.toNat
  | randomProbability v => GivenNumber json ['p', 'r', 'o', 'b', 'a', 'b', 'i', 'l', 'i', 't', 'y'] v.toNat
  | tag id value => GivenNumber json ['i', 'd'] id.toNat ∧ GivenNumber json ['v', 'a', 'l', 'u', 'e'] value.toNat
  | integerRange start stop idx _ bits =>
    GivenHex json ['s', 't', 'a', 'r', 't'] start.toNat ∧ GivenHex json ['e', 'n', 'd'] stop.toNat ∧
      GivenNumber json ['i', 'd', 'x'] idx.toNat ∧ GivenNumber json ['b', 'i', 't', 's'] bits.toNat

/-! ### What is stored -/

/-- The value bytes as a build with overflow checks makes them: one is not subtracted from
a bit count of zero. -/
def encodeRuleFieldsChecked (f : RuleFields) : Except Fault Bytes :=
  match f with
  | .integerRange _ _ _ _ bits => if bits = 0 then .error .panic else .ok (encodeRuleFields f)
  | _ => .ok (encodeRuleFields f)

def ruleFromResponseChecked (rule : RuleResponse) : Except Fault Rule := do
  let value ←
    if rule.value.isEmpty then
      match rule.fields.bind fun json => ruleFieldsFromJson json rule.ruleType with
      | some f => encodeRuleFieldsChecked f
      | none => .ok []
    else .ok rule.value
  return { ruleType := rule.ruleType, notFlag := rule.not, orFlag := rule.orFlag, value }

/-- One can be subtracted from the bit count, if there is one. -/
def RuleFields.Counted : RuleFields → Prop
  | integerRange _ _ _ _ bits => bits ≠ 0
  | _ => True

theorem encodeRuleFieldsChecked_eq {f : RuleFields} (h : f.Counted) :
    encodeRuleFieldsChecked f = .ok (encodeRuleFields f) := by
  cases f with
  | integerRange start stop idx little bits => exact if_neg h
  | _ => rfl

theorem counted_of_checked {f : RuleFields} {value : Bytes} (h : encodeRuleFieldsChecked f = .ok value) : f.Counted := by
  cases f with
  | integerRange start stop idx little bits =>
    intro hzero
    rw [encodeRuleFieldsChecked, if_pos hzero] at h
    cases h
  | _ => trivial

/-- Where one can be subtracted, the checks change nothing. -/
theorem ruleFromResponseChecked_eq {rule : RuleResponse}
    (h : rule.value = [] → ∀ f, (rule.fields.bind fun json => ruleFieldsFromJson json rule.ruleType) = some f → f.Counted) :
    ruleFromResponseChecked rule = .ok (ruleFromResponse rule) := by
  unfold ruleFromResponseChecked ruleFromResponse
  by_cases hempty : rule.value = []
  · simp only [hempty, List.isEmpty_nil, if_pos]
    cases hread : rule.fields.bind fun json => ruleFieldsFromJson json rule.ruleType with
    | none => rfl
    | some f => simp only [encodeRuleFieldsChecked_eq (h hempty f hread)]; rfl
  · have hne : rule.value.isEmpty = false := by simpa using hempty
    simp only [hne]
    rfl

/-- A number under a key, if there is one, is zero or of 64 bits and below a bound. -/
def FitsIfAny (json : Json) (key : List Char) (bound : Nat) : Prop :=
  ∀ n, json.get (ascii key) = some (.number n) → n.value = 0 ∨ ∃ v, n = .posInt v ∧ v.toNat < bound

/-- The numbers for a layout fit their fields, if all that it needs can be read. -/
def NumbersFit (json : Json) : RuleLayout → Prop
  | .forward => ∀ _ ∈ jsonHexU64 json ['a', 'd', 'd', 'r', 'e', 's', 's'],
    FitsIfAny json ['f', 'l', 'a', 'g', 's'] (2 ^ 32) ∧ FitsIfAny json ['l', 'e', 'n', 'g', 't', 'h'] (2 ^ 16)
  | .ztAddress => ∀ v ∈ jsonHexU64 json ['z', 't'], v.toNat < 2 ^ 40
  | .vlanId => ∀ v ∈ jsonU64 json ['v', 'l', 'a', 'n', 'I', 'd'], v.toNat < 2 ^ 16
  | .vlanPcp => ∀ v ∈ jsonU64 json ['v', 'l', 'a', 'n', 'P', 'c', 'p'], v.toNat < 2 ^ 8
  | .vlanDei => ∀ v ∈ jsonU64 json ['v', 'l', 'a', 'n', 'D', 'e', 'i'], v.toNat < 2 ^ 8
  | .mac | .ipv4 | .ipv6 | .characteristics => True
  | .ipTos => ∀ mask ∈ jsonU64 json ['m', 'a', 's', 'k'], ∀ start ∈ jsonStart json, ∀ stop ∈ jsonEnd json,
    mask.toNat < 2 ^ 8 ∧ start.toNat < 2 ^ 8 ∧ stop.toNat < 2 ^ 8
  | .ipProtocol => ∀ v ∈ jsonU64 json ['i', 'p', 'P', 'r', 'o', 't', 'o', 'c', 'o', 'l'], v.toNat < 2 ^ 8
  | .etherType => ∀ v ∈ jsonU64 json ['e', 't', 'h', 'e', 'r', 'T', 'y', 'p', 'e'], v.toNat < 2 ^ 16
  | .icmp => ∀ v ∈ jsonU64 json ['i', 'c', 'm', 'p', 'T', 'y', 'p', 'e'], v.toNat < 2 ^ 8 ∧
    ∀ n, json.get (ascii ['i', 'c', 'm', 'p', 'C', 'o', 'd', 'e']) = some (.number n) →
      ∃ c, n = .posInt c ∧ c.toNat < 2 ^ 8
  | .portRange | .frameSizeRange => ∀ start ∈ jsonStart json, ∀ stop ∈ jsonEnd json,
    start.toNat < 2 ^ 16 ∧ stop.toNat < 2 ^ 16
  | .randomProbability =>
    ∀ v ∈ jsonU64 json ['p', 'r', 'o', 'b', 'a', 'b', 'i', 'l', 'i', 't', 'y'], v.toNat < 2 ^ 32
  | .tag => ∀ id ∈ jsonU64 json ['i', 'd'], ∀ value ∈ jsonU64 json ['v', 'a', 'l', 'u', 'e'],
    id.toNat < 2 ^ 32 ∧ value.toNat < 2 ^ 32
  | .integerRange => ∀ _ ∈ jsonHexU64 json ['s', 't', 'a', 'r', 't'], ∀ _ ∈ jsonHexU64 json ['e', 'n', 'd'],
    ∀ idx ∈ jsonU64 json ['i', 'd', 'x'], ∀ bits ∈ jsonU64 json ['b', 'i', 't', 's'],
      idx.toNat < 2 ^ 16 ∧ 1 ≤ bits.toNat ∧ bits.toNat ≤ 64

/-! ### Given numbers and read ones -/

section
variable {json : Json} {key : List Char}

theorem get_of_jsonU64 {v : UInt64} (h : jsonU64 json key = some v) :
    json.get (ascii key) = some (.number (.posInt v)) := by
  obtain ⟨under, hunder, hnumber⟩ := Option.bind_eq_some_iff.mp h
  unfold Json.asU64 at hnumber
  split at hnumber
  · obtain rfl := Option.some.inj hnumber
    exact hunder
  · cases hnumber

theorem givenNumber_iff {v : UInt64} (h : v ∈ jsonU64 json key) (k : Nat) : GivenNumber json key k ↔ v.toNat = k := by
  have hunder := get_of_jsonU64 h
  constructor
  · rintro ⟨n, hn, heq⟩
    obtain rfl := Json.number.inj (Option.some.inj (hn.symm.trans hunder))
    exact Nat.cast_injective heq
  · intro heq
    exact ⟨_, hunder, congrArg Nat.cast heq⟩

theorem get_of_asStr {s : Text} (h : (json.get (ascii key)).bind Json.asStr = some s) :
    json.get (ascii key) = some (.string s) := by
  obtain ⟨under, hunder, hstr⟩ := Option.bind_eq_some_iff.mp h
  unfold Json.asStr at hstr
  split at hstr
  · obtain rfl := Option.some.inj hstr
    exact hunder
  · cases hstr

theorem givenHex_iff {v : UInt64} (h : v ∈ jsonHexU64 json key) (k : Nat) : GivenHex json key k ↔ v.toNat = k := by
  obtain ⟨s, hs, hread⟩ := Option.bind_eq_some_iff.mp h
  have hget := get_of_asStr hs
  obtain ⟨n, hn, rfl⟩ := Option.map_eq_some_iff.mp hread
  have hlt : n < UInt64.size := by
    have := parseUnsigned_le hn
    simp only [UInt64.size]
    omega
  rw [UInt64.toNat_ofNat_of_lt' hlt]
  constructor
  · rintro ⟨s', hs', hspells⟩
    obtain rfl := Json.string.inj (Option.some.inj (hs'.symm.trans hget))
    exact Spells.unique ⟨_, hn⟩ hspells
  · rintro rfl
    exact ⟨s, hget, _, hn⟩

theorem givenNumber_toUInt8 {v : UInt64} (h : v ∈ jsonU64 json key) :
    GivenNumber json key v.toUInt8.toNat ↔ v.toNat < 2 ^ 8 := by
  rw [givenNumber_iff h, UInt64.toNat_toUInt8]
  omega

theorem givenNumber_toUInt16 {v : UInt64} (h : v ∈ jsonU64 json key) :
    GivenNumber json key v.toUInt16.toNat ↔ v.toNat < 2 ^ 16 := by
  rw [givenNumber_iff h, UInt64.toNat_toUInt16]
  omega

theorem givenNumber_toUInt32 {v : UInt64} (h : v ∈ jsonU64 json key) :
    GivenNumber json key v.toUInt32.toNat ↔ v.toNat < 2 ^ 32 := by
  rw [givenNumber_iff h, UInt64.toNat_toUInt32]
  omega

/-- What is no unsigned number counts as zero. -/
theorem jsonU64_of_get {n : JsonNumber} (h : json.get (ascii key) = some (.number n)) :
    jsonU64 json key = Json.asU64 (.number n) := by
  rw [jsonU64, h]
  rfl

theorem givenIfAny_iff {k bound : Nat} (hbound : 0 < bound) (hk : k = ((jsonU64 json key).getD 0).toNat % bound) :
    GivenIfAny json key k ↔ FitsIfAny json key bound := by
  refine forall_congr' fun n => imp_congr_right fun hn => ?_
  rw [jsonU64_of_get hn] at hk
  cases n with
  | posInt v =>
    have hk : k = v.toNat % bound := hk
    have hlt := Nat.mod_lt v.toNat hbound
    constructor
    · intro heq
      have hv : v.toNat = k := Nat.cast_injective heq
      exact .inr ⟨v, rfl, by omega⟩
    · rintro (hzero | ⟨v', heq, hv⟩)
      · have hv : v.toNat = 0 := Nat.cast_injective hzero
        rw [hv, Nat.zero_mod] at hk
        rw [hk, hzero]
        rfl
      · obtain rfl := JsonNumber.posInt.inj heq
        rw [Nat.mod_eq_of_lt hv] at hk
        rw [hk]
        rfl
  | negInt _ | float _ =>
    obtain rfl : k = 0 := hk.trans (Nat.zero_mod bound)
    constructor
    · exact fun heq => .inl heq
    · rintro (hzero | ⟨v', heq, -⟩)
      · exact hzero
      · cases heq

theorem givenCode_iff :
    GivenCode json key ((jsonU64 json key).map UInt64.toUInt8) ↔
      ∀ n, json.get (ascii key) = some (.number n) → ∃ c, n = .posInt c ∧ c.toNat < 2 ^ 8 := by
  constructor
  · intro hcode n hn
    obtain ⟨c, hread, heq⟩ := hcode.1 n hn
    obtain ⟨v, hv, rfl⟩ := Option.map_eq_some_iff.mp hread
    have hpos := get_of_jsonU64 hv
    obtain rfl := Json.number.inj (Option.some.inj (hn.symm.trans hpos))
    exact ⟨v, rfl, (givenNumber_toUInt8 hv).mp ⟨_, hn, heq⟩⟩
  · intro hfits
    refine ⟨fun n hn => ?_, fun c hc => ?_⟩
    · obtain ⟨c, rfl, hc⟩ := hfits n hn
      have hread := jsonU64_of_get hn
      refine ⟨c.toUInt8, ?_, ?_⟩
      · rw [hread]
        rfl
      · obtain ⟨n, hn', heq⟩ := (givenNumber_toUInt8 hread).mpr hc
        obtain rfl := Json.number.inj (Option.some.inj (hn.symm.trans hn'))
        exact heq
    · obtain ⟨v, hv, rfl⟩ := Option.map_eq_some_iff.mp hc
      obtain ⟨c, heq, hlt⟩ := hfits _ (get_of_jsonU64 hv)
      obtain rfl := JsonNumber.posInt.inj heq
      exact (givenNumber_toUInt8 hv).mpr hlt

theorem spells_of_mapM {parts : List Bytes} {bytes : Bytes} (h : parts.mapM parseHexU8 = some bytes) :
    List.Forall₂ (fun part b => Spells 16 part b.toNat) parts bytes := by
  induction parts generalizing bytes with
  | nil =>
    obtain rfl := Option.some.inj h
    exact .nil
  | cons part parts ih =>
    rw [List.mapM_cons] at h
    obtain ⟨b, hb, h⟩ := Option.bind_eq_some_iff.mp h
    obtain ⟨rest, hrest, heq⟩ := Option.bind_eq_some_iff.mp h
    obtain rfl := Option.some.inj heq
    obtain ⟨n, hn, rfl⟩ := Option.map_eq_some_iff.mp hb
    have hlt := parseUnsigned_le hn
    refine .cons ⟨255, ?_⟩ (ih hrest)
    rw [UInt8.toNat_ofNat_of_lt' (by simp only [UInt8.size]; omega)]
    exact hn

theorem givenMac_of_jsonMac {mac : ByteVec 6} (h : jsonMac json = some mac) : GivenMac json mac := by
  obtain ⟨s, hs, h⟩ := Option.bind_eq_some_iff.mp h
  obtain ⟨bytes, hbytes, h⟩ := Option.bind_eq_some_iff.mp h
  obtain ⟨hlen, heq⟩ := Option.ite_none_left_eq_some.mp h
  obtain rfl := Option.some.inj heq
  refine ⟨s, get_of_asStr hs, ?_⟩
  have hall : (ByteVec.ofBytes 6 bytes).toBytes = bytes := by
    rw [ByteVec.toBytes_ofBytes 6 bytes (by omega), List.take_of_length_le (by omega)]
  rw [hall]
  exact spells_of_mapM hbytes

theorem givenPrefix_of_jsonPrefix {n : Nat} {parse : Bytes → Option (ByteVec n)} {p : ByteVec n × UInt8}
    (h : jsonPrefix json parse = some p) : GivenPrefix json parse p.1 p.2 := by
  obtain ⟨s, hs, h⟩ := Option.bind_eq_some_iff.mp h
  obtain ⟨⟨addr, text⟩, hsplit, h⟩ := Option.bind_eq_some_iff.mp h
  obtain ⟨ip, hip, h⟩ := Option.bind_eq_some_iff.mp h
  obtain ⟨mask, hmask, heq⟩ := Option.bind_eq_some_iff.mp h
  obtain rfl := Option.some.inj heq
  obtain ⟨k, hk, rfl⟩ := Option.map_eq_some_iff.mp hmask
  have hlt := parseUnsigned_le hk
  refine ⟨s, addr, text, get_of_asStr hs, hsplit, hip, 255, ?_⟩
  rw [UInt8.toNat_ofNat_of_lt' (by simp only [UInt8.size]; omega)]
  exact hk

end

/-! ### Fields that are faithful -/

section
variable {α β : Type} {P : β → Prop}

theorem forall_mem_map {x : Option α} {g : α → β} : (∀ b ∈ x.map g, P b) ↔ ∀ a ∈ x, P (g a) := by
  cases x with
  | none => exact iff_of_true (fun b h => nomatch h) fun a h => nomatch h
  | some a => exact ⟨fun h a' ha => h _ (congrArg (Option.map g) ha), fun h b hb => by cases hb; exact h a rfl⟩

theorem forall_mem_bind {x : Option α} {g : α → Option β} : (∀ b ∈ x.bind g, P b) ↔ ∀ a ∈ x, ∀ b ∈ g a, P b := by
  cases x with
  | none => exact iff_of_true (fun b h => nomatch h) fun a h => nomatch h
  | some a => exact ⟨fun h a' ha => by cases ha; exact h, fun h => h a rfl⟩

theorem forall_mem_pure {b : β} : (∀ b' ∈ (pure b : Option β), P b') ↔ P b :=
  ⟨fun h => h b rfl, fun h b' hb => by cases hb; exact h⟩

end

section
variable {α β : Type} {json : Json} {x : Option α} {y : Option β}

/-- Fields of one given number are faithful exactly if it fits. -/
theorem faithful_map_iff {make : α → RuleFields} {P : α → Prop} (hcounted : ∀ a, (make a).Counted)
    (h : ∀ a ∈ x, (make a).stored.GivenBy json ↔ P a) :
    (∀ f ∈ x.map make, f.Counted ∧ f.stored.GivenBy json) ↔ ∀ a ∈ x, P a :=
  forall_mem_map.trans (forall₂_congr fun a ha => (and_iff_right (hcounted a)).trans (h a ha))

/-- Fields of something that always fits are faithful. -/
theorem faithful_map {make : α → RuleFields} (hcounted : ∀ a, (make a).Counted)
    (h : ∀ a ∈ x, (make a).stored.GivenBy json) : (∀ f ∈ x.map make, f.Counted ∧ f.stored.GivenBy json) ↔ True :=
  forall_mem_map.trans (iff_of_true (fun a ha => ⟨hcounted a, h a ha⟩) trivial)

/-- Fields of two given numbers. -/
theorem faithful_pair_iff {make : α → β → RuleFields} {P : α → β → Prop} (hcounted : ∀ a b, (make a b).Counted)
    (h : ∀ a ∈ x, ∀ b ∈ y, (make a b).stored.GivenBy json ↔ P a b) :
    (∀ f ∈ (do let a ← x; let b ← y; pure (make a b)), f.Counted ∧ f.stored.GivenBy json) ↔
      ∀ a ∈ x, ∀ b ∈ y, P a b := by
  refine forall_mem_bind.trans (forall₂_congr fun a ha => ?_)
  refine forall_mem_bind.trans (forall₂_congr fun b hb => forall_mem_pure.trans ?_)
  exact (and_iff_right (hcounted a b)).trans (h a ha b hb)

end

/-- Of an address the low 40 bits are stored. -/
theorem givenHex_zt {json : Json} {key : List Char} {v : UInt64} (h : v ∈ jsonHexU64 json key) :
    GivenHex json key (ztAddressToU64 (u64ToZtAddress v)).toNat ↔ v.toNat < 2 ^ 40 := by
  rw [givenHex_iff h, toNat_ztAddressToU64]
  omega

theorem givenHex_self {json : Json} {key : List Char} {v : UInt64} (h : v ∈ jsonHexU64 json key) :
    GivenHex json key v.toNat :=
  (givenHex_iff h _).mpr rfl

/-- A bit count is stored, and less one, exactly if it is 1 to 64. -/
theorem givenCount_iff {json : Json} {key : List Char} {v : UInt64} (h : v ∈ jsonU64 json key) :
    v.toUInt8 ≠ 0 ∧ GivenNumber json key (((v.toUInt8 - 1) &&& 0x3f) + 1).toNat ↔ 1 ≤ v.toNat ∧ v.toNat ≤ 64 := by
  have hall : ∀ bits : UInt8, 1 ≤ (((bits - 1) &&& 0x3f) + 1).toNat ∧ (((bits - 1) &&& 0x3f) + 1).toNat ≤ 64 :=
    forall_byte (by decide +kernel)
  have hbits := UInt64.toNat_toUInt8 v
  rw [givenNumber_iff h]
  constructor
  · rintro ⟨-, heq⟩
    rw [heq]
    exact hall _
  · intro hrange
    have hsmall : v.toUInt8.toNat = v.toNat := by omega
    refine ⟨fun hzero => ?_, ?_⟩
    · rw [hzero] at hsmall
      have hnone : v.toNat = 0 := hsmall.symm
      omega
    · rw [count_kept (by omega), hsmall]

/-- The fields that are read for a layout can be stored, and what is stored of them is what
was given. -/
def FaithfulTo (json : Json) (layout : RuleLayout) : Prop :=
  ∀ f ∈ ruleFieldsFromJson json layout.first, f.Counted ∧ f.stored.GivenBy json

theorem faithful_forward (json : Json) : FaithfulTo json .forward ↔ NumbersFit json .forward := by
  refine forall_mem_bind.trans (forall₂_congr fun address haddress => forall_mem_pure.trans ?_)
  refine (and_iff_right trivial).trans ((and_iff_right (givenHex_self haddress)).trans ?_)
  exact and_congr (givenIfAny_iff (by decide) (UInt64.toNat_toUInt32 _))
    (givenIfAny_iff (by decide) (UInt64.toNat_toUInt16 _))

theorem faithful_ipTos (json : Json) : FaithfulTo json .ipTos ↔ NumbersFit json .ipTos := by
  refine forall_mem_bind.trans (forall₂_congr fun mask hmask => ?_)
  refine forall_mem_bind.trans (forall₂_congr fun start hstart => ?_)
  refine forall_mem_bind.trans (forall₂_congr fun stop hstop => forall_mem_pure.trans ?_)
  refine (and_iff_right trivial).trans ?_
  exact and_congr (givenNumber_toUInt8 hmask) (and_congr (givenNumber_toUInt8 hstart) (givenNumber_toUInt8 hstop))

theorem faithful_icmp (json : Json) : FaithfulTo json .icmp ↔ NumbersFit json .icmp := by
  refine forall_mem_bind.trans (forall₂_congr fun v hv => forall_mem_pure.trans ?_)
  exact (and_iff_right trivial).trans (and_congr (givenNumber_toUInt8 hv) givenCode_iff)

theorem faithful_integerRange (json : Json) : FaithfulTo json .integerRange ↔ NumbersFit json .integerRange := by
  refine forall_mem_bind.trans (forall₂_congr fun start hstart => ?_)
  refine forall_mem_bind.trans (forall₂_congr fun stop hstop => ?_)
  refine forall_mem_bind.trans (forall₂_congr fun idx hidx => ?_)
  refine forall_mem_bind.trans (forall₂_congr fun bits hbits => forall_mem_pure.trans ?_)
  have hcount := givenCount_iff hbits
  constructor
  · rintro ⟨hcounted, -, -, hindex, hnumber⟩
    exact ⟨(givenNumber_toUInt16 hidx).mp hindex, hcount.mp ⟨hcounted, hnumber⟩⟩
  · rintro ⟨hindex, hrange⟩
    obtain ⟨hcounted, hnumber⟩ := hcount.mpr hrange
    exact ⟨hcounted, givenHex_self hstart, givenHex_self hstop, (givenNumber_toUInt16 hidx).mpr hindex, hnumber⟩

theorem faithfulTo_iff (json : Json) (layout : RuleLayout) : FaithfulTo json layout ↔ NumbersFit json layout := by
  cases layout with
  | forward => exact faithful_forward json
  | ztAddress => exact faithful_map_iff (fun _ => trivial) fun _ => givenHex_zt
  | vlanId => exact faithful_map_iff (fun _ => trivial) fun _ => givenNumber_toUInt16
  | vlanPcp => exact faithful_map_iff (fun _ => trivial) fun _ => givenNumber_toUInt8
  | vlanDei => exact faithful_map_iff (fun _ => trivial) fun _ => givenNumber_toUInt8
  | mac => exact faithful_map (fun _ => trivial) fun _ => givenMac_of_jsonMac
  | ipv4 => exact faithful_map (fun _ => trivial) fun _ => givenPrefix_of_jsonPrefix
  | ipv6 => exact faithful_map (fun _ => trivial) fun _ => givenPrefix_of_jsonPrefix
  | ipTos => exact faithful_ipTos json
  | ipProtocol => exact faithful_map_iff (fun _ => trivial) fun _ => givenNumber_toUInt8
  | etherType => exact faithful_map_iff (fun _ => trivial) fun _ => givenNumber_toUInt16
  | icmp => exact faithful_icmp json
  | portRange =>
    refine faithful_pair_iff (fun _ _ => trivial) fun start hstart stop hstop => ?_
    exact and_congr (givenNumber_toUInt16 hstart) (givenNumber_toUInt16 hstop)
  | characteristics => exact faithful_map (fun _ => trivial) fun _ => givenHex_self
  | frameSizeRange =>
    refine faithful_pair_iff (fun _ _ => trivial) fun start hstart stop hstop => ?_
    exact and_congr (givenNumber_toUInt16 hstart) (givenNumber_toUInt16 hstop)
  | randomProbability => exact faithful_map_iff (fun _ => trivial) fun _ => givenNumber_toUInt32
  | tag =>
    refine faithful_pair_iff (fun _ _ => trivial) fun id hid value hvalue => ?_
    exact and_congr (givenNumber_toUInt32 hid) (givenNumber_toUInt32 hvalue)
  | integerRange => exact faithful_integerRange json

/-- The fields that are read are faithful exactly if the numbers that are given fit. -/
theorem fields_faithful_iff (json : Json) {ruleType : UInt8} {layout : RuleLayout} (h : layoutOf ruleType = some layout) :
    (∀ f ∈ ruleFieldsFromJson json ruleType, f.Counted ∧ f.stored.GivenBy json) ↔ NumbersFit json layout := by
  rw [ruleFieldsFromJson_first json h]
  exact faithfulTo_iff json layout

/-! ### Rules that are faithful -/

/-- What is read, if anything, has a layout. -/
def Laid (read : Option RuleFields) (layout : Option RuleLayout) : Prop := ∀ f ∈ read, layout = some f.layout

theorem Laid.map {α : Type} {x : Option α} {make : α → RuleFields} {layout : RuleLayout}
    (h : ∀ a, (make a).layout = layout) : Laid (x.map make) (some layout) :=
  forall_mem_map.mpr fun a _ => congrArg some (h a).symm

theorem Laid.bind {α : Type} {x : Option α} {read : α → Option RuleFields} {layout : Option RuleLayout}
    (h : ∀ a, Laid (read a) layout) : Laid (x.bind read) layout :=
  forall_mem_bind.mpr fun a _ => h a

theorem Laid.pure (f : RuleFields) : Laid (pure f) (some f.layout) := forall_mem_pure.mpr rfl

theorem Laid.ite {c : Prop} [Decidable c] {read read' : Option RuleFields} {layout layout' : Option RuleLayout}
    (h : Laid read layout) (h' : Laid read' layout') : Laid (if c then read else read') (if c then layout else layout') := by
  split
  · exact h
  · exact h'

/-- The fields that are read are those of the layout of the type. -/
theorem layoutOf_of_read (json : Json) (ruleType : UInt8) : Laid (ruleFieldsFromJson json ruleType) (layoutOf ruleType) := by
  unfold ruleFieldsFromJson layoutOf
  refine Laid.ite (.bind fun _ => .pure _) ?_
  refine Laid.ite (.map fun _ => rfl) ?_
  refine Laid.ite (.map fun _ => rfl) ?_
  refine Laid.ite (.map fun _ => rfl) ?_
  refine Laid.ite (.map fun _ => rfl) ?_
  refine Laid.ite (.map fun _ => rfl) ?_
  refine Laid.ite (.map fun _ => rfl) ?_
  refine Laid.ite (.map fun _ => rfl) ?_
  refine Laid.ite (.bind fun _ => .bind fun _ => .bind fun _ => .pure _) ?_
  refine Laid.ite (.map fun _ => rfl) ?_
  refine Laid.ite (.map fun _ => rfl) ?_
  refine Laid.ite (.bind fun _ => .pure _) ?_
  refine Laid.ite (.bind fun _ => .bind fun _ => .pure _) ?_
  refine Laid.ite (.map fun _ => rfl) ?_
  refine Laid.ite (.bind fun _ => .bind fun _ => .pure _) ?_
  refine Laid.ite (.map fun _ => rfl) ?_
  refine Laid.ite (.bind fun _ => .bind fun _ => .pure _) ?_
  refine Laid.ite (.bind fun _ => .bind fun _ => .bind fun _ => .bind fun _ => .pure _) ?_
  exact fun f hf => nomatch hf

theorem encodeRuleFields_ne_nil (f : RuleFields) : encodeRuleFields f ≠ [] := by
  intro hnil
  have hread := readLayout_encodeRuleFields f
  rw [hnil] at hread
  cases f <;> cases hread

/-- A rule of its fields alone is made without subtracting one from zero, and if its value
is not empty, it spells the numbers that were given. -/
def StoredFaithfully (rule : RuleResponse) : Prop :=
  ∃ r, ruleFromResponseChecked rule = .ok r ∧ (rule.value = [] → r.value ≠ [] →
    ∃ json f, rule.fields = some json ∧ decodeRuleFields rule.ruleType r.value = some f ∧ f.GivenBy json)

/-- The numbers of a rule of its fields alone fit the layout of its type. -/
def FieldsFit (rule : RuleResponse) : Prop :=
  rule.value = [] → ∀ json ∈ rule.fields, ∀ layout ∈ layoutOf rule.ruleType, NumbersFit json layout

/-- What is made of a rule of its fields alone. -/
theorem ruleFromResponseChecked_read {rule : RuleResponse} {json : Json} {f : RuleFields} (hempty : rule.value = [])
    (hfields : rule.fields = some json) (hread : ruleFieldsFromJson json rule.ruleType = some f) :
    ruleFromResponseChecked rule = (encodeRuleFieldsChecked f).bind fun value =>
      .ok { ruleType := rule.ruleType, notFlag := rule.not, orFlag := rule.orFlag, value } := by
  unfold ruleFromResponseChecked
  simp only [hempty, List.isEmpty_nil, if_pos, hfields, Option.bind_some, hread]
  rfl

/-- A rule is stored faithfully exactly if the numbers of its fields fit. -/
theorem storedFaithfully_iff (rule : RuleResponse) : StoredFaithfully rule ↔ FieldsFit rule := by
  constructor
  · rintro ⟨r, hr, hstored⟩ hempty json hjson layout hlayout
    refine (fields_faithful_iff json hlayout).mp fun f hf => ?_
    rw [ruleFromResponseChecked_read hempty hjson hf] at hr
    obtain ⟨value, hvalue, heq⟩ := bind_eq_ok hr
    obtain rfl := Except.ok.inj heq
    have hcounted := counted_of_checked hvalue
    rw [encodeRuleFieldsChecked_eq hcounted] at hvalue
    obtain rfl := Except.ok.inj hvalue
    obtain ⟨json', f', hjson', hdecoded, hgiven⟩ := hstored hempty (encodeRuleFields_ne_nil f)
    obtain rfl := Option.some.inj (hjson.symm.trans hjson')
    rw [decodeRuleFields, layoutOf_of_read _ _ f hf, Option.bind_some, readLayout_encodeRuleFields] at hdecoded
    obtain rfl := Option.some.inj hdecoded
    exact ⟨hcounted, hgiven⟩
  · intro hfit
    have hfaithful : rule.value = [] → ∀ json ∈ rule.fields, ∀ f ∈ ruleFieldsFromJson json rule.ruleType,
        f.Counted ∧ f.stored.GivenBy json := by
      intro hempty json hjson f hf
      have hlayout := layoutOf_of_read _ _ f hf
      exact (fields_faithful_iff json hlayout).mpr (hfit hempty json hjson _ hlayout) f hf
    refine ⟨_, ruleFromResponseChecked_eq fun hempty f hf => ?_, fun hempty hne => ?_⟩
    · obtain ⟨json, hjson, hread⟩ := Option.bind_eq_some_iff.mp hf
      exact (hfaithful hempty json hjson f hread).1
    · have hvalue : (ruleFromResponse rule).value =
          ((rule.fields.bind fun json => ruleFieldsFromJson json rule.ruleType).map encodeRuleFields).getD [] := by
        rw [ruleFromResponse, hempty]
        rfl
      cases hf : rule.fields.bind fun json => ruleFieldsFromJson json rule.ruleType with
      | none =>
        rw [hf] at hvalue
        exact absurd hvalue hne
      | some f =>
        obtain ⟨json, hjson, hread⟩ := Option.bind_eq_some_iff.mp hf
        rw [hf] at hvalue
        refine ⟨json, f.stored, hjson, ?_, (hfaithful hempty json hjson f hread).2⟩
        rw [hvalue, decodeRuleFields, layoutOf_of_read _ _ f hread]
        exact readLayout_encodeRuleFields f

/-- A rule of the given fields alone. -/
def fieldsAlone (ruleType : UInt8) (json : Json) : RuleResponse := ⟨ruleType, false, false, [], some json⟩

/-- The VLAN 65536 is stored as the VLAN 0, and of a bit count of zero one is subtracted. -/
theorem storedFaithfully_fails :
    ¬ StoredFaithfully (fieldsAlone matchVlanId (jsonObject [(['v', 'l', 'a', 'n', 'I', 'd'], jsonNumber 65536)])) ∧
    ruleFromResponseChecked (fieldsAlone matchIntegerRange (jsonObject
      [(['s', 't', 'a', 'r', 't'], jsonText [0x30]), (['e', 'n', 'd'], jsonText [0x30]),
        (['i', 'd', 'x'], jsonNumber 0), (['b', 'i', 't', 's'], jsonNumber 0)])) = .error .panic := by
  constructor
  · rintro ⟨r, hr, hstored⟩
    have hr' : r = ⟨matchVlanId, false, false, [0, 0]⟩ := by
      have hread : ruleFromResponseChecked (fieldsAlone matchVlanId
          (jsonObject [(['v', 'l', 'a', 'n', 'I', 'd'], jsonNumber 65536)])) = .ok ⟨matchVlanId, false, false, [0, 0]⟩ := by
        rfl
      exact Except.ok.inj (hr.symm.trans hread)
    subst hr'
    obtain ⟨json, f, hjson, hf, hgiven⟩ := hstored rfl (by decide)
    obtain rfl := Option.some.inj hjson
    have hzero : decodeRuleFields matchVlanId [0, 0] = some (.vlanId 0) := by decide
    obtain rfl := Option.some.inj (hf.symm.trans hzero)
    have h := (givenNumber_iff (v := 65536) (by rfl) _).mp hgiven
    revert h
    decide
  · rfl

end ManyTier.Controller
