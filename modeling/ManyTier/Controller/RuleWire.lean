import ManyTier.Controller.RuleFields
import ManyTier.Lib.Unpack

/-! Rules read back from the wire.

A rule is a type byte with two flags, a length byte and the value. The list that was
written is read back, but for the high bits of the types, exactly if no value is longer
than a length byte can say (`readRules_iff`); two such lists that are written alike are
alike. -/
namespace ManyTier.Controller

/-- A rule as its type byte and its value say. -/
def ruleOf (typeByte : UInt8) (value : Bytes) : Rule where
  ruleType := typeByte &&& 0x3f
  notFlag := typeByte &&& 0x80 ≠ 0
  orFlag := typeByte &&& 0x40 ≠ 0
  value := value

/-- A type byte, a length byte and that many bytes of value. -/
def readRule : Unpack Rule := do
  let typeByte ← Unpack.u8
  let length ← Unpack.u8
  let value ← Unpack.take length.toNat
  return ruleOf typeByte value

/-- Rules until nothing is left. -/
def readRules (b : Bytes) : Option (List Rule) := Unpack.all readRule b

/-- Of the type the low six bits. -/
def Rule.masked (rule : Rule) : Rule := { rule with ruleType := rule.ruleType &&& 0x3f }

/-- The type byte has the type in its low bits, and the flags above it. -/
theorem type_byte (type : UInt8) (orFlag notFlag : Bool) :
    let typeByte := (type &&& 0x3f) ||| (if orFlag then 0x40 else 0) ||| (if notFlag then 0x80 else 0)
    typeByte &&& 0x3f = type &&& 0x3f ∧ decide (typeByte &&& 0x80 ≠ 0) = notFlag ∧
      decide (typeByte &&& 0x40 ≠ 0) = orFlag := by
  revert type
  cases orFlag <;> cases notFlag <;> exact forall_byte (by decide +kernel)

/-- A rule is read back if its length fits the length byte. -/
theorem reads_serializeRule {rule : Rule} (h : rule.value.length ≤ 255) :
    Unpack.Reads readRule (serializeRule rule) rule.masked := by
  have hlength : rule.value.length = (UInt8.ofNat rule.value.length).toNat :=
    (UInt8.toNat_ofNat_of_lt' (Nat.lt_succ_of_le h)).symm
  have hmasked : ruleOf ((rule.ruleType &&& 0x3f) ||| (if rule.orFlag then 0x40 else 0) |||
      (if rule.notFlag then 0x80 else 0)) rule.value = rule.masked := by
    obtain ⟨htype, hnot, hor⟩ := type_byte rule.ruleType rule.orFlag rule.notFlag
    rw [ruleOf, htype, hnot, hor, Rule.masked]
  rw [← hmasked]
  exact (Unpack.reads_u8 _).bind ((Unpack.reads_u8 _).bind ((Unpack.reads_take_of hlength).last _))

theorem serializeRule_ne_nil (rule : Rule) : serializeRule rule ≠ [] := List.cons_ne_nil _ _

/-- No rule that is read has a longer value than its length byte says. -/
theorem length_of_readRule {b rest : Bytes} {rule : Rule} (h : readRule b = some (rule, rest)) :
    rule.value.length ≤ 255 := by
  obtain ⟨⟨typeByte, b₁⟩, -, h⟩ := Option.bind_eq_some_iff.mp h
  obtain ⟨⟨length, b₂⟩, -, h⟩ := Option.bind_eq_some_iff.mp h
  obtain ⟨⟨value, b₃⟩, htake, heq⟩ := Option.bind_eq_some_iff.mp h
  obtain ⟨rfl, -⟩ := Prod.mk.inj (Option.some.inj heq)
  obtain ⟨-, heq⟩ := Option.ite_none_right_eq_some.mp htake
  obtain ⟨rfl, -⟩ := Prod.mk.inj (Option.some.inj heq)
  have hbyte := length.toNat_lt
  exact (List.length_take_le _ _).trans (by omega)

/-- Any rule can come from a request. -/
theorem exists_ruleFromResponse (rule : Rule) : ∃ r, ruleFromResponse r = rule := by
  refine ⟨⟨rule.ruleType, rule.notFlag, rule.orFlag, rule.value, none⟩, ?_⟩
  obtain ⟨type, notFlag, orFlag, value⟩ := rule
  cases value <;> rfl

/-- Rules whose values fit the length byte are read back. -/
theorem readRules_serializeRules {rules : List Rule} (h : ∀ rule ∈ rules, rule.value.length ≤ 255) :
    readRules (serializeRules rules) = some (rules.map Rule.masked) :=
  Unpack.all_flatMap fun rule hrule => ⟨reads_serializeRule (h rule hrule), serializeRule_ne_nil rule⟩

/-- What is read back from a list of rules is the list, up to the high bits of the types,
exactly if no value has more than 255 bytes; two lists of such values that are written
alike are equal up to those bits. -/
theorem readRules_iff (rules : List Rule) :
    (readRules (serializeRules rules) = some (rules.map Rule.masked) ↔ ∀ rule ∈ rules, rule.value.length ≤ 255) ∧
    ∀ rules' : List Rule, (∀ rule ∈ rules ++ rules', rule.value.length ≤ 255) →
      serializeRules rules = serializeRules rules' → rules.map Rule.masked = rules'.map Rule.masked := by
  refine ⟨⟨fun h rule hrule => ?_, readRules_serializeRules⟩, fun rules' hshort hsame => ?_⟩
  · exact Unpack.forall_of_all (fun _ _ _ => length_of_readRule) h rule.masked (List.mem_map_of_mem hrule)
  · have hleft := readRules_serializeRules fun rule h => hshort rule (List.mem_append_left rules' h)
    have hright := readRules_serializeRules fun rule h => hshort rule (List.mem_append_right rules h)
    rw [hsame, hright] at hleft
    exact (Option.some.inj hleft).symm

theorem readRules_iff_two :
    readRules (serializeRules [⟨0xff, true, false, [1, 2]⟩, ⟨0x01, false, true, []⟩]) =
      some [⟨0x3f, true, false, [1, 2]⟩, ⟨0x01, false, true, []⟩] ∧
    Rule.masked ⟨0xff, true, false, [1, 2]⟩ = Rule.masked ⟨0x3f, true, false, [1, 2]⟩ := by
  refine ⟨(readRules_iff [⟨0xff, true, false, [1, 2]⟩, ⟨0x01, false, true, []⟩]).1.mpr (by decide), ?_⟩
  have hsame := (readRules_iff [⟨0xff, true, false, [1, 2]⟩]).2 [⟨0x3f, true, false, [1, 2]⟩] (by decide) (by decide)
  exact (List.cons.inj hsame).1

/-- A posted value of 256 zeros is written like 128 rules of type zero without a value
behind another one. -/
theorem serializeRules_ambiguous : ¬ ∀ posted posted' : List RuleResponse,
    serializeRules (posted.map ruleFromResponse) = serializeRules (posted'.map ruleFromResponse) →
      (posted.map ruleFromResponse).map Rule.masked = (posted'.map ruleFromResponse).map Rule.masked := by
  intro hall
  have h := hall [⟨0, false, false, List.replicate 256 0, none⟩] (List.replicate 129 ⟨0, false, false, [], none⟩)
    (by decide +kernel)
  have hlength := congrArg List.length h
  simp only [List.length_map, List.length_replicate] at hlength
  exact absurd hlength (by decide)

end ManyTier.Controller
