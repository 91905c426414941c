import ManyTier.Controller.RuleWire
import ManyTier.Crypto.Identity
import ManyTier.Crypto.Sample

/-! Signed tags and capabilities read back from the wire.

A tag carries one signature, a capability a chain of custody that ends with an address of
zeros. What is signed is put together again from what is read, between two markers, and
the signature verifies over it (`readSigned_verifies`). -/
namespace ManyTier.Controller

/-! ### Reading -/

/-- A signature behind its type and its length. -/
def readSignature : Unpack (ByteVec 96) := do
  let signatureType ← Unpack.u8
  let length ← Unpack.u16
  if signatureType = signatureTypeEd25519 ∧ length = signatureLen then Unpack.vec 96 else failure

/-- Additional fields behind their length. -/
def readAdditional : Unpack Bytes := do
  let length ← Unpack.u16
  Unpack.take length.toNat

structure WireTag where
  networkId : UInt64
  timestamp : UInt64
  id : UInt32
  value : UInt32
  issuedTo : ByteVec 5
  signedBy : ByteVec 5
  signature : ByteVec 96
  additional : Bytes

def readTag : Unpack WireTag := do
  let networkId ← Unpack.u64
  let timestamp ← Unpack.u64
  let id ← Unpack.u32
  let value ← Unpack.u32
  let issuedTo ← Unpack.vec 5
  let signedBy ← Unpack.vec 5
  let signature ← readSignature
  let additional ← readAdditional
  return { networkId, timestamp, id, value, issuedTo, signedBy, signature, additional }

/-- One hand-over of a capability. -/
structure Custody where
  issuedTo : ByteVec 5
  issuedBy : ByteVec 5
  signature : ByteVec 96

/-- Hand-overs up to an address of zeros, at most a number of them. -/
def readCustody : Nat → Unpack (List Custody)
  | 0 => do
    let issuedTo ← Unpack.vec 5
    if issuedTo = ByteVec.zero 5 then return [] else failure
  | n + 1 => do
    let issuedTo ← Unpack.vec 5
    if issuedTo = ByteVec.zero 5 then return []
    else do
      let issuedBy ← Unpack.vec 5
      let signature ← readSignature
      let rest ← readCustody n
      return { issuedTo, issuedBy, signature } :: rest

structure WireCapability where
  networkId : UInt64
  timestamp : UInt64
  id : UInt32
  rules : List Rule
  maxCustodyChainLength : UInt8
  custody : List Custody
  additional : Bytes

def readCapability : Unpack WireCapability := do
  let networkId ← Unpack.u64
  let timestamp ← Unpack.u64
  let id ← Unpack.u32
  let ruleCount ← Unpack.u16
  let rules ← Unpack.times readRule ruleCount.toNat
  let maxCustodyChainLength ← Unpack.u8
  let custody ← readCustody maxCustodyChainLength.toNat
  let additional ← readAdditional
  return { networkId, timestamp, id, rules, maxCustodyChainLength, custody, additional }

/-! ### What is signed -/

/-- The range of a tag that is signed, from what was read of it. -/
def WireTag.signedRange (t : WireTag) : Bytes :=
  be64 signMarker ++ (be64 t.networkId ++ (be64 t.timestamp ++ (be32 t.id ++ (be32 t.value ++
    (t.issuedTo.toBytes ++ (t.signedBy.toBytes ++ (be16 (UInt16.ofNat t.additional.length) ++
      (t.additional ++ be64 signMarker))))))))

/-- The range of a capability that is signed; the chain of custody is not part of it. -/
def WireCapability.signedRange (c : WireCapability) : Bytes :=
  be64 signMarker ++ (be64 c.networkId ++ (be64 c.timestamp ++ (be32 c.id ++
    (be16 (UInt16.ofNat c.rules.length) ++ (serializeRules c.rules ++ (c.maxCustodyChainLength ::
      (be16 (UInt16.ofNat c.additional.length) ++ (c.additional ++ be64 signMarker))))))))

section
variable (pr : Primitives) (networkId : UInt64) (issuedTo signedBy : ByteVec 5) (timestamp : UInt64)
  (signingKey : ByteVec 32)

/-- A signature over a range, of the controller's key. -/
def SignedBy (range : Bytes) (signature : ByteVec 96) : Prop :=
  signature = Signing.sign pr signingKey range ∧
    Signing.verify pr (pr.ed25519Public signingKey) range signature = .ok ()

/-- A tag that was read is one that was issued. -/
structure IsTag (tag : Tag) (t : WireTag) : Prop where
  networkId : t.networkId = networkId
  timestamp : t.timestamp = timestamp
  id : t.id = tag.id
  value : t.value = tag.value
  issuedTo : t.issuedTo = issuedTo
  signedBy : t.signedBy = signedBy
  signed : SignedBy pr signingKey t.signedRange t.signature

/-- A capability that was read is one that was issued, handed over once. -/
structure IsCapability (cap : Capability) (c : WireCapability) : Prop where
  networkId : c.networkId = networkId
  timestamp : c.timestamp = timestamp
  id : c.id = cap.id
  rules : c.rules = cap.rules.map Rule.masked
  custody : ∃ signature, c.custody = [⟨issuedTo, signedBy, signature⟩] ∧ SignedBy pr signingKey c.signedRange signature

/-! ### Reading back -/

theorem reads_signature (signature : ByteVec 96) :
    Unpack.Reads readSignature (signatureTypeEd25519 :: (be16 signatureLen ++ signature.toBytes)) signature :=
  (Unpack.reads_u8 _).bind ((Unpack.reads_u16 _).bind (Unpack.reads_vec signature))

theorem reads_additional : Unpack.Reads readAdditional (be16 0) [] := by
  have h : Unpack.Reads readAdditional (be16 0 ++ []) [] := (Unpack.reads_u16 0).bind (Unpack.reads_take [])
  rwa [List.append_nil] at h

/-- A tag as it is read. -/
def wireTag (tag : Tag) : WireTag :=
  let unsigned : WireTag := ⟨networkId, timestamp, tag.id, tag.value, issuedTo, signedBy, ByteVec.zero 96, []⟩
  { unsigned with signature := Signing.sign pr signingKey unsigned.signedRange }

theorem reads_serializeTagSigned (tag : Tag) :
    Unpack.Reads readTag (serializeTagSigned pr networkId issuedTo signedBy timestamp signingKey tag)
      (wireTag pr networkId issuedTo signedBy timestamp signingKey tag) := by
  unfold serializeTagSigned
  simp only [List.append_assoc]
  refine (Unpack.reads_u64 networkId).bind ((Unpack.reads_u64 timestamp).bind ((Unpack.reads_u32 tag.id).bind ?_))
  refine (Unpack.reads_u32 tag.value).bind ((Unpack.reads_vec issuedTo).bind ((Unpack.reads_vec signedBy).bind ?_))
  exact (reads_signature _).bind (reads_additional.last _)

theorem wireTag_isTag {pr : Primitives} (hverifies : Signing.VerifiesOwn pr) (tag : Tag) :
    IsTag pr networkId issuedTo signedBy timestamp signingKey tag
      (wireTag pr networkId issuedTo signedBy timestamp signingKey tag) where
  networkId := rfl
  timestamp := rfl
  id := rfl
  value := rfl
  issuedTo := rfl
  signedBy := rfl
  signed := ⟨rfl, Signing.verify_sign hverifies signingKey _⟩

/-- A capability as it is read. -/
def wireCapability (cap : Capability) : WireCapability :=
  let unsigned : WireCapability := ⟨networkId, timestamp, cap.id, cap.rules.map Rule.masked, 1, [], []⟩
  { unsigned with custody := [⟨issuedTo, signedBy, Signing.sign pr signingKey unsigned.signedRange⟩] }

/-- The high bits of the types are not written. -/
theorem serializeRules_masked (rules : List Rule) : serializeRules (rules.map Rule.masked) = serializeRules rules := by
  have hmask : ∀ type : UInt8, type &&& 0x3f &&& 0x3f = type &&& 0x3f := forall_byte (by decide +kernel)
  have hrule : ∀ rule : Rule, serializeRule rule.masked = serializeRule rule := by
    intro rule
    unfold serializeRule Rule.masked
    simp only [hmask]
  rw [serializeRules, serializeRules, List.flatMap_map]
  exact List.flatMap_congr fun rule _ => hrule rule

theorem reads_custody_nil (n : Nat) : Unpack.Reads (readCustody n) (ByteVec.zero 5).toBytes [] := by
  have h : Unpack.Reads (readCustody n) ((ByteVec.zero 5).toBytes ++ []) [] := by
    cases n with
    | zero =>
      refine (Unpack.reads_vec (ByteVec.zero 5)).bind ?_
      rw [if_pos rfl]
      exact Unpack.Reads.pure []
    | succ n =>
      refine (Unpack.reads_vec (ByteVec.zero 5)).bind ?_
      rw [if_pos rfl]
      exact Unpack.Reads.pure []
  rwa [List.append_nil] at h

/-- A chain of one, handed to an address that is not zero. -/
theorem reads_custody_one {issuedTo : ByteVec 5} (h : issuedTo ≠ ByteVec.zero 5) (signature : ByteVec 96) :
    Unpack.Reads (readCustody 1)
      (issuedTo.toBytes ++ (signedBy.toBytes ++ ((signatureTypeEd25519 :: (be16 signatureLen ++ signature.toBytes)) ++
        (ByteVec.zero 5).toBytes))) [⟨issuedTo, signedBy, signature⟩] := by
  refine (Unpack.reads_vec issuedTo).bind ?_
  rw [if_neg h]
  exact (Unpack.reads_vec signedBy).bind ((reads_signature signature).bind ((reads_custody_nil 0).last _))

/-- A capability is read back if its rules and their values can be counted. -/
theorem reads_serializeCapabilitySigned {issuedTo : ByteVec 5} (h : issuedTo ≠ ByteVec.zero 5) {cap : Capability}
    (hcount : cap.rules.length ≤ 65535) (hvalues : ∀ rule ∈ cap.rules, rule.value.length ≤ 255) :
    Unpack.Reads readCapability (serializeCapabilitySigned pr networkId issuedTo signedBy timestamp signingKey cap)
      (wireCapability pr networkId issuedTo signedBy timestamp signingKey cap) := by
  have hlength : (UInt16.ofNat cap.rules.length).toNat = cap.rules.length :=
    UInt16.toNat_ofNat_of_lt' (Nat.lt_succ_of_le hcount)
  have hrules : Unpack.Reads (Unpack.times readRule (UInt16.ofNat cap.rules.length).toNat) (serializeRules cap.rules)
      (cap.rules.map Rule.masked) := by
    rw [hlength]
    exact Unpack.Reads.times fun rule hrule => reads_serializeRule (hvalues rule hrule)
  have hrange : (wireCapability pr networkId issuedTo signedBy timestamp signingKey cap).signedRange =
      be64 signMarker ++ (be64 networkId ++ (be64 timestamp ++ (be32 cap.id ++ (be16 (UInt16.ofNat cap.rules.length) ++
        (serializeRules cap.rules ++ (1 :: (be16 0 ++ be64 signMarker))))))) := by
    show be64 signMarker ++ (be64 networkId ++ (be64 timestamp ++ (be32 cap.id ++
      (be16 (UInt16.ofNat (cap.rules.map Rule.masked).length) ++ (serializeRules (cap.rules.map Rule.masked) ++ _))))) = _
    rw [serializeRules_masked, List.length_map]
    rfl
  have hwritten : serializeCapabilitySigned pr networkId issuedTo signedBy timestamp signingKey cap =
      be64 networkId ++ (be64 timestamp ++ (be32 cap.id ++ (be16 (UInt16.ofNat cap.rules.length) ++
        (serializeRules cap.rules ++ ([1] ++ ((issuedTo.toBytes ++ (signedBy.toBytes ++
          ((signatureTypeEd25519 :: (be16 signatureLen ++ (Signing.sign pr signingKey (wireCapability pr networkId issuedTo
            signedBy timestamp signingKey cap).signedRange).toBytes)) ++ (ByteVec.zero 5).toBytes))) ++ be16 0)))))) := by
    rw [hrange]
    unfold serializeCapabilitySigned
    simp only [List.append_assoc, List.cons_append, List.nil_append]
  rw [hwritten]
  refine (Unpack.reads_u64 networkId).bind ((Unpack.reads_u64 timestamp).bind ((Unpack.reads_u32 cap.id).bind ?_))
  refine (Unpack.reads_u16 _).bind (hrules.bind ((Unpack.reads_u8 1).bind ?_))
  exact (reads_custody_one signedBy h _).bind (reads_additional.last _)

theorem wireCapability_isCapability {pr : Primitives} (hverifies : Signing.VerifiesOwn pr) (cap : Capability) :
    IsCapability pr networkId issuedTo signedBy timestamp signingKey cap
      (wireCapability pr networkId issuedTo signedBy timestamp signingKey cap) where
  networkId := rfl
  timestamp := rfl
  id := rfl
  rules := rfl
  custody := ⟨_, rfl, rfl, Signing.verify_sign hverifies signingKey _⟩

end

/-- All that a controller issues to a member is read back, tags and capabilities entry by
entry and with nothing left over, and what was signed of each is put together again from
what was read of it, so that its signature verifies under the controller's key. -/
theorem readSigned_verifies {pr : Primitives} (hverifies : Signing.VerifiesOwn pr) (networkId : UInt64)
    (member controller : Address) (timestamp : UInt64) (signingKey : ByteVec 32) (tags : List Tag) (caps : List Capability)
    (hcount : ∀ cap ∈ caps, cap.rules.length ≤ 65535)
    (hvalues : ∀ cap ∈ caps, ∀ rule ∈ cap.rules, rule.value.length ≤ 255) :
    (∃ read, Unpack.all readTag
        (serializeTagsSigned pr networkId member.bytes controller.bytes timestamp signingKey tags) = some read ∧
      List.Forall₂ (IsTag pr networkId member.bytes controller.bytes timestamp signingKey) tags read) ∧
    ∃ read, Unpack.all readCapability
        (serializeCapabilitiesSigned pr networkId member.bytes controller.bytes timestamp signingKey caps) = some read ∧
      List.Forall₂ (IsCapability pr networkId member.bytes controller.bytes timestamp signingKey) caps read := by
  have hmember : member.bytes ≠ ByteVec.zero 5 := fun h => member.notZero (congrArg ByteVec.toBytes h)
  have hne : ∀ (front : UInt64) (back : Bytes), be64 front ++ back ≠ [] := by
    intro front back h
    have := congrArg List.length h
    simp at this
  constructor
  · refine ⟨_, Unpack.all_flatMap fun tag _ => ⟨reads_serializeTagSigned _ _ _ _ _ _ tag, ?_⟩, ?_⟩
    · unfold serializeTagSigned
      simp only [List.append_assoc]
      exact hne networkId _
    · rw [List.forall₂_map_right_iff, List.forall₂_same]
      exact fun tag _ => wireTag_isTag _ _ _ _ _ hverifies tag
  · refine ⟨_, Unpack.all_flatMap fun cap hcap => ⟨reads_serializeCapabilitySigned _ _ _ _ _ hmember (hcount cap hcap)
      (hvalues cap hcap), ?_⟩, ?_⟩
    · unfold serializeCapabilitySigned
      simp only [List.append_assoc]
      exact hne networkId _
    · rw [List.forall₂_map_right_iff, List.forall₂_same]
      exact fun cap _ => wireCapability_isCapability _ _ _ _ _ hverifies cap

theorem readSigned_verifies_two :
    let member := (Sample.identity 3).address
    let controller := (Sample.identity 1).address
    let tags := [⟨7, 9⟩, ⟨8, 0⟩]
    let caps := [⟨42, [⟨matchVlanId, true, false, [1, 2]⟩]⟩]
    (∃ read, Unpack.all readTag
        (serializeTagsSigned Sample.primitives 5 member.bytes controller.bytes 1000 (Sample.key 1) tags) = some read ∧
      List.Forall₂ (IsTag Sample.primitives 5 member.bytes controller.bytes 1000 (Sample.key 1)) tags read) ∧
    ∃ read, Unpack.all readCapability
        (serializeCapabilitiesSigned Sample.primitives 5 member.bytes controller.bytes 1000 (Sample.key 1) caps) =
          some read ∧
      List.Forall₂ (IsCapability Sample.primitives 5 member.bytes controller.bytes 1000 (Sample.key 1)) caps read :=
  readSigned_verifies Sample.verifiesOwn 5 (Sample.identity 3).address (Sample.identity 1).address 1000 (Sample.key 1)
    [⟨7, 9⟩, ⟨8, 0⟩] [⟨42, [⟨matchVlanId, true, false, [1, 2]⟩]⟩] (by decide) (by decide)

end ManyTier.Controller
