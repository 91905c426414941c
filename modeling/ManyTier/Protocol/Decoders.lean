import ManyTier.Lib.Buffer
import ManyTier.Protocol.Codecs

/-! The payload decoders on their buffers.

The decoders of the payload modules read totally; the code indexes. Here each decoder
stands again with every index and slice checked and every loop a loop over an offset, and
on every byte string it answers what the total one answers: no index is out of range, and
every loop ends. -/
namespace ManyTier

open Decoder

/-! ### Addresses and identities -/

namespace InetAddress

def deserializeAt (data : Bytes) : Decoder ProtocolError (InetAddress × Nat) :=
  if data.isEmpty then fail (.tooShort 1 0)
  else do
    let tag ← index data 0
    if tag = 0x00 then return (null, 1)
    else if tag = 0x04 then
      if data.length < 7 then fail (.tooShort 7 data.length)
      else do
        let ip ← field 4 data 1
        let port ← u16 data 5
        return (v4 ip port, 7)
    else if tag = 0x06 then
      if data.length < 19 then fail (.tooShort 19 data.length)
      else do
        let ip ← field 16 data 1
        let port ← u16 data 17
        return (v6 ip port, 19)
    else fail .invalidPacket

theorem deserializeAt_eq (data : Bytes) : deserializeAt data = answer (deserialize data) := by
  unfold deserializeAt deserialize
  refine guarded fun hempty => ?_
  have hpos := pos_of_not_isEmpty hempty
  rw [index_eq hpos, ok_bind]
  apply branched
  · intro _
    rfl
  · intro _
    apply branched
    · intro _
      refine guarded fun hlen => ?_
      rw [field_eq (by omega), ok_bind, u16_eq (by omega), ok_bind]
      rfl
    · intro _
      apply branched
      · intro _
        refine guarded fun hlen => ?_
        rw [field_eq (by omega), ok_bind, u16_eq (by omega), ok_bind]
        rfl
      · intro _
        rfl

theorem consumed_le {data : Bytes} {a : InetAddress} {consumed : Nat} (h : deserialize data = .ok (a, consumed)) :
    consumed ≤ data.length := by
  obtain ⟨rest, rfl, rfl⟩ := deserialize_eq_ok h
  rw [List.length_append]
  exact Nat.le_add_right ..

end InetAddress

namespace IdentityWire

def deserializeIdentityAt (data : Bytes) : Decoder ProtocolError (Identity × Nat) :=
  if data.length < publicWireLen then fail (.tooShort publicWireLen data.length)
  else do
    let addrBytes ← field 5 data 0
    match Address.new addrBytes with
    | .error _ => fail .invalidAddress
    | .ok address =>
      let idType ← index data 5
      if idType ≠ identityTypeC25519 then fail .invalidPacket
      else
        let dh ← field 32 data 6
        let signing ← field 32 data 38
        let secretLen ← index data 70
        let consumed := publicWireLen + secretLen.toNat
        if data.length < consumed then fail (.tooShort consumed data.length)
        else return ({ address, publicKey := ⟨dh, signing⟩, secret := none }, consumed)

theorem deserializeIdentityAt_eq (data : Bytes) :
    deserializeIdentityAt data = answer (deserializeIdentity data) := by
  unfold deserializeIdentityAt deserializeIdentity
  refine guarded fun hlen => ?_
  rw [publicWireLen] at hlen
  rw [field_eq (by omega), ok_bind]
  cases Address.new (fieldAt 5 data 0) with
  | error e => rfl
  | ok address =>
    simp only
    rw [index_eq (by omega), ok_bind]
    refine guarded fun htype => ?_
    rw [field_eq (by omega), ok_bind, field_eq (by omega), ok_bind, index_eq (by omega), ok_bind]
    exact guarded fun hconsumed => rfl

theorem consumed_bounds {data : Bytes} {i : Identity} {consumed : Nat}
    (h : deserializeIdentity data = .ok (i, consumed)) : 71 ≤ consumed ∧ consumed ≤ data.length := by
  unfold deserializeIdentity at h
  split at h
  · cases h
  · split at h
    · cases h
    · split at h
      · cases h
      · simp only at h
        split at h
        · cases h
        · rename_i hconsumed
          obtain ⟨-, rfl⟩ := Prod.mk.inj (Except.ok.inj h)
          rw [publicWireLen] at hconsumed ⊢
          omega

end IdentityWire

/-! ### HELLO and OK -/

namespace HelloPayload

/-- Records while a whole one is left. -/
def moonRecordsAt (data : Bytes) : Nat → Nat → Decoder ProtocolError (List (UInt64 × UInt64) × Nat)
  | 0, _ => .error (.fault .outOfFuel)
  | fuel + 1, pos =>
    if pos + 16 ≤ data.length then do
      let worldId ← u64 data pos
      let ts ← u64 data (pos + 8)
      let (rest, pos) ← moonRecordsAt data fuel (pos + 16)
      return ((worldId, ts) :: rest, pos)
    else return ([], pos)

def deserializeAt (data : Bytes) : Decoder ProtocolError (HelloPayload × Nat) :=
  if data.length < 13 then fail (.tooShort 13 data.length)
  else do
    let protocolVersion ← index data 0
    let majorVersion ← index data 1
    let minorVersion ← index data 2
    let revision ← u16 data 3
    let timestamp ← u64 data 5
    let (identity, idConsumed) ← IdentityWire.deserializeIdentityAt (← behind data 13)
    let pos := 13 + idConsumed
    let (destAddress, addrConsumed) ← InetAddress.deserializeAt (← behind data pos)
    let pos := pos + addrConsumed
    if data.length < pos + 16 then fail (.tooShort (pos + 16) data.length)
    else
      let planetWorldId ← u64 data pos
      let planetWorldTimestamp ← u64 data (pos + 8)
      let (moonRecords, pos) ← moonRecordsAt data (data.length + 1) (pos + 16)
      return ({ protocolVersion, majorVersion, minorVersion, revision, timestamp, identity, destAddress
                planetWorldId, planetWorldTimestamp, moonRecords }, pos)

theorem moonRecordsAt_eq (data : Bytes) (fuel pos : Nat) (hpos : pos ≤ data.length) (hfuel : data.length < pos + fuel) :
    moonRecordsAt data fuel pos = .ok (moonRecordsOf ((data.length - pos) / 16) (data.drop pos),
      pos + 16 * ((data.length - pos) / 16)) := by
  induction fuel generalizing pos with
  | zero => omega
  | succ fuel ih =>
    unfold moonRecordsAt
    by_cases hwhole : pos + 16 ≤ data.length
    · have hcount : (data.length - pos) / 16 = (data.length - (pos + 16)) / 16 + 1 := by omega
      have hend : pos + 16 * ((data.length - (pos + 16)) / 16 + 1) =
          pos + 16 + 16 * ((data.length - (pos + 16)) / 16) := by omega
      rw [if_pos hwhole, u64_eq (by omega), ok_bind, u64_eq (by omega), ok_bind, ih (pos + 16) hwhole (by omega), ok_bind,
        hcount, hend, moonRecordsOf, u64At_drop, u64At_drop, List.drop_drop]
      rfl
    · have hcount : (data.length - pos) / 16 = 0 := by omega
      rw [if_neg hwhole, hcount]
      rfl

theorem deserializeAt_eq (data : Bytes) : deserializeAt data = answer (deserialize data) := by
  unfold deserializeAt deserialize
  refine guarded fun hlen => ?_
  rw [index_eq (by omega), ok_bind, index_eq (by omega), ok_bind, index_eq (by omega), ok_bind, u16_eq (by omega),
    ok_bind, u64_eq (by omega), ok_bind, behind_eq (by omega), ok_bind, IdentityWire.deserializeIdentityAt_eq]
  cases hidentity : IdentityWire.deserializeIdentity (data.drop 13) with
  | error e => rfl
  | ok read =>
    obtain ⟨identity, idConsumed⟩ := read
    have hid := IdentityWire.consumed_bounds hidentity
    rw [List.length_drop] at hid
    rw [answer_ok, ok_bind, ok_bind]
    simp only
    rw [behind_eq (by omega), ok_bind, InetAddress.deserializeAt_eq]
    cases haddress : InetAddress.deserialize (data.drop (13 + idConsumed)) with
    | error e => rfl
    | ok read =>
      obtain ⟨destAddress, addrConsumed⟩ := read
      rw [answer_ok, ok_bind, ok_bind]
      simp only
      refine guarded fun hworld => ?_
      rw [u64_eq (by omega), ok_bind, u64_eq (by omega), ok_bind, moonRecordsAt_eq data _ _ (by omega) (by omega), ok_bind]
      rfl

theorem consumed_le {data : Bytes} {p : HelloPayload} {consumed : Nat} (h : deserialize data = .ok (p, consumed)) :
    consumed ≤ data.length := by
  unfold deserialize at h
  split at h
  · cases h
  · obtain ⟨⟨identity, idConsumed⟩, -, h⟩ := bind_eq_ok h
    obtain ⟨⟨destAddress, addrConsumed⟩, -, h⟩ := bind_eq_ok h
    simp only at h
    split at h
    · cases h
    · obtain ⟨-, rfl⟩ := Prod.mk.inj (Except.ok.inj h)
      omega

end HelloPayload

namespace OkPayload

/-- Identities until the end; each moves the offset on. -/
def identitiesAt (data : Bytes) : Nat → Nat → Decoder ProtocolError (List Identity)
  | 0, _ => .error (.fault .outOfFuel)
  | fuel + 1, pos =>
    if pos < data.length then do
      let (identity, consumed) ← IdentityWire.deserializeIdentityAt (← behind data pos)
      let rest ← identitiesAt data fuel (pos + consumed)
      return identity :: rest
    else return []

def deserializeAt (data : Bytes) : Decoder ProtocolError OkPayload :=
  if data.length < 9 then fail (.tooShort 9 data.length)
  else do
    let verb ← index data 0
    match Verb.fromByte verb with
    | none => fail (.invalidVerb verb)
    | some inReVerb =>
      let inRePacketId ← u64 data 1
      let sub ← behind data 9
      match inReVerb with
      | .hello =>
        if sub.length < 13 then fail (.tooShort 22 data.length)
        else do
          let timestampEcho ← u64 sub 0
          let protocolVersion ← index sub 8
          let majorVersion ← index sub 9
          let minorVersion ← index sub 10
          let revision ← u16 sub 11
          let worldUpdate ← if 13 < sub.length then some <$> behind sub 13 else pure none
          return ⟨inReVerb, inRePacketId,
            .hello timestampEcho protocolVersion majorVersion minorVersion revision worldUpdate⟩
      | .whois => do
        let identities ← identitiesAt sub (sub.length + 1) 0
        return { inReVerb, inRePacketId, subPayload := .whois identities }
      | _ => return { inReVerb, inRePacketId, subPayload := .generic sub }

theorem identitiesAt_eq (data : Bytes) (fuel pos k : Nat) (hpos : pos ≤ data.length) (hfuel : data.length < pos + fuel)
    (hk : data.length ≤ pos + k) : identitiesAt data fuel pos = answer (identitiesOf k (data.drop pos)) := by
  induction fuel generalizing pos k with
  | zero => omega
  | succ fuel ih =>
    unfold identitiesAt
    by_cases hinside : pos < data.length
    · obtain ⟨k, rfl⟩ : ∃ j, k = j + 1 := ⟨k - 1, by omega⟩
      have hnonempty : (data.drop pos).isEmpty = false := by
        rw [List.isEmpty_eq_false_iff]
        exact fun h => by
          have hlen := congrArg List.length h
          rw [List.length_drop, List.length_nil] at hlen
          omega
      rw [if_pos hinside, behind_eq hpos, ok_bind, IdentityWire.deserializeIdentityAt_eq, identitiesOf, hnonempty,
        if_neg Bool.false_ne_true, answer_bind]
      cases hread : IdentityWire.deserializeIdentity (data.drop pos) with
      | error e => rfl
      | ok read =>
        obtain ⟨identity, consumed⟩ := read
        have hid := IdentityWire.consumed_bounds hread
        rw [List.length_drop] at hid
        rw [answer_ok, ok_bind, ok_bind]
        simp only
        rw [ih (pos + consumed) k (by omega) (by omega) (by omega), List.drop_drop, answer_bind]
        rfl
    · rw [if_neg hinside, List.drop_eq_nil_of_le (by omega)]
      cases k <;> rfl

theorem deserializeAt_eq (data : Bytes) : deserializeAt data = answer (deserialize data) := by
  unfold deserializeAt deserialize
  refine guarded fun hlen => ?_
  rw [index_eq (by omega), ok_bind]
  cases Verb.fromByte (byteAt data 0) with
  | none => rfl
  | some verb =>
    simp only
    rw [u64_eq (by omega), ok_bind, behind_eq (by omega), ok_bind]
    set sub := data.drop 9 with hsub
    cases verb
    case hello =>
      refine guarded fun hshort => ?_
      rw [u64_eq (by omega), ok_bind, index_eq (by omega), ok_bind, index_eq (by omega), ok_bind, index_eq (by omega),
        ok_bind, u16_eq (by omega), ok_bind]
      by_cases hworld : 13 < sub.length
      · rw [if_pos hworld, if_pos hworld, behind_eq (by omega)]
        rfl
      · rw [if_neg hworld, if_neg hworld]
        rfl
    case whois =>
      simp only
      rw [identitiesAt_eq sub (sub.length + 1) 0 sub.length (by omega) (by omega) (by omega), List.drop_zero, answer_bind]
      rfl
    all_goals rfl

end OkPayload

/-! ### Network configurations -/

namespace NetworkConfigRequestPayload

def deserializeAt (data : Bytes) : Decoder ProtocolError NetworkConfigRequestPayload :=
  if data.length < 10 then fail (.tooShort 10 data.length)
  else do
    let networkId ← u64 data 0
    let dictLen ← u16 data 8
    if data.length < 10 + dictLen.toNat then fail (.tooShort (10 + dictLen.toNat) data.length)
    else
      let dictData ← range data 10 (10 + dictLen.toNat)
      return ⟨networkId, dictData⟩

theorem deserializeAt_eq (data : Bytes) : deserializeAt data = answer (deserialize data) := by
  unfold deserializeAt deserialize
  refine guarded fun hlen => ?_
  rw [u64_eq (by omega), ok_bind, u16_eq (by omega), ok_bind]
  refine guarded fun hdict => ?_
  rw [range_eq (by omega), ok_bind]
  rfl

end NetworkConfigRequestPayload

namespace NetworkConfigPayload

def deserializeAt (data : Bytes) : Decoder ProtocolError NetworkConfigPayload :=
  if data.length < 10 then fail (.tooShort 10 data.length)
  else do
    let networkId ← u64 data 0
    let dictLen ← u16 data 8
    let dictEnd := 10 + dictLen.toNat
    if data.length < dictEnd then fail (.tooShort dictEnd data.length)
    else
      let dictData ← range data 10 dictEnd
      if data.length = dictEnd then return ⟨networkId, dictData, none, none, none, none, none, none⟩
      else if data.length < dictEnd + 20 then fail (.tooShort (dictEnd + 20) data.length)
      else
        let flags ← index data dictEnd
        let configUpdateId ← u64 data (dictEnd + 1)
        let totalLength ← u32 data (dictEnd + 9)
        let chunkIndex ← u32 data (dictEnd + 13)
        let signatureType ← index data (dictEnd + 17)
        let signatureLen ← u16 data (dictEnd + 18)
        if data.length < dictEnd + 20 + signatureLen.toNat then
          fail (.tooShort (dictEnd + 20 + signatureLen.toNat) data.length)
        else
          let signature ← range data (dictEnd + 20) (dictEnd + 20 + signatureLen.toNat)
          return ⟨networkId, dictData, some flags, some configUpdateId, some totalLength, some chunkIndex,
            some signatureType, some signature⟩

theorem deserializeAt_eq (data : Bytes) : deserializeAt data = answer (deserialize data) := by
  unfold deserializeAt deserialize
  refine guarded fun hlen => ?_
  rw [u64_eq (by omega), ok_bind, u16_eq (by omega), ok_bind]
  simp only
  set dictLen := (u16At data 8).toNat
  refine guarded fun hdict => ?_
  rw [range_eq (by omega), ok_bind]
  apply branched
  · intro _
    rfl
  · intro _
    refine guarded fun hchunk => ?_
    rw [index_eq (by omega), ok_bind, u64_eq (by omega), ok_bind, u32_eq (by omega), ok_bind, u32_eq (by omega), ok_bind,
      index_eq (by omega), ok_bind, u16_eq (by omega), ok_bind]
    set signatureLen := (u16At data (10 + dictLen + 18)).toNat
    refine guarded fun hsignature => ?_
    rw [range_eq (by omega), ok_bind]
    rfl

end NetworkConfigPayload

namespace CertificateOfMembership

def qualifiersAt (data : Bytes) : Nat → Nat → Decoder ProtocolError (List ComQualifier)
  | 0, _ => return []
  | count + 1, offset => do
    let id ← u64 data offset
    let value ← u64 data (offset + 8)
    let maxDelta ← u64 data (offset + 16)
    let rest ← qualifiersAt data count (offset + 24)
    return ⟨id, value, maxDelta⟩ :: rest

def deserializeAt (data : Bytes) : Decoder ProtocolError (CertificateOfMembership × Nat) :=
  if data.length < 8 then fail (.tooShort 8 data.length)
  else do
    let version ← index data 0
    if version ≠ 1 then fail .invalidPacket
    else
      let count ← u16 data 1
      let base := 3 + count.toNat * 24 + 5
      if data.length < base then fail (.tooShort base data.length)
      else
        let qualifiers ← qualifiersAt data count.toNat 3
        let issuedTo := issuedToOf qualifiers
        let signerAddress ← field 5 data (3 + count.toNat * 24)
        if signerAddress = ByteVec.zero 5 then
          return (⟨issuedTo, qualifiers, signerAddress, ByteVec.zero 96⟩, base)
        else if data.length < base + 96 then fail (.tooShort (base + 96) data.length)
        else
          let signature ← field 96 data base
          return (⟨issuedTo, qualifiers, signerAddress, signature⟩, base + 96)

theorem qualifiersAt_eq (data : Bytes) (count offset : Nat) (h : offset + count * 24 ≤ data.length) :
    qualifiersAt data count offset = .ok (qualifiersOf count (data.drop offset)) := by
  induction count generalizing offset with
  | zero => rfl
  | succ count ih =>
    rw [qualifiersAt, u64_eq (by omega), ok_bind, u64_eq (by omega), ok_bind, u64_eq (by omega), ok_bind,
      ih (offset + 24) (by omega), ok_bind, qualifiersOf, u64At_drop, u64At_drop, u64At_drop, List.drop_drop]
    rfl

theorem deserializeAt_eq (data : Bytes) : deserializeAt data = answer (deserialize data) := by
  unfold deserializeAt deserialize
  refine guarded fun hlen => ?_
  rw [index_eq (by omega), ok_bind]
  refine guarded fun hversion => ?_
  rw [u16_eq (by omega), ok_bind]
  simp only
  set count := (u16At data 1).toNat
  refine guarded fun hbase => ?_
  rw [qualifiersAt_eq data count 3 (by omega), ok_bind, field_eq (by omega), ok_bind]
  apply branched
  · intro _
    rfl
  · intro _
    refine guarded fun hsigned => ?_
    rw [field_eq (by omega), ok_bind]
    rfl

end CertificateOfMembership

namespace NetworkCredentialsPayload

def readRawSectionAt (data : Bytes) (offset : Nat) : Decoder ProtocolError (Bytes × Nat) :=
  if data.length < offset + 2 then fail (.tooShort (offset + 2) data.length)
  else do
    let len ← u16 data offset
    if data.length < offset + 2 + len.toNat then fail (.tooShort (offset + 2 + len.toNat) data.length)
    else
      let raw ← range data (offset + 2) (offset + 2 + len.toNat)
      return (raw, offset + 2 + len.toNat)

def deserializeAt (data : Bytes) : Decoder ProtocolError NetworkCredentialsPayload :=
  if data.isEmpty then fail (.tooShort 1 0)
  else do
    let hasCom ← index data 0
    let (com, offset) ←
      if hasCom ≠ 0 then do
        let (com, consumed) ← CertificateOfMembership.deserializeAt (← behind data 1)
        pure (some com, 1 + consumed)
      else pure (none, 1)
    let (capabilitiesRaw, offset) ← readRawSectionAt data offset
    let (tagsRaw, offset) ← readRawSectionAt data offset
    let (revocationsRaw, offset) ← readRawSectionAt data offset
    let (cooRaw, _) ← readRawSectionAt data offset
    return { com, capabilitiesRaw, tagsRaw, revocationsRaw, cooRaw }

theorem readRawSectionAt_eq (data : Bytes) (offset : Nat) :
    readRawSectionAt data offset = answer (readRawSection data offset) := by
  unfold readRawSectionAt readRawSection
  refine guarded fun hlen => ?_
  rw [u16_eq (by omega), ok_bind]
  refine guarded fun hraw => ?_
  rw [range_eq (by omega), ok_bind]
  rfl

theorem deserializeAt_eq (data : Bytes) : deserializeAt data = answer (deserialize data) := by
  unfold deserializeAt deserialize
  refine guarded fun hempty => ?_
  have hpos := pos_of_not_isEmpty hempty
  rw [index_eq hpos, ok_bind]
  by_cases hcom : byteAt data 0 ≠ 0
  · have hbehind : (behind data 1 : Decoder ProtocolError Bytes) = .ok (data.drop 1) := behind_eq hpos
    simp only [if_pos hcom, hbehind, ok_bind, CertificateOfMembership.deserializeAt_eq, readRawSectionAt_eq,
      answer_bind]
    rfl
  · simp only [if_neg hcom, readRawSectionAt_eq, answer_bind]
    rfl

end NetworkCredentialsPayload

/-! ### Multicast -/

namespace MulticastLikePayload

def groupsAt (data : Bytes) : Nat → Nat → Decoder ProtocolError (List MulticastGroup)
  | 0, _ => return []
  | count + 1, offset => do
    let networkId ← u64 data offset
    let mac ← field 6 data (offset + 8)
    let adi ← u32 data (offset + 14)
    let rest ← groupsAt data count (offset + 18)
    return ⟨networkId, mac, adi⟩ :: rest

def deserializeAt (data : Bytes) : Decoder ProtocolError (List MulticastGroup) :=
  if data.length % 18 ≠ 0 then fail .invalidPacket else groupsAt data (data.length / 18) 0

theorem groupsAt_eq (data : Bytes) (count offset : Nat) (h : offset + count * 18 ≤ data.length) :
    groupsAt data count offset = .ok ((List.range count).map fun i =>
      ⟨u64At data (offset + i * 18), fieldAt 6 data (offset + i * 18 + 8), u32At data (offset + i * 18 + 14)⟩) := by
  induction count generalizing offset with
  | zero => rfl
  | succ count ih =>
    have hnext : ∀ i, offset + 18 + i * 18 = offset + (i + 1) * 18 := fun i => by omega
    rw [groupsAt, u64_eq (by omega), ok_bind, field_eq (by omega), ok_bind, u32_eq (by omega), ok_bind,
      ih (offset + 18) (by omega), ok_bind, List.range_succ_eq_map, List.map_cons, List.map_map]
    simp only [hnext, Nat.zero_mul, Nat.add_zero]
    rfl

theorem deserializeAt_eq (data : Bytes) : deserializeAt data = answer (deserialize data) := by
  unfold deserializeAt deserialize
  refine guarded fun hwhole => ?_
  rw [groupsAt_eq data _ 0 (by omega)]
  simp only [Nat.zero_add, answer_ok]

end MulticastLikePayload

namespace MulticastGatherPayload

def deserializeAt (data : Bytes) : Decoder ProtocolError MulticastGatherPayload :=
  if data.length < 23 then fail (.tooShort 23 data.length)
  else do
    let networkId ← u64 data 0
    let flags ← index data 8
    let mac ← field 6 data 9
    let adi ← u32 data 15
    let gatherLimit ← u32 data 19
    let com ← if 23 < data.length then some <$> behind data 23 else pure none
    return { networkId, flags, mac, adi, gatherLimit, com }

theorem deserializeAt_eq (data : Bytes) : deserializeAt data = answer (deserialize data) := by
  unfold deserializeAt deserialize
  refine guarded fun hlen => ?_
  rw [u64_eq (by omega), ok_bind, index_eq (by omega), ok_bind, field_eq (by omega), ok_bind, u32_eq (by omega), ok_bind,
    u32_eq (by omega), ok_bind]
  by_cases hcom : 23 < data.length
  · rw [if_pos hcom, if_pos hcom, behind_eq (by omega)]
    rfl
  · rw [if_neg hcom, if_neg hcom]
    rfl

end MulticastGatherPayload

namespace MulticastFramePayload

/-- A gather limit if its flag is set, and the offset behind it. -/
def gatherLimitAt (data : Bytes) (flags : UInt8) (offset : Nat) : Decoder ProtocolError (Option UInt32 × Nat) :=
  if flags &&& 0x02 ≠ 0 then
    if data.length < offset + 4 then fail (.tooShort (offset + 4) data.length)
    else do
      let limit ← u32 data offset
      return (some limit, offset + 4)
  else return (none, offset)

/-- A source MAC if its flag is set, and the offset behind it. -/
def sourceMacAt (data : Bytes) (flags : UInt8) (offset : Nat) : Decoder ProtocolError (Option Mac × Nat) :=
  if flags &&& 0x04 ≠ 0 then
    if data.length < offset + 6 then fail (.tooShort (offset + 6) data.length)
    else do
      let mac ← field 6 data offset
      return (some mac, offset + 6)
  else return (none, offset)

def parseAt (data : Bytes) : Decoder ProtocolError MulticastFramePayload :=
  if data.length < 9 then fail (.tooShort 9 data.length)
  else do
    let networkId ← u64 data 0
    let flags ← index data 8
    let (gatherLimit, offset) ← gatherLimitAt data flags 9
    let (sourceMac, offset) ← sourceMacAt data flags offset
    if data.length < offset + 12 then fail (.tooShort (offset + 12) data.length)
    else
      let destMac ← field 6 data offset
      let adi ← u32 data (offset + 6)
      let ethertype ← u16 data (offset + 10)
      let payload ← behind data (offset + 12)
      return { networkId, flags, gatherLimit, sourceMac, destMac, adi, ethertype, payload }

theorem gatherLimitAt_eq {data : Bytes} (flags : UInt8) :
    gatherLimitAt data flags 9 =
      if flags &&& 0x02 ≠ 0 ∧ data.length < 13 then fail (.tooShort 13 data.length)
      else .ok (if flags &&& 0x02 ≠ 0 then some (u32At data 9) else none, if flags &&& 0x02 ≠ 0 then 13 else 9) := by
  unfold gatherLimitAt
  by_cases hlimit : flags &&& 0x02 ≠ 0
  · rw [if_pos hlimit, if_pos hlimit, if_pos hlimit]
    by_cases hlen : data.length < 13
    · rw [if_pos hlen, if_pos ⟨hlimit, hlen⟩]
    · rw [if_neg hlen, if_neg fun h => hlen h.2, u32_eq (by omega), ok_bind]
      rfl
  · rw [if_neg hlimit, if_neg hlimit, if_neg hlimit, if_neg fun h => hlimit h.1]
    rfl

theorem sourceMacAt_eq {data : Bytes} (flags : UInt8) (offset : Nat) :
    sourceMacAt data flags offset =
      if flags &&& 0x04 ≠ 0 ∧ data.length < offset + 6 then fail (.tooShort (offset + 6) data.length)
      else .ok (if flags &&& 0x04 ≠ 0 then some (fieldAt 6 data offset) else none,
        if flags &&& 0x04 ≠ 0 then offset + 6 else offset) := by
  unfold sourceMacAt
  by_cases hsource : flags &&& 0x04 ≠ 0
  · rw [if_pos hsource, if_pos hsource, if_pos hsource]
    by_cases hlen : data.length < offset + 6
    · rw [if_pos hlen, if_pos ⟨hsource, hlen⟩]
    · rw [if_neg hlen, if_neg fun h => hlen h.2, field_eq (by omega), ok_bind]
      rfl
  · rw [if_neg hsource, if_neg hsource, if_neg hsource, if_neg fun h => hsource h.1]
    rfl

theorem parseAt_eq (data : Bytes) : parseAt data = answer (parse data) := by
  unfold parseAt parse
  refine guarded fun hlen => ?_
  rw [u64_eq (by omega), ok_bind, index_eq (by omega), ok_bind, gatherLimitAt_eq]
  simp only
  -- The flagged fields refuse inside their own reader, the total decoder around it.
  by_cases hlimit : byteAt data 8 &&& 0x02 ≠ 0 ∧ data.length < 13
  · rw [if_pos hlimit, if_pos hlimit]
    rfl
  · rw [if_neg hlimit, if_neg hlimit, ok_bind]
    simp only
    rw [sourceMacAt_eq]
    set afterLimit := if byteAt data 8 &&& 0x02 ≠ 0 then 13 else 9
    by_cases hsource : byteAt data 8 &&& 0x04 ≠ 0 ∧ data.length < afterLimit + 6
    · rw [if_pos hsource, if_pos hsource]
      rfl
    · rw [if_neg hsource, if_neg hsource, ok_bind]
      simp only
      set afterSource := if byteAt data 8 &&& 0x04 ≠ 0 then afterLimit + 6 else afterLimit
      refine guarded fun hrest => ?_
      rw [field_eq (by omega), ok_bind, u32_eq (by omega), ok_bind, u16_eq (by omega), ok_bind, behind_eq (by omega),
        ok_bind]
      rfl

end MulticastFramePayload

/-! ### Direct paths -/

namespace PushDirectPathsPayload

def addressAt (data : Bytes) (offset addrLen : Nat) : Decoder ProtocolError InetAddress :=
  if addrLen = 6 then do
    let ip ← field 4 data offset
    let port ← u16 data (offset + 4)
    return .v4 ip port
  else if addrLen = 18 then do
    let ip ← field 16 data offset
    let port ← u16 data (offset + 16)
    return .v6 ip port
  else if addrLen = 0 then return .null
  else fail .invalidPacket

def pathsAt (data : Bytes) : Nat → Nat → Decoder ProtocolError (List DirectPath)
  | 0, _ => return []
  | count + 1, offset =>
    if data.length < offset + 4 then fail (.tooShort (offset + 4) data.length)
    else do
      let flags ← u16 data offset
      let extLen ← u16 data (offset + 2)
      let offset := offset + 4 + extLen.toNat
      if data.length < offset + 2 then fail (.tooShort (offset + 2) data.length)
      else
        let _ ← index data offset
        let addrLen ← index data (offset + 1)
        let offset := offset + 2
        if data.length < offset + addrLen.toNat then fail (.tooShort (offset + addrLen.toNat) data.length)
        else
          let address ← addressAt data offset addrLen.toNat
          let rest ← pathsAt data count (offset + addrLen.toNat)
          return ⟨flags, address⟩ :: rest

def deserializeAt (data : Bytes) : Decoder ProtocolError (List DirectPath) :=
  if data.length < 2 then fail (.tooShort 2 data.length)
  else do
    let pathCount ← u16 data 0
    pathsAt data pathCount.toNat 2

theorem addressAt_eq (data : Bytes) (offset addrLen : Nat) (h : offset + addrLen ≤ data.length) :
    addressAt data offset addrLen = answer (typedAddressOf data offset addrLen) := by
  unfold addressAt typedAddressOf
  apply branched
  · intro hv4
    rw [field_eq (by omega), ok_bind, u16_eq (by omega), ok_bind]
    rfl
  · intro _
    apply branched
    · intro hv6
      rw [field_eq (by omega), ok_bind, u16_eq (by omega), ok_bind]
      rfl
    · intro _
      exact branched (fun _ => rfl) fun _ => rfl

theorem pathsAt_eq (data : Bytes) (count offset : Nat) : pathsAt data count offset = answer (pathsOf data count offset) := by
  induction count generalizing offset with
  | zero => rfl
  | succ count ih =>
    unfold pathsAt pathsOf
    refine guarded fun hfront => ?_
    rw [u16_eq (by omega), ok_bind, u16_eq (by omega), ok_bind]
    simp only
    set next := offset + 4 + (u16At data (offset + 2)).toNat
    refine guarded fun hext => ?_
    rw [index_eq (by omega), ok_bind, index_eq (by omega), ok_bind]
    refine guarded fun haddress => ?_
    rw [addressAt_eq data _ _ (by omega), answer_bind]
    simp only [ih, answer_bind]
    rfl

theorem deserializeAt_eq (data : Bytes) : deserializeAt data = answer (deserialize data) := by
  unfold deserializeAt deserialize
  refine guarded fun hlen => ?_
  rw [u16_eq (by omega), ok_bind, pathsAt_eq]

end PushDirectPathsPayload

/-! ### Every decoder -/

/-- On every byte string each decoder ends with a result or an error, the one its total
counterpart gives, and none reports more bytes than there are. -/
theorem decoders_total (data : Bytes) :
    HelloPayload.deserializeAt data = answer (HelloPayload.deserialize data) ∧
    OkPayload.deserializeAt data = answer (OkPayload.deserialize data) ∧
    NetworkConfigRequestPayload.deserializeAt data = answer (NetworkConfigRequestPayload.deserialize data) ∧
    NetworkConfigPayload.deserializeAt data = answer (NetworkConfigPayload.deserialize data) ∧
    CertificateOfMembership.deserializeAt data = answer (CertificateOfMembership.deserialize data) ∧
    NetworkCredentialsPayload.deserializeAt data = answer (NetworkCredentialsPayload.deserialize data) ∧
    MulticastLikePayload.deserializeAt data = answer (MulticastLikePayload.deserialize data) ∧
    MulticastGatherPayload.deserializeAt data = answer (MulticastGatherPayload.deserialize data) ∧
    MulticastFramePayload.parseAt data = answer (MulticastFramePayload.parse data) ∧
    PushDirectPathsPayload.deserializeAt data = answer (PushDirectPathsPayload.deserialize data) ∧
    (∀ a consumed, InetAddress.deserializeAt data = .ok (a, consumed) → consumed ≤ data.length) ∧
    (∀ i consumed, IdentityWire.deserializeIdentityAt data = .ok (i, consumed) → consumed ≤ data.length) ∧
    (∀ p consumed, HelloPayload.deserializeAt data = .ok (p, consumed) → consumed ≤ data.length) ∧
    ∀ c consumed, CertificateOfMembership.deserializeAt data = .ok (c, consumed) → consumed ≤ data.length := by
  refine ⟨HelloPayload.deserializeAt_eq data, OkPayload.deserializeAt_eq data,
    NetworkConfigRequestPayload.deserializeAt_eq data, NetworkConfigPayload.deserializeAt_eq data,
    CertificateOfMembership.deserializeAt_eq data, NetworkCredentialsPayload.deserializeAt_eq data,
    MulticastLikePayload.deserializeAt_eq data, MulticastGatherPayload.deserializeAt_eq data,
    MulticastFramePayload.parseAt_eq data, PushDirectPathsPayload.deserializeAt_eq data, ?_, ?_, ?_, ?_⟩
  · intro a consumed h
    rw [InetAddress.deserializeAt_eq] at h
    exact InetAddress.consumed_le (answer_eq_ok h)
  · intro i consumed h
    rw [IdentityWire.deserializeIdentityAt_eq] at h
    exact (IdentityWire.consumed_bounds (answer_eq_ok h)).2
  · intro p consumed h
    rw [HelloPayload.deserializeAt_eq] at h
    exact HelloPayload.consumed_le (answer_eq_ok h)
  · intro c consumed h
    rw [CertificateOfMembership.deserializeAt_eq] at h
    exact (CertificateOfMembership.serialize_of_deserialize (answer_eq_ok h)).1

end ManyTier
