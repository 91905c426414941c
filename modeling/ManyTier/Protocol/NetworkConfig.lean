import ManyTier.Protocol.Header

/-! Network configuration payloads and certificates of membership.

A configuration is a dictionary, whole or as one chunk with its place in the whole.
A certificate lists qualifiers; the one with id 1 names a network and the one with
id 2 the member it was issued to. -/
namespace ManyTier

/-! ### Requests and configurations -/

structure NetworkConfigRequestPayload where
  networkId : UInt64
  dictData : Bytes
  deriving DecidableEq

namespace NetworkConfigRequestPayload

def serialize (p : NetworkConfigRequestPayload) : Bytes :=
  be64 p.networkId ++ (be16 (UInt16.ofNat p.dictData.length) ++ p.dictData)

def deserialize (data : Bytes) : Except ProtocolError NetworkConfigRequestPayload :=
  if data.length < 10 then .error (.tooShort 10 data.length)
  else
    let dictLen := (u16At data 8).toNat
    if data.length < 10 + dictLen then .error (.tooShort (10 + dictLen) data.length)
    else .ok ⟨u64At data 0, slice data 10 dictLen⟩

end NetworkConfigRequestPayload

structure NetworkConfigPayload where
  networkId : UInt64
  dictData : Bytes
  flags : Option UInt8
  configUpdateId : Option UInt64
  totalLength : Option UInt32
  chunkIndex : Option UInt32
  signatureType : Option UInt8
  signature : Option Bytes
  deriving DecidableEq

namespace NetworkConfigPayload

/-- The chunk fields, written only when all six are there. -/
def serializeChunk (p : NetworkConfigPayload) : Bytes :=
  match p.flags, p.configUpdateId, p.totalLength, p.chunkIndex, p.signatureType, p.signature with
  | some flags, some configUpdateId, some totalLength, some chunkIndex, some signatureType,
      some signature =>
    flags :: (be64 configUpdateId ++ (be32 totalLength ++ (be32 chunkIndex ++ (signatureType ::
      (be16 (UInt16.ofNat signature.length) ++ signature)))))
  | _, _, _, _, _, _ => []

def serialize (p : NetworkConfigPayload) : Bytes :=
  be64 p.networkId ++ (be16 (UInt16.ofNat p.dictData.length) ++ (p.dictData ++ p.serializeChunk))

def deserialize (data : Bytes) : Except ProtocolError NetworkConfigPayload :=
  if data.length < 10 then .error (.tooShort 10 data.length)
  else
    let networkId := u64At data 0
    let dictLen := (u16At data 8).toNat
    let dictEnd := 10 + dictLen
    if data.length < dictEnd then .error (.tooShort dictEnd data.length)
    else
      let dictData := slice data 10 dictLen
      if data.length = dictEnd then .ok ⟨networkId, dictData, none, none, none, none, none, none⟩
      else if data.length < dictEnd + 20 then .error (.tooShort (dictEnd + 20) data.length)
      else
        let signatureLen := (u16At data (dictEnd + 18)).toNat
        if data.length < dictEnd + 20 + signatureLen then
          .error (.tooShort (dictEnd + 20 + signatureLen) data.length)
        else
          .ok { networkId, dictData
                flags := some (byteAt data dictEnd)
                configUpdateId := some (u64At data (dictEnd + 1))
                totalLength := some (u32At data (dictEnd + 9))
                chunkIndex := some (u32At data (dictEnd + 13))
                signatureType := some (byteAt data (dictEnd + 17))
                signature := some (slice data (dictEnd + 20) signatureLen) }

/-- A chunk reads back as it was written. -/
theorem deserialize_serialize_chunk (networkId : UInt64) (dictData : Bytes) (flags : UInt8)
    (configUpdateId : UInt64) (totalLength chunkIndex : UInt32) (signatureType : UInt8)
    (signature : Bytes) (hdict : dictData.length < 2 ^ 16) (hsig : signature.length < 2 ^ 16) :
    let p : NetworkConfigPayload := ⟨networkId, dictData, some flags, some configUpdateId,
      some totalLength, some chunkIndex, some signatureType, some signature⟩
    deserialize p.serialize = .ok p := by
  intro p
  have hdictLen : (UInt16.ofNat dictData.length).toNat = dictData.length := by simp; omega
  have hsigLen : (UInt16.ofNat signature.length).toNat = signature.length := by simp; omega
  set front := be64 networkId ++ (be16 (UInt16.ofNat dictData.length) ++ dictData) with hfront
  set chunk := flags :: (be64 configUpdateId ++ (be32 totalLength ++ (be32 chunkIndex ++
    (signatureType :: (be16 (UInt16.ofNat signature.length) ++ signature))))) with hchunk
  have hser : p.serialize = front ++ chunk := by simp [hfront, hchunk, p, serialize, serializeChunk]
  have hflen : front.length = 10 + dictData.length := by simp [hfront]; omega
  have hclen : chunk.length = 20 + signature.length := by simp [hchunk]; omega
  have hlen : p.serialize.length = 10 + dictData.length + (20 + signature.length) := by
    rw [hser, List.length_append, hflen, hclen]
  have hreadDict : (u16At p.serialize 8).toNat = dictData.length := by
    rw [hser, hfront, List.append_assoc, u16At_append (by simp), List.append_assoc]
    simpa using hdictLen
  have hreadSig : (u16At p.serialize (10 + dictData.length + 18)).toNat = signature.length := by
    rw [hser, u16At_behind hflen]
    simpa [hchunk, u16At_append] using hsigLen
  unfold deserialize
  simp only [hreadDict, hreadSig, hlen]
  rw [if_neg (by omega), if_neg (by omega), if_neg (by omega), if_neg (by omega), if_neg (by omega)]
  have hnet : u64At p.serialize 0 = networkId := by simp [hser, hfront]
  have hdictData : slice p.serialize 10 dictData.length = dictData := by
    rw [hser, hfront, List.append_assoc, List.append_assoc, slice_at_append (by simp)]
    simp [slice_at_append]
  have hflags : byteAt p.serialize (10 + dictData.length) = flags := by
    rw [hser]
    exact byteAt_behind hflen 0
  have hid : u64At p.serialize (10 + dictData.length + 1) = configUpdateId := by
    rw [hser, u64At_behind hflen]
    simp [hchunk]
  have htotal : u32At p.serialize (10 + dictData.length + 9) = totalLength := by
    rw [hser, u32At_behind hflen]
    simp [hchunk, u32At_append]
  have hindex : u32At p.serialize (10 + dictData.length + 13) = chunkIndex := by
    rw [hser, u32At_behind hflen]
    simp [hchunk, u32At_append]
  have htype : byteAt p.serialize (10 + dictData.length + 17) = signatureType := by
    rw [hser, byteAt_behind hflen]
    simp [hchunk, byteAt_append]
  have hsignature : slice p.serialize (10 + dictData.length + 20) signature.length = signature := by
    rw [hser, slice_behind hflen]
    simpa [hchunk, slice_at_append] using slice_front (b := []) (a := signature) rfl
  rw [hnet, hdictData, hflags, hid, htotal, hindex, htype, hsignature]

end NetworkConfigPayload

/-! ### Certificates of membership -/

structure ComQualifier where
  id : UInt64
  value : UInt64
  maxDelta : UInt64
  deriving DecidableEq

structure CertificateOfMembership where
  issuedTo : ByteVec 5
  qualifiers : List ComQualifier
  signerAddress : ByteVec 5
  signature : ByteVec 96
  deriving DecidableEq

/-- The five bytes as a number, zero-extended. -/
def ztAddressToU64 (address : ByteVec 5) : UInt64 := UInt64.ofNat (ofBe address.toBytes)

/-- The low 40 bits. -/
def u64ToZtAddress (value : UInt64) : ByteVec 5 := fieldAt 5 (be64 value) 3

namespace CertificateOfMembership

def qualifier (c : CertificateOfMembership) (id : UInt64) : Option UInt64 :=
  (c.qualifiers.find? fun q => q.id = id).map ComQualifier.value

def serializeQualifier (q : ComQualifier) : Bytes := be64 q.id ++ (be64 q.value ++ be64 q.maxDelta)

def serialize (c : CertificateOfMembership) : Bytes :=
  1 :: (be16 (UInt16.ofNat c.qualifiers.length) ++ (c.qualifiers.flatMap serializeQualifier ++
    (c.signerAddress.toBytes ++
      if c.signerAddress = ByteVec.zero 5 then [] else c.signature.toBytes)))

def qualifiersOf : Nat → Bytes → List ComQualifier
  | 0, _ => []
  | count + 1, data =>
    ⟨u64At data 0, u64At data 8, u64At data 16⟩ :: qualifiersOf count (data.drop 24)

/-- The member a certificate names: its first qualifier with id 2. -/
def issuedToOf (qualifiers : List ComQualifier) : ByteVec 5 :=
  match qualifiers.find? fun q => q.id = 2 with
  | some q => u64ToZtAddress q.value
  | none => ByteVec.zero 5

def deserialize (data : Bytes) : Except ProtocolError (CertificateOfMembership × Nat) :=
  if data.length < 8 then .error (.tooShort 8 data.length)
  else if byteAt data 0 ≠ 1 then .error .invalidPacket
  else
    let count := (u16At data 1).toNat
    let base := 3 + count * 24 + 5
    if data.length < base then .error (.tooShort base data.length)
    else
      let qualifiers := qualifiersOf count (data.drop 3)
      let signerAddress : ByteVec 5 := fieldAt 5 data (3 + count * 24)
      let issuedTo := issuedToOf qualifiers
      if signerAddress = ByteVec.zero 5 then
        .ok ({ issuedTo, qualifiers, signerAddress, signature := ByteVec.zero 96 }, base)
      else if data.length < base + 96 then .error (.tooShort (base + 96) data.length)
      else .ok ({ issuedTo, qualifiers, signerAddress, signature := fieldAt 96 data base }, base + 96)

/-- What every decoded certificate satisfies: it names the member its qualifiers
name, and an unsigned one has no signature bytes. -/
structure WellFormed (c : CertificateOfMembership) : Prop where
  issued : c.issuedTo = issuedToOf c.qualifiers
  unsigned : c.signerAddress = ByteVec.zero 5 → c.signature = ByteVec.zero 96
  count : c.qualifiers.length < 2 ^ 16

theorem length_qualifiers (qs : List ComQualifier) :
    (qs.flatMap serializeQualifier).length = qs.length * 24 := by
  induction qs with
  | nil => rfl
  | cons q rest ih =>
    simp [serializeQualifier] at ih ⊢
    omega

theorem qualifiersOf_serialize (qs : List ComQualifier) (rest : Bytes) :
    qualifiersOf qs.length (qs.flatMap serializeQualifier ++ rest) = qs := by
  induction qs with
  | nil => rfl
  | cons q qs ih =>
    simp [qualifiersOf, serializeQualifier, u64At_append, drop_append] at ih ⊢
    exact ih

/-- A well-formed certificate reads back, whatever follows it. -/
theorem deserialize_serialize (c : CertificateOfMembership) (h : c.WellFormed) (rest : Bytes) :
    deserialize (c.serialize ++ rest) = .ok (c, c.serialize.length) := by
  have hcount : (UInt16.ofNat c.qualifiers.length).toNat = c.qualifiers.length := by
    have := h.count
    simp
    omega
  set front := 1 :: be16 (UInt16.ofNat c.qualifiers.length) with hfront
  set middle := c.qualifiers.flatMap serializeQualifier with hmiddle
  set tail := if c.signerAddress = ByteVec.zero 5 then [] else c.signature.toBytes with htail
  have hser : c.serialize = front ++ (middle ++ (c.signerAddress.toBytes ++ tail)) := by
    simp [serialize, hfront, hmiddle, htail]
  have hflen : front.length = 3 := by simp [hfront]
  have hmlen : middle.length = c.qualifiers.length * 24 := length_qualifiers _
  have hfmlen : (front ++ middle).length = 3 + c.qualifiers.length * 24 := by
    rw [List.length_append, hflen, hmlen]
  have hlen : c.serialize.length = 3 + c.qualifiers.length * 24 + 5 + tail.length := by
    rw [hser]
    simp only [List.length_append, hflen, hmlen, ByteVec.length_toBytes]
    omega
  have hread : (u16At (c.serialize ++ rest) 1).toNat = c.qualifiers.length := by
    simpa [hser, hfront] using hcount
  have hversion : byteAt (c.serialize ++ rest) 0 = 1 := by simp [hser, hfront]
  have hqs : qualifiersOf c.qualifiers.length ((c.serialize ++ rest).drop 3) = c.qualifiers := by
    rw [hser, List.append_assoc, drop_append (by omega), hflen]
    simpa [List.append_assoc] using qualifiersOf_serialize c.qualifiers _
  have hsigner : fieldAt 5 (c.serialize ++ rest) (3 + c.qualifiers.length * 24) = c.signerAddress := by
    have hsplit : c.serialize ++ rest = (front ++ middle) ++ (c.signerAddress.toBytes ++ (tail ++ rest)) := by
      simp [hser]
    rw [hsplit]
    exact fieldAt_append _ _ _ _ hfmlen
  have htotal : (c.serialize ++ rest).length =
      3 + c.qualifiers.length * 24 + 5 + tail.length + rest.length := by
    rw [List.length_append, hlen]
  unfold deserialize
  simp only [hread, hversion, hqs, hsigner, htotal, ← h.issued, ne_eq, not_true_eq_false, if_false]
  rw [if_neg (by omega), if_neg (by omega)]
  by_cases hz : c.signerAddress = ByteVec.zero 5
  · have htail0 : tail.length = 0 := by simp [htail, hz]
    rw [if_pos hz, hlen, htail0, ← h.unsigned hz]
  · have htail96 : tail.length = 96 := by simp [htail, hz]
    have hsignature : fieldAt 96 (c.serialize ++ rest) (3 + c.qualifiers.length * 24 + 5) = c.signature := by
      have hsplit : c.serialize ++ rest =
          ((front ++ middle) ++ c.signerAddress.toBytes) ++ (c.signature.toBytes ++ rest) := by
        simp [hser, htail, hz]
      rw [hsplit]
      apply fieldAt_append
      rw [List.length_append, hfmlen, ByteVec.length_toBytes]
    rw [if_neg hz, if_neg (by omega), hsignature, hlen, htail96]

end CertificateOfMembership

/-! ### Credentials -/

structure NetworkCredentialsPayload where
  com : Option CertificateOfMembership
  capabilitiesRaw : Bytes
  tagsRaw : Bytes
  revocationsRaw : Bytes
  cooRaw : Bytes
  deriving DecidableEq

namespace NetworkCredentialsPayload

def serializeSection (raw : Bytes) : Bytes := be16 (UInt16.ofNat raw.length) ++ raw

def serialize (p : NetworkCredentialsPayload) : Bytes :=
  (match p.com with
    | some com => 1 :: com.serialize
    | none => [0]) ++
  (serializeSection p.capabilitiesRaw ++ (serializeSection p.tagsRaw ++
    (serializeSection p.revocationsRaw ++ serializeSection p.cooRaw)))

/-- A section behind its length, and the offset after it. -/
def readRawSection (data : Bytes) (offset : Nat) : Except ProtocolError (Bytes × Nat) :=
  if data.length < offset + 2 then .error (.tooShort (offset + 2) data.length)
  else
    let len := (u16At data offset).toNat
    if data.length < offset + 2 + len then .error (.tooShort (offset + 2 + len) data.length)
    else .ok (slice data (offset + 2) len, offset + 2 + len)

def deserialize (data : Bytes) : Except ProtocolError NetworkCredentialsPayload :=
  if data.isEmpty then .error (.tooShort 1 0)
  else do
    let (com, offset) ←
      if byteAt data 0 ≠ 0 then do
        let (com, consumed) ← CertificateOfMembership.deserialize (data.drop 1)
        pure (some com, 1 + consumed)
      else pure (none, 1)
    let (capabilitiesRaw, offset) ← readRawSection data offset
    let (tagsRaw, offset) ← readRawSection data offset
    let (revocationsRaw, offset) ← readRawSection data offset
    let (cooRaw, _) ← readRawSection data offset
    return { com, capabilitiesRaw, tagsRaw, revocationsRaw, cooRaw }

end NetworkCredentialsPayload

end ManyTier
