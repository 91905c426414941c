import ManyTier.Protocol.Frames
import ManyTier.Protocol.NetworkConfig
import ManyTier.Protocol.RoundTrip

/-! The payload codecs, each with the values it is for.

A value is well-formed when its length prefixes hold its lengths and its flags agree with
its optional parts; such a value reads back as it was written. -/
namespace ManyTier

/-- The largest length a prefix can hold. -/
def maxPrefixed : Nat := 65535

theorem toNat_lengthPrefix {n : Nat} (h : n ≤ maxPrefixed) : (UInt16.ofNat n).toNat = n :=
  UInt16.toNat_ofNat_of_lt' (by
    simp only [maxPrefixed] at h
    simp only [UInt16.size]
    omega)

/-! ### Network configurations -/

namespace NetworkConfigRequestPayload

theorem deserialize_serialize (p : NetworkConfigRequestPayload) (hp : p.dictData.length ≤ maxPrefixed) :
    deserialize p.serialize = .ok p := by
  obtain ⟨networkId, dictData⟩ := p
  set data := serialize ⟨networkId, dictData⟩ with hdata
  have h0 : data.drop 0 = be64 networkId ++ (be16 (UInt16.ofNat dictData.length) ++ (dictData ++ [])) := by
    simp [hdata, serialize]
  have h8 : data.drop 8 = _ := drop_behind h0 (length_be64 _)
  have h10 : data.drop 10 = _ := drop_behind h8 (length_be16 _)
  have hlen : data.length = 10 + dictData.length := by
    simp [hdata, serialize]
    omega
  have hsize : (u16At data 8).toNat = dictData.length := by
    rw [u16At_of_drop h8]
    exact toNat_lengthPrefix hp
  unfold deserialize
  rw [if_neg (by omega)]
  simp only [hsize]
  rw [if_neg (by omega), u64At_of_drop h0, slice_of_drop h10 rfl]

end NetworkConfigRequestPayload

namespace NetworkConfigPayload

/-- The chunk fields are all there or none is. -/
structure WellFormed (p : NetworkConfigPayload) : Prop where
  dict : p.dictData.length ≤ maxPrefixed
  chunk : (∃ flags configUpdateId totalLength chunkIndex signatureType signature, p = ⟨p.networkId, p.dictData,
      some flags, some configUpdateId, some totalLength, some chunkIndex, some signatureType, some signature⟩) ∨
    p = ⟨p.networkId, p.dictData, none, none, none, none, none, none⟩
  signature : ∀ signature, p.signature = some signature → signature.length ≤ maxPrefixed

theorem deserialize_serialize_whole (networkId : UInt64) (dictData : Bytes) (hdict : dictData.length ≤ maxPrefixed) :
    let p : NetworkConfigPayload := ⟨networkId, dictData, none, none, none, none, none, none⟩
    deserialize p.serialize = .ok p := by
  intro p
  set data := p.serialize with hdata
  have h0 : data.drop 0 = be64 networkId ++ (be16 (UInt16.ofNat dictData.length) ++ (dictData ++ [])) := by
    simp [hdata, p, serialize, serializeChunk]
  have h8 : data.drop 8 = _ := drop_behind h0 (length_be64 _)
  have h10 : data.drop 10 = _ := drop_behind h8 (length_be16 _)
  have hlen : data.length = 10 + dictData.length := by
    simp [hdata, p, serialize, serializeChunk]
    omega
  have hsize : (u16At data 8).toNat = dictData.length := by
    rw [u16At_of_drop h8]
    exact toNat_lengthPrefix hdict
  unfold deserialize
  rw [if_neg (by omega)]
  simp only [hsize]
  rw [if_neg (by omega), if_pos hlen, u64At_of_drop h0, slice_of_drop h10 rfl]

theorem deserialize_serialize (p : NetworkConfigPayload) (hp : p.WellFormed) : deserialize p.serialize = .ok p := by
  have hdict := hp.dict
  have hsignature := hp.signature
  rcases hp.chunk with ⟨flags, configUpdateId, totalLength, chunkIndex, signatureType, signature, heq⟩ | heq
  · rw [heq] at hsignature ⊢
    have hlen := hsignature signature rfl
    rw [maxPrefixed] at hdict hlen
    exact deserialize_serialize_chunk _ _ _ _ _ _ _ _ (by omega) (by omega)
  · rw [heq]
    exact deserialize_serialize_whole _ _ hdict

end NetworkConfigPayload

/-! ### Certificates of membership -/

namespace CertificateOfMembership

/-- The qualifiers of a string are written back as they stood there. -/
theorem serialize_qualifiersOf (count : Nat) (data : Bytes) (h : count * 24 ≤ data.length) :
    (qualifiersOf count data).flatMap serializeQualifier = data.take (count * 24) := by
  induction count generalizing data with
  | zero => simp [qualifiersOf]
  | succ count ih =>
    have hrest := ih (data.drop 24) (by rw [List.length_drop]; omega)
    have hfirst : serializeQualifier ⟨u64At data 0, u64At data 8, u64At data 16⟩ = data.take 24 := by
      rw [serializeQualifier, be64_u64At (by omega), be64_u64At (by omega), be64_u64At (by omega),
        slice_append_slice data 8 8 8, slice_append_slice data 0 8 16]
      rfl
    rw [qualifiersOf, List.flatMap_cons, hrest, hfirst, Nat.succ_mul, Nat.add_comm, List.take_add]

theorem length_qualifiersOf (count : Nat) (data : Bytes) : (qualifiersOf count data).length = count := by
  induction count generalizing data with
  | zero => rfl
  | succ count ih => rw [qualifiersOf, List.length_cons, ih]

/-- A certificate that was accepted is written back as the bytes it was read from. -/
theorem serialize_of_deserialize {data : Bytes} {c : CertificateOfMembership} {consumed : Nat}
    (h : deserialize data = .ok (c, consumed)) : consumed ≤ data.length ∧ c.serialize = data.take consumed := by
  unfold deserialize at h
  split at h
  · cases h
  · rename_i hlong
    split at h
    · cases h
    · rename_i hversion
      have hone : byteAt data 0 = 1 := not_not.mp hversion
      set count := (u16At data 1).toNat with hcount
      simp only at h
      split at h
      · cases h
      · rename_i hbase
        set qualifiers := qualifiersOf count (data.drop 3) with hqualifiers
        have hwritten : qualifiers.flatMap serializeQualifier = slice data 3 (count * 24) :=
          serialize_qualifiersOf count (data.drop 3) (by rw [List.length_drop]; omega)
        have hcountWritten : be16 (UInt16.ofNat qualifiers.length) = slice data 1 2 := by
          rw [hqualifiers, length_qualifiersOf, hcount, UInt16.ofNat_toNat, be16_u16At (by omega)]
        have hfirst : [1] = slice data 0 1 := by
          obtain ⟨b, rest, rfl⟩ : ∃ b rest, data = b :: rest := by
            cases data with
            | nil => simp at hlong
            | cons b rest => exact ⟨b, rest, rfl⟩
          rw [← hone]
          rfl
        have hsigner : (fieldAt 5 data (3 + count * 24)).toBytes = slice data (3 + count * 24) 5 :=
          toBytes_fieldAt (by omega)
        have hparts : ∀ tail, 1 :: (slice data 1 2 ++ (slice data 3 (count * 24) ++ (slice data (3 + count * 24) 5 ++ tail))) =
            slice data 0 (3 + count * 24 + 5) ++ tail := by
          intro tail
          rw [← slice_append_slice data 0 (3 + count * 24) 5, ← slice_append_slice data 0 3 (count * 24),
            ← slice_append_slice data 0 1 2, ← hfirst]
          simp only [Nat.zero_add, List.append_assoc, List.cons_append, List.nil_append]
        split at h
        · rename_i hunsigned
          obtain ⟨rfl, rfl⟩ := Prod.mk.inj (Except.ok.inj h)
          refine ⟨by omega, ?_⟩
          rw [serialize]
          simp only [hunsigned, if_true, hcountWritten, hwritten]
          rw [← hunsigned, hsigner, hparts, List.append_nil]
          rfl
        · rename_i hsigned
          split at h
          · cases h
          · rename_i hlen
            obtain ⟨rfl, rfl⟩ := Prod.mk.inj (Except.ok.inj h)
            refine ⟨by omega, ?_⟩
            rw [serialize]
            simp only [hsigned, if_false, hcountWritten, hwritten, hsigner]
            rw [toBytes_fieldAt (by omega), hparts]
            have hwhole := slice_append_slice data 0 (3 + count * 24 + 5) 96
            rw [Nat.zero_add] at hwhole
            exact hwhole

end CertificateOfMembership

/-! ### Credentials -/

namespace NetworkCredentialsPayload

structure WellFormed (p : NetworkCredentialsPayload) : Prop where
  com : ∀ com, p.com = some com → com.WellFormed
  capabilities : p.capabilitiesRaw.length ≤ maxPrefixed
  tags : p.tagsRaw.length ≤ maxPrefixed
  revocations : p.revocationsRaw.length ≤ maxPrefixed
  coo : p.cooRaw.length ≤ maxPrefixed

theorem readRawSection_serialize {data raw rest : Bytes} {offset : Nat} (hraw : raw.length ≤ maxPrefixed)
    (h : data.drop offset = serializeSection raw ++ rest) :
    readRawSection data offset = .ok (raw, offset + 2 + raw.length) ∧ data.drop (offset + 2 + raw.length) = rest := by
  rw [serializeSection, List.append_assoc] at h
  have hbehind : data.drop (offset + 2) = raw ++ rest := drop_behind h (length_be16 _)
  have hsize : (u16At data offset).toNat = raw.length := by
    rw [u16At_of_drop h]
    exact toNat_lengthPrefix hraw
  have hlen := length_of_drop h (by simp)
  rw [length_be16, List.length_append] at hlen
  refine ⟨?_, drop_behind hbehind rfl⟩
  unfold readRawSection
  rw [if_neg (by omega)]
  simp only [hsize]
  rw [if_neg (by omega), slice_of_drop hbehind rfl]

/-- The four sections, wherever they start. -/
theorem sections_serialize {data : Bytes} {offset : Nat} (p : NetworkCredentialsPayload) (hp : p.WellFormed)
    (h : data.drop offset = serializeSection p.capabilitiesRaw ++ (serializeSection p.tagsRaw ++
      (serializeSection p.revocationsRaw ++ serializeSection p.cooRaw))) :
    (do
      let (capabilitiesRaw, offset) ← readRawSection data offset
      let (tagsRaw, offset) ← readRawSection data offset
      let (revocationsRaw, offset) ← readRawSection data offset
      let (cooRaw, _) ← readRawSection data offset
      return { com := p.com, capabilitiesRaw, tagsRaw, revocationsRaw, cooRaw } :
        Except ProtocolError NetworkCredentialsPayload) = .ok p := by
  obtain ⟨hcapabilities, h⟩ := readRawSection_serialize hp.capabilities h
  obtain ⟨htags, h⟩ := readRawSection_serialize hp.tags h
  obtain ⟨hrevocations, h⟩ := readRawSection_serialize hp.revocations h
  obtain ⟨hcoo, -⟩ := readRawSection_serialize hp.coo (h.trans (List.append_nil _).symm)
  simp only [hcapabilities, htags, hrevocations, hcoo, ok_bind]
  rfl

theorem deserialize_serialize (p : NetworkCredentialsPayload) (hp : p.WellFormed) :
    deserialize p.serialize = .ok p := by
  set data := p.serialize with hdata
  set sections := serializeSection p.capabilitiesRaw ++ (serializeSection p.tagsRaw ++
    (serializeSection p.revocationsRaw ++ serializeSection p.cooRaw)) with hsections
  cases hcom : p.com with
  | none =>
    have h0 : data.drop 0 = 0 :: sections := by rw [List.drop_zero, hdata, serialize, hcom]; rfl
    have hnonempty : data.isEmpty = false := by
      rw [← List.drop_zero (l := data), h0]
      rfl
    have hread := sections_serialize p hp (drop_behind_cons h0)
    rw [hcom] at hread
    unfold deserialize
    rw [hnonempty, if_neg Bool.false_ne_true, byteAt_of_drop h0, if_neg (not_not.mpr rfl)]
    exact hread
  | some com =>
    have h0 : data.drop 0 = 1 :: (com.serialize ++ sections) := by
      rw [List.drop_zero, hdata, serialize, hcom]
      rfl
    have h1 : data.drop 1 = com.serialize ++ sections := drop_behind_cons h0
    have hnonempty : data.isEmpty = false := by
      rw [← List.drop_zero (l := data), h0]
      rfl
    have hread := sections_serialize p hp (drop_behind h1 rfl)
    rw [hcom] at hread
    unfold deserialize
    rw [hnonempty, if_neg Bool.false_ne_true, byteAt_of_drop h0, if_pos (by decide), h1,
      com.deserialize_serialize (hp.com com hcom)]
    exact hread

end NetworkCredentialsPayload

/-! ### Multicast -/

namespace MulticastLikePayload

def serializeGroup (g : MulticastGroup) : Bytes := be64 g.networkId ++ (g.mac.toBytes ++ be32 g.adi)

theorem length_serializeGroup (g : MulticastGroup) : (serializeGroup g).length = 18 := by
  simp [serializeGroup]

theorem length_serialize (groups : List MulticastGroup) : (serialize groups).length = 18 * groups.length := by
  induction groups with
  | nil => rfl
  | cons g groups ih =>
    have hsplit : serialize (g :: groups) = serializeGroup g ++ serialize groups := List.flatMap_cons
    rw [hsplit, List.length_append, length_serializeGroup, ih, List.length_cons]
    omega

theorem drop_serialize (groups : List MulticastGroup) (i : Nat) :
    (serialize groups).drop (i * 18) = serialize (groups.drop i) := by
  induction groups generalizing i with
  | nil => simp [serialize]
  | cons g groups ih =>
    cases i with
    | zero => rfl
    | succ i =>
      have hsplit : serialize (g :: groups) = serializeGroup g ++ serialize groups := List.flatMap_cons
      rw [hsplit, Nat.succ_mul, Nat.add_comm, ← List.drop_drop, List.drop_left' (length_serializeGroup g), ih,
        List.drop_succ_cons]

theorem deserialize_serialize (groups : List MulticastGroup) : deserialize (serialize groups) = .ok groups := by
  have hlen := length_serialize groups
  have hcount : (serialize groups).length / 18 = groups.length := by omega
  unfold deserialize
  rw [if_neg (by omega), hcount]
  congr 1
  apply List.ext_getElem (by simp)
  intro i h₁ h₂
  have hi : i < groups.length := h₂
  have hdrop : (serialize groups).drop (i * 18) = be64 groups[i].networkId ++ (groups[i].mac.toBytes ++
      (be32 groups[i].adi ++ serialize (groups.drop (i + 1)))) := by
    rw [drop_serialize, List.drop_eq_getElem_cons hi, serialize, List.flatMap_cons]
    simp only [List.append_assoc]
    rfl
  have hmac := drop_behind hdrop (length_be64 _)
  have hadi := drop_behind hmac (ByteVec.length_toBytes _)
  rw [List.getElem_map, List.getElem_range, u64At_of_drop hdrop, fieldAt_of_drop hmac, u32At_of_drop hadi]

end MulticastLikePayload

namespace MulticastGatherPayload

theorem deserialize_serialize (p : MulticastGatherPayload) (hcom : p.com ≠ some []) :
    deserialize p.serialize = .ok p := by
  obtain ⟨networkId, flags, mac, adi, gatherLimit, com⟩ := p
  set data := serialize ⟨networkId, flags, mac, adi, gatherLimit, com⟩ with hdata
  have h0 : data.drop 0 = be64 networkId ++ (flags :: (mac.toBytes ++ (be32 adi ++ (be32 gatherLimit ++
      com.getD [])))) := rfl
  have h8 : data.drop 8 = _ := drop_behind h0 (length_be64 _)
  have h9 : data.drop 9 = _ := drop_behind_cons h8
  have h15 : data.drop 15 = _ := drop_behind h9 (ByteVec.length_toBytes _)
  have h19 : data.drop 19 = _ := drop_behind h15 (length_be32 _)
  have h23 : data.drop 23 = com.getD [] := drop_behind h19 (length_be32 _)
  have hlen : data.length = 23 + (com.getD []).length := by
    simp [hdata, serialize]
    omega
  have hread : (if 23 < data.length then some (data.drop 23) else none) = com := by
    rw [h23, hlen]
    cases com with
    | none => rfl
    | some com =>
      have hpos : 0 < com.length := List.length_pos_iff.mpr fun h => hcom (by rw [h])
      simp [hpos]
  unfold deserialize
  rw [if_neg (by omega), hread, u64At_of_drop h0, byteAt_of_drop h8, fieldAt_of_drop h9, u32At_of_drop h15,
    u32At_of_drop h19]

end MulticastGatherPayload

namespace MulticastFramePayload

/-- The flag bits say which optional parts are there. -/
structure WellFormed (p : MulticastFramePayload) : Prop where
  limit : p.flags &&& 0x02 ≠ 0 ↔ p.gatherLimit.isSome
  source : p.flags &&& 0x04 ≠ 0 ↔ p.sourceMac.isSome

/-- The parts behind the optional ones, wherever they start. -/
theorem tail_of_drop {data : Bytes} {off : Nat} {destMac : Mac} {adi : UInt32} {ethertype : UInt16} {payload : Bytes}
    (h : data.drop off = destMac.toBytes ++ (be32 adi ++ (be16 ethertype ++ payload))) :
    fieldAt 6 data off = destMac ∧ u32At data (off + 6) = adi ∧ u16At data (off + 10) = ethertype ∧
      data.drop (off + 12) = payload ∧ off + 12 ≤ data.length := by
  have hadi := drop_behind h (ByteVec.length_toBytes _)
  have hethertype : data.drop (off + 10) = _ := (drop_behind hadi (length_be32 _) :)
  have hpayload : data.drop (off + 12) = _ := (drop_behind hethertype (length_be16 _) :)
  have hlen := length_of_drop hethertype (by simp)
  rw [length_be16] at hlen
  exact ⟨fieldAt_of_drop h, u32At_of_drop hadi, u16At_of_drop hethertype, hpayload, by omega⟩

theorem parse_serialize (p : MulticastFramePayload) (hp : p.WellFormed) : parse p.serialize = .ok p := by
  obtain ⟨networkId, flags, gatherLimit, sourceMac, destMac, adi, ethertype, payload⟩ := p
  set data := serialize ⟨networkId, flags, gatherLimit, sourceMac, destMac, adi, ethertype, payload⟩ with hdata
  have h0 : data.drop 0 = be64 networkId ++ (flags :: ((gatherLimit.map be32).getD [] ++
      ((sourceMac.map ByteVec.toBytes).getD [] ++ (destMac.toBytes ++ (be32 adi ++ (be16 ethertype ++ payload)))))) := rfl
  have h8 : data.drop 8 = _ := drop_behind h0 (length_be64 _)
  have h9 : data.drop 9 = _ := drop_behind_cons h8
  have hlimit : flags &&& 0x02 ≠ 0 ↔ gatherLimit.isSome := hp.limit
  have hsource : flags &&& 0x04 ≠ 0 ↔ sourceMac.isSome := hp.source
  unfold parse
  simp only [byteAt_of_drop h8, u64At_of_drop h0, hlimit, hsource]
  -- The optional parts decide where the rest starts.
  cases gatherLimit with
  | none =>
    cases sourceMac with
    | none =>
      obtain ⟨hmac, hadi, hethertype, hpayload, hlen⟩ := tail_of_drop h9
      simp [hmac, hadi, hethertype, hpayload, Nat.not_lt.mpr hlen, show ¬ data.length < 9 by omega]
    | some mac =>
      have h15 : data.drop 15 = _ := drop_behind (a := mac.toBytes) h9 (ByteVec.length_toBytes _)
      obtain ⟨hmac, hadi, hethertype, hpayload, hlen⟩ := tail_of_drop h15
      simp [hmac, hadi, hethertype, hpayload, Nat.not_lt.mpr hlen, show ¬ data.length < 9 by omega,
        show ¬ data.length < 15 by omega, show fieldAt 6 data 9 = mac from fieldAt_of_drop h9]
  | some limit =>
    have h13 : data.drop 13 = _ := drop_behind (a := be32 limit) h9 (length_be32 _)
    cases sourceMac with
    | none =>
      obtain ⟨hmac, hadi, hethertype, hpayload, hlen⟩ := tail_of_drop h13
      simp [hmac, hadi, hethertype, hpayload, Nat.not_lt.mpr hlen, show ¬ data.length < 9 by omega,
        show ¬ data.length < 13 by omega, show u32At data 9 = limit from u32At_of_drop h9]
    | some mac =>
      have h19 : data.drop 19 = _ := drop_behind (a := mac.toBytes) h13 (ByteVec.length_toBytes _)
      obtain ⟨hmac, hadi, hethertype, hpayload, hlen⟩ := tail_of_drop h19
      simp [hmac, hadi, hethertype, hpayload, Nat.not_lt.mpr hlen, show ¬ data.length < 9 by omega,
        show ¬ data.length < 13 by omega, show ¬ data.length < 19 by omega,
        show u32At data 9 = limit from u32At_of_drop h9, show fieldAt 6 data 13 = mac from fieldAt_of_drop h13]

end MulticastFramePayload

/-! ### Direct paths -/

namespace PushDirectPathsPayload

def serializePath (p : DirectPath) : Bytes := be16 p.flags ++ (be16 0 ++ serializeTypedAddress p.address)

/-- The bytes of an address and its port behind a length byte. -/
theorem addressParts_of_drop {n : Nat} {data rest : Bytes} {off : Nat} {b : UInt8} {ip : ByteVec n} {port : UInt16}
    (h : data.drop (off + 1) = b :: (ip.toBytes ++ (be16 port ++ rest))) :
    off + 2 + (n + 2) ≤ data.length ∧ fieldAt n data (off + 2) = ip ∧ u16At data (off + 2 + n) = port ∧
      data.drop (off + 2 + (n + 2)) = rest := by
  have hip : data.drop (off + 2) = _ := drop_behind_cons h
  have hport := drop_behind hip (ByteVec.length_toBytes _)
  have hrest := drop_behind hport (length_be16 _)
  have hlen := length_of_drop hport (by simp)
  rw [length_be16] at hlen
  exact ⟨by omega, fieldAt_of_drop hip, u16At_of_drop hport, hrest⟩

/-- An address behind its type byte and its length byte. -/
theorem typedAddress_serialize {data rest : Bytes} {off : Nat} (a : InetAddress)
    (h : data.drop off = serializeTypedAddress a ++ rest) :
    off + 2 + (byteAt data (off + 1)).toNat ≤ data.length ∧
      typedAddressOf data (off + 2) (byteAt data (off + 1)).toNat = .ok a ∧
      data.drop (off + 2 + (byteAt data (off + 1)).toNat) = rest := by
  cases a with
  | null =>
    have hsize : data.drop (off + 1) = 0 :: rest := drop_behind_cons h
    have hrest : data.drop (off + 2) = rest := drop_behind_cons hsize
    have hlen := length_of_drop (a := [0]) hsize Nat.zero_lt_one
    rw [List.length_singleton] at hlen
    rw [byteAt_of_drop hsize]
    exact ⟨by simp only [UInt8.toNat_zero]; omega, rfl, hrest⟩
  | v4 ip port =>
    have hsize : data.drop (off + 1) = 6 :: (ip.toBytes ++ (be16 port ++ rest)) := by
      rw [drop_behind_cons h]
      exact congrArg (6 :: ·) (List.append_assoc ..)
    obtain ⟨hlen, hip, hport, hrest⟩ := addressParts_of_drop hsize
    rw [byteAt_of_drop hsize, typedAddressOf]
    simp only [show (6 : UInt8).toNat = 6 from rfl, if_true]
    rw [hip, hport]
    exact ⟨hlen, rfl, hrest⟩
  | v6 ip port =>
    have hsize : data.drop (off + 1) = 18 :: (ip.toBytes ++ (be16 port ++ rest)) := by
      rw [drop_behind_cons h]
      exact congrArg (18 :: ·) (List.append_assoc ..)
    obtain ⟨hlen, hip, hport, hrest⟩ := addressParts_of_drop hsize
    rw [byteAt_of_drop hsize, typedAddressOf]
    simp only [show (18 : UInt8).toNat = 18 from rfl, if_true, show ¬ 18 = 6 by omega, if_false]
    rw [hip, hport]
    exact ⟨hlen, rfl, hrest⟩

theorem pathsOf_serialize (data : Bytes) (paths : List DirectPath) (offset : Nat)
    (h : data.drop offset = paths.flatMap serializePath) : pathsOf data paths.length offset = .ok paths := by
  induction paths generalizing offset with
  | nil => rfl
  | cons p paths ih =>
    have hflags : data.drop offset = be16 p.flags ++ (be16 0 ++ (serializeTypedAddress p.address ++
        paths.flatMap serializePath)) := by
      rw [h, List.flatMap_cons, serializePath]
      simp only [List.append_assoc]
    have hext := drop_behind hflags (length_be16 _)
    have haddress : data.drop (offset + 4) = _ := (drop_behind hext (length_be16 _) :)
    obtain ⟨hlen, hread, hrest⟩ := typedAddress_serialize p.address haddress
    have hskip : (u16At data (offset + 2)).toNat = 0 := by
      rw [u16At_of_drop hext]
      rfl
    rw [List.length_cons, pathsOf, if_neg (by omega)]
    simp only [hskip, Nat.add_zero]
    rw [if_neg (by omega), if_neg (by omega), hread, ok_bind, ih _ hrest, u16At_of_drop hflags]
    rfl

theorem deserialize_serialize (paths : List DirectPath) (hpaths : paths.length ≤ maxPrefixed) :
    deserialize (serialize paths) = .ok paths := by
  set data := serialize paths with hdata
  have h0 : data.drop 0 = be16 (UInt16.ofNat paths.length) ++ paths.flatMap serializePath := rfl
  have hcount : (u16At data 0).toNat = paths.length := by
    rw [u16At_of_drop h0]
    exact toNat_lengthPrefix hpaths
  have hlen := length_of_drop h0 (by simp)
  rw [length_be16] at hlen
  rw [deserialize, if_neg (by omega), hcount]
  exact pathsOf_serialize data paths 2 (drop_behind h0 (length_be16 _))

end PushDirectPathsPayload

/-- Every payload reads back as it was written, and a certificate that was read is written
back as the bytes it took. -/
theorem payloads_lossless :
    (∀ p : NetworkConfigRequestPayload, p.dictData.length ≤ maxPrefixed →
      NetworkConfigRequestPayload.deserialize p.serialize = .ok p) ∧
    (∀ p : NetworkConfigPayload, p.WellFormed → NetworkConfigPayload.deserialize p.serialize = .ok p) ∧
    (∀ c : CertificateOfMembership, c.WellFormed →
      CertificateOfMembership.deserialize c.serialize = .ok (c, c.serialize.length)) ∧
    (∀ p : NetworkCredentialsPayload, p.WellFormed → NetworkCredentialsPayload.deserialize p.serialize = .ok p) ∧
    (∀ p : HelloPayload, HelloPayload.deserialize p.serialize =
      .ok ({ p with identity := p.identity.withoutSecret }, p.serialize.length)) ∧
    (∀ p : OkPayload, p.WellFormed →
      OkPayload.deserialize p.serialize = .ok { p with subPayload := p.subPayload.withoutSecrets }) ∧
    (∀ groups, MulticastLikePayload.deserialize (MulticastLikePayload.serialize groups) = .ok groups) ∧
    (∀ p : MulticastGatherPayload, p.com ≠ some [] → MulticastGatherPayload.deserialize p.serialize = .ok p) ∧
    (∀ p : MulticastFramePayload, p.WellFormed → MulticastFramePayload.parse p.serialize = .ok p) ∧
    (∀ paths, paths.length ≤ maxPrefixed →
      PushDirectPathsPayload.deserialize (PushDirectPathsPayload.serialize paths) = .ok paths) ∧
    ∀ data c consumed, CertificateOfMembership.deserialize data = .ok (c, consumed) →
      consumed ≤ data.length ∧ c.serialize = data.take consumed := by
  refine ⟨fun p => p.deserialize_serialize, fun p => p.deserialize_serialize, fun c hc => ?_,
    fun p => p.deserialize_serialize, fun p => ?_, fun p => p.deserialize_serialize,
    MulticastLikePayload.deserialize_serialize, fun p => p.deserialize_serialize, fun p => p.parse_serialize,
    PushDirectPathsPayload.deserialize_serialize, fun _ _ _ => CertificateOfMembership.serialize_of_deserialize⟩
  · simpa using c.deserialize_serialize hc []
  · simpa using p.deserialize_serialize [] (by simp)

/-- Credentials with an unsigned certificate, a chunk of a configuration, an answer to a HELLO,
a frame with its source and no limit, and two paths. -/
theorem payloads_lossless_samples :
    let com : CertificateOfMembership :=
      ⟨⟨[0, 0, 0, 0, 7], rfl⟩, [⟨2, 7, 0⟩, ⟨2, 8, 0⟩], ByteVec.zero 5, ByteVec.zero 96⟩
    let credentials : NetworkCredentialsPayload := ⟨some com, [1], [], [2, 3], []⟩
    let config : NetworkConfigPayload := ⟨5, [1], some 0, some 1, some 2, some 3, some 1, some [9]⟩
    let answer : OkPayload := ⟨.hello, 4, .hello 1 11 1 14 2 none⟩
    let frame : MulticastFramePayload := ⟨5, 4, none, some (ByteVec.zero 6), ByteVec.zero 6, 0, 0x0800, [1, 2]⟩
    let paths : List DirectPath := [⟨0, .null⟩, ⟨1, .v4 (ByteVec.zero 4) 9993⟩]
    NetworkCredentialsPayload.deserialize credentials.serialize = .ok credentials ∧
      NetworkConfigPayload.deserialize config.serialize = .ok config ∧
      OkPayload.deserialize answer.serialize = .ok answer ∧
      MulticastFramePayload.parse frame.serialize = .ok frame ∧
      PushDirectPathsPayload.deserialize (PushDirectPathsPayload.serialize paths) = .ok paths := by
  intro com credentials config answer frame paths
  have hcom : com.WellFormed := ⟨by decide, fun _ => rfl, by decide⟩
  obtain ⟨-, hconfig, -, hcredentials, -, hok, -, -, hframe, hpaths, -⟩ := payloads_lossless
  refine ⟨hcredentials credentials ⟨?_, by decide, by decide, by decide, by decide⟩,
    hconfig config ⟨by decide, .inl ⟨_, _, _, _, _, _, rfl⟩, ?_⟩, hok answer ⟨rfl, by decide⟩,
    hframe frame ⟨by decide, by decide⟩, hpaths paths (by decide)⟩
  · rintro _ ⟨⟩
    exact hcom
  · rintro _ ⟨⟩
    decide

end ManyTier
