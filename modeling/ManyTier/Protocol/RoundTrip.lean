import ManyTier.Lib.Run
import ManyTier.Protocol.Control

/-! Payloads read back as they were written.

A payload is written front to back and read with explicit offsets; each lemma follows the
parts of the payload in that order. An identity reads back without its secret. -/
namespace ManyTier

/-- The identity another party reads. -/
def Identity.withoutSecret (i : Identity) : Identity := { i with secret := none }

/-! ### HELLO -/

namespace HelloPayload

def serializeMoons (records : List (UInt64 × UInt64)) : Bytes := records.flatMap fun r => be64 r.1 ++ be64 r.2

theorem length_serializeMoons (records : List (UInt64 × UInt64)) :
    (serializeMoons records).length = 16 * records.length := by
  induction records with
  | nil => rfl
  | cons r rest ih =>
    rw [serializeMoons, List.flatMap_cons, List.length_append, ← serializeMoons, ih]
    simp
    omega

theorem moonRecordsOf_serializeMoons (records : List (UInt64 × UInt64)) (rest : Bytes) :
    moonRecordsOf records.length (serializeMoons records ++ rest) = records := by
  induction records with
  | nil => rfl
  | cons r records ih =>
    obtain ⟨id, timestamp⟩ := r
    have hsplit : serializeMoons ((id, timestamp) :: records) ++ rest =
        be64 id ++ (be64 timestamp ++ (serializeMoons records ++ rest)) := by
      simp [serializeMoons]
    have hdrop : (serializeMoons ((id, timestamp) :: records) ++ rest).drop 16 = serializeMoons records ++ rest := by
      rw [hsplit, ← List.append_assoc]
      exact List.drop_left' (by simp)
    rw [List.length_cons, moonRecordsOf, hdrop, ih, hsplit]
    simp [u64At_append]

theorem serialize_eq (p : HelloPayload) : p.serialize = p.protocolVersion :: p.majorVersion :: p.minorVersion ::
    (be16 p.revision ++ (be64 p.timestamp ++ (IdentityWire.serializeIdentityPublic p.identity ++
      (p.destAddress.serialize ++ (be64 p.planetWorldId ++ (be64 p.planetWorldTimestamp ++
        serializeMoons p.moonRecords)))))) := rfl

/-- A HELLO reads back; what follows it is left over if it is too short for a record. -/
theorem deserialize_serialize (p : HelloPayload) (rest : Bytes) (hrest : rest.length < 16) :
    deserialize (p.serialize ++ rest) =
      .ok ({ p with identity := p.identity.withoutSecret }, p.serialize.length) := by
  set data := p.serialize ++ rest with hdata
  have h3 : data.drop 3 = be16 p.revision ++ (be64 p.timestamp ++ (IdentityWire.serializeIdentityPublic p.identity ++
      (p.destAddress.serialize ++ (be64 p.planetWorldId ++ (be64 p.planetWorldTimestamp ++
        (serializeMoons p.moonRecords ++ rest)))))) := by
    simp [hdata, serialize_eq]
  have h5 : data.drop 5 = _ := drop_behind h3 (length_be16 _)
  have h13 : data.drop 13 = _ := drop_behind h5 (length_be64 _)
  have haddr : data.drop (13 + 71) = _ := drop_behind h13 (IdentityWire.length_serializeIdentityPublic _)
  have hworld := drop_behind haddr rfl
  have htime := drop_behind hworld (length_be64 _)
  have hmoons := drop_behind htime (length_be64 _)
  have hlength : p.serialize.length = 13 + 71 + p.destAddress.serialize.length + 16 + 16 * p.moonRecords.length := by
    simp [serialize_eq, length_serializeMoons, IdentityWire.publicWireLen]
    omega
  have hlen : data.length = p.serialize.length + rest.length := List.length_append
  have hcount : (data.length - (13 + 71 + p.destAddress.serialize.length + 16)) / 16 = p.moonRecords.length := by
    omega
  have hlong : ¬ data.length < 13 + 71 + p.destAddress.serialize.length + 16 := by omega
  have hrevision := u16At_of_drop h3
  have htimestamp := u64At_of_drop h5
  have hid := u64At_of_drop hworld
  have hts := u64At_of_drop htime
  unfold deserialize
  rw [if_neg (by omega), h13, IdentityWire.deserializeIdentity_serialize, ok_bind]
  simp only [IdentityWire.publicWireLen]
  rw [haddr, InetAddress.deserialize_serialize, ok_bind]
  simp only [hlong, if_false, hcount, hmoons, moonRecordsOf_serializeMoons, hrevision, htimestamp, hid, hts, hlength]
  rfl

end HelloPayload

/-! ### OK -/

/-- The sub-payload another party reads. -/
def OkSubPayload.withoutSecrets : OkSubPayload → OkSubPayload
  | .whois identities => .whois (identities.map Identity.withoutSecret)
  | sub => sub

namespace OkPayload

/-- The sub-payload is of the kind of the verb it answers, and a world update is not
empty. -/
def WellFormed (p : OkPayload) : Prop :=
  match p.subPayload with
  | .hello _ _ _ _ _ worldUpdate => p.inReVerb = .hello ∧ worldUpdate ≠ some []
  | .whois _ => p.inReVerb = .whois
  | .generic _ => p.inReVerb ≠ .hello ∧ p.inReVerb ≠ .whois

/-- Each identity takes at least one turn, and there are as many turns as bytes. -/
theorem identitiesOf_serialize (identities : List Identity) (fuel : Nat) (hfuel : identities.length ≤ fuel) :
    identitiesOf fuel (identities.flatMap IdentityWire.serializeIdentityPublic) =
      .ok (identities.map Identity.withoutSecret) := by
  induction identities generalizing fuel with
  | nil => cases fuel <;> rfl
  | cons identity rest ih =>
    obtain ⟨fuel, rfl⟩ : ∃ k, fuel = k + 1 := ⟨fuel - 1, by simp only [List.length_cons] at hfuel; omega⟩
    set tail := rest.flatMap IdentityWire.serializeIdentityPublic with htail
    have hsplit : (identity :: rest).flatMap IdentityWire.serializeIdentityPublic =
        IdentityWire.serializeIdentityPublic identity ++ tail := List.flatMap_cons
    have hnonempty : (IdentityWire.serializeIdentityPublic identity ++ tail).isEmpty = false := by
      simp [IdentityWire.serializeIdentityPublic]
    have hdrop : (IdentityWire.serializeIdentityPublic identity ++ tail).drop IdentityWire.publicWireLen = tail :=
      List.drop_left' (IdentityWire.length_serializeIdentityPublic identity)
    rw [hsplit, identitiesOf, hnonempty, if_neg Bool.false_ne_true, IdentityWire.deserializeIdentity_serialize, ok_bind]
    simp only [hdrop]
    rw [ih fuel (by simp only [List.length_cons] at hfuel; omega)]
    rfl

theorem length_identities (identities : List Identity) :
    (identities.flatMap IdentityWire.serializeIdentityPublic).length = 71 * identities.length := by
  induction identities with
  | nil => rfl
  | cons identity rest ih =>
    rw [List.flatMap_cons, List.length_append, ih, List.length_cons, IdentityWire.length_serializeIdentityPublic,
      IdentityWire.publicWireLen]
    omega

/-- The parts in front of the sub-payload. -/
theorem drop_serialize (p : OkPayload) : p.serialize.drop 9 = serializeSub p.subPayload := by
  rw [serialize]
  exact List.drop_left' (by simp)

/-- An OK reads back. -/
theorem deserialize_serialize (p : OkPayload) (hp : p.WellFormed) :
    deserialize p.serialize = .ok { p with subPayload := p.subPayload.withoutSecrets } := by
  obtain ⟨verb, packetId, sub⟩ := p
  set data := serialize ⟨verb, packetId, sub⟩ with hdata
  have hverb : Verb.fromByte (byteAt data 0) = some verb := Verb.fromByte_toByte verb
  have hbehind : data.drop 1 = be64 packetId ++ serializeSub sub := rfl
  have hid : u64At data 1 = packetId := u64At_of_drop hbehind
  have hsub : data.drop 9 = serializeSub sub := drop_serialize ⟨verb, packetId, sub⟩
  have hlong : ¬ data.length < 9 := by simp [hdata, serialize]
  cases sub with
  | hello timestampEcho protocolVersion majorVersion minorVersion revision worldUpdate =>
    obtain ⟨rfl, hworld⟩ := hp
    set sub := serializeSub (.hello timestampEcho protocolVersion majorVersion minorVersion revision worldUpdate) with hs
    have h0 : sub.drop 0 = be64 timestampEcho ++ (protocolVersion :: majorVersion :: minorVersion ::
        (be16 revision ++ worldUpdate.getD [])) := rfl
    have h8 : sub.drop 8 = _ := drop_behind h0 (length_be64 _)
    have h9 : sub.drop 9 = _ := drop_behind_cons h8
    have h10 : sub.drop 10 = _ := drop_behind_cons h9
    have h11 : sub.drop 11 = _ := drop_behind_cons h10
    have h13 : sub.drop 13 = _ := drop_behind h11 (length_be16 _)
    have hlen : sub.length = 13 + (worldUpdate.getD []).length := by
      simp [hs, serializeSub]
      omega
    have hupdate : (if 13 < sub.length then some (sub.drop 13) else none) = worldUpdate := by
      rw [h13, hlen]
      cases worldUpdate with
      | none => rfl
      | some update =>
        have hpos : 0 < update.length := List.length_pos_iff.mpr fun h => hworld (by rw [h])
        simp [hpos]
    have hecho := u64At_of_drop h0
    have hrevision := u16At_of_drop h11
    unfold deserialize
    rw [if_neg hlong, hverb]
    simp only [hsub]
    rw [if_neg (by omega), hupdate, hid, hecho, byteAt_of_drop h8, byteAt_of_drop h9,
      byteAt_of_drop h10, hrevision]
    rfl
  | whois identities =>
    obtain rfl : verb = .whois := hp
    have hfuel : identities.length ≤ (serializeSub (.whois identities)).length := by
      rw [serializeSub, length_identities]
      omega
    unfold deserialize
    rw [if_neg hlong, hverb]
    simp only [hsub, hid]
    have hread : identitiesOf (serializeSub (.whois identities)).length (serializeSub (.whois identities)) = _ :=
      identitiesOf_serialize identities _ hfuel
    rw [hread]
    rfl
  | generic payload => exact deserialize_serialize_generic verb packetId payload hp.1 hp.2

end OkPayload

end ManyTier
