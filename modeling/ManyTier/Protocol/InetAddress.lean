import ManyTier.Crypto.Identity
import ManyTier.Protocol.Header

/-! Socket addresses and identities on the wire. -/
namespace ManyTier

/-- The transport address a datagram came from or goes to. -/
inductive SocketAddr where
  | v4 (ip : ByteVec 4) (port : UInt16)
  | v6 (ip : ByteVec 16) (port : UInt16) (flowinfo scopeId : UInt32)
  deriving DecidableEq

inductive InetAddress where
  | null
  | v4 (ip : ByteVec 4) (port : UInt16)
  | v6 (ip : ByteVec 16) (port : UInt16)
  deriving DecidableEq

namespace InetAddress

def serialize : InetAddress → Bytes
  | null => [0x00]
  | v4 ip port => 0x04 :: (ip.toBytes ++ be16 port)
  | v6 ip port => 0x06 :: (ip.toBytes ++ be16 port)

/-- An address and how many bytes it took. -/
def deserialize (data : Bytes) : Except ProtocolError (InetAddress × Nat) :=
  if data.isEmpty then .error (.tooShort 1 0)
  else if byteAt data 0 = 0x00 then .ok (null, 1)
  else if byteAt data 0 = 0x04 then
    if data.length < 7 then .error (.tooShort 7 data.length)
    else .ok (v4 (fieldAt 4 data 1) (u16At data 5), 7)
  else if byteAt data 0 = 0x06 then
    if data.length < 19 then .error (.tooShort 19 data.length)
    else .ok (v6 (fieldAt 16 data 1) (u16At data 17), 19)
  else .error .invalidPacket

def toSocketAddr : InetAddress → Option SocketAddr
  | null => none
  | v4 ip port => some (.v4 ip port)
  | v6 ip port => some (.v6 ip port 0 0)

def fromSocketAddr : SocketAddr → InetAddress
  | .v4 ip port => v4 ip port
  | .v6 ip port _ _ => v6 ip port

theorem deserialize_serialize (a : InetAddress) (rest : Bytes) :
    deserialize (a.serialize ++ rest) = .ok (a, a.serialize.length) := by
  cases a with
  | null => rfl
  | v4 ip port =>
    simp [deserialize, serialize, u16At_append]
    omega
  | v6 ip port =>
    simp [deserialize, serialize, u16At_append]
    omega

/-- What was read is what stands there. -/
theorem deserialize_eq_ok {data : Bytes} {a : InetAddress} {consumed : Nat}
    (h : deserialize data = .ok (a, consumed)) :
    ∃ rest, data = a.serialize ++ rest ∧ consumed = a.serialize.length := by
  have hfield : ∀ (n : Nat) (tag : UInt8), byteAt data 0 = tag → n + 3 ≤ data.length →
      ∃ rest, data = tag :: ((fieldAt n data 1).toBytes ++ be16 (u16At data (n + 1))) ++ rest := by
    intro n tag htag hlen
    obtain ⟨first, rest, rfl⟩ : ∃ first rest, data = first :: rest := by
      cases data with
      | nil => simp at hlen
      | cons first rest => exact ⟨first, rest, rfl⟩
    have hrest : n + 2 ≤ rest.length := by simpa using hlen
    have hip : (fieldAt n (first :: rest) 1).toBytes = rest.take n := by
      rw [fieldAt, ByteVec.toBytes_ofBytes _ _ (by simp; omega)]
      rfl
    have hslice : (slice (first :: rest) (n + 1) 2).length = 2 := by simp [slice]; omega
    refine ⟨rest.drop (n + 2), ?_⟩
    rw [hip, u16At, be16_ofBe16 hslice, slice_cons_succ, slice]
    have hsplit : rest.take n ++ (rest.drop n).take 2 = rest.take (n + 2) := List.take_add.symm
    rw [hsplit, List.cons_append, List.take_append_drop]
    rw [← htag]
    rfl
  unfold deserialize at h
  split at h
  · cases h
  · rename_i hnonempty
    split at h
    · rename_i htag
      obtain ⟨rfl, rfl⟩ := Prod.mk.inj (Except.ok.inj h)
      cases data with
      | nil => simp at hnonempty
      | cons first rest =>
        obtain rfl : first = 0x00 := htag
        exact ⟨rest, rfl, rfl⟩
    · split at h
      · rename_i htag
        split at h
        · cases h
        · rename_i hlen
          obtain ⟨rfl, rfl⟩ := Prod.mk.inj (Except.ok.inj h)
          obtain ⟨rest, heq⟩ := hfield 4 0x04 htag (by omega)
          exact ⟨rest, heq, by simp [serialize]⟩
      · split at h
        · rename_i htag
          split at h
          · cases h
          · rename_i hlen
            obtain ⟨rfl, rfl⟩ := Prod.mk.inj (Except.ok.inj h)
            obtain ⟨rest, heq⟩ := hfield 16 0x06 htag (by omega)
            exact ⟨rest, heq, by simp [serialize]⟩
        · cases h

end InetAddress

namespace IdentityWire

def identityTypeC25519 : UInt8 := 0
def publicWireLen : Nat := 71

def serializeIdentityPublic (i : Identity) : Bytes :=
  i.address.bytes.toBytes ++ (identityTypeC25519 ::
    (i.publicKey.dh.toBytes ++ (i.publicKey.signing.toBytes ++ [0x00])))

/-- An identity without its secret and how many bytes it took; the bytes of a
secret that follows are skipped. -/
def deserializeIdentity (data : Bytes) : Except ProtocolError (Identity × Nat) :=
  if data.length < publicWireLen then .error (.tooShort publicWireLen data.length)
  else
    match Address.new (fieldAt 5 data 0) with
    | .error _ => .error .invalidAddress
    | .ok address =>
      if byteAt data 5 ≠ identityTypeC25519 then .error .invalidPacket
      else
        let publicKey : PublicKey := ⟨fieldAt 32 data 6, fieldAt 32 data 38⟩
        let consumed := publicWireLen + (byteAt data 70).toNat
        if data.length < consumed then .error (.tooShort consumed data.length)
        else .ok ({ address, publicKey, secret := none }, consumed)

@[simp] theorem length_serializeIdentityPublic (i : Identity) :
    (serializeIdentityPublic i).length = publicWireLen := by
  simp [serializeIdentityPublic, publicWireLen]

theorem deserializeIdentity_serialize (i : Identity) (rest : Bytes) :
    deserializeIdentity (serializeIdentityPublic i ++ rest) =
      .ok ({ i with secret := none }, publicWireLen) := by
  have hlen : ¬ (serializeIdentityPublic i ++ rest).length < publicWireLen := by simp
  have hsplit : serializeIdentityPublic i ++ rest = i.address.bytes.toBytes ++
      (identityTypeC25519 :: (i.publicKey.dh.toBytes ++ (i.publicKey.signing.toBytes ++
        (0x00 :: rest)))) := by
    simp [serializeIdentityPublic]
  unfold deserializeIdentity
  rw [if_neg hlen, hsplit]
  simp [byteAt_append, fieldAt_append_right, identityTypeC25519, publicWireLen]
  omega

end IdentityWire

end ManyTier
