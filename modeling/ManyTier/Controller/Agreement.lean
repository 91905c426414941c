import ManyTier.Controller.Trust

/-! When the certificates of two members agree.

A controller signs a certificate over its three qualifiers in ascending order. A reader
looks a qualifier up by its id and sorts before it verifies, so neither the order of the
qualifiers nor a passage over the wire makes a difference (`Carried.same`). What is left to
agree on is the network, and the time within the tolerance (`verifyPeerCom_iff`). -/
namespace ManyTier

namespace CertificateOfMembership
variable {c d : CertificateOfMembership}

/-- What becomes of a certificate: its qualifiers in another order, or what is read of its
bytes. -/
inductive Carried (c : CertificateOfMembership) : CertificateOfMembership → Prop where
  | built : Carried c c
  | reordered {d : CertificateOfMembership} (qualifiers : List ComQualifier) :
      Carried c d → qualifiers.Perm d.qualifiers → Carried c { d with qualifiers }
  | reread {d d' : CertificateOfMembership} {rest : Bytes} {consumed : Nat} :
      Carried c d → deserialize (d.serialize ++ rest) = .ok (d', consumed) → Carried c d'

/-- The same certificate but for the order of its qualifiers. -/
structure Same (c d : CertificateOfMembership) : Prop where
  issuedTo : d.issuedTo = c.issuedTo
  qualifiers : d.qualifiers.Perm c.qualifiers
  signerAddress : d.signerAddress = c.signerAddress
  signature : d.signature = c.signature

/-- A certificate whose qualifiers have an id each is read as it is, in any order. -/
theorem Same.wellFormed (h : Same c d) (hc : c.WellFormed) (hids : (c.qualifiers.map ComQualifier.id).Nodup) :
    d.WellFormed where
  issued := by
    rw [h.issuedTo, hc.issued, issuedToOf, issuedToOf, find?_perm hids h.qualifiers]
  unsigned := fun hsigner => h.signature.trans (hc.unsigned (h.signerAddress.symm.trans hsigner))
  count := by
    rw [h.qualifiers.length_eq]
    exact hc.count

theorem Carried.same (h : Carried c d) (hc : c.WellFormed) (hids : (c.qualifiers.map ComQualifier.id).Nodup) :
    Same c d := by
  induction h with
  | built => exact ⟨rfl, .refl _, rfl, rfl⟩
  | reordered qualifiers _ hperm ih => exact ⟨ih.issuedTo, hperm.trans ih.qualifiers, ih.signerAddress, ih.signature⟩
  | @reread d d' rest consumed _ hread ih =>
    have hsame := deserialize_serialize d (ih.wellFormed hc hids) rest
    obtain ⟨rfl, -⟩ := Prod.mk.inj (Except.ok.inj (hsame.symm.trans hread))
    exact ih

end CertificateOfMembership

open CertificateOfMembership

/-! ### Reading -/

/-- A signature is checked over the qualifiers in one order. -/
theorem comVerifySignature_same (pr : Primitives) {c d : CertificateOfMembership} (h : Same c d)
    (hids : (c.qualifiers.map ComQualifier.id).Nodup) (key : ByteVec 32) :
    comVerifySignature pr d key = comVerifySignature pr c key := by
  rw [comVerifySignature, comVerifySignature, comSignedData, comSignedData, insertionSort_perm hids h.qualifiers,
    h.signature]

/-- Qualifiers are looked up one by one. -/
theorem peerComAgreesWith_same {ours ours' theirs theirs' : CertificateOfMembership} (h : Same ours ours')
    (h' : Same theirs theirs') (hids : (theirs.qualifiers.map ComQualifier.id).Nodup) :
    peerComAgreesWith ours' theirs' = peerComAgreesWith ours theirs := by
  have hfind : ∀ id : UInt64, (theirs'.qualifiers.find? fun other => other.id = id) =
      theirs.qualifiers.find? fun other => other.id = id := find?_perm hids h'.qualifiers
  simp only [peerComAgreesWith, hfind]
  exact h.qualifiers.all_eq

theorem toNat_absDiff (a b : UInt64) : ((absDiff a b).toNat : Int) = |(a.toNat : Int) - b.toNat| := by
  unfold absDiff
  split
  · rename_i h
    have hle := UInt64.le_iff_toNat_le.mp h
    rw [UInt64.toNat_sub_of_le _ _ h, abs_of_nonpos (by omega)]
    omega
  · rename_i h
    have hlt := UInt64.lt_iff_toNat_lt.mp (UInt64.not_le.mp h)
    rw [UInt64.toNat_sub_of_le _ _ (UInt64.le_iff_toNat_le.mpr hlt.le), abs_of_nonneg (by omega)]
    omega

namespace Controller

/-! ### Certificates of a controller -/

section
variable (pr : Primitives) (signingKey : ByteVec 32) (controllerAddress : ByteVec 5)

theorem ids_buildSignedCom (networkId issuedTo timestamp : UInt64) :
    ((buildSignedCom pr signingKey controllerAddress networkId issuedTo timestamp).qualifiers.map ComQualifier.id).Nodup := by
  show [0, 1, 2].Nodup
  decide

/-- Two certificates agree on the network and, within the tolerance, on the time. -/
theorem buildSignedCom_agrees_iff (n₁ n₂ a b t₁ t₂ : UInt64) :
    peerComAgreesWith (buildSignedCom pr signingKey controllerAddress n₁ a t₁)
      (buildSignedCom pr signingKey controllerAddress n₂ b t₂) = true ↔
      n₁ = n₂ ∧ |(t₁.toNat : Int) - t₂.toNat| ≤ 360000 := by
  have hagrees : peerComAgreesWith (buildSignedCom pr signingKey controllerAddress n₁ a t₁)
      (buildSignedCom pr signingKey controllerAddress n₂ b t₂) = true ↔
      absDiff t₁ t₂ ≤ 360000 ∧ absDiff n₁ n₂ ≤ 0 := by
    simp [peerComAgreesWith, buildSignedCom, comQualifiers]
  have htime : absDiff t₁ t₂ ≤ 360000 ↔ |(t₁.toNat : Int) - t₂.toNat| ≤ 360000 := by
    rw [← toNat_absDiff, UInt64.le_iff_toNat_le]
    exact Int.ofNat_le.symm
  have hnetwork : absDiff n₁ n₂ ≤ 0 ↔ n₁ = n₂ := by
    rw [UInt64.le_iff_toNat_le, ← UInt64.toNat_inj, ← Int.ofNat_le, toNat_absDiff]
    simp only [UInt64.toNat_zero, Nat.cast_zero, abs_nonpos_iff, sub_eq_zero, Nat.cast_inj]
  rw [hagrees, htime, hnetwork, and_comm]

end

/-- A membership with one certificate of a controller accepts another one exactly if they
are for one network and of about the same time, whatever order their qualifiers are in and
however often they have been read back; the other way round it is the same. -/
theorem verifyPeerCom_iff {pr : Primitives} (hverify : Signing.VerifiesOwn pr) (signingKey : ByteVec 32)
    {controllerAddress : ByteVec 5} (hcontroller : controllerAddress ≠ ByteVec.zero 5) (n₁ n₂ a b t₁ t₂ : UInt64)
    {first second : CertificateOfMembership}
    (hfirst : Carried (buildSignedCom pr signingKey controllerAddress n₁ a t₁) first)
    (hsecond : Carried (buildSignedCom pr signingKey controllerAddress n₂ b t₂) second)
    {ours theirs : NetworkMembership} (hours : ours.ourCom = some first) (htheirs : theirs.ourCom = some second)
    (peer peer' : ByteVec 5) :
    (ours.verifyPeerCom pr peer second controllerAddress (some (pr.ed25519Public signingKey)) = true ↔
      n₁ = n₂ ∧ |(t₁.toNat : Int) - t₂.toNat| ≤ 360000) ∧
    (theirs.verifyPeerCom pr peer' first controllerAddress (some (pr.ed25519Public signingKey)) = true ↔
      n₁ = n₂ ∧ |(t₁.toNat : Int) - t₂.toNat| ≤ 360000) ∧
    (∀ rest, CertificateOfMembership.deserialize (first.serialize ++ rest) = .ok (first, first.serialize.length)) ∧
    ∀ rest, CertificateOfMembership.deserialize (second.serialize ++ rest) = .ok (second, second.serialize.length) := by
  have hids := ids_buildSignedCom pr signingKey controllerAddress
  have hsame₁ := hfirst.same (wellFormed_signedCom pr signingKey hcontroller n₁ a t₁) (hids n₁ a t₁)
  have hsame₂ := hsecond.same (wellFormed_signedCom pr signingKey hcontroller n₂ b t₂) (hids n₂ b t₂)
  have hsigned : ∀ n issuedTo t c, Same (buildSignedCom pr signingKey controllerAddress n issuedTo t) c →
      (c.signerAddress = controllerAddress && comVerifySignature pr c (pr.ed25519Public signingKey)) = true := by
    intro n issuedTo t c hsame
    rw [comVerifySignature_same pr hsame (hids n issuedTo t),
      comVerifySignature_buildSignedCom pr signingKey controllerAddress n issuedTo t hverify, hsame.signerAddress]
    simp [buildSignedCom]
  refine ⟨?_, ?_, ?_, ?_⟩
  · simp only [NetworkMembership.verifyPeerCom, hours, hsigned n₂ b t₂ second hsame₂, Bool.and_true]
    rw [peerComAgreesWith_same hsame₁ hsame₂ (hids n₂ b t₂), buildSignedCom_agrees_iff]
  · simp only [NetworkMembership.verifyPeerCom, htheirs, hsigned n₁ a t₁ first hsame₁, Bool.and_true]
    rw [peerComAgreesWith_same hsame₂ hsame₁ (hids n₁ a t₁), buildSignedCom_agrees_iff, eq_comm, abs_sub_comm]
  · exact first.deserialize_serialize (hsame₁.wellFormed (wellFormed_signedCom pr signingKey hcontroller n₁ a t₁)
      (hids n₁ a t₁))
  · exact second.deserialize_serialize (hsame₂.wellFormed (wellFormed_signedCom pr signingKey hcontroller n₂ b t₂)
      (hids n₂ b t₂))

/-- Two members, five minutes apart, the one's qualifiers in another order. -/
theorem verifyPeerCom_iff_sample :
    let first := buildSignedCom Sample.primitives (Sample.key 2) (Sample.identity 2).address.bytes Sample.networkId 1 1000
    let second := buildSignedCom Sample.primitives (Sample.key 2) (Sample.identity 2).address.bytes Sample.networkId 3 301000
    ({ NetworkMembership.new Sample.networkId 2800 with ourCom := some first }).verifyPeerCom Sample.primitives
      (Sample.identity 3).address.bytes { second with qualifiers := second.qualifiers.reverse }
      (Sample.identity 2).address.bytes (some (Sample.key 2)) = true := by
  intro first second
  set theirs : NetworkMembership := { NetworkMembership.new Sample.networkId 2800 with
    ourCom := some { second with qualifiers := second.qualifiers.reverse } }
  have htheirs : theirs.ourCom = some { second with qualifiers := second.qualifiers.reverse } := rfl
  exact (verifyPeerCom_iff Sample.verifiesOwn (Sample.key 2) (by decide) Sample.networkId Sample.networkId 1 3 1000 301000
    .built (.reordered _ .built (List.reverse_perm second.qualifiers)) rfl htheirs _ (ByteVec.zero 5)).1.mpr
    ⟨rfl, by decide⟩

end Controller

end ManyTier
