import ManyTier.Crypto.Sample
import ManyTier.Lib.Run

/-! Identities printed and read.

A printed identity is read as the identity, with its secret if that was printed, and
whatever text is read is printed again as its lower-case form
(`identityText_lossless`). -/
namespace ManyTier

/-- An ASCII character in lower case. -/
def lowerChar (c : UInt8) : UInt8 := if 0x41 ≤ c ∧ c ≤ 0x5a then c + 0x20 else c

def lowerCase (s : Bytes) : Bytes := s.map lowerChar

@[simp] theorem lowerCase_nil : lowerCase [] = [] := rfl

@[simp] theorem lowerCase_append (a b : Bytes) : lowerCase (a ++ b) = lowerCase a ++ lowerCase b := List.map_append

@[simp] theorem lowerCase_cons (c : UInt8) (s : Bytes) : lowerCase (c :: s) = lowerChar c :: lowerCase s := rfl

namespace HexUtil

/-- A digit that is read is printed in lower case. -/
theorem hexChar_nibble {c d : UInt8} (h : nibble c = .ok d) : d < 16 ∧ hexChar d = lowerChar c := by
  have hall : ∀ c : UInt8, okWith (nibble c) (fun d => d < 16 ∧ hexChar d = lowerChar c) ∨ (nibble c).toOption = none :=
    forall_byte (by decide +kernel)
  have hc := hall c
  rw [h] at hc
  rcases hc with hc | hc
  · exact of_decide_eq_true hc
  · cases hc

/-- Two digits make a byte that has them. -/
theorem nibbles_of_byte {high low : UInt8} (hhigh : high < 16) (hlow : low < 16) :
    ((high <<< 4) ||| low) >>> 4 = high ∧ ((high <<< 4) ||| low) &&& 0x0f = low := by
  have hall : ∀ high < 16, ∀ low < 16, let b := (UInt8.ofNat high <<< 4) ||| UInt8.ofNat low
      b >>> 4 = UInt8.ofNat high ∧ b &&& 0x0f = UInt8.ofNat low := by
    decide +kernel
  have h := hall high.toNat (UInt8.lt_iff_toNat_lt.mp hhigh) low.toNat (UInt8.lt_iff_toNat_lt.mp hlow)
  rwa [UInt8.ofNat_toNat, UInt8.ofNat_toNat] at h

theorem encode_decodePairs {hex bytes : Bytes} (heven : hex.length % 2 = 0) (h : decodePairs hex = .ok bytes) :
    encode bytes = lowerCase hex := by
  induction hex using decodePairs.induct generalizing bytes with
  | case1 high low rest ih =>
    obtain ⟨x, hx, h⟩ := bind_eq_ok h
    obtain ⟨y, hy, h⟩ := bind_eq_ok h
    obtain ⟨more, hmore, heq⟩ := bind_eq_ok h
    obtain rfl := Except.ok.inj heq
    obtain ⟨hx16, hxchar⟩ := hexChar_nibble hx
    obtain ⟨hy16, hychar⟩ := hexChar_nibble hy
    obtain ⟨hhigh, hlow⟩ := nibbles_of_byte hx16 hy16
    rw [List.length_cons, List.length_cons] at heven
    have hrest := ih (by omega) hmore
    have hbyte : encode (((x <<< 4) ||| y) :: more) =
        hexChar (((x <<< 4) ||| y) >>> 4) :: hexChar (((x <<< 4) ||| y) &&& 0x0f) :: encode more := rfl
    rw [hbyte, hhigh, hlow, hxchar, hychar, hrest]
    rfl
  | case2 hex hshort =>
    obtain rfl := Except.ok.inj (h.symm.trans (decodePairs.eq_2 hex hshort))
    cases hex with
    | nil => rfl
    | cons c rest =>
      cases rest with
      | nil => cases heven
      | cons d rest => exact absurd rfl (hshort c d rest)

/-- What is decoded is encoded as the lower-case form. -/
theorem encode_decode {hex bytes : Bytes} (h : decode hex = .ok bytes) : encode bytes = lowerCase hex := by
  unfold decode at h
  split at h
  · cases h
  · rename_i heven
    exact encode_decodePairs (not_not.mp heven) h

end HexUtil

theorem Address.toHex_of_fromHex {hex : Bytes} {a : Address} (h : fromHex hex = .ok a) : a.toHex = lowerCase hex := by
  unfold fromHex at h
  split at h
  · cases h
  · obtain ⟨bytes, hdecoded, h⟩ := bind_eq_ok h
    split at h
    · cases h
    · rename_i hlength
      have hbytes : (ByteVec.ofBytes 5 bytes).toBytes = bytes := by
        rw [ByteVec.toBytes_ofBytes 5 bytes (by omega), List.take_of_length_le (by omega)]
      unfold new at h
      split at h
      · cases h
      · split at h
        · cases h
        · obtain rfl := Except.ok.inj h
          rw [toHex, hbytes, HexUtil.encode_decode hdecoded]

/-- Two keys of 32 bytes, one behind the other. -/
theorem keys_toBytes {bytes : Bytes} (h : bytes.length = 64) :
    (ByteVec.ofBytes 32 bytes).toBytes ++ (fieldAt 32 bytes 32).toBytes = bytes := by
  have hback : (bytes.drop 32).take 32 = bytes.drop 32 := List.take_of_length_le (by rw [List.length_drop]; omega)
  rw [ByteVec.toBytes_ofBytes 32 bytes (by omega), toBytes_fieldAt (by omega), slice, hback, List.take_append_drop]

/-- Two keys that were decoded are encoded as the lower-case form. -/
theorem encode_keys {hex bytes : Bytes} (hdecoded : HexUtil.decode hex = .ok bytes) (h : bytes.length = 64) :
    HexUtil.encode ((ByteVec.ofBytes 32 bytes).toBytes ++ (fieldAt 32 bytes 32).toBytes) = lowerCase hex := by
  rw [keys_toBytes h, HexUtil.encode_decode hdecoded]

theorem PublicKey.toHex_of_fromHex {hex : Bytes} {k : PublicKey} (h : fromHex hex = .ok k) : k.toHex = lowerCase hex := by
  unfold fromHex at h
  split at h
  · cases h
  · obtain ⟨bytes, hdecoded, h⟩ := bind_eq_ok h
    unfold fromBytes at h
    split at h
    · cases h
    · rename_i hlength
      obtain rfl := Except.ok.inj h
      exact encode_keys hdecoded (not_not.mp hlength)

theorem SecretKey.toHex_of_fromBytes {hex bytes : Bytes} {k : SecretKey} (hdecoded : HexUtil.decode hex = .ok bytes)
    (h : fromBytes bytes = .ok k) : k.toHex = lowerCase hex := by
  unfold fromBytes at h
  split at h
  · cases h
  · rename_i hlength
    obtain rfl := Except.ok.inj h
    exact encode_keys hdecoded (not_not.mp hlength)

namespace Identity

/-- What is read from three fields and a secret. -/
theorem fields_eq_ok {addr kind key : Bytes} {secret : Except CryptoError (Option SecretKey)} {i : Identity}
    (h : (do
      let address ← Address.fromHex addr
      if kind ≠ [0x30] then throw CryptoError.unsupportedIdentityType
      let publicKey ← PublicKey.fromHex key
      return { address, publicKey, secret := ← secret } : Except CryptoError Identity) = .ok i) :
    kind = [0x30] ∧ i.address.toHex = lowerCase addr ∧ i.publicKey.toHex = lowerCase key ∧ secret = .ok i.secret := by
  obtain ⟨address, haddress, h⟩ := bind_eq_ok h
  by_cases hkind : kind = [0x30]
  · rw [if_neg (not_not.mpr hkind)] at h
    obtain ⟨publicKey, hkey, h⟩ := bind_eq_ok h
    obtain ⟨secret', hsecret, h⟩ := bind_eq_ok h
    obtain rfl := Except.ok.inj h
    exact ⟨hkind, Address.toHex_of_fromHex haddress, PublicKey.toHex_of_fromHex hkey, hsecret⟩
  · rw [if_pos hkind] at h
    cases h

/-- The text that an identity is printed as. -/
def printed (i : Identity) : Bytes := i.toSecretString.getD i.toPublicString

/-- A text that is read is printed as its lower-case form. -/
theorem printed_of_parse {s : Bytes} {i : Identity} (h : parse s = .ok i) : i.printed = lowerCase s := by
  have hjoined : [0x3a].intercalate (splitColon s) = s := List.intercalate_splitOn 0x3a
  have hcolon : lowerChar 0x3a = 0x3a := rfl
  have hzero : lowerChar 0x30 = 0x30 := rfl
  unfold parse at h
  simp only at h
  split at h
  · rename_i addr kind key hsplit
    obtain ⟨rfl, haddress, hkey, hsecret⟩ := fields_eq_ok h
    have hnone : i.secret = none := (Except.ok.inj hsecret).symm
    rw [hsplit] at hjoined
    rw [← hjoined, printed, toSecretString, hnone]
    show i.address.toHex ++ typeField ++ i.publicKey.toHex = _
    rw [haddress, hkey]
    simp [typeField, List.intercalate, hcolon, hzero]
  · rename_i addr kind key sec hsplit
    obtain ⟨rfl, haddress, hkey, hsecret⟩ := fields_eq_ok h
    split at hsecret
    · rename_i bytes hdecoded
      obtain ⟨secret, hread, heq⟩ := bind_eq_ok hsecret
      have hsome : i.secret = some secret := (Except.ok.inj heq).symm
      have hprint := SecretKey.toHex_of_fromBytes hdecoded hread
      rw [hsplit] at hjoined
      rw [← hjoined, printed, toSecretString, hsome]
      show i.address.toHex ++ typeField ++ i.publicKey.toHex ++ [0x3a] ++ secret.toHex = _
      rw [haddress, hkey, hprint]
      simp [typeField, List.intercalate, hcolon, hzero]
    · cases hsecret
  · cases h

/-! ### Printed identities -/

/-- A printed secret identity is read as it was. -/
theorem parse_secret {i : Identity} {secret : SecretKey} (h : i.secret = some secret) :
    ∃ s, i.toSecretString = some s ∧ parse s = .ok i := by
  refine ⟨i.toPublicString ++ [0x3a] ++ secret.toHex, ?_, ?_⟩
  · rw [toSecretString, h]
    rfl
  · have hkey : (0x3a : UInt8) ∉ i.publicKey.toHex := HexUtil.not_mem_encode _
    have hsecret : (0x3a : UInt8) ∉ secret.toHex := HexUtil.not_mem_encode _
    have hfields : splitColon (i.toPublicString ++ [0x3a] ++ secret.toHex) =
        [i.address.toHex, [0x30], i.publicKey.toHex, secret.toHex] := by
      rw [List.append_assoc, splitColon_toPublicString, List.singleton_append, splitColon,
        List.splitOn_append_cons_self_of_not_mem hkey, List.splitOn_eq_singleton hsecret]
    have hdecoded : HexUtil.decode secret.toHex = .ok secret.toBytes.toBytes := HexUtil.decode_encode _
    simp only [parse, hfields, Address.fromHex_toHex, PublicKey.fromHex_toHex, hdecoded, SecretKey.fromBytes_toBytes]
    obtain ⟨address, publicKey, held⟩ := i
    obtain rfl := h
    rfl

/-- Every identity is read again from its printed form, public or secret, and every text
that is read as an identity is printed again as its lower-case form. -/
theorem identityText_lossless :
    (∀ i : Identity, parse i.toPublicString = .ok { i with secret := none }) ∧
    (∀ (i : Identity) (secret : SecretKey), i.secret = some secret →
      ∃ s, i.toSecretString = some s ∧ parse s = .ok i) ∧
    ∀ (s : Bytes) (i : Identity), parse s = .ok i →
      (i.secret = none → i.toPublicString = lowerCase s) ∧
        ∀ secret, i.secret = some secret → i.toSecretString = some (lowerCase s) := by
  refine ⟨parse_toPublicString, fun i secret => parse_secret, fun s i h => ⟨fun hnone => ?_, fun secret hsome => ?_⟩⟩
  · rw [← printed_of_parse h, printed, toSecretString, hnone]
    rfl
  · rw [← printed_of_parse h, printed, toSecretString, hsome]
    rfl

/-- An identity with its secret, and a text with digits in upper case. -/
theorem identityText_lossless_sample :
    (∃ s, (Sample.identity 3).toSecretString = some s ∧ parse s = .ok (Sample.identity 3)) ∧
    ∃ s i, s ≠ lowerCase s ∧ parse s = .ok i ∧ i.toPublicString = lowerCase s := by
  refine ⟨identityText_lossless.2.1 (Sample.identity 3) ⟨Sample.key 3, Sample.key 3⟩ rfl, ?_⟩
  have hcheck : okWith (parse ((Sample.identity 3).toPublicString.map fun c => if c = 0x61 then 0x41 else c))
      (fun i => i.secret = none) = true := by
    decide +kernel
  obtain ⟨i, hread, hnone⟩ := exists_of_okWith hcheck
  exact ⟨_, i, by decide +kernel, hread, (identityText_lossless.2.2 _ i hread).1 (of_decide_eq_true hnone)⟩

end Identity

end ManyTier
