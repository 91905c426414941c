import ManyTier.Protocol.RoundTrip
import ManyTier.Protocol.World

/-! World files read back as they were written.

A file is a body and the end sentinel. The readers of roots and endpoints walk the body;
what stands at their offset is what is still to be read, and `drop_behind` moves past each
part. The signature stands in the middle of what it signs. -/
namespace ManyTier

/-- The root another party reads. -/
def WorldRoot.withoutSecret (r : WorldRoot) : WorldRoot := { r with identity := r.identity.withoutSecret }

namespace World

/-- What a file can hold; only a moon has a dictionary. -/
structure Fits (w : World) : Prop where
  roots : w.roots.length ≤ maxRoots
  endpoints : ∀ r ∈ w.roots, r.endpoints.length ≤ maxEndpointsPerRoot
  dict : ∀ dict, w.dictData = some dict → w.worldType = .moon ∧ dict.length ≤ 65535

/-- The world another party reads: an absent dictionary of a moon is an empty one. -/
def published (w : World) : World :=
  { w with
    roots := w.roots.map WorldRoot.withoutSecret
    dictData := if w.worldType = .moon then some (w.dictData.getD []) else w.dictData }

/-! ### Roots -/

theorem length_serialize_pos (a : InetAddress) : 0 < a.serialize.length := by
  cases a <;> simp [InetAddress.serialize]

theorem length_serialize_le (a : InetAddress) : a.serialize.length ≤ 19 := by
  cases a <;> simp [InetAddress.serialize]

theorem endpointsOf_serialize (body sentinel : Bytes) (endpoints : List InetAddress) (pos : Nat) (rest : Bytes)
    (h : body.drop pos = endpoints.flatMap InetAddress.serialize ++ rest) :
    endpointsOf (body ++ sentinel) body.length endpoints.length pos =
      .ok (endpoints, pos + (endpoints.flatMap InetAddress.serialize).length) := by
  induction endpoints generalizing pos with
  | nil => rfl
  | cons addr endpoints ih =>
    rw [List.flatMap_cons, List.append_assoc] at h
    have hlen := length_of_drop h (length_serialize_pos addr)
    have hpos := length_serialize_pos addr
    have hread : InetAddress.deserialize (((body ++ sentinel).take body.length).drop pos) =
        .ok (addr, addr.serialize.length) := by
      rw [List.take_left, h]
      exact InetAddress.deserialize_serialize addr _
    have hrest := ih (pos + addr.serialize.length) (drop_behind h rfl)
    rw [List.length_cons, endpointsOf, if_neg (by omega), hread, ok_bind]
    simp only [hrest, ok_bind, List.flatMap_cons, List.length_append, Nat.add_assoc]
    rfl

theorem length_serializeRoot (r : WorldRoot) :
    (serializeRoot r).length = 72 + (r.endpoints.flatMap InetAddress.serialize).length := by
  simp [serializeRoot, IdentityWire.publicWireLen]
  omega

theorem rootsOf_serialize (body sentinel : Bytes) (roots : List WorldRoot) (pos : Nat) (rest : Bytes)
    (hroots : ∀ r ∈ roots, r.endpoints.length ≤ maxEndpointsPerRoot)
    (h : body.drop pos = roots.flatMap serializeRoot ++ rest) :
    rootsOf (body ++ sentinel) body.length roots.length pos =
      .ok (roots.map WorldRoot.withoutSecret, pos + (roots.flatMap serializeRoot).length) := by
  induction roots generalizing pos with
  | nil => rfl
  | cons root roots ih =>
    have hroot : root.endpoints.length ≤ 32 := hroots root List.mem_cons_self
    have hidentity : body.drop pos = IdentityWire.serializeIdentityPublic root.identity ++
        (UInt8.ofNat root.endpoints.length :: (root.endpoints.flatMap InetAddress.serialize ++
          (roots.flatMap serializeRoot ++ rest))) := by
      rw [h, List.flatMap_cons, serializeRoot]
      simp only [List.append_assoc, List.cons_append]
    have hcount : body.drop (pos + IdentityWire.publicWireLen) = _ :=
      drop_behind hidentity (IdentityWire.length_serializeIdentityPublic _)
    have hendpoints := drop_behind_cons hcount
    have hlen := length_of_drop (a := [_]) hcount (Nat.zero_lt_one)
    simp only [List.length_singleton] at hlen
    have hread : IdentityWire.deserializeIdentity ((body ++ sentinel).drop pos) =
        .ok (root.identity.withoutSecret, IdentityWire.publicWireLen) := by
      rw [List.drop_append_of_le_length (by omega), hidentity, List.append_assoc]
      exact IdentityWire.deserializeIdentity_serialize root.identity _
    have hbyte : (byteAt (body ++ sentinel) (pos + IdentityWire.publicWireLen)).toNat = root.endpoints.length := by
      rw [byteAt_append_left _ _ _ (by omega), byteAt_of_drop hcount, UInt8.toNat_ofNat_of_lt' (by
        simp only [UInt8.size]
        omega)]
    have hrest := ih _ (fun r hr => hroots r (List.mem_cons_of_mem _ hr)) (drop_behind hendpoints rfl)
    have htotal : pos + ((root :: roots).flatMap serializeRoot).length =
        pos + IdentityWire.publicWireLen + 1 + (root.endpoints.flatMap InetAddress.serialize).length +
          (roots.flatMap serializeRoot).length := by
      rw [List.flatMap_cons, List.length_append, length_serializeRoot, IdentityWire.publicWireLen]
      omega
    rw [List.length_cons, rootsOf, if_neg (by omega), hread, ok_bind, htotal]
    simp only [hbyte]
    rw [if_neg (by omega), if_neg (by rw [maxEndpointsPerRoot]; omega)]
    simp only [endpointsOf_serialize body sentinel root.endpoints _ _ hendpoints, ok_bind, hrest]
    rfl

/-! ### The file -/

/-- What stands in front of the end sentinel. -/
def body (w : World) : Bytes :=
  startSentinel ++ (w.worldType.toByte :: (be64 w.id ++ (be64 w.timestamp ++ (w.signingKey.toBytes ++
    (w.signature.toBytes ++ (w.serializeRoots ++ w.serializeDict))))))

theorem serialize_eq (w : World) : w.serialize = w.body ++ endSentinel := by
  simp only [serialize, body, List.append_assoc, List.cons_append]

theorem length_body (w : World) :
    w.body.length = 185 + w.serializeRoots.length + w.serializeDict.length := by
  simp [body, startSentinel]
  omega

theorem fromByte_toByte (t : WorldType) : WorldType.fromByte t.toByte = some t := by
  cases t <;> rfl

/-- The dictionary of a moon, behind its length. -/
theorem dictOf_serialize {w : World} (hmoon : w.worldType = .moon) (hdict : (w.dictData.getD []).length ≤ 65535)
    {pos : Nat} (h : w.body.drop pos = w.serializeDict) :
    dictOf (w.body ++ endSentinel) w.body.length pos = .ok (w.dictData.getD []) := by
  set dict := w.dictData.getD [] with hd
  have hlength : w.body.drop pos = be16 (UInt16.ofNat dict.length) ++ (dict ++ []) := by
    rw [h, serializeDict, if_pos hmoon, List.append_nil]
  have hend := length_of_drop hlength (by simp)
  rw [length_be16, List.append_nil] at hend
  have hall : (w.body ++ endSentinel).drop pos = be16 (UInt16.ofNat dict.length) ++ (dict ++ endSentinel) := by
    rw [List.drop_append_of_le_length (by omega), hlength]
    simp only [List.append_assoc, List.append_nil]
  have hread : (u16At (w.body ++ endSentinel) pos).toNat = dict.length := by
    rw [u16At_of_drop hall, UInt16.toNat_ofNat_of_lt' (by
      simp only [UInt16.size]
      omega)]
  have hslice : slice (w.body ++ endSentinel) (pos + 2) dict.length = dict :=
    slice_of_drop (drop_behind hall (length_be16 _)) rfl
  unfold dictOf
  rw [if_neg (by omega)]
  simp only [hread]
  rw [if_neg (by omega), hslice]

/-- A file reads back as the world it was written from. -/
theorem deserialize_serialize (w : World) (hw : w.Fits) : deserialize w.serialize = .ok w.published := by
  set data := w.serialize with hdata
  have h0 : data.drop 0 = startSentinel ++ (w.worldType.toByte :: (be64 w.id ++ (be64 w.timestamp ++
      (w.signingKey.toBytes ++ (w.signature.toBytes ++ (w.serializeRoots ++ (w.serializeDict ++ endSentinel))))))) := rfl
  have h8 : data.drop 8 = _ := drop_behind h0 rfl
  have h9 : data.drop 9 = _ := drop_behind_cons h8
  have h17 : data.drop 17 = _ := drop_behind h9 (length_be64 _)
  have h25 : data.drop 25 = _ := drop_behind h17 (length_be64 _)
  have h89 : data.drop 89 = _ := drop_behind h25 (ByteVec.length_toBytes _)
  have h185 : data.drop 185 = _ := drop_behind h89 (ByteVec.length_toBytes _)
  have hcount : (byteAt data 185).toNat = w.roots.length := by
    rw [byteAt_of_drop h185, UInt8.toNat_ofNat_of_lt' (by
      have hroots : w.roots.length ≤ 4 := hw.roots
      simp only [UInt8.size]
      omega)]
  have hbody : data = w.body ++ endSentinel := serialize_eq w
  have hbody186 : w.body.drop 186 = w.roots.flatMap serializeRoot ++ w.serializeDict := by
    have h : w.body.drop 186 ++ endSentinel = (w.roots.flatMap serializeRoot ++ w.serializeDict) ++ endSentinel := by
      have h186 := drop_behind_cons h185
      rw [hbody, List.drop_append_of_le_length (by
        rw [length_body, serializeRoots, List.length_cons]
        omega)] at h186
      exact h186.trans (List.append_assoc ..).symm
    exact List.append_cancel_right h
  have hlen : data.length = w.body.length + 8 := by
    rw [hbody, List.length_append]
    rfl
  have hmin := length_body w
  have hend : data.drop (data.length - 8) = endSentinel := by
    rw [hlen, Nat.add_sub_cancel, hbody]
    exact List.drop_left
  have hroots := rootsOf_serialize w.body endSentinel w.roots 186 w.serializeDict hw.endpoints hbody186
  have hdict := drop_behind hbody186 rfl
  rw [serializeRoots, List.length_cons] at hmin
  have hstart : data.take 8 = startSentinel := by
    rw [← List.drop_zero (l := data), h0]
    exact List.take_left' rfl
  have hid := u64At_of_drop h9
  have htimestamp := u64At_of_drop h17
  have hkey := fieldAt_of_drop h25
  have hsignature := fieldAt_of_drop h89
  have hmax : ¬ maxRoots < w.roots.length := Nat.not_lt.mpr hw.roots
  unfold deserialize
  rw [if_neg (by rw [minSize]; omega), if_neg (not_not.mpr hstart), if_neg (not_not.mpr hend), byteAt_of_drop h8,
    fromByte_toByte]
  simp only [hcount, hmax, if_false, hid, htimestamp, hkey, hsignature]
  rw [hlen, Nat.add_sub_cancel, hbody, hroots, ok_bind]
  by_cases hmoon : w.worldType = .moon
  · have hfits : (w.dictData.getD []).length ≤ 65535 := by
      cases hd : w.dictData with
      | none => exact Nat.zero_le _
      | some dict => exact (hw.dict dict hd).2
    simp only [hmoon, if_true, dictOf_serialize hmoon hfits hdict, published]
    rfl
  · have hnone : w.dictData = none := by
      cases hd : w.dictData with
      | none => rfl
      | some dict => exact absurd (hw.dict dict hd).1 hmoon
    simp only [hmoon, if_false, published, hnone]
    rfl

/-! ### What is signed -/

/-- The five parts of a file: sentinels around it, the signature inside, and what is
signed in front of the signature and behind it. -/
theorem signedPortion_eq (w : World) :
    slice w.serialize 0 8 = startSentinel ∧
      slice w.serialize 89 96 = w.signature.toBytes ∧
      slice w.serialize (w.serialize.length - 8) 8 = endSentinel ∧
      w.signedPortion = slice w.serialize 8 81 ++ slice w.serialize 185 (w.serialize.length - 8 - 185) := by
  set data := w.serialize with hdata
  set head := w.worldType.toByte :: (be64 w.id ++ (be64 w.timestamp ++ w.signingKey.toBytes)) with hhead
  have hheadLen : head.length = 81 := by simp [hhead]
  have h0 : data.drop 0 = startSentinel ++ (head ++ (w.signature.toBytes ++
      ((w.serializeRoots ++ w.serializeDict) ++ endSentinel))) := by
    simp only [hdata, hhead, serialize, List.drop_zero, List.append_assoc, List.cons_append]
  have h8 : data.drop 8 = _ := drop_behind h0 rfl
  have h89 : data.drop 89 = _ := drop_behind h8 hheadLen
  have h185 : data.drop 185 = _ := drop_behind h89 (ByteVec.length_toBytes _)
  have hlen : data.length = 185 + (w.serializeRoots ++ w.serializeDict).length + 8 := by
    rw [hdata, serialize_eq, List.length_append, length_body, List.length_append, Nat.add_assoc 185]
    rfl
  have hend := drop_behind h185 rfl
  refine ⟨slice_of_drop h0 rfl, slice_of_drop h89 (ByteVec.length_toBytes _), ?_, ?_⟩
  · rw [hlen, Nat.add_sub_cancel, slice, hend]
    rfl
  · rw [slice_of_drop h8 hheadLen, slice_of_drop h185 (by omega)]
    simp only [signedPortion, hhead, List.append_assoc, List.cons_append]

theorem length_signedPortion (w : World) :
    w.signedPortion.length = 81 + w.serializeRoots.length + w.serializeDict.length := by
  simp [signedPortion]
  omega

theorem length_endpoints_le (endpoints : List InetAddress) :
    (endpoints.flatMap InetAddress.serialize).length ≤ 19 * endpoints.length := by
  induction endpoints with
  | nil => exact Nat.le_refl 0
  | cons addr endpoints ih =>
    have haddr := length_serialize_le addr
    rw [List.flatMap_cons, List.length_append, List.length_cons]
    omega

theorem length_roots_le (roots : List WorldRoot)
    (hroots : ∀ r ∈ roots, r.endpoints.length ≤ maxEndpointsPerRoot) :
    (roots.flatMap serializeRoot).length ≤ 680 * roots.length := by
  induction roots with
  | nil => exact Nat.le_refl 0
  | cons root roots ih =>
    have hroot : root.endpoints.length ≤ 32 := hroots root List.mem_cons_self
    have hendpoints := length_endpoints_le root.endpoints
    have hrest := ih fun r hr => hroots r (List.mem_cons_of_mem _ hr)
    rw [List.flatMap_cons, List.length_append, List.length_cons, length_serializeRoot]
    omega

/-- What is signed of a world, its dictionary apart. -/
theorem length_signedPortion_le {w : World} (hw : w.Fits) :
    w.signedPortion.length ≤ 2802 + w.serializeDict.length := by
  have hroots : w.roots.length ≤ 4 := hw.roots
  have hall := length_roots_le w.roots hw.endpoints
  rw [length_signedPortion, serializeRoots, List.length_cons]
  omega

/-- How many bytes of a world are signed, from what it lists. -/
def signedSize (w : World) : Nat :=
  82 + (w.roots.map fun r => 72 + (r.endpoints.map fun a => a.serialize.length).sum).sum +
    if w.worldType = .moon then 2 + (w.dictData.getD []).length else 0

theorem length_signedPortion_eq (w : World) : w.signedPortion.length = w.signedSize := by
  have hdict : w.serializeDict.length = if w.worldType = .moon then 2 + (w.dictData.getD []).length else 0 := by
    unfold serializeDict
    split
    · simp
    · rfl
  have hroot : ∀ r ∈ w.roots, (serializeRoot r).length = 72 + (r.endpoints.map fun a => a.serialize.length).sum := by
    intro r _
    rw [length_serializeRoot, List.length_flatMap]
  rw [length_signedPortion, hdict, serializeRoots, List.length_cons, List.length_flatMap, List.map_congr_left hroot,
    signedSize]
  omega

/-! ### What is accepted -/

theorem length_endpointsOf {data : Bytes} {endPos count pos : Nat} {endpoints : List InetAddress} {pos' : Nat}
    (h : endpointsOf data endPos count pos = .ok (endpoints, pos')) : endpoints.length = count := by
  induction count generalizing pos endpoints with
  | zero =>
    cases h
    rfl
  | succ count ih =>
    rw [endpointsOf] at h
    split at h
    · cases h
    · obtain ⟨first, -, h⟩ := bind_eq_ok h
      obtain ⟨rest, hrest, h⟩ := bind_eq_ok h
      cases h
      exact congrArg (· + 1) (ih hrest)

theorem rootsOf_bounds {data : Bytes} {endPos count pos : Nat} {roots : List WorldRoot} {pos' : Nat}
    (h : rootsOf data endPos count pos = .ok (roots, pos')) :
    roots.length = count ∧ ∀ r ∈ roots, r.endpoints.length ≤ maxEndpointsPerRoot := by
  induction count generalizing pos roots with
  | zero =>
    cases h
    exact ⟨rfl, by simp⟩
  | succ count ih =>
    rw [rootsOf] at h
    split at h
    · cases h
    · obtain ⟨⟨identity, consumed⟩, -, h⟩ := bind_eq_ok h
      dsimp only at h
      split at h
      · cases h
      · split at h
        · cases h
        · rename_i hcount
          obtain ⟨⟨endpoints, next⟩, hendpoints, h⟩ := bind_eq_ok h
          obtain ⟨⟨rest, last⟩, hrest, h⟩ := bind_eq_ok h
          cases h
          obtain ⟨hlength, hall⟩ := ih hrest
          refine ⟨congrArg (· + 1) hlength, List.forall_mem_cons.mpr ⟨?_, hall⟩⟩
          rw [length_endpointsOf hendpoints]
          exact Nat.not_lt.mp hcount

theorem length_dictOf {data : Bytes} {endPos pos : Nat} {dict : Bytes} (h : dictOf data endPos pos = .ok dict) :
    dict.length ≤ 65535 := by
  unfold dictOf at h
  split at h
  · cases h
  · dsimp only at h
    split at h
    · cases h
    · cases h
      have hlen := (u16At data pos).toNat_lt
      rw [slice_length]
      omega

/-- What the reader lets through, the writer can write. -/
theorem deserialize_fits {data : Bytes} {w : World} (h : deserialize data = .ok w) : w.Fits := by
  unfold deserialize at h
  split at h
  · cases h
  split at h
  · cases h
  split at h
  · cases h
  split at h
  · cases h
  · rename_i worldType _
    dsimp only at h
    by_cases hcount : maxRoots < (byteAt data 185).toNat
    · rw [if_pos hcount] at h
      cases h
    · rw [if_neg hcount] at h
      obtain ⟨⟨roots, pos⟩, hroots, h⟩ := bind_eq_ok h
      obtain ⟨hlength, hendpoints⟩ := rootsOf_bounds hroots
      split at h
      · rename_i hmoon
        obtain ⟨dictData, hdict, h⟩ := bind_eq_ok h
        cases h
        refine ⟨hlength ▸ Nat.not_lt.mp hcount, hendpoints, fun dict hsome => ⟨hmoon, ?_⟩⟩
        subst hsome
        cases hread : dictOf data (data.length - 8) pos with
        | error e =>
          rw [hread] at hdict
          cases hdict
        | ok bytes =>
          rw [hread] at hdict
          cases hdict
          exact length_dictOf hread
      · cases h
        exact ⟨hlength ▸ Nat.not_lt.mp hcount, hendpoints, fun dict hsome => by cases hsome⟩

end World

end ManyTier
