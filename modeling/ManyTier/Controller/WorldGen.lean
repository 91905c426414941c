import ManyTier.Crypto.Sample
import ManyTier.Protocol.WorldFile

/-! Moon and planet files as the controller generates them.

A world is built around a placeholder signature, its signed portion is signed and the file
is written out; both go through fixed buffers, which every world that fits fills only in part. -/
namespace ManyTier

namespace Controller
open World

section Generate
variable (pr : Primitives)

def outBufferSize : Nat := 8192

/-- The world with its signature, from a placeholder of zeros. -/
def signWorld (w : World) (signingKey : ByteVec 32) : World :=
  { w with signature := Signing.sign pr signingKey w.signedPortion }

def generateWorld (worldType : WorldType) (id timestamp : UInt64) (roots : List WorldRoot)
    (signingKey : ByteVec 32) (publicKeyBytes : ByteVec 64) (dictData : Option Bytes) : Except Fault Bytes :=
  let world : World :=
    { worldType, id, timestamp, signingKey := publicKeyBytes, signature := ByteVec.zero 96, roots, dictData }
  if signingBufferSize < world.signedPortion.length then .error .panic
  else
    let world := signWorld pr world signingKey
    if outBufferSize < world.serialize.length then .error .panic else .ok world.serialize

def generateMoon (moonId timestamp : UInt64) (roots : List WorldRoot) (signingKey : ByteVec 32)
    (publicKeyBytes : ByteVec 64) : Except Fault Bytes :=
  generateWorld pr .moon moonId timestamp roots signingKey publicKeyBytes (some [])

def generatePlanet (planetId timestamp : UInt64) (roots : List WorldRoot) (signingKey : ByteVec 32)
    (publicKeyBytes : ByteVec 64) : Except Fault Bytes :=
  generateWorld pr .planet planetId timestamp roots signingKey publicKeyBytes none

end Generate

/-! ### The files -/

/-- The bytes of a world do not change when it is read. -/
theorem signedPortion_published (w : World) : w.published.signedPortion = w.signedPortion := by
  have hroots : (w.roots.map WorldRoot.withoutSecret).flatMap serializeRoot = w.roots.flatMap serializeRoot := by
    rw [List.flatMap_map]
    rfl
  have hdict : w.published.serializeDict = w.serializeDict := by
    by_cases hmoon : w.worldType = .moon
    · simp only [serializeDict, published, hmoon, if_true, Option.getD_some]
    · simp only [serializeDict, published, hmoon, if_false]
  rw [signedPortion, signedPortion, hdict, serializeRoots, serializeRoots, published, hroots, List.length_map]

theorem verifySignature_signWorld {pr : Primitives} (hown : Signing.VerifiesOwn pr) {w : World}
    {signingKey : ByteVec 32} (hpoint : pr.ed25519Point (pr.ed25519Public signingKey) = true)
    (hkey : fieldAt 32 w.signingKey.toBytes 32 = pr.ed25519Public signingKey)
    (hsize : w.signedPortion.length ≤ 4096) :
    (signWorld pr w signingKey).published.verifySignature pr = .ok (.ok ()) := by
  have hportion : (signWorld pr w signingKey).published.signedPortion = w.signedPortion :=
    signedPortion_published _
  have hbuffer : ¬ signingBufferSize < w.signedPortion.length := Nat.not_lt.mpr hsize
  have hverify := Signing.verify_sign hown signingKey w.signedPortion
  have hsigned : (signWorld pr w signingKey).published.signature = Signing.sign pr signingKey w.signedPortion := rfl
  have hfield : fieldAt 32 (signWorld pr w signingKey).published.signingKey.toBytes 32 = pr.ed25519Public signingKey := hkey
  unfold verifySignature
  simp only [hfield, hpoint, Bool.not_true, Bool.false_eq_true, if_false, hportion, hbuffer, hsigned, hverify]

/-- A file is a world with the given fields, and its signature verifies. -/
def Loads (pr : Primitives) (file : Bytes) (worldType : WorldType) (id timestamp : UInt64) (roots : List WorldRoot)
    (publicKeyBytes : ByteVec 64) (dictData : Option Bytes) : Prop :=
  ∃ world, World.deserialize file = .ok world ∧ world.verifySignature pr = .ok (.ok ()) ∧
    world.worldType = worldType ∧ world.id = id ∧ world.timestamp = timestamp ∧ world.signingKey = publicKeyBytes ∧
    world.roots = roots.map WorldRoot.withoutSecret ∧ world.dictData = dictData

/-- A generated file loads. -/
theorem generateWorld_verifies {pr : Primitives} (hown : Signing.VerifiesOwn pr) {worldType : WorldType}
    {id timestamp : UInt64} {roots : List WorldRoot} {signingKey : ByteVec 32} {publicKeyBytes : ByteVec 64}
    {dictData : Option Bytes} (hpoint : pr.ed25519Point (pr.ed25519Public signingKey) = true)
    (hkey : fieldAt 32 publicKeyBytes.toBytes 32 = pr.ed25519Public signingKey) (hroots : roots.length ≤ maxRoots)
    (hendpoints : ∀ r ∈ roots, r.endpoints.length ≤ maxEndpointsPerRoot)
    (hdict : dictData = if worldType = .moon then some [] else none) :
    ∃ file, generateWorld pr worldType id timestamp roots signingKey publicKeyBytes dictData = .ok file ∧
      Loads pr file worldType id timestamp roots publicKeyBytes dictData := by
  set unsigned : World :=
    { worldType, id, timestamp, signingKey := publicKeyBytes, signature := ByteVec.zero 96, roots, dictData } with hun
  set world := signWorld pr unsigned signingKey with hworld
  have hempty : dictData.getD [] = [] := by
    rw [hdict]
    split <;> rfl
  have hfits : ∀ w : World, w.roots = roots → w.dictData = dictData → w.worldType = worldType → w.Fits := by
    intro w hr hd ht
    refine ⟨hr ▸ hroots, hr ▸ hendpoints, fun dict h => ?_⟩
    rw [hd, hdict, ← ht] at h
    split at h
    · rename_i hmoon
      obtain rfl := Option.some.inj h
      exact ⟨hmoon, Nat.zero_le _⟩
    · cases h
  have hsize : unsigned.signedPortion.length ≤ 2804 := by
    have hportion := length_signedPortion_le (hfits unsigned rfl rfl rfl)
    have htail : unsigned.serializeDict.length ≤ 2 := by
      rw [serializeDict, hempty]
      split <;> simp
    omega
  have hlength : world.serialize.length = unsigned.signedPortion.length + 112 := by
    have hportion : world.signedPortion = unsigned.signedPortion := rfl
    have hend : endSentinel.length = 8 := rfl
    rw [← hportion, length_signedPortion, serialize_eq, List.length_append, length_body, hend]
    omega
  have hread : world.published.dictData = dictData := by
    show (if worldType = .moon then some (dictData.getD []) else dictData) = dictData
    rw [hempty, hdict]
    split <;> rfl
  refine ⟨world.serialize, ?_, world.published, deserialize_serialize world (hfits world rfl rfl rfl),
    verifySignature_signWorld hown hpoint hkey (by omega), rfl, rfl, rfl, rfl, rfl, hread⟩
  unfold generateWorld
  simp only [← hun, ← hworld]
  rw [if_neg (by rw [signingBufferSize]; omega), if_neg (by rw [outBufferSize]; omega)]

/-- World files are lossless, the signature covers all of a file but the sentinels and
itself, and what the controller generates loads. -/
theorem worldFiles_lossless {pr : Primitives} (hown : Signing.VerifiesOwn pr)
    (hpoint : ∀ signingKey, pr.ed25519Point (pr.ed25519Public signingKey) = true) :
    (∀ w : World, w.Fits → World.deserialize w.serialize = .ok w.published ∧
      slice w.serialize 0 8 = startSentinel ∧
      slice w.serialize 89 96 = w.signature.toBytes ∧
      slice w.serialize (w.serialize.length - 8) 8 = endSentinel ∧
      w.signedPortion = slice w.serialize 8 81 ++ slice w.serialize 185 (w.serialize.length - 8 - 185)) ∧
    ∀ id timestamp roots signingKey publicKeyBytes, roots.length ≤ maxRoots →
      (∀ r ∈ roots, r.endpoints.length ≤ maxEndpointsPerRoot) →
      fieldAt 32 publicKeyBytes.toBytes 32 = pr.ed25519Public signingKey →
      (∃ file, generateMoon pr id timestamp roots signingKey publicKeyBytes = .ok file ∧
        Loads pr file .moon id timestamp roots publicKeyBytes (some [])) ∧
      ∃ file, generatePlanet pr id timestamp roots signingKey publicKeyBytes = .ok file ∧
        Loads pr file .planet id timestamp roots publicKeyBytes none := by
  refine ⟨fun w hw => ⟨deserialize_serialize w hw, signedPortion_eq w⟩, ?_⟩
  intro id timestamp roots signingKey publicKeyBytes hroots hendpoints hkey
  exact ⟨generateWorld_verifies hown (hpoint signingKey) hkey hroots hendpoints rfl,
    generateWorld_verifies hown (hpoint signingKey) hkey hroots hendpoints rfl⟩

/-- A moon with one root at two addresses. -/
theorem worldFiles_lossless_moon :
    let roots : List WorldRoot := [⟨Sample.identity 1, [.v4 ⟨[192, 168, 1, 1], rfl⟩ 9993, .null]⟩]
    ∃ file, generateMoon Sample.primitives 7 1000 roots (Sample.key 3) ⟨List.replicate 64 3, by decide⟩ = .ok file ∧
      Loads Sample.primitives file .moon 7 1000 roots ⟨List.replicate 64 3, by decide⟩ (some []) :=
  ((worldFiles_lossless Sample.verifiesOwn fun _ => rfl).2 7 1000 _ (Sample.key 3) _ (by decide) (by decide)
    (by decide)).1

end Controller

end ManyTier
