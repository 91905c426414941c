import ManyTier.Lib.HexText
import ManyTier.Lib.IpText
import ManyTier.Service.JoinedNetworks

/-! Moons, as the service loads them at its start and its API orbits and deorbits them.

A moon comes from a file in `moons.d`. A start loads every file that ends in `.moon`; a
call loads the one that is named after the moon. -/
namespace ManyTier

namespace Service

structure MoonRootResponse where
  address : Bytes
  endpoints : List Bytes
  deriving DecidableEq

structure MoonResponse where
  id : Bytes
  timestamp : UInt64
  roots : List MoonRootResponse
  deriving DecidableEq

/-- A socket address as it is printed; an IPv6 address stands in brackets, with its scope
if it has one. -/
def formatSocketAddr : SocketAddr → Bytes
  | .v4 ip port => formatIpv4 ip ++ 0x3a :: formatDecimal port.toNat
  | .v6 ip port _ scopeId =>
    let scope := if scopeId = 0 then [] else 0x25 :: formatDecimal scopeId.toNat
    0x5b :: formatIpv6 ip ++ scope ++ 0x5d :: 0x3a :: formatDecimal port.toNat

def worldToResponse (world : World) : MoonResponse where
  id := hexBytes (be64 world.id)
  timestamp := world.timestamp
  roots := world.roots.map fun root =>
    { address := hexBytes root.identity.address.bytes.toBytes
      endpoints := (root.endpoints.filterMap InetAddress.toSocketAddr).map formatSocketAddr }

namespace Api

/-- Load the file named after the moon, if the moon is not loaded yet. `file` is what
reading it gives. -/
def orbitMoon (pr : Primitives) (n : Node) (id : Bytes) (file : Option Bytes) :
    Except Fault (Node × Except StatusCode MoonResponse) :=
  match parseHexU64 id with
  | none => .ok (n, .error .badRequest)
  | some moonId =>
    match n.topology.moons.find? (·.id = moonId), file.map World.deserialize with
    | some existing, _ => .ok (n, .ok (worldToResponse existing))
    | none, none => .ok (n, .error .notFound)
    | none, some (.error _) => .ok (n, .error .unprocessableEntity)
    | none, some (.ok world) =>
      if world.worldType ≠ .moon ∨ world.id ≠ moonId then .ok (n, .error .unprocessableEntity)
      else do
        match ← n.topology.loadMoon pr world with
        | .error _ => return (n, .error .unprocessableEntity)
        | .ok topology => return ({ n with topology }, .ok (worldToResponse world))

/-- A call leaves the node as it was, or loads a moon of a number that none had. -/
theorem orbitMoon_cases {pr : Primitives} {n n' : Node} {id : Bytes} {file : Option Bytes}
    {reply : Except StatusCode MoonResponse}
    (h : orbitMoon pr n id file = .ok (n', reply)) :
    n' = n ∨ ∃ world topology, n.topology.moons.find? (·.id = world.id) = none ∧
      n.topology.loadMoon pr world = .ok (.ok topology) ∧ n' = { n with topology } := by
  unfold orbitMoon at h
  split at h
  · cases h
    exact .inl rfl
  · rename_i moonId _
    split at h
    · cases h
      exact .inl rfl
    · cases h
      exact .inl rfl
    · cases h
      exact .inl rfl
    · rename_i world hnone _
      split at h
      · cases h
        exact .inl rfl
      · rename_i hmoon
        obtain ⟨loaded, hloaded, heq⟩ := bind_eq_ok h
        cases loaded with
        | error e =>
          cases heq
          exact .inl rfl
        | ok topology =>
          cases heq
          obtain ⟨-, hid⟩ := not_or.mp hmoon
          rw [← not_not.mp hid] at hnone
          exact .inr ⟨world, topology, hnone, hloaded, rfl⟩

def deorbitMoon (n : Node) (id : Bytes) : Node × StatusCode :=
  match parseHexU64 id with
  | none => (n, .badRequest)
  | some moonId =>
    let (topology, unloaded) := n.topology.unloadMoon moonId
    ({ n with topology }, if unloaded then .ok else .notFound)

end Api

def moonExtension : Bytes := ascii ['.', 'm', 'o', 'o', 'n']

/-- The moon in a file, if its name says so and it holds one. -/
def moonOfFile (file : Bytes × Option Bytes) : Option World :=
  match file.1.dropSuffix? moonExtension, file.2.map World.deserialize with
  | some (_ :: _), some (.ok world) => if world.worldType = .moon then some world else none
  | _, _ => none

/-- The moons in the files of the directory. -/
def loadMoons (files : List (Bytes × Option Bytes)) : List World := files.filterMap moonOfFile

end Service

end ManyTier
