import ManyTier.Controller.ConfigBuilder
import ManyTier.Node.ConfigContent

/-! Routes between a controller and its nodes.

The controller sends a target with its prefix length, a gateway, flags and a metric.
The node reads the target, takes the next two bytes for the prefix length and one for
the kind of gateway: behind a target without a gateway those are zeros and the flags,
and what is left is as long as the metric. So it keeps step with routes without
gateways, reads all their prefix lengths as zero, and misreads the first gateway
(`node_routes_iff`). -/
namespace ManyTier

/-- The prefix length, which is in the port's place. -/
def InetAddress.bits : InetAddress → UInt16
  | .v4 _ bits => bits
  | .v6 _ bits => bits
  | .null => 0

namespace Controller

/-! ### What can be read -/

theorem parseInet_some {ip : Bytes} {bits : UInt8} {inet : InetAddress}
    (h : parseInet ip bits = .ok (some inet)) : inet ≠ .null ∧ inet.bits = bits.toUInt16 := by
  unfold parseInet at h
  split at h
  · cases h
    exact ⟨by simp, rfl⟩
  · obtain ⟨octets, -, heq⟩ := bind_eq_ok h
    cases octets with
    | none => cases heq
    | some octets =>
      cases heq
      exact ⟨by simp, rfl⟩

/-- The prefix length an assignment or a target names. -/
def prefixLength (s : Text) : Option UInt8 := (parseIpPrefix s.bytes).map Prod.snd

theorem assignmentInet_some {s : Text} {inet : InetAddress} (h : assignmentInet s = .ok (some inet)) :
    inet ≠ .null ∧ ∃ bits, prefixLength s = some bits ∧ inet.bits = bits.toUInt16 := by
  unfold assignmentInet at h
  split at h
  · rename_i ip bits hparsed
    obtain ⟨hnull, hbits⟩ := parseInet_some h
    exact ⟨hnull, bits, by simp [prefixLength, hparsed], hbits⟩
  · cases h

/-- A target that can be read, and a gateway that can be or none. -/
structure ValidRoute (route : ManagedRoute) : Prop where
  target : ∃ inet, assignmentInet route.target = .ok (some inet)
  via : ∀ via, route.via = some via → ∃ inet, parseInet via.bytes 0 = .ok (some inet)

/-- An address that can be read, with a prefix no longer than it. -/
def ValidAssignment (assignment : Text) : Prop :=
  ∃ inet network, assignmentInet assignment = .ok (some inet) ∧ maskInet inet = .ok network

theorem collect_forall₂ {ε α β : Type} {f : α → Except ε (Option β)} {l : List α}
    (h : ∀ a ∈ l, ∃ b, f a = .ok (some b)) :
    ∃ bs, collect f l = .ok bs ∧ List.Forall₂ (fun a b => f a = .ok (some b)) l bs := by
  induction l with
  | nil => exact ⟨[], rfl, .nil⟩
  | cons a rest ih =>
    obtain ⟨b, hb⟩ := h a List.mem_cons_self
    obtain ⟨bs, hbs, hall⟩ := ih fun x hx => h x (List.mem_cons_of_mem _ hx)
    refine ⟨b :: bs, ?_, .cons hb hall⟩
    simp only [collect, hb, hbs, ok_bind]
    rfl

theorem managedEntry_valid {route : ManagedRoute} (h : ValidRoute route) :
    ∃ e, managedEntry route = .ok (some e) := by
  obtain ⟨target, htarget⟩ := h.target
  obtain ⟨via, hvia⟩ : ∃ via, viaInet route.via = .ok via := by
    cases hroute : route.via with
    | none => exact ⟨_, rfl⟩
    | some via =>
      obtain ⟨inet, hinet⟩ := h.via via hroute
      exact ⟨inet, by simp [viaInet, hinet, pure, Except.pure]⟩
  exact ⟨⟨target, via⟩, by simp [managedEntry, htarget, hvia, pure, Except.pure]⟩

theorem derivedEntry_valid {assignment : Text} (h : ValidAssignment assignment) :
    ∃ e, derivedEntry assignment = .ok (some e) := by
  obtain ⟨inet, network, hinet, hnetwork⟩ := h
  exact ⟨⟨network, .null⟩, by simp [derivedEntry, hinet, hnetwork, pure, Except.pure]⟩

/-- What a route was sent for. -/
theorem managedEntry_some {route : ManagedRoute} {e : RouteEntry} (hvalid : ValidRoute route)
    (h : managedEntry route = .ok (some e)) :
    e.target ≠ .null ∧ (∃ bits, prefixLength route.target = some bits ∧ e.target.bits = bits.toUInt16) ∧
      (e.via = .null ↔ route.via = none) := by
  obtain ⟨target, htarget, hrest⟩ := bind_eq_ok h
  cases target with
  | none => cases hrest
  | some target =>
    obtain ⟨via, hvia, heq⟩ := bind_eq_ok hrest
    cases heq
    obtain ⟨hnull, hbits⟩ := assignmentInet_some htarget
    refine ⟨hnull, hbits, ?_⟩
    cases hroute : route.via with
    | none =>
      rw [hroute] at hvia
      cases hvia
      simp
    | some text =>
      obtain ⟨inet, hinet⟩ := hvalid.via text hroute
      rw [hroute] at hvia
      simp only [viaInet, hinet, ok_bind, pure, Except.pure, Option.getD_some, Except.ok.injEq] at hvia
      subst hvia
      simp [(parseInet_some hinet).1]

theorem bits_maskInet {inet network : InetAddress} (h : maskInet inet = .ok network) :
    network.bits = inet.bits ∧ (network = .null ↔ inet = .null) := by
  cases inet with
  | null =>
    cases h
    simp
  | v4 ip bits =>
    simp only [maskInet] at h
    cases hmask : applyIpv4Mask ip bits.toUInt8 with
    | error e =>
      rw [hmask] at h
      cases h
    | ok masked =>
      rw [hmask] at h
      cases h
      exact ⟨rfl, by simp⟩
  | v6 ip bits =>
    cases h
    exact ⟨rfl, by simp⟩

theorem derivedEntry_some {assignment : Text} {e : RouteEntry} (h : derivedEntry assignment = .ok (some e)) :
    e.target ≠ .null ∧ (∃ bits, prefixLength assignment = some bits ∧ e.target.bits = bits.toUInt16) ∧
      e.via = .null := by
  obtain ⟨inet, hinet, hrest⟩ := bind_eq_ok h
  cases inet with
  | none => cases hrest
  | some inet =>
    obtain ⟨network, hnetwork, heq⟩ := bind_eq_ok hrest
    cases heq
    obtain ⟨hnull, bits, hparsed, hbits⟩ := assignmentInet_some hinet
    obtain ⟨hsame, hiff⟩ := bits_maskInet hnetwork
    exact ⟨fun h => hnull (hiff.mp h), ⟨bits, hparsed, hsame.trans hbits⟩, rfl⟩

/-! ### What is sent -/

/-- The entries of routes and assignments that can all be read. -/
structure Sent (managed : List ManagedRoute) (assignments : List Text) (entries : List RouteEntry) : Prop where
  read : routeEntries managed assignments = .ok entries
  all : ∃ explicit derived, entries = explicit ++ derived ∧
    List.Forall₂ (fun r e => managedEntry r = .ok (some e)) managed explicit ∧
    List.Forall₂ (fun a e => derivedEntry a = .ok (some e)) assignments derived

theorem sent_of_valid {managed : List ManagedRoute} {assignments : List Text}
    (hmanaged : ∀ r ∈ managed, ValidRoute r) (hassigned : ∀ a ∈ assignments, ValidAssignment a) :
    ∃ entries, Sent managed assignments entries := by
  obtain ⟨explicit, hexplicit, hall⟩ := collect_forall₂ fun r hr => managedEntry_valid (hmanaged r hr)
  obtain ⟨derived, hderived, hall'⟩ := collect_forall₂ fun a ha => derivedEntry_valid (hassigned a ha)
  refine ⟨explicit ++ derived, ?_, explicit, derived, rfl, hall, hall'⟩
  simp [routeEntries, hexplicit, hderived, pure, Except.pure]

namespace Sent
variable {managed : List ManagedRoute} {assignments : List Text} {entries : List RouteEntry}
  (h : Sent managed assignments entries)
include h

theorem length : entries.length = managed.length + assignments.length := by
  obtain ⟨explicit, derived, rfl, hexplicit, hderived⟩ := h.all
  rw [List.length_append, ← hexplicit.length_eq, ← hderived.length_eq]

theorem serializeRoutes : serializeRoutes managed assignments = .ok (entries.flatMap RouteEntry.serialize) := by
  simp [Controller.serializeRoutes, h.read, pure, Except.pure]

/-- What holds of all entries, in terms of the routes and assignments they come from. -/
theorem forall_entries {p : RouteEntry → Prop} {q : ManagedRoute → Prop} {s : Text → Prop}
    (hmanaged : ∀ r ∈ managed, ∀ e, managedEntry r = .ok (some e) → (q r ↔ p e))
    (hassigned : ∀ a ∈ assignments, ∀ e, derivedEntry a = .ok (some e) → (s a ↔ p e)) :
    (∀ e ∈ entries, p e) ↔ (∀ r ∈ managed, q r) ∧ ∀ a ∈ assignments, s a := by
  obtain ⟨explicit, derived, rfl, hexplicit, hderived⟩ := h.all
  rw [List.forall_mem_append, ← forall_mem_iff_of_forall₂ hexplicit hmanaged,
    ← forall_mem_iff_of_forall₂ hderived hassigned]

/-- Every target is an address with a prefix length of at most 255. -/
theorem target_ok (hvalid : ∀ r ∈ managed, ValidRoute r) :
    ∀ e ∈ entries, e.target ≠ .null ∧ e.target.bits < 256 := by
  have hsmall : ∀ bits : UInt8, bits.toUInt16 < 256 := fun bits => by
    rw [UInt16.lt_iff_toNat_lt]
    simpa using bits.toNat_lt
  refine (h.forall_entries (q := fun _ => True) (s := fun _ => True) ?_ ?_).mpr ⟨by simp, by simp⟩
  · intro r hr e he
    obtain ⟨hnull, ⟨bits, -, hbits⟩, -⟩ := managedEntry_some (hvalid r hr) he
    simp [hnull, hbits, hsmall]
  · intro a ha e he
    obtain ⟨hnull, ⟨bits, -, hbits⟩, -⟩ := derivedEntry_some he
    simp [hnull, hbits, hsmall]

end Sent

end Controller

/-! ### What a node reads -/

/-- The target and the prefix length, in a node's words. -/
def Controller.RouteEntry.text (e : Controller.RouteEntry) : Bytes := routeTarget e.target e.target.bits

theorem routeTarget_injective {target : InetAddress} {a b : UInt16}
    (h : routeTarget target a = routeTarget target b) : a = b := by
  have hdigits : formatDecimal a.toNat = formatDecimal b.toNat := List.append_cancel_left h
  have ha := a.toNat_lt
  have hb := b.toNat_lt
  exact UInt16.toNat_inj.mp (formatDigits_injective (by decide) (by decide) (by omega) (by omega) hdigits)

section
variable (e : Controller.RouteEntry) (rest : Bytes) (fuel : Nat)

theorem drop_target : (e.serialize ++ rest).drop e.target.serialize.length =
    e.via.serialize ++ (be16 0 ++ (be16 0 ++ rest)) := by
  have hsplit : e.serialize ++ rest = e.target.serialize ++ (e.via.serialize ++ (be16 0 ++ (be16 0 ++ rest))) := by
    simp [Controller.RouteEntry.serialize]
  rw [hsplit]
  exact List.drop_left' rfl

theorem deserialize_entry : InetAddress.deserialize (e.serialize ++ rest) =
    .ok (e.target, e.target.serialize.length) := by
  have hsplit : e.serialize ++ rest = e.target.serialize ++ (e.via.serialize ++ (be16 0 ++ (be16 0 ++ rest))) := by
    simp [Controller.RouteEntry.serialize]
  rw [hsplit]
  exact InetAddress.deserialize_serialize ..

theorem entry_ne_nil : (e.serialize ++ rest).isEmpty = false := by
  cases htarget : e.target <;> simp [Controller.RouteEntry.serialize, InetAddress.serialize, htarget]

/-- A route without a gateway is read with a prefix length of zero, and nothing of it
is left. -/
theorem routesOf_direct (hvia : e.via = .null) :
    routesOf (fuel + 1) (e.serialize ++ rest) = routeTarget e.target 0 :: routesOf fuel rest := by
  have hdrop : (e.serialize ++ rest).drop e.target.serialize.length = 0 :: 0 :: 0 :: 0 :: 0 :: rest := by
    rw [drop_target, hvia]
    rfl
  rw [routesOf, entry_ne_nil, deserialize_entry]
  simp only [hdrop]
  rfl

/-- A route with a gateway is read with a prefix length that starts with the gateway's
kind, or not at all. -/
theorem routesOf_gateway (hvia : e.via ≠ .null) (texts : List Bytes) (hbits : e.target.bits < 256) :
    routesOf (fuel + 1) (e.serialize ++ rest) ≠ e.text :: texts := by
  have hlarge : e.target.bits ≠ u16At (e.via.serialize ++ (be16 0 ++ (be16 0 ++ rest))) 0 := by
    rw [UInt16.lt_iff_toNat_lt] at hbits
    obtain ⟨kind, first, more, hcons, hkind⟩ : ∃ kind first more,
        e.via.serialize ++ (be16 0 ++ (be16 0 ++ rest)) = kind :: first :: more ∧ 4 ≤ kind.toNat := by
      cases hgateway : e.via with
      | null => exact absurd hgateway hvia
      | v4 ip port =>
        obtain ⟨first, ips, hip⟩ := ip.exists_cons
        exact ⟨4, first, _, by rw [InetAddress.serialize, hip]; rfl, by decide⟩
      | v6 ip port =>
        obtain ⟨first, ips, hip⟩ := ip.exists_cons
        exact ⟨6, first, _, by rw [InetAddress.serialize, hip]; rfl, by decide⟩
    intro heq
    have hnat := congrArg UInt16.toNat heq
    rw [hcons, toNat_u16At_cons_cons] at hnat
    have h256 : (256 : UInt16).toNat = 256 := rfl
    omega
  rw [routesOf, entry_ne_nil, deserialize_entry]
  simp only [drop_target, Bool.false_eq_true, if_false]
  split
  · simp
  · split
    · simp
    · intro h
      exact hlarge (routeTarget_injective (List.cons.inj h).1).symm

end

/-- A node reads the routes it was sent exactly if none has a gateway and all prefix
lengths are zero. -/
theorem routesOf_entries_iff (entries : List Controller.RouteEntry)
    (hbits : ∀ e ∈ entries, e.target.bits < 256) (fuel : Nat) (hfuel : entries.length ≤ fuel) :
    routesOf fuel (entries.flatMap Controller.RouteEntry.serialize) = entries.map Controller.RouteEntry.text ↔
      ∀ e ∈ entries, e.via = .null ∧ e.target.bits = 0 := by
  induction entries generalizing fuel with
  | nil => cases fuel <;> simp [routesOf]
  | cons e rest ih =>
    obtain ⟨fuel, rfl⟩ : ∃ f, fuel = f + 1 := ⟨fuel - 1, by simp at hfuel; omega⟩
    obtain ⟨hfirst, hrest⟩ := List.forall_mem_cons.mp hbits
    rw [List.flatMap_cons, List.map_cons, List.forall_mem_cons]
    by_cases hvia : e.via = .null
    · rw [routesOf_direct e _ fuel hvia, List.cons.injEq, ih hrest fuel (by simpa using hfuel)]
      refine and_congr_left' ⟨fun h => ⟨hvia, (routeTarget_injective h).symm⟩, fun h => ?_⟩
      rw [Controller.RouteEntry.text, h.2]
    · exact iff_of_false (routesOf_gateway e _ fuel hvia _ hfirst) fun h => hvia h.1.1

theorem length_le_serialize_entries (entries : List Controller.RouteEntry) :
    entries.length ≤ (entries.flatMap Controller.RouteEntry.serialize).length := by
  induction entries with
  | nil => exact Nat.le_refl _
  | cons e rest ih =>
    rw [List.flatMap_cons, List.length_append, List.length_cons]
    have hpos : 0 < e.serialize.length := by simp [Controller.RouteEntry.serialize]
    omega

/-- The routes of a fresh membership after a configuration. -/
theorem routes_applyDictionary_new (networkId : UInt64) (mtu : UInt16) (ourAddress : ByteVec 5)
    {dict : Dictionary} {data : Bytes} (hkeys : dict.PlainKeys) (hroutes : dict.getBinary ConfigKey.routes = some data) :
    ((NetworkMembership.new networkId mtu).applyDictionary ourAddress dict.serialize).routes =
      routesOf data.length data := by
  rw [NetworkMembership.applyDictionary_eq_update _ _ (Dictionary.deserialize_serialize dict hkeys)]
  show (dict.routes.getD []) = _
  rw [Dictionary.routes, hroutes]
  cases hlist : routesOf data.length data <;> simp [Option.filter, hlist]

namespace Controller

/-- The routes a node holds after a configuration are those the controller sent exactly
if no route has a gateway and every prefix length is zero. -/
theorem node_routes_iff (managed : List ManagedRoute) (assignments : List Text)
    (hmanaged : ∀ r ∈ managed, ValidRoute r) (hassigned : ∀ a ∈ assignments, ValidAssignment a) :
    ∃ entries data, routeEntries managed assignments = .ok entries ∧
      entries.length = managed.length + assignments.length ∧
      serializeRoutes managed assignments = .ok data ∧
      ∀ (networkId : UInt64) (mtu : UInt16) (ourAddress : ByteVec 5) (dict : Dictionary), dict.PlainKeys →
        dict.getBinary ConfigKey.routes = some data →
        (((NetworkMembership.new networkId mtu).applyDictionary ourAddress dict.serialize).routes =
            entries.map RouteEntry.text ↔
          (∀ r ∈ managed, r.via = none ∧ prefixLength r.target = some 0) ∧
            ∀ a ∈ assignments, prefixLength a = some 0) := by
  obtain ⟨entries, hsent⟩ := sent_of_valid hmanaged hassigned
  refine ⟨entries, _, hsent.read, hsent.length, hsent.serializeRoutes, ?_⟩
  intro networkId mtu ourAddress dict hkeys hroutes
  have hzero : ∀ bits : UInt8, bits.toUInt16 = 0 ↔ bits = 0 := fun bits => by
    rw [← UInt16.toNat_inj, ← UInt8.toNat_inj]
    simp
  rw [routes_applyDictionary_new networkId mtu ourAddress hkeys hroutes,
    routesOf_entries_iff entries (fun e he => (hsent.target_ok hmanaged e he).2) _
      (length_le_serialize_entries entries)]
  refine hsent.forall_entries ?_ ?_
  · intro r hr e he
    obtain ⟨-, ⟨bits, hparsed, hbits⟩, hvia⟩ := managedEntry_some (hmanaged r hr) he
    simp [hvia, hparsed, hbits, hzero]
  · intro a ha e he
    obtain ⟨-, ⟨bits, hparsed, hbits⟩, hvia⟩ := derivedEntry_some he
    simp [hvia, hparsed, hbits, hzero]

namespace SampleRoutes

/-- 10.147.20.5/24. -/
def assignment : Text :=
  .literal ['1', '0', '.', '1', '4', '7', '.', '2', '0', '.', '5', '/', '2', '4']

/-- 0.0.0.0/0, without a gateway. -/
def everywhere : ManagedRoute := ⟨.literal ['0', '.', '0', '.', '0', '.', '0', '/', '0'], none⟩

def address : ByteVec 5 := SampleConfig.address

theorem valid_assignment : ValidAssignment assignment :=
  ⟨.v4 ⟨[10, 147, 20, 5], rfl⟩ 24, .v4 ⟨[10, 147, 20, 0], rfl⟩ 24, by decide, by decide⟩

theorem valid_everywhere : ValidRoute everywhere where
  target := ⟨.v4 ⟨[0, 0, 0, 0], rfl⟩ 0, by decide⟩
  via := fun _ h => by cases h

end SampleRoutes

open SampleRoutes in
/-- The route to the assigned network 10.147.20.0/24 is read as 10.147.20.0/0. -/
theorem node_route_prefix_lost : ValidAssignment assignment ∧ ∃ entries data,
    routeEntries [] [assignment] = .ok entries ∧ serializeRoutes [] [assignment] = .ok data ∧
    entries.map RouteEntry.text = [ascii ['1', '0', '.', '1', '4', '7', '.', '2', '0', '.', '0', '/', '2', '4']] ∧
    ((NetworkMembership.new 0x0a00000002000001 2800).applyDictionary address
        (Dictionary.serialize [⟨ConfigKey.routes, data⟩])).routes =
      [ascii ['1', '0', '.', '1', '4', '7', '.', '2', '0', '.', '0', '/', '0']] := by
  refine ⟨valid_assignment, [⟨.v4 ⟨[10, 147, 20, 0], rfl⟩ 24, .null⟩],
    [4, 10, 147, 20, 0, 0, 24, 0, 0, 0, 0, 0], ?_, ?_, ?_, ?_⟩
  · decide
  · decide
  · decide
  · decide

open SampleRoutes in
/-- The route to everywhere is read as it was sent. -/
theorem node_routes_iff_everywhere : ∃ entries data, routeEntries [everywhere] [] = .ok entries ∧
    serializeRoutes [everywhere] [] = .ok data ∧
    ((NetworkMembership.new 0x0a00000002000001 2800).applyDictionary address
        (Dictionary.serialize [⟨ConfigKey.routes, data⟩])).routes = entries.map RouteEntry.text := by
  obtain ⟨entries, data, hread, -, hdata, hiff⟩ := node_routes_iff [everywhere] []
    (by simpa using valid_everywhere) (by simp)
  refine ⟨entries, data, hread, hdata, (hiff _ _ _ _ ?_ rfl).mpr ⟨?_, by simp⟩⟩
  · intro e he
    obtain rfl := List.mem_singleton.mp he
    show ∀ b ∈ ConfigKey.routes.bytes, b ≠ Dictionary.equals ∧ Dictionary.isNewline b = false
    decide +kernel
  · intro r hr
    obtain rfl := List.mem_singleton.mp hr
    exact ⟨rfl, by decide⟩

end Controller

end ManyTier
