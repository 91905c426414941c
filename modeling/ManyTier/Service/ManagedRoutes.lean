import ManyTier.Controller.Routes
import ManyTier.Lib.IpText

/-! The routes the service installs.

The service reads the routes of a configuration on its own. A record is a target, a
gateway, flags and a metric; the service passes over the flags and takes the metric for
the next record. The last record's metric ends the list, and the first record is read
right, but from the second on the reader is behind: it can only gain on the sender two
bytes at a time, and a record read two bytes late is never the record that was sent
(`reads_late`). So it reads what was sent exactly if that is one route or none
(`service_routes_iff`). -/
namespace ManyTier

inductive IpAddr where
  | v4 (ip : ByteVec 4)
  | v6 (ip : ByteVec 16)
  deriving DecidableEq

namespace Service

def inetAddressToCidr : InetAddress → Option Bytes
  | .null => none
  | .v4 ip port => some (formatIpv4 ip ++ 0x2f :: formatDecimal port.toNat)
  | .v6 ip port => some (formatIpv6 ip ++ 0x2f :: formatDecimal port.toNat)

def inetAddressToIp : InetAddress → Option IpAddr
  | .null => none
  | .v4 ip _ => some (.v4 ip)
  | .v6 ip _ => some (.v6 ip)

/-- The routes up to the first that cannot be read. Each takes at least four bytes. -/
def managedRoutesOf : Nat → Bytes → List (Bytes × Option IpAddr)
  | 0, _ => []
  | fuel + 1, data =>
    if data.isEmpty then []
    else
      match InetAddress.deserialize data with
      | .error _ => []
      | .ok (target, targetConsumed) =>
        let data := data.drop targetConsumed
        match InetAddress.deserialize data with
        | .error _ => []
        | .ok (via, viaConsumed) =>
          let data := data.drop viaConsumed
          if data.length < 2 then []
          else
            let routes := managedRoutesOf fuel (data.drop 2)
            match inetAddressToCidr target with
            | none => routes
            | some cidr => (cidr, inetAddressToIp via) :: routes

def managedRoutesFromDictData (dictData : Bytes) : List (Bytes × Option IpAddr) :=
  match Dictionary.deserialize dictData with
  | .error _ => []
  | .ok dict =>
    match dict.getBinary ConfigKey.routes with
    | none => []
    | some data => managedRoutesOf data.length data

/-! ### Text -/

/-- What stands before and after a slash, where neither has one. -/
theorem slash_inj {a b a' b' : Bytes} (ha : 0x2f ∉ a) (hb : 0x2f ∉ b) (ha' : 0x2f ∉ a') (hb' : 0x2f ∉ b')
    (h : a ++ 0x2f :: b = a' ++ 0x2f :: b') : a = a' ∧ b = b' := by
  have hsplit := congrArg (List.splitOn 0x2f) h
  rw [List.splitOn_append_cons_self, List.splitOn_append_cons_self, List.splitOn_eq_singleton ha,
    List.splitOn_eq_singleton hb, List.splitOn_eq_singleton ha', List.splitOn_eq_singleton hb'] at hsplit
  simpa using hsplit

theorem slash_notMem_formatDecimal (n : Nat) : 0x2f ∉ formatDecimal n := by
  intro h
  obtain ⟨d, hd, heq⟩ := mem_formatDecimal h
  exact (formatDigit_ne (by omega : d < 16)).2.2.1 heq.symm

theorem port_injective {a b : UInt16} (h : formatDecimal a.toNat = formatDecimal b.toNat) : a = b := by
  have ha := a.toNat_lt
  have hb := b.toNat_lt
  exact UInt16.toNat_inj.mp (formatDigits_injective (by decide) (by decide) (by omega) (by omega) h)

/-- The text of a target says what the target is. -/
theorem inetAddressToCidr_injective {a b : InetAddress} {cidr : Bytes} (ha : inetAddressToCidr a = some cidr)
    (hb : inetAddressToCidr b = some cidr) : a = b := by
  cases a with
  | null => cases ha
  | v4 ip port =>
    cases b with
    | null => cases hb
    | v4 ip' port' =>
      obtain ⟨hip, hport⟩ := slash_inj (slash_notMem_formatIpv4 ip) (slash_notMem_formatDecimal _)
        (slash_notMem_formatIpv4 ip') (slash_notMem_formatDecimal _)
        (Option.some.inj (ha.trans hb.symm))
      rw [formatIpv4_injective hip, port_injective hport]
    | v6 ip' port' =>
      obtain ⟨hip, -⟩ := slash_inj (slash_notMem_formatIpv4 ip) (slash_notMem_formatDecimal _)
        (slash_notMem_formatIpv6 ip') (slash_notMem_formatDecimal _)
        (Option.some.inj (ha.trans hb.symm))
      exact absurd (hip ▸ colon_mem_formatIpv6 ip') (colon_notMem_formatIpv4 ip)
  | v6 ip port =>
    cases b with
    | null => cases hb
    | v4 ip' port' =>
      obtain ⟨hip, -⟩ := slash_inj (slash_notMem_formatIpv6 ip) (slash_notMem_formatDecimal _)
        (slash_notMem_formatIpv4 ip') (slash_notMem_formatDecimal _)
        (Option.some.inj (ha.trans hb.symm))
      exact absurd (hip ▸ colon_mem_formatIpv6 ip) (colon_notMem_formatIpv4 ip')
    | v6 ip' port' =>
      obtain ⟨hip, hport⟩ := slash_inj (slash_notMem_formatIpv6 ip) (slash_notMem_formatDecimal _)
        (slash_notMem_formatIpv6 ip') (slash_notMem_formatDecimal _)
        (Option.some.inj (ha.trans hb.symm))
      rw [formatIpv6_injective hip, port_injective hport]

/-! ### Reading late -/

open Controller (RouteEntry)

/-- A route as it was sent. -/
def sentRoute (e : RouteEntry) : Bytes × Option IpAddr :=
  ((inetAddressToCidr e.target).getD [], inetAddressToIp e.via)

/-- An address takes an odd number of bytes. -/
theorem length_serialize_inet (a : InetAddress) : ∃ k, a.serialize.length = 2 * k + 1 := by
  cases a with
  | null => exact ⟨0, rfl⟩
  | v4 ip port => exact ⟨3, by simp [InetAddress.serialize]⟩
  | v6 ip port => exact ⟨9, by simp [InetAddress.serialize]⟩

theorem length_serialize_entry (e : RouteEntry) :
    e.serialize.length = e.target.serialize.length + e.via.serialize.length + 4 := by
  simp [RouteEntry.serialize, Nat.add_assoc]

/-- Gateways with the same address take the same number of bytes. -/
theorem length_of_inetAddressToIp {a b : InetAddress} (h : inetAddressToIp a = inetAddressToIp b) :
    a.serialize.length = b.serialize.length := by
  cases a <;> cases b <;> simp_all [inetAddressToIp, InetAddress.serialize]

theorem be16_small {bits : UInt16} (h : bits < 256) : ∃ low, be16 bits = [0, low] := by
  rw [UInt16.lt_iff_toNat_lt] at h
  have h256 : (256 : UInt16).toNat = 256 := rfl
  have hhigh : bits.toNat / 256 = 0 := Nat.div_eq_of_lt (by omega)
  exact ⟨UInt8.ofNat bits.toNat, by simp [be16, toBe, hhigh]⟩

/-- A string that is found again two bytes into itself repeats every two bytes. -/
theorem byteAt_shifted {s tail rest : Bytes} (h : (s ++ tail).drop 2 = s ++ rest) :
    (∀ i < s.length, byteAt (s ++ tail) (i + 2) = byteAt s i) ∧
      ∀ j, 2 * j < s.length → byteAt s (2 * j) = byteAt s 0 := by
  have hshift : ∀ i < s.length, byteAt (s ++ tail) (i + 2) = byteAt s i := by
    intro i hi
    rw [← byteAt_append_left s rest i hi, ← h, byteAt, byteAt, List.getD_eq_getElem?_getD,
      List.getD_eq_getElem?_getD, List.getElem?_drop, Nat.add_comm]
  refine ⟨hshift, fun j => ?_⟩
  induction j with
  | zero => exact fun _ => rfl
  | succ j ih =>
    intro hj
    rw [← ih (by omega), ← hshift (2 * j) (by omega), byteAt_append_left _ _ _ (by omega)]
    rfl

/-- Two bytes late, a target is not the one that was sent. -/
theorem target_late (e : RouteEntry) (hnull : e.target ≠ .null) (hbits : e.target.bits < 256)
    (more rest : Bytes) : (e.serialize ++ more).drop 2 ≠ e.target.serialize ++ rest := by
  intro h
  -- The kind of the gateway and the byte behind it, read as a prefix length.
  have hvia : byteAt (e.via.serialize ++ (be16 0 ++ (be16 0 ++ more))) 0 = 0 →
      byteAt (e.via.serialize ++ (be16 0 ++ (be16 0 ++ more))) 1 = 0 := by
    cases e.via with
    | null => exact fun _ => rfl
    | v4 ip port => exact fun hkind => absurd (show (4 : UInt8) = 0 from hkind) (by decide)
    | v6 ip port => exact fun hkind => absurd (show (6 : UInt8) = 0 from hkind) (by decide)
  have hsplit : e.serialize ++ more = e.target.serialize ++ (e.via.serialize ++ (be16 0 ++ (be16 0 ++ more))) := by
    simp [RouteEntry.serialize]
  rw [hsplit] at h
  generalize e.via.serialize ++ (be16 0 ++ (be16 0 ++ more)) = tail at h hvia
  obtain ⟨hshift, hperiod⟩ := byteAt_shifted h
  -- A kind, an even number of bytes, and a prefix length of which the first byte is zero.
  obtain ⟨half, hlength, hpos, hkind, hhigh⟩ : ∃ half, e.target.serialize.length = 2 * half + 1 ∧ 0 < half ∧
      byteAt e.target.serialize 0 ≠ 0 ∧ byteAt e.target.serialize (2 * half - 1) = 0 := by
    cases htarget : e.target with
    | null => exact absurd htarget hnull
    | v4 ip bits =>
      rw [htarget] at hbits
      obtain ⟨low, hlow⟩ : ∃ low, be16 bits = [0, low] := be16_small hbits
      refine ⟨3, by simp [InetAddress.serialize], by decide, by simp [InetAddress.serialize], ?_⟩
      simp [InetAddress.serialize, hlow, byteAt_append]
    | v6 ip bits =>
      rw [htarget] at hbits
      obtain ⟨low, hlow⟩ : ∃ low, be16 bits = [0, low] := be16_small hbits
      refine ⟨9, by simp [InetAddress.serialize], by decide, by simp [InetAddress.serialize], ?_⟩
      simp [InetAddress.serialize, hlow, byteAt_append]
  have hbehind : ∀ k, byteAt (e.target.serialize ++ tail) (2 * half + 1 + k) = byteAt tail k :=
    byteAt_behind hlength
  have hfirst : byteAt tail 0 = 0 := by
    rw [← hhigh, ← hshift (2 * half - 1) (by omega), ← hbehind 0, show 2 * half - 1 + 2 = 2 * half + 1 + 0 by omega]
  have hsecond : byteAt tail 1 = byteAt e.target.serialize 0 := by
    rw [← hperiod half (by omega), ← hshift (2 * half) (by omega), ← hbehind 1]
  exact hkind (hsecond.symm.trans (hvia hfirst))

/-- What one turn of the reader reads. -/
theorem managedRoutesOf_cons {fuel : Nat} {data : Bytes} {route : Bytes × Option IpAddr}
    {routes : List (Bytes × Option IpAddr)} (h : managedRoutesOf (fuel + 1) data = route :: routes) :
    ∃ target via rest, data = target.serialize ++ (via.serialize ++ rest) ∧ 2 ≤ rest.length ∧
      ((target = .null ∧ managedRoutesOf fuel (rest.drop 2) = route :: routes) ∨
        (inetAddressToCidr target = some route.1 ∧ inetAddressToIp via = route.2 ∧
          managedRoutesOf fuel (rest.drop 2) = routes)) := by
  unfold managedRoutesOf at h
  split at h
  · cases h
  · split at h
    · cases h
    · rename_i target targetConsumed htarget
      obtain ⟨behind, rfl, rfl⟩ := InetAddress.deserialize_eq_ok htarget
      simp only [List.drop_left'] at h
      split at h
      · cases h
      · rename_i via viaConsumed hvia
        obtain ⟨rest, rfl, rfl⟩ := InetAddress.deserialize_eq_ok hvia
        simp only [List.drop_left'] at h
        split at h
        · cases h
        · rename_i hlen
          refine ⟨target, via, rest, rfl, by omega, ?_⟩
          split at h
          · rename_i hcidr
            refine .inl ⟨?_, h⟩
            cases target with
            | null => rfl
            | v4 ip port => cases hcidr
            | v6 ip port => cases hcidr
          · rename_i cidr hcidr
            obtain ⟨hroute, hroutes⟩ := List.cons.inj h
            subst hroute
            exact .inr ⟨hcidr, rfl, hroutes⟩

/-- Two bytes late or more, by an even number, the reader does not read what was sent. -/
theorem reads_late (fuel : Nat) (entries : List RouteEntry) (hne : entries ≠ [])
    (htargets : ∀ e ∈ entries, e.target ≠ .null ∧ e.target.bits < 256) (late : Nat) (hlate : 1 ≤ late) :
    managedRoutesOf fuel ((entries.flatMap RouteEntry.serialize).drop (2 * late)) ≠ entries.map sentRoute := by
  induction fuel generalizing entries late with
  | zero =>
    intro h
    exact hne (List.map_eq_nil_iff.mp h.symm)
  | succ fuel ih =>
    obtain ⟨e, rest, rfl⟩ := List.exists_cons_of_ne_nil hne
    obtain ⟨⟨hnull, hbits⟩, hrest⟩ := List.forall_mem_cons.mp htargets
    intro h
    obtain ⟨target, via, tail, hdata, hlen, hcase⟩ := managedRoutesOf_cons h
    set sent := (e :: rest).flatMap RouteEntry.serialize with hsent
    have hdrop : tail.drop 2 =
        sent.drop (2 * late + (target.serialize.length + via.serialize.length + 2)) := by
      rw [← List.drop_drop, hdata, ← List.append_assoc, ← List.drop_drop]
      exact congrArg (List.drop 2) (List.drop_left' (by simp)).symm
    rcases hcase with ⟨rfl, hnext⟩ | ⟨hcidr, hip, hnext⟩
    · -- A record without a target takes an even number of bytes, and the reader is later still.
      obtain ⟨k, hk⟩ := length_serialize_inet via
      have hnullLen : InetAddress.null.serialize.length = 1 := rfl
      rw [hdrop, hnullLen, hk, show 2 * late + (1 + (2 * k + 1) + 2) = 2 * (late + k + 2) by omega] at hnext
      exact ih (e :: rest) hne htargets (late + k + 2) (by omega) hnext
    · -- A record with a target is the first one that was sent, and the reader gains two bytes.
      obtain rfl : target = e.target := by
        cases htarget : inetAddressToCidr e.target with
        | none => cases hinet : e.target <;> simp_all [inetAddressToCidr]
        | some cidr =>
          have hsome : (sentRoute e).1 = cidr := by simp [sentRoute, htarget]
          exact inetAddressToCidr_injective (hcidr.trans (congrArg some hsome)) htarget
      have hvia : via.serialize.length = e.via.serialize.length := length_of_inetAddressToIp hip
      have hentry := length_serialize_entry e
      have hcons : sent = e.serialize ++ rest.flatMap RouteEntry.serialize := List.flatMap_cons
      rcases Nat.lt_or_ge late 2 with hone | htwo
      · obtain rfl : late = 1 := by omega
        rw [hcons] at hdata
        exact target_late e hnull hbits _ _ hdata
      · have hahead : tail.drop 2 = (rest.flatMap RouteEntry.serialize).drop (2 * (late - 1)) := by
          rw [hdrop, hcons, show 2 * late + (e.target.serialize.length + via.serialize.length + 2) =
            e.serialize.length + 2 * (late - 1) by omega, ← List.drop_drop]
          exact congrArg (List.drop _) (List.drop_left' rfl)
        rw [hahead] at hnext
        by_cases hnil : rest = []
        · -- Behind the last record there are not two bytes left.
          have hlength := congrArg List.length hdata
          rw [hcons, hnil] at hlength
          simp only [List.flatMap_nil, List.append_nil, List.length_drop, List.length_append] at hlength
          omega
        · exact ih rest hnil hrest (late - 1) (by omega) hnext

/-! ### What the service reads -/

/-- The first record, and then the reader is two bytes into the second. -/
theorem managedRoutesOf_first (e : RouteEntry) (hnull : e.target ≠ .null) (more : Bytes) (fuel : Nat) :
    managedRoutesOf (fuel + 1) (e.serialize ++ more) =
      sentRoute e :: managedRoutesOf fuel (0 :: 0 :: more) := by
  have hdrop := drop_target e more
  have hvia := InetAddress.deserialize_serialize e.via (be16 0 ++ (be16 0 ++ more))
  have hbehind : (e.via.serialize ++ (be16 0 ++ (be16 0 ++ more))).drop e.via.serialize.length =
      0 :: 0 :: 0 :: 0 :: more := List.drop_left' rfl
  rw [managedRoutesOf, entry_ne_nil, deserialize_entry]
  simp only [hdrop, hvia, hbehind]
  cases hcidr : inetAddressToCidr e.target with
  | none => cases hinet : e.target <;> simp_all [inetAddressToCidr]
  | some cidr => simp [sentRoute, hcidr]

/-- A metric taken for a record. -/
theorem managedRoutesOf_metric (more : Bytes) (fuel : Nat) :
    managedRoutesOf (fuel + 1) (0 :: 0 :: more) =
      if more.length < 2 then [] else managedRoutesOf fuel (more.drop 2) := by
  rfl

/-- The service reads the routes that were sent exactly if there is at most one. -/
theorem managedRoutesOf_entries_iff (entries : List RouteEntry)
    (htargets : ∀ e ∈ entries, e.target ≠ .null ∧ e.target.bits < 256) (fuel : Nat)
    (hfuel : entries ≠ [] → entries.length + 1 ≤ fuel) :
    managedRoutesOf fuel (entries.flatMap RouteEntry.serialize) = entries.map sentRoute ↔
      entries.length ≤ 1 := by
  cases entries with
  | nil => cases fuel <;> simp [managedRoutesOf]
  | cons e rest =>
    obtain ⟨fuel, rfl⟩ : ∃ f, fuel = f + 2 := ⟨fuel - 2, by simp at hfuel; omega⟩
    obtain ⟨⟨hnull, -⟩, hrest⟩ := List.forall_mem_cons.mp htargets
    rw [List.flatMap_cons, managedRoutesOf_first e hnull, managedRoutesOf_metric, List.map_cons,
      List.cons.injEq]
    cases rest with
    | nil => simp
    | cons e' rest =>
      have hlong : ¬ ((e' :: rest).flatMap RouteEntry.serialize).length < 2 := by
        rw [List.flatMap_cons, List.length_append, length_serialize_entry]
        omega
      rw [if_neg hlong]
      exact iff_of_false (fun h => reads_late fuel (e' :: rest) (by simp) hrest 1 (Nat.le_refl _) h.2)
        (by simp)

open Controller in
/-- The service installs the routes the controller sent, each with its target, prefix
length and gateway, exactly if there is at most one of them. -/
theorem service_routes_iff (managed : List ManagedRoute) (assignments : List Text)
    (hmanaged : ∀ r ∈ managed, ValidRoute r) (hassigned : ∀ a ∈ assignments, ValidAssignment a) :
    ∃ entries data, routeEntries managed assignments = .ok entries ∧
      entries.length = managed.length + assignments.length ∧
      serializeRoutes managed assignments = .ok data ∧
      ∀ dict : Dictionary, dict.PlainKeys → dict.getBinary ConfigKey.routes = some data →
        (managedRoutesFromDictData dict.serialize = entries.map sentRoute ↔
          managed.length + assignments.length ≤ 1) := by
  obtain ⟨entries, hsent⟩ := sent_of_valid hmanaged hassigned
  refine ⟨entries, _, hsent.read, hsent.length, hsent.serializeRoutes, fun dict hkeys hroutes => ?_⟩
  have hfuel : entries ≠ [] → entries.length + 1 ≤ (entries.flatMap RouteEntry.serialize).length := by
    intro hne
    obtain ⟨e, rest, rfl⟩ := List.exists_cons_of_ne_nil hne
    have hrest := length_le_serialize_entries rest
    have hentry := length_serialize_entry e
    rw [List.flatMap_cons, List.length_append, List.length_cons]
    omega
  rw [managedRoutesFromDictData, Dictionary.deserialize_serialize dict hkeys]
  simp only [hroutes]
  rw [managedRoutesOf_entries_iff entries (hsent.target_ok hmanaged) _ hfuel, hsent.length]

namespace SampleRoutes

/-- 10.0.0.0/8 by the gateway 10.147.20.1. -/
def private10 : Controller.ManagedRoute :=
  ⟨.literal ['1', '0', '.', '0', '.', '0', '.', '0', '/', '8'],
    some (.literal ['1', '0', '.', '1', '4', '7', '.', '2', '0', '.', '1'])⟩

theorem valid_private10 : Controller.ValidRoute private10 where
  target := ⟨.v4 ⟨[10, 0, 0, 0], rfl⟩ 8, by decide⟩
  via := by
    rintro via h
    obtain rfl := Option.some.inj h
    exact ⟨.v4 ⟨[10, 147, 20, 1], rfl⟩ 0, by decide⟩

end SampleRoutes

open Controller Controller.SampleRoutes SampleRoutes in
/-- Of a managed route and the route of an assignment only the first is installed. -/
theorem second_route_lost : ValidRoute private10 ∧ ValidAssignment assignment ∧ ∃ entries data,
    routeEntries [private10] [assignment] = .ok entries ∧ serializeRoutes [private10] [assignment] = .ok data ∧
    entries.map sentRoute =
      [(ascii ['1', '0', '.', '0', '.', '0', '.', '0', '/', '8'], some (.v4 ⟨[10, 147, 20, 1], rfl⟩)),
        (ascii ['1', '0', '.', '1', '4', '7', '.', '2', '0', '.', '0', '/', '2', '4'], none)] ∧
    managedRoutesFromDictData (Dictionary.serialize [⟨ConfigKey.routes, data⟩]) =
      [(ascii ['1', '0', '.', '0', '.', '0', '.', '0', '/', '8'], some (.v4 ⟨[10, 147, 20, 1], rfl⟩))] := by
  refine ⟨valid_private10, valid_assignment,
    [⟨.v4 ⟨[10, 0, 0, 0], rfl⟩ 8, .v4 ⟨[10, 147, 20, 1], rfl⟩ 0⟩, ⟨.v4 ⟨[10, 147, 20, 0], rfl⟩ 24, .null⟩],
    [4, 10, 0, 0, 0, 0, 8, 4, 10, 147, 20, 1, 0, 0, 0, 0, 0, 0, 4, 10, 147, 20, 0, 0, 24, 0, 0, 0, 0, 0],
    ?_, ?_, ?_, ?_⟩
  · decide
  · decide
  · decide
  · decide

open Controller SampleRoutes in
/-- One route is installed as it was sent. -/
theorem service_routes_iff_one : ∃ entries data, routeEntries [private10] [] = .ok entries ∧
    serializeRoutes [private10] [] = .ok data ∧
    managedRoutesFromDictData (Dictionary.serialize [⟨ConfigKey.routes, data⟩]) = entries.map sentRoute := by
  obtain ⟨entries, data, hread, -, hdata, hiff⟩ := service_routes_iff [private10] []
    (by simpa using valid_private10) (by simp)
  refine ⟨entries, data, hread, hdata, (hiff _ ?_ rfl).mpr (by simp)⟩
  intro e he
  obtain rfl := List.mem_singleton.mp he
  show ∀ b ∈ ConfigKey.routes.bytes, b ≠ Dictionary.equals ∧ Dictionary.isNewline b = false
  decide +kernel

end Service

end ManyTier
