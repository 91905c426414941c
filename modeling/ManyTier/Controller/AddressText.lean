import ManyTier.Controller.Trust

/-! Which texts make the controller's reader of addresses fault.

Assignments and routes are stored as they were given and read when a configuration is
built. Two texts are not read to an end: more than eight groups around a double colon, and
an IPv4 assignment with a prefix longer than an address. A configuration and a directory
are built exactly when none of those is read (`addresses_complete_iff`). -/
namespace ManyTier.Controller

/-! ### One address -/

/-- At most eight groups around a double colon, if there is one. -/
def GroupsFit (s : Bytes) : Prop :=
  ∀ l r, splitOnPair colon s = [l, r] → (sideGroups l).length + (sideGroups r).length ≤ 8

theorem splitOnPair_notMem {sep : UInt8} {s : Bytes} (h : sep ∉ s) : splitOnPair sep s = [s] := by
  induction s using splitOnPair.induct sep with
  | case1 a b rest hsep ih => exact absurd (hsep.1 ▸ List.mem_cons_self) h
  | case2 a b rest hsep part parts hparts ih =>
    rw [splitOnPair, if_neg hsep, ih fun hmem => h (List.mem_cons_of_mem _ hmem)]
  | case3 a b rest hsep hnone ih => cases hnone.symm.trans (ih fun hmem => h (List.mem_cons_of_mem _ hmem))
  | case4 a => rfl
  | case5 => rfl

theorem groupsFit_of_notMem {s : Bytes} (h : colon ∉ s) : GroupsFit s := by
  intro l r hsplit
  rw [splitOnPair_notMem h] at hsplit
  cases hsplit

theorem parseIpv6_returns_iff (s : Bytes) : (∃ ip, parseIpv6 s = .ok ip) ↔ GroupsFit s := by
  unfold parseIpv6
  by_cases hcolon : colon ∈ s
  · rw [if_neg (by simpa using hcolon)]
    unfold GroupsFit
    split
    · rename_i hsplit
      simp only
      constructor
      · intro _ l r htwo
        rw [hsplit] at htwo
        cases htwo
      · intro _
        split <;> exact ⟨_, rfl⟩
    · rename_i l r hsplit
      simp only
      constructor
      · intro hreturns l' r' htwo
        rw [hsplit] at htwo
        cases htwo
        split at hreturns
        · obtain ⟨ip, hip⟩ := hreturns
          cases hip
        · omega
      · intro hfits
        rw [if_neg (Nat.not_lt.mpr (hfits l r hsplit))]
        exact ⟨_, rfl⟩
    · rename_i hmany
      exact iff_of_true ⟨_, rfl⟩ fun l r htwo => absurd htwo (hmany l r)
  · rw [if_pos (by simpa using hcolon)]
    exact iff_of_true ⟨_, rfl⟩ (groupsFit_of_notMem hcolon)

/-- An IPv4 address has no colons. -/
theorem parseInet_returns_iff (ip : Bytes) (bits : UInt8) : (∃ inet, parseInet ip bits = .ok inet) ↔ GroupsFit ip := by
  unfold parseInet
  cases hipv4 : parseIpv4 ip with
  | some octets => exact iff_of_true ⟨_, rfl⟩ (groupsFit_of_notMem (colon_notMem_parseIpv4 hipv4))
  | none =>
    rw [bind_returns_iff, ← parseIpv6_returns_iff]
    constructor
    · rintro ⟨octets, hoctets, -⟩
      exact ⟨octets, hoctets⟩
    · rintro ⟨octets, hoctets⟩
      exact ⟨octets, hoctets, _, rfl⟩

theorem assignmentInet_returns_iff (assignment : Text) : (∃ inet, assignmentInet assignment = .ok inet) ↔
    ∀ ip bits, parseIpPrefix assignment.bytes = some (ip, bits) → GroupsFit ip := by
  unfold assignmentInet
  cases hparsed : parseIpPrefix assignment.bytes with
  | none => simp
  | some parsed =>
    obtain ⟨ip, bits⟩ := parsed
    simp only [parseInet_returns_iff]
    constructor
    · intro hfits ip' bits' heq
      cases heq
      exact hfits
    · intro hfits
      exact hfits ip bits rfl

/-! ### Assignments -/

/-- What must hold of an assignment: the groups of its address fit, and the prefix of an
IPv4 address is no longer than the address. -/
structure AssignmentSafe (assignment : Text) : Prop where
  groups : ∀ ip bits, parseIpPrefix assignment.bytes = some (ip, bits) → GroupsFit ip
  mask : ∀ ip bits, parseIpPrefix assignment.bytes = some (ip, bits) → (parseIpv4 ip).isSome = true → bits ≤ 32

theorem applyIpv4Mask_returns_iff (octets : ByteVec 4) (bits : UInt8) :
    (∃ network, applyIpv4Mask octets bits = .ok network) ↔ bits ≤ 32 := by
  unfold applyIpv4Mask
  split
  · rename_i hlong
    refine iff_of_false ?_ (by simpa using hlong)
    rintro ⟨network, hnetwork⟩
    cases hnetwork
  · rename_i hshort
    exact iff_of_true ⟨_, rfl⟩ (by simpa using hshort)

/-- The route derived from an assignment is the only one that takes a mask. -/
theorem derivedEntry_returns_iff (assignment : Text) :
    (∃ entry, derivedEntry assignment = .ok entry) ↔ AssignmentSafe assignment := by
  have hgroups := assignmentInet_returns_iff assignment
  rw [derivedEntry, bind_returns_iff]
  constructor
  · rintro ⟨inet, hinet, hrest⟩
    refine ⟨hgroups.mp ⟨inet, hinet⟩, ?_⟩
    intro ip bits hparsed hipv4
    obtain ⟨octets, hoctets⟩ := Option.isSome_iff_exists.mp hipv4
    rw [assignmentInet, hparsed] at hinet
    simp only [parseInet, hoctets] at hinet
    cases hinet
    obtain ⟨network, hnetwork, -⟩ := bind_returns_iff.mp hrest
    rw [← applyIpv4Mask_returns_iff octets bits]
    cases hmask : applyIpv4Mask octets bits with
    | ok network => exact ⟨network, rfl⟩
    | error f => simp [maskInet, hmask, Except.map] at hnetwork
  · intro hsafe
    obtain ⟨inet, hinet⟩ := hgroups.mpr hsafe.groups
    refine ⟨inet, hinet, ?_⟩
    unfold assignmentInet at hinet
    split at hinet
    · rename_i ip bits hparsed
      unfold parseInet at hinet
      split at hinet
      · rename_i octets hoctets
        cases hinet
        obtain ⟨network, hnetwork⟩ := (applyIpv4Mask_returns_iff octets bits).mpr
          (hsafe.mask ip bits hparsed (by rw [hoctets]; rfl))
        exact ⟨_, by simp [maskInet, hnetwork, Except.map]; rfl⟩
      · obtain ⟨octets, -, heq⟩ := bind_eq_ok hinet
        cases heq
        cases octets <;> exact ⟨_, rfl⟩
    · cases hinet
      exact ⟨_, rfl⟩

/-! ### Routes -/

/-- What must hold of a managed route: the groups of its target fit, and those of its
gateway, if the target can be read. -/
structure RouteSafe (route : ManagedRoute) : Prop where
  target : ∀ ip bits, parseIpPrefix route.target.bytes = some (ip, bits) → GroupsFit ip
  via : ∀ inet, assignmentInet route.target = .ok (some inet) → ∀ via, route.via = some via → GroupsFit via.bytes

theorem viaInet_returns_iff (via : Option Text) :
    (∃ inet, viaInet via = .ok inet) ↔ ∀ text, via = some text → GroupsFit text.bytes := by
  cases via with
  | none => exact iff_of_true ⟨_, rfl⟩ fun _ h => nomatch h
  | some text =>
    simp only [Option.some.injEq, forall_eq', viaInet, bind_returns_iff, ← parseInet_returns_iff text.bytes 0]
    constructor
    · rintro ⟨inet, hinet, -⟩
      exact ⟨inet, hinet⟩
    · rintro ⟨inet, hinet⟩
      exact ⟨inet, hinet, _, rfl⟩

theorem managedEntry_returns_iff (route : ManagedRoute) : (∃ entry, managedEntry route = .ok entry) ↔ RouteSafe route := by
  have hgroups := assignmentInet_returns_iff route.target
  rw [managedEntry, bind_returns_iff]
  constructor
  · rintro ⟨target, htarget, hrest⟩
    refine ⟨hgroups.mp ⟨target, htarget⟩, ?_⟩
    intro inet hinet
    rw [htarget] at hinet
    cases hinet
    obtain ⟨via, hvia, -⟩ := bind_returns_iff.mp hrest
    exact (viaInet_returns_iff route.via).mp ⟨via, hvia⟩
  · intro hsafe
    obtain ⟨target, htarget⟩ := hgroups.mpr hsafe.target
    refine ⟨target, htarget, ?_⟩
    cases target with
    | none => exact ⟨_, rfl⟩
    | some target =>
      obtain ⟨via, hvia⟩ := (viaInet_returns_iff route.via).mpr (hsafe.via target htarget)
      exact bind_returns_iff.mpr ⟨via, hvia, _, rfl⟩

/-! ### A configuration -/

theorem buildNetworkConfig_returns_iff (network : NetworkRecord) (member : MemberRecord) (routes : List ManagedRoute)
    (com : CertificateOfMembership) (now : UInt64) (capabilitiesRaw tagsRaw : Bytes) :
    (∃ config, buildNetworkConfig network member routes com now capabilitiesRaw tagsRaw = .ok config) ↔
      (∀ a ∈ member.ipAssignments, AssignmentSafe a) ∧ ∀ r ∈ routes, RouteSafe r := by
  have hips : (∀ a ∈ member.ipAssignments, AssignmentSafe a) →
      ∃ data, serializeIpAssignments member.ipAssignments = .ok data := by
    intro hsafe
    obtain ⟨inets, hinets⟩ := collect_returns_iff.mpr fun a ha =>
      (assignmentInet_returns_iff a).mpr (hsafe a ha).groups
    exact bind_returns_iff.mpr ⟨inets, hinets, _, rfl⟩
  have hroutes : (∃ data, serializeRoutes routes member.ipAssignments = .ok data) ↔
      (∀ a ∈ member.ipAssignments, AssignmentSafe a) ∧ ∀ r ∈ routes, RouteSafe r := by
    simp only [← derivedEntry_returns_iff, ← managedEntry_returns_iff, ← collect_returns_iff]
    rw [serializeRoutes, bind_returns_iff]
    constructor
    · rintro ⟨entries, hentries, -⟩
      obtain ⟨explicit, hexplicit, hrest⟩ := bind_eq_ok hentries
      obtain ⟨derived, hderived, -⟩ := bind_eq_ok hrest
      exact ⟨⟨derived, hderived⟩, explicit, hexplicit⟩
    · rintro ⟨⟨derived, hderived⟩, explicit, hexplicit⟩
      refine ⟨explicit ++ derived, ?_, _, rfl⟩
      simp only [routeEntries, hexplicit, hderived, ok_bind]
      rfl
  rw [buildNetworkConfig, bind_returns_iff, ← hroutes]
  constructor
  · rintro ⟨entries, hentries, -⟩
    unfold networkConfigEntries at hentries
    simp only at hentries
    split at hentries
    · obtain ⟨none, -, hrest⟩ := bind_eq_ok hentries
      obtain ⟨data, hdata, -⟩ := bind_eq_ok hrest
      exact ⟨data, hdata⟩
    · obtain ⟨ips, -, hrest⟩ := bind_eq_ok hentries
      obtain ⟨ipEntries, -, hrest⟩ := bind_eq_ok hrest
      obtain ⟨data, hdata, -⟩ := bind_eq_ok hrest
      exact ⟨data, hdata⟩
  · rintro ⟨routeData, hrouteData⟩
    obtain ⟨data, hdata⟩ := hips (hroutes.mp ⟨routeData, hrouteData⟩).1
    unfold networkConfigEntries
    simp only [hdata, hrouteData, ok_bind]
    split
    · exact ⟨_, rfl, _, rfl⟩
    · exact ⟨_, rfl, _, rfl⟩

/-! ### The directory -/

/-- What must hold of a member that is listed: of its first assignment with a colon the
groups fit. Its first without one is read to an end, whatever it is. -/
def ListedSafe (m : MemberRecord) : Prop :=
  ∀ assignment, m.firstIpv6 = some assignment → GroupsFit (assignmentParts assignment).1

theorem serializeAssignmentInet_returns_iff (assignment : Option Text) :
    (∃ field, serializeAssignmentInet assignment = .ok field) ↔
      ∀ text, assignment = some text → GroupsFit (assignmentParts text).1 := by
  cases assignment with
  | none => exact iff_of_true ⟨_, rfl⟩ fun _ h => nomatch h
  | some text =>
    simp only [Option.some.injEq, forall_eq', serializeAssignmentInet, serializeInetAddress, bind_returns_iff,
      ← parseInet_returns_iff _ (assignmentParts text).2]
    constructor
    · rintro ⟨inet, hinet, -⟩
      exact ⟨inet, hinet⟩
    · rintro ⟨inet, hinet⟩
      exact ⟨inet, hinet, _, rfl⟩

section
variable (pr : Primitives) (signingKey : ByteVec 32) (controllerAddress : ByteVec 5) (networkId now : UInt64)

theorem serializeDirectoryEntry_returns_iff (m : MemberRecord) :
    (∃ entry, serializeDirectoryEntry pr signingKey controllerAddress networkId now m = .ok entry) ↔ ListedSafe m := by
  obtain ⟨ipv4, hipv4⟩ := (serializeAssignmentInet_returns_iff m.firstIpv4).mpr fun text htext =>
    groupsFit_of_notMem (colon_notMem_parts (firstIpv4_no_colon m text htext))
  rw [ListedSafe, ← serializeAssignmentInet_returns_iff, serializeDirectoryEntry, bind_returns_iff]
  constructor
  · rintro ⟨_, -, hrest⟩
    obtain ⟨ipv6, hipv6, -⟩ := bind_returns_iff.mp hrest
    exact ⟨ipv6, hipv6⟩
  · rintro ⟨ipv6, hipv6⟩
    exact ⟨ipv4, hipv4, bind_returns_iff.mpr ⟨ipv6, hipv6, _, rfl⟩⟩

theorem serializeDirectoryEntries_returns_iff (members : List MemberRecord) :
    (∃ entries, serializeDirectoryEntries pr signingKey controllerAddress networkId now members = .ok entries) ↔
      ∀ m ∈ members, ListedSafe m := by
  induction members with
  | nil => exact iff_of_true ⟨_, rfl⟩ fun _ hm => nomatch hm
  | cons m rest ih =>
    rw [List.forall_mem_cons, ← ih, ← serializeDirectoryEntry_returns_iff pr signingKey controllerAddress networkId now,
      serializeDirectoryEntries, bind_returns_iff]
    constructor
    · rintro ⟨entry, hentry, hrest⟩
      obtain ⟨entries, hentries, -⟩ := bind_returns_iff.mp hrest
      exact ⟨⟨entry, hentry⟩, entries, hentries⟩
    · rintro ⟨⟨entry, hentry⟩, entries, hentries⟩
      exact ⟨entry, hentry, bind_returns_iff.mpr ⟨entries, hentries, _, rfl⟩⟩

theorem serializePeerDirectory_returns_iff (members : List MemberRecord) :
    (∃ directory, serializePeerDirectory pr signingKey controllerAddress networkId now members = .ok directory) ↔
      ∀ m ∈ members, m.eligible = true → ListedSafe m := by
  have hentries := serializeDirectoryEntries_returns_iff pr signingKey controllerAddress networkId now
    (members.filter MemberRecord.eligible)
  simp only [List.mem_filter, and_imp] at hentries
  rw [← hentries, serializePeerDirectory, bind_returns_iff]
  constructor
  · rintro ⟨entries, h, -⟩
    exact ⟨entries, h⟩
  · rintro ⟨entries, h⟩
    exact ⟨entries, h, _, rfl⟩

end

/-- Which texts are read to an end. A configuration and a directory are built exactly when
each assignment of the member has at most eight groups around a double colon and, for an
IPv4 address, a prefix of at most 32, each route's target and, behind a target that can be
read, its gateway has at most eight groups, and so has each listed member's first
assignment with a colon. -/
theorem addresses_complete_iff (pr : Primitives) (signingKey : ByteVec 32) (controllerAddress : ByteVec 5)
    (networkId now : UInt64) (network : NetworkRecord) (member : MemberRecord) (routes : List ManagedRoute)
    (com : CertificateOfMembership) (capabilitiesRaw tagsRaw : Bytes) (members : List MemberRecord) :
    ((∃ config, buildNetworkConfig network member routes com now capabilitiesRaw tagsRaw = .ok config) ∧
      ∃ directory, serializePeerDirectory pr signingKey controllerAddress networkId now members = .ok directory) ↔
    (∀ a ∈ member.ipAssignments, AssignmentSafe a) ∧ (∀ r ∈ routes, RouteSafe r) ∧
      ∀ m ∈ members, m.eligible = true → ListedSafe m := by
  rw [buildNetworkConfig_returns_iff, serializePeerDirectory_returns_iff, and_assoc]

open SampleMembers in
/-- A configuration with the assignment 1.2.3.4/33 is not built. -/
theorem long_prefix_faults : ¬ ∀ (pr : Primitives) (signingKey : ByteVec 32) (controllerAddress : ByteVec 5)
    (networkId now : UInt64) (network : NetworkRecord) (member : MemberRecord) (routes : List ManagedRoute)
    (com : CertificateOfMembership) (capabilitiesRaw tagsRaw : Bytes) (members : List MemberRecord),
    (∃ config, buildNetworkConfig network member routes com now capabilitiesRaw tagsRaw = .ok config) ∧
      ∃ directory, serializePeerDirectory pr signingKey controllerAddress networkId now members = .ok directory := by
  intro hall
  set long : Text := .literal ['1', '.', '2', '.', '3', '.', '4', '/', '3', '3'] with hlong
  obtain ⟨hconfig, -⟩ := hall Sample.primitives (Sample.key 1) controller.bytes networkId 1000 network
    (member 2 [long]) [] (com (member 2 [])) [] [] []
  obtain ⟨hsafe, -⟩ := (buildNetworkConfig_returns_iff ..).mp hconfig
  have hparsed : parseIpPrefix long.bytes = some (ascii ['1', '.', '2', '.', '3', '.', '4'], 33) := by decide
  exact absurd ((hsafe long List.mem_cons_self).mask _ _ hparsed (by decide)) (by decide)

end ManyTier.Controller
