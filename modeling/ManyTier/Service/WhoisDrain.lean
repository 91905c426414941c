import ManyTier.Node.Tick

/-! The service's questions for addresses.

What the actions of a round ask to have resolved is put together, each address once, and
asked for in one packet of at most 512 bytes. If a root can be reached, everything is
asked for exactly when there are at most 96 addresses (`drain_covers_iff`); of more,
nothing is. -/
namespace ManyTier

/-! ### The question -/

namespace WhoisRequest

theorem length_serialize (addresses : List (ByteVec 5)) : (serialize addresses).length = 5 * addresses.length := by
  induction addresses with
  | nil => rfl
  | cons a rest ih =>
    rw [serialize] at ih ⊢
    rw [List.flatMap_cons, List.length_append, ih, ByteVec.length_toBytes, List.length_cons]
    omega

theorem deserialize_append (a : ByteVec 5) (data : Bytes) : deserialize (a.toBytes ++ data) = a :: deserialize data := by
  have hcount : (a.toBytes ++ data).length / 5 = data.length / 5 + 1 := by
    rw [List.length_append, ByteVec.length_toBytes]
    omega
  rw [deserialize, hcount, List.range_succ_eq_map, List.map_cons, Nat.zero_mul, fieldAt_front, List.map_map]
  congr 1
  refine List.map_congr_left fun i _ => ?_
  show fieldAt 5 (a.toBytes ++ data) ((i + 1) * 5) = fieldAt 5 data (i * 5)
  rw [fieldAt_append_right (by rw [ByteVec.length_toBytes]; omega), ByteVec.length_toBytes]
  congr 1
  omega

/-- The addresses that are asked for are read as they were written. -/
theorem deserialize_serialize (addresses : List (ByteVec 5)) : deserialize (serialize addresses) = addresses := by
  induction addresses with
  | nil => rfl
  | cons a rest ih =>
    rw [serialize, List.flatMap_cons, deserialize_append]
    exact congrArg _ ih

end WhoisRequest

/-- The addresses an action asks to have resolved. -/
def NodeAction.neededAddresses : NodeAction → List (ByteVec 5)
  | .whoisNeeded addresses => addresses
  | _ => []

/-! ### The root -/

namespace Node
variable (pr : Primitives)

/-- A root that can be reached and whose packets we can seal. -/
def HasReachableRoot (n : Node) (now : UInt64) : Prop :=
  ∃ root ∈ n.topology.roots, ∃ peer, n.topology.getPeer root = some peer ∧
    (∃ path ∈ peer.paths, path.isAlive now = true) ∧ (n.sharedSecretForPeer pr root).isSome = true

variable {pr}

/-- Then one is asked, and it is such a root. -/
theorem whoisRoot_of_reachable {n : Node} {now : UInt64} (h : n.HasReachableRoot pr now) :
    ∃ root secret target, n.whoisRoot pr now = some (root, secret, target) := by
  obtain ⟨root, hroot, peer, hpeer, ⟨path, hpath, halive⟩, hsecret⟩ := h
  have hsome : (n.whoisRoot pr now).isSome = true := by
    unfold whoisRoot
    rw [List.findSome?_isSome_iff]
    refine ⟨root, hroot, ?_⟩
    obtain ⟨best, hbest⟩ := Peer.bestPath_isSome hpath halive
    obtain ⟨secret, hsecret⟩ := Option.isSome_iff_exists.mp hsecret
    simp [hpeer, hbest, hsecret]
  obtain ⟨⟨root, secret, target⟩, h⟩ := Option.isSome_iff_exists.mp hsome
  exact ⟨root, secret, target, h⟩

/-- The root that is asked is one of the roots, by an alive path and under its key. -/
theorem whoisRoot_some {n : Node} {now : UInt64} {root : ByteVec 5} {secret : Secret} {target : SocketAddr}
    (h : n.whoisRoot pr now = some (root, secret, target)) :
    root ∈ n.topology.roots ∧ n.sharedSecretForPeer pr root = some secret ∧
      ∃ peer path, n.topology.getPeer root = some peer ∧ path ∈ peer.paths ∧ path.isAlive now = true ∧
        path.address = target := by
  obtain ⟨root', hroot, h⟩ := List.exists_of_findSome?_eq_some h
  obtain ⟨peer, hpeer, h⟩ := Option.bind_eq_some_iff.mp h
  obtain ⟨path, hbest, h⟩ := Option.bind_eq_some_iff.mp h
  obtain ⟨secret', hsecret, heq⟩ := Option.map_eq_some_iff.mp h
  cases heq
  obtain ⟨hpath, halive⟩ := Peer.bestPath_mem hbest
  exact ⟨hroot, hsecret, peer, path, hpeer, hpath, halive, rfl⟩

end Node

/-! ### The drain -/

namespace Service
variable (pr : Primitives)

/-- The addresses of all sets of actions, each once and in order. -/
def drainWhoisActionsFromSets (n : Node) (actionSets : List (List NodeAction)) (now : UInt64) : Node × List NodeAction :=
  let targets := (actionSets.flatMap fun actions => actions.flatMap NodeAction.neededAddresses).dedup.insertionSort (· ≤ ·)
  if targets.isEmpty then (n, []) else n.sendWhois pr targets now

def drainWhoisActions (n : Node) (actions : List NodeAction) (now : UInt64) : Node × List NodeAction :=
  drainWhoisActionsFromSets pr n [actions] now

/-- One root that can be reached is sent packets in which it reads, between them, every
address that the actions ask to have resolved. -/
def CoversNeeded (n : Node) (actions : List NodeAction) (now : UInt64) (sent : List NodeAction) : Prop :=
  ∃ root ∈ n.topology.roots, ∃ secret peer path, n.sharedSecretForPeer pr root = some secret ∧
    n.topology.getPeer root = some peer ∧ path ∈ peer.paths ∧ path.isAlive now = true ∧
    ∀ address ∈ actions.flatMap NodeAction.neededAddresses, ∃ sealed opened, .sendTo sealed path.address ∈ sent ∧
      Salsa.dearmorPacket pr secret sealed = .ok opened ∧ (PacketHeader.read opened).verb = Verb.whois.toByte ∧
      (PacketHeader.read opened).dest = root ∧
      address ∈ WhoisRequest.deserialize (opened.drop Constants.minPacketLength)

variable {pr}

/-- What fits the buffer is sent in one packet. -/
theorem sendWhois_sends {n : Node} {addresses : List (ByteVec 5)} {now : UInt64} {root : ByteVec 5} {secret : Secret}
    {target : SocketAddr} (hroot : n.whoisRoot pr now = some (root, secret, target)) (hfits : addresses.length ≤ 96) :
    ∃ sealed opened, (n.sendWhois pr addresses now).2 = [.sendTo sealed target] ∧
      Salsa.dearmorPacket pr secret sealed = .ok opened ∧ (PacketHeader.read opened).verb = Verb.whois.toByte ∧
      (PacketHeader.read opened).dest = root ∧
      WhoisRequest.deserialize (opened.drop Constants.minPacketLength) = addresses := by
  have hbuild : RootManager.buildWhois n.identity root addresses now Node.whoisBufferSize =
      .ok (encryptedVerbPacket now n.identity.address.bytes root .whois (WhoisRequest.serialize addresses)) := by
    rw [RootManager.buildWhois, Node.whoisBufferSize, Constants.minPacketLength]
    exact if_neg (by omega)
  obtain ⟨sealed, opened, harmor, hopen, hverb, hdest, hpayload⟩ := opens_encrypted pr secret now
    n.identity.address.bytes root .whois (WhoisRequest.serialize addresses)
  refine ⟨sealed, opened, ?_, hopen, hverb, hdest, ?_⟩
  · simp only [Node.sendWhois, hroot, hbuild, Node.sendArmored, harmor, List.nil_append]
  · rw [hpayload]
    exact WhoisRequest.deserialize_serialize addresses

/-- What does not fit is dropped, all of it. -/
theorem sendWhois_drops (n : Node) {addresses : List (ByteVec 5)} (now : UInt64) (hlong : 96 < addresses.length) :
    (n.sendWhois pr addresses now).2 = [] := by
  unfold Node.sendWhois
  split
  · rfl
  · rename_i root secret target hroot
    have hbuild : RootManager.buildWhois n.identity root addresses now Node.whoisBufferSize =
        .error (.tooShort (Constants.minPacketLength + addresses.length * 5) Node.whoisBufferSize) := by
      rw [RootManager.buildWhois, Node.whoisBufferSize, Constants.minPacketLength]
      exact if_pos (by omega)
    rw [hbuild]

theorem targets_single (actions : List NodeAction) :
    ([actions].flatMap fun actions => actions.flatMap NodeAction.neededAddresses) =
      actions.flatMap NodeAction.neededAddresses := by
  simp

/-- What is asked for was few. -/
theorem few_of_covers {n : Node} {actions : List NodeAction} {now : UInt64}
    (h : CoversNeeded pr n actions now (drainWhoisActions pr n actions now).2) :
    (actions.flatMap NodeAction.neededAddresses).dedup.length ≤ 96 := by
  set needed := actions.flatMap NodeAction.neededAddresses with hneeded
  have hlength : (needed.dedup.insertionSort (· ≤ ·)).length = needed.dedup.length := List.length_insertionSort _ _
  by_contra hmany
  rw [not_le, ← hlength] at hmany
  obtain ⟨address, haddress⟩ := List.exists_mem_of_length_pos (Nat.zero_lt_of_lt hmany)
  obtain ⟨root, -, secret, peer, path, -, -, -, -, hall⟩ := h
  obtain ⟨sealed, opened, hsent, -⟩ :=
    hall address (List.mem_dedup.mp ((List.mem_insertionSort _).mp haddress))
  unfold drainWhoisActions drainWhoisActionsFromSets at hsent
  simp only [targets_single, ← hneeded] at hsent
  rw [if_neg (by simpa using List.ne_nil_of_mem haddress), sendWhois_drops n now hmany] at hsent
  cases hsent

/-- Every address is asked for up to a number. With a root that can be reached, what the
actions ask to have resolved is asked for exactly when it is at most 96 addresses. -/
theorem drain_covers_iff (pr : Primitives) (n : Node) (actions : List NodeAction) (now : UInt64)
    (hroot : n.HasReachableRoot pr now) :
    CoversNeeded pr n actions now (drainWhoisActions pr n actions now).2 ↔
      (actions.flatMap NodeAction.neededAddresses).dedup.length ≤ 96 := by
  refine ⟨few_of_covers, fun hfew => ?_⟩
  obtain ⟨root, secret, target, hwhois⟩ := Node.whoisRoot_of_reachable hroot
  obtain ⟨hmember, hsecret, peer, path, hpeer, hpath, halive, rfl⟩ := Node.whoisRoot_some hwhois
  refine ⟨root, hmember, secret, peer, path, hsecret, hpeer, hpath, halive, ?_⟩
  intro address haddress
  have htarget : address ∈ (actions.flatMap NodeAction.neededAddresses).dedup.insertionSort (· ≤ ·) := by
    simpa using haddress
  obtain ⟨sealed, opened, hsent, hopen, hverb, hdest, hread⟩ :=
    sendWhois_sends hwhois ((List.length_insertionSort (· ≤ ·) _).trans_le hfew)
  refine ⟨sealed, opened, ?_, hopen, hverb, hdest, by rw [hread]; exact htarget⟩
  unfold drainWhoisActions drainWhoisActionsFromSets
  simp only [targets_single]
  rw [if_neg (by simpa using List.ne_nil_of_mem htarget), hsent]
  exact List.mem_singleton_self _

/-- Root number 2 can be reached. -/
theorem reachable_start : Sample.start.HasReachableRoot Sample.primitives 1000 := by
  refine ⟨(Sample.identity 2).address.bytes, by decide, _, rfl, ⟨_, List.mem_cons_self, ?_⟩, ?_⟩
  · decide
  · decide

/-- Addresses that differ in their last byte. -/
def sampleAddresses (count : Nat) : List (ByteVec 5) := (List.range count).map fun i => ⟨[7, 0, 0, 0, UInt8.ofNat i], rfl⟩

theorem length_sampleAddresses (count : Nat) : (sampleAddresses count).length = count :=
  (List.length_map _).trans List.length_range

theorem drain_covers_three : CoversNeeded Sample.primitives Sample.start [.whoisNeeded (sampleAddresses 3)] 1000
    (drainWhoisActions Sample.primitives Sample.start [.whoisNeeded (sampleAddresses 3)] 1000).2 :=
  (drain_covers_iff Sample.primitives Sample.start _ 1000 reachable_start).mpr (by decide)

/-- Ninety-seven addresses are not asked for. -/
theorem drain_loses : ¬ ∀ (pr : Primitives) (n : Node) (actions : List NodeAction) (now : UInt64),
    n.HasReachableRoot pr now → CoversNeeded pr n actions now (drainWhoisActions pr n actions now).2 := by
  intro hall
  have hfew := few_of_covers (hall Sample.primitives Sample.start [.whoisNeeded (sampleAddresses 97)] 1000 reachable_start)
  have hnodup : (sampleAddresses 97).Nodup := by
    refine List.Nodup.map_on ?_ List.nodup_range
    intro i hi j hj heq
    have hlast : UInt8.ofNat i = UInt8.ofNat j := congrArg (fun a : ByteVec 5 => byteAt a.toBytes 4) heq
    have hsame := congrArg UInt8.toNat hlast
    rw [List.mem_range] at hi hj
    rwa [UInt8.toNat_ofNat', UInt8.toNat_ofNat', Nat.mod_eq_of_lt (by omega), Nat.mod_eq_of_lt (by omega)] at hsame
  have hneeded : [NodeAction.whoisNeeded (sampleAddresses 97)].flatMap NodeAction.neededAddresses = sampleAddresses 97 :=
    List.append_nil _
  rw [hneeded, List.dedup_eq_self.mpr hnodup, length_sampleAddresses] at hfew
  omega

end Service

end ManyTier
