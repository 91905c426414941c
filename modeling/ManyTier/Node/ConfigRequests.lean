import ManyTier.Node.Peers
import ManyTier.Node.Steady

/-! Asking controllers for configurations.

A network remembers when its configuration was last asked for, and 0 stands for never. A
round of requests asks for what is due and records the time; a note of an unknown
destination sets the time back to 0 after five seconds; a certificate that is installed
sets it back at once (`Call.Forgets`). Nothing else touches it. -/
namespace ManyTier

namespace Node
variable (pr : Primitives) (n : Node)

/-- The networks joined, each with the time it was last asked for. -/
def limits : List (UInt64 × UInt64) := n.networks.map NetworkMembership.limit

/-- The networks joined. -/
def networkIds : List UInt64 := n.networks.map NetworkMembership.networkId

theorem networkIds_eq : n.networkIds = n.limits.map Prod.fst := by
  rw [networkIds, limits, List.map_map]
  rfl

variable {n} in
theorem networkIds_of_steady {n' : Node} (h : Steady n n') : n'.networkIds = n.networkIds := by
  rw [networkIds_eq, networkIds_eq, limits, limits, h.limits]

theorem networkIds_modifyNetwork (networkId : UInt64) {f : NetworkMembership → NetworkMembership}
    (hf : ∀ net, (f net).networkId = net.networkId) : (n.modifyNetwork networkId f).networkIds = n.networkIds :=
  map_modifyFirst _ fun net _ => hf net

/-! ### One request -/

theorem peers_sendEncrypted (dest : ByteVec 5) (verb : Verb) (payload : Bytes) (secret : Secret)
    (address : SocketAddr) :
    (n.sendEncrypted pr dest verb payload secret address).topology = n.topology :=
  (onlySends_sendEncrypted pr n ..).topology

theorem topology_peers_requestConfig (now networkId : UInt64) :
    (requestConfig pr now n networkId).topology.peers = n.topology.peers := by
  unfold requestConfig requestController
  simp only
  split
  · rfl
  · split
    · split <;> rfl
    · split
      · rfl
      · exact congrArg Topology.peers (peers_sendEncrypted pr n ..)

/-- The packet that asks for a configuration. -/
theorem configRequests_sendRequest (dest : ByteVec 5) (networkId : UInt64) (dictData : Bytes) (secret : Secret)
    (address : SocketAddr) :
    (n.sendEncrypted pr dest .networkConfigRequest (NetworkConfigRequestPayload.serialize ⟨networkId, dictData⟩) secret
      address).configRequests = n.configRequests ++ [networkId] := by
  obtain ⟨sealed, harmor⟩ := isOk_armorPacket_encrypted pr secret n.nextPacketId n.address dest
    .networkConfigRequest (NetworkConfigRequestPayload.serialize ⟨networkId, dictData⟩)
  have hread : Armored.configRequest ⟨secret, encryptedVerbPacket n.nextPacketId n.address dest
      .networkConfigRequest (NetworkConfigRequestPayload.serialize ⟨networkId, dictData⟩)⟩ = some networkId := by
    have hverb : Verb.networkConfigRequest.toByte &&& 0x1f = Verb.networkConfigRequest.toByte := by decide
    rw [Armored.configRequest, encryptedVerbPacket, read_plainHeader, if_pos hverb,
      u64At_append (by rw [length_plainHeader]; exact Nat.le_refl 28), length_plainHeader]
    exact congrArg some (u64At_be64 networkId _)
  unfold sendEncrypted sendArmored
  simp only [allocatePacketId]
  rw [show (Node.address { n with nextPacketId := succPacketId n.nextPacketId }) = n.address from rfl, harmor]
  simp [configRequests, hread]

theorem configRequests_modifyNetwork (networkId : UInt64) (f : NetworkMembership → NetworkMembership) :
    (n.modifyNetwork networkId f).configRequests = n.configRequests := rfl

/-- A request goes to a controller with a session, and its time is recorded; without one
nothing is asked for. -/
theorem requestConfig_cases (now networkId : UInt64) :
    Steady n (requestConfig pr now n networkId) ∨
    (n.hasSession (controllerAddressFromNetworkId networkId) = true ∧
      (requestConfig pr now n networkId).configRequests = n.configRequests ++ [networkId] ∧
      (requestConfig pr now n networkId).networks = modifyFirst (fun net => net.networkId = networkId)
        (fun net => { net with lastConfigRequest := now }) n.networks) := by
  unfold requestConfig requestController
  simp only
  split
  · exact .inl (.refl n)
  · split
    · split
      · exact .inl ⟨rfl, rfl, rfl, rfl, rfl⟩
      · exact .inl (.refl n)
    · rename_i hsession
      split
      · exact .inl (.refl n)
      · refine .inr ⟨by simpa using hsession, ?_, ?_⟩
        · rw [configRequests_modifyNetwork]
          exact configRequests_sendRequest pr n ..
        · rw [modifyNetwork, (onlySends_sendEncrypted pr n ..).networks]

/-! ### A round of requests -/

/-- The time recorded for the networks asked for. -/
def stamp (now : UInt64) (sent : List UInt64) (limit : UInt64 × UInt64) : UInt64 × UInt64 :=
  if limit.1 ∈ sent then (limit.1, now) else limit

theorem stamp_stamp (now : UInt64) (first sent : List UInt64) (limit : UInt64 × UInt64) :
    stamp now sent (stamp now first limit) = stamp now (first ++ sent) limit := by
  by_cases hfirst : limit.1 ∈ first
  · simp [stamp, hfirst]
  · simp [stamp, hfirst]

/-- What a round of requests does: it sends some, and records when. -/
structure Requested (now : UInt64) (sent : List UInt64) (n n' : Node) : Prop where
  requests : n'.configRequests = n.configRequests ++ sent
  limits : n'.limits = n.limits.map (stamp now sent)

theorem requested_of_steady {n n' : Node} (h : Steady n n') (now : UInt64) : Requested now [] n n' := by
  refine ⟨by rw [h.requests, List.append_nil], h.limits.trans ?_⟩
  have hnone : stamp now [] = id := funext fun _ => if_neg List.not_mem_nil
  rw [hnone, List.map_id]
  rfl

variable {n} in
theorem requested_requestConfig (now networkId : UInt64) (hids : n.networkIds.Nodup) :
    Requested now [] n (requestConfig pr now n networkId) ∨
    (n.hasSession (controllerAddressFromNetworkId networkId) = true ∧
      Requested now [networkId] n (requestConfig pr now n networkId)) := by
  rcases requestConfig_cases pr n now networkId with hsteady | ⟨hsession, hrequests, hnetworks⟩
  · exact .inl (requested_of_steady hsteady now)
  · refine .inr ⟨hsession, hrequests, ?_⟩
    rw [limits, hnetworks, modifyFirst_eq_map NetworkMembership.networkId networkId hids, limits, List.map_map,
      List.map_map]
    refine List.map_congr_left fun net _ => ?_
    by_cases hid : net.networkId = networkId
    · simp [NetworkMembership.limit, stamp, hid]
    · simp [NetworkMembership.limit, stamp, hid]

theorem Requested.networkIds {now : UInt64} {sent : List UInt64} {n n' : Node} (h : Requested now sent n n') :
    n'.networkIds = n.networkIds := by
  rw [networkIds_eq, networkIds_eq, h.limits, List.map_map]
  refine List.map_congr_left fun limit _ => ?_
  unfold Function.comp stamp
  split <;> rfl

theorem Requested.trans {now : UInt64} {first sent : List UInt64} {a b c : Node} (h : Requested now first a b)
    (h' : Requested now sent b c) : Requested now (first ++ sent) a c := by
  refine ⟨by rw [h'.requests, h.requests, List.append_assoc], ?_⟩
  rw [h'.limits, h.limits, List.map_map]
  exact List.map_congr_left fun limit _ => stamp_stamp now first sent limit

theorem foldl_requestConfig (now : UInt64) (due : List UInt64) (hids : n.networkIds.Nodup) :
    ∃ sent, sent.Sublist due ∧ Requested now sent n (due.foldl (requestConfig pr now) n) ∧
      ∀ networkId ∈ sent, n.hasSession (controllerAddressFromNetworkId networkId) = true := by
  induction due generalizing n with
  | nil => exact ⟨[], List.Sublist.refl _, requested_of_steady (.refl n) now, by simp⟩
  | cons networkId rest ih =>
    set m := requestConfig pr now n networkId with hm
    have hsessions : ∀ address, m.hasSession address = n.hasSession address := by
      intro address
      rw [hasSession, hasSession, Topology.getPeer, Topology.getPeer, hm, topology_peers_requestConfig]
    rcases requested_requestConfig pr now networkId hids with hnone | ⟨hsession, hone⟩
    · obtain ⟨sent, hsub, hrest, hall⟩ := ih m (hnone.networkIds ▸ hids)
      refine ⟨sent, hsub.cons _, hnone.trans hrest, fun id hid => ?_⟩
      exact (hsessions _).symm.trans (hall id hid)
    · obtain ⟨sent, hsub, hrest, hall⟩ := ih m (hone.networkIds ▸ hids)
      refine ⟨networkId :: sent, hsub.cons_cons _, hone.trans hrest, fun id hid => ?_⟩
      rcases List.mem_cons.mp hid with rfl | hid
      · exact hsession
      · exact (hsessions _).symm.trans (hall id hid)

/-- A round asks once for each network it asks for, all of them due and with a session. -/
theorem queueConfigRequests_requested (now : UInt64) (hids : n.networkIds.Nodup) :
    ∃ sent, sent.Nodup ∧ Requested now sent n (n.queueConfigRequests pr now) ∧
      ∀ networkId ∈ sent, n.hasSession (controllerAddressFromNetworkId networkId) = true ∧
        ∃ net ∈ n.networks, net.networkId = networkId ∧ configDue now net = true := by
  set want : NetworkMembership → NetworkMembership := fun net =>
    if configWanted now net then { net with pendingConfigRequest := true } else net with hwant
  set m : Node := { n with networks := n.networks.map want } with hm
  have hlimit : ∀ net, (want net).limit = net.limit := by
    intro net
    simp only [hwant]
    split <;> rfl
  have hlimits : m.limits = n.limits := by
    rw [limits, limits, hm, List.map_map]
    exact List.map_congr_left fun net _ => hlimit net
  have hmids : m.networkIds.Nodup := by
    rw [networkIds_eq, hlimits, ← networkIds_eq]
    exact hids
  obtain ⟨sent, hsub, hsent, hsessions⟩ := foldl_requestConfig pr m now
    ((n.networks.filter (configDue now)).map NetworkMembership.networkId) hmids
  refine ⟨sent, hsub.nodup (hids.sublist (List.filter_sublist.map _)), ⟨hsent.requests, ?_⟩, fun id hid => ?_⟩
  · exact hsent.limits.trans (by rw [hlimits])
  · obtain ⟨net, hnet, rfl⟩ := List.mem_map.mp (hsub.subset hid)
    obtain ⟨hmem, hdue⟩ := List.mem_filter.mp hnet
    exact ⟨hsessions _ hid, net, hmem, rfl, hdue⟩

/-! ### The timer, up to its requests -/

theorem hasSession_iff (address : ByteVec 5) :
    n.hasSession address = true ↔ ∃ peer, n.topology.getPeer address = some peer ∧ peer.sharedSecret.isSome = true := by
  unfold hasSession
  split
  · rename_i peer hpeer
    simp [hpeer]
  · rename_i hnone
    simp [hnone]

/-- A peer that has a session had it in a node. -/
def HadSession (address : ByteVec 5) (p : Peer) : Prop := p.sharedSecret.isSome = true → n.hasSession address = true

theorem hadSession_timerKeeps : TimerKeeps (HadSession n) where
  greeted := by
    intro address p packetId target now hp hsecret
    have hsent : (p.onHelloSent packetId now).sharedSecret.isSome = true := hsecret
    unfold Peer.onHelloSent at hsent
    split at hsent
    · rename_i hstate
      exact hp (by simp [Peer.sharedSecret, hstate])
    all_goals cases hsent
  waiting := by
    intro address p now _ hsecret
    cases hsecret
  pushed := fun _ _ _ hp hsecret => hp hsecret
  stale := by
    intro address p now hp hsecret
    unfold Peer.markStale at hsecret
    split at hsecret
    · cases hsecret
    · exact hp hsecret

/-- The greetings of the timer start no session. -/
theorem hasSession_greetings (now : UInt64) {address : ByteVec 5}
    (h : (n.greetings pr now).hasSession address = true) : n.hasSession address = true := by
  have hnow : PeersHold n.identity n.topology.worlds (HadSession n) n :=
    ⟨rfl, rfl, fun a peer hpeer hsecret => (hasSession_iff n a).mpr ⟨peer, hpeer, hsecret⟩⟩
  obtain ⟨peer, hpeer, hsecret⟩ := (hasSession_iff _ address).mp h
  exact (hnow.greetings pr (hadSession_timerKeeps n) now).each address peer hpeer hsecret

theorem requests_takeActions : n.takeActions.1.configRequests = n.configRequests := rfl

theorem limits_takeActions : n.takeActions.1.limits = n.limits := rfl

/-- A tick asks for what is due, as a flush does, and the rest of it asks for nothing. -/
theorem tick_requested (now : UInt64) (hids : n.networkIds.Nodup) :
    ∃ sent, sent.Nodup ∧ Requested now sent n (n.tick pr now).1 ∧
      ∀ networkId ∈ sent, n.hasSession (controllerAddressFromNetworkId networkId) = true ∧
        ∃ net ∈ n.networks, net.networkId = networkId ∧ configDue now net = true := by
  have hrequests : (n.greetings pr now).configRequests = n.configRequests := (steady_greetings pr n now).requests
  have hnetworks : (n.greetings pr now).networks = n.networks := networks_greetings pr n now
  have hlimits : (n.greetings pr now).limits = n.limits := congrArg (List.map NetworkMembership.limit) hnetworks
  have hsessions : ∀ address, (n.greetings pr now).hasSession address = true → n.hasSession address = true :=
    fun _ => hasSession_greetings pr n now
  rw [tick_eq]
  generalize n.greetings pr now = m at *
  have hmids : m.networkIds.Nodup := by
    rw [networkIds, hnetworks]
    exact hids
  obtain ⟨sent, hnodup, hsent, hdue⟩ := queueConfigRequests_requested pr m now hmids
  generalize m.queueConfigRequests pr now = asked at *
  have hround := steady_multicastRound pr asked now
  refine ⟨sent, hnodup, ⟨?_, ?_⟩, fun id hid => ?_⟩
  · rw [requests_takeActions, hround.requests, hsent.requests, hrequests]
  · rw [limits_takeActions, limits, hround.limits, ← hlimits]
    exact hsent.limits
  · obtain ⟨hsession, net, hnet, hrest⟩ := hdue id hid
    exact ⟨hsessions _ hsession, net, hnetworks ▸ hnet, hrest⟩

/-! ### Limits that are lifted -/

/-- A note of an unknown destination forgets the last request after five seconds. -/
theorem limits_noteUnknownDestination (networkId now : UInt64) :
    ∀ limit' ∈ (Vl2.noteUnknownDestination n networkId now).limits, ∃ limit ∈ n.limits, limit'.1 = limit.1 ∧
      (limit'.2 = limit.2 ∨ (limit'.2 = 0 ∧ 5000 ≤ satSub now limit.2)) := by
  intro limit' h
  obtain ⟨net', hnet', rfl⟩ := List.mem_map.mp h
  rcases mem_modifyFirst hnet' with hold | ⟨net, hnet, rfl⟩
  · exact ⟨_, List.mem_map_of_mem hold, rfl, .inl rfl⟩
  · refine ⟨_, List.mem_map_of_mem (List.mem_of_find?_eq_some hnet), rfl, ?_⟩
    unfold NetworkMembership.limit
    simp only
    split
    · rename_i hdue
      exact .inr ⟨rfl, hdue⟩
    · exact .inl rfl

end Node

/-- A call that installs a certificate for a network, with the time that network was last
asked for. -/
def Call.Forgets (pr : Primitives) (c : Call) (networkId last : UInt64) : Prop :=
  ∃ d com net, c.dispatched pr = some d ∧ Verb.fromByte d.verbId = some .networkCredentials ∧
    Node.credentialsCom d.packet = some (networkId, com) ∧ c.before.findNetwork networkId = some net ∧
    net.lastConfigRequest = last ∧ last ≠ 0

namespace Node
variable {pr : Primitives}

/-- No request was sent since a node was entered, and a limit that was lifted is on record. -/
structure Unasked (forgotten : UInt64 → UInt64 → Prop) (entered n : Node) : Prop where
  requests : n.configRequests = entered.configRequests
  networkIds : n.networkIds = entered.networkIds
  limits : ∀ limit' ∈ n.limits, ∃ limit ∈ entered.limits, limit'.1 = limit.1 ∧
    (limit'.2 = limit.2 ∨ (limit'.2 = 0 ∧ forgotten limit.1 limit.2))

section
variable {forgotten : UInt64 → UInt64 → Prop} {entered n n' : Node}

theorem Unasked.refl (n : Node) : Unasked forgotten n n :=
  ⟨rfl, rfl, fun limit h => ⟨limit, h, rfl, .inl rfl⟩⟩

theorem Unasked.of_same (h : Unasked forgotten entered n) (hrequests : n'.configRequests = n.configRequests)
    (hlimits : n'.limits = n.limits) : Unasked forgotten entered n' := by
  refine ⟨hrequests.trans h.requests, ?_, hlimits ▸ h.limits⟩
  rw [networkIds_eq, hlimits, ← networkIds_eq]
  exact h.networkIds

theorem Unasked.of_steady (h : Unasked forgotten entered n) (hn : Steady n n') : Unasked forgotten entered n' :=
  h.of_same hn.requests hn.limits

/-- A certificate installed lifts a limit, and that is on record. -/
theorem Unasked.handleNetworkCredentials (h : Unasked forgotten entered n) (packet : Bytes)
    (hforgets : ∀ networkId com net, credentialsCom packet = some (networkId, com) →
      n.findNetwork networkId = some net → net.lastConfigRequest ≠ 0 →
      forgotten networkId net.lastConfigRequest) :
    Unasked forgotten entered (n.handleNetworkCredentials packet) := by
  unfold Node.handleNetworkCredentials
  split
  · exact h
  · rename_i networkId com hcom
    refine ⟨h.requests, ?_, fun limit' hlimit' => ?_⟩
    · rw [networkIds_modifyNetwork n networkId (f := installCom com) fun _ => rfl]
      exact h.networkIds
    · obtain ⟨net', hnet', rfl⟩ := List.mem_map.mp hlimit'
      rcases mem_modifyFirst hnet' with hold | ⟨net, hnet, rfl⟩
      · exact h.limits _ (List.mem_map_of_mem hold)
      · obtain ⟨limit, hlimit, hid, hlast⟩ := h.limits _ (List.mem_map_of_mem (List.mem_of_find?_eq_some hnet))
        refine ⟨limit, hlimit, hid, ?_⟩
        have hnetId : net.networkId = networkId := by simpa using List.find?_some hnet
        rcases hlast with hlast | ⟨-, hforgotten⟩
        · by_cases hzero : limit.2 = 0
          · exact .inl hzero.symm
          · have hlast' : net.lastConfigRequest = limit.2 := hlast
            refine .inr ⟨rfl, ?_⟩
            have hrecord := hforgets networkId com net hcom hnet (hlast' ▸ hzero)
            rw [hlast', ← hnetId] at hrecord
            rw [← hid]
            exact hrecord
        · exact .inr ⟨rfl, hforgotten⟩

end

variable (pr) in
/-- Receiving asks for nothing, and lifts the limits its calls forget. -/
theorem unasked_invariant (forgotten : UInt64 → UInt64 → Prop) (entered : Node) :
    CallInvariant pr (fun c => ∀ networkId last, c.Forgets pr networkId last → forgotten networkId last)
      (Unasked forgotten entered) := by
  have hnoted : ∀ (c : Call) d, c.dispatched pr = some d → Unasked forgotten entered c.before →
      Unasked forgotten entered d.node := by
    intro c d hd h
    rw [Call.dispatched_node hd]
    exact h.of_same rfl rfl
  refine ⟨fun n _ _ _ h => h.of_same rfl rfl, ?_, ?_, fun c d _ hd _ _ h => hnoted c d hd h, ?_⟩
  · intro n data fromAddr now n' hadmitted h
    obtain ⟨-, rfl | rfl | rfl⟩ := admitPacket_finished hadmitted
    · exact h.of_same rfl rfl
    · have hclear : Unasked forgotten entered { n with actions := [] } := h.of_same rfl rfl
      exact hclear.of_steady (steady_handleRelay pr _ data now)
    · unfold dropUnopened
      simp only
      split
      · exact h.of_same rfl rfl
      · exact h.of_same rfl rfl
  · intro c d n' hforgets hd halone h
    have hnode := hnoted c d hd h
    rcases handleAlone_steady pr halone with hsteady | ⟨-, rfl⟩ | ⟨hverb, rfl⟩ | ⟨-, packetId, data, rfl⟩
    · exact hnode.of_steady hsteady
    · unfold Vl2.handleMulticastLike
      split
      · exact hnode
      · exact hnode.of_same rfl rfl
    · refine hnode.handleNetworkCredentials d.packet fun networkId com net hcom hnet hlast => ?_
      have hnet' : c.before.findNetwork networkId = some net := by
        rw [Call.dispatched_node hd] at hnet
        exact hnet
      exact hforgets networkId _ ⟨d, com, net, hd, hverb, hcom, hnet', rfl, hlast⟩
    · unfold handleMulticastGatherOk
      split
      · exact hnode.of_same rfl rfl
      · exact hnode
  · exact fun n identity now h => h.of_steady (steady_learnIdentity pr n identity now)

end Node

end ManyTier
