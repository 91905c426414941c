import ManyTier.Node.Peers
import ManyTier.Service.ConfigResponse

/-! A node as the service drives it: one step for each thing that can happen to it.

A run is any sequence of these steps. A step records the calls of `receivePacket` made
in it, nested ones included. -/
namespace ManyTier

/-- What happens to a node. -/
inductive Event where
  | receive (data : Bytes) (fromAddr : SocketAddr) (now : UInt64)
  | tick (now : UInt64)
  | bootstrap (now : UInt64)
  | flushConfigRequests (now : UInt64)
  | outboundFrame (networkId : UInt64) (ethertype : UInt16) (payload : Bytes) (now : UInt64)
  | sendWhois (addresses : List (ByteVec 5)) (now : UInt64)
  | setLocalAddresses (addresses : List SocketAddr)
  | joinNetwork (membership : NetworkMembership)
  | rejoinNetwork (networkId : UInt64)
  | leaveNetwork (networkId : UInt64)
  | recordPeerCom (networkId : UInt64) (peerAddress : ByteVec 5) (com : CertificateOfMembership)
  | respondConfig (requesterAddress : ByteVec 5) (requestPacketId networkId : UInt64) (dictData : Bytes)
      (credentials : NetworkCredentialsPayload) (fromAddr : SocketAddr)
  | loadMoon (moon : World)
  | unloadMoon (moonId : UInt64)

/-- What a step gives: actions for the transport, and the calls it made. -/
structure Output where
  actions : List NodeAction
  calls : List Call

namespace Service
variable (pr : Primitives)

/-- The certificate issued to a peer replaces what was filed for it. -/
def recordPeerCom (n : Node) (networkId : UInt64) (peerAddress : ByteVec 5)
    (com : CertificateOfMembership) : Node :=
  n.modifyNetwork networkId fun net =>
    { net with peerComs := net.peerComs.filter (fun e => e.1 ≠ peerAddress) ++ [(peerAddress, com)] }

/-- The size of the buffer the credentials are written to. -/
def credentialsBufferSize : Nat := 512

/-- The credentials in their buffer. Writing past its end does not return. -/
def credentialsPayload (credentials : NetworkCredentialsPayload) : Except Fault Bytes :=
  if credentialsBufferSize < credentials.serialize.length then .error .panic else .ok credentials.serialize

/-- The credentials, in a packet of their own. -/
def sendCredentials (n : Node) (requesterAddress : ByteVec 5) (credentials : NetworkCredentialsPayload)
    (secret : Secret) (fromAddr : SocketAddr) : Except Fault Node := do
  let payload ← credentialsPayload credentials
  return n.sendEncrypted pr requesterAddress .networkCredentials payload secret fromAddr

/-- The controller's answer: the configuration in chunks, then the credentials. -/
def respondConfig (n : Node) (requesterAddress : ByteVec 5) (requestPacketId networkId : UInt64)
    (dictData : Bytes) (credentials : NetworkCredentialsPayload) (fromAddr : SocketAddr) : Except Fault Node :=
  match n.sharedSecretForPeer pr requesterAddress with
  | none => .ok n
  | some secret =>
    match buildNetworkConfigResponsePackets pr n requesterAddress requestPacketId networkId dictData
        secret with
    | (n, some (packet :: packets)) =>
      let n := { n with
        actions := n.actions ++ (packet :: packets).map (NodeAction.sendTo · fromAddr) }
      sendCredentials pr n requesterAddress credentials secret fromAddr
    | (n, _) => .ok n

/-- A network already joined is asked for again. -/
def rejoinNetwork (n : Node) (networkId : UInt64) : Node :=
  n.modifyNetwork networkId fun net => { net with pendingConfigRequest := true, lastConfigRequest := 0 }

def leaveNetwork (n : Node) (networkId : UInt64) : Node :=
  { n with networks := n.networks.filter fun net => net.networkId ≠ networkId }

/-- One step. -/
def step (n : Node) : Event → Except Fault (Node × Output)
  | .receive data fromAddr now => do
    let r ← n.receivePacket pr data fromAddr now
    return (r.node, ⟨r.actions, r.calls⟩)
  | .tick now => .ok ((n.tick pr now).1, ⟨(n.tick pr now).2, []⟩)
  | .bootstrap now => .ok ((n.bootstrap pr now).1, ⟨(n.bootstrap pr now).2, []⟩)
  | .flushConfigRequests now =>
    .ok ((n.flushConfigRequests pr now).1, ⟨(n.flushConfigRequests pr now).2, []⟩)
  | .outboundFrame networkId ethertype payload now => do
    let (n, actions) ← Vl2.processOutboundFrame pr n networkId ethertype payload n.address now
    return (n, ⟨actions, []⟩)
  | .sendWhois addresses now => .ok ((n.sendWhois pr addresses now).1, ⟨(n.sendWhois pr addresses now).2, []⟩)
  | .setLocalAddresses addresses => .ok (n.setLocalAddresses addresses, ⟨[], []⟩)
  | .joinNetwork membership => .ok (n.joinNetwork membership, ⟨[], []⟩)
  | .rejoinNetwork networkId => .ok (rejoinNetwork n networkId, ⟨[], []⟩)
  | .leaveNetwork networkId => .ok (leaveNetwork n networkId, ⟨[], []⟩)
  | .recordPeerCom networkId peerAddress com => .ok (recordPeerCom n networkId peerAddress com, ⟨[], []⟩)
  | .respondConfig requesterAddress requestPacketId networkId dictData credentials fromAddr => do
    let n ← respondConfig pr n requesterAddress requestPacketId networkId dictData credentials fromAddr
    return (n, ⟨[], []⟩)
  | .loadMoon moon => do
    match ← n.topology.loadMoon pr moon with
    | .ok topology => return ({ n with topology }, ⟨[], []⟩)
    | .error _ => return (n, ⟨[], []⟩)
  | .unloadMoon moonId => .ok ({ n with topology := (n.topology.unloadMoon moonId).1 }, ⟨[], []⟩)

/-- Runs of a node. -/
abbrev NodeRun (pr : Primitives) (n : Node) (t : List (Entry Node Event Output)) (n' : Node) : Prop :=
  Run (step pr) n t n'

theorem onlySends_responseChunks (requesterAddress : ByteVec 5)
    (requestPacketId networkId configUpdateId : UInt64) (dictData : Bytes) (sharedSecret : Secret)
    (chunks : List Nat) (n : Node) :
    OnlySends n (responseChunks pr requesterAddress requestPacketId networkId configUpdateId dictData
      sharedSecret chunks n).1 := by
  induction chunks generalizing n with
  | nil => exact .refl n
  | cons i rest ih =>
    unfold responseChunks
    split
    · exact .refl n
    · simp only
      split
      · exact Node.onlySends_allocatePacketId n
      · refine OnlySends.trans ?_ (ih _)
        exact ⟨⟨⟨rfl, rfl, rfl, rfl⟩, rfl, rfl⟩, rfl⟩

/-- The packets of an answer are only sent. -/
theorem onlySends_build (n : Node) (requesterAddress : ByteVec 5) (requestPacketId networkId : UInt64)
    (dictData : Bytes) (sharedSecret : Secret) :
    OnlySends n (buildNetworkConfigResponsePackets pr n requesterAddress requestPacketId networkId dictData
      sharedSecret).1 := by
  unfold buildNetworkConfigResponsePackets
  split
  · exact .refl n
  · exact (Node.onlySends_allocatePacketId n).trans (onlySends_responseChunks pr ..)

theorem onlySends_respondConfig {n n' : Node} {requesterAddress : ByteVec 5}
    {requestPacketId networkId : UInt64} {dictData : Bytes} {credentials : NetworkCredentialsPayload}
    {fromAddr : SocketAddr}
    (h : respondConfig pr n requesterAddress requestPacketId networkId dictData credentials fromAddr = .ok n') :
    OnlySends n n' := by
  unfold respondConfig at h
  split at h
  · cases h
    exact .refl n
  · rename_i secret _
    have hbuild := onlySends_build pr n requesterAddress requestPacketId networkId dictData secret
    split at h
    · rename_i m packet packets hm
      rw [hm] at hbuild
      obtain ⟨payload, -, heq⟩ := bind_eq_ok h
      cases heq
      refine (hbuild.trans ?_).trans (Node.onlySends_sendEncrypted pr _ ..)
      refine ⟨⟨⟨rfl, rfl, rfl, ?_⟩, rfl, rfl⟩, rfl⟩
      have hnone : ((packet :: packets).map (NodeAction.sendTo · fromAddr)).filter NodeAction.isForHost = [] := by
        simp [List.filter_eq_nil_iff, NodeAction.isForHost]
      rw [List.filter_append, hnone, List.append_nil]
    · rename_i m _ _ hm
      rw [hm] at hbuild
      cases h
      exact hbuild

variable {pr : Primitives} {n n' : Node} {t : List (Entry Node Event Output)}

/-- What a step received, if it received something. -/
theorem step_receive {data : Bytes} {fromAddr : SocketAddr} {now : UInt64} {o : Output}
    (h : step pr n (.receive data fromAddr now) = .ok (n', o)) :
    ∃ r, n.receivePacket pr data fromAddr now = .ok r ∧ n' = r.node ∧ o = ⟨r.actions, r.calls⟩ := by
  obtain ⟨r, hr, heq⟩ := bind_eq_ok h
  cases heq
  exact ⟨r, hr, rfl, rfl⟩

/-- Only a datagram received makes calls. -/
theorem step_calls {e : Event} {o : Output} (h : step pr n e = .ok (n', o)) {c : Call} (hc : c ∈ o.calls) :
    ∃ data fromAddr now, e = .receive data fromAddr now := by
  cases e with
  | receive data fromAddr now => exact ⟨data, fromAddr, now, rfl⟩
  | outboundFrame networkId ethertype payload now =>
    obtain ⟨r, -, heq⟩ := bind_eq_ok h
    cases heq
    cases hc
  | respondConfig requesterAddress requestPacketId networkId dictData credentials fromAddr =>
    obtain ⟨m, -, heq⟩ := bind_eq_ok h
    cases heq
    cases hc
  | loadMoon moon =>
    obtain ⟨r, -, heq⟩ := bind_eq_ok h
    cases r <;> · cases heq; cases hc
  | _ =>
    obtain ⟨-, rfl⟩ := Prod.mk.inj (Except.ok.inj h)
    cases hc

/-- What the steps that receive nothing do to the configurations: they keep them, or a
network is joined or left, or the host records a certificate. -/
theorem step_configs {e : Event} {o : Output} (h : step pr n e = .ok (n', o))
    (hnot : ∀ data fromAddr now, e ≠ .receive data fromAddr now) :
    KeepsConfigs n n' ∨ (∃ membership, e = .joinNetwork membership ∧ n' = n.joinNetwork membership) ∨
    (∃ networkId, e = .leaveNetwork networkId ∧ n' = leaveNetwork n networkId) ∨
    (∃ networkId peerAddress com, e = .recordPeerCom networkId peerAddress com ∧
      n' = recordPeerCom n networkId peerAddress com) := by
  cases e with
  | receive data fromAddr now => exact absurd rfl (hnot data fromAddr now)
  | outboundFrame networkId ethertype payload now =>
    obtain ⟨⟨m, actions⟩, hm, heq⟩ := bind_eq_ok h
    cases heq
    exact .inl (Node.keeps_processOutboundFrame pr hm).2
  | loadMoon moon =>
    obtain ⟨r, -, heq⟩ := bind_eq_ok h
    cases r <;> · cases heq; exact .inl ⟨rfl, rfl, rfl⟩
  | tick now =>
    obtain ⟨rfl, -⟩ := Prod.mk.inj (Except.ok.inj h)
    exact .inl (Node.keepsConfigs_tick pr n now)
  | bootstrap now =>
    obtain ⟨rfl, -⟩ := Prod.mk.inj (Except.ok.inj h)
    exact .inl (Node.keepsConfigs_bootstrap pr n now)
  | flushConfigRequests now =>
    obtain ⟨rfl, -⟩ := Prod.mk.inj (Except.ok.inj h)
    exact .inl (Node.keepsConfigs_flushConfigRequests pr n now)
  | sendWhois addresses now =>
    obtain ⟨rfl, -⟩ := Prod.mk.inj (Except.ok.inj h)
    exact .inl (Node.onlySends_sendWhois pr n addresses now).keepsConfigs
  | respondConfig requesterAddress requestPacketId networkId dictData credentials fromAddr =>
    obtain ⟨m, hm, heq⟩ := bind_eq_ok h
    cases heq
    exact .inl (onlySends_respondConfig pr hm).keepsConfigs
  | rejoinNetwork networkId =>
    obtain ⟨rfl, -⟩ := Prod.mk.inj (Except.ok.inj h)
    exact .inl (Node.keepsConfigs_modifyNetwork n networkId fun _ => rfl)
  | setLocalAddresses addresses =>
    obtain ⟨rfl, -⟩ := Prod.mk.inj (Except.ok.inj h)
    exact .inl ⟨rfl, rfl, rfl⟩
  | unloadMoon moonId =>
    obtain ⟨rfl, -⟩ := Prod.mk.inj (Except.ok.inj h)
    exact .inl ⟨rfl, rfl, rfl⟩
  | joinNetwork membership =>
    obtain ⟨rfl, -⟩ := Prod.mk.inj (Except.ok.inj h)
    exact .inr (.inl ⟨membership, rfl, rfl⟩)
  | leaveNetwork networkId =>
    obtain ⟨rfl, -⟩ := Prod.mk.inj (Except.ok.inj h)
    exact .inr (.inr (.inl ⟨networkId, rfl, rfl⟩))
  | recordPeerCom networkId peerAddress com =>
    obtain ⟨rfl, -⟩ := Prod.mk.inj (Except.ok.inj h)
    exact .inr (.inr (.inr ⟨networkId, peerAddress, com, rfl, rfl⟩))

/-- What holds of every membership is kept by the steps that receive nothing, if it holds
of what is joined and a certificate that is recorded keeps it. -/
theorem step_each {P : NetworkMembership → Prop}
    (hP : ∀ net net' : NetworkMembership, net.config = net'.config → P net → P net')
    {e : Event} {o : Output} (h : step pr n e = .ok (n', o))
    (hnot : ∀ data fromAddr now, e ≠ .receive data fromAddr now)
    (hjoined : ∀ membership, e = .joinNetwork membership → P membership)
    (hrecorded : ∀ networkId peerAddress com, e = .recordPeerCom networkId peerAddress com → ∀ net : NetworkMembership,
      P net → P { net with peerComs := net.peerComs.filter (fun e => e.1 ≠ peerAddress) ++ [(peerAddress, com)] })
    (hn : n.Each P) : n'.Each P := by
  rcases step_configs h hnot with hkeeps | ⟨membership, rfl, rfl⟩ | ⟨networkId, rfl, rfl⟩ |
    ⟨networkId, peerAddress, com, rfl, rfl⟩
  · exact hn.keepsConfigs hP hkeeps
  · unfold Node.joinNetwork
    split
    · exact hn
    · intro net hnet
      rcases List.mem_append.mp hnet with hnet | hnet
      · exact hn net hnet
      · obtain rfl := List.mem_singleton.mp hnet
        exact hjoined _ rfl
  · exact fun net hnet => hn net (List.mem_filter.mp hnet).1
  · exact hn.modifyNetwork networkId fun net _ hold => hrecorded _ _ _ rfl net hold

/-- The steps that neither receive nor load or unload a moon do to a peer what the timer
does, or nothing. -/
theorem step_peersHold {us : Identity} {worlds : Option World × List World} {P : ByteVec 5 → Peer → Prop}
    (hP : TimerKeeps P) {e : Event} {o : Output} (h : step pr n e = .ok (n', o))
    (hnot : ∀ data fromAddr now, e ≠ .receive data fromAddr now) (hload : ∀ moon, e ≠ .loadMoon moon)
    (hunload : ∀ moonId, e ≠ .unloadMoon moonId) (hn : PeersHold us worlds P n) : PeersHold us worlds P n' := by
  cases e with
  | receive data fromAddr now => exact absurd rfl (hnot data fromAddr now)
  | loadMoon moon => exact absurd rfl (hload moon)
  | unloadMoon moonId => exact absurd rfl (hunload moonId)
  | outboundFrame networkId ethertype payload now =>
    obtain ⟨⟨m, actions⟩, hm, heq⟩ := bind_eq_ok h
    cases heq
    exact hn.keepsPeers (Node.keeps_processOutboundFrame pr hm).1
  | tick now =>
    obtain ⟨rfl, -⟩ := Prod.mk.inj (Except.ok.inj h)
    exact hn.tick hP now
  | bootstrap now =>
    obtain ⟨rfl, -⟩ := Prod.mk.inj (Except.ok.inj h)
    exact hn.bootstrap hP now
  | flushConfigRequests now =>
    obtain ⟨rfl, -⟩ := Prod.mk.inj (Except.ok.inj h)
    have hclear : PeersHold us worlds P { n with actions := [] } := hn.congr rfl rfl rfl
    exact (hclear.queueConfigRequests now).congr rfl rfl rfl
  | sendWhois addresses now =>
    obtain ⟨rfl, -⟩ := Prod.mk.inj (Except.ok.inj h)
    exact hn.onlySends (Node.onlySends_sendWhois pr n addresses now)
  | respondConfig requesterAddress requestPacketId networkId dictData credentials fromAddr =>
    obtain ⟨m, hm, heq⟩ := bind_eq_ok h
    cases heq
    exact hn.onlySends (onlySends_respondConfig pr hm)
  | joinNetwork membership =>
    obtain ⟨rfl, -⟩ := Prod.mk.inj (Except.ok.inj h)
    unfold Node.joinNetwork
    split
    · exact hn
    · exact hn.congr rfl rfl rfl
  | _ =>
    obtain ⟨rfl, -⟩ := Prod.mk.inj (Except.ok.inj h)
    exact hn.congr rfl rfl rfl

/-- Every call of a run was made. -/
theorem run_made (hrun : NodeRun pr n t n') : ∀ e ∈ t, ∀ c ∈ e.output.calls, c.Made pr := by
  intro e he c hc
  have hstep := hrun.steps e he
  obtain ⟨data, fromAddr, now, hevent⟩ := step_calls hstep hc
  rw [hevent] at hstep
  obtain ⟨r, hr, -, hout⟩ := step_receive hstep
  rw [hout] at hc
  exact Node.receiveFuel_calls hr c hc

section
variable {Cond : Call → Prop} {Inv : Node → Prop} (hinv : Node.CallInvariant pr Cond Inv)
  (Ok : Entry Node Event Output → Prop)
  (hother : ∀ e : Entry Node Event Output, step pr e.before e.event = .ok (e.after, e.output) → Ok e →
    (∀ data fromAddr now, e.event ≠ .receive data fromAddr now) → Inv e.before → Inv e.after)
include hinv hother

/-- An invariant of calls is one of steps, if the other steps keep it too. -/
theorem step_invariant {e : Entry Node Event Output} (h : step pr e.before e.event = .ok (e.after, e.output))
    (hok : Ok e) (hcond : ∀ c ∈ e.output.calls, Cond c) (hbefore : Inv e.before) :
    Inv e.after ∧ ∀ c ∈ e.output.calls, Inv c.before := by
  by_cases hreceive : ∃ data fromAddr now, e.event = .receive data fromAddr now
  · obtain ⟨data, fromAddr, now, hevent⟩ := hreceive
    rw [hevent] at h
    obtain ⟨r, hr, hafter, hout⟩ := step_receive h
    rw [hout] at hcond
    rw [hafter, hout]
    exact hinv.receiveFuel hr hcond hbefore
  · have hnot : ∀ data fromAddr now, e.event ≠ .receive data fromAddr now := by
      intro data fromAddr now heq
      exact hreceive ⟨data, fromAddr, now, heq⟩
    exact ⟨hother e h hok hnot hbefore, fun c hc => absurd (step_calls h hc) hreceive⟩

/-- An invariant of calls is one of runs, if the other steps keep it too. -/
theorem run_invariant (hrun : NodeRun pr n t n') (hn : Inv n) (hok : ∀ e ∈ t, Ok e ∧ ∀ c ∈ e.output.calls, Cond c) :
    ∀ e ∈ t, Inv e.before ∧ ∀ c ∈ e.output.calls, Inv c.before := by
  refine Run.forall_entries Inv (fun e => Ok e ∧ ∀ c ∈ e.output.calls, Cond c) _ ?_ hrun hn hok
  intro e he hcond hbefore
  obtain ⟨hafter, hcalls⟩ := step_invariant hinv Ok hother he hcond.1 hcond.2 hbefore
  exact ⟨hafter, hbefore, hcalls⟩

end

/-- The run that joins the network of the worked examples. -/
theorem run_joined : ∃ t, NodeRun Sample.primitives Sample.start t Sample.joined :=
  ⟨_, Run.one (e := .joinNetwork (.new Sample.networkId 2800)) rfl⟩

end Service

end ManyTier
