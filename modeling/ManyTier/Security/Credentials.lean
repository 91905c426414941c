import ManyTier.Security.Gate

/-! Whose certificate a node takes for its own.

NETWORK_CREDENTIALS installs the certificate it carries on the network the certificate
itself names. The handler checks neither the signature nor the member it was issued to,
so exactly the messages whose certificate happens to be good, or to change nothing, are
harmless (`run_credentials_guarded_iff`). -/
namespace ManyTier

/-- Whether a certificate was issued to a member: its qualifier 2 is the member's address. -/
def CertificateOfMembership.isFor (com : CertificateOfMembership) (address : ByteVec 5) : Bool :=
  com.qualifier 2 = some (ztAddressToU64 address)

/-- Whether a certificate is one of the network's controller. -/
def Node.signedByController (pr : Primitives) (n : Node) (networkId : UInt64)
    (com : CertificateOfMembership) : Bool :=
  match n.controllerVerifyingKey pr networkId with
  | some key => comVerifySignature pr com key
  | none => false

/-- What a credentials message may change of a membership. -/
def NetworkMembership.credentials (net : NetworkMembership) :
    Option CertificateOfMembership × Bool × UInt64 :=
  (net.ourCom, net.pendingConfigRequest, net.lastConfigRequest)

namespace Call
variable (pr : Primitives) (c : Call)

/-- The packet of a credentials message, as it was opened. -/
def credentialsPacket : Option Bytes :=
  (c.dispatched pr).bind fun d =>
    if Verb.fromByte d.verbId = some .networkCredentials then some d.packet else none

/-- On every network, the message left our certificate and the request alone, or gave us
a certificate of the controller that was issued to us. -/
def CredentialsGuarded : Prop :=
  (c.credentialsPacket pr).isSome → List.Forall₂ (fun net net' : NetworkMembership =>
    net'.credentials = net.credentials ∨ ∃ com, net'.ourCom = some com ∧
      c.before.signedByController pr net.networkId com = true ∧ com.isFor c.before.address = true)
    c.before.networks c.after.networks

/-- The message carries no certificate for a network that is joined, or a good one, or
the one held while no request is open. -/
def credentialsHarmless : Bool :=
  match (c.credentialsPacket pr).bind Node.credentialsCom with
  | none => true
  | some (networkId, com) =>
    match c.before.findNetwork networkId with
    | none => true
    | some net => net.credentials = (some com, false, 0) ||
        (c.before.signedByController pr networkId com && com.isFor c.before.address)

variable {pr c}

/-- What a credentials message does. -/
theorem Made.credentials (h : c.Made pr) {packet : Bytes} (hpacket : c.credentialsPacket pr = some packet) :
    c.after.networks = (c.before.handleNetworkCredentials packet).networks := by
  obtain ⟨d, hd, hverb⟩ := Option.bind_eq_some_iff.mp hpacket
  split at hverb
  · rename_i hcreds
    cases hverb
    obtain ⟨recv, p, hp, hafter, -⟩ := h
    have hadmitted := Call.dispatched_eq_some.mp hd
    obtain ⟨-, -, -, -, -, hnode, -⟩ := Node.admitPacket_dispatch hadmitted
    simp only [Node.receiveBody, hadmitted, Node.dispatch, hcreds] at hp
    cases hp
    rw [hafter, hnode]
    show (Node.handleNetworkCredentials _ d.packet).networks = _
    unfold Node.handleNetworkCredentials
    split <;> rfl
  · cases hverb

/-- A credentials message is guarded exactly if it is harmless. -/
theorem Made.credentialsGuarded_iff (h : c.Made pr) :
    c.CredentialsGuarded pr ↔ c.credentialsHarmless pr = true := by
  unfold CredentialsGuarded credentialsHarmless
  cases hpacket : c.credentialsPacket pr with
  | none => simp
  | some packet =>
    have hrefl : ∀ net : NetworkMembership, net.credentials = net.credentials ∨
        ∃ com, net.ourCom = some com ∧ c.before.signedByController pr net.networkId com = true ∧
          com.isFor c.before.address = true := fun _ => .inl rfl
    rw [h.credentials hpacket]
    unfold Node.handleNetworkCredentials
    cases hcom : Node.credentialsCom packet with
    | none => simp [hcom, List.forall₂_same]
    | some named =>
      obtain ⟨networkId, com⟩ := named
      simp only [Option.isSome_some, forall_const, Option.bind_some, hcom]
      show List.Forall₂ _ c.before.networks (modifyFirst _ (Node.installCom com) c.before.networks) ↔ _
      rw [forall₂_modifyFirst hrefl]
      cases hfind : c.before.findNetwork networkId with
      | none =>
        have hfind' : c.before.networks.find? (fun net => net.networkId = networkId) = none := hfind
        simp [hfind']
      | some net =>
        have hfind' : c.before.networks.find? (fun net => net.networkId = networkId) = some net := hfind
        have hid : net.networkId = networkId := by simpa using List.find?_some hfind'
        simp only [hfind', Option.some.injEq, forall_eq', Bool.or_eq_true, Bool.and_eq_true,
          NetworkMembership.credentials, Node.installCom, hid, exists_eq_left']
        exact or_congr_left (eq_comm.trans decide_eq_true_iff.symm)

end Call

namespace Service

/-- In every run, a credentials message is guarded exactly if it is harmless. -/
theorem run_credentials_guarded_iff (pr : Primitives) (n n' : Node) (t : List (Entry Node Event Output))
    (hrun : NodeRun pr n t n') :
    ∀ e ∈ t, ∀ c ∈ e.output.calls, c.CredentialsGuarded pr ↔ c.credentialsHarmless pr = true := by
  intro e he c hc
  exact (run_made hrun e he c hc).credentialsGuarded_iff

/-- A certificate that nobody signed, for a network and no member. -/
def sampleUnsignedCom : CertificateOfMembership where
  issuedTo := ByteVec.zero 5
  qualifiers := [⟨1, Sample.networkId, 0⟩]
  signerAddress := ByteVec.zero 5
  signature := ByteVec.zero 96

/-- Root number 3, which has nothing to do with the network, sends it. -/
def sampleCredentials : Bytes :=
  Sample.sentBy 3 9 .networkCredentials (NetworkCredentialsPayload.serialize
    { com := some sampleUnsignedCom, capabilitiesRaw := [], tagsRaw := [], revocationsRaw := []
      cooRaw := [] })

theorem step_credentials : ∃ n' o, step Sample.primitives Sample.joined
      (.receive sampleCredentials (Sample.endpoint 30) 1000) = .ok (n', o) ∧
    ∃ c ∈ o.calls, c.before.macVerifies Sample.primitives c.data = true ∧
      c.credentialsHarmless Sample.primitives = false ∧
      (c.after.findNetwork Sample.networkId).map NetworkMembership.ourCom = some (some sampleUnsignedCom) := by
  have hcheck : okWith (step Sample.primitives Sample.joined
      (.receive sampleCredentials (Sample.endpoint 30) 1000)) (fun r => r.2.calls.any fun c =>
        c.before.macVerifies Sample.primitives c.data && ! c.credentialsHarmless Sample.primitives &&
          (c.after.findNetwork Sample.networkId).map NetworkMembership.ourCom =
            some (some sampleUnsignedCom)) = true := by
    decide +kernel
  obtain ⟨⟨n', o⟩, hstep, hall⟩ := exists_of_okWith hcheck
  obtain ⟨c, hc, hprop⟩ := List.any_eq_true.mp hall
  simp only [Bool.and_eq_true, decide_eq_true_eq, Bool.not_eq_true'] at hprop
  exact ⟨n', o, hstep, c, hc, hprop.1.1, hprop.1.2, hprop.2⟩

/-- A node that has joined the network takes it for its own. -/
theorem unsigned_credentials_installed : ∃ (start n : Node) (t : List (Entry Node Event Output)),
    Node.new (Sample.identity 1) Sample.planet.serialize 1 = .ok start ∧
    NodeRun Sample.primitives start t n ∧ ∃ e ∈ t, ∃ c ∈ e.output.calls,
      c.before.macVerifies Sample.primitives c.data = true ∧ ¬ c.CredentialsGuarded Sample.primitives ∧
      (c.after.findNetwork Sample.networkId).map NetworkMembership.ourCom = some (some sampleUnsignedCom) := by
  obtain ⟨t, hjoined⟩ := run_joined
  obtain ⟨n', o, hstep, c, hc, hmac, hharm, hcom⟩ := step_credentials
  have hrun := hjoined.snoc hstep
  refine ⟨Sample.start, n', _, Sample.new_start, hrun, _, List.mem_append_right t List.mem_cons_self, c, hc, hmac, ?_, hcom⟩
  rw [(run_made hrun _ (List.mem_append_right t List.mem_cons_self) c hc).credentialsGuarded_iff, hharm]
  decide

/-- That call is neither guarded nor harmless. -/
theorem run_credentials_guarded_iff_unsigned : ∃ n t, NodeRun Sample.primitives Sample.start t n ∧
    ∃ e ∈ t, ∃ c ∈ e.output.calls,
      (c.CredentialsGuarded Sample.primitives ↔ c.credentialsHarmless Sample.primitives = true) := by
  obtain ⟨t, hjoined⟩ := run_joined
  obtain ⟨n', o, hstep, c, hc, -, -, -⟩ := step_credentials
  have hrun := hjoined.snoc hstep
  exact ⟨n', _, hrun, _, List.mem_append_right t List.mem_cons_self, c, hc,
    run_credentials_guarded_iff Sample.primitives Sample.start n' _ hrun _
      (List.mem_append_right t List.mem_cons_self) c hc⟩

end Service

end ManyTier
