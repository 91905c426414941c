import ManyTier.Delivery.Answers
import ManyTier.Security.Tunnel

/-! What a member is told about its network.

A member takes up the configuration and the certificate of any packet that it could open.
What it opens some node has sealed for it, and a node seals these only where its
controller issued them. So a configuration that is taken up is a chunk of one that the
sender's controller issued to this member, in an earlier turn (`config_issued`), and a
certificate is the one the controller signed for it there (`certificate_issued`). A
private network's controller issues them to members that were on record as authorised
when that turn began (`IssuedIn.authorized`). -/
namespace ManyTier

/-! ### A packet that brings a configuration -/

/-- What is read of an OK is an answer to the verb in front. -/
theorem OkPayload.inReVerb_of_deserialize {data : Bytes} {ok : OkPayload} (h : deserialize data = .ok ok) :
    Verb.fromByte (byteAt data 0) = some ok.inReVerb := by
  unfold deserialize at h
  split at h
  · cases h
  · split at h
    · cases h
    · rename_i verb hverb
      rw [hverb]
      cases verb with
      | hello =>
        simp only at h
        split at h
        · cases h
        · cases h
          rfl
      | whois =>
        obtain ⟨identities, -, heq⟩ := bind_eq_ok h
        cases heq
        rfl
      | _ =>
        cases h
        rfl

/-- The certificate a packet brings, where the handler takes it up. -/
def Node.comTaken (d : Dispatch) : Option (UInt64 × CertificateOfMembership) :=
  match Verb.fromByte d.verbId with
  | some .networkCredentials => credentialsCom d.packet
  | _ => none

/-- Of the packets a node builds only those it was given bring configurations or
certificates. -/
theorem Drafted.brings {ours : ByteVec 5} {given : Bytes → Prop} {pr : Primitives} {a : Armored} {encrypt : Bool}
    {d : Dispatch} (h : Drafted ours given a.packet encrypt) (hhandled : a.handled pr = some (d.packet.drop 27))
    (hverb : d.verbId = byteAt a.packet 27 &&& 0x1f) (hbrings : Node.configTaken d ≠ none ∨ Node.comTaken d ≠ none) :
    given a.packet := by
  rcases h.ordinary hverb with ⟨verb, hbyte, hfrom, hordinary⟩ | hgiven
  · have hplain : Verb.toByte verb &&& Constants.verbFlagCompressed = 0 := by cases verb <;> decide
    have hpayload : d.packet.drop Constants.minPacketLength = a.packet.drop Constants.minPacketLength := by
      rw [Armored.handled, hbyte, if_pos hplain] at hhandled
      show d.packet.drop (27 + 1) = a.packet.drop (27 + 1)
      rw [← List.drop_drop, ← List.drop_drop, Option.some.inj hhandled]
    have hconfig : Node.configTaken d = none := by
      unfold Node.configTaken
      rw [hfrom]
      cases verb with
      | ok =>
        simp only [hpayload]
        split
        · rename_i ok hok
          have hother : ok.inReVerb ≠ .networkConfigRequest := fun heq =>
            hordinary ((OkPayload.inReVerb_of_deserialize hok).trans (congrArg some heq))
          unfold Node.okConfig
          split
          · exact if_neg hother
          · rfl
        · rfl
      | networkConfig => cases hordinary
      | _ => rfl
    have hcom : Node.comTaken d = none := by
      unfold Node.comTaken
      rw [hfrom]
      cases verb with
      | networkCredentials => cases hordinary
      | _ => rfl
    exact absurd hbrings (by simp [hconfig, hcom])
  · exact hgiven

namespace Service
variable {pr : Primitives}

/-! ### Among nodes -/

section
variable {ι : Type} [DecidableEq ι] {nodes nodes' : ι → Node} {earlier later : List (Entry (ι → Node) (ι × Event) Output)}
  {e : Entry (ι → Node) (ι × Event) Output}

/-- What a node takes up out of a packet it opened, configuration or certificate, is of an
answer that the sender was told to give to this node, in an earlier step. -/
theorem grant_of_dispatched (hrun : NetRun pr nodes (earlier ++ e :: later) nodes')
    (hnew : ∀ i, (nodes i).armored = []) {c : Call} (hc : c ∈ e.output.calls) (hunforged : Unforged pr e.before c)
    {d : Dispatch} (hd : c.dispatched pr = some d) (hopened : (c.before.dearmor pr c.data).isSome)
    (hbrings : Node.configTaken d ≠ none ∨ Node.comTaken d ≠ none) :
    ∃ (i : ι) (a : Armored), (nodes i).address = d.source ∧ a.handled pr = some (d.packet.drop 27) ∧
      d.verbId = byteAt a.packet 27 &&& 0x1f ∧ ∃ e' ∈ earlier, ∃ requestPacketId networkId dictData credentials fromAddr,
        e'.event = (i, .respondConfig (nodes e.event.1).address requestPacketId networkId dictData credentials fromAddr) ∧
        ∃ n : Node, n.identity = (nodes i).identity ∧
          GrantOf pr n (nodes e.event.1).address requestPacketId networkId dictData credentials a.packet := by
  obtain ⟨i, hi, a, -, ⟨hhandled, hdest, -⟩, hverb, part, hpart, encrypt, hdrafted⟩ :=
    drafted_of_dispatched hrun hnew hc hunforged hd hopened
  have hbuilt := a.verbId_handled hhandled hverb
  obtain ⟨e', he', hown, rfl⟩ := mem_stepsOf.mp hpart
  have hidentity := run_identity (hrun.cut.1.part i) e'.part hpart
  rcases hdrafted.brings hhandled hbuilt hbrings with ⟨_, _, _, _, -, network, packetId, member, -, -, hpacket⟩ |
    ⟨requester, requestPacketId, networkId, dictData, credentials, fromAddr, hevent, hgrant⟩
  · -- A frame brings neither.
    obtain ⟨hfrom, -⟩ := read_encryptedVerbPacket hpacket hhandled hbuilt
    have hconfig : Node.configTaken d = none := by
      unfold Node.configTaken
      rw [hfrom]
    have hcom : Node.comTaken d = none := by
      unfold Node.comTaken
      rw [hfrom]
    exact absurd hbrings (by simp [hconfig, hcom])
  · have hrequester : requester = (nodes e.event.1).address := by
      rcases hgrant with ⟨_, _, _, -, _, -, hpacket⟩ | ⟨-, _, hpacket⟩
      · rw [← hdest, hpacket, verbPacket, read_plainHeader]
      · rw [← hdest, hpacket, encryptedVerbPacket, read_plainHeader]
    rw [← hrequester]
    exact ⟨i, a, hi, hhandled, hbuilt, e', he', requestPacketId, networkId, dictData, credentials, fromAddr, Prod.ext hown hevent,
      _, hidentity, hgrant⟩

end

/-! ### Among services -/

section
variable {σ : Type} {c : Controller.Engine σ}

/-- A request to a private network authorises nobody. -/
theorem authorized_before {st st' : Controller.Store} {networkId : UInt64} {other now : UInt64} {requester node : ByteVec 5}
    {reply : Except Controller.Failure Controller.Reply}
    (h : Controller.Effect c pr st (.configRequest other requester now) reply st') (hkeyed : st.Keyed)
    (hprivate : ∀ network, st.network networkId = some network → network.isPrivate = true)
    (hafter : st'.Authorized networkId node) : st.Authorized networkId node := by
  obtain ⟨m, hm, hauthorized⟩ := hafter
  have hwritten : ∀ written : Controller.MemberRecord, (st.setMember written).member networkId node = some m →
      written.networkId = other → written.nodeId = requester →
      (networkId = other → written.authorized = true → (st.requester other requester now).authorized = true) →
      st.Authorized networkId node := by
    intro written hmember hid hnode hwas
    by_cases hsame : networkId = written.networkId ∧ node = written.nodeId
    · obtain ⟨rfl, rfl⟩ := hsame
      rw [st.member_setMember_self] at hmember
      obtain rfl := Option.some.inj hmember
      have hbefore := hwas hid hauthorized
      rw [← hid, ← hnode] at hbefore
      exact Controller.Store.authorized_requester.mp hbefore
    · rw [st.member_setMember_of_ne written hsame] at hmember
      exact ⟨m, hmember, hauthorized⟩
  have hrequester := hkeyed.requester other requester now
  cases h with
  | unknown => exact ⟨m, hm, hauthorized⟩
  | noMember hsets => cases hsets
  | authorized hsets => cases hsets
  | refused => exact hwritten _ hm hrequester.1 hrequester.2 fun _ h => h
  | @served _ _ _ network' written members hserves _ =>
    obtain ⟨ips, hrecord, -⟩ := hserves.record
    refine hwritten written hm (by rw [hrecord]; exact hrequester.1) (by rw [hrecord]; exact hrequester.2) fun hsame _ => ?_
    subst hsame
    exact hserves.admitted (hprivate _ hserves.found)

/-- Neither do all the requests of a turn, and they leave the networks. -/
theorem Served.authorized_before {now networkId : UInt64} {s s' : σ} (h : Served pr c now s s') {view : σ → Controller.Store}
    (hf : Controller.Faithful c.storage view) :
    (view s').network = (view s).network ∧
      ((∀ network, (view s).network networkId = some network → network.isPrivate = true) →
        ∀ node, (view s').Authorized networkId node → (view s).Authorized networkId node) := by
  obtain ⟨t, hserved, hrequests⟩ := h
  refine hserved.invariant (fun s₁ => (view s₁).network = (view s).network ∧
    ((∀ network, (view s).network networkId = some network → network.isPrivate = true) →
      ∀ node, (view s₁).Authorized networkId node → (view s).Authorized networkId node))
    (fun x => ∃ other node, x.event = .configRequest other node now) (fun x hx hrequest hbefore => ?_)
    ⟨rfl, fun _ _ => id⟩ hrequests
  obtain ⟨other, requester, hevent⟩ := hrequest
  have heffect := Controller.step_effect hf pr hx
  rw [hevent] at heffect
  refine ⟨heffect.network.trans hbefore.1, fun hprivate node hafter => hbefore.2 hprivate node ?_⟩
  refine Service.authorized_before heffect (hf.keyed _) (fun network hnetwork => hprivate network ?_) hafter
  rw [← hbefore.1]
  exact hnetwork

/-- On a private network the controller issues a configuration to members only that were
authorised when the turn began. -/
theorem IssuedIn.authorized {e : Entry (Daemon σ) (DaemonEvent σ) DaemonOutput} {requester : ByteVec 5} {networkId : UInt64}
    {response : Controller.ConfigResponse} (h : IssuedIn pr c e requester networkId response) {view : σ → Controller.Store}
    (hf : Controller.Faithful c.storage view) {network : Controller.NetworkRecord}
    (hnetwork : (view e.before.records).network networkId = some network) (hprivate : network.isPrivate = true) :
    (view e.before.records).Authorized networkId requester := by
  obtain ⟨data, fromAddr, now, answers, records, records', -, hserved, hissued⟩ := h
  have hstep : c.step pr records (.configRequest networkId requester now) = .ok (records', .ok (.config response)) := by
    rw [Controller.Engine.step_eq, Controller.Engine.execute, Attempt.run_bind_ok hissued]
    rfl
  obtain ⟨hnetworks, hbefore⟩ := hserved.authorized_before hf
  have hfound : (view records).network networkId = some network := by
    rw [hnetworks]
    exact hnetwork
  have heffect := Controller.step_effect hf pr hstep
  refine hbefore (fun other hother => ?_) requester ((heffect.guards (hf.keyed _) hfound hprivate).served _ rfl)
  rw [hnetwork] at hother
  exact Option.some.inj hother ▸ hprivate

variable {ι : Type} [DecidableEq ι] {engines : ι → Option (Controller.Engine σ)} {starts ends : ι → Daemon σ}
  {earlier later : List (Entry (ι → Daemon σ) (ι × DaemonEvent σ) DaemonOutput)}
  {e : Entry (ι → Daemon σ) (ι × DaemonEvent σ) DaemonOutput}

/-- What a service takes up out of a packet it opened the controller of the sender issued to
it in an earlier turn. -/
theorem issued_of_dispatched (hrun : ServicesRun pr engines starts (earlier ++ e :: later) ends) (hfresh : ∀ i, Fresh (starts i))
    {call : Call} (hcall : call ∈ e.output.calls) (hunforged : Unforged pr (fun i => (e.before i).node) call) {d : Dispatch}
    (hd : call.dispatched pr = some d) (hopened : (call.before.dearmor pr call.data).isSome)
    (hbrings : Node.configTaken d ≠ none ∨ Node.comTaken d ≠ none) :
    ∃ (i : ι) (a : Armored), (starts i).node.address = d.source ∧ a.handled pr = some (d.packet.drop 27) ∧
      d.verbId = byteAt a.packet 27 &&& 0x1f ∧ ∃ c networkId response, engines i = some c ∧
        (∃ e' ∈ earlier, e'.event.1 = i ∧ IssuedIn pr c e'.part (starts e.event.1).node.address networkId response) ∧
        ∃ (n : Node) (requestPacketId : UInt64), n.identity = (starts i).node.identity ∧
          GrantOf pr n (starts e.event.1).node.address requestPacketId networkId response.config.dictData
            response.credentials a.packet := by
  obtain ⟨-, hstep⟩ := hrun.cut
  -- Only a turn that receives calls the node with packets.
  obtain ⟨data, fromAddr, now, answers, hevent⟩ : ∃ data fromAddr now answers,
      e.part.event = .udpReceived data fromAddr now answers := by
    obtain ⟨steps, -, hpart, -⟩ := (MadeOf.together fun i => daemon_madeOf pr (engines i)) e hstep
    cases hevent : e.part.event with
    | udpReceived data fromAddr now answers => exact ⟨data, fromAddr, now, answers, rfl⟩
    | _ =>
      have hquiet : e.output.calls = [] := (hpart.quiet (by rw [hevent]; rfl)).1
      rw [hquiet] at hcall
      cases hcall
  obtain ⟨parts, first, others, hparts, hfirst, hbefore, hfirstevent, hcalls, -⟩ := received_nodes hrun hevent
  obtain ⟨i, a, hi, hhandled, hverb, x, hx, requestPacketId, networkId, dictData, credentials, fromAddr', hxevent,
    n, hn, hgrant⟩ :=
    grant_of_dispatched hfirst (fun i => (hfresh i).armored) (hcalls ▸ hcall) (hbefore ▸ hunforged) hd hopened hbrings
  obtain ⟨turn, hturn, part, ⟨hpart, howner⟩, hin⟩ := mem_flatten_parts hparts hx
  obtain rfl : turn.event.1 = i := (howner x hin).symm.trans (congrArg Prod.fst hxevent)
  rw [hfirstevent] at hxevent hgrant
  obtain ⟨c, response, hc, hissued, rfl, rfl⟩ := hpart.issued (List.mem_map_of_mem hin) (congrArg Prod.snd hxevent)
  exact ⟨_, a, hi, hhandled, hverb, c, networkId, response, hc, ⟨turn, hturn, rfl, hissued⟩, n, requestPacketId, hn, hgrant⟩

/-- What is taken up as a configuration is a chunk of one that was issued. -/
theorem chunk_of_dispatched (hlz4 : Lz4RoundTrips pr) (hrun : ServicesRun pr engines starts (earlier ++ e :: later) ends)
    (hfresh : ∀ i, Fresh (starts i)) {call : Call} (hcall : call ∈ e.output.calls)
    (hunforged : Unforged pr (fun i => (e.before i).node) call) {d : Dispatch} (hd : call.dispatched pr = some d)
    (hopened : (call.before.dearmor pr call.data).isSome) {nc : NetworkConfigPayload} (htaken : Node.configTaken d = some nc) :
    ∃ i c, (starts i).node.address = d.source ∧ engines i = some c ∧ ∃ e' ∈ earlier, e'.event.1 = i ∧ ∃ response,
      IssuedIn pr c e'.part (starts e.event.1).node.address nc.networkId response ∧
      ∃ configUpdateId ours, (starts i).node.identity.secret = some ours ∧
        ∃ k < chunkCount response.config.dictData networkConfigChunkBytes,
          nc = chunkConfig pr ours.signing nc.networkId configUpdateId response.config.dictData k := by
  obtain ⟨i, a, hi, hhandled, hverb, c, networkId, response, hc, ⟨e', he', rfl, hissued⟩, n, requestPacketId, hn, hgrant⟩ :=
    issued_of_dispatched hrun hfresh hcall hunforged hd hopened (.inl (by simp [htaken]))
  rcases hgrant with ⟨packetId, configUpdateId, ours, hours, k, hk, hpacket⟩ | ⟨-, packetId, hpacket⟩
  · have hconfig := configTaken_chunk hlz4 hpacket hhandled hverb
    rw [htaken] at hconfig
    obtain rfl := Option.some.inj hconfig
    exact ⟨_, c, hi, hc, e', he', rfl, response, hissued, configUpdateId, ours, hn ▸ hours, k, hk, rfl⟩
  · obtain ⟨hfrom, -⟩ := read_encryptedVerbPacket hpacket hhandled hverb
    unfold Node.configTaken at htaken
    rw [hfrom] at htaken
    cases htaken

/-- **A configuration that a member takes up its controller issued to it**: what it takes
up out of a packet it opened is a chunk, signed by the sender, of a configuration that the
sender's controller issued to this member in an earlier turn; and if the network was
private, the member was authorised when that turn began. -/
theorem config_issued (hlz4 : Lz4RoundTrips pr) (hrun : ServicesRun pr engines starts (earlier ++ e :: later) ends)
    (hfresh : ∀ i, Fresh (starts i)) {call : Call} (hcall : call ∈ e.output.calls)
    (hunforged : Unforged pr (fun i => (e.before i).node) call) {d : Dispatch} (hd : call.dispatched pr = some d)
    (hopened : (call.before.dearmor pr call.data).isSome) {nc : NetworkConfigPayload} (htaken : Node.configTaken d = some nc) :
    ∃ i c, (starts i).node.address = d.source ∧ engines i = some c ∧ ∃ e' ∈ earlier, e'.event.1 = i ∧ ∃ response,
      IssuedIn pr c e'.part (starts e.event.1).node.address nc.networkId response ∧
      (∃ configUpdateId ours, (starts i).node.identity.secret = some ours ∧
        ∃ k < chunkCount response.config.dictData networkConfigChunkBytes,
          nc = chunkConfig pr ours.signing nc.networkId configUpdateId response.config.dictData k) ∧
      ∀ view, Controller.Faithful c.storage view → ∀ network, (view (e'.before i).records).network nc.networkId = some network →
        network.isPrivate = true → (view (e'.before i).records).Authorized nc.networkId (starts e.event.1).node.address := by
  obtain ⟨i, c, hi, hc, e', he', rfl, response, hissued, hchunk⟩ :=
    chunk_of_dispatched hlz4 hrun hfresh hcall hunforged hd hopened htaken
  exact ⟨_, c, hi, hc, e', he', rfl, response, hissued, hchunk,
    fun view hf network hnetwork hprivate => hissued.authorized hf hnetwork hprivate⟩

/-- The certificate that is read of a packet of credentials is the one in them. -/
theorem credentialsCom_issued {networkId now : UInt64} {requester : ByteVec 5} {network : Controller.NetworkRecord}
    {m : Controller.MemberRecord} {packet : Bytes}
    (hfits : (c.credentials pr networkId requester network m now).serialize.length ≤
      credentialsBufferSize) (hpacket : packet.drop Constants.minPacketLength =
        (c.credentials pr networkId requester network m now).serialize) :
    Node.credentialsCom packet = some (networkId,
      Controller.buildSignedCom pr c.signingKey c.address.bytes networkId (ztAddressToU64 requester) now) := by
  rw [Node.credentialsCom, hpacket, NetworkCredentialsPayload.deserialize_serialize _ (wellFormed_credentials hfits)]
  rfl

/-- **A certificate that a member takes up its controller signed for it**: the sender's
controller issued it to this member in an earlier turn, signed for the network and the
member with that turn's time; and if the network was private, the member was authorised
when that turn began. -/
theorem certificate_issued (hrun : ServicesRun pr engines starts (earlier ++ e :: later) ends) (hfresh : ∀ i, Fresh (starts i))
    {call : Call} (hcall : call ∈ e.output.calls) (hunforged : Unforged pr (fun i => (e.before i).node) call) {d : Dispatch}
    (hd : call.dispatched pr = some d) (hopened : (call.before.dearmor pr call.data).isSome) {networkId : UInt64}
    {com : CertificateOfMembership} (htaken : Node.comTaken d = some (networkId, com)) :
    ∃ i c, (starts i).node.address = d.source ∧ engines i = some c ∧ ∃ e' ∈ earlier, e'.event.1 = i ∧
      (∃ response, IssuedIn pr c e'.part (starts e.event.1).node.address networkId response ∧
        response.credentials.com = some com) ∧
      (∃ data fromAddr now answers, e'.event.2 = .udpReceived data fromAddr now answers ∧ com = Controller.buildSignedCom pr
        c.signingKey c.address.bytes networkId (ztAddressToU64 (starts e.event.1).node.address) now) ∧
      ∀ view, Controller.Faithful c.storage view → ∀ network, (view (e'.before i).records).network networkId = some network →
        network.isPrivate = true → (view (e'.before i).records).Authorized networkId (starts e.event.1).node.address := by
  obtain ⟨i, a, hi, hhandled, hverb, c, networkId', response, hc, ⟨e', he', rfl, hissued⟩, n, requestPacketId, hn, hgrant⟩ :=
    issued_of_dispatched hrun hfresh hcall hunforged hd hopened (.inr (by simp [htaken]))
  rcases hgrant with ⟨packetId, configUpdateId, ours, hours, k, hk, hpacket⟩ | ⟨hfits, packetId, hpacket⟩
  · unfold Node.comTaken at htaken
    rw [verbId_chunk hpacket hverb, Verb.fromByte_toByte] at htaken
    cases htaken
  · obtain ⟨hfrom, hpayload⟩ := read_encryptedVerbPacket hpacket hhandled hverb
    obtain ⟨data, fromAddr, now, answers, records, records', hevent, -, hserved⟩ := id hissued
    obtain ⟨network, m, hcredentials⟩ := issued_credentials hserved
    rw [hcredentials] at hfits hpayload
    have hread : Node.comTaken d = Node.credentialsCom d.packet := by
      unfold Node.comTaken
      rw [hfrom]
    rw [hread, credentialsCom_issued hfits hpayload] at htaken
    obtain ⟨rfl, rfl⟩ := Prod.mk.inj (Option.some.inj htaken)
    exact ⟨_, c, hi, hc, e', he', rfl, ⟨response, hissued, congrArg NetworkCredentialsPayload.com hcredentials⟩,
      ⟨data, fromAddr, now, answers, hevent, rfl⟩,
      fun view hf network hnetwork hprivate => hissued.authorized hf hnetwork hprivate⟩

end

/-! ### A member of a private network -/

/-- A packet that gets to a handler is on record. -/
theorem call_of_dispatch {n : Node} {data : Bytes} {fromAddr : SocketAddr} {now : UInt64} {r : Received} {d : Dispatch}
    (hr : n.receivePacket pr data fromAddr now = .ok r) (hd : n.admitPacket pr data fromAddr now = .dispatch d) :
    ∃ c ∈ r.calls, c.before = n ∧ c.data = data ∧ c.dispatched pr = some d := by
  obtain ⟨p, -, heq⟩ := bind_eq_ok (show Node.receiveWith pr _ n data fromAddr now = .ok r from hr)
  cases heq
  exact ⟨_, List.mem_cons_self, rfl, rfl, Call.dispatched_eq_some.mpr hd⟩

/-- A turn that receives is over when the requests are answered. -/
theorem udpReceived_ok {σ : Type} {d : Daemon σ} {engine : Option (Controller.Engine σ)} {data : Bytes} {fromAddr : SocketAddr}
    {now : UInt64} {r : Received} {n : Node} {records : σ}
    (hr : d.node.receivePacket pr (data.take udpBufferSize) fromAddr now = .ok r)
    (hanswers : answerRequests pr engine now (r.node, d.records) r.actions = .ok (n, records)) :
    ∃ d' o, daemonStep pr engine d (.udpReceived data fromAddr now []) = .ok (d', o) ∧ o.calls = r.calls ∧
      ((r.actions ++ n.actions).flatMap NodeAction.neededAddresses = [] → d'.node.armored = n.armored) := by
  show ∃ d' o, d.udpReceived pr engine data fromAddr now [] = _ ∧ _
  unfold Daemon.udpReceived
  rw [hr, ok_bind, hanswers, ok_bind]
  refine ⟨_, _, rfl, rfl, fun hnobody => ?_⟩
  have hnone : ([r.actions, n.actions].flatMap fun actions => actions.flatMap NodeAction.neededAddresses) = [] := by
    simpa using hnobody
  simp only [drainWhoisActionsFromSets, hnone]
  rfl

/-- What the controller issues for a request is sent, once its certificate is filed. -/
theorem responds_of_served {σ : Type} {engine : Controller.Engine σ} {now networkId packetId : UInt64} {node : Node}
    {records : σ} {s' : Node × σ} {requester : ByteVec 5} {dictData : Bytes} {fromAddr : SocketAddr}
    {response : Controller.ConfigResponse}
    (h : handleControllerAction pr engine now (node, records)
      (.networkConfigRequested requester networkId dictData fromAddr packetId) = .ok s')
    (hserved : ((engine.handleConfigRequest pr networkId requester now).run records).1 = .ok response) :
    (engine.handleConfigRequest pr networkId requester now).run records = (.ok response, s'.2) ∧
      ∃ n, (n = node ∨ ∃ com, n = recordPeerCom node networkId requester com) ∧
        respondConfig pr n requester packetId networkId response.config.dictData response.credentials fromAddr = .ok s'.1 := by
  unfold handleControllerAction at h
  simp only at h
  split at h
  · cases h
  · rename_i records' hrun
    rw [hrun] at hserved
    cases hserved
  · rename_i response' records' hrun
    rw [hrun] at hserved
    obtain rfl := Except.ok.inj hserved
    obtain ⟨m, hm, heq⟩ := bind_eq_ok h
    cases heq
    refine ⟨hrun, _, ?_, hm⟩
    cases response'.credentials.com with
    | none => exact .inl rfl
    | some com => exact .inr ⟨com, rfl⟩

section
open Controller.SampleMembers

/-- Number 1 with a controller that has number 2 on record as a member, and number 2. -/
def sampleNetwork (i : Bool) : Daemon Controller.InMemoryStorage where
  node := if i then Sample.start else guest
  records := twoMembers
  tuns := .empty
  pendingFrames := []
  lastPendingWhoisMs := 0
  markers := []

def sampleEngines (i : Bool) : Option (Controller.Engine Controller.InMemoryStorage) := if i then some engine else none

def sampleSecret : Secret := KeyAgreement.keyAgree Sample.primitives (Sample.key 1) (Sample.key 2)

theorem length_lz4Compress_sample (data : Bytes) : (Sample.lz4Compress data).length = 2 * data.length := by
  induction data with
  | nil => rfl
  | cons b rest ih =>
    rw [Sample.lz4Compress] at ih ⊢
    rw [List.flatMap_cons, List.length_append, ih]
    simp
    omega

/-- A part is short enough for the buffer it is received in. -/
theorem length_part_sample {x : Answer} {n : Node} {secret : Secret} {part : AnswerPart} {data : Bytes}
    (hfits : x.credentials.serialize.length ≤ credentialsBufferSize)
    (h : x.SealedBy Sample.primitives n secret part data) : data.length ≤ udpBufferSize := by
  obtain ⟨packetId, -, harmor⟩ := h
  have hbound : (x.packet Sample.primitives packetId part).length ≤ udpBufferSize := by
    cases part with
    | chunk k =>
      have hanswer := length_chunkAnswer Sample.primitives
        x.signingKey x.requestPacketId x.networkId x.configUpdateId x.dictData k
      have hcompressed := length_lz4Compress_sample (chunkAnswer x.requestPacketId (x.chunk Sample.primitives k))
      show (plainHeader _ _ _ _ _ ++ Sample.lz4Compress _).length ≤ 4096
      rw [List.length_append, length_plainHeader, hcompressed]
      unfold Answer.chunk
      omega
    | credentials =>
      show (plainHeader _ _ _ _ _ ++ _).length ≤ 4096
      rw [List.length_append, length_plainHeader]
      unfold credentialsBufferSize at hfits
      omega
  have hlen : Salsa.packetMinLen ≤ (x.packet Sample.primitives packetId part).length := by
    by_contra hshort
    rw [Salsa.armorPacket, if_pos (by omega)] at harmor
    cases harmor
  obtain ⟨sealed, -, harmor', hlength, -⟩ := Salsa.dearmorPacket_armorPacket Sample.primitives secret
    (x.packet Sample.primitives packetId part) true hlen (by simp [(x.read_packet Sample.primitives packetId part).1])
  obtain rfl := Except.ok.inj (harmor'.symm.trans harmor)
  exact hlength.trans_le hbound

/-- Number 1 answers with the parts of an answer. -/
theorem sampleNetwork_answers : ∃ (x : Answer) (between : Daemon Controller.InMemoryStorage) (o : DaemonOutput)
    (sent : List Bytes) (record : Controller.NetworkRecord) (m : Controller.MemberRecord),
    daemonStep Sample.primitives (some engine) (sampleNetwork true)
          (.udpReceived sampleRequest (Sample.endpoint 20) 2000 []) =
        .ok (between, o) ∧
      List.Forall₂ (x.SealedBy Sample.primitives between.node sampleSecret) x.parts sent ∧
      x.source = address 1 ∧ x.requester = address 2 ∧ x.networkId = networkId ∧ 0 < x.count ∧
      x.dictData.length ≤ maxNetworkConfigSize ∧
      x.credentials = engine.credentials Sample.primitives networkId (address 2) record m 2000 ∧
      x.credentials.serialize.length ≤ credentialsBufferSize := by
  have hcheck : okWith (Sample.start.receivePacket Sample.primitives (sampleRequest.take udpBufferSize) (Sample.endpoint 20) 2000)
      (fun r => decide (r.actions = [.networkConfigRequested (address 2) networkId [] (Sample.endpoint 20) 9]) &&
        decide (r.node.sharedSecretForPeer Sample.primitives (address 2) = some sampleSecret) &&
        decide (r.node.identity = Sample.start.identity) && r.node.actions.isEmpty &&
        okWith (engine.handleConfigRequest Sample.primitives networkId (address 2) 2000 |>.run twoMembers).1 (fun response =>
          response.config.dictData.length ≤ maxNetworkConfigSize) &&
        okWith (handleControllerAction Sample.primitives engine 2000 (r.node, twoMembers)
          (.networkConfigRequested (address 2) networkId [] (Sample.endpoint 20) 9)) fun s =>
            s.1.actions.length = 2) = true := by
    decide +kernel
  obtain ⟨r, hr, hcheck⟩ := exists_of_okWith hcheck
  simp only [Bool.and_eq_true, decide_eq_true_eq, List.isEmpty_iff] at hcheck
  obtain ⟨⟨⟨⟨⟨hactions, hsecret⟩, hidentity⟩, hempty⟩, hserved⟩, hanswered⟩ := hcheck
  obtain ⟨response, hok, hbound⟩ := exists_of_okWith hserved
  obtain ⟨⟨a', records⟩, hanswered, -⟩ := exists_of_okWith hanswered
  obtain ⟨hissued, n, hfiled, hn⟩ := responds_of_served hanswered hok
  obtain ⟨hheld, hours, hnothing⟩ : n.sharedSecretForPeer Sample.primitives (address 2) = some sampleSecret ∧
      n.identity = Sample.start.identity ∧ n.actions = [] := by
    rcases hfiled with rfl | ⟨com, rfl⟩ <;> exact ⟨hsecret, hidentity, hempty⟩
  obtain ⟨network', m', members, -, -, -, hdict⟩ := issued_of_served Controller.InMemoryStorage.memory_faithful hissued
  obtain ⟨ours, hkey⟩ : ∃ ours, n.identity.secret = some ours := by
    rw [hours]
    exact ⟨_, rfl⟩
  obtain ⟨hfits, sent, hsent, hsealed⟩ := respondConfig_sealed hn hheld hkey (issued_ne_nil hdict)
    ((of_decide_eq_true hbound).trans_lt (by decide))
  obtain ⟨between, o, hturn, -, harmored⟩ := @udpReceived_ok Sample.primitives _ (sampleNetwork true) (some engine) _ _ _ _ _ _ hr
    (show answerRequests Sample.primitives (some engine) 2000 (r.node, twoMembers) r.actions = .ok (a', records) by
      rw [hactions]
      show (handleControllerAction Sample.primitives engine 2000 (r.node, twoMembers) _ >>= pure) = _
      rw [hanswered]
      rfl)
  rw [hnothing, List.nil_append] at hsent
  have hkept : between.node.armored = a'.armored := by
    refine harmored ?_
    rw [hactions, hsent, List.flatMap_append, List.flatMap_map]
    simp [NodeAction.neededAddresses]
  obtain ⟨record, m, hcredentials⟩ := issued_credentials hissued
  set x := answerOf n ours (address 2) 9 networkId response.config.dictData response.credentials with hx
  have hparts : List.Forall₂ (x.SealedBy Sample.primitives between.node sampleSecret) x.parts sent := by
    refine hsealed.imp fun part data hpart => ?_
    obtain ⟨packetId, hmem, harmor⟩ := hpart
    rw [← hkept] at hmem
    exact ⟨packetId, hmem, harmor⟩
  have hcount : 0 < x.count := by
    refine (lt_chunkCount (by decide) 0).mpr ?_
    show 0 * networkConfigChunkBytes < response.config.dictData.length
    simpa using List.length_pos_iff.mpr (issued_ne_nil hdict)
  exact ⟨x, between, o, sent, record, m, hturn, hparts, congrArg (·.address.bytes) hours, rfl, rfl,
    hcount, of_decide_eq_true hbound, hcredentials, hfits⟩

/-- Number 2 expects the answer of number 1. -/
theorem guest_expects {x : Answer} (hsource : x.source = address 1) (hrequester : x.requester = address 2)
    (hnetwork : x.networkId = networkId) :
    Expects Sample.primitives x sampleSecret (guest.controllerVerifyingKey Sample.primitives networkId) ∅
      Controller.SampleMembers.fresh guest := by
  refine ⟨hrequester.symm, ?_, by rw [hnetwork], by rw [hnetwork]; rfl, ?_⟩
  · rw [hsource]
    decide
  · exact ⟨⟨List.nodup_nil, fun _ hp => (nomatch hp)⟩, fun _ hp => (nomatch hp), fun _ => rfl⟩

/-- A part of an answer is received, if its certificate is of the answer's network. -/
theorem part_received {sender n : Node} {x : Answer} {key : Option (ByteVec 32)} {net : NetworkMembership} {data : Bytes}
    (h : Expects Sample.primitives x sampleSecret key ∅ net n) (hsource : byteAt x.source.toBytes 0 ≠ 0xff)
    (hbound : x.dictData.length ≤ maxNetworkConfigSize) (hwell : x.credentials.WellFormed) {com : CertificateOfMembership}
    (hcom : x.credentials.com = some com) (hnames : com.qualifier 1 = some x.networkId) {part : AnswerPart}
    (hpart : part ∈ x.parts) (hsealed : x.SealedBy Sample.primitives sender sampleSecret part data) (fromAddr : SocketAddr)
    (now : UInt64) : ∃ r, n.receivePacket Sample.primitives data fromAddr now = .ok r := by
  cases part with
  | chunk k =>
    obtain ⟨r, hr, -⟩ := h.receive_chunk hsource lz4RoundTrips_sample hbound (x.mem_parts.mp hpart) hsealed fromAddr now
    exact ⟨r, hr⟩
  | credentials =>
    obtain ⟨r, hr, -⟩ := h.receive_credentials hsource hwell hcom hnames hsealed fromAddr now
    exact ⟨r, hr⟩

theorem part_handled (x : Answer) (packetId : UInt64) (part : AnswerPart) :
    ((⟨sampleSecret, x.packet Sample.primitives packetId part⟩ : Armored).handled Sample.primitives).isSome = true := by
  cases part with
  | chunk k => exact Option.isSome_of_mem (handled_chunk lz4RoundTrips_sample rfl)
  | credentials => exact Option.isSome_of_mem (handled_encryptedVerbPacket rfl)

/-- Number 2 receives one of the parts. -/
theorem sampleNetwork_run : ∃ (x : Answer) (record : Controller.NetworkRecord) (m : Controller.MemberRecord),
    x.networkId = networkId ∧ 0 < x.count ∧
    x.credentials = engine.credentials Sample.primitives networkId (address 2) record m 2000 ∧
    x.credentials.serialize.length ≤ credentialsBufferSize ∧
    ∀ part ∈ x.parts, ∃ (e' e : Entry (Bool → Daemon Controller.InMemoryStorage)
      (Bool × DaemonEvent Controller.InMemoryStorage) DaemonOutput) (ends : Bool → Daemon Controller.InMemoryStorage)
      (call : Call) (d : Dispatch) (packetId : UInt64),
      ServicesRun Sample.primitives sampleEngines sampleNetwork ([e'] ++ e :: []) ends ∧
        e'.before = sampleNetwork ∧ e.event.1 = false ∧ call ∈ e.output.calls ∧
        Unforged Sample.primitives (fun i => (e.before i).node) call ∧ call.dispatched Sample.primitives = some d ∧
        (call.before.dearmor Sample.primitives call.data).isSome = true ∧
        (⟨sampleSecret, x.packet Sample.primitives packetId part⟩ : Armored).handled Sample.primitives = some (d.packet.drop 27) ∧
        d.verbId = byteAt (x.packet Sample.primitives packetId part) 27 &&& 0x1f := by
  obtain ⟨x, between, o, sent, record, m, hturn, hparts, hsource, hrequester, hnetwork, hcount, hbound, hcredentials, hfits⟩ :=
    sampleNetwork_answers
  refine ⟨x, record, m, hnetwork, hcount, hcredentials, hfits, fun part hpart => ?_⟩
  obtain ⟨i, hi, rfl⟩ := List.getElem_of_mem hpart
  obtain ⟨hlength, hall⟩ := List.forall₂_iff_get.mp hparts
  set data := sent.get ⟨i, hlength ▸ hi⟩
  have hsealed : x.SealedBy Sample.primitives between.node sampleSecret x.parts[i] data := hall i hi _
  have hfirst : byteAt x.source.toBytes 0 ≠ 0xff := by
    rw [hsource]
    decide
  have hexpects := guest_expects hsource hrequester hnetwork
  have hcom : x.credentials.com = some (Controller.buildSignedCom Sample.primitives engine.signingKey engine.address.bytes
      networkId (ztAddressToU64 (address 2)) 2000) := by
    rw [hcredentials]
    rfl
  have hwell : x.credentials.WellFormed := by
    rw [hcredentials] at hfits ⊢
    exact wellFormed_credentials hfits
  obtain ⟨r, hr⟩ := part_received hexpects hfirst hbound hwell hcom (by rw [hnetwork]; rfl) hpart hsealed (Sample.endpoint 10) 2001
  obtain ⟨d, packetId, hd, hopened, hhandled, hverb, -⟩ := hexpects.admitted hfirst hsealed
    (part_handled x · _) (Sample.endpoint 10) 2001
  obtain ⟨call, hcall, hbefore, hdata, hdispatched⟩ := call_of_dispatch hr hd
  have hwhole : data.take udpBufferSize = data := List.take_of_length_le (length_part_sample hfits hsealed)
  obtain ⟨member, o', hreceived, hcalls, -⟩ := @udpReceived_ok Sample.primitives _ (sampleNetwork false) none data _ _ _ _ _
    (by rw [hwhole]; exact hr) (show answerRequests Sample.primitives none 2001 (r.node, twoMembers) r.actions = _ from rfl)
  have hfirstTurn := @together_ok _ _ _ _ _ _ (fun i => daemonStep Sample.primitives (sampleEngines i))
    sampleNetwork true _ _ _ hturn
  have hsecondTurn := @together_ok _ _ _ _ _ _ (fun i => daemonStep Sample.primitives (sampleEngines i))
    (Function.update sampleNetwork true between) false _ _ _ hreceived
  refine ⟨_, _, _, call, d, packetId, (Run.one hfirstTurn).snoc hsecondTurn, rfl, rfl,
    by rw [hcalls]; exact hcall, ?_, hdispatched, by rw [hbefore, hdata]; exact hopened, hhandled, hverb⟩
  exact hexpects.unforged hsealed (i := true) rfl hbefore hdata

/-- Number 2 takes up what the controller of number 1 issued to it, an authorised member. -/
theorem config_issued_two : ∃ (e' e : Entry
    (Bool → Daemon Controller.InMemoryStorage) (Bool × DaemonEvent Controller.InMemoryStorage)
    DaemonOutput) (call : Call) (d : Dispatch) (nc : NetworkConfigPayload) (response : Controller.ConfigResponse),
    e.event.1 = false ∧ call ∈ e.output.calls ∧ call.dispatched Sample.primitives = some d ∧ Node.configTaken d = some nc ∧
      IssuedIn Sample.primitives engine e'.part (address 2) nc.networkId response ∧
      (sampleNetwork true).records.view.Authorized networkId (address 2) := by
  obtain ⟨x, record, m, hid, hcount, -, -, hparts⟩ := sampleNetwork_run
  obtain ⟨e', e, ends, call, d, packetId, hrun, hfirst, hturn, hcall, hunforged, hd, hopened, hhandled, hverb⟩ :=
    hparts (.chunk 0) (x.mem_parts.mpr hcount)
  have hnc : Node.configTaken d = some (x.chunk Sample.primitives 0) :=
    configTaken_chunk lz4RoundTrips_sample (a := ⟨sampleSecret, x.packet Sample.primitives packetId (.chunk 0)⟩)
      rfl hhandled hverb
  have hnames : (x.chunk Sample.primitives 0).networkId = networkId := hid
  obtain ⟨i, c, -, hc, e'', he'', rfl, response, hissued, -, hauthorized⟩ := config_issued lz4RoundTrips_sample hrun
    (fun i => by cases i <;> exact ⟨rfl, rfl⟩) hcall hunforged hd hopened hnc
  obtain rfl := List.mem_singleton.mp he''
  have hc' : engine = c := by
    cases hi : e''.event.1 with
    | true =>
      rw [hi] at hc
      exact Option.some.inj hc
    | false =>
      rw [hi] at hc
      cases hc
  subst hc'
  rw [hturn] at hissued hauthorized
  have hmember := hauthorized Controller.InMemoryStorage.view Controller.InMemoryStorage.memory_faithful network
  rw [hfirst, hnames] at hmember
  refine ⟨e'', e, call, d, _, response, hturn, hcall, hd, hnc, hissued, ?_⟩
  cases hi : e''.event.1 <;>
    · rw [hi] at hmember
      exact hmember rfl rfl

/-- And the certificate that the controller signed for it. -/
theorem certificate_issued_two : ∃ (e : Entry (Bool → Daemon Controller.InMemoryStorage)
    (Bool × DaemonEvent Controller.InMemoryStorage) DaemonOutput) (call : Call) (d : Dispatch) (com : CertificateOfMembership)
    (c : Controller.Engine Controller.InMemoryStorage) (now : UInt64)
    (e' : Entry (Bool → Daemon Controller.InMemoryStorage) (Bool × DaemonEvent Controller.InMemoryStorage) DaemonOutput)
    (response : Controller.ConfigResponse),
    e.event.1 = false ∧ call ∈ e.output.calls ∧ call.dispatched Sample.primitives = some d ∧
      Node.comTaken d = some (networkId, com) ∧ IssuedIn Sample.primitives c e'.part (address 2) networkId response ∧
      response.credentials.com = some com ∧ com = Controller.buildSignedCom Sample.primitives c.signingKey c.address.bytes
        networkId (ztAddressToU64 (address 2)) now := by
  obtain ⟨x, record, m, -, -, hcredentials, hfits, hparts⟩ := sampleNetwork_run
  obtain ⟨e', e, ends, call, d, packetId, hrun, -, hturn, hcall, hunforged, hd, hopened, hhandled, hverb⟩ :=
    hparts .credentials (by simp [Answer.parts])
  obtain ⟨hfrom, hpayload⟩ :=
    read_encryptedVerbPacket (a := ⟨sampleSecret, x.packet Sample.primitives packetId .credentials⟩) rfl hhandled hverb
  rw [hcredentials] at hfits hpayload
  obtain ⟨com, hcom⟩ : ∃ com, Node.comTaken d = some (networkId, com) := by
    unfold Node.comTaken
    rw [hfrom]
    exact ⟨_, credentialsCom_issued hfits hpayload⟩
  obtain ⟨i, c, -, -, e'', -, -, ⟨response, hissued, hgiven⟩, ⟨data, fromAddr, now, answers, -, hsigned⟩, -⟩ :=
    certificate_issued hrun (fun i => by cases i <;> exact ⟨rfl, rfl⟩) hcall hunforged hd hopened hcom
  rw [hturn] at hsigned hissued
  exact ⟨e, call, d, com, c, now, e'', response, hturn, hcall, hd, hcom, hissued, hgiven, hsigned⟩

end

end Service

end ManyTier
