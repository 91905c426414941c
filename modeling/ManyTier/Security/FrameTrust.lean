import ManyTier.Node.Sessions
import ManyTier.Security.ConfigSource

/-! Whose frames a node delivers.

A frame is delivered if the certificate stored for its sender is the controller's and
agrees with ours. To whom the certificate was issued is not looked at when a frame
arrives, and not when a certificate is stored: it is filed under the address the
directory, the membership or the host gives. So a frame is delivered on a certificate of
the sender's own exactly as far as what is stored is filed that way
(`run_frames_trusted`). -/
namespace ManyTier

namespace Node
variable (pr : Primitives)

/-- The frame a packet brings: its network and what is delivered of it. -/
def frameOf (d : Dispatch) : Option (UInt64 × NodeAction) :=
  let payload := d.packet.drop Constants.minPacketLength
  match Verb.fromByte d.verbId with
  | some .frame =>
    match FramePayload.parse payload with
    | .ok f => some (f.networkId, .frameReceived f.networkId (Ethernet.deriveMac d.source f.networkId)
        (Ethernet.deriveMac d.node.address f.networkId) f.ethertype f.payload)
    | .error _ => none
  | some .extFrame =>
    match ExtFramePayload.parse payload with
    | .ok f => some (f.networkId, .frameReceived f.networkId f.srcMac f.destMac f.ethertype f.payload)
    | .error _ => none
  | some .multicastFrame =>
    match MulticastFramePayload.parse payload with
    | .ok f => some (f.networkId, .frameReceived f.networkId
        (f.sourceMac.getD (Ethernet.deriveMac d.source f.networkId)) f.destMac f.ethertype f.payload)
    | .error _ => none
  | _ => none

/-- It is a frame that it brings, never a reply to the host. -/
theorem isFrame_frameOf {d : Dispatch} {networkId : UInt64} {a : NodeAction} (h : frameOf d = some (networkId, a)) :
    a.isFrame = true := by
  unfold frameOf at h
  dsimp only at h
  split at h
  · split at h
    · cases h
      rfl
    · cases h
  · split at h
    · cases h
      rfl
    · cases h
  · split at h
    · cases h
      rfl
    · cases h
  · cases h

/-- The certificate stored for a peer is the controller's, agrees with ours, and was
issued to the peer. -/
def TrustedSender (n : Node) (networkId : UInt64) (sender : ByteVec 5) : Prop :=
  ∃ network our com, n.findNetwork networkId = some network ∧ network.ourCom = some our ∧
    Vl2.storedCom network sender = some com ∧ peerComAgreesWith our com = true ∧
    com.signerAddress = controllerAddressFromNetworkId networkId ∧
    n.signedByController pr networkId com = true ∧ com.isFor sender = true

/-- Every certificate stored is filed under the address it was issued to. -/
def ComsBound (n : Node) : Prop :=
  ∀ network ∈ n.networks, ∀ e ∈ network.peerComs, e.2.isFor e.1 = true

variable {pr}

/-- A frame is delivered on a certificate of the sender's own, if they are filed so. -/
theorem trustedSender_of_hasPeerCom {n : Node} (hbound : n.ComsBound) {networkId : UInt64}
    {sender : ByteVec 5} (h : Vl2.hasPeerCom pr n networkId sender = true) :
    n.TrustedSender pr networkId sender := by
  unfold Vl2.hasPeerCom at h
  split at h
  · cases h
  · rename_i network hnetwork
    split at h
    · cases h
    · rename_i com hcom
      unfold NetworkMembership.verifyPeerCom at h
      split at h
      · cases h
      · rename_i our hour
        simp only [Bool.and_eq_true] at h
        obtain ⟨hagrees, hsigned⟩ := h
        split at hsigned
        · cases hsigned
        · rename_i key hkey
          simp only [Bool.and_eq_true, decide_eq_true_eq] at hsigned
          obtain ⟨e, he, heq⟩ := Option.map_eq_some_iff.mp hcom
          have hsender : e.1 = sender := by simpa using List.find?_some he
          have hfiled := hbound network (List.mem_of_find?_eq_some hnetwork) e (List.mem_of_find?_eq_some he)
          rw [heq, hsender] at hfiled
          exact ⟨network, our, com, hnetwork, hour, hcom, hagrees, hsigned.1,
            by simpa [signedByController, hkey] using hsigned.2, hfiled⟩

theorem deliverFrame_frames {n : Node} {sender : ByteVec 5} {networkId : UInt64} {srcMac destMac : Mac}
    {ethertype : UInt16} {payload : Bytes} :
    Vl2.deliverFrame pr n sender networkId srcMac destMac ethertype payload = n ∨
    (Vl2.hasPeerCom pr n networkId sender = true ∧
      Vl2.deliverFrame pr n sender networkId srcMac destMac ethertype payload =
        n.pushAction (.frameReceived networkId srcMac destMac ethertype payload)) := by
  unfold Vl2.deliverFrame
  split
  · rename_i h
    exact .inr ⟨((Bool.and_eq_true ..).mp h).2, rfl⟩
  · exact .inl rfl

/-- What is delivered is the frame of the packet, or nothing. -/
theorem frames_deliverFrame {d : Dispatch} {networkId : UInt64} {srcMac destMac : Mac} {ethertype : UInt16}
    {payload : Bytes} (h : frameOf d = some (networkId, .frameReceived networkId srcMac destMac ethertype payload)) :
    let n' := Vl2.deliverFrame pr d.node d.source networkId srcMac destMac ethertype payload
    n'.actions.filter NodeAction.isForHost = d.node.actions.filter NodeAction.isForHost ∨
    ∃ networkId a, frameOf d = some (networkId, a) ∧
      Vl2.hasPeerCom pr d.node networkId d.source = true ∧ n' = d.node.pushAction a := by
  intro n'
  rcases deliverFrame_frames with hsame | ⟨hcom, hpush⟩
  · exact .inl (congrArg (fun n => n.actions.filter NodeAction.isForHost) hsame)
  · exact .inr ⟨networkId, _, h, hcom, hpush⟩

/-- A handler delivers the frame of its packet, if the sender's certificate verifies, or
has nothing for the host. -/
theorem handleAlone_frames {d : Dispatch} {fromAddr : SocketAddr} {now : UInt64} {n' : Node}
    (h : handleAlone pr d fromAddr now = .ok n') :
    n'.actions.filter NodeAction.isForHost = d.node.actions.filter NodeAction.isForHost ∨
    ∃ networkId a, frameOf d = some (networkId, a) ∧
      Vl2.hasPeerCom pr d.node networkId d.source = true ∧ n' = d.node.pushAction a := by
  unfold handleAlone at h
  split at h
  · cases h
    exact .inl rfl
  · split at h
    · cases h
      exact .inl rfl
    · split at h
      · cases h
        exact .inl (keepsNetworks_modifyPeer ..).frames
      · cases h
        exact .inl rfl
      · cases h
        unfold handleOkGeneric
        split
        · exact .inl (keepsNetworks_handleMulticastGatherOk ..).frames
        · split
          · exact .inl (keepsBuffers_applyReceivedNetworkConfig ..).frames
          · exact .inl rfl
  · rename_i verb _ hverb
    by_cases hframe : verb = .frame
    · subst hframe
      obtain rfl := Except.ok.inj h
      unfold Vl2.handleFrame
      split
      · exact .inl rfl
      · rename_i f hf
        exact frames_deliverFrame (by simp [frameOf, hverb, hf])
    · by_cases hext : verb = .extFrame
      · subst hext
        obtain rfl := Except.ok.inj h
        unfold Vl2.handleExtFrame
        split
        · exact .inl rfl
        · rename_i f hf
          exact frames_deliverFrame (by simp [frameOf, hverb, hf])
      · by_cases hmulticast : verb = .multicastFrame
        · subst hmulticast
          obtain rfl := Except.ok.inj h
          unfold Vl2.handleMulticastFrame
          split
          · exact .inl rfl
          · rename_i f hf
            exact frames_deliverFrame (by simp [frameOf, hverb, hf])
        · exact .inl (keepsBuffers_handleVerb pr h hframe hext hmulticast).frames

end Node

/-! ### Where a frame comes from -/

namespace Call
variable (pr : Primitives)

/-- The call's own packet brought the frame, and its sender's certificate verified. -/
def Delivers (c : Call) (a : NodeAction) : Prop :=
  ∃ d networkId, c.dispatched pr = some d ∧ Node.frameOf d = some (networkId, a) ∧
    Vl2.hasPeerCom pr c.before networkId d.source = true

/-- Whatever is for the host among the actions was delivered by one of the calls. -/
def Account (calls : List Call) (actions : List NodeAction) : Prop :=
  ∀ a ∈ actions, a.isForHost = true → ∃ c ∈ calls, c.Delivers pr a

variable {pr}

theorem Account.of_frames {calls : List Call} {actions : List NodeAction}
    (h : actions.filter NodeAction.isForHost = []) : Account pr calls actions := by
  intro a ha hframe
  exact absurd hframe (List.filter_eq_nil_iff.mp h a ha)

theorem Account.congr {calls : List Call} {actions actions' : List NodeAction} (h : Account pr calls actions)
    (heq : actions'.filter NodeAction.isForHost = actions.filter NodeAction.isForHost) :
    Account pr calls actions' := by
  intro a ha hframe
  have hmem : a ∈ actions'.filter NodeAction.isForHost := List.mem_filter.mpr ⟨ha, hframe⟩
  rw [heq] at hmem
  exact h a (List.mem_filter.mp hmem).1 hframe

theorem Account.mono {calls calls' : List Call} {actions : List NodeAction} (h : Account pr calls actions)
    (hsub : ∀ c ∈ calls, c ∈ calls') : Account pr calls' actions := by
  intro a ha hframe
  obtain ⟨c, hc, hdelivers⟩ := h a ha hframe
  exact ⟨c, hsub c hc, hdelivers⟩

theorem Account.append {calls : List Call} {actions actions' : List NodeAction}
    (h : Account pr calls actions) (h' : Account pr calls actions') : Account pr calls (actions ++ actions') := by
  intro a ha
  rcases List.mem_append.mp ha with ha | ha
  · exact h a ha
  · exact h' a ha

/-- The certificates are looked at as they were before the call. -/
theorem hasPeerCom_dispatched {c : Call} {d : Dispatch} (hd : c.dispatched pr = some d) (networkId : UInt64)
    (sender : ByteVec 5) :
    Vl2.hasPeerCom pr d.node networkId sender = Vl2.hasPeerCom pr c.before networkId sender := by
  rw [dispatched_node hd, Node.hasPeerCom_noteSource]
  rfl

end Call

namespace Node
variable {pr : Primitives}

/-- Whatever a call hands out for the host was delivered by it or by a call inside it. -/
theorem receiveFuel_account {fuel : Nat} {n : Node} {data : Bytes} {fromAddr : SocketAddr} {now : UInt64}
    {r : Received} (h : receiveFuel pr fuel n data fromAddr now = .ok r) :
    r.node.actions = [] ∧ Call.Account pr r.calls r.actions ∧
      ∀ c ∈ r.calls, Call.Account pr r.calls c.actions := by
  induction fuel generalizing n data fromAddr now r with
  | zero => cases h
  | succ fuel ih =>
    obtain ⟨p, hp, hr⟩ := bind_eq_ok h
    cases hr
    set c : Call := ⟨n, data, fromAddr, now, { p.node with actions := [] }, p.node.actions⟩
    suffices hsuff : Call.Account pr (c :: p.calls) p.node.actions ∧
        ∀ c' ∈ p.calls, Call.Account pr p.calls c'.actions by
      refine ⟨rfl, hsuff.1, List.forall_mem_cons.mpr ⟨hsuff.1, fun c' hc' => ?_⟩⟩
      exact (hsuff.2 c' hc').mono fun _ => List.mem_cons_of_mem _
    rcases receiveBody_cases pr _ hp with ⟨-, hnil, hnode⟩ | ⟨-, -, packet, r, -, hr, rfl⟩ |
      ⟨n', hadmitted, rfl⟩ | ⟨d, hadmitted, hd⟩
    · refine ⟨.of_frames ?_, by simp [hnil]⟩
      rcases hnode with hnode | ⟨-, -, hnode⟩ <;> · rw [hnode]; rfl
    · obtain ⟨hempty, hactions, hcalls⟩ := ih hr
      refine ⟨?_, hcalls⟩
      show Call.Account pr (c :: r.calls) (r.node.actions ++ r.actions)
      rw [hempty]
      exact hactions.mono fun _ => List.mem_cons_of_mem _
    · refine ⟨.of_frames ?_, by simp⟩
      obtain ⟨-, rfl | rfl | rfl⟩ := admitPacket_finished hadmitted
      · rfl
      · exact (onlySends_handleRelay pr { n with actions := [] } data now).frames
      · unfold dropUnopened
        simp only
        split <;> rfl
    · have hcd : c.dispatched pr = some d := Call.dispatched_eq_some.mpr hadmitted
      have hempty : d.node.actions = [] := by
        rw [Call.dispatched_node hcd]
        rfl
      rcases dispatch_cases pr _ hd with ⟨-, identities, -, hfold⟩ | ⟨halone, hnil, -⟩
      · let Good (p : Progress) : Prop := Call.Account pr p.calls p.node.actions ∧
          ∀ c' ∈ p.calls, Call.Account pr p.calls c'.actions
        have hrel : ReplayRel pr (receiveFuel pr fuel) now fun p p' => Good p → Good p' := by
          refine ⟨fun _ h => h, fun _ _ _ h h' hp => h' (h hp), ?_, fun _ _ h => h, ?_⟩
          · intro p identity hp
            exact ⟨hp.1.congr (keepsNetworks_learnIdentity pr p.node identity now).frames, hp.2⟩
          · intro p packet p' hp' hgood
            obtain ⟨r, hr, heq⟩ := bind_eq_ok hp'
            cases heq
            obtain ⟨-, hactions, hcalls⟩ := ih hr
            have hleft : ∀ c ∈ p.calls, c ∈ p.calls ++ r.calls := fun _ => List.mem_append_left _
            have hright : ∀ c ∈ r.calls, c ∈ p.calls ++ r.calls := fun _ => List.mem_append_right _
            refine ⟨(hgood.1.mono hleft).append (hactions.mono hright), ?_⟩
            intro c' hc'
            rcases List.mem_append.mp hc' with hc' | hc'
            · exact (hgood.2 c' hc').mono hleft
            · exact (hcalls c' hc').mono hright
        have hgood := hrel.resolve hfold ⟨.of_frames (by rw [hempty]; rfl), by simp⟩
        exact ⟨hgood.1.mono fun _ => List.mem_cons_of_mem _, hgood.2⟩
      · refine ⟨?_, by simp [hnil]⟩
        rcases handleAlone_frames halone with hframes | ⟨networkId, a, ha, hcom, hpush⟩
        · exact .of_frames (by rw [hframes, hempty]; rfl)
        · intro b hb _
          rw [hpush, pushAction, hempty] at hb
          obtain rfl := List.mem_singleton.mp hb
          rw [Call.hasPeerCom_dispatched hcd] at hcom
          exact ⟨c, List.mem_cons_self, d, networkId, hcd, ha, hcom⟩

end Node

/-! ### What is stored -/

/-- Under each address only certificates issued to it. -/
def FiledByOwner (coms : List (ByteVec 5 × CertificateOfMembership)) : Prop :=
  ∀ e ∈ coms, e.2.isFor e.1 = true

theorem filedByOwner_config {net net' : NetworkMembership} (heq : net.config = net'.config)
    (h : FiledByOwner net.peerComs) : FiledByOwner net'.peerComs := by
  have hcoms : net.config.peerComs = net'.config.peerComs := congrArg NetworkMembership.peerComs heq
  show FiledByOwner net'.config.peerComs
  rw [← hcoms]
  exact h

namespace Call
variable (pr : Primitives) (c : Call)

/-- A configuration that a call completes for a joined network files certificates under
their owners. -/
def DirectoryBound : Prop :=
  ∀ nc whole directory, c.configTaken pr = some nc → (c.before.findNetwork nc.networkId).isSome →
    (assembleNetworkConfig c.before.pendingNetworkConfigs nc).2 = some whole →
    peerDirectoryFromDictData whole.dictData whole.networkId c.before.address = some directory →
      FiledByOwner directory.peerComs

variable {pr}

theorem comsBound_invariant : Node.CallInvariant pr (DirectoryBound pr) Node.ComsBound := by
  refine .of_configs ?_ ?_ ?_
  · exact fun n n' hk h => Node.Each.keepsConfigs h (fun _ _ => filedByOwner_config) hk
  · intro c d nc hbound hd htaken h
    have hnode := dispatched_node hd
    refine Node.Each.applyReceived h (fun _ _ => filedByOwner_config) nc ?_
    intro whole net hjoined hwhole hid hfiled
    rw [NetworkMembership.applyDictionary_eq, hid]
    split
    · rename_i directory hdirectory
      rw [hnode] at hjoined hdirectory hwhole
      exact hbound nc whole directory (by simp [configTaken, hd, htaken]) hjoined hwhole hdirectory
    · rw [(net.applySettings_keeps _).2.2]
      exact hfiled
  · intro c d _ _ _ h
    unfold Node.handleNetworkCredentials
    split
    · exact h
    · exact Node.Each.modifyNetwork h _ fun _ _ hfiled => hfiled

end Call

namespace Service

/-- Whatever a step stores, it files under the owner: the directory of a configuration, the
certificates of a membership that is joined, and a certificate the host records. -/
def StoresBound (pr : Primitives) (e : Entry Node Event Output) : Prop :=
  (∀ c ∈ e.output.calls, c.DirectoryBound pr) ∧
    match e.event with
    | .joinNetwork membership => FiledByOwner membership.peerComs
    | .recordPeerCom _ peerAddress com => com.isFor peerAddress = true
    | _ => True

/-- The steps that receive nothing keep certificates with their owners. -/
theorem step_comsBound {pr : Primitives} {e : Entry Node Event Output}
    (h : step pr e.before e.event = .ok (e.after, e.output)) (hbound : StoresBound pr e)
    (hnot : ∀ data fromAddr now, e.event ≠ .receive data fromAddr now) (hn : e.before.ComsBound) :
    e.after.ComsBound := by
  obtain ⟨n, event, o, n'⟩ := e
  obtain ⟨-, hstored⟩ := hbound
  refine step_each (fun _ _ => filedByOwner_config) h hnot ?_ ?_ hn
  · rintro membership rfl
    exact hstored
  · rintro networkId peerAddress com rfl net hfiled e he
    rcases List.mem_append.mp he with he | he
    · exact hfiled e (List.mem_filter.mp he).1
    · obtain rfl := List.mem_singleton.mp he
      exact hstored

/-- In every run that files certificates under their owners, a frame that a call hands out
came with the packet of a sender whose stored certificate is the controller's, agrees with
ours and was issued to that sender. -/
theorem run_frames_trusted (pr : Primitives) (identity : Identity) (planetData : Bytes)
    (initialPacketId : UInt64) (start n : Node) (t : List (Entry Node Event Output))
    (hstart : Node.new identity planetData initialPacketId = .ok start) (hrun : NodeRun pr start t n)
    (hbound : ∀ e ∈ t, StoresBound pr e) :
    ∀ e ∈ t, ∀ c ∈ e.output.calls, ∀ a ∈ c.actions, a.isFrame = true →
      ∃ c' ∈ e.output.calls, ∃ d networkId, c'.dispatched pr = some d ∧
        Node.frameOf d = some (networkId, a) ∧ c'.before.TrustedSender pr networkId d.source := by
  have hempty : start.ComsBound := by
    obtain ⟨planet, -, heq⟩ := bind_eq_ok hstart
    cases heq
    intro net hnet
    cases hnet
  have hinv := run_invariant Call.comsBound_invariant (StoresBound pr)
    (fun e he hok hnot hn => step_comsBound he hok hnot hn) hrun hempty
    (fun e he => ⟨hbound e he, (hbound e he).1⟩)
  intro e he c hc a ha hframe
  have hstep := hrun.steps e he
  obtain ⟨data, fromAddr, now, hevent⟩ := step_calls hstep hc
  rw [hevent] at hstep
  obtain ⟨r, hr, -, hout⟩ := step_receive hstep
  have haccount : ∀ c ∈ e.output.calls, Call.Account pr e.output.calls c.actions := by
    rw [hout]
    exact (Node.receiveFuel_account hr).2.2
  obtain ⟨c', hc', d, networkId, hd, hframeOf, hcom⟩ := haccount c hc a ha (NodeAction.isForHost_of_isFrame hframe)
  exact ⟨c', hc', d, networkId, hd, hframeOf,
    Node.trustedSender_of_hasPeerCom ((hinv e he).2 c' hc') hcom⟩

/-- A certificate of the network's controller, root number 2, for member `k`. -/
def sampleCom (k : UInt8) : CertificateOfMembership :=
  let unsigned : CertificateOfMembership :=
    { issuedTo := (Sample.identity k).address.bytes
      qualifiers := [⟨0, 1000, 360000⟩, ⟨1, Sample.networkId, 0⟩,
        ⟨2, ztAddressToU64 (Sample.identity k).address.bytes, 0xffffffffffffffff⟩]
      signerAddress := (Sample.identity 2).address.bytes
      signature := ByteVec.zero 96 }
  { unsigned with signature := Signing.sign Sample.primitives (Sample.key 2) (comSignedData unsigned) }

/-- A membership with our certificate, and the certificate of member `k` filed under
root number 3. -/
def sampleMembership (k : UInt8) : NetworkMembership :=
  { NetworkMembership.new Sample.networkId 2800 with
    ourCom := some (sampleCom 1)
    peerComs := [((Sample.identity 3).address.bytes, sampleCom k)] }

/-- A frame of root number 3. -/
def sampleFrame : Bytes :=
  Sample.sentBy 3 9 .frame (be64 Sample.networkId ++ (be16 Ethernet.ethertypeIpv4 ++ [0x45, 0x00]))

/-- The node that has joined with that membership. -/
def sampleMember (k : UInt8) : Node :=
  Sample.start.joinNetwork (sampleMembership k)

theorem run_sampleMember (k : UInt8) : NodeRun Sample.primitives Sample.start
    [⟨Sample.start, .joinNetwork (sampleMembership k), ⟨[], []⟩, sampleMember k⟩] (sampleMember k) :=
  Run.one rfl

/-- The frame of root number 3 is delivered on the certificate of member 4. -/
theorem frame_on_another_certificate : ∃ (start n : Node) (t : List (Entry Node Event Output)),
    Node.new (Sample.identity 1) Sample.planet.serialize 1 = .ok start ∧
    NodeRun Sample.primitives start t n ∧ ∃ e ∈ t,
      e.event = .receive sampleFrame (Sample.endpoint 30) 1000 ∧
      (∃ c ∈ e.output.calls, ∃ a ∈ c.actions, a.isFrame = true) ∧
      ∀ c ∈ e.output.calls, ∀ d, c.dispatched Sample.primitives = some d →
        d.source = (Sample.identity 3).address.bytes ∧
        ¬ c.before.TrustedSender Sample.primitives Sample.networkId d.source := by
  have hcheck : okWith (step Sample.primitives (sampleMember 4)
      (.receive sampleFrame (Sample.endpoint 30) 1000)) (fun r =>
        (r.2.calls.any fun c => c.actions.any NodeAction.isFrame) &&
        r.2.calls.all fun c => (c.dispatched Sample.primitives).all fun d =>
          d.source = (Sample.identity 3).address.bytes &&
          (c.before.findNetwork Sample.networkId).all fun network =>
            (Vl2.storedCom network d.source).all fun com => !com.isFor d.source) = true := by
    decide +kernel
  obtain ⟨⟨n', o⟩, hstep, hall⟩ := exists_of_okWith hcheck
  obtain ⟨hframe, hstored⟩ := (Bool.and_eq_true ..).mp hall
  obtain ⟨c, hc, hany⟩ := List.any_eq_true.mp hframe
  refine ⟨Sample.start, n', _, Sample.new_start, (run_sampleMember 4).snoc hstep, _,
    List.mem_append_right _ List.mem_cons_self, rfl, ⟨c, hc, List.any_eq_true.mp hany⟩, ?_⟩
  intro c hc d hd
  have hsender := List.all_eq_true.mp hstored c hc
  rw [hd, Option.all_some, Bool.and_eq_true, decide_eq_true_eq] at hsender
  obtain ⟨hsource, hnone⟩ := hsender
  refine ⟨hsource, ?_⟩
  rintro ⟨network, our, com, hnetwork, -, hcom, -, -, -, hfor⟩
  rw [hnetwork, Option.all_some, hcom, Option.all_some, hfor] at hnone
  cases hnone

/-- With its own certificate filed, the frame of root number 3 is delivered as it should be. -/
theorem run_frames_trusted_own : ∃ n t, NodeRun Sample.primitives Sample.start t n ∧
    ∃ e ∈ t, ∃ c ∈ e.output.calls, ∃ d networkId, c.dispatched Sample.primitives = some d ∧
      c.before.TrustedSender Sample.primitives networkId d.source := by
  have hcheck : okWith (step Sample.primitives (sampleMember 3)
      (.receive sampleFrame (Sample.endpoint 30) 1000)) (fun r =>
        (r.2.calls.any fun c => c.actions.any NodeAction.isFrame) &&
        r.2.calls.all fun c => (c.configTaken Sample.primitives).isNone) = true := by
    decide +kernel
  obtain ⟨⟨n', o⟩, hstep, hall⟩ := exists_of_okWith hcheck
  obtain ⟨hframe, htaken⟩ := (Bool.and_eq_true ..).mp hall
  obtain ⟨c, hc, hany⟩ := List.any_eq_true.mp hframe
  obtain ⟨a, ha, hframe⟩ := List.any_eq_true.mp hany
  have hrun := (run_sampleMember 3).snoc hstep
  have hfiled : FiledByOwner (sampleMembership 3).peerComs := by
    intro e he
    obtain rfl := List.mem_singleton.mp he
    decide
  have htrusts := run_frames_trusted Sample.primitives _ _ _ _ n' _ Sample.new_start hrun (by
    intro e he
    rcases List.mem_append.mp he with he | he
    · obtain rfl := List.mem_singleton.mp he
      exact ⟨by simp, hfiled⟩
    · obtain rfl := List.mem_singleton.mp he
      refine ⟨fun c hc nc whole directory hnc => ?_, trivial⟩
      have hnone := List.all_eq_true.mp htaken c hc
      rw [hnc] at hnone
      cases hnone)
  obtain ⟨c', hc', d, networkId, hd, -, htrusted⟩ :=
    htrusts _ (List.mem_append_right _ List.mem_cons_self) c hc a ha hframe
  exact ⟨n', _, hrun, _, List.mem_append_right _ List.mem_cons_self, c', hc', d, networkId, hd, htrusted⟩

end Service

end ManyTier
