import ManyTier.Security.Credentials

/-! Whose configurations a node takes up.

NETWORK_CONFIG is taken from the network's controller only. The same configuration as an
OK(NETWORK_CONFIG_REQUEST) is taken from anyone with whom there is a session, and without
one in suite 0. Apart from that, a network's settings and the assembly of its next
configuration change in a run only by what its controller sent
(`run_config_from_controller`). -/
namespace ManyTier

/-- What a configuration says of a network but for our certificate. -/
def NetworkMembership.settings (net : NetworkMembership) : NetworkMembership :=
  { net.config with ourCom := none }

namespace Node

def settingsOf (n : Node) (networkId : UInt64) : Option NetworkMembership :=
  (n.findNetwork networkId).map NetworkMembership.settings

def ourComOf (n : Node) (networkId : UInt64) : Option (Option CertificateOfMembership) :=
  (n.findNetwork networkId).map NetworkMembership.ourCom

/-- The assemblies of a network are the same. -/
def SameAssembly (networkId : UInt64) (n n' : Node) : Prop :=
  ∀ p : PendingNetworkConfig, p.networkId = networkId →
    (p ∈ n'.pendingNetworkConfigs ↔ p ∈ n.pendingNetworkConfigs)

variable {n n' : Node} {networkId : UInt64}

theorem findNetwork_map {α : Type} (g : NetworkMembership → α) (view : α → UInt64)
    (hview : ∀ net, view (g net) = net.networkId) :
    (n.findNetwork networkId).map g = (n.networks.map g).find? fun v => view v = networkId := by
  simp [findNetwork, List.find?_map, hview]

/-- Nodes whose configurations agree have the same settings and certificates. -/
theorem settingsOf_congr (h : KeepsConfigs n n') :
    n'.settingsOf networkId = n.settingsOf networkId ∧ n'.ourComOf networkId = n.ourComOf networkId := by
  have hconfig : (n'.findNetwork networkId).map NetworkMembership.config =
      (n.findNetwork networkId).map NetworkMembership.config := by
    rw [findNetwork_map NetworkMembership.config NetworkMembership.networkId fun _ => rfl, h.configs,
      ← findNetwork_map NetworkMembership.config NetworkMembership.networkId fun _ => rfl]
  constructor
  · have hmap := congrArg (Option.map fun net : NetworkMembership => { net with ourCom := none }) hconfig
    rwa [Option.map_map, Option.map_map] at hmap
  · have hmap := congrArg (Option.map NetworkMembership.ourCom) hconfig
    rwa [Option.map_map, Option.map_map] at hmap

theorem findNetwork_modifyNetwork_of_ne {other : UInt64} (hne : other ≠ networkId)
    {f : NetworkMembership → NetworkMembership} (hf : ∀ net, (f net).networkId = net.networkId) :
    (n.modifyNetwork other f).findNetwork networkId = n.findNetwork networkId := by
  refine find?_modifyFirst_of_ne ?_
  intro net hnet
  simp only [decide_eq_true_eq] at hnet
  simp [hf, hnet, hne]

end Node

/-! ### What keeps a network's configuration -/

/-- The settings and the assembly of a network are those of `n₀`; so is our certificate,
if that is asked for. -/
structure ConfigKept (networkId : UInt64) (com : Prop) (n₀ n : Node) : Prop where
  settings : n.settingsOf networkId = n₀.settingsOf networkId
  ourCom : com → n.ourComOf networkId = n₀.ourComOf networkId
  assembly : Node.SameAssembly networkId n₀ n
  ok : PendingConfigsOk n.pendingNetworkConfigs

namespace ConfigKept
variable {networkId : UInt64} {com : Prop} {n₀ n n' : Node}

theorem refl (h : PendingConfigsOk n.pendingNetworkConfigs) : ConfigKept networkId com n n :=
  ⟨rfl, fun _ => rfl, fun _ _ => Iff.rfl, h⟩

theorem keepsConfigs (h : ConfigKept networkId com n₀ n) (hk : KeepsConfigs n n') :
    ConfigKept networkId com n₀ n' := by
  obtain ⟨hsettings, hcom⟩ : n'.settingsOf networkId = n.settingsOf networkId ∧
      n'.ourComOf networkId = n.ourComOf networkId := Node.settingsOf_congr hk
  refine ⟨hsettings.trans h.settings, fun hc => hcom.trans (h.ourCom hc), ?_, ?_⟩
  · intro p hp
    rw [hk.pendingConfigs]
    exact h.assembly p hp
  · rw [hk.pendingConfigs]
    exact h.ok

/-- What changes another network only keeps this one's configuration. -/
theorem modifyOther (h : ConfigKept networkId com n₀ n) {other : UInt64} (hne : other ≠ networkId)
    {f : NetworkMembership → NetworkMembership} (hf : ∀ net, (f net).networkId = net.networkId) :
    ConfigKept networkId com n₀ (n.modifyNetwork other f) := by
  have hfind := Node.findNetwork_modifyNetwork_of_ne (n := n) hne hf
  refine ⟨?_, fun hc => ?_, h.assembly, h.ok⟩
  · rw [Node.settingsOf, hfind]
    exact h.settings
  · rw [Node.ourComOf, hfind]
    exact h.ourCom hc

/-- A configuration for another network, or for one that is not joined, keeps it. -/
theorem applyReceived (h : ConfigKept networkId com n₀ n) (nc : NetworkConfigPayload)
    (hother : nc.networkId = networkId → n.findNetwork networkId = none) :
    ConfigKept networkId com n₀ (n.applyReceivedNetworkConfig nc) := by
  unfold Node.applyReceivedNetworkConfig
  split
  · exact h
  · rename_i hjoined
    have hne : nc.networkId ≠ networkId := by
      intro heq
      rw [heq, hother heq] at hjoined
      exact hjoined rfl
    have hpending : ConfigKept networkId com n₀
        { n with pendingNetworkConfigs := (assembleNetworkConfig n.pendingNetworkConfigs nc).1 } := by
      refine ⟨h.settings, h.ourCom, ?_, h.ok.assemble nc⟩
      intro p hp
      exact (mem_assembleNetworkConfig_other h.ok hne hp).trans (h.assembly p hp)
    simp only
    split
    · exact hpending
    · rename_i whole hwhole
      have hid : whole.networkId = nc.networkId := networkId_assembleNetworkConfig hwhole
      rw [hid]
      have happlied := (hpending.modifyOther hne (f := fun net => net.applyDictionary n.address whole.dictData)
        fun net => net.networkId_applyDictionary ..).modifyOther hne
          (f := fun net => { net with pendingConfigRequest := false }) fun _ => rfl
      exact happlied.keepsConfigs (Node.onlySends_pushAction _ rfl).keepsConfigs

/-- Credentials touch our certificate only. -/
theorem credentials (h : ConfigKept networkId com n₀ n) (packet : Bytes)
    (hother : com → ∀ named, Node.credentialsCom packet = some named → named.1 ≠ networkId) :
    ConfigKept networkId com n₀ (n.handleNetworkCredentials packet) := by
  unfold Node.handleNetworkCredentials
  split
  · exact h
  · rename_i named certificate hcom
    by_cases hne : named = networkId
    · have hsettings : (n.modifyNetwork named (Node.installCom certificate)).settingsOf networkId =
          n.settingsOf networkId := by
        rw [Node.settingsOf, Node.settingsOf,
          Node.findNetwork_map NetworkMembership.settings NetworkMembership.networkId fun _ => rfl,
          Node.findNetwork_map NetworkMembership.settings NetworkMembership.networkId fun _ => rfl]
        exact congrArg _ (map_modifyFirst _ fun _ _ => rfl)
      exact ⟨hsettings.trans h.settings, fun hc => absurd hne (hother hc _ hcom), h.assembly, h.ok⟩
    · exact h.modifyOther hne fun _ => rfl

end ConfigKept

namespace Call
variable (pr : Primitives) (c : Call)

/-- The configuration a call took up. -/
def configTaken : Option NetworkConfigPayload := (c.dispatched pr).bind Node.configTaken

/-- The network for which a call was given credentials. -/
def credentialsFor : Option UInt64 :=
  ((c.credentialsPacket pr).bind Node.credentialsCom).map Prod.fst

/-- The call took up no configuration for the network while it was joined, and was given
no credentials for it, if that is asked for. -/
def SparesConfig (networkId : UInt64) (com : Prop) : Prop :=
  (∀ nc, c.configTaken pr = some nc → nc.networkId = networkId → c.before.findNetwork networkId = none) ∧
    (com → c.credentialsFor pr ≠ some networkId)

variable {pr}

theorem configKept_invariant (networkId : UInt64) (com : Prop) (n₀ : Node) :
    Node.CallInvariant pr (SparesConfig pr · networkId com) (ConfigKept networkId com n₀) := by
  refine .of_configs (fun _ _ hk h => h.keepsConfigs hk) ?_ ?_
  · intro c d nc hspares hd htaken h
    have hnetworks : d.node.findNetwork networkId = c.before.findNetwork networkId := by
      rw [dispatched_node hd]
      rfl
    refine h.applyReceived nc fun heq => ?_
    rw [hnetworks]
    exact hspares.1 nc (by simp [configTaken, hd, htaken]) heq
  · intro c d hspares hd hverb h
    refine h.credentials d.packet fun hc named hnamed heq => hspares.2 hc ?_
    simp [credentialsFor, credentialsPacket, hd, hverb, hnamed, heq]

end Call

namespace Call
variable (pr : Primitives) (c : Call)

/-- A configuration for a joined network that came as an OK came from its controller. -/
def OkFromController : Prop :=
  ∀ d nc, c.dispatched pr = some d → Verb.fromByte d.verbId = some .ok → Node.configTaken d = some nc →
    (c.before.findNetwork nc.networkId).isSome → d.source = controllerAddressFromNetworkId nc.networkId

variable {pr c}

/-- Then whatever was taken up for a joined network came from its controller. -/
theorem OkFromController.source (h : c.OkFromController pr) {nc : NetworkConfigPayload}
    (htaken : c.configTaken pr = some nc) (hjoined : (c.before.findNetwork nc.networkId).isSome) :
    (PacketHeader.read c.data).source = controllerAddressFromNetworkId nc.networkId := by
  obtain ⟨d, hd, hnc⟩ := Option.bind_eq_some_iff.mp htaken
  have hadmitted := dispatched_eq_some.mp hd
  obtain ⟨-, -, -, hsource, -⟩ := Node.admitPacket_dispatch hadmitted
  rw [← hsource]
  by_cases hok : Verb.fromByte d.verbId = some .ok
  · exact h d nc hd hok hnc hjoined
  · unfold Node.configTaken at hnc
    split at hnc
    · unfold Node.configFromController at hnc
      split at hnc
      · cases hnc
      · split at hnc
        · cases hnc
        · rename_i hcontroller
          cases hnc
          rw [← Node.source_dispatch hadmitted]
          exact not_not.mp hcontroller
    · rename_i hverb
      exact absurd hverb hok
    · cases hnc

/-- There is one assembly per network at all times. -/
theorem pendingConfigsOk_invariant :
    Node.CallInvariant pr (fun _ => True) fun n => PendingConfigsOk n.pendingNetworkConfigs := by
  refine .of_configs ?_ ?_ ?_
  · intro n n' hk h
    rw [hk.pendingConfigs]
    exact h
  · intro c d nc _ _ _ h
    unfold Node.applyReceivedNetworkConfig
    split
    · exact h
    · simp only
      split
      · exact h.assemble nc
      · exact h.assemble nc
  · intro c d _ _ _ h
    unfold Node.handleNetworkCredentials
    split
    · exact h
    · exact h

end Call

namespace Service

/-- Only what is received goes into an assembly. -/
theorem step_pendingConfigs {pr : Primitives} {n n' : Node} {e : Event} {o : Output}
    (h : step pr n e = .ok (n', o)) (hnot : ∀ data fromAddr now, e ≠ .receive data fromAddr now) :
    n'.pendingNetworkConfigs = n.pendingNetworkConfigs := by
  rcases step_configs h hnot with hkeeps | ⟨membership, -, rfl⟩ | ⟨networkId, -, rfl⟩ | ⟨networkId, _, com, -, rfl⟩
  · exact hkeeps.pendingConfigs
  · unfold Node.joinNetwork
    split
    · rfl
    · rfl
  · rfl
  · rfl

/-- What a datagram does to a network's configuration, it does by a call that took up a
configuration for it; our certificate may also come with credentials. -/
theorem receive_takes_config {pr : Primitives} {n : Node} {data : Bytes} {fromAddr : SocketAddr} {now : UInt64}
    {r : Received} (h : n.receivePacket pr data fromAddr now = .ok r)
    (hok : PendingConfigsOk n.pendingNetworkConfigs) (networkId : UInt64) (com : Prop)
    (hspares : ∀ c ∈ r.calls, c.SparesConfig pr networkId com) : ConfigKept networkId com n r.node :=
  ((Call.configKept_invariant networkId com n).receiveFuel h hspares (.refl hok)).1

/-- A configuration for a joined network was taken up from its controller. -/
def TakenFromController (pr : Primitives) (calls : List Call) (networkId : UInt64) : Prop :=
  ∃ c ∈ calls, ∃ nc, c.configTaken pr = some nc ∧ nc.networkId = networkId ∧
    (PacketHeader.read c.data).source = controllerAddressFromNetworkId networkId

/-- In every run in which configurations that come as an OK come from the controller of
their network: whatever is taken up for a joined network comes from its controller; a
datagram or the timer changes the settings of a network or an assembly for it only with
something taken up for it from its controller; and our certificate only with that or with
credentials. -/
theorem run_config_from_controller (pr : Primitives) (identity : Identity) (planetData : Bytes)
    (initialPacketId : UInt64) (start n : Node) (t : List (Entry Node Event Output))
    (hstart : Node.new identity planetData initialPacketId = .ok start) (hrun : NodeRun pr start t n)
    (hok : ∀ e ∈ t, ∀ c ∈ e.output.calls, c.OkFromController pr) :
    ∀ e ∈ t,
      (∀ c ∈ e.output.calls, ∀ nc, c.configTaken pr = some nc →
        (c.before.findNetwork nc.networkId).isSome →
          (PacketHeader.read c.data).source = controllerAddressFromNetworkId nc.networkId) ∧
      ((∃ data fromAddr now, e.event = .receive data fromAddr now) ∨ (∃ now, e.event = .tick now) →
        ∀ networkId,
          ((e.after.settingsOf networkId ≠ e.before.settingsOf networkId ∨
              ¬ Node.SameAssembly networkId e.before e.after) →
            TakenFromController pr e.output.calls networkId) ∧
          (e.after.ourComOf networkId ≠ e.before.ourComOf networkId →
            TakenFromController pr e.output.calls networkId ∨
              ∃ c ∈ e.output.calls, c.credentialsFor pr = some networkId)) := by
  have hempty : PendingConfigsOk start.pendingNetworkConfigs := by
    obtain ⟨planet, -, heq⟩ := bind_eq_ok hstart
    cases heq
    exact ⟨List.nodup_nil, by simp⟩
  have hpending := run_invariant Call.pendingConfigsOk_invariant (fun _ => True)
    (fun e he _ hnot hn => by rw [step_pendingConfigs he hnot]; exact hn) hrun hempty
    (fun e _ => ⟨trivial, fun _ _ => trivial⟩)
  intro e he
  have hsource : ∀ c ∈ e.output.calls, ∀ nc, c.configTaken pr = some nc →
      (c.before.findNetwork nc.networkId).isSome → _ := fun c hc nc => (hok e he c hc).source
  refine ⟨hsource, ?_⟩
  -- A network's configuration is kept unless something is taken up for it.
  have hkept : ∀ networkId (com : Prop),
      ((∃ data fromAddr now, e.event = .receive data fromAddr now) ∨ (∃ now, e.event = .tick now)) →
      ¬ TakenFromController pr e.output.calls networkId →
      (com → ¬ ∃ c ∈ e.output.calls, c.credentialsFor pr = some networkId) →
      ConfigKept networkId com e.before e.after := by
    intro networkId com hevent hnone hcreds
    have hstep := hrun.steps e he
    rcases hevent with ⟨data, fromAddr, now, hevent⟩ | ⟨now, hevent⟩
    · rw [hevent] at hstep
      obtain ⟨r, hr, hafter, hout⟩ := step_receive hstep
      rw [hout] at hnone hcreds hsource
      rw [hafter]
      refine receive_takes_config hr (hpending e he).1 networkId com fun c hc => ⟨?_, ?_⟩
      · intro nc htaken hid
        by_contra hjoined
        subst hid
        exact hnone ⟨c, hc, nc, htaken, rfl,
          hsource c hc nc htaken (Option.isSome_iff_ne_none.mpr hjoined)⟩
      · exact fun hc' hfor => hcreds hc' ⟨c, hc, hfor⟩
    · rw [hevent] at hstep
      obtain ⟨hafter, -⟩ := Prod.mk.inj (Except.ok.inj hstep)
      rw [← hafter]
      exact (ConfigKept.refl (hpending e he).1).keepsConfigs (Node.keepsConfigs_tick pr _ now)
  intro hevent networkId
  constructor
  · intro hchanged
    by_contra hnone
    have hsame := hkept networkId False hevent hnone False.elim
    rcases hchanged with hchanged | hchanged
    · exact hchanged hsame.settings
    · exact hchanged hsame.assembly
  · intro hchanged
    by_contra hneither
    obtain ⟨hnone, hcreds⟩ := not_or.mp hneither
    exact hchanged ((hkept networkId True hevent hnone fun _ => hcreds).ourCom trivial)

/-- A dictionary that sets the MTU to 1500, as the answer to a request. -/
def sampleConfigAnswer : Bytes :=
  let dict := ascii ['m', 't', 'u', '=', '5', 'd', 'c', '\n']
  let config : NetworkConfigPayload :=
    { networkId := Sample.networkId, dictData := dict, flags := none, configUpdateId := none
      totalLength := none, chunkIndex := none, signatureType := none, signature := none }
  OkPayload.serialize ⟨.networkConfigRequest, 5, .generic config.serialize⟩

/-- A node takes it up from root number 3, which is not the controller. -/
theorem config_from_stranger : ∃ (start n : Node) (t : List (Entry Node Event Output)),
    Node.new (Sample.identity 1) Sample.planet.serialize 1 = .ok start ∧
    NodeRun Sample.primitives start t n ∧ ∃ e ∈ t,
      e.event = .receive (Sample.sentBy 3 9 .ok sampleConfigAnswer) (Sample.endpoint 30) 1000 ∧
      (∀ c ∈ e.output.calls,
        (PacketHeader.read c.data).source ≠ controllerAddressFromNetworkId Sample.networkId) ∧
      (e.before.settingsOf Sample.networkId).map NetworkMembership.mtu = some 2800 ∧
      (e.after.settingsOf Sample.networkId).map NetworkMembership.mtu = some 1500 := by
  have hcheck : okWith (step Sample.primitives Sample.joined
      (.receive (Sample.sentBy 3 9 .ok sampleConfigAnswer) (Sample.endpoint 30) 1000)) (fun r =>
        r.2.calls.all (fun c =>
          (PacketHeader.read c.data).source ≠ controllerAddressFromNetworkId Sample.networkId) &&
        (r.1.settingsOf Sample.networkId).map NetworkMembership.mtu = some 1500) = true := by
    decide +kernel
  obtain ⟨⟨n', o⟩, hstep, hall⟩ := exists_of_okWith hcheck
  rw [Bool.and_eq_true, List.all_eq_true] at hall
  simp only [decide_eq_true_eq] at hall
  have hbefore : (Sample.joined.settingsOf Sample.networkId).map NetworkMembership.mtu = some 2800 := by
    decide
  obtain ⟨t, hjoined⟩ := run_joined
  exact ⟨Sample.start, n', _, Sample.new_start, hjoined.snoc hstep, _,
    List.mem_append_right t List.mem_cons_self, rfl, hall.1, hbefore, hall.2⟩

/-- From the controller, root number 2, it is taken up as it should be. -/
theorem run_config_from_controller_mtu : ∃ n t, NodeRun Sample.primitives Sample.start t n ∧ ∃ e ∈ t,
    e.after.settingsOf Sample.networkId ≠ e.before.settingsOf Sample.networkId ∧
    TakenFromController Sample.primitives e.output.calls Sample.networkId := by
  have hcheck : okWith (step Sample.primitives Sample.joined
      (.receive (Sample.sentBy 2 9 .ok sampleConfigAnswer) (Sample.endpoint 20) 1000)) (fun r =>
        r.2.calls.all (fun c => (c.dispatched Sample.primitives).map Dispatch.source =
            some (controllerAddressFromNetworkId Sample.networkId) &&
          (c.configTaken Sample.primitives).map NetworkConfigPayload.networkId = some Sample.networkId) &&
        r.1.settingsOf Sample.networkId ≠ Sample.joined.settingsOf Sample.networkId) = true := by
    decide +kernel
  obtain ⟨⟨n', o⟩, hstep, hall⟩ := exists_of_okWith hcheck
  rw [Bool.and_eq_true, List.all_eq_true] at hall
  simp only [Bool.and_eq_true, decide_eq_true_eq] at hall
  have hjoined : NodeRun Sample.primitives Sample.start
      [⟨Sample.start, .joinNetwork (.new Sample.networkId 2800), ⟨[], []⟩, Sample.joined⟩] Sample.joined :=
    Run.one rfl
  have hrun := hjoined.snoc hstep
  have hok : ∀ c ∈ o.calls, c.OkFromController Sample.primitives := by
    intro c hc d nc hd _ hnc _
    obtain ⟨hsource, hid⟩ := hall.1 c hc
    rw [hd] at hsource
    simp only [Call.configTaken, hd, Option.bind_some, hnc, Option.map_some, Option.some.injEq] at hid
    rw [hid]
    exact Option.some.inj hsource
  have hcontroller := run_config_from_controller Sample.primitives _ _ _ _ n' _ Sample.new_start hrun
    (by simpa using hok) _ (List.mem_append_right _ List.mem_cons_self)
  exact ⟨n', _, hrun, _, List.mem_append_right _ List.mem_cons_self, hall.2,
    (hcontroller.2 (.inl ⟨_, _, _, rfl⟩) Sample.networkId).1 (.inl hall.2)⟩

end Service

end ManyTier
