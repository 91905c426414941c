import ManyTier.Node.ConfigRequests
import ManyTier.Security.SessionKeys
import ManyTier.Service.Machine

/-! How often a node asks for the configuration of a network.

A run here is any sequence of what asks, of what makes a network want a configuration and
of datagrams. Two requests for one network are five seconds apart, the shortest interval
there is, as long as no certificate is used up that soon: installing one forgets when the
network was last asked for, and a tick or a flush that then finds the network wanting a
configuration asks again (`UsedUp`). -/
namespace ManyTier

/-- What happens to a node between its requests. -/
inductive ConfigEvent where
  | tick (now : UInt64)
  | flushConfigRequests (now : UInt64)
  | noteUnknownDestination (networkId now : UInt64)
  | outboundFrame (networkId : UInt64) (ethertype : UInt16) (payload : Bytes) (ourZtAddress : ByteVec 5)
      (now : UInt64)
  | receive (data : Bytes) (fromAddr : SocketAddr) (now : UInt64)

namespace ConfigEvent

def time : ConfigEvent → UInt64
  | tick now => now
  | flushConfigRequests now => now
  | noteUnknownDestination _ now => now
  | outboundFrame _ _ _ _ now => now
  | receive _ _ now => now

/-- Whether the requests that are due are sent. -/
def asks : ConfigEvent → Bool
  | tick _ => true
  | flushConfigRequests _ => true
  | _ => false

end ConfigEvent

namespace Service
variable (pr : Primitives)

def configStep (n : Node) : ConfigEvent → Except Fault (Node × Output)
  | .tick now => .ok ((n.tick pr now).1, ⟨(n.tick pr now).2, []⟩)
  | .flushConfigRequests now => .ok ((n.flushConfigRequests pr now).1, ⟨(n.flushConfigRequests pr now).2, []⟩)
  | .noteUnknownDestination networkId now => .ok (Vl2.noteUnknownDestination n networkId now, ⟨[], []⟩)
  | .outboundFrame networkId ethertype payload ourZtAddress now => do
    let (n, actions) ← Vl2.processOutboundFrame pr n networkId ethertype payload ourZtAddress now
    return (n, ⟨actions, []⟩)
  | .receive data fromAddr now => do
    let r ← n.receivePacket pr data fromAddr now
    return (r.node, ⟨r.actions, r.calls⟩)

/-- The requests sent in a step, each with the network and the time. -/
def requestsOf (e : Entry Node ConfigEvent Output) : List (UInt64 × UInt64) :=
  (e.after.configRequests.drop e.before.configRequests.length).map fun networkId => (networkId, e.event.time)

/-- The requests sent in a run, in order. -/
def requestsSent (t : List (Entry Node ConfigEvent Output)) : List (UInt64 × UInt64) := t.flatMap requestsOf

/-- The shortest interval between two requests for one network. -/
def configRequestMinInterval : Nat := 5000

/-- Of two requests in order, the second is for another network or late enough. -/
def Apart (a b : UInt64 × UInt64) : Prop :=
  a.1 = b.1 → a.2.toNat + configRequestMinInterval ≤ b.2.toNat

/-- A certificate installed in one step is used up in a later one: there, too soon after
the request whose time it made the node forget, the node asks for what it wants, the network
wants a configuration, and its controller can be asked. -/
def UsedUp (e e' : Entry Node ConfigEvent Output) : Prop :=
  ∃ c ∈ e.output.calls, ∃ networkId last, c.Forgets pr networkId last ∧ e'.event.asks = true ∧
    e'.event.time.toNat < last.toNat + configRequestMinInterval ∧
    e'.before.hasSession (controllerAddressFromNetworkId networkId) = true ∧
    ∃ net ∈ e'.before.networks, net.networkId = networkId ∧ Node.configWanted e'.event.time net = true

/-! ### One step -/

/-- What a step does about configurations: what it asks for was due, and a limit is
recorded, left alone, or lifted after five seconds or by a certificate. -/
structure StepAsks (e : Entry Node ConfigEvent Output) (sent : List UInt64) : Prop where
  requests : e.after.configRequests = e.before.configRequests ++ sent
  networkIds : e.after.networkIds = e.before.networkIds
  nodup : sent.Nodup
  due : ∀ networkId ∈ sent, e.event.asks = true ∧
    e.before.hasSession (controllerAddressFromNetworkId networkId) = true ∧
    ∃ net ∈ e.before.networks, net.networkId = networkId ∧ Node.configDue e.event.time net = true
  limits : ∀ limit' ∈ e.after.limits, ∃ limit ∈ e.before.limits, limit'.1 = limit.1 ∧
    ((limit.1 ∈ sent ∧ limit'.2 = e.event.time) ∨ (limit.1 ∉ sent ∧ (limit'.2 = limit.2 ∨
      (limit'.2 = 0 ∧ (5000 ≤ satSub e.event.time limit.2 ∨
        ∃ c ∈ e.output.calls, c.Forgets pr limit.1 limit.2)))))

variable {pr}

theorem stepAsks_of_requested {e : Entry Node ConfigEvent Output} {sent : List UInt64}
    (h : Node.Requested e.event.time sent e.before e.after) (hnodup : sent.Nodup)
    (hdue : ∀ networkId ∈ sent, e.event.asks = true ∧
      e.before.hasSession (controllerAddressFromNetworkId networkId) = true ∧
      ∃ net ∈ e.before.networks, net.networkId = networkId ∧ Node.configDue e.event.time net = true) :
    StepAsks pr e sent := by
  refine ⟨h.requests, h.networkIds, hnodup, hdue, fun limit' hlimit' => ?_⟩
  rw [h.limits] at hlimit'
  obtain ⟨limit, hlimit, rfl⟩ := List.mem_map.mp hlimit'
  unfold Node.stamp
  by_cases hsent : limit.1 ∈ sent
  · exact ⟨limit, hlimit, by rw [if_pos hsent], .inl ⟨hsent, by rw [if_pos hsent]⟩⟩
  · exact ⟨limit, hlimit, by rw [if_neg hsent], .inr ⟨hsent, .inl (by rw [if_neg hsent])⟩⟩

theorem stepAsks_of_note {e : Entry Node ConfigEvent Output} (networkId : UInt64)
    (h : e.after = Vl2.noteUnknownDestination e.before networkId e.event.time) : StepAsks pr e [] := by
  refine ⟨?_, ?_, List.nodup_nil, by simp, fun limit' hlimit' => ?_⟩
  · rw [h, List.append_nil]
    rfl
  · rw [h]
    exact Node.networkIds_modifyNetwork _ _ fun _ => rfl
  · rw [h] at hlimit'
    obtain ⟨limit, hlimit, hid, hlast⟩ := Node.limits_noteUnknownDestination _ _ _ limit' hlimit'
    refine ⟨limit, hlimit, hid, .inr ⟨List.not_mem_nil, ?_⟩⟩
    rcases hlast with hlast | ⟨hzero, hlate⟩
    · exact .inl hlast
    · exact .inr ⟨hzero, .inl hlate⟩

theorem step_asks {e : Entry Node ConfigEvent Output}
    (h : configStep pr e.before e.event = .ok (e.after, e.output)) (hids : e.before.networkIds.Nodup) :
    ∃ sent, StepAsks pr e sent := by
  obtain ⟨n, event, o, n'⟩ := e
  simp only at h hids
  cases event with
  | tick now =>
    obtain ⟨hn', -⟩ := Prod.mk.inj (Except.ok.inj h)
    obtain ⟨sent, hnodup, hsent, hdue⟩ := Node.tick_requested pr n now hids
    rw [hn'] at hsent
    exact ⟨sent, stepAsks_of_requested hsent hnodup fun id hid => ⟨rfl, hdue id hid⟩⟩
  | flushConfigRequests now =>
    obtain ⟨rfl, -⟩ := Prod.mk.inj (Except.ok.inj h)
    obtain ⟨sent, hnodup, hsent, hdue⟩ := Node.queueConfigRequests_requested pr { n with actions := [] } now hids
    refine ⟨sent, stepAsks_of_requested ⟨hsent.requests, hsent.limits⟩ hnodup fun id hid => ⟨rfl, ?_⟩⟩
    exact hdue id hid
  | noteUnknownDestination networkId now =>
    obtain ⟨rfl, -⟩ := Prod.mk.inj (Except.ok.inj h)
    exact ⟨[], stepAsks_of_note networkId rfl⟩
  | outboundFrame networkId ethertype payload ourZtAddress now =>
    obtain ⟨⟨m, actions⟩, hm, heq⟩ := bind_eq_ok h
    cases heq
    rcases Node.processOutboundFrame_steady pr hm with hsteady | hnote
    · exact ⟨[], stepAsks_of_requested (Node.requested_of_steady hsteady now) List.nodup_nil (by simp)⟩
    · exact ⟨[], stepAsks_of_note _ hnote⟩
  | receive data fromAddr now =>
    obtain ⟨r, hr, heq⟩ := bind_eq_ok h
    cases heq
    have hinv := Node.unasked_invariant pr
      (fun networkId last => ∃ c ∈ r.calls, c.Forgets pr networkId last) n
    obtain ⟨hunasked, -⟩ := hinv.receiveFuel hr (fun c hc _ _ hforgets => ⟨c, hc, hforgets⟩) (.refl n)
    refine ⟨[], ⟨?_, hunasked.networkIds, List.nodup_nil, by simp, fun limit' hlimit' => ?_⟩⟩
    · rw [List.append_nil]
      exact hunasked.requests
    · obtain ⟨limit, hlimit, hid, hlast⟩ := hunasked.limits limit' hlimit'
      refine ⟨limit, hlimit, hid, .inr ⟨List.not_mem_nil, ?_⟩⟩
      rcases hlast with hlast | ⟨hzero, hforgotten⟩
      · exact .inl hlast
      · exact .inr ⟨hzero, .inr hforgotten⟩

theorem StepAsks.requestsOf_eq {e : Entry Node ConfigEvent Output} {sent : List UInt64} (h : StepAsks pr e sent) :
    requestsOf e = sent.map fun networkId => (networkId, e.event.time) := by
  rw [requestsOf, h.requests, List.drop_left]

/-! ### Runs -/

/-- Every request sent for a network so far is late enough by now, or it is not later than
the time on record, or not later than a time that a certificate made the node forget. -/
def Accounted (pr : Primitives) (t : List (Entry Node ConfigEvent Output)) (now : UInt64)
    (limit : UInt64 × UInt64) : Prop :=
  ∀ sentAt, (limit.1, sentAt) ∈ requestsSent t →
    sentAt.toNat + configRequestMinInterval ≤ now.toNat ∨ (limit.2 ≠ 0 ∧ sentAt ≤ limit.2) ∨
    ∃ e ∈ t, ∃ c ∈ e.output.calls, ∃ last, c.Forgets pr limit.1 last ∧ sentAt ≤ last

/-- A request is late enough for all requests that are accounted for. -/
theorem StepAsks.late {e : Entry Node ConfigEvent Output} {sent : List UInt64} (h : StepAsks pr e sent)
    {t : List (Entry Node ConfigEvent Output)} (hused : ∀ e₀ ∈ t, ¬ UsedUp pr e₀ e)
    (haccounted : ∀ limit ∈ e.before.limits, Accounted pr t e.event.time limit) {networkId sentAt : UInt64}
    (hsent : networkId ∈ sent) (hearlier : (networkId, sentAt) ∈ requestsSent t) :
    sentAt.toNat + configRequestMinInterval ≤ e.event.time.toNat := by
  obtain ⟨hasks, hsession, net, hnet, rfl, hdue⟩ := h.due networkId hsent
  obtain ⟨hwanted, hlimit⟩ := Bool.and_eq_true _ _ |>.mp hdue
  rcases haccounted net.limit (List.mem_map_of_mem hnet) sentAt hearlier with hlate | ⟨hnever, hle⟩ |
    ⟨e₀, he₀, c, hc, last, hforgets, hle⟩
  · exact hlate
  · have hnever' : net.lastConfigRequest ≠ 0 := hnever
    have hle' : sentAt ≤ net.lastConfigRequest := hle
    have hdue' : Node.configRequestInterval ≤ satSub e.event.time net.lastConfigRequest := by
      simpa [hnever'] using hlimit
    rw [UInt64.le_iff_toNat_le] at hle' hdue'
    rw [toNat_satSub, show Node.configRequestInterval.toNat = 30000 from rfl] at hdue'
    unfold configRequestMinInterval
    omega
  · by_contra hsoon
    refine hused e₀ he₀ ⟨c, hc, net.networkId, last, hforgets, hasks, ?_, hsession, net, hnet, rfl, hwanted⟩
    rw [UInt64.le_iff_toNat_le] at hle
    omega

/-- What is accounted for stays so in a longer run, at a later time. -/
theorem Accounted.later {t : List (Entry Node ConfigEvent Output)} {now now' sentAt : UInt64}
    {limit : UInt64 × UInt64} (h : Accounted pr t now limit) (hnow : now ≤ now') (e : Entry Node ConfigEvent Output)
    (hmem : (limit.1, sentAt) ∈ requestsSent t) :
    sentAt.toNat + configRequestMinInterval ≤ now'.toNat ∨ (limit.2 ≠ 0 ∧ sentAt ≤ limit.2) ∨
    ∃ e₀ ∈ t ++ [e], ∃ c ∈ e₀.output.calls, ∃ last, c.Forgets pr limit.1 last ∧ sentAt ≤ last := by
  rcases h sentAt hmem with hlate | hrecorded | ⟨e₀, he₀, hforgotten⟩
  · exact .inl (hlate.trans (UInt64.le_iff_toNat_le.mp hnow))
  · exact .inr (.inl hrecorded)
  · exact .inr (.inr ⟨e₀, List.mem_append_left _ he₀, hforgotten⟩)

/-- A step keeps every request accounted for. -/
theorem StepAsks.accounted {e : Entry Node ConfigEvent Output} {sent : List UInt64} (h : StepAsks pr e sent)
    {t : List (Entry Node ConfigEvent Output)} (hpositive : 0 < e.event.time)
    (hused : ∀ e₀ ∈ t, ¬ UsedUp pr e₀ e)
    (haccounted : ∀ limit ∈ e.before.limits, Accounted pr t e.event.time limit) {now : UInt64}
    (hnow : e.event.time ≤ now) : ∀ limit ∈ e.after.limits, Accounted pr (t ++ [e]) now limit := by
  intro limit' hlimit' sentAt hmem
  obtain ⟨limit, hlimit, hid, hmove⟩ := h.limits limit' hlimit'
  rw [hid] at hmem ⊢
  rw [requestsSent, List.flatMap_append, List.mem_append] at hmem
  rcases hmem with hearlier | hthis
  · have hold := (haccounted limit hlimit).later hnow e hearlier
    rcases hmove with ⟨hsent, -⟩ | ⟨-, hlast | ⟨-, hlifted⟩⟩
    · exact .inl ((h.late hused haccounted hsent hearlier).trans (UInt64.le_iff_toNat_le.mp hnow))
    · rw [hlast]
      exact hold
    · rcases hold with hlate | ⟨-, hle⟩ | hforgotten
      · exact .inl hlate
      · rcases hlifted with hlate | ⟨c, hc, hforgets⟩
        · -- The limit was lifted because five seconds have passed since.
          rw [UInt64.le_iff_toNat_le] at hnow hle hlate
          rw [toNat_satSub, show (5000 : UInt64).toNat = 5000 from rfl] at hlate
          left
          unfold configRequestMinInterval
          omega
        · exact .inr (.inr ⟨e, by simp, c, hc, limit.2, hforgets, hle⟩)
      · exact .inr (.inr hforgotten)
  · rw [List.flatMap_singleton, h.requestsOf_eq] at hthis
    obtain ⟨networkId, hsent, heq⟩ := List.mem_map.mp hthis
    obtain ⟨rfl, rfl⟩ := Prod.mk.inj heq
    rcases hmove with ⟨-, hlast⟩ | ⟨hnone, -⟩
    · rw [hlast]
      exact .inr (.inl ⟨(UInt64.ne_of_lt hpositive).symm, UInt64.le_refl _⟩)
    · exact absurd hsent hnone

/-- In a run in which no certificate is used up, every request is accounted for and all
are apart. -/
theorem run_accounted {n₀ n : Node} {t : List (Entry Node ConfigEvent Output)} (hrun : Run (configStep pr) n₀ t n)
    (hids : n₀.networkIds.Nodup) (hpositive : ∀ e ∈ t, 0 < e.event.time)
    (hordered : t.Pairwise fun e e' => e.event.time ≤ e'.event.time)
    (hused : t.Pairwise fun e e' => ¬ UsedUp pr e e') :
    n.networkIds.Nodup ∧
    (∀ now, (∀ e ∈ t, e.event.time ≤ now) → ∀ limit ∈ n.limits, Accounted pr t now limit) ∧
    (requestsSent t).Pairwise Apart := by
  induction hrun with
  | nil => exact ⟨hids, fun _ _ _ _ _ hmem => absurd hmem List.not_mem_nil, List.Pairwise.nil⟩
  | @snoc t s₁ s₂ event o hinit hstep ih =>
    obtain ⟨hordered, -, hlast⟩ := List.pairwise_append.mp hordered
    obtain ⟨hused, -, hunused⟩ := List.pairwise_append.mp hused
    obtain ⟨hnodup, haccounted, hapart⟩ := ih (fun e he => hpositive e (List.mem_append_left _ he)) hordered hused
    set e : Entry Node ConfigEvent Output := ⟨s₁, event, o, s₂⟩ with he
    have hunused : ∀ e₀ ∈ t, ¬ UsedUp pr e₀ e := fun e₀ he₀ => hunused e₀ he₀ e (List.mem_singleton_self e)
    have haccounted : ∀ limit ∈ e.before.limits, Accounted pr t e.event.time limit :=
      haccounted e.event.time fun e₀ he₀ => hlast e₀ he₀ e (List.mem_singleton_self e)
    obtain ⟨sent, hasks⟩ := step_asks (e := e) hstep hnodup
    refine ⟨hasks.networkIds ▸ hnodup, fun now hnow => ?_, ?_⟩
    · exact hasks.accounted (hpositive e (by simp)) hunused haccounted (hnow e (by simp))
    · rw [requestsSent, List.flatMap_append, List.flatMap_singleton, hasks.requestsOf_eq, List.pairwise_append]
      refine ⟨hapart, ?_, ?_⟩
      · -- One step asks once for each network.
        refine List.pairwise_map.mpr (hasks.nodup.imp fun hne hsame => absurd hsame hne)
      · rintro ⟨networkId, sentAt⟩ hearlier b hb rfl
        obtain ⟨_, hsent, rfl⟩ := List.mem_map.mp hb
        exact hasks.late hunused haccounted hsent hearlier

/-! ### Reached nodes -/

theorem networkIds_of_keepsConfigs {n n' : Node} (h : KeepsConfigs n n') : n'.networkIds = n.networkIds := by
  have hids : ∀ m : Node, m.networkIds = (m.networks.map NetworkMembership.config).map NetworkMembership.networkId := by
    intro m
    rw [List.map_map]
    rfl
  rw [hids, hids, h.configs]

/-- No operation joins a network twice. -/
theorem step_networkIds {e : Entry Node Event Output} (h : step pr e.before e.event = .ok (e.after, e.output))
    (hids : e.before.networkIds.Nodup) : e.after.networkIds.Nodup := by
  have hcalls : Node.CallInvariant pr (fun _ => True) fun n => n.networkIds.Nodup := by
    refine .of_configs (fun n n' hkeeps hn => networkIds_of_keepsConfigs hkeeps ▸ hn) ?_ ?_
    · intro c d nc _ _ _ hn
      rw [Node.networkIds_of_steady (Node.steady_applyReceivedNetworkConfig d.node nc)]
      exact hn
    · intro c d _ _ _ hn
      unfold Node.handleNetworkCredentials
      split
      · exact hn
      · rename_i networkId com _
        rw [Node.networkIds_modifyNetwork d.node networkId (f := Node.installCom com) fun _ => rfl]
        exact hn
  refine (step_invariant hcalls (fun _ => True) (fun e he _ hnot hn => ?_) h trivial (fun _ _ => trivial) hids).1
  rcases step_configs he hnot with hkeeps | ⟨membership, -, hjoin⟩ | ⟨networkId, -, hleave⟩ | ⟨networkId, peer, com, -, hrecord⟩
  · rw [networkIds_of_keepsConfigs hkeeps]
    exact hn
  · rw [hjoin, Node.joinNetwork]
    split
    · exact hn
    · rename_i hnew
      have hnew' : membership.networkId ∉ e.before.networkIds := by simpa [Node.networkIds] using hnew
      show (List.map NetworkMembership.networkId (e.before.networks ++ [membership])).Nodup
      rw [List.map_append, List.nodup_append]
      refine ⟨hn, List.nodup_singleton _, ?_⟩
      rintro id hid _ hother rfl
      obtain rfl := List.mem_singleton.mp hother
      exact hnew' hid
  · rw [hleave]
    exact hn.sublist (List.filter_sublist.map _)
  · rw [hrecord, recordPeerCom, Node.networkIds_modifyNetwork]
    · exact hn
    · exact fun _ => rfl

theorem run_networkIds {start n : Node} {t : List (Entry Node Event Output)} (hrun : NodeRun pr start t n)
    (hstart : start.networkIds.Nodup) : n.networkIds.Nodup :=
  hrun.invariant (fun n => n.networkIds.Nodup) (fun _ => True) (fun _ he _ hn => step_networkIds he hn) hstart
    fun _ _ => trivial

theorem new_networkIds {identity : Identity} {planetData : Bytes} {id : UInt64} {start : Node}
    (h : Node.new identity planetData id = .ok start) : start.networkIds = [] := by
  obtain ⟨planet, -, heq⟩ := bind_eq_ok h
  cases heq
  rfl

/-- From every node that is reached, at times that are positive and do not go back: two
requests for one network are five seconds apart, in a run in which no certificate is used
up. -/
theorem run_requests_apart (pr : Primitives) (identity : Identity) (planetData : Bytes) (id : UInt64)
    (start n₀ n : Node) (t₀ : List (Entry Node Event Output)) (t : List (Entry Node ConfigEvent Output))
    (hstart : Node.new identity planetData id = .ok start) (hreached : NodeRun pr start t₀ n₀)
    (hrun : Run (configStep pr) n₀ t n) (hpositive : ∀ e ∈ t, 0 < e.event.time)
    (hordered : t.Pairwise fun e e' => e.event.time ≤ e'.event.time)
    (hused : t.Pairwise fun e e' => ¬ UsedUp pr e e') : (requestsSent t).Pairwise Apart := by
  have hids : n₀.networkIds.Nodup := run_networkIds hreached (new_networkIds hstart ▸ List.nodup_nil)
  exact (run_accounted hrun hids hpositive hordered hused).2.2

/-- A certificate for the network that was due from the start of time. -/
def sampleDueCom : CertificateOfMembership where
  issuedTo := (Sample.identity 1).address.bytes
  qualifiers := [⟨0, 0, 0⟩, ⟨1, Sample.networkId, 0⟩]
  signerAddress := (Sample.identity 2).address.bytes
  signature := ByteVec.zero 96

/-- The controller sends it. -/
def sampleDueCredentials : Bytes :=
  Sample.sentBy 2 9 .networkCredentials (NetworkCredentialsPayload.serialize
    { com := some sampleDueCom, capabilitiesRaw := [], tagsRaw := [], revocationsRaw := [], cooRaw := [] })

/-- A session with the controller and the network joined; then a request after 40 seconds,
the certificate for an answer, and another round of requests. -/
def sampleRounds (again : UInt64) :
    Except Fault ((List (Entry Node Event Output) × Node) × (List (Entry Node ConfigEvent Output) × Node)) := do
  let r₀ ← runAll (step Sample.primitives) Sample.start
    [.receive sampleRootHello (Sample.endpoint 20) 1005, .joinNetwork (.new Sample.networkId 2800)]
  let r ← runAll (configStep Sample.primitives) r₀.2
    [.flushConfigRequests 40000, .receive sampleDueCredentials (Sample.endpoint 20) 40001,
      .flushConfigRequests again]
  return (r₀, r)

theorem sampleRounds_runs {again : UInt64}
    {r : (List (Entry Node Event Output) × Node) × (List (Entry Node ConfigEvent Output) × Node)}
    (h : sampleRounds again = .ok r) :
    NodeRun Sample.primitives Sample.start r.1.1 r.1.2 ∧ Run (configStep Sample.primitives) r.1.2 r.2.1 r.2.2 := by
  obtain ⟨r₀, hr₀, h⟩ := bind_eq_ok h
  obtain ⟨r₁, hr₁, heq⟩ := bind_eq_ok h
  cases heq
  exact ⟨run_runAll hr₀, run_runAll hr₁⟩

/-- A certificate that was installed cannot be used up late enough after the last request. -/
theorem not_usedUp {e e' : Entry Node ConfigEvent Output} {last : UInt64}
    (hlast : e.output.calls.all (fun c => c.before.networks.all fun net => net.lastConfigRequest ≤ last) = true)
    (hlate : (e.output.calls.isEmpty || last.toNat + configRequestMinInterval ≤ e'.event.time.toNat) = true) :
    ¬ UsedUp pr e e' := by
  rintro ⟨c, hc, networkId, last', ⟨d, com, net, -, -, -, hnet, rfl, -⟩, -, hsoon, -⟩
  have hle := List.all_eq_true.mp (List.all_eq_true.mp hlast c hc) net (List.mem_of_find?_eq_some hnet)
  rw [decide_eq_true_eq, UInt64.le_iff_toNat_le] at hle
  rcases Bool.or_eq_true _ _ |>.mp hlate with hnone | hlate
  · rw [List.isEmpty_iff.mp hnone] at hc
    cases hc
  · have hlate := of_decide_eq_true hlate
    omega

/-- The certificate is due at once, and the next round comes six seconds after the request. -/
theorem run_requests_apart_late : ∃ t₀ n₀ t n, NodeRun Sample.primitives Sample.start t₀ n₀ ∧
    Run (configStep Sample.primitives) n₀ t n ∧
    requestsSent t = [(Sample.networkId, 40000), (Sample.networkId, 46000)] ∧ (requestsSent t).Pairwise Apart := by
  have hcheck : okWith (sampleRounds 46000) (fun r =>
      requestsSent r.2.1 = [(Sample.networkId, 40000), (Sample.networkId, 46000)] ∧
      (r.2.1.all fun e => 0 < e.event.time ∧ e.output.calls.all fun c =>
        c.before.networks.all fun net => net.lastConfigRequest ≤ 40000) ∧
      (r.2.1.Pairwise fun e e' => e.event.time ≤ e'.event.time) ∧
      r.2.1.Pairwise fun e e' => (e.output.calls.isEmpty ||
        (40000 : UInt64).toNat + configRequestMinInterval ≤ e'.event.time.toNat) = true) = true := by
    decide +kernel
  obtain ⟨r, hr, hall⟩ := exists_of_okWith hcheck
  obtain ⟨hsent, hsteps, hordered, hlate⟩ := of_decide_eq_true hall
  obtain ⟨hreached, hrun⟩ := sampleRounds_runs hr
  have hstep := fun e he => of_decide_eq_true (List.all_eq_true.mp hsteps e he)
  refine ⟨_, _, _, _, hreached, hrun, hsent, run_requests_apart Sample.primitives _ _ _ _ _ _ _ _ Sample.new_start
    hreached hrun (fun e he => (hstep e he).1) hordered ?_⟩
  refine hlate.imp_of_mem fun he _ hpair => ?_
  exact not_usedUp (hstep _ he).2 hpair

/-- When it comes at once, it asks again two milliseconds after the first request. -/
theorem requests_not_apart : ¬ ∀ (pr : Primitives) (identity : Identity) (planetData : Bytes) (id : UInt64)
    (start n₀ n : Node) (t₀ : List (Entry Node Event Output)) (t : List (Entry Node ConfigEvent Output)),
    Node.new identity planetData id = .ok start → NodeRun pr start t₀ n₀ → Run (configStep pr) n₀ t n →
    (∀ e ∈ t, 0 < e.event.time) → (t.Pairwise fun e e' => e.event.time ≤ e'.event.time) →
    (requestsSent t).Pairwise Apart := by
  intro hall
  have hcheck : okWith (sampleRounds 40002) (fun r =>
      requestsSent r.2.1 = [(Sample.networkId, 40000), (Sample.networkId, 40002)] ∧
      (r.2.1.all fun e => 0 < e.event.time) ∧ r.2.1.Pairwise fun e e' => e.event.time ≤ e'.event.time) = true := by
    decide +kernel
  obtain ⟨r, hr, hrounds⟩ := exists_of_okWith hcheck
  obtain ⟨hsent, hpositive, hordered⟩ := of_decide_eq_true hrounds
  obtain ⟨hreached, hrun⟩ := sampleRounds_runs hr
  have hapart := hall Sample.primitives _ _ _ _ _ _ _ _ Sample.new_start hreached hrun
    (fun e he => of_decide_eq_true (List.all_eq_true.mp hpositive e he)) hordered
  rw [hsent] at hapart
  have hlate := (List.pairwise_cons.mp hapart).1 _ (List.mem_singleton_self _) rfl
  exact absurd hlate (by decide)

end Service

end ManyTier
