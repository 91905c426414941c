import ManyTier.Service.ConfigRate
import ManyTier.Service.DaemonRuns

/-! What a service comes back to.

The networks of a service change by the calls of its API alone (`daemonStep_networks`),
and each such call leaves or takes away a marker. From canonical markers on, and as long as
the files can be written and removed, the markers therefore stand for the networks that
are joined (`Remembers.step`), whenever the service stops, and a start from them joins
these networks and no others (`restart_rejoins`). -/
namespace ManyTier

namespace Service
variable {σ : Type} {pr : Primitives} {engine : Option (Controller.Engine σ)}

/-! ### The networks of a node -/

theorem networkIds_calls (P : List UInt64 → Prop) : Node.CallInvariant pr (fun _ => True) fun n => P n.networkIds := by
  refine .of_configs (fun n n' hkeeps hn => networkIds_of_keepsConfigs hkeeps ▸ hn) ?_ ?_
  · intro c d nc _ _ _ hn
    rw [Node.networkIds_of_steady (Node.steady_applyReceivedNetworkConfig d.node nc)]
    exact hn
  · intro c d _ _ _ hn
    unfold Node.handleNetworkCredentials
    split
    · exact hn
    · rename_i networkId com _
      rw [Node.networkIds_modifyNetwork d.node networkId (f := Node.installCom com) fun _ => rfl]
      exact hn

/-- Only the API joins and leaves networks. -/
theorem step_sameNetworks {e : Entry Node Event Output} (h : step pr e.before e.event = .ok (e.after, e.output))
    (hkind : kind e.event ≠ .call) : e.after.networkIds = e.before.networkIds := by
  refine (step_invariant (networkIds_calls (· = e.before.networkIds)) (fun e => kind e.event ≠ .call)
    (fun e he hkind hnot hn => ?_) h hkind (fun _ _ => trivial) rfl).1
  rcases step_configs he hnot with hkeeps | ⟨membership, hjoin, -⟩ | ⟨networkId, hleave, -⟩ | ⟨networkId, peer, com, -, hrecord⟩
  · rw [networkIds_of_keepsConfigs hkeeps]
    exact hn
  · rw [hjoin] at hkind
    exact absurd rfl hkind
  · rw [hleave] at hkind
    exact absurd rfl hkind
  · rw [hrecord, recordPeerCom, Node.networkIds_modifyNetwork]
    · exact hn
    · exact fun _ => rfl

theorem run_sameNetworks {n n' : Node} {t : List (Entry Node Event Output)} (hrun : NodeRun pr n t n')
    (hkind : ∀ x ∈ t, kind x.event ≠ .call) : n'.networkIds = n.networkIds :=
  hrun.invariant (fun m => m.networkIds = n.networkIds) (fun x => kind x.event ≠ .call)
    (fun _ he hkind hbefore => (step_sameNetworks he hkind).trans hbefore) rfl hkind

theorem mem_networkIds {n : Node} {networkId : UInt64} : networkId ∈ n.networkIds ↔ (n.findNetwork networkId).isSome := by
  simp [Node.networkIds, Node.findNetwork]

theorem networkIds_joinNetwork (n : Node) (networkId : UInt64) :
    (n.joinNetwork (.new networkId defaultNetworkMtu)).networkIds =
      if networkId ∈ n.networkIds then n.networkIds else n.networkIds ++ [networkId] := by
  have hany : (n.networks.any fun net => net.networkId = networkId) = decide (networkId ∈ n.networkIds) := by
    simp [Node.networkIds, List.any_eq]
  unfold Node.joinNetwork
  split
  · rename_i hjoined
    rw [if_pos]
    exact of_decide_eq_true (hany.symm.trans hjoined)
  · rename_i hnew
    rw [if_neg]
    · simp [Node.networkIds, NetworkMembership.new]
    · intro hmem
      exact hnew (hany.trans (decide_eq_true hmem))

/-! ### One step -/

/-- A call to join adds one network and its marker, or neither. -/
theorem networks_joinNetwork (n : Node) (markers : List Bytes) (tunNames : SortedMap UInt64 Bytes) (id : Bytes) (written : Bool) :
    let called := Api.joinNetwork n markers tunNames id written
    (called.1.2 = markers ∧ called.1.1.networkIds = n.networkIds) ∨
    ∃ networkId, parseHexU64 id = some networkId ∧ networkId ∉ n.networkIds ∧
      called.1.1.networkIds = n.networkIds ++ [networkId] ∧ called.1.2 = rememberNetwork markers networkId written := by
  unfold Api.joinNetwork
  split
  · exact .inl ⟨rfl, rfl⟩
  · rename_i networkId hparsed
    split
    · exact .inl ⟨rfl, Node.networkIds_modifyNetwork n networkId fun _ => rfl⟩
    · rename_i hnone
      have hnew : networkId ∉ n.networkIds := by
        simp [mem_networkIds, hnone]
      exact .inr ⟨networkId, hparsed, hnew, by rw [networkIds_joinNetwork, if_neg hnew], rfl⟩

/-- A call to leave takes one network away and its marker, or neither. -/
theorem networks_leaveNetwork (n : Node) (markers : List Bytes) (id : Bytes) (removed : Bool) :
    let called := Api.leaveNetwork n markers id removed
    (called.1.2 = markers ∧ called.1.1.networkIds = n.networkIds) ∨
    ∃ networkId, parseHexU64 id = some networkId ∧ called.1.1.networkIds = n.networkIds.filter (· ≠ networkId) ∧
      called.1.2 = forgetNetwork markers networkId removed := by
  unfold Api.leaveNetwork
  split
  · exact .inl ⟨rfl, rfl⟩
  · rename_i networkId hparsed
    refine .inr ⟨networkId, hparsed, ?_, rfl⟩
    simp [Node.networkIds, Service.leaveNetwork, List.filter_map, Function.comp_def]

/-- What a turn or a call does to the networks and to their markers: nothing, or it joins
or leaves one. -/
theorem daemonStep_networks {e : Entry (Daemon σ) (DaemonEvent σ) DaemonOutput}
    (h : daemonStep pr engine e.before e.event = .ok (e.after, e.output)) :
    (e.after.markers = e.before.markers ∧ e.after.node.networkIds = e.before.node.networkIds) ∨
    (∃ id written networkId, e.event = .joinNetwork id written ∧ parseHexU64 id = some networkId ∧
      networkId ∉ e.before.node.networkIds ∧ e.after.node.networkIds = e.before.node.networkIds ++ [networkId] ∧
      e.after.markers = rememberNetwork e.before.markers networkId written) ∨
    ∃ id removed networkId, e.event = .leaveNetwork id removed ∧ parseHexU64 id = some networkId ∧
      e.after.node.networkIds = e.before.node.networkIds.filter (· ≠ networkId) ∧
      e.after.markers = forgetNetwork e.before.markers networkId removed := by
  obtain ⟨d, event, o, d'⟩ := e
  -- A turn of the loop has no step that joins or leaves.
  have hturn : event.isCall = false → d'.node.networkIds = d.node.networkIds := by
    intro hcall
    obtain ⟨part, hinner, hpart⟩ := daemon_madeOf pr engine ⟨d, event, o, d'⟩ h
    exact run_sameNetworks hinner (hpart.called hcall)
  cases daemonStep_turn (show daemonStep pr engine d event = .ok (d', o) from h) with
  | @joinNetwork id written called hcalled =>
    subst hcalled
    rcases networks_joinNetwork d.node d.markers d.tuns.names id written with hsame | ⟨networkId, hjoined⟩
    · exact .inl hsame
    · exact .inr (.inl ⟨id, written, networkId, rfl, hjoined⟩)
  | @leaveNetwork id removed called hcalled =>
    subst hcalled
    rcases networks_leaveNetwork d.node d.markers id removed with hsame | ⟨networkId, hleft⟩
    · exact .inl hsame
    · exact .inr (.inr ⟨id, removed, networkId, rfl, hleft⟩)
  | orbitMoon hcalled =>
    rcases Api.orbitMoon_cases hcalled with rfl | ⟨world, topology, -, -, rfl⟩
    · exact .inl ⟨rfl, rfl⟩
    · exact .inl ⟨rfl, rfl⟩
  | @deorbitMoon id called hcalled =>
    refine .inl ⟨rfl, congrArg (List.map _) ?_⟩
    rw [← hcalled]
    unfold Api.deorbitMoon
    split <;> rfl
  | _ => exact .inl ⟨rfl, hturn rfl⟩

/-! ### Markers and networks -/

/-- A marker is written for a network that is joined, and one that is there is removed
when it is left. -/
def FilesKept (e : Entry (Daemon σ) (DaemonEvent σ) DaemonOutput) : Prop :=
  (∀ id, e.event ≠ .joinNetwork id false) ∧
    ∀ id networkId, e.event = .leaveNetwork id false → parseHexU64 id = some networkId →
      networkMarker networkId ∉ e.before.markers

/-- The markers stand for the networks that are joined. -/
structure Remembers (d : Daemon σ) : Prop where
  canonical : CanonicalMarkers d.markers
  networks : ∀ networkId, networkId ∈ d.node.networkIds ↔ networkId ∈ rememberedNetworks d.markers

theorem Remembers.step {e : Entry (Daemon σ) (DaemonEvent σ) DaemonOutput} (hd : Remembers e.before)
    (h : daemonStep pr engine e.before e.event = .ok (e.after, e.output)) (hfiles : FilesKept e) : Remembers e.after := by
  rcases daemonStep_networks h with ⟨hmarkers, hnetworks⟩ | ⟨id, written, networkId, hevent, -, -, hnetworks, hmarkers⟩ |
    ⟨id, removed, networkId, hevent, hparsed, hnetworks, hmarkers⟩
  · refine ⟨hmarkers ▸ hd.canonical, fun networkId => ?_⟩
    rw [hmarkers, hnetworks]
    exact hd.networks networkId
  · obtain rfl : written = true := by
      by_contra hnot
      rw [Bool.not_eq_true] at hnot
      exact hfiles.1 id (hnot ▸ hevent)
    refine ⟨hmarkers ▸ hd.canonical.remember networkId true, fun other => ?_⟩
    rw [hmarkers, hnetworks, mem_rememberNetwork, List.mem_append, List.mem_singleton, hd.networks]
    exact or_comm
  · refine ⟨hmarkers ▸ hd.canonical.forget networkId removed, fun other => ?_⟩
    rw [hmarkers, hnetworks, List.mem_filter, decide_eq_true_eq, hd.networks]
    cases removed with
    | true => exact (mem_forgetNetwork_of_canonical hd.canonical).symm
    | false =>
      -- The marker was not there, so the network was not joined.
      have hmissing : networkMarker networkId ∉ e.before.markers := hfiles.2 id networkId hevent hparsed
      rw [forgetNetwork, if_neg Bool.false_ne_true]
      refine and_iff_left_of_imp fun hother => ?_
      rintro rfl
      obtain ⟨name, hname, hmarked⟩ := mem_rememberedNetworks.mp hother
      exact hmissing (hd.canonical name hname _ hmarked ▸ hname)

theorem networkIds_rejoinRemembered (networkIds : List UInt64) (n : Node) (hids : (n.networkIds ++ networkIds).Nodup) :
    (networkIds.foldl rejoinRemembered n).networkIds = n.networkIds ++ networkIds := by
  induction networkIds generalizing n with
  | nil => exact (List.append_nil _).symm
  | cons networkId rest ih =>
    have hnew : networkId ∉ n.networkIds := fun hmem =>
      (List.nodup_append.mp hids).2.2 networkId hmem networkId List.mem_cons_self rfl
    have hnext : (rejoinRemembered n networkId).networkIds = n.networkIds ++ [networkId] := by
      rw [rejoinRemembered, networkIds_joinNetwork, if_neg hnew]
    rw [List.foldl_cons, ih _ (by rw [hnext, List.append_assoc]; exact hids), hnext, List.append_assoc]
    rfl

section
variable {identity : Identity} {planetData : Bytes} {initialPacketId : UInt64} {moonFiles : List (Bytes × Option Bytes)}
  {markers : List Bytes} {records : σ} {start d : Daemon σ} {t : List (Entry (Daemon σ) (DaemonEvent σ) DaemonOutput)}

/-- A start joins what is remembered, in the order of the numbers. -/
theorem startDaemon_networkIds
    (h : startDaemon pr identity planetData initialPacketId moonFiles markers records = .ok (.ok start)) :
    start.node.networkIds = rememberedNetworks markers := by
  obtain ⟨n, m, hn, hmoons, rfl⟩ := startDaemon_eq_ok h
  obtain ⟨-, -, -, hnetworks⟩ := run_loadMoonInto hmoons
  have hm : m.networkIds = [] := by
    rw [Node.networkIds, hnetworks]
    exact new_networkIds hn
  have hnodup : (rememberedNetworks markers).Nodup := (pairwise_sortedDistinct _).imp fun hlt => UInt64.ne_of_lt hlt
  rw [networkIds_rejoinRemembered _ _ (by rwa [hm, List.nil_append]), hm, List.nil_append]

/-- **A service that stops, wherever it stops, comes back to its networks**: a start with
the markers it left joins exactly the networks it had joined, if the markers it was
started with were canonical and its files could be written and removed. -/
theorem restart_rejoins {identity' : Identity} {planetData' : Bytes} {initialPacketId' : UInt64}
    {moonFiles' : List (Bytes × Option Bytes)} {records' : σ} {again : Daemon σ}
    (hstart : startDaemon pr identity planetData initialPacketId moonFiles markers records = .ok (.ok start))
    (hrun : DaemonRun pr engine start t d) (hcanonical : CanonicalMarkers markers) (hfiles : ∀ e ∈ t, FilesKept e)
    (hagain : startDaemon pr identity' planetData' initialPacketId' moonFiles' d.markers records' = .ok (.ok again)) :
    again.node.networkIds.Perm d.node.networkIds ∧ again.node.networkIds.Pairwise (· < ·) := by
  have hmarkers : start.markers = markers := by
    obtain ⟨n, m, -, -, rfl⟩ := startDaemon_eq_ok hstart
    rfl
  have hnetworks := startDaemon_networkIds hstart
  have hremembers : Remembers d := by
    refine hrun.invariant Remembers FilesKept (fun e he hkept hbefore => hbefore.step he hkept) ?_ hfiles
    refine ⟨hmarkers ▸ hcanonical, fun networkId => ?_⟩
    rw [hnetworks, hmarkers]
  have hnodup : d.node.networkIds.Nodup := by
    obtain ⟨parts, -, hinner⟩ := Run.unfold (daemon_madeOf pr engine) hrun
    refine run_networkIds hinner ?_
    rw [hnetworks]
    exact (pairwise_sortedDistinct _).imp fun hlt => UInt64.ne_of_lt hlt
  rw [startDaemon_networkIds hagain]
  have hsorted := pairwise_sortedDistinct (d.markers.filterMap markedNetwork)
  refine ⟨(List.perm_ext_iff_of_nodup (hsorted.imp fun hlt => UInt64.ne_of_lt hlt) hnodup).mpr fun networkId => ?_, hsorted⟩
  exact (hremembers.networks networkId).symm

end

/-- The file of a call could be written or removed. -/
def DaemonEvent.fileDone : DaemonEvent σ → Bool
  | .joinNetwork _ written => written
  | .leaveNetwork _ removed => removed
  | _ => true

/-- Number 1 joins a second network and leaves the first, and comes back to the second. -/
theorem restart_rejoins_second : ∃ t d again, DaemonRun Sample.primitives none sampleDaemon t d ∧ t.length = 2 ∧
    startDaemon Sample.primitives (Sample.identity 1) Sample.planet.serialize 1 [] d.markers () = .ok (.ok again) ∧
      again.node.networkIds = [2] ∧ again.node.networkIds.Perm d.node.networkIds := by
  have hcheck : okWith (runAll (daemonStep Sample.primitives none) sampleDaemon
      [.joinNetwork (hexBytes (be64 2)) true, .leaveNetwork (hexBytes (be64 Sample.networkId)) true]) (fun r =>
        r.1.all (fun e => e.event.fileDone) && r.1.length = 2 && r.2.node.networkIds = [2]) = true := by
    decide +kernel
  obtain ⟨⟨t, d⟩, hruns, hall⟩ := exists_of_okWith hcheck
  simp only [Bool.and_eq_true, decide_eq_true_eq, List.all_eq_true] at hall
  obtain ⟨⟨hwritten, hlen⟩, hids⟩ := hall
  have hcanonical : CanonicalMarkers [networkMarker Sample.networkId] :=
    @CanonicalMarkers.remember [] (fun _ h => nomatch h) Sample.networkId true
  have hfiles : ∀ e ∈ t, FilesKept e := by
    intro e he
    have hfile := hwritten e he
    refine ⟨fun id hevent => ?_, fun id networkId hevent _ => ?_⟩
    · rw [hevent] at hfile
      cases hfile
    · rw [hevent] at hfile
      cases hfile
  obtain ⟨hperm, -⟩ := restart_rejoins sampleDaemon_start (run_runAll hruns) hcanonical hfiles (sample_startDaemon d.markers)
  refine ⟨t, d, _, run_runAll hruns, hlen, sample_startDaemon d.markers, ?_, hperm⟩
  rw [hids] at hperm
  exact List.perm_singleton.mp hperm

end Service

end ManyTier
