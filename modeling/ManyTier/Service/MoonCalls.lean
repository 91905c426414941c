import ManyTier.Node.PeerTable
import ManyTier.Service.DaemonRuns

/-! The moons of a service.

An unload takes away the first moon of a number, so it is complete only where no second
one has that number. The API loads a moon only if none of its number is loaded, hence a
service whose moon files have different numbers never holds two of one
(`MoonsApart.step`), and a moon that is left through the API is gone with its roots
(`deorbit_complete`). -/
namespace ManyTier

namespace Service
variable {σ : Type} {pr : Primitives} {engine : Option (Controller.Engine σ)} {us : Identity} {planet : World}

/-! ### Moons apart -/

/-- The numbers of the moons that are loaded. -/
def moonIds (n : Node) : List UInt64 := n.topology.moons.map World.id

/-- The node is sound, and no two of its moons have one number. -/
structure MoonsApart (us : Identity) (planet : World) (n : Node) : Prop where
  sound : n.Sound us planet
  apart : (moonIds n).Nodup

/-- Only the API and the start load and unload moons. -/
theorem run_sameMoons {n n' : Node} {t : List (Entry Node Event Output)} (hrun : NodeRun pr n t n')
    (hkind : ∀ x ∈ t, kind x.event ≠ .call) (hn : MoonsApart us planet n) : MoonsApart us planet n' := by
  refine hrun.invariant (MoonsApart us planet) (fun x => kind x.event ≠ .call) (fun x hx hkind hb => ?_) hn hkind
  obtain ⟨hsound, hmoons⟩ := step_sound hx hb.sound
  rcases hmoons with hsame | ⟨moon, hevent, -⟩ | ⟨moonId, hevent, -⟩
  · exact ⟨hsound, by rw [moonIds, hsame]; exact hb.apart⟩
  · rw [hevent] at hkind
    exact absurd rfl hkind
  · rw [hevent] at hkind
    exact absurd rfl hkind

/-- Steps that leave the topology alone. -/
theorem MoonsApart.of_topology {n n' : Node} (h : MoonsApart us planet n) (hid : n'.identity = n.identity)
    (htopology : n'.topology = n.topology) : MoonsApart us planet n' := by
  refine ⟨h.sound.keeps (.of_topology htopology) (h.sound.peers.congr hid (by rw [htopology]) (by rw [htopology])), ?_⟩
  rw [moonIds, htopology]
  exact h.apart

/-- A moon that is accepted joins the others. -/
theorem MoonsApart.load {n : Node} {moon : World} {topology : Topology} (h : MoonsApart us planet n)
    (hloaded : n.topology.loadMoon pr moon = .ok (.ok topology)) :
    ({ n with topology } : Node).Sound us planet ∧ moonIds { n with topology } = moonIds n ++ [moon.id] := by
  have hstep : step pr n (.loadMoon moon) = .ok ({ n with topology }, ⟨[], []⟩) := by
    simp only [step, hloaded]
    rfl
  obtain ⟨hsound, -⟩ := step_sound (e := ⟨n, .loadMoon moon, ⟨[], []⟩, { n with topology }⟩) hstep h.sound
  rw [Topology.loadMoon_eq] at hloaded
  obtain ⟨⟨taken, result⟩, htake, hresult⟩ := bind_eq_ok hloaded
  obtain ⟨-, -, hmoons⟩ := h.sound.roots.takeMoon htake
  cases result with
  | error e => cases hresult
  | ok _ =>
    cases hresult
    exact ⟨hsound, by simp [moonIds, hmoons rfl]⟩

theorem not_mem_moonIds {n : Node} {moonId : UInt64} (h : n.topology.moons.find? (·.id = moonId) = none) :
    moonId ∉ moonIds n := by
  simpa [moonIds] using h

/-- A call to leave a moon unloads it, or nothing is done. -/
theorem MoonsApart.deorbit (pr : Primitives) {n : Node} (hn : MoonsApart us planet n) (id : Bytes) :
    MoonsApart us planet (Api.deorbitMoon n id).1 := by
  unfold Api.deorbitMoon
  split
  · exact hn
  · rename_i moonId _
    have hstep : Service.step pr n (.unloadMoon moonId) =
        .ok ({ n with topology := (n.topology.unloadMoon moonId).1 }, ⟨[], []⟩) := rfl
    obtain ⟨hsound, -⟩ := step_sound (e := ⟨n, .unloadMoon moonId, ⟨[], []⟩, _⟩) hstep hn.sound
    refine ⟨hsound, ?_⟩
    rw [moonIds, (hn.sound.roots.unloadMoon moonId).2]
    exact hn.apart.sublist (List.eraseP_sublist.map _)

theorem MoonsApart.step {e : Entry (Daemon σ) (DaemonEvent σ) DaemonOutput} (hd : MoonsApart us planet e.before.node)
    (h : daemonStep pr engine e.before e.event = .ok (e.after, e.output)) : MoonsApart us planet e.after.node := by
  obtain ⟨d, event, o, d'⟩ := e
  have hturn : event.isCall = false → MoonsApart us planet d'.node := by
    intro hcall
    obtain ⟨part, hinner, hpart⟩ := daemon_madeOf pr engine ⟨d, event, o, d'⟩ h
    exact run_sameMoons hinner (hpart.called hcall) hd
  cases daemonStep_turn (show daemonStep pr engine d event = .ok (d', o) from h) with
  | @joinNetwork id written called hcalled =>
    obtain ⟨hid, htopology⟩ : called.1.1.identity = d.node.identity ∧ called.1.1.topology = d.node.topology := by
      rw [← hcalled]
      unfold Api.joinNetwork
      split
      · exact ⟨rfl, rfl⟩
      · split
        · exact ⟨rfl, rfl⟩
        · unfold Node.joinNetwork
          split <;> exact ⟨rfl, rfl⟩
    exact hd.of_topology hid htopology
  | @leaveNetwork id removed called hcalled =>
    obtain ⟨hid, htopology⟩ : called.1.1.identity = d.node.identity ∧ called.1.1.topology = d.node.topology := by
      rw [← hcalled]
      unfold Api.leaveNetwork
      split <;> exact ⟨rfl, rfl⟩
    exact hd.of_topology hid htopology
  | orbitMoon hcalled =>
    rcases Api.orbitMoon_cases hcalled with rfl | ⟨moon, topology, hnone, hloaded, rfl⟩
    · exact hd
    · obtain ⟨hsound, hids⟩ := hd.load hloaded
      refine ⟨hsound, ?_⟩
      rw [hids, List.nodup_append]
      refine ⟨hd.apart, List.nodup_singleton _, fun x hx y hy hxy => ?_⟩
      obtain rfl := List.mem_singleton.mp hy
      exact not_mem_moonIds hnone (hxy ▸ hx)
  | @deorbitMoon id called hcalled =>
    subst hcalled
    exact hd.deorbit pr id
  | _ => exact hturn rfl

/-! ### The start -/

/-- Of the moons of the files those are loaded that are accepted. -/
theorem MoonsApart.loadMoons {moons : List World} {n n' : Node} (h : moons.foldlM (loadMoonInto pr) n = .ok n')
    (hn : MoonsApart us planet n) (hids : (moonIds n ++ moons.map World.id).Nodup) : MoonsApart us planet n' := by
  induction moons generalizing n with
  | nil =>
    cases h
    exact hn
  | cons moon rest ih =>
    rw [List.foldlM_cons] at h
    obtain ⟨m, hm, hrest⟩ := bind_eq_ok h
    obtain ⟨loaded, hloaded, heq⟩ := bind_eq_ok hm
    rw [List.map_cons] at hids
    cases loaded with
    | error e =>
      cases heq
      exact ih hrest hn (hids.sublist ((List.Sublist.refl _).append (List.sublist_cons_self ..)))
    | ok topology =>
      cases heq
      obtain ⟨hsound, hids'⟩ := hn.load hloaded
      have hnext : (moonIds { n with topology } ++ rest.map World.id).Nodup := by
        rw [hids', List.append_assoc]
        exact hids
      exact ih hrest ⟨hsound, (List.nodup_append.mp hnext).1⟩ hnext

theorem MoonsApart.rejoin {n : Node} (networkIds : List UInt64) (h : MoonsApart us planet n) :
    MoonsApart us planet (networkIds.foldl rejoinRemembered n) := by
  induction networkIds generalizing n with
  | nil => exact h
  | cons networkId rest ih =>
    refine ih (h.of_topology ?_ ?_) <;> · unfold rejoinRemembered Node.joinNetwork; split <;> rfl

/-- **Through the API a moon is left for good**: in every run of a service whose moon files
have different numbers, no two moons of one number are loaded, a call to leave one says
whether it was there, and after it the moon is gone and its roots with it. -/
theorem deorbit_complete (pr : Primitives) (engine : Option (Controller.Engine σ)) {identity : Identity} {planetData : Bytes}
    {initialPacketId : UInt64} {moonFiles : List (Bytes × Option Bytes)} {markers : List Bytes} {records : σ}
    {start d : Daemon σ} {t : List (Entry (Daemon σ) (DaemonEvent σ) DaemonOutput)}
    (hstart : startDaemon pr identity planetData initialPacketId moonFiles markers records = .ok (.ok start))
    (hfiles : ((loadMoons moonFiles).map World.id).Nodup) (hrun : DaemonRun pr engine start t d) :
    ∃ planet, World.deserialize planetData = .ok planet ∧ ∀ e ∈ t, MoonsApart identity planet e.after.node ∧
      ∀ id moonId, e.event = .deorbitMoon id → parseHexU64 id = some moonId →
        (e.output.reply = some (.status .ok) ↔ moonId ∈ moonIds e.before.node) ∧
          Topology.MoonGone planet moonId e.after.node.topology := by
  obtain ⟨n, m, hnew, hmoons, rfl⟩ := startDaemon_eq_ok hstart
  obtain ⟨planet, hplanet, hsound, hnone⟩ := new_sound hnew
  have hids : moonIds n = [] := by
    rw [moonIds, hnone]
    rfl
  have hfirst : MoonsApart identity planet n := ⟨hsound, hids ▸ List.nodup_nil⟩
  have hloaded : MoonsApart identity planet m := hfirst.loadMoons hmoons (by rwa [hids, List.nil_append])
  refine ⟨planet, hplanet, hrun.forall_entries (fun d => MoonsApart identity planet d.node) (fun _ => True) _ ?_
    (hloaded.rejoin _) fun _ _ => trivial⟩
  intro e he _ hbefore
  have hafter := hbefore.step he
  refine ⟨hafter, hafter, fun id moonId hevent hparsed => ?_⟩
  rw [hevent] at he
  obtain ⟨hnode, hreply⟩ := Prod.mk.inj (Except.ok.inj he)
  rw [← hnode, ← hreply]
  dsimp only
  rw [Api.deorbitMoon, hparsed]
  dsimp only
  obtain ⟨hroots, hleft⟩ := hbefore.sound.roots.unloadMoon moonId
  refine ⟨?_, (hroots.moonGone_iff moonId).mpr ?_⟩
  · rcases e.before.node.topology.unloadMoon_cases moonId with ⟨hmissing, hunload⟩ | ⟨moon, hfound, hunload⟩
    · rw [hunload]
      exact iff_of_false (by simp) (not_mem_moonIds hmissing)
    · rw [hunload]
      refine iff_of_true (by simp) ?_
      exact List.mem_map.mpr ⟨moon, List.mem_of_find?_eq_some hfound, by simpa using List.find?_some hfound⟩
  · rw [hleft, Topology.forall_mem_eraseP_iff]
    have hcount : e.before.node.topology.moons.countP (·.id = moonId) = (moonIds e.before.node).count moonId := by
      rw [moonIds, List.count, List.countP_map]
      rfl
    rw [hcount]
    exact List.nodup_iff_count_le_one.mp hbefore.apart moonId

/-- A moon is loaded through the API, asked for again, and left. -/
theorem deorbit_complete_once : ∃ (t : List (Entry (Daemon Unit) (DaemonEvent Unit) DaemonOutput)) (d : Daemon Unit),
    DaemonRun Sample.primitives none sampleDaemon t d ∧ t.length = 3 ∧ ∃ e ∈ t, ∃ planet,
      e.event = .deorbitMoon (hexBytes (be64 7)) ∧ e.output.reply = some (.status .ok) ∧
        Topology.MoonGone planet 7 e.after.node.topology := by
  have hcheck : okWith (runAll (daemonStep Sample.primitives none) sampleDaemon
      [.orbitMoon (hexBytes (be64 7)) (some Topology.sampleMoon.serialize),
        .orbitMoon (hexBytes (be64 7)) (some Topology.sampleMoon.serialize)]) (fun r =>
          r.1.length = 2 && moonIds r.2.node = [7]) = true := by
    decide +kernel
  obtain ⟨⟨t, d⟩, hruns, hall⟩ := exists_of_okWith hcheck
  rw [Bool.and_eq_true, decide_eq_true_eq, decide_eq_true_eq] at hall
  obtain ⟨hlen, hids⟩ := hall
  obtain ⟨d', o, hleave⟩ : ∃ d' o, daemonStep Sample.primitives none d (.deorbitMoon (hexBytes (be64 7))) = .ok (d', o) :=
    ⟨_, _, rfl⟩
  have hrun := (run_runAll hruns).snoc hleave
  have hlast : (⟨d, .deorbitMoon (hexBytes (be64 7)), o, d'⟩ : Entry (Daemon Unit) (DaemonEvent Unit) DaemonOutput) ∈
      t ++ [⟨d, .deorbitMoon (hexBytes (be64 7)), o, d'⟩] := List.mem_append_right t List.mem_cons_self
  obtain ⟨planet, -, hmoons⟩ := deorbit_complete Sample.primitives none sampleDaemon_start List.nodup_nil hrun
  obtain ⟨-, hcalls⟩ := hmoons _ hlast
  obtain ⟨hreply, hgone⟩ := hcalls _ 7 rfl (parseHexU64_be64 7)
  exact ⟨_, _, hrun, by simpa using hlen, _, hlast, planet, rfl, hreply.mpr (by rw [hids]; exact List.mem_cons_self), hgone⟩

end Service

end ManyTier
