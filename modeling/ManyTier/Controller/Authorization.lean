import ManyTier.Controller.Issued
import ManyTier.Controller.Requests

/-! Who a private network gives its configuration to.

In every run of requests and changes of authorisation, a private network serves only
members that are authorised at that moment, refuses the others with at most a record of
them left behind, and lists only members that are authorised (`private_network`). -/
namespace ManyTier.Controller

/-- A member that is on record as authorised. -/
def Store.Authorized (st : Store) (networkId : UInt64) (node : ByteVec 5) : Prop :=
  ∃ m, st.member networkId node = some m ∧ m.authorized = true

/-- A member that asks is authorised if its record is; a new one is not. -/
theorem Store.authorized_requester {st : Store} {networkId : UInt64} {node : ByteVec 5} {now : UInt64} :
    (st.requester networkId node now).authorized = true ↔ st.Authorized networkId node := by
  rw [requester, Authorized]
  cases st.member networkId node <;> simp [newMember]

section
variable {σ : Type} {c : Engine σ} {pr : Primitives} {st st' : Store} {command : Command}
  {reply : Except Failure Reply}

/-- No command changes a network. -/
theorem Effect.network (h : Effect c pr st command reply st') : st'.network = st.network := by
  cases h <;> rfl

/-- Among the members of a network after one was served, those that are authorised were,
or are the one that was served. -/
theorem authorized_of_listed {networkId : UInt64} {node : ByteVec 5} {m : MemberRecord} {members : List MemberRecord}
    (hlists : (st.setMember m).Lists networkId members) (hnode : m.nodeId = node)
    (hserved : st.Authorized networkId node) :
    ∀ m' ∈ members, m'.eligible = true → st.Authorized networkId m'.nodeId := by
  intro m' hm' heligible
  by_cases hsame : networkId = m.networkId ∧ m'.nodeId = m.nodeId
  · rw [hsame.2, hnode]
    exact hserved
  · have hstored := (hlists.mem m').mp hm'
    rw [st.member_setMember_of_ne m hsame] at hstored
    refine ⟨m', hstored, ?_⟩
    simp [MemberRecord.eligible] at heligible
    exact heligible.1

/-- What was issued is a configuration with the directory of the members. -/
theorem issued_eq_ok {networkId : UInt64} {node : ByteVec 5} {network : NetworkRecord} {m : MemberRecord}
    {now : UInt64} {routes : List ManagedRoute} {members : List MemberRecord} {response : ConfigResponse}
    (h : c.issued pr networkId node network m now routes members = .ok response) :
    ∃ base, buildNetworkConfig network m routes
        (buildSignedCom pr c.signingKey c.address.bytes networkId (ztAddressToU64 node) now) now
        (c.capabilitiesRaw pr networkId node network m now) (c.tagsRaw pr networkId node m now) = .ok base ∧
      appendPeerDirectory pr c.signingKey c.address.bytes networkId now base members =
        .ok response.config.dictData := by
  obtain ⟨base, hbase, hrest⟩ := bind_eq_ok h
  obtain ⟨dictData, hdata, heq⟩ := bind_eq_ok hrest
  obtain rfl := Except.ok.inj heq
  refine ⟨base, ?_, hdata⟩
  unfold Except.mapError at hbase
  split at hbase
  · cases hbase
  · rename_i base' hbase'
    obtain rfl := Except.ok.inj hbase
    exact hbase'

theorem issued_of_reply {networkId : UInt64} {node : ByteVec 5} {network : NetworkRecord} {m : MemberRecord}
    {now : UInt64} {routes : List ManagedRoute} {members : List MemberRecord} {response : ConfigResponse}
    (h : (c.issued pr networkId node network m now routes members).map Reply.config = .ok (.config response)) :
    c.issued pr networkId node network m now routes members = .ok response := by
  cases hissued : c.issued pr networkId node network m now routes members with
  | error e =>
    rw [hissued] at h
    cases h
  | ok response' =>
    rw [hissued] at h
    rw [Reply.config.inj (Except.ok.inj h)]

/-- What a private network does with a request: it serves who is authorised, it refuses the
others and leaves at most a record of them, and it writes entries for members that are
authorised only, so that no node reads others. -/
structure Guards (c : Engine σ) (pr : Primitives) (st : Store) (networkId : UInt64) (node : ByteVec 5) (now : UInt64)
    (reply : Except Failure Reply) (st' : Store) : Prop where
  served : ∀ response, reply = .ok (.config response) → st.Authorized networkId node
  refused : ¬ st.Authorized networkId node → reply = .error (.error .memberNotAuthorized) ∧
    (st' = st ∨ st.member networkId node = none ∧ ∃ m : MemberRecord, m.networkId = networkId ∧ m.nodeId = node ∧
      m.authorized = false ∧ m.ipAssignments = [] ∧ st' = st.setMember m)
  written : ∀ response, reply = .ok (.config response) → ∃ base members,
    appendPeerDirectory pr c.signingKey c.address.bytes networkId now base members = .ok response.config.dictData ∧
    ∀ m ∈ members, m.eligible = true → st.Authorized networkId m.nodeId
  listed : ∀ response, reply = .ok (.config response) → ∀ ourAddress directory,
    peerDirectoryFromDictData response.config.dictData networkId ourAddress = some directory →
    ∀ l ∈ directory.members, st.Authorized networkId l.ztAddress

/-- A request to a private network is guarded. -/
theorem Effect.guards {networkId : UInt64} {node : ByteVec 5} {now : UInt64} {network : NetworkRecord}
    (h : Effect c pr st (.configRequest networkId node now) reply st') (hkeyed : st.Keyed)
    (hnetwork : st.network networkId = some network) (hprivate : network.isPrivate = true) :
    Guards c pr st networkId node now reply st' := by
  cases h with
  | unknown hnone =>
    rw [hnone] at hnetwork
    cases hnetwork
  | noMember hsets => cases hsets
  | authorized hsets => cases hsets
  | refused _ _ hauth =>
    have hnot : ¬ st.Authorized networkId node := fun hauthorized => by
      rw [Store.authorized_requester.mpr hauthorized] at hauth
      cases hauth
    refine ⟨fun response h => (by cases h), fun _ => ⟨rfl, ?_⟩, fun response h => (by cases h),
      fun response h => (by cases h)⟩
    cases hmember : st.member networkId node with
    | some m =>
      have hrequester : st.requester networkId node now = m := by rw [Store.requester, hmember]; rfl
      obtain ⟨hid, hnode⟩ := hkeyed networkId node m hmember
      rw [hrequester]
      exact .inl (st.setMember_self (by rw [hid, hnode, hmember]))
    | none =>
      have hrequester : st.requester networkId node now = newMember networkId node now := by
        rw [Store.requester, hmember]
        rfl
      rw [hrequester]
      exact .inr ⟨rfl, _, rfl, rfl, rfl, rfl, rfl⟩
  | @served _ _ _ network' m members hserves hlists =>
    obtain rfl := Option.some.inj (hserves.found.symm.trans hnetwork)
    have hauthorized := Store.authorized_requester.mp (hserves.admitted hprivate)
    obtain ⟨ips, hm, -⟩ := hserves.record
    have hnode : m.nodeId = node := by
      rw [hm]
      exact (hkeyed.requester networkId node now).2
    have hlisted := authorized_of_listed hlists hnode hauthorized
    refine ⟨fun _ _ => hauthorized, fun hnot => absurd hauthorized hnot, ?_, ?_⟩
    · intro response hreply
      obtain ⟨base, -, hdata⟩ := issued_eq_ok (issued_of_reply hreply)
      exact ⟨base, members, hdata, hlisted⟩
    intro response hreply ourAddress directory hdecode l hl
    obtain ⟨base, hbase, hdata⟩ := issued_eq_ok (issued_of_reply hreply)
    obtain ⟨entries, -, hentries, rfl, -⟩ := issued_config pr c.signingKey c.address hbase hdata
    obtain ⟨m', hm', heligible, haddress⟩ := eligible_of_peerDirectory pr c.signingKey c.address networkId now
      ourAddress (plainKeys_config hentries) (no_directory_config hentries) hdata hdecode l hl
    rw [haddress]
    exact hlisted m' hm' heligible

end

/-- In every run over a storage that returns what was last written, the requests to a
private network are guarded. -/
theorem private_network {σ : Type} (c : Engine σ) (pr : Primitives) (view : σ → Store)
    (hf : Faithful c.storage view) {s s' : σ} {t : List (Entry σ Command (Except Failure Reply))}
    (hrun : Run (c.step pr) s t s') {networkId : UInt64} {network : NetworkRecord}
    (hnetwork : (view s).network networkId = some network) (hprivate : network.isPrivate = true) :
    ∀ n ∈ t, ∀ node now, n.event = .configRequest networkId node now →
      Guards c pr (view n.before) networkId node now n.output (view n.after) := by
  refine Run.forall_entries (fun s => (view s).network networkId = some network) (fun _ => True) _ ?_ hrun hnetwork
    fun _ _ => trivial
  intro n hstep _ hfound
  have heffect := step_effect hf pr hstep
  refine ⟨by rw [heffect.network, hfound], ?_⟩
  intro node now hevent
  rw [hevent] at heffect
  exact heffect.guards (hf.keyed n.before) hfound hprivate

namespace SampleMembers

/-- A controller that keeps its records in memory. -/
def engine : Engine InMemoryStorage := ⟨controller, Sample.key 1, InMemoryStorage.storage⟩

/-- A private network without members. -/
def emptyNetwork : InMemoryStorage := { InMemoryStorage.new with networks := [network] }

end SampleMembers

open SampleMembers in
/-- A node that nobody authorised is refused. -/
theorem private_network_refuses :
    ((engine.execute Sample.primitives (.configRequest networkId (address 2) 1000)).run emptyNetwork).1 =
      .error (.error .memberNotAuthorized) := by
  have hguards := private_network engine Sample.primitives InMemoryStorage.view InMemoryStorage.memory_faithful
    (Run.one (engine.step_eq Sample.primitives emptyNetwork (.configRequest networkId (address 2) 1000)))
    (show emptyNetwork.view.network networkId = some network from rfl) rfl _ (List.mem_singleton_self _)
    (address 2) 1000 rfl
  have hnot : ¬ emptyNetwork.view.Authorized networkId (address 2) := by
    rintro ⟨m, hm, -⟩
    cases hm
  exact (hguards.refused hnot).1

end ManyTier.Controller
