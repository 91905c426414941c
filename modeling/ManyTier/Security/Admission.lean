import ManyTier.Controller.ApiRuns
import ManyTier.Security.Granted

/-! How a member of a private network came to be told anything.

The records of a service change when its controller answers the requests of a turn, and
when a call of its API changes them (`records_turn`). Requests authorise nobody on a
private network. So a member that is on record as authorised has been from the start, or
some turn admitted it and it has been since (`authorized_since`); and a call after which a
member is authorised that was not is an update of this member that says so
(`called_of_authorized`). Whatever configuration a member takes up, that is how it came to
it (`member_admitted`). -/
namespace ManyTier

namespace Service
variable {pr : Primitives}

/-! ### The records of a service -/

section
variable {σ : Type} {engine : Option (Controller.Engine σ)}

/-- What becomes of the records in a turn. -/
inductive RecordsTurn (pr : Primitives) (engine : Option (Controller.Engine σ))
    (e : Entry (Daemon σ) (DaemonEvent σ) DaemonOutput) : Prop where
  | kept (h : e.after.records = e.before.records)
  | changed (h : e.event = .changeRecords e.after.records)
  | served (data : Bytes) (fromAddr : SocketAddr) (now : UInt64) (answers : List (Option Bytes)) (c : Controller.Engine σ)
    (hevent : e.event = .udpReceived data fromAddr now answers) (hengine : engine = some c)
    (h : Served pr c now e.before.records e.after.records)

theorem records_turn {d d' : Daemon σ} {event : DaemonEvent σ} {o : DaemonOutput}
    (h : daemonStep pr engine d event = .ok (d', o)) : RecordsTurn pr engine ⟨d, event, o, d'⟩ := by
  cases daemonStep_turn h with
  | @udpReceived data fromAddr now answers received n records drained p hreceived hanswered =>
    cases engine with
    | none =>
      cases hanswered
      exact .kept rfl
    | some c => exact .served data fromAddr now answers c rfl rfl (run_controllerActions hanswered).1
  | changeRecords records => exact .changed rfl
  | _ => exact .kept rfl

/-! ### Admission -/

/-- In a turn a member may come to be authorised: the records are changed so that it is,
or its network is public and a packet is received. -/
inductive AdmittedIn (view : σ → Controller.Store) (networkId : UInt64) (node : ByteVec 5)
    (e : Entry (Daemon σ) (DaemonEvent σ) DaemonOutput) : Prop where
  | changed (h : e.event = .changeRecords e.after.records) (hbefore : ¬ (view e.before.records).Authorized networkId node)
  | served (data : Bytes) (fromAddr : SocketAddr) (now : UInt64) (answers : List (Option Bytes))
    (hevent : e.event = .udpReceived data fromAddr now answers) (network : Controller.NetworkRecord)
    (hnetwork : (view e.before.records).network networkId = some network) (hpublic : network.isPrivate = false)

/-- Over the turns a member was authorised from the start on, or one of them admitted it
and it has been authorised since. -/
def AuthorizedSince (view : σ → Controller.Store) (networkId : UInt64) (node : ByteVec 5) (records : σ)
    (t : List (Entry (Daemon σ) (DaemonEvent σ) DaemonOutput)) : Prop :=
  ((view records).Authorized networkId node ∧ ∀ x ∈ t, (view x.after.records).Authorized networkId node) ∨
    ∃ earlier x later, t = earlier ++ x :: later ∧ AdmittedIn view networkId node x ∧
      ∀ y ∈ x :: later, (view y.after.records).Authorized networkId node

section
variable {c : Controller.Engine σ} {view : σ → Controller.Store} {networkId : UInt64} {node : ByteVec 5}

/-- No other turn admits a member. -/
theorem RecordsTurn.admitted {e : Entry (Daemon σ) (DaemonEvent σ) DaemonOutput} (h : RecordsTurn pr (some c) e)
    (hf : Controller.Faithful c.storage view) (hbefore : ¬ (view e.before.records).Authorized networkId node)
    (hafter : (view e.after.records).Authorized networkId node) : AdmittedIn view networkId node e := by
  cases h with
  | kept h =>
    rw [h] at hafter
    exact absurd hafter hbefore
  | changed h => exact .changed h hbefore
  | served data fromAddr now answers c' hevent hengine h =>
    obtain rfl := Option.some.inj hengine
    by_contra hnot
    refine hbefore ((h.authorized_before hf).2 (fun network hnetwork => ?_) node hafter)
    by_contra hpublic
    exact hnot (.served data fromAddr now answers hevent network hnetwork (Bool.eq_false_iff.mpr hpublic))

theorem authorized_since (hf : Controller.Faithful c.storage view) {start d : Daemon σ}
    {t : List (Entry (Daemon σ) (DaemonEvent σ) DaemonOutput)} (hrun : DaemonRun pr (some c) start t d)
    (h : (view d.records).Authorized networkId node) : AuthorizedSince view networkId node start.records t := by
  rcases hrun.since (fun d => (view d.records).Authorized networkId node) h with
      hall | ⟨earlier, x, later, rfl, hbefore, hafter, hlater⟩
  · exact .inl hall
  · obtain ⟨-, hstep⟩ := hrun.cut
    exact .inr ⟨earlier, x, later, rfl, (records_turn hstep).admitted hf hbefore hafter,
      List.forall_mem_cons.mpr ⟨hafter, hlater⟩⟩

end

/-- **What a private network's member takes up it was admitted to**: a configuration that
it takes up out of a packet it opened is a chunk of one the sender's controller issued to
it in an earlier turn, and in all turns of the sender before that one the member was
authorised, or one of them admitted it and it was authorised from there on. -/
theorem member_admitted {ι : Type} [DecidableEq ι] {engines : ι → Option (Controller.Engine σ)} {starts ends : ι → Daemon σ}
    {earlier later : List (Entry (ι → Daemon σ) (ι × DaemonEvent σ) DaemonOutput)}
    {e : Entry (ι → Daemon σ) (ι × DaemonEvent σ) DaemonOutput} (hlz4 : Lz4RoundTrips pr)
    (hrun : ServicesRun pr engines starts (earlier ++ e :: later) ends) (hfresh : ∀ i, Fresh (starts i)) {call : Call}
    (hcall : call ∈ e.output.calls) (hunforged : Unforged pr (fun i => (e.before i).node) call) {d : Dispatch}
    (hd : call.dispatched pr = some d) (hopened : (call.before.dearmor pr call.data).isSome) {nc : NetworkConfigPayload}
    (htaken : Node.configTaken d = some nc) :
    ∃ i c, (starts i).node.address = d.source ∧ engines i = some c ∧ ∃ before turn after, earlier = before ++ turn :: after ∧
      turn.event.1 = i ∧
      (∃ response, IssuedIn pr c turn.part (starts e.event.1).node.address nc.networkId response ∧
        ∃ configUpdateId ours, (starts i).node.identity.secret = some ours ∧
          ∃ k < chunkCount response.config.dictData networkConfigChunkBytes,
            nc = chunkConfig pr ours.signing nc.networkId configUpdateId response.config.dictData k) ∧
      ∀ view, Controller.Faithful c.storage view → ∀ network, (view (turn.before i).records).network nc.networkId = some network →
        network.isPrivate = true →
          AuthorizedSince view nc.networkId (starts e.event.1).node.address (starts i).records (stepsOf i before) := by
  obtain ⟨i, c, hi, hc, turn, hturn, rfl, response, hissued, hchunk⟩ :=
    chunk_of_dispatched hlz4 hrun hfresh hcall hunforged hd hopened htaken
  obtain ⟨before, after, rfl⟩ := List.append_of_mem hturn
  refine ⟨_, c, hi, hc, before, turn, after, rfl, rfl, ⟨response, hissued, hchunk⟩, fun view hf network hnetwork hprivate => ?_⟩
  -- The run of the sender up to the turn that issued it.
  obtain ⟨hbefore, -⟩ := hrun.cut.1.cut
  have hsender := hbefore.part turn.event.1
  rw [hc] at hsender
  exact authorized_since hf hsender (hissued.authorized hf hnetwork hprivate)

end

/-! ### Through the API -/

section
open Controller

/-- Where the records change they do by a call of the API. -/
def ChangedByApi (c : Engine SqliteStorage) (e : Entry (Daemon SqliteStorage) (DaemonEvent SqliteStorage) DaemonOutput) : Prop :=
  ∀ records, e.event = .changeRecords records → ∃ call, records = (Controller.Api.execute c call).after e.before.records

/-- **A member that was not authorised at the start is because a call of the API said so**,
or because a packet was received while its network was public, and has been since. -/
theorem authorized_by_call {c : Engine SqliteStorage} {text : StorageError → Bytes}
    (hstorage : c.storage = SqliteStorage.storage text)
    {start d : Daemon SqliteStorage} {t : List (Entry (Daemon SqliteStorage) (DaemonEvent SqliteStorage) DaemonOutput)}
    (hrun : DaemonRun pr (some c) start t d) (hapi : ∀ x ∈ t, ChangedByApi c x) {networkId : UInt64} {node : ByteVec 5}
    (hstart : ¬ start.records.view.Authorized networkId node) (h : d.records.view.Authorized networkId node) :
    ∃ earlier x later, t = earlier ++ x :: later ∧ (∀ y ∈ x :: later, y.after.records.view.Authorized networkId node) ∧
      ((∃ nwid nodeIdHex body now,
          x.event = .changeRecords ((Controller.Api.updateMember nwid nodeIdHex body now).after x.before.records) ∧
          Controller.Api.namedMember nwid nodeIdHex = some (networkId, node) ∧ body.authorized = some true) ∨
        ∃ data fromAddr now answers network, x.event = .udpReceived data fromAddr now answers ∧
          x.before.records.getNetwork networkId = some network ∧ network.isPrivate = false) := by
  have hf : Faithful c.storage SqliteStorage.view := hstorage ▸ SqliteStorage.sqlite_faithful text
  rcases authorized_since hf hrun h with ⟨hnow, -⟩ | ⟨earlier, x, later, rfl, hadmitted, hlater⟩
  · exact absurd hnow hstart
  · refine ⟨earlier, x, later, rfl, hlater, ?_⟩
    cases hadmitted with
    | served data fromAddr now answers hevent network hnetwork hpublic =>
      exact .inr ⟨data, fromAddr, now, answers, network, hevent, hnetwork, hpublic⟩
    | changed hevent hbefore =>
      obtain ⟨call, hcall⟩ := hapi x (List.mem_append_right _ List.mem_cons_self) _ hevent
      have hafter := hlater x List.mem_cons_self
      rw [hcall] at hafter hevent
      obtain ⟨nwid, nodeIdHex, body, now, rfl, hnamed, hauthorized⟩ := called_of_authorized hstorage hbefore hafter
      exact .inl ⟨nwid, nodeIdHex, body, now, hevent, hnamed, hauthorized⟩

end

/-! ### Number 2 -/

section
open Controller.SampleMembers

/-- Number 2 is a member from the start on, and is told so. -/
theorem member_admitted_two : ∃ (e : Entry (Bool → Daemon Controller.InMemoryStorage)
    (Bool × DaemonEvent Controller.InMemoryStorage) DaemonOutput) (call : Call) (d : Dispatch) (nc : NetworkConfigPayload),
    e.event.1 = false ∧ call ∈ e.output.calls ∧ call.dispatched Sample.primitives = some d ∧ Node.configTaken d = some nc ∧
      AuthorizedSince Controller.InMemoryStorage.view nc.networkId (address 2) (sampleNetwork true).records [] := by
  obtain ⟨x, record, m, hid, hcount, -, -, hparts⟩ := sampleNetwork_run
  obtain ⟨e', e, ends, call, d, packetId, hrun, hfirst, hturn, hcall, hunforged, hd, hopened, hhandled, hverb⟩ :=
    hparts (.chunk 0) (x.mem_parts.mpr hcount)
  have hnc : Node.configTaken d = some (x.chunk Sample.primitives 0) :=
    configTaken_chunk lz4RoundTrips_sample (a := ⟨sampleSecret, x.packet Sample.primitives packetId (.chunk 0)⟩) rfl
      hhandled hverb
  obtain ⟨i, c, -, hc, before, turn, after, hsplit, rfl, -, hsince⟩ := member_admitted lz4RoundTrips_sample hrun
    (fun i => by cases i <;> exact ⟨rfl, rfl⟩) hcall hunforged hd hopened hnc
  have hnames : (x.chunk Sample.primitives 0).networkId = networkId := hid
  rcases before with - | ⟨first, before⟩
  · obtain ⟨rfl, -⟩ := List.cons.inj hsplit
    have hsender : e'.event.1 = true := by
      cases hi : e'.event.1 with
      | true => rfl
      | false =>
        rw [hi] at hc
        cases hc
    rw [hsender] at hc
    obtain rfl := Option.some.inj (show some engine = some c from hc)
    have hmember := hsince Controller.InMemoryStorage.view Controller.InMemoryStorage.memory_faithful network
    rw [hfirst, hsender, hnames] at hmember
    rw [hturn] at hmember
    refine ⟨e, call, d, _, hturn, hcall, hd, hnc, ?_⟩
    rw [hnames]
    exact hmember rfl rfl
  · simp at hsplit

/-- A service whose controller keeps its records in SQLite. -/
def sampleService : Daemon Controller.SqliteStorage where
  node := Sample.start
  records := emptyRecords
  tuns := .empty
  pendingFrames := []
  lastPendingWhoisMs := 0
  markers := []

/-- Number 2 is authorised because a call said so. -/
theorem authorized_by_call_two : ∃ nwid nodeIdHex body now,
    recordsWithTwo = (Controller.Api.updateMember nwid nodeIdHex body now).after emptyRecords ∧
      Controller.Api.namedMember nwid nodeIdHex = some (networkId, address 2) ∧ body.authorized = some true := by
  have hrun : DaemonRun Sample.primitives (some recordsEngine) sampleService _ { sampleService with records := recordsWithTwo } :=
    Run.one (show daemonStep Sample.primitives (some recordsEngine) sampleService (.changeRecords recordsWithTwo)
      = .ok (_, .none) from rfl)
  have hnobody : ¬ sampleService.records.view.Authorized networkId (address 2) := by
    rintro ⟨m, hm, -⟩
    cases hm
  have hnamed : Controller.Api.namedMember (Controller.formatNetworkId networkId) (Controller.formatNodeId (address 2)) =
      some (networkId, address 2) := by
    decide
  have hmember : recordsWithTwo.view.Authorized networkId (address 2) := by
    rw [show recordsWithTwo = _ from Controller.Api.after_updateMember _ _ _ _ _, hnamed, Option.elim_some,
      Controller.SqliteStorage.view_upsertMember, Controller.Store.authorized_setMember]
    rfl
  obtain ⟨earlier, x, later, hsplit, -, hdecided⟩ := authorized_by_call rfl hrun (fun x hx records hrecords => by
    obtain rfl := List.mem_singleton.mp hx
    cases hrecords
    exact ⟨authorizeTwo, rfl⟩) hnobody hmember
  have hx : x ∈ earlier ++ x :: later := List.mem_append_right _ List.mem_cons_self
  rw [← hsplit] at hx
  obtain rfl := List.mem_singleton.mp hx
  rcases hdecided with ⟨nwid, nodeIdHex, body, now, hevent, hnamed, hauthorized⟩ | ⟨_, _, _, _, _, hevent, -⟩
  · exact ⟨nwid, nodeIdHex, body, now, DaemonEvent.changeRecords.inj hevent, hnamed, hauthorized⟩
  · cases hevent

end

end Service

end ManyTier
