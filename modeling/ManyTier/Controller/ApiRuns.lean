import ManyTier.Controller.Api
import ManyTier.Controller.Authorization
import ManyTier.Lib.Together

/-! The records of a controller over all requests and calls.

Nodes ask for their configurations and whoever holds the API calls it, in any order. What
a call writes is said once, write by write (`Writes`, `Updates`); each step then decides
about a member or leaves it as it was (`step_decides`), so that a member is authorised
exactly if that was decided last (`authorized_decided`), and whom a private network serves
goes by these decisions (`admitted_decided`). -/
namespace ManyTier.Controller

/-! ### Requests and calls -/

/-- A node asks, or the API is called. -/
inductive RecordsEvent where
  | request (networkId : UInt64) (node : ByteVec 5) (now : UInt64)
  | call (c : ApiCall)

inductive RecordsReply where
  | config (reply : Except Failure ConfigResponse)
  | answer (answer : Except CallError ApiAnswer)

section
variable (engine : Engine SqliteStorage) (pr : Primitives)

def recordsStep (s : SqliteStorage) : RecordsEvent → Except Empty (SqliteStorage × RecordsReply)
  | .request networkId node now =>
    .ok ((engine.handleConfigRequest pr networkId node now).after s,
      .config ((engine.handleConfigRequest pr networkId node now).run s).1)
  | .call c => .ok ((Api.execute engine c).after s, .answer ((Api.execute engine c).run s).1)

/-- Runs of requests and calls. -/
abbrev RecordsRun (s : SqliteStorage) (t : List (Entry SqliteStorage RecordsEvent RecordsReply)) (s' : SqliteStorage) : Prop :=
  Run (recordsStep engine pr) s t s'

end

/-! ### What the calls write -/

namespace Api

/-- What the calls that manage networks write, one write at a time, is as `R` says. -/
structure Writes (R : SqliteStorage → SqliteStorage → Prop) : Prop where
  refl : ∀ s, R s s
  trans : ∀ s₁ s₂ s₃, R s₁ s₂ → R s₂ s₃ → R s₁ s₃
  pools : ∀ s ipPools, R s { s with ipPools }
  routes : ∀ s routes, R s { s with routes }
  insert : ∀ s network networks, s.networks.insert network = some networks → network.v4AssignMode = assignModeZt →
    network.tags = [] → R s { s with networks }
  delete : ∀ s id, R s { s with networks := s.networks.filter fun n => n.id ≠ id }

/-- And so are the updates with this body. -/
structure Updates (R : SqliteStorage → SqliteStorage → Prop) (body : UpdateNetworkRequest) : Prop extends Writes R where
  update : ∀ s id network revision, s.getNetwork id = some network →
    R s { s with networks := s.networks.update { applyNetworkUpdates network body with revision } }

theorem reads_parseNetworkId (nwid : Bytes) : (parseNetworkId nwid).Reads := fun _ => rfl

theorem reads_parseNodeIdBytes (hex : Bytes) : (parseNodeIdBytes hex).Reads := by
  intro s
  unfold parseNodeIdBytes
  split
  · rfl
  · rfl

theorem reads_getNetwork (nwid : Bytes) : (getNetwork nwid).Reads :=
  (reads_parseNetworkId nwid).bind fun _ => .bind (fun _ => rfl) fun _ => .bind (fun _ => rfl) fun _ =>
    .bind (fun _ => rfl) fun _ _ => rfl

theorem reads_listMembers (nwid : Bytes) : (listMembers nwid).Reads :=
  (reads_parseNetworkId nwid).bind fun _ _ => rfl

theorem reads_getMember (nwid nodeIdHex : Bytes) : (getMember nwid nodeIdHex).Reads := by
  refine (reads_parseNetworkId nwid).bind fun _ => (reads_parseNodeIdBytes nodeIdHex).bind fun _ =>
    .bind (fun _ => rfl) fun found s => ?_
  cases found with
  | some member => rfl
  | none => rfl

section
variable {R : SqliteStorage → SqliteStorage → Prop} {body : UpdateNetworkRequest}

theorem Writes.of_reads (h : Writes R) {ε α : Type} {x : Attempt SqliteStorage ε α} (hx : x.Reads) (s : SqliteStorage) :
    R s (x.after s) :=
  (hx s).symm ▸ h.refl s

theorem Writes.updatePools (h : Writes R) (id : UInt64) (body : UpdateNetworkRequest) (s : SqliteStorage) :
    R s ((Controller.updatePools id body).after s) := by
  obtain ⟨ipPools, r, hrun, -⟩ := run_updatePools id body s
  rw [Attempt.after, hrun]
  exact h.pools s ipPools

theorem Writes.updateRoutes (h : Writes R) (id : UInt64) (body : UpdateNetworkRequest) (s : SqliteStorage) :
    R s ((Controller.updateRoutes id body).after s) := by
  obtain ⟨routes, r, hrun, -⟩ := run_updateRoutes id body s
  rw [Attempt.after, hrun]
  exact h.routes s routes

theorem Writes.deleteNetwork (h : Writes R) (nwid : Bytes) (s : SqliteStorage) : R s ((deleteNetwork nwid).after s) := by
  refine Attempt.after_bind h.trans (h.refl s) fun _ _ => Attempt.after_bind h.trans (h.refl _) fun _ _ =>
    Attempt.after_bind h.trans (h.refl _) fun _ _ => Attempt.after_bind h.trans (h.refl _) fun _ _ => ?_
  exact Attempt.after_bind h.trans (h.delete _ _) fun _ _ => h.refl _

theorem getNetwork_of_findNetwork {id : UInt64} {s s' : SqliteStorage} {network : NetworkRecord}
    (h : (findNetwork id).run s = (.ok network, s')) : s.getNetwork id = some network := by
  have hresult := congrArg Prod.fst h
  cases hfound : s.getNetwork id with
  | some found =>
    simp only [findNetwork, Attempt.read, hfound] at hresult
    rw [Except.ok.inj hresult]
  | none =>
    simp only [findNetwork, Attempt.read, hfound] at hresult
    cases hresult

/-- An update writes the record, then the pools, then the routes. -/
theorem Updates.existing (h : Updates R body) (nwid : Bytes) (s : SqliteStorage) :
    R s ((Controller.updateNetwork nwid body).after s) := by
  have htrans := h.trans
  unfold Controller.updateNetwork
  refine Attempt.after_bind htrans (h.refl s) fun id _ => Attempt.after_bind htrans (h.refl _) fun network hfound => ?_
  have hrecord : R s ((internally (SqliteStorage.updateNetwork (updatedNetwork network body))).after s) :=
    h.update s id network _ (getNetwork_of_findNetwork hfound)
  refine Attempt.after_bind htrans hrecord fun _ _ => Attempt.after_bind htrans (h.toWrites.updatePools id body _) fun _ _ =>
    Attempt.after_bind htrans (h.toWrites.updateRoutes id body _) fun _ _ => h.toWrites.of_reads ?_ _
  exact .bind (fun _ => rfl) fun _ => .bind (fun _ => rfl) fun _ _ => rfl

/-- A new network is inserted as the engine makes it, and then updated. -/
theorem Updates.create (h : Updates R body) {engine : Engine SqliteStorage} {text : StorageError → Bytes}
    (hstorage : engine.storage = SqliteStorage.storage text) (random : Except Bytes (ByteVec 4)) (now : UInt64)
    (s : SqliteStorage) : R s ((createNetwork engine body random now).after s) := by
  have htrans := h.trans
  have hcreate : ∀ random24 s, R s ((engine.createNetwork random24 now).after s) := by
    intro random24 s
    refine Attempt.after_bind htrans (Attempt.after_write h.refl fun s' hs' => ?_) fun _ _ => h.refl _
    have hcreated := ok_of_mapError hs'
    rw [hstorage] at hcreated
    obtain ⟨networks, hinsert, rfl⟩ := SqliteStorage.storage_createNetwork hcreated
    exact h.insert s _ networks hinsert rfl rfl
  have happly : ∀ id s, R s ((applyToCreated id body).after s) := by
    intro id s
    unfold applyToCreated
    split
    · refine Attempt.after_bind htrans (h.refl s) fun found hfound => ?_
      cases found with
      | some network => exact h.update _ id network network.revision (Except.ok.inj (congrArg Prod.fst hfound))
      | none => exact h.refl _
    · exact h.refl s
  refine Attempt.after_bind htrans (h.refl s) fun _ _ => Attempt.after_bind htrans (hcreate _ _) fun id _ =>
    Attempt.after_bind htrans (happly id _) fun _ _ => Attempt.after_bind htrans (h.toWrites.updatePools id body _) fun _ _ =>
    Attempt.after_bind htrans (h.toWrites.updateRoutes id body _) fun _ _ =>
      h.toWrites.of_reads (.bind (fun _ => rfl) fun found => ?_) _
  cases found with
  | none => exact fun _ => rfl
  | some network => exact .bind (fun _ => rfl) fun _ => .bind (fun _ => rfl) fun _ _ => rfl

theorem Updates.updateNetwork (h : Updates R body) {engine : Engine SqliteStorage} {text : StorageError → Bytes}
    (hstorage : engine.storage = SqliteStorage.storage text) (nwid : Bytes) (random : Except Bytes (ByteVec 4)) (now : UInt64)
    (s : SqliteStorage) : R s ((updateNetwork engine nwid body random now).after s) := by
  unfold Api.updateNetwork
  split
  · exact h.create hstorage random now s
  · exact Attempt.after_bind h.trans (h.existing nwid s) fun _ _ => h.refl _

end

/-! ### Members -/

theorem writes_members : Writes fun s s' => s'.members = s.members where
  refl _ := rfl
  trans _ _ _ h h' := h'.trans h
  pools _ _ := rfl
  routes _ _ := rfl
  insert _ _ _ _ _ _ := rfl
  delete _ _ := rfl

/-- The member that a call names. -/
def namedMember (nwid nodeIdHex : Bytes) : Option (UInt64 × ByteVec 5) := do
  let networkId ← parseHexU64 nwid
  let val ← parseHexU64 nodeIdHex
  return (networkId, u64ToZtAddress val)

/-- A call that names a member goes on with it, and another one ends there. -/
theorem after_named {α : Type} (nwid nodeIdHex : Bytes) (f : UInt64 → ByteVec 5 → Calling α) (s : SqliteStorage) :
    (do
      let networkId ← parseNetworkId nwid
      let nodeId ← parseNodeIdBytes nodeIdHex
      f networkId nodeId : Calling α).after s = (namedMember nwid nodeIdHex).elim s fun named => (f named.1 named.2).after s := by
  unfold parseNetworkId Controller.parseNetworkId parseNodeIdBytes namedMember
  cases parseHexU64 nwid with
  | none => rfl
  | some id =>
    cases parseHexU64 nodeIdHex with
    | none => rfl
    | some val => rfl

theorem after_updateMember (nwid nodeIdHex : Bytes) (body : UpdateMemberRequest) (now : UInt64) (s : SqliteStorage) :
    (updateMember nwid nodeIdHex body now).after s = (namedMember nwid nodeIdHex).elim s fun named =>
      { s with members := s.members.replace (applyMemberUpdates (s.view.requester named.1 named.2 now) body now) } :=
  after_named nwid nodeIdHex _ s

theorem after_deleteMember (nwid nodeIdHex : Bytes) (s : SqliteStorage) :
    (deleteMember nwid nodeIdHex).after s = (namedMember nwid nodeIdHex).elim s fun named =>
      { s with members := s.members.filter fun m => m.key ≠ named } :=
  after_named nwid nodeIdHex _ s

end Api

/-! ### Decisions -/

theorem Store.authorized_setMember {st : Store} {m : MemberRecord} {id : UInt64} {node : ByteVec 5} :
    (st.setMember m).Authorized id node ↔
      if id = m.networkId ∧ node = m.nodeId then m.authorized = true else st.Authorized id node := by
  unfold Authorized
  split
  · rename_i hsame
    simp [setMember, hsame]
  · rename_i hother
    rw [st.member_setMember_of_ne m hother]

/-- What a step decides about a member, if it does: an update through the API that says
whether it is authorised, the deletion of its record, and its own request to a public
network. -/
def decision (id : UInt64) (node : ByteVec 5) (e : Entry SqliteStorage RecordsEvent RecordsReply) : Option Bool :=
  match e.event with
  | .request networkId requester _ =>
    if networkId = id ∧ requester = node ∧ (e.before.getNetwork id).any fun network => ! network.isPrivate
      then some true else none
  | .call (.updateMember nwid nodeIdHex body _) => if Api.namedMember nwid nodeIdHex = some (id, node)
      then body.authorized else none
  | .call (.deleteMember nwid nodeIdHex) => if Api.namedMember nwid nodeIdHex = some (id, node) then some false else none
  | .call _ => none

section
variable {engine : Engine SqliteStorage} {text : StorageError → Bytes} {pr : Primitives}

/-- A step that decides makes it so, and one that does not leaves it. -/
def Decides (id : UInt64) (node : ByteVec 5) (e : Entry SqliteStorage RecordsEvent RecordsReply) : Prop :=
  e.after.view.Authorized id node ↔
    decision id node e = some true ∨ decision id node e = none ∧ e.before.view.Authorized id node

/-- A call that leaves the members decides nothing. -/
theorem Decides.of_members {id : UInt64} {node : ByteVec 5} {e : Entry SqliteStorage RecordsEvent RecordsReply}
    (hmembers : e.after.members = e.before.members) (hdecision : decision id node e = none) : Decides id node e := by
  have hsame : e.after.view.Authorized id node ↔ e.before.view.Authorized id node := by
    unfold Store.Authorized
    rw [show e.after.view.member = e.before.view.member from funext fun id => funext fun node => by
      show e.after.members.find? (id, node) = e.before.members.find? (id, node)
      rw [hmembers]]
  rw [Decides, hsame, hdecision]
  simp

theorem decides_updateMember (nwid nodeIdHex : Bytes) (body : UpdateMemberRequest) (now : UInt64) (id : UInt64) (node : ByteVec 5)
    {s : SqliteStorage} {reply : RecordsReply} :
    Decides id node ⟨s, .call (.updateMember nwid nodeIdHex body now), reply,
      (Api.updateMember nwid nodeIdHex body now).after s⟩ := by
  have hafter := Api.after_updateMember nwid nodeIdHex body now s
  cases hnamed : Api.namedMember nwid nodeIdHex with
  | none =>
    rw [hnamed] at hafter
    refine .of_members (congrArg SqliteStorage.members hafter) ?_
    simp [decision, hnamed]
  | some named =>
    rw [hnamed, Option.elim_some] at hafter
    set m := Api.applyMemberUpdates (s.view.requester named.1 named.2 now) body now
    obtain ⟨hid, hnode⟩ : m.networkId = named.1 ∧ m.nodeId = named.2 := s.keyed.requester named.1 named.2 now
    have hauthorized : m.authorized = body.authorized.getD (s.view.requester named.1 named.2 now).authorized := rfl
    unfold Decides
    simp only [decision, hafter, hnamed]
    rw [SqliteStorage.view_upsertMember, Store.authorized_setMember, hid, hnode, hauthorized]
    by_cases hsame : id = named.1 ∧ node = named.2
    · obtain ⟨rfl, rfl⟩ := hsame
      rw [if_pos ⟨rfl, rfl⟩, if_pos rfl]
      cases body.authorized with
      | some b => simp
      | none => simpa using Store.authorized_requester
    · have hother : ¬ named = (id, node) := by
        rintro rfl
        exact hsame ⟨rfl, rfl⟩
      rw [if_neg hsame, if_neg (by simpa using hother)]
      simp

theorem decides_deleteMember (nwid nodeIdHex : Bytes) (id : UInt64) (node : ByteVec 5) {s : SqliteStorage} {reply : RecordsReply} :
    Decides id node ⟨s, .call (.deleteMember nwid nodeIdHex), reply, (Api.deleteMember nwid nodeIdHex).after s⟩ := by
  have hafter := Api.after_deleteMember nwid nodeIdHex s
  cases hnamed : Api.namedMember nwid nodeIdHex with
  | none =>
    rw [hnamed] at hafter
    refine .of_members (congrArg SqliteStorage.members hafter) ?_
    simp [decision, hnamed]
  | some named =>
    rw [hnamed, Option.elim_some] at hafter
    unfold Decides
    simp only [decision, hafter, hnamed]
    rw [SqliteStorage.view_deleteMember s named.1 named.2]
    by_cases hsame : id = named.1 ∧ node = named.2
    · obtain ⟨rfl, rfl⟩ := hsame
      simp [Store.Authorized, Store.next]
    · have hother : ¬ named = (id, node) := by
        rintro rfl
        exact hsame ⟨rfl, rfl⟩
      rw [if_neg (by simpa using hother)]
      simp [Store.Authorized, Store.next, hsame]

/-- A request that leaves the record of the node that asks as `m`. -/
theorem Decides.of_record {networkId : UInt64} {requester : ByteVec 5} {now : UInt64} {id : UInt64} {node : ByteVec 5}
    {s s' : SqliteStorage} {reply : RecordsReply} {m : MemberRecord} {network : NetworkRecord}
    (hview : s'.view = s.view.setMember m) (hid : m.networkId = networkId) (hnode : m.nodeId = requester)
    (hnetwork : s.getNetwork networkId = some network)
    (hauthorized : m.authorized = true ↔ network.isPrivate = false ∨ s.view.Authorized networkId requester) :
    Decides id node ⟨s, .request networkId requester now, reply, s'⟩ := by
  unfold Decides
  simp only [decision]
  rw [hview, Store.authorized_setMember, hid, hnode]
  by_cases hsame : id = networkId ∧ node = requester
  · obtain ⟨rfl, rfl⟩ := hsame
    rw [if_pos ⟨rfl, rfl⟩, hauthorized, hnetwork]
    cases hprivate : network.isPrivate <;> simp [hprivate]
  · have hother : ¬ (networkId = id ∧ requester = node) := fun h => hsame ⟨h.1.symm, h.2.symm⟩
    rw [if_neg hsame, if_neg fun h => hother ⟨h.1, h.2.1⟩]
    simp

/-- A request writes the record of the node that asks: a public network authorises it, a
private one leaves it as it is. -/
theorem decides_request (hstorage : engine.storage = SqliteStorage.storage text) (networkId : UInt64) (requester : ByteVec 5)
    (now : UInt64) (id : UInt64) (node : ByteVec 5) {s : SqliteStorage} {reply : RecordsReply} :
    Decides id node ⟨s, .request networkId requester now, reply,
      (engine.handleConfigRequest pr networkId requester now).after s⟩ := by
  have hf : Faithful engine.storage SqliteStorage.view := hstorage ▸ SqliteStorage.sqlite_faithful text
  obtain ⟨hid, hnode⟩ := s.keyed.requester networkId requester now
  have hbefore := @Store.authorized_requester s.view networkId requester now
  cases hnetwork : s.getNetwork networkId with
  | none =>
    have hrun := Engine.handleConfigRequest_unknown hf pr requester now (s := s) hnetwork
    refine .of_members (congrArg (fun r => r.2.members) hrun) ?_
    simp only [decision]
    rw [if_neg]
    rintro ⟨rfl, -, hpublic⟩
    simp [hnetwork] at hpublic
  | some network =>
    by_cases hrefused : network.isPrivate = true ∧ (s.view.requester networkId requester now).authorized = false
    · obtain ⟨s', hrun, hview⟩ := Engine.handleConfigRequest_refused hf pr hnetwork hrefused.1 hrefused.2
      rw [show (engine.handleConfigRequest pr networkId requester now).after s = s' from congrArg Prod.snd hrun]
      refine .of_record hview hid hnode hnetwork ?_
      simp [hbefore, hrefused.1]
    · have hadmitted : network.isPrivate = true → (s.view.requester networkId requester now).authorized = true := by
        intro hprivate
        simpa [hprivate] using hrefused
      obtain ⟨m, s', members, hserves, hview, -, hrun⟩ := Engine.handleConfigRequest_served hf pr hnetwork hadmitted
      rw [show (engine.handleConfigRequest pr networkId requester now).after s = s' from congrArg Prod.snd hrun]
      obtain ⟨ips, rfl, -⟩ := hserves.record
      refine .of_record hview hid hnode hnetwork (iff_of_true rfl ?_)
      cases hprivate : network.isPrivate with
      | true => exact .inr (hbefore.mp (hadmitted hprivate))
      | false => exact .inl rfl

theorem decides_call (hstorage : engine.storage = SqliteStorage.storage text) (c : ApiCall) (id : UInt64) (node : ByteVec 5)
    (s : SqliteStorage) (reply : RecordsReply) : Decides id node ⟨s, .call c, reply, (Api.execute engine c).after s⟩ := by
  cases c with
  | updateMember nwid nodeIdHex body now => exact decides_updateMember nwid nodeIdHex body now id node
  | deleteMember nwid nodeIdHex => exact decides_deleteMember nwid nodeIdHex id node
  | listNetworks => exact .of_members rfl rfl
  | getNetwork nwid => exact .of_members (congrArg SqliteStorage.members (Api.reads_getNetwork nwid s)) rfl
  | listMembers nwid => exact .of_members (congrArg SqliteStorage.members (Api.reads_listMembers nwid s)) rfl
  | getMember nwid nodeIdHex => exact .of_members (congrArg SqliteStorage.members (Api.reads_getMember nwid nodeIdHex s)) rfl
  | deleteNetwork nwid => exact .of_members (Api.writes_members.deleteNetwork nwid s) rfl
  | updateNetwork nwid body random now =>
    exact .of_members (Api.Updates.updateNetwork ⟨Api.writes_members, fun _ _ _ _ _ => rfl⟩ hstorage nwid random now s) rfl

/-- **A step decides about a member or leaves it as it was.** -/
theorem step_decides (hstorage : engine.storage = SqliteStorage.storage text) (id : UInt64) (node : ByteVec 5)
    {e : Entry SqliteStorage RecordsEvent RecordsReply} (h : recordsStep engine pr e.before e.event = .ok (e.after, e.output)) :
    Decides id node e := by
  obtain ⟨before, event, output, after⟩ := e
  cases event with
  | request networkId requester now =>
    obtain rfl : (engine.handleConfigRequest pr networkId requester now).after before = after :=
      congrArg Prod.fst (Except.ok.inj h)
    exact decides_request hstorage networkId requester now id node
  | call c =>
    obtain rfl : (Api.execute engine c).after before = after := congrArg Prod.fst (Except.ok.inj h)
    exact decides_call hstorage c id node before output

/-- Of the calls only an update of a member that says so makes it authorised. -/
theorem called_of_authorized (hstorage : engine.storage = SqliteStorage.storage text) {s : SqliteStorage}
    {c : ApiCall} {id : UInt64}
    {node : ByteVec 5} (hbefore : ¬ s.view.Authorized id node)
    (hafter : ((Api.execute engine c).after s).view.Authorized id node) :
    ∃ nwid nodeIdHex body now, c = .updateMember nwid nodeIdHex body now ∧ Api.namedMember nwid nodeIdHex = some (id, node) ∧
      body.authorized = some true := by
  rcases (decides_call hstorage c id node s (.answer ((Api.execute engine c).run s).1)).mp hafter with hdecision | ⟨-, hauthorized⟩
  · cases c with
    | updateMember nwid nodeIdHex body now =>
      by_cases hnamed : Api.namedMember nwid nodeIdHex = some (id, node)
      · exact ⟨nwid, nodeIdHex, body, now, rfl, hnamed, (if_pos hnamed).symm.trans hdecision⟩
      · cases (if_neg hnamed).symm.trans hdecision
    | deleteMember nwid nodeIdHex =>
      by_cases hnamed : Api.namedMember nwid nodeIdHex = some (id, node)
      · cases (if_pos hnamed).symm.trans hdecision
      · cases (if_neg hnamed).symm.trans hdecision
    | _ => cases hdecision
  · exact absurd hauthorized hbefore

/-! ### Runs -/

/-- The decisions of a run, one after the other. -/
def decisions (id : UInt64) (node : ByteVec 5) (t : List (Entry SqliteStorage RecordsEvent RecordsReply)) : List Bool :=
  t.filterMap (decision id node)

/-- The last decision about a member was that it is authorised, or there was none and it
was authorised to begin with. -/
def Admitted (s : SqliteStorage) (t : List (Entry SqliteStorage RecordsEvent RecordsReply)) (id : UInt64) (node : ByteVec 5) : Prop :=
  (decisions id node t).getLast? = some true ∨ (decisions id node t).getLast? = none ∧ s.view.Authorized id node

/-- **A member is authorised exactly if that was decided last.** -/
theorem authorized_decided (hstorage : engine.storage = SqliteStorage.storage text) {s s' : SqliteStorage}
    {t : List (Entry SqliteStorage RecordsEvent RecordsReply)} (hrun : RecordsRun engine pr s t s') (id : UInt64) (node : ByteVec 5) :
    s'.view.Authorized id node ↔ Admitted s t id node := by
  induction hrun with
  | nil => simp [Admitted, decisions]
  | @snoc t s₁ s₂ event o _ hstep ih =>
    have hdecides := step_decides (e := ⟨s₁, event, o, s₂⟩) hstorage id node hstep
    rw [Decides] at hdecides
    rw [hdecides, ih]
    unfold Admitted decisions
    rw [List.filterMap_append]
    cases hdecision : decision id node ⟨s₁, event, o, s₂⟩ with
    | none => simp [hdecision]
    | some b => simp [hdecision]

/-- **A private network serves the members that were authorised last and refuses the
others**, and lists members only of which that holds once the request is served. -/
theorem admitted_decided (hstorage : engine.storage = SqliteStorage.storage text) {s s' : SqliteStorage}
    {earlier later : List (Entry SqliteStorage RecordsEvent RecordsReply)} {e : Entry SqliteStorage RecordsEvent RecordsReply}
    (hrun : RecordsRun engine pr s (earlier ++ e :: later) s') {networkId : UInt64} {node : ByteVec 5} {now : UInt64}
    (hevent : e.event = .request networkId node now) {network : NetworkRecord}
    (hnetwork : e.before.getNetwork networkId = some network) (hprivate : network.isPrivate = true) :
    (¬ Admitted s earlier networkId node → e.output = .config (.error (.error .memberNotAuthorized))) ∧
    (Admitted s earlier networkId node → ∃ m members, e.before.view.Serves networkId node now network m ∧
      e.output = .config (engine.issued pr networkId node network m now (e.before.getRoutes networkId) members) ∧
      ∀ listed ∈ members, listed.eligible = true → Admitted s (earlier ++ [e]) networkId listed.nodeId) := by
  have hf : Faithful engine.storage SqliteStorage.view := hstorage ▸ SqliteStorage.sqlite_faithful text
  obtain ⟨hbefore, hstep⟩ := hrun.cut
  have hafter : RecordsRun engine pr s (earlier ++ [e]) e.after := hbefore.snoc hstep
  rw [hevent] at hstep
  obtain ⟨hstate, houtput⟩ := Prod.mk.inj (Except.ok.inj hstep)
  rw [← authorized_decided hstorage hbefore networkId node,
    ← @Store.authorized_requester e.before.view networkId node now]
  constructor
  · intro hnot
    obtain ⟨s₁, hrefused, -⟩ := Engine.handleConfigRequest_refused hf pr hnetwork hprivate (Bool.eq_false_iff.mpr hnot)
    rw [← houtput, hrefused]
  · intro hadmitted
    obtain ⟨m, s₁, members, hserves, -, hlists, hserved⟩ :=
      Engine.handleConfigRequest_served hf pr hnetwork fun _ => hadmitted
    have hnext : e.after = s₁ := hstate.symm.trans (congrArg Prod.snd hserved)
    refine ⟨m, members, hserves, by rw [← houtput, hserved]; rfl, fun listed hlisted heligible => ?_⟩
    rw [← authorized_decided hstorage hafter, hnext]
    refine ⟨listed, (hlists.mem listed).mp hlisted, ?_⟩
    simp [MemberRecord.eligible] at heligible
    exact heligible.1

end

namespace SampleMembers

/-- The controller with its records in SQLite. -/
def recordsEngine : Engine SqliteStorage := ⟨controller, Sample.key 1, SqliteStorage.storage fun _ => []⟩

def emptyRecords : SqliteStorage := { SqliteStorage.new with networks := ⟨[network], List.nodup_singleton _⟩ }

/-- Whether a member is authorised, and nothing else. -/
def authorization (authorized : Bool) : UpdateMemberRequest :=
  { authorized := some authorized, ipAssignments := none, name := none, activeBridge := none, noAutoAssignIps := none
    capabilities := none, tags := none }

def authorizeTwo : ApiCall := .updateMember (formatNetworkId networkId) (formatNodeId (address 2)) (authorization true) 500

def recordsWithTwo : SqliteStorage := (Api.execute recordsEngine authorizeTwo).after emptyRecords

end SampleMembers

open SampleMembers in
/-- A node that was authorised through the API is served. -/
theorem admitted_decided_two :
    ∃ m members, recordsWithTwo.view.Serves networkId (address 2) 1000 network m ∧
      ((recordsEngine.handleConfigRequest Sample.primitives networkId (address 2) 1000).run recordsWithTwo).1 =
        recordsEngine.issued Sample.primitives networkId (address 2) network m 1000 [] members := by
  have hnamed : Api.namedMember (formatNetworkId networkId) (formatNodeId (address 2)) = some (networkId, address 2) := by decide
  have hcalled : RecordsRun recordsEngine Sample.primitives emptyRecords _ recordsWithTwo :=
    Run.nil.snoc (show recordsStep recordsEngine Sample.primitives emptyRecords (.call authorizeTwo)
      = .ok (recordsWithTwo, _) from rfl)
  have hasked := hcalled.snoc
    (show recordsStep recordsEngine Sample.primitives recordsWithTwo (.request networkId (address 2) 1000) = .ok (_, _) from rfl)
  have hafter : recordsWithTwo.networks = emptyRecords.networks ∧ recordsWithTwo.routes = emptyRecords.routes := by
    rw [show recordsWithTwo = _ from Api.after_updateMember _ _ _ _ _, hnamed]
    exact ⟨rfl, rfl⟩
  have hnetwork : recordsWithTwo.getNetwork networkId = some network := by
    rw [SqliteStorage.getNetwork, hafter.1]
    rfl
  have hroutes : recordsWithTwo.getRoutes networkId = [] := by
    rw [SqliteStorage.getRoutes, hafter.2]
    rfl
  obtain ⟨-, hserved⟩ := admitted_decided rfl hasked rfl hnetwork rfl
  obtain ⟨m, members, hserves, houtput, -⟩ := hserved (.inl (by simp [decisions, decision, authorizeTwo, authorization, hnamed]))
  rw [hroutes] at houtput
  exact ⟨m, members, hserves, RecordsReply.config.inj houtput⟩

end ManyTier.Controller
