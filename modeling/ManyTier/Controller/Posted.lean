import ManyTier.Controller.ApiRuns

/-! What the API shows of a network, posted back.

A response shows a record in other words: addresses and ids as texts, the assignment mode
as an object, the values of a tag under their names. In every run what is stored can be
shown as it is (`run_shown`), so that a response posted back is taken and changes nothing
of the network but its revision (`reposted`). -/
namespace ManyTier.Controller

/-! ### Shown and read back -/

/-- A request for all that a response shows. -/
def ControllerNetworkResponse.toRequest (response : ControllerNetworkResponse) : UpdateNetworkRequest where
  name := some response.name
  isPrivate := some response.isPrivate
  multicastLimit := some response.multicastLimit
  mtu := some response.mtu
  v4AssignMode := some response.v4AssignMode
  ipAssignmentPools := some response.ipAssignmentPools
  routes := some response.routes
  enableBroadcast := some response.enableBroadcast
  rules := some response.rules
  capabilities := some response.capabilities
  tags := some response.tags

/-- A value that is empty has no fields. -/
theorem decodeRuleFields_nil (ruleType : UInt8) : decodeRuleFields ruleType [] = none := by
  unfold decodeRuleFields
  cases layoutOf ruleType with
  | none => rfl
  | some layout => cases layout <;> rfl

theorem ruleFromResponse_toResponse (rule : Rule) : ruleFromResponse (ruleToResponse rule) = rule := by
  obtain ⟨ruleType, notFlag, orFlag, value⟩ := rule
  cases value with
  | nil => simp [ruleFromResponse, ruleToResponse, decodeRuleFields_nil]
  | cons b rest => rfl

theorem map_ruleFromResponse (rules : List Rule) : (rules.map ruleToResponse).map ruleFromResponse = rules := by
  rw [List.map_map]
  exact List.map_id'' ruleFromResponse_toResponse rules

theorem capabilityFromResponse_toResponse (cap : Capability) : capabilityFromResponse (capabilityToResponse cap) = cap := by
  unfold capabilityFromResponse capabilityToResponse
  rw [map_ruleFromResponse]

/-- The named values of a tag come in order. -/
def TagDefinition.Ordered (d : TagDefinition) : Prop := d.enums.Pairwise fun a b => a.1 < b.1

theorem tagDefinitionFromResponse_toResponse {d : TagDefinition} (h : d.Ordered) :
    tagDefinitionFromResponse (tagDefinitionToResponse d) = d := by
  unfold tagDefinitionFromResponse tagDefinitionToResponse
  rw [SortedMap.entries_ofList h]

theorem bytes_formatIpv4 (ip : ByteVec 4) : (Text.ofBytes (formatIpv4 ip)).bytes = formatIpv4 ip :=
  Text.bytes_ofBytes fun _ => ascii_formatIpv4

theorem parseIpPool_toResponse (pool : IpPool) : parseIpPool (ipPoolToResponse pool) = some pool := by
  simp only [parseIpPool, ipPoolToResponse, parseDottedIpv4, bytes_formatIpv4, parseIpv4_formatIpv4]
  rfl

theorem filterMap_parseIpPool (pools : List IpPool) : (pools.map ipPoolToResponse).filterMap parseIpPool = pools := by
  rw [List.filterMap_map]
  exact (List.filterMap_congr fun pool _ => parseIpPool_toResponse pool).trans List.filterMap_some

theorem map_parseManagedRoute (routes : List ManagedRoute) : (routes.map routeToResponse).map parseManagedRoute = routes := by
  rw [List.map_map]
  exact List.map_id'' (fun _ => rfl) routes

/-- A network that can be shown as it is. -/
structure NetworkRecord.Shown (network : NetworkRecord) : Prop where
  mode : network.v4AssignMode = assignModeZt ∨ network.v4AssignMode = assignModeNone
  tags : ∀ d ∈ network.tags, d.Ordered

theorem assignModeOf_toJson {mode : Text} (h : mode = assignModeZt ∨ mode = assignModeNone) :
    assignModeOf (v4AssignModeToJson mode) = some mode := by
  rcases h with rfl | rfl
  · rfl
  · rfl

/-- A record takes what is shown of it and stays as it is. -/
theorem NetworkRecord.Shown.apply {network : NetworkRecord} (h : network.Shown) (pools : List IpPool) (routes : List ManagedRoute) :
    applyNetworkUpdates network (networkToResponse network pools routes).toRequest = network := by
  have htags : (network.tags.map tagDefinitionToResponse).map tagDefinitionFromResponse = network.tags := by
    rw [List.map_map]
    exact (List.map_congr_left fun d hd => tagDefinitionFromResponse_toResponse (h.tags d hd)).trans (List.map_id _)
  have hcapabilities : (network.capabilities.map capabilityToResponse).map capabilityFromResponse = network.capabilities := by
    rw [List.map_map]
    exact List.map_id'' capabilityFromResponse_toResponse _
  unfold applyNetworkUpdates ControllerNetworkResponse.toRequest networkToResponse
  simp only [Option.getD_some, Option.map_some, Option.bind_some, map_ruleFromResponse, htags, hcapabilities,
    assignModeOf_toJson h.mode]

/-! ### Every stored network can be shown -/

/-- All networks can be shown as they are. -/
def SqliteStorage.Shown (s : SqliteStorage) : Prop := ∀ id network, s.getNetwork id = some network → network.Shown

/-- A request gives named values in order, as a map does. -/
def UpdateNetworkRequest.Ordered (body : UpdateNetworkRequest) : Prop :=
  ∀ tags, body.tags = some tags → ∀ d ∈ tags, d.enums.Pairwise fun a b => a.1 < b.1

def RecordsEvent.Ordered : RecordsEvent → Prop
  | .call (.updateNetwork _ body _ _) => body.Ordered
  | _ => True

/-- An update keeps that: it sets one of the two modes, and values in order. -/
theorem NetworkRecord.Shown.update {network : NetworkRecord} (h : network.Shown) {body : UpdateNetworkRequest} (hbody : body.Ordered)
    (revision : UInt64) : ({ applyNetworkUpdates network body with revision } : NetworkRecord).Shown := by
  constructor
  · show (body.v4AssignMode.bind assignModeOf).getD network.v4AssignMode = assignModeZt ∨
      (body.v4AssignMode.bind assignModeOf).getD network.v4AssignMode = assignModeNone
    cases hmode : body.v4AssignMode.bind assignModeOf with
    | none => exact h.mode
    | some mode =>
      obtain ⟨v4, -, hv4⟩ := Option.bind_eq_some_iff.mp hmode
      obtain ⟨zt, -, rfl⟩ := Option.map_eq_some_iff.mp hv4
      cases zt with
      | true => exact .inl rfl
      | false => exact .inr rfl
  · show ∀ d ∈ (body.tags.map fun tags => tags.map tagDefinitionFromResponse).getD network.tags, d.Ordered
    cases htags : body.tags with
    | none => exact h.tags
    | some tags =>
      intro d hd
      obtain ⟨response, hresponse, rfl⟩ := List.mem_map.mp hd
      exact hbody tags htags response hresponse

namespace Api

theorem writes_shown : Writes fun s s' => s.Shown → s'.Shown where
  refl _ := id
  trans _ _ _ h h' hs := h' (h hs)
  pools _ _ := id
  routes _ _ := id
  insert s network networks hinsert hmode htags hs id' network' hfound := by
    have hfind := Table.find?_insert hinsert id'
    rw [show networks.find? id' = some network' from hfound] at hfind
    split at hfind
    · obtain rfl := Option.some.inj hfind
      exact ⟨.inl hmode, fun d hd => absurd (htags ▸ hd) List.not_mem_nil⟩
    · exact hs id' network' hfind.symm
  delete s id hs id' network' hfound := by
    have hfind := find?_deleteNetwork s.networks id id'
    rw [show (s.networks.filter fun n => n.id ≠ id).find? id' = some network' from hfound] at hfind
    split at hfind
    · cases hfind
    · exact hs id' network' hfind.symm

theorem updates_shown {body : UpdateNetworkRequest} (hbody : body.Ordered) : Updates (fun s s' => s.Shown → s'.Shown) body where
  toWrites := writes_shown
  update s id network revision hnetwork hs id' network' hfound := by
    have hfind := Table.find?_update s.networks { applyNetworkUpdates network body with revision } id'
    rw [show (s.networks.update _).find? id' = some network' from hfound] at hfind
    split at hfind
    · obtain ⟨-, -, heq⟩ := Option.map_eq_some_iff.mp hfind.symm
      rw [← heq]
      exact (hs id network hnetwork).update hbody revision
    · exact hs id' network' hfind.symm

end Api

section
variable {engine : Engine SqliteStorage} {text : StorageError → Bytes} {pr : Primitives}

/-- A request leaves the networks. -/
theorem getNetwork_request (hstorage : engine.storage = SqliteStorage.storage text) (networkId : UInt64) (requester : ByteVec 5)
    (now : UInt64) (s : SqliteStorage) :
    ((engine.handleConfigRequest pr networkId requester now).after s).view.network = s.view.network := by
  have hf : Faithful engine.storage SqliteStorage.view := hstorage ▸ SqliteStorage.sqlite_faithful text
  have heffect := effect_configRequest hf pr networkId requester now s
  have hsame : ((engine.handleConfigRequest pr networkId requester now >>= fun r => pure (Reply.config r) :
      Attempt SqliteStorage Failure Reply).run s).2 = (engine.handleConfigRequest pr networkId requester now).after s := by
    cases hrun : (engine.handleConfigRequest pr networkId requester now).run s with
    | mk r s' =>
      rw [Attempt.after, hrun]
      cases r with
      | ok response => exact congrArg Prod.snd (Attempt.run_bind_ok hrun _)
      | error e => exact congrArg Prod.snd (Attempt.run_bind_error hrun _)
  rw [hsame] at heffect
  exact heffect.network

/-- **In every run all networks can be shown as they are.** -/
theorem run_shown (hstorage : engine.storage = SqliteStorage.storage text) {s s' : SqliteStorage}
    {t : List (Entry SqliteStorage RecordsEvent RecordsReply)} (hrun : RecordsRun engine pr s t s') (hs : s.Shown)
    (hordered : ∀ e ∈ t, e.event.Ordered) : s'.Shown := by
  refine hrun.invariant SqliteStorage.Shown (fun e => e.event.Ordered) (fun e he hevent hbefore => ?_) hs hordered
  obtain ⟨before, event, output, after⟩ := e
  cases event with
  | request networkId requester now =>
    obtain rfl : (engine.handleConfigRequest pr networkId requester now).after before = after :=
      congrArg Prod.fst (Except.ok.inj he)
    intro id network hnetwork
    have hsame := congrFun (@getNetwork_request _ text pr hstorage networkId requester now before) id
    exact hbefore id network (hsame.symm.trans hnetwork)
  | call c =>
    obtain rfl : (Api.execute engine c).after before = after := congrArg Prod.fst (Except.ok.inj he)
    cases c with
    | updateNetwork nwid body random now =>
      exact (@Api.updates_shown body hevent).updateNetwork hstorage nwid random now before hbefore
    | deleteNetwork nwid => exact Api.writes_shown.deleteNetwork nwid before hbefore
    | listNetworks => exact hbefore
    | getNetwork nwid => exact (Api.reads_getNetwork nwid before).symm ▸ hbefore
    | listMembers nwid => exact (Api.reads_listMembers nwid before).symm ▸ hbefore
    | getMember nwid nodeIdHex => exact (Api.reads_getMember nwid nodeIdHex before).symm ▸ hbefore
    | updateMember nwid nodeIdHex body now =>
      show ((Api.updateMember nwid nodeIdHex body now).after before).Shown
      rw [Api.after_updateMember]
      cases Api.namedMember nwid nodeIdHex with
      | none => exact hbefore
      | some named => exact hbefore
    | deleteMember nwid nodeIdHex =>
      show ((Api.deleteMember nwid nodeIdHex).after before).Shown
      rw [Api.after_deleteMember]
      cases Api.namedMember nwid nodeIdHex with
      | none => exact hbefore
      | some named => exact hbefore

end

/-! ### Posted back -/

/-- The next revision of a record. -/
def NetworkRecord.revised (network : NetworkRecord) : NetworkRecord := { network with revision := network.revision + 1 }

namespace Api

theorem parseHexU64_of_parseNetworkId {nwid : Bytes} {id : UInt64} (h : Controller.parseNetworkId nwid = .ok id) :
    parseHexU64 nwid = some id := by
  unfold Controller.parseNetworkId at h
  cases hparse : parseHexU64 nwid with
  | none =>
    rw [hparse] at h
    cases h
  | some id' =>
    rw [hparse] at h
    exact congrArg some (Except.ok.inj h)

/-- What is shown is the record with its pools and routes. -/
theorem getNetwork_answers {nwid : Bytes} {s s' : SqliteStorage} {response : ControllerNetworkResponse}
    (h : (getNetwork nwid).run s = (.ok (.network response), s')) :
    ∃ id network, parseHexU64 nwid = some id ∧ s.getNetwork id = some network ∧
      response = networkToResponse network (s.getIpPools id) (s.getRoutes id) := by
  obtain ⟨id, s₁, hid, hrest⟩ := Attempt.run_bind_eq_ok h
  obtain ⟨hparse, rfl⟩ := Prod.mk.inj hid
  obtain ⟨network, s₂, hfound, hanswer⟩ := Attempt.run_bind_eq_ok hrest
  obtain ⟨hfind, rfl⟩ := Prod.mk.inj hfound
  refine ⟨id, network, parseHexU64_of_parseNetworkId (ok_of_mapError hparse), ?_, ?_⟩
  · exact getNetwork_of_findNetwork (Prod.ext (ok_of_mapError hfind) rfl)
  · exact (ApiAnswer.network.inj (Except.ok.inj (congrArg Prod.fst hanswer))).symm

/-- The id of a network is not the end that asks for a new one. -/
theorem not_createSuffix {nwid : Bytes} {id : UInt64} (h : parseHexU64 nwid = some id) : ¬ createSuffix <:+ nwid := by
  intro hsuffix
  obtain ⟨n, hn, -⟩ := Option.map_eq_some_iff.mp h
  rcases mem_parseUnsigned hn 0x5f (hsuffix.subset (by decide)) with hsign | hdigit
  · exact absurd hsign (by decide)
  · exact absurd hdigit (by decide)

/-- A network that can be shown takes what is shown of it: the record is the next revision
of itself, and the pools and the routes stay. -/
theorem run_repost {nwid : Bytes} {id : UInt64} {s : SqliteStorage} {network : NetworkRecord} (hid : parseHexU64 nwid = some id)
    (hnetwork : s.getNetwork id = some network) (hshown : network.Shown) :
    ∃ s', (Controller.updateNetwork nwid (networkToResponse network (s.getIpPools id) (s.getRoutes id)).toRequest).run s =
        (.ok (network.revised, s.getIpPools id, s.getRoutes id), s') ∧ s'.view = s.view.setNetwork network.revised := by
  generalize hbody : (networkToResponse network (s.getIpPools id) (s.getRoutes id)).toRequest = body
  have hupdated : updatedNetwork network body = network.revised := by
    unfold updatedNetwork
    rw [← hbody, hshown.apply]
    rfl
  have hparse : (Attempt.lift (Controller.parseNetworkId nwid) : Attempt SqliteStorage ApiError UInt64).run s = (.ok id, s) := by
    rw [Attempt.run_lift, Controller.parseNetworkId, hid]
  have hfind : (findNetwork id).run s = (.ok network, s) := by
    apply Attempt.run_read
    rw [hnetwork]
  have hrecord : (internally (SqliteStorage.updateNetwork (updatedNetwork network body))).run s =
      (.ok (), { s with networks := s.networks.update network.revised }) := by
    rw [hupdated]
    rfl
  have hview : { s with networks := s.networks.update network.revised }.view = s.view.setNetwork network.revised := by
    apply SqliteStorage.view_updateNetwork
    have hkey : network.id = id := (Table.find?_eq_some.mp hnetwork).2
    rw [show network.revised.id = id from hkey, hnetwork]
    rfl
  generalize { s with networks := s.networks.update network.revised } = s₀ at hrecord hview
  -- the pools that come back are those that are there
  obtain ⟨s₁, hset, hview₁⟩ := @SqliteStorage.setIpPools_meets s₀ id _ (s.nodup_getIpPools id)
  have hpools : (updatePools id body).run s₀ = (.ok (), s₁) := by
    rw [← hbody]
    show (internally (SqliteStorage.setIpPools id (((s.getIpPools id).map ipPoolToResponse).filterMap parseIpPool))).run s₀ = _
    rw [filterMap_parseIpPool]
    exact Attempt.run_mapError hset _
  have hkept₁ : s₁.view = s.view.setNetwork network.revised := by
    rw [hview₁, hview]
    exact (s.view.setNetwork network.revised).next_setIpPools_self id
  -- and so are the routes
  obtain ⟨s₂, hset, hview₂⟩ := @SqliteStorage.setRoutes_meets s₁ id _ (s.nodup_targets id)
  have hroutes : (updateRoutes id body).run s₁ = (.ok (), s₂) := by
    rw [← hbody]
    show (internally (SqliteStorage.setRoutes id (((s.getRoutes id).map routeToResponse).map parseManagedRoute))).run s₁ = _
    rw [map_parseManagedRoute]
    exact Attempt.run_mapError hset _
  have hkept : s₂.view = s.view.setNetwork network.revised := by
    rw [hview₂, hkept₁]
    exact (s.view.setNetwork network.revised).next_setRoutes_self id
  refine ⟨s₂, ?_, hkept⟩
  have hgetPools : s₂.getIpPools id = s.getIpPools id := congrFun (congrArg Store.ipPools hkept) id
  have hgetRoutes : s₂.getRoutes id = s.getRoutes id := congrFun (congrArg Store.routes hkept) id
  rw [Controller.updateNetwork, Attempt.run_bind_ok hparse, Attempt.run_bind_ok hfind, Attempt.run_bind_ok hrecord,
    Attempt.run_bind_ok hpools, Attempt.run_bind_ok hroutes, ← hgetPools, ← hgetRoutes, hupdated]
  rfl

end Api

/-- **What is shown of a network, posted back, is taken and changes nothing but the
revision**, after any run that began with networks that can be shown. -/
theorem reposted {engine : Engine SqliteStorage} {text : StorageError → Bytes} {pr : Primitives}
    (hstorage : engine.storage = SqliteStorage.storage text) {s s' : SqliteStorage}
    {t : List (Entry SqliteStorage RecordsEvent RecordsReply)} (hrun : RecordsRun engine pr s t s') (hs : s.Shown)
    (hordered : ∀ e ∈ t, e.event.Ordered) {nwid : Bytes} {response : ControllerNetworkResponse}
    (hget : (Api.getNetwork nwid).run s' = (.ok (.network response), s')) (random : Except Bytes (ByteVec 4)) (now : UInt64) :
    ∃ id network s'', parseHexU64 nwid = some id ∧ s'.getNetwork id = some network ∧
      (Api.updateNetwork engine nwid response.toRequest random now).run s' =
        (.ok (.network { response with revision := response.revision + 1 }), s'') ∧
      s''.view = s'.view.setNetwork network.revised := by
  obtain ⟨id, network, hid, hnetwork, rfl⟩ := Api.getNetwork_answers hget
  obtain ⟨s'', hupdate, hview⟩ := Api.run_repost hid hnetwork (run_shown hstorage hrun hs hordered id network hnetwork)
  refine ⟨id, network, s'', hid, hnetwork, ?_, hview⟩
  rw [Api.updateNetwork, if_neg (Api.not_createSuffix hid)]
  exact Attempt.run_bind_ok (Attempt.run_mapError hupdate _) _

/-! ### A pool posted, shown and posted back -/

theorem shown_sampleStore : sampleStore.Shown := by
  intro id network hnetwork
  obtain ⟨hrow, -⟩ := Table.find?_eq_some.mp hnetwork
  obtain rfl : network = sampleNetwork := List.mem_singleton.mp hrow
  exact ⟨.inl rfl, fun d hd => absurd hd List.not_mem_nil⟩

/-- The sample network after one pool was posted. -/
def poolPosted : SqliteStorage :=
  (Api.updateNetwork SampleMembers.recordsEngine [0x31, 0x30] (poolsRequest [samplePool]) (.error []) 0).after sampleStore

theorem reposted_sample :
    ∃ response s'', (Api.getNetwork [0x31, 0x30]).run poolPosted = (.ok (.network response), poolPosted) ∧
      (Api.updateNetwork SampleMembers.recordsEngine [0x31, 0x30] response.toRequest (.error []) 0).run poolPosted =
        (.ok (.network { response with revision := response.revision + 1 }), s'') ∧
      s''.getIpPools 16 = [⟨hostIn 1 1, hostIn 1 9⟩] := by
  have hrun : RecordsRun SampleMembers.recordsEngine Sample.primitives sampleStore _ poolPosted :=
    Run.nil.snoc (show recordsStep SampleMembers.recordsEngine Sample.primitives sampleStore
      (.call (.updateNetwork [0x31, 0x30] (poolsRequest [samplePool]) (.error []) 0)) = .ok (poolPosted, _) from rfl)
  have hget : (Api.getNetwork [0x31, 0x30]).run poolPosted = (.ok (.network _), poolPosted) := rfl
  obtain ⟨id, network, s'', -, -, hupdate, hview⟩ := reposted rfl hrun shown_sampleStore (fun e he => by
    obtain rfl := List.mem_singleton.mp he
    rintro tags ⟨⟩) hget (.error []) 0
  refine ⟨_, s'', hget, hupdate, ?_⟩
  have hpools : s''.getIpPools 16 = poolPosted.getIpPools 16 := congrFun (congrArg Store.ipPools hview) 16
  rw [hpools]
  decide

end ManyTier.Controller
