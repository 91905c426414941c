import ManyTier.Lib.HexText
import ManyTier.Lib.SortedMap
import ManyTier.Node.ConfigContent
import ManyTier.Service.ManagedRoutes

/-! The TUN devices of the service.

The service makes a device for a network when a configuration of it arrives and there is
none, sets it up from that configuration, and writes to it what the node hands out for the
network. `TunHistory` says what the calls for one network come to: attempts, then the
device with its addresses and routes, then every payload in order and nothing else; a later
configuration changes nothing on the device. Each action keeps it
(`tunHistory_handleTunAction`). -/
namespace ManyTier

namespace Service

/-- A device: the name the host gave it, and its MTU. -/
structure NativeTun where
  name : Bytes
  mtu : UInt64
  deriving DecidableEq

/-- What the service asks of the host, for the device of a network. -/
inductive TunCall where
  | create (networkId : UInt64) (name : Bytes) (mtu : UInt64)
  | setIp (networkId : UInt64) (addr : IpAddr) (prefixLen : UInt8)
  | addRoute (networkId : UInt64) (target : Bytes) (gateway : Option IpAddr)
  | write (networkId : UInt64) (payload : Bytes)
  deriving DecidableEq

def TunCall.networkId : TunCall → UInt64
  | create networkId _ _ => networkId
  | setIp networkId _ _ => networkId
  | addRoute networkId _ _ => networkId
  | write networkId _ => networkId

/-- The devices, and their names as the API reports them. -/
structure Tuns where
  devices : SortedMap UInt64 NativeTun
  names : SortedMap UInt64 Bytes
  deriving DecidableEq

def Tuns.empty : Tuns := ⟨.empty, .empty⟩

/-! ### What a configuration says of a device -/

def networkMtuFromDictData (dictData : Bytes) : Option UInt64 :=
  match Dictionary.deserialize dictData with
  | .error _ => none
  | .ok dict => dict.getHexU64 ConfigKey.mtu

/-- An address and its prefix, which stands where a port would. -/
def managedIp : InetAddress → Option (IpAddr × UInt8)
  | .null => none
  | .v4 ip port => some (.v4 ip, port.toUInt8)
  | .v6 ip port => some (.v6 ip, port.toUInt8)

def managedIpsFromDictData (dictData : Bytes) : List (IpAddr × UInt8) :=
  match Dictionary.deserialize dictData with
  | .error _ => []
  | .ok dict => dict.staticIps.filterMap managedIp

/-- Three bytes of the network's number and three of the node's address. -/
def tunNameForNetwork (networkId : UInt64) (localZtAddress : ByteVec 5) : Bytes :=
  [0x7a, 0x74] ++ hexBytes ((be64 networkId).drop 5) ++ hexBytes (localZtAddress.toBytes.drop 2)

def defaultTunMtu : UInt64 := 2800

def tunMtu (dictData : Bytes) : UInt64 := (networkMtuFromDictData dictData).getD defaultTunMtu

def configureTunFromDictData (networkId : UInt64) (dictData : Bytes) : List TunCall :=
  (managedIpsFromDictData dictData).map (fun ip => .setIp networkId ip.1 ip.2) ++
    (managedRoutesFromDictData dictData).map fun route => .addRoute networkId route.1 route.2

/-! ### Actions -/

/-- The devices while actions are handled: what the host still has to answer to attempts
at a device, with the device's name or not, and the calls so far. -/
structure TunProgress where
  tuns : Tuns
  answers : List (Option Bytes)
  calls : List TunCall
  deriving DecidableEq

def TunProgress.write (p : TunProgress) (networkId : UInt64) (payload : Bytes) : TunProgress :=
  if p.tuns.devices.contains networkId then { p with calls := p.calls ++ [.write networkId payload] } else p

/-- A device for a network that has none, if the host makes one. -/
def TunProgress.create (localZtAddress : ByteVec 5) (p : TunProgress) (networkId : UInt64) (dictData : Bytes) : TunProgress :=
  let attempt := TunCall.create networkId (tunNameForNetwork networkId localZtAddress) (tunMtu dictData)
  match p.answers.head?.join with
  | none => { p with answers := p.answers.tail, calls := p.calls ++ [attempt] }
  | some name =>
    { tuns := { devices := p.tuns.devices.insert networkId ⟨name, tunMtu dictData⟩
                names := p.tuns.names.insert networkId name }
      answers := p.answers.tail
      calls := p.calls ++ attempt :: configureTunFromDictData networkId dictData }

def handleTunAction (localZtAddress : ByteVec 5) (p : TunProgress) : NodeAction → TunProgress
  | .frameReceived networkId _ _ _ payload => p.write networkId payload
  | .localReply networkId _ payload => p.write networkId payload
  | .networkConfigured networkId dictData =>
    if p.tuns.devices.contains networkId then p else p.create localZtAddress networkId dictData
  | _ => p

def handleTunActions (localZtAddress : ByteVec 5) (p : TunProgress) (actions : List NodeAction) : TunProgress :=
  actions.foldl (handleTunAction localZtAddress) p

/-! ### One network -/

/-- The attempt an action calls for where there is no device. -/
def attemptFor (localZtAddress : ByteVec 5) (networkId : UInt64) : NodeAction → Option TunCall
  | .networkConfigured id dictData =>
    if id = networkId then some (.create networkId (tunNameForNetwork networkId localZtAddress) (tunMtu dictData)) else none
  | _ => none

/-- The payload an action brings to the device of a network. -/
def payloadFor (networkId : UInt64) : NodeAction → Option Bytes
  | .frameReceived id _ _ _ payload => if id = networkId then some payload else none
  | .localReply id _ payload => if id = networkId then some payload else none
  | _ => none

/-- What the calls for a network come to after some actions: without a device, attempts;
with one, the attempts before it, the device set up from the configuration that was last
attempted, and then the payloads. -/
def TunHistory (localZtAddress : ByteVec 5) (networkId : UInt64) (actions : List NodeAction) (calls : List TunCall) :
    Option NativeTun → Prop
  | .none => calls = actions.filterMap (attemptFor localZtAddress networkId)
  | some device => ∃ before dictData after, actions = before ++ .networkConfigured networkId dictData :: after ∧
      device.mtu = tunMtu dictData ∧
      calls = before.filterMap (attemptFor localZtAddress networkId) ++
        .create networkId (tunNameForNetwork networkId localZtAddress) device.mtu ::
          configureTunFromDictData networkId dictData ++
        (after.filterMap (payloadFor networkId)).map (.write networkId)

/-- The calls for a network. -/
def callsFor (networkId : UInt64) (calls : List TunCall) : List TunCall := calls.filter fun call => call.networkId = networkId

/-- Each device has its name listed, and no other network has one. -/
def Tuns.Named (tuns : Tuns) : Prop := ∀ networkId, tuns.names.get? networkId = (tuns.devices.get? networkId).map NativeTun.name

variable {localZtAddress : ByteVec 5} {p : TunProgress}

theorem callsFor_append (networkId : UInt64) (calls calls' : List TunCall) :
    callsFor networkId (calls ++ calls') = callsFor networkId calls ++ callsFor networkId calls' :=
  List.filter_append ..

/-- Calls for one network. -/
theorem callsFor_own {networkId : UInt64} {calls : List TunCall} (h : ∀ call ∈ calls, call.networkId = networkId) :
    callsFor networkId calls = calls :=
  List.filter_eq_self.mpr fun call hcall => decide_eq_true (h call hcall)

theorem callsFor_other {networkId id : UInt64} {calls : List TunCall} (h : ∀ call ∈ calls, call.networkId = id)
    (hne : id ≠ networkId) : callsFor networkId calls = [] :=
  List.filter_eq_nil_iff.mpr fun call hcall => by simpa [h call hcall] using hne

theorem one_call {call : TunCall} {networkId : UInt64} (h : call.networkId = networkId) :
    ∀ other ∈ [call], other.networkId = networkId :=
  fun _ hother => List.mem_singleton.mp hother ▸ h

/-- Setting a device up takes calls for its network alone. -/
theorem networkId_device (networkId : UInt64) (dictData : Bytes) :
    ∀ call ∈ .create networkId (tunNameForNetwork networkId localZtAddress) (tunMtu dictData) ::
      configureTunFromDictData networkId dictData, call.networkId = networkId := by
  intro call hcall
  rcases List.mem_cons.mp hcall with rfl | hcall
  · rfl
  · rcases List.mem_append.mp hcall with hcall | hcall
    · obtain ⟨ip, -, rfl⟩ := List.mem_map.mp hcall
      rfl
    · obtain ⟨route, -, rfl⟩ := List.mem_map.mp hcall
      rfl

/-- Writing for a network touches no device, and no other network. -/
theorem write_eq (p : TunProgress) (networkId : UInt64) (payload : Bytes) :
    (p.write networkId payload).tuns = p.tuns ∧ (p.write networkId payload).answers = p.answers ∧
      (p.write networkId payload).calls =
        p.calls ++ if p.tuns.devices.contains networkId then [.write networkId payload] else [] := by
  unfold TunProgress.write
  split
  · rename_i h
    exact ⟨rfl, rfl, rfl⟩
  · exact ⟨rfl, rfl, (List.append_nil _).symm⟩

/-- A payload goes to the device of its network, if there is one. -/
theorem tunHistory_write {networkId id : UInt64} {payload : Bytes} {actions : List NodeAction} {action : NodeAction}
    (hattempt : attemptFor localZtAddress networkId action = none)
    (hpayload : payloadFor networkId action = if id = networkId then some payload else none)
    (h : TunHistory localZtAddress networkId actions (callsFor networkId p.calls) (p.tuns.devices.get? networkId)) :
    TunHistory localZtAddress networkId (actions ++ [action]) (callsFor networkId (p.write id payload).calls)
      ((p.write id payload).tuns.devices.get? networkId) := by
  obtain ⟨htuns, -, hcalls⟩ := write_eq p id payload
  rw [htuns, hcalls, callsFor_append]
  cases hdevice : p.tuns.devices.get? networkId with
  | none =>
    rw [hdevice] at h
    have hnone : callsFor networkId (if p.tuns.devices.contains id then [TunCall.write id payload] else []) = [] := by
      split
      · rename_i hcontains
        refine callsFor_other (one_call (show (TunCall.write id payload).networkId = id from rfl)) ?_
        rintro rfl
        simp [SortedMap.contains, hdevice] at hcontains
      · rfl
    rw [hnone, List.append_nil]
    show _ = _
    rw [List.filterMap_append, List.filterMap_cons, hattempt]
    exact h.trans (List.append_nil _).symm
  | some device =>
    rw [hdevice] at h
    obtain ⟨before, dictData, after, rfl, hmtu, hhistory⟩ := h
    refine ⟨before, dictData, after ++ [action], by simp, hmtu, ?_⟩
    rw [hhistory, List.filterMap_append, List.map_append, ← List.append_assoc]
    congr 1
    rw [List.filterMap_cons, hpayload]
    by_cases hid : id = networkId
    · subst hid
      rw [if_pos (by simp [SortedMap.contains, hdevice]), if_pos rfl]
      exact callsFor_own (one_call rfl)
    · rw [if_neg hid]
      split
      · exact callsFor_other (one_call rfl) hid
      · rfl

variable (p) in
/-- An attempt leaves a device with the name the host gave, or none. -/
theorem create_eq (networkId : UInt64) (dictData : Bytes) :
    ((p.create localZtAddress networkId dictData).tuns = p.tuns ∧
      (p.create localZtAddress networkId dictData).calls =
        p.calls ++ [.create networkId (tunNameForNetwork networkId localZtAddress) (tunMtu dictData)]) ∨
    ∃ name, (p.create localZtAddress networkId dictData).tuns =
        ⟨p.tuns.devices.insert networkId ⟨name, tunMtu dictData⟩, p.tuns.names.insert networkId name⟩ ∧
      (p.create localZtAddress networkId dictData).calls =
        p.calls ++ .create networkId (tunNameForNetwork networkId localZtAddress) (tunMtu dictData) ::
          configureTunFromDictData networkId dictData := by
  unfold TunProgress.create
  cases p.answers.head?.join with
  | none => exact .inl ⟨rfl, rfl⟩
  | some name => exact .inr ⟨name, rfl, rfl⟩

/-- Nothing is done for a network by what is for another. -/
theorem TunHistory.skip {networkId : UInt64} {actions : List NodeAction} {action : NodeAction} {calls : List TunCall}
    {device : Option NativeTun} (hattempt : attemptFor localZtAddress networkId action = none ∨ device.isSome)
    (hpayload : payloadFor networkId action = none)
    (h : TunHistory localZtAddress networkId actions calls device) :
    TunHistory localZtAddress networkId (actions ++ [action]) calls device := by
  cases device with
  | none =>
    show _ = _
    rw [List.filterMap_append, List.filterMap_cons, hattempt.resolve_right (by simp)]
    exact h.trans (List.append_nil _).symm
  | some device =>
    obtain ⟨before, dictData, after, rfl, hmtu, hhistory⟩ := h
    refine ⟨before, dictData, after ++ [action], by simp, hmtu, ?_⟩
    rw [hhistory, List.filterMap_append, List.filterMap_cons, hpayload]
    simp

/-- A configuration makes a device where there is none, and where there is one it does
nothing. -/
theorem tunHistory_configured {networkId id : UInt64} {dictData : Bytes} {actions : List NodeAction}
    (h : TunHistory localZtAddress networkId actions (callsFor networkId p.calls) (p.tuns.devices.get? networkId)) :
    TunHistory localZtAddress networkId (actions ++ [.networkConfigured id dictData])
      (callsFor networkId (handleTunAction localZtAddress p (.networkConfigured id dictData)).calls)
      ((handleTunAction localZtAddress p (.networkConfigured id dictData)).tuns.devices.get? networkId) := by
  unfold handleTunAction
  by_cases hcontains : p.tuns.devices.contains id = true
  · simp only [hcontains, if_true]
    refine h.skip ?_ rfl
    by_cases hid : id = networkId
    · exact .inr (by rw [← hid]; exact hcontains)
    · exact .inl (if_neg hid)
  · simp only [hcontains, Bool.false_eq_true, if_false]
    by_cases hid : id = networkId
    · subst hid
      have hdevice : p.tuns.devices.get? id = none := by
        simpa [SortedMap.contains] using hcontains
      rw [hdevice] at h
      have hattempts : callsFor id p.calls = actions.filterMap (attemptFor localZtAddress id) := h
      have hlast : attemptFor localZtAddress id (.networkConfigured id dictData) =
          some (.create id (tunNameForNetwork id localZtAddress) (tunMtu dictData)) := if_pos rfl
      rcases create_eq p id dictData with ⟨htuns, hcalls⟩ | ⟨name, htuns, hcalls⟩
      · have hone : callsFor id [.create id (tunNameForNetwork id localZtAddress) (tunMtu dictData)] =
            [.create id (tunNameForNetwork id localZtAddress) (tunMtu dictData)] := callsFor_own (one_call rfl)
        rw [htuns, hcalls, hdevice, callsFor_append, hattempts, hone]
        show _ = _
        rw [List.filterMap_append, List.filterMap_cons, hlast]
        rfl
      · rw [htuns, hcalls, callsFor_append, hattempts]
        simp only [SortedMap.get?_insert_self]
        refine ⟨actions, dictData, [], rfl, rfl, ?_⟩
        rw [callsFor_own]
        · simp
        · exact networkId_device id dictData
    · have hothers : callsFor networkId (p.create localZtAddress id dictData).calls = callsFor networkId p.calls ∧
          (p.create localZtAddress id dictData).tuns.devices.get? networkId = p.tuns.devices.get? networkId := by
        have hown : ∀ calls : List TunCall, (∀ call ∈ calls, call.networkId = id) →
            callsFor networkId (p.calls ++ calls) = callsFor networkId p.calls := fun calls hcalls => by
          rw [callsFor_append, callsFor_other hcalls hid, List.append_nil]
        rcases create_eq p id dictData with ⟨htuns, hcalls⟩ | ⟨name, htuns, hcalls⟩
        · rw [htuns, hcalls, hown _ (one_call rfl)]
          exact ⟨rfl, rfl⟩
        · rw [htuns, hcalls, hown _ (networkId_device id dictData)]
          exact ⟨rfl, SortedMap.get?_insert_of_ne _ _ (Ne.symm hid)⟩
      rw [hothers.1, hothers.2]
      exact h.skip (.inl (if_neg hid)) rfl

theorem tunHistory_handleTunAction {networkId : UInt64} {actions : List NodeAction} (action : NodeAction)
    (h : TunHistory localZtAddress networkId actions (callsFor networkId p.calls) (p.tuns.devices.get? networkId)) :
    TunHistory localZtAddress networkId (actions ++ [action])
      (callsFor networkId (handleTunAction localZtAddress p action).calls)
      ((handleTunAction localZtAddress p action).tuns.devices.get? networkId) := by
  cases action with
  | frameReceived id srcMac destMac ethertype payload => exact tunHistory_write rfl rfl h
  | localReply id ethertype payload => exact tunHistory_write rfl rfl h
  | networkConfigured id dictData => exact tunHistory_configured h
  | _ => exact h.skip (.inl rfl) rfl

theorem tunHistory_handleTunActions {networkId : UInt64} {actions : List NodeAction} (more : List NodeAction)
    (h : TunHistory localZtAddress networkId actions (callsFor networkId p.calls) (p.tuns.devices.get? networkId)) :
    TunHistory localZtAddress networkId (actions ++ more) (callsFor networkId (handleTunActions localZtAddress p more).calls)
      ((handleTunActions localZtAddress p more).tuns.devices.get? networkId) := by
  induction more generalizing p actions with
  | nil =>
    rw [List.append_nil]
    exact h
  | cons action rest ih =>
    have hfirst := ih (tunHistory_handleTunAction action h)
    rwa [List.append_assoc] at hfirst

/-- The names listed stay those of the devices. -/
theorem Tuns.Named.handleTunAction (h : p.tuns.Named) (action : NodeAction) :
    (Service.handleTunAction localZtAddress p action).tuns.Named := by
  cases action with
  | frameReceived id srcMac destMac ethertype payload =>
    rw [Service.handleTunAction, (write_eq _ id payload).1]
    exact h
  | localReply id ethertype payload =>
    rw [Service.handleTunAction, (write_eq _ id payload).1]
    exact h
  | networkConfigured id dictData =>
    rw [Service.handleTunAction]
    split
    · exact h
    · rcases create_eq p id dictData with ⟨htuns, -⟩ | ⟨name, htuns, -⟩
      · rw [htuns]
        exact h
      · rw [htuns]
        intro networkId
        simp only [SortedMap.get?_insert]
        split
        · rfl
        · exact h networkId
  | _ => exact h

theorem Tuns.Named.handleTunActions (h : p.tuns.Named) (actions : List NodeAction) :
    (Service.handleTunActions localZtAddress p actions).tuns.Named := by
  induction actions generalizing p with
  | nil => exact h
  | cons action rest ih => exact ih (h.handleTunAction action)

/-! ### What is written -/

theorem mem_write {networkId id : UInt64} {payload data : Bytes} (h : .write networkId payload ∈ (p.write id data).calls) :
    .write networkId payload ∈ p.calls ∨ id = networkId ∧ data = payload := by
  rw [(write_eq p id data).2.2] at h
  rcases List.mem_append.mp h with h | h
  · exact .inl h
  · split at h
    · obtain ⟨rfl, rfl⟩ := TunCall.write.inj (List.mem_singleton.mp h)
      exact .inr ⟨rfl, rfl⟩
    · cases h

/-- Setting a device up writes nothing to it. -/
theorem mem_create {networkId id : UInt64} {payload dictData : Bytes}
    (h : .write networkId payload ∈ (p.create localZtAddress id dictData).calls) : .write networkId payload ∈ p.calls := by
  have hattempt : TunCall.write networkId payload ∉
      TunCall.create id (tunNameForNetwork id localZtAddress) (tunMtu dictData) :: configureTunFromDictData id dictData := by
    simp [configureTunFromDictData]
  rcases create_eq p id dictData with ⟨-, hcalls⟩ | ⟨name, -, hcalls⟩
  · rw [hcalls] at h
    simpa using h
  · rw [hcalls] at h
    exact (List.mem_append.mp h).resolve_right hattempt

/-- What is written for a network is the payload of an action for it. -/
theorem write_handled {actions : List NodeAction} {networkId : UInt64} {payload : Bytes}
    (h : .write networkId payload ∈ (handleTunActions localZtAddress p actions).calls) :
    .write networkId payload ∈ p.calls ∨ ∃ a ∈ actions, payloadFor networkId a = some payload := by
  induction actions generalizing p with
  | nil => exact .inl h
  | cons action rest ih =>
    have hone : .write networkId payload ∈ (handleTunAction localZtAddress p action).calls →
        .write networkId payload ∈ p.calls ∨ payloadFor networkId action = some payload := by
      intro hmem
      cases action with
      | frameReceived id srcMac destMac ethertype data => exact (mem_write hmem).imp_right fun h => by simp [payloadFor, h]
      | localReply id ethertype data => exact (mem_write hmem).imp_right fun h => by simp [payloadFor, h]
      | networkConfigured id dictData =>
        rw [handleTunAction] at hmem
        split at hmem
        · exact .inl hmem
        · exact .inl (mem_create hmem)
      | _ => exact .inl hmem
    rcases ih h with hmem | ⟨a, ha, hpayload⟩
    · rcases hone hmem with hmem | hpayload
      · exact .inl hmem
      · exact .inr ⟨action, List.mem_cons_self, hpayload⟩
    · exact .inr ⟨a, List.mem_cons_of_mem _ ha, hpayload⟩

end Service

end ManyTier
