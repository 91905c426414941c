import ManyTier.Node.Timers
import ManyTier.Service.Daemon

/-! Every turn of the service is made of steps of its node.

What a turn calls of the node are steps, one after the other; that what is queued is taken
is a step as well, one that receives nothing (`step_drained`). `StepOf` says what a turn
has to do with its steps: the datagrams of the turn are theirs, a datagram received is
received by the first of them, every frame it hands to a device comes from that one, and a
frame that goes out was just read or was held. -/
namespace ManyTier

namespace Service
variable {σ : Type} {pr : Primitives} {engine : Option (Controller.Engine σ)}

/-! ### Parts of a turn -/

theorem mem_executeActions {actions : List NodeAction} {data : Bytes} {address : SocketAddr} :
    (data, address) ∈ executeActions actions ↔ .sendTo data address ∈ actions := by
  unfold executeActions
  rw [List.mem_filterMap]
  constructor
  · rintro ⟨a, ha, heq⟩
    cases a <;> cases heq
    exact ha
  · exact fun h => ⟨_, h, rfl⟩

variable (pr) in
/-- That the queue is taken is what receiving no byte does. -/
theorem step_drained (n : Node) (fromAddr : SocketAddr) (now : UInt64) : ∃ o,
    step pr n (.receive [] fromAddr now) = .ok ({ n with actions := [] }, o) := ⟨_, rfl⟩

/-- A step gives the datagram, with no call but those, or leaves it in the queue. -/
def Given (calls : List Call) (t : List (Entry Node Event Output)) (data : Bytes) (address : SocketAddr) : Prop :=
  ∃ x ∈ t, (.sendTo data address ∈ x.output.actions ∧ x.output.calls ⊆ calls) ∨ .sendTo data address ∈ x.after.actions

/-- The steps give the datagrams. -/
def Give (calls : List Call) (t : List (Entry Node Event Output)) (actions : List NodeAction) : Prop :=
  ∀ data address, .sendTo data address ∈ actions → Given calls t data address

/-- Who brings an event of the node: the loop, a device, the controller or the API. -/
inductive EventKind where
  | plain
  | frame
  | answer
  | call
  deriving DecidableEq

def kind : Event → EventKind
  | .outboundFrame _ _ _ _ => .frame
  | .recordPeerCom _ _ _ => .answer
  | .respondConfig _ _ _ _ _ _ => .answer
  | .joinNetwork _ => .call
  | .rejoinNetwork _ => .call
  | .leaveNetwork _ => .call
  | .loadMoon _ => .call
  | .unloadMoon _ => .call
  | _ => .plain

/-- The steps are the loop's own. -/
def Plain (t : List (Entry Node Event Output)) : Prop := ∀ x ∈ t, kind x.event = .plain

theorem Give.mono {calls : List Call} {t t' : List (Entry Node Event Output)} {actions : List NodeAction}
    (h : Give calls t actions) (hsub : ∀ x ∈ t, x ∈ t') : Give calls t' actions := by
  intro data address hmem
  obtain ⟨x, hx, hgiven⟩ := h data address hmem
  exact ⟨x, hsub x hx, hgiven⟩

/-- What is given without a call is given with any. -/
theorem Give.widen {t : List (Entry Node Event Output)} {actions : List NodeAction} (h : Give [] t actions) (calls : List Call) :
    Give calls t actions := by
  intro data address hmem
  obtain ⟨x, hx, ⟨hgiven, hcalls⟩ | hqueued⟩ := h data address hmem
  · exact ⟨x, hx, .inl ⟨hgiven, fun c hc => (nomatch hcalls hc)⟩⟩
  · exact ⟨x, hx, .inr hqueued⟩

/-- A step gives what it hands out. -/
theorem give_one (n n' : Node) (e : Event) (o : Output) : Give o.calls [⟨n, e, o, n'⟩] o.actions :=
  fun _ _ hmem => ⟨_, List.mem_cons_self, .inl ⟨hmem, fun _ h => h⟩⟩

variable (pr) in
/-- The addresses that are missing are asked for in one step, if there are any. -/
theorem run_drainWhois (n : Node) (actionSets : List (List NodeAction)) (now : UInt64) :
    ∃ t, NodeRun pr n t (drainWhoisActionsFromSets pr n actionSets now).1 ∧ Plain t ∧
      Give [] t (drainWhoisActionsFromSets pr n actionSets now).2 := by
  have hasked : ∀ targets : List (ByteVec 5),
      let drained := if targets.isEmpty then (n, []) else n.sendWhois pr targets now
      ∃ t, NodeRun pr n t drained.1 ∧ Plain t ∧ Give [] t drained.2 := by
    intro targets
    split
    · exact ⟨[], .nil, fun _ h => (nomatch h), fun _ _ h => (nomatch h)⟩
    · have hstep : step pr n (.sendWhois targets now) =
          .ok ((n.sendWhois pr targets now).1, ⟨(n.sendWhois pr targets now).2, []⟩) := rfl
      refine ⟨_, Run.one hstep, fun x hx => ?_, give_one n _ _ ⟨_, []⟩⟩
      obtain rfl := List.mem_singleton.mp hx
      rfl
  exact hasked _

/-- A call of the node and what is asked for after it. -/
theorem run_called {n m : Node} {t : List (Entry Node Event Output)} (actions : List NodeAction) (now : UInt64)
    (hrun : NodeRun pr n t m) (hgive : Give [] t actions) :
    ∃ t', NodeRun pr n (t ++ t') (drainWhoisActions pr m actions now).1 ∧ Plain t' ∧
      ∀ data address, (data, address) ∈ executeActions actions ++ executeActions (drainWhoisActions pr m actions now).2 →
        Given [] (t ++ t') data address := by
  obtain ⟨t', hdrain, hframeless, hasked⟩ := run_drainWhois pr m [actions] now
  refine ⟨t', hrun.append hdrain, hframeless, fun data address hmem => ?_⟩
  rcases List.mem_append.mp hmem with hmem | hmem
  · exact hgive.mono (fun _ h => List.mem_append_left _ h) data address (mem_executeActions.mp hmem)
  · exact hasked.mono (fun _ h => List.mem_append_right _ h) data address (mem_executeActions.mp hmem)

/-! ### The controller -/

/-- From one state of the records to the next some requests were put to the controller. -/
def Served (pr : Primitives) (engine : Controller.Engine σ) (now : UInt64) (records records' : σ) : Prop :=
  ∃ t, Run (engine.step pr) records t records' ∧
    ∀ x ∈ t, ∃ networkId requester, x.event = .configRequest networkId requester now

theorem Served.refl {engine : Controller.Engine σ} {now : UInt64} (records : σ) : Served pr engine now records records :=
  ⟨[], .nil, fun _ h => nomatch h⟩

theorem Served.trans {engine : Controller.Engine σ} {now : UInt64} {a b c : σ} (h : Served pr engine now a b)
    (h' : Served pr engine now b c) : Served pr engine now a c := by
  obtain ⟨t, hrun, hevents⟩ := h
  obtain ⟨t', hrun', hevents'⟩ := h'
  refine ⟨t ++ t', hrun.append hrun', fun x hx => ?_⟩
  rcases List.mem_append.mp hx with hx | hx
  · exact hevents x hx
  · exact hevents' x hx

theorem Served.one {engine : Controller.Engine σ} {now networkId : UInt64} {requester : ByteVec 5} {records records' : σ}
    {outcome : Except Controller.Failure Controller.ConfigResponse}
    (h : (engine.handleConfigRequest pr networkId requester now).run records = (outcome, records')) :
    Served pr engine now records records' := by
  have hstep : ∃ reply, engine.step pr records (.configRequest networkId requester now) = .ok (records', reply) := by
    rw [Controller.Engine.step_eq, Controller.Engine.execute]
    cases outcome with
    | error e => exact ⟨_, by rw [Attempt.run_bind_error h]⟩
    | ok response =>
      rw [Attempt.run_bind_ok h]
      exact ⟨_, rfl⟩
  obtain ⟨reply, hstep⟩ := hstep
  refine ⟨_, Run.one hstep, fun x hx => ?_⟩
  obtain rfl := List.mem_singleton.mp hx
  exact ⟨networkId, requester, rfl⟩

/-- A step that answers one of the requests: what the controller issued for it is recorded
or sent. `first` is what the records were when the turn began. -/
def AnswersOne (pr : Primitives) (engine : Controller.Engine σ) (now : UInt64) (first : σ) (actions : List NodeAction)
    (x : Entry Node Event Output) : Prop :=
  ∃ requester networkId dictData fromAddr packetId records response records',
    .networkConfigRequested requester networkId dictData fromAddr packetId ∈ actions ∧
    Served pr engine now first records ∧
    (engine.handleConfigRequest pr networkId requester now).run records = (.ok response, records') ∧
    (x.event = .respondConfig requester packetId networkId response.config.dictData response.credentials fromAddr ∨
      ∃ com, response.credentials.com = some com ∧ x.event = .recordPeerCom networkId requester com)

theorem AnswersOne.kind {engine : Controller.Engine σ} {now : UInt64} {first : σ} {actions : List NodeAction}
    {x : Entry Node Event Output} (h : AnswersOne pr engine now first actions x) : Service.kind x.event = .answer := by
  obtain ⟨_, _, _, _, _, _, _, _, -, -, -, hrespond | ⟨_, -, hrecord⟩⟩ := h
  · rw [hrespond]
    rfl
  · rw [hrecord]
    rfl

/-- One action: its answer, if it is a request, is at most two steps. -/
theorem run_controllerAction {engine : Controller.Engine σ} {now : UInt64} {s s' : Node × σ} {action : NodeAction}
    (h : handleControllerAction pr engine now s action = .ok s') :
    Served pr engine now s.2 s'.2 ∧ ∃ t, NodeRun pr s.1 t s'.1 ∧ (∀ x ∈ t, AnswersOne pr engine now s.2 [action] x) ∧
      s'.1.actions.filter NodeAction.isForHost = s.1.actions.filter NodeAction.isForHost := by
  unfold handleControllerAction at h
  split at h
  · rename_i requester networkId dictData fromAddr packetId
    split at h
    · cases h
    · rename_i records hserved
      cases h
      exact ⟨.one hserved, [], .nil, fun _ hx => (nomatch hx), rfl⟩
    · rename_i response records hserved
      obtain ⟨m, hm, heq⟩ := bind_eq_ok h
      cases heq
      refine ⟨.one hserved, ?_⟩
      have hanswers : ∀ x : Entry Node Event Output,
          (x.event = .respondConfig requester packetId networkId response.config.dictData response.credentials fromAddr ∨
            ∃ com, response.credentials.com = some com ∧ x.event = .recordPeerCom networkId requester com) →
          AnswersOne pr engine now s.2 [.networkConfigRequested requester networkId dictData fromAddr packetId] x :=
        fun x hx => ⟨_, _, _, _, _, _, _, _, List.mem_cons_self, .refl _, hserved, hx⟩
      have hrespond : ∀ n, respondConfig pr n requester packetId networkId response.config.dictData
          response.credentials fromAddr = .ok m →
          step pr n (.respondConfig requester packetId networkId response.config.dictData response.credentials fromAddr) =
            .ok (m, ⟨[], []⟩) := by
        intro n hn
        simp only [step, hn]
        rfl
      cases hcom : response.credentials.com with
      | none =>
        rw [hcom] at hm
        refine ⟨_, Run.one (hrespond _ hm), fun x hx => ?_, (onlySends_respondConfig pr hm).frames⟩
        obtain rfl := List.mem_singleton.mp hx
        exact hanswers _ (.inl rfl)
      | some com =>
        rw [hcom] at hm
        have hrecord : step pr s.1 (.recordPeerCom networkId requester com) =
            .ok (recordPeerCom s.1 networkId requester com, ⟨[], []⟩) := rfl
        refine ⟨_, (Run.one hrecord).snoc (hrespond _ hm), fun x hx => ?_, (onlySends_respondConfig pr hm).frames⟩
        rcases List.mem_append.mp hx with hx | hx
        · obtain rfl := List.mem_singleton.mp hx
          exact hanswers _ (.inr ⟨com, hcom, rfl⟩)
        · obtain rfl := List.mem_singleton.mp hx
          exact hanswers _ (.inl rfl)
  · cases h
    exact ⟨.refl _, [], .nil, fun _ hx => (nomatch hx), rfl⟩

/-- The requests are answered one after the other. -/
theorem run_controllerActions {engine : Controller.Engine σ} {now : UInt64} {s s' : Node × σ} {actions : List NodeAction}
    (h : handleControllerActions pr engine now s actions = .ok s') :
    Served pr engine now s.2 s'.2 ∧ ∃ t, NodeRun pr s.1 t s'.1 ∧ (∀ x ∈ t, AnswersOne pr engine now s.2 actions x) ∧
      s'.1.actions.filter NodeAction.isForHost = s.1.actions.filter NodeAction.isForHost := by
  unfold handleControllerActions at h
  induction actions generalizing s with
  | nil =>
    cases h
    exact ⟨.refl _, [], .nil, fun _ hx => (nomatch hx), rfl⟩
  | cons action rest ih =>
    rw [List.foldlM_cons] at h
    obtain ⟨s₁, hfirst, hrest⟩ := bind_eq_ok h
    obtain ⟨hserved, t, hrun, hanswers, hframes⟩ := run_controllerAction hfirst
    obtain ⟨hserved', t', hrun', hanswers', hframes'⟩ := ih hrest
    refine ⟨hserved.trans hserved', t ++ t', hrun.append hrun', fun x hx => ?_, hframes'.trans hframes⟩
    rcases List.mem_append.mp hx with hx | hx
    · obtain ⟨requester, networkId, dictData, fromAddr, packetId, records, response, records', hmem, hanswer⟩ := hanswers x hx
      exact ⟨requester, networkId, dictData, fromAddr, packetId, records, response, records',
        List.mem_cons.mpr (.inl (List.mem_singleton.mp hmem)), hanswer⟩
    · obtain ⟨requester, networkId, dictData, fromAddr, packetId, records, response, records', hmem, hbefore, hanswer⟩ :=
        hanswers' x hx
      exact ⟨requester, networkId, dictData, fromAddr, packetId, records, response, records', List.mem_cons_of_mem _ hmem,
        hserved.trans hbefore, hanswer⟩

/-- The requests of a turn are answered if there is a controller; nothing it queues is for
the host. -/
theorem run_answered {now : UInt64} {n n' : Node} {records records' : σ} {actions : List NodeAction}
    (h : answerRequests pr engine now (n, records) actions = .ok (n', records')) (hqueue : n.actions = []) :
    ∃ t, NodeRun pr n t n' ∧ n'.actions.filter NodeAction.isForHost = [] ∧
      ∀ x ∈ t, ∃ c, engine = some c ∧ AnswersOne pr c now records actions x := by
  cases engine with
  | none =>
    cases h
    exact ⟨[], .nil, by rw [hqueue]; rfl, fun _ h => nomatch h⟩
  | some c =>
    obtain ⟨-, t, hrun, hanswers, hforHost⟩ := run_controllerActions h
    exact ⟨t, hrun, by rw [hforHost, hqueue]; rfl, fun x hx => ⟨c, rfl, hanswers x hx⟩⟩

/-! ### Held frames -/

/-- Each frame that is tried again is given to the node in a step of its own. -/
theorem run_swept {late : PendingFrame → Prop} {ours : ByteVec 5} {now : UInt64} {n n' : Node}
    {found : List (PendingFrame × Finding (List NodeAction))} (hours : n.address = ours)
    (hswept : Swept late (answerHeld (nodeHost pr) ours now) n found n') :
    ∃ t, NodeRun pr n t n' ∧
      (∀ x ∈ t, ∃ held ∈ found.map Prod.fst, x.event = .outboundFrame held.networkId held.ethertype held.frame now) ∧
      ∀ e ∈ found, ∀ actions, e.2 = .answered actions → Give [] t actions := by
  induction hswept with
  | nil n => exact ⟨[], .nil, fun _ h => (nomatch h), fun _ h => nomatch h⟩
  | @late n n' held found _ _ ih =>
    obtain ⟨t, hrun, hevents, hgive⟩ := ih hours
    refine ⟨t, hrun, fun x hx => ?_, fun e he actions hactions => ?_⟩
    · obtain ⟨other, hother, hevent⟩ := hevents x hx
      exact ⟨other, List.mem_cons_of_mem _ hother, hevent⟩
    · rcases List.mem_cons.mp he with rfl | he
      · cases hactions
      · exact hgive e he actions hactions
  | @answered n n₁ n' held actions found _ hanswer _ ih =>
    have hprocessed : Vl2.processOutboundFrame pr n held.networkId held.ethertype held.frame n.address now =
        .ok (n₁, actions) := by
      rw [hours]
      exact hanswer
    have hours₁ : n₁.address = ours := by
      rw [← hours]
      exact congrArg (·.address.bytes) (Node.keeps_processOutboundFrame pr hprocessed).1.identity
    obtain ⟨t, hrun, hevents, hgive⟩ := ih hours₁
    have hstep : step pr n (.outboundFrame held.networkId held.ethertype held.frame now) = .ok (n₁, ⟨actions, []⟩) := by
      simp only [step, hprocessed]
      rfl
    refine ⟨_ :: t, (Run.one hstep).append hrun, fun x hx => ?_, fun e he actions' hactions => ?_⟩
    · rcases List.mem_cons.mp hx with rfl | hx
      · exact ⟨held, List.mem_cons_self, rfl⟩
      · obtain ⟨other, hother, hevent⟩ := hevents x hx
        exact ⟨other, List.mem_cons_of_mem _ hother, hevent⟩
    · rcases List.mem_cons.mp he with rfl | he
      · cases hactions
        exact (give_one n n₁ _ ⟨actions, []⟩).mono fun x hx => List.mem_cons.mpr (.inl (List.mem_singleton.mp hx))
      · exact (hgive e he actions' hactions).mono fun x hx => List.mem_cons_of_mem _ hx

/-- What a sweep of the held frames makes the node do. -/
theorem run_retried {n : Node} {pending : List PendingFrame} {now : UInt64} {sendWhois : Bool} {held : HeldFrames Node}
    {transmitted : Transmitted} (h : retryPendingFrames (nodeHost pr) ⟨n, pending⟩ now sendWhois = .ok (held, transmitted)) :
    ∃ t, NodeRun pr n t held.node ∧
      (∀ x ∈ t, kind x.event = .plain ∨
        ∃ waiting ∈ pending, x.event = .outboundFrame waiting.networkId waiting.ethertype waiting.frame now) ∧
      Give [] t transmitted.sends ∧ Give [] t transmitted.whoisActions := by
  obtain ⟨r, hloop, hdone⟩ := bind_eq_ok h
  obtain ⟨found, hswept, hframes, hsends, -⟩ := foldlM_retryOne hloop
  obtain ⟨t, hrun, hevents, hgive⟩ := run_swept rfl hswept
  rw [hframes] at hevents
  have hdrain : transmitted.sends = r.sends ∧
      ∃ t', NodeRun pr r.node t' held.node ∧ Plain t' ∧ Give [] t' transmitted.whoisActions := by
    cases sendWhois with
    | false =>
      cases hdone
      exact ⟨rfl, [], .nil, fun _ h => absurd h List.not_mem_nil, fun _ _ h => absurd h List.not_mem_nil⟩
    | true =>
      cases hdone
      exact ⟨rfl, run_drainWhois pr r.node [r.whoisNeeded] now⟩
  obtain ⟨hsame, t', hrun', hplain, hasked⟩ := hdrain
  have hgathered : transmitted.sends = (found.filterMap fun e => e.2.leaving flushes).flatten := hsame.trans hsends
  have hall : Give [] t transmitted.sends := by
    intro data address hmem
    rw [hgathered, List.mem_flatten] at hmem
    obtain ⟨actions, hactions, hmem⟩ := hmem
    obtain ⟨⟨frame, finding⟩, he, hleaving⟩ := List.mem_filterMap.mp hactions
    cases finding with
    | late => cases hleaving
    | answered b =>
      obtain ⟨-, rfl⟩ : flushes b = true ∧ b = actions := by simpa [Finding.leaving] using hleaving
      exact hgive _ he _ rfl data address hmem
  refine ⟨t ++ t', hrun.append hrun', fun x hx => ?_, hall.mono fun _ h => List.mem_append_left _ h,
    hasked.mono fun _ h => List.mem_append_right _ h⟩
  rcases List.mem_append.mp hx with hx | hx
  · exact .inr (hevents x hx)
  · exact .inl (hplain x hx)

/-! ### Turns -/

/-- Whether the event is a call of the API. -/
def DaemonEvent.isCall : DaemonEvent σ → Bool
  | .joinNetwork _ _ => true
  | .leaveNetwork _ _ => true
  | .orbitMoon _ _ => true
  | .deorbitMoon _ => true
  | _ => false

def DaemonEvent.isReceived : DaemonEvent σ → Bool
  | .udpReceived _ _ _ _ => true
  | _ => false

/-- What the steps of the node have to do with the turn they make up. -/
structure StepOf (pr : Primitives) (engine : Option (Controller.Engine σ))
    (e : Entry (Daemon σ) (DaemonEvent σ) DaemonOutput) (t : List (Entry Node Event Output)) : Prop where
  sent : ∀ data address, (data, address) ∈ e.output.sent → Given e.output.calls t data address
  framed : ∀ x ∈ t, ∀ networkId ethertype payload now, x.event = .outboundFrame networkId ethertype payload now →
    (e.event = .tunRead networkId payload now ∧ tunEthertype payload = some ethertype) ∨
      ∃ held ∈ e.before.pendingFrames, held.networkId = networkId ∧ held.ethertype = ethertype ∧ held.frame = payload
  called : e.event.isCall = false → ∀ x ∈ t, kind x.event ≠ .call
  quiet : e.event.isReceived = false → e.output.calls = [] ∧ (∀ a ∈ e.output.handed, a.isForHost = false) ∧
    ∀ x ∈ t, kind x.event ≠ .answer
  received : ∀ data fromAddr now answers, e.event = .udpReceived data fromAddr now answers →
    ∃ x rest, t = x :: rest ∧ x.before = e.before.node ∧
      x.event = .receive (data.take udpBufferSize) fromAddr now ∧ x.output.calls = e.output.calls ∧
      (∀ a ∈ e.output.handed, a.isForHost = true → a ∈ x.output.actions) ∧
      ∀ y ∈ rest, kind y.event = .answer → ∃ c, engine = some c ∧ AnswersOne pr c now e.before.records x.output.actions y

/-- In a turn that received a packet the controller issued a configuration to a requester. -/
def IssuedIn (pr : Primitives) (engine : Controller.Engine σ) (e : Entry (Daemon σ) (DaemonEvent σ) DaemonOutput)
    (requester : ByteVec 5) (networkId : UInt64) (response : Controller.ConfigResponse) : Prop :=
  ∃ data fromAddr now answers records records', e.event = .udpReceived data fromAddr now answers ∧
    Served pr engine now e.before.records records ∧
    (engine.handleConfigRequest pr networkId requester now).run records = (.ok response, records')

/-- What is sent in answer to a request the controller issued in the turn. -/
theorem StepOf.issued {engine : Option (Controller.Engine σ)} {e : Entry (Daemon σ) (DaemonEvent σ) DaemonOutput}
    {t : List (Entry Node Event Output)} (h : StepOf pr engine e t) {x : Entry Node Event Output} (hx : x ∈ t)
    {requester : ByteVec 5} {packetId networkId : UInt64} {dictData : Bytes} {credentials : NetworkCredentialsPayload}
    {fromAddr : SocketAddr}
    (hevent : x.event = .respondConfig requester packetId networkId dictData credentials fromAddr) :
    ∃ c response, engine = some c ∧ IssuedIn pr c e requester networkId response ∧
      dictData = response.config.dictData ∧ credentials = response.credentials := by
  have hkind : kind x.event = .answer := by rw [hevent]; rfl
  cases hturn : e.event with
  | udpReceived data fromAddr' now answers =>
    obtain ⟨y, rest, rfl, -, hyevent, -, -, hrest⟩ := h.received data fromAddr' now answers hturn
    rcases List.mem_cons.mp hx with rfl | hx
    · rw [hyevent] at hkind
      cases hkind
    · obtain ⟨c, hc, _, _, _, _, _, records, response, records', -, hserved, hissued, hanswer⟩ := hrest x hx hkind
      rcases hanswer with hrespond | ⟨com, -, hrecord⟩
      · rw [hevent] at hrespond
        cases hrespond
        exact ⟨c, response, hc, ⟨data, fromAddr', now, answers, records, records', hturn, hserved, hissued⟩, rfl, rfl⟩
      · rw [hevent] at hrecord
        cases hrecord
  | _ => exact absurd hkind ((h.quiet (by rw [hturn]; rfl)).2.2 x hx)

/-- A step that is not a frame of the host has nothing to do with one. -/
theorem not_framed {x : Entry Node Event Output} (h : kind x.event ≠ .frame) (networkId : UInt64) (ethertype : UInt16)
    (payload : Bytes) (now : UInt64) : x.event ≠ .outboundFrame networkId ethertype payload now := by
  intro hevent
  rw [hevent] at h
  exact h rfl

section
variable {e : Entry (Daemon σ) (DaemonEvent σ) DaemonOutput} {t : List (Entry Node Event Output)}

/-- The frame was just read, or it was held. -/
def ReadOrHeld (e : Entry (Daemon σ) (DaemonEvent σ) DaemonOutput) (x : Entry Node Event Output) : Prop :=
  ∃ networkId ethertype payload now, x.event = .outboundFrame networkId ethertype payload now ∧
    ((e.event = .tunRead networkId payload now ∧ tunEthertype payload = some ethertype) ∨
      ∃ held ∈ e.before.pendingFrames, held.networkId = networkId ∧ held.ethertype = ethertype ∧ held.frame = payload)

/-- A turn of the loop that receives nothing. -/
theorem StepOf.of_frames (hreceived : e.event.isReceived = false) (hsteps : ∀ x ∈ t, kind x.event = .plain ∨ ReadOrHeld e x)
    (hcalls : e.output.calls = []) (hhanded : ∀ a ∈ e.output.handed, a.isForHost = false)
    (hsent : ∀ data address, (data, address) ∈ e.output.sent → Given [] t data address) :
    StepOf pr engine e t := by
  have hkind : ∀ x ∈ t, ∀ k, k ≠ EventKind.plain → k ≠ EventKind.frame → kind x.event ≠ k := by
    intro x hx k hplain hframe hkind
    rcases hsteps x hx with hevent | ⟨_, _, _, _, hevent, -⟩
    · exact hplain (hkind.symm.trans hevent)
    · rw [hevent] at hkind
      exact hframe hkind.symm
  refine ⟨hcalls.symm ▸ hsent, fun x hx networkId ethertype payload now hevent => ?_,
    fun _ x hx => hkind x hx _ (by decide) (by decide),
    fun _ => ⟨hcalls, hhanded, fun x hx => hkind x hx _ (by decide) (by decide)⟩,
    fun data fromAddr now answers hevent => ?_⟩
  · rcases hsteps x hx with hplain | ⟨_, _, _, _, hframe, hgiven⟩
    · rw [hevent] at hplain
      cases hplain
    · rw [hevent] at hframe
      cases hframe
      exact hgiven
  · rw [hevent] at hreceived
    cases hreceived

/-- A call of the API sends nothing, whatever its steps are. -/
theorem StepOf.of_call (hcall : e.event.isCall = true) (hreceived : e.event.isReceived = false)
    (hsent : e.output.sent = []) (hcalls : e.output.calls = []) (hhanded : e.output.handed = [])
    (hsteps : ∀ x ∈ t, kind x.event = .call) : StepOf pr engine e t := by
  have hkind : ∀ x ∈ t, ∀ k, k ≠ EventKind.call → kind x.event ≠ k := fun x hx k hk hkind => by
    rw [hsteps x hx] at hkind
    exact hk hkind.symm
  refine ⟨?_, fun x hx networkId ethertype payload now hevent => ?_, fun hno => ?_, fun _ => ⟨hcalls, ?_, fun x hx =>
    hkind x hx _ (by decide)⟩, fun data fromAddr now answers hevent => ?_⟩
  · rw [hsent]
    exact fun _ _ h => nomatch h
  · exact absurd hevent (not_framed (hkind x hx _ (by decide)) _ _ _ _)
  · rw [hcall] at hno
    cases hno
  · rw [hhanded]
    exact fun _ h => nomatch h
  · rw [hevent] at hreceived
    cases hreceived

/-- A turn that receives: behind the step that does come the answers of the controller and
steps of the loop. -/
theorem StepOf.of_received {data : Bytes} {fromAddr : SocketAddr} {now : UInt64} {answers : List (Option Bytes)}
    {x : Entry Node Event Output} (hturn : e.event = .udpReceived data fromAddr now answers) (hbefore : x.before = e.before.node)
    (hevent : x.event = .receive (data.take udpBufferSize) fromAddr now) (hcalls : x.output.calls = e.output.calls)
    (hhanded : ∀ a ∈ e.output.handed, a.isForHost = true → a ∈ x.output.actions)
    (hrest : ∀ y ∈ t, kind y.event = .plain ∨ ∃ c, engine = some c ∧ AnswersOne pr c now e.before.records x.output.actions y)
    (hsent : ∀ data address, (data, address) ∈ e.output.sent → Given e.output.calls (x :: t) data address) :
    StepOf pr engine e (x :: t) := by
  have hkind : ∀ y ∈ x :: t, ∀ k, k ≠ EventKind.plain → k ≠ EventKind.answer → kind y.event ≠ k := by
    intro y hy k hplain hanswer hkind
    rcases List.mem_cons.mp hy with rfl | hy
    · rw [hevent] at hkind
      exact hplain hkind.symm
    · rcases hrest y hy with hevent' | ⟨c, -, hone⟩
      · exact hplain (hkind.symm.trans hevent')
      · exact hanswer (hkind.symm.trans hone.kind)
  refine ⟨hsent, fun y hy networkId ethertype payload now' hframe => ?_, fun _ y hy => hkind y hy _ (by decide) (by decide),
    fun hno => ?_, fun data' fromAddr' now' answers' hturn' => ?_⟩
  · exact absurd hframe (not_framed (hkind y hy _ (by decide) (by decide)) _ _ _ _)
  · rw [hturn] at hno
    cases hno
  · obtain ⟨rfl, rfl, rfl, rfl⟩ := DaemonEvent.udpReceived.inj (hturn.symm.trans hturn')
    refine ⟨x, t, rfl, hbefore, hevent, hcalls, hhanded, fun y hy hanswer => ?_⟩
    refine (hrest y hy).resolve_left fun hplain => ?_
    rw [hplain] at hanswer
    cases hanswer

end

/-! ### Each event -/

variable {d d' : Daemon σ} {o : DaemonOutput}

/-- A turn in which nothing is done. -/
theorem stepOf_idle {event : DaemonEvent σ} (hreceived : event.isReceived = false) (hout : o = .none) :
    StepOf pr engine ⟨d, event, o, d'⟩ [] := by
  subst hout
  exact .of_frames hreceived (fun _ h => nomatch h) rfl (fun _ h => nomatch h) fun _ _ h => nomatch h

/-- A turn that calls the node once and asks for what is missing. -/
theorem stepOf_once {event : DaemonEvent σ} {n : Node} {node : Event} {called drained : Node × List NodeAction} {now : UInt64}
    {before : List (Entry Node Event Output)} (hbefore : NodeRun pr d.node before n) (hplain : Plain before)
    (hstep : step pr n node = .ok (called.1, ⟨called.2, []⟩))
    (hkind : kind node = .plain ∨ ReadOrHeld ⟨d, event, o, d'⟩ ⟨n, node, ⟨called.2, []⟩, called.1⟩)
    (hreceived : event.isReceived = false) (hdrained : drainWhoisActions pr called.1 called.2 now = drained)
    (hnode : d'.node = drained.1) (hsent : o.sent = executeActions called.2 ++ executeActions drained.2)
    (hcalls : o.calls = []) (hhanded : ∀ a ∈ o.handed, a.isForHost = false) :
    ∃ t, NodeRun pr d.node t d'.node ∧ StepOf pr engine ⟨d, event, o, d'⟩ t := by
  subst hdrained
  obtain ⟨t', hrun, hasked, hgiven⟩ := run_called called.2 now (hbefore.snoc hstep)
    ((give_one n called.1 node ⟨called.2, []⟩).mono fun _ => List.mem_append_right _)
  refine ⟨_, hnode ▸ hrun, .of_frames hreceived (fun x hx => ?_) hcalls hhanded fun data address hmem => ?_⟩
  · rcases List.mem_append.mp hx with hx | hx
    · rcases List.mem_append.mp hx with hx | hx
      · exact .inl (hplain x hx)
      · obtain rfl := List.mem_singleton.mp hx
        exact hkind
    · exact .inl (hasked x hx)
  · have hmem' : (data, address) ∈ o.sent := hmem
    rw [hsent] at hmem'
    exact hgiven data address hmem'

/-- What a datagram makes the node do: it receives it, the controller's answers are queued,
what is queued is taken, and the addresses that are missing are asked for. -/
theorem run_received {n m : Node} {data : Bytes} {fromAddr : SocketAddr} {now : UInt64} {received : Received}
    {records records' : σ} (hreceived : n.receivePacket pr data fromAddr now = .ok received)
    (hanswered : answerRequests pr engine now (received.node, records) received.actions = .ok (m, records')) :
    let drained := drainWhoisActionsFromSets pr { m with actions := [] } [received.actions, m.actions] now
    let first : Entry Node Event Output := ⟨n, .receive data fromAddr now, ⟨received.actions, received.calls⟩, received.node⟩
    m.actions.filter NodeAction.isForHost = [] ∧ ∃ t, NodeRun pr n (first :: t) drained.1 ∧
      (∀ x ∈ t, kind x.event = .plain ∨ ∃ c, engine = some c ∧ AnswersOne pr c now records received.actions x) ∧
      Give received.calls (first :: t) (received.actions ++ m.actions) ∧ Give [] (first :: t) drained.2 := by
  intro drained first
  have hstep : step pr n (.receive data fromAddr now) = .ok (received.node, ⟨received.actions, received.calls⟩) := by
    simp only [step, hreceived]
    rfl
  obtain ⟨t, hrun, hforHost, hanswers⟩ := run_answered hanswered (Node.accounts_receiveFuel hreceived).queue
  obtain ⟨o, htaken⟩ := step_drained pr m fromAddr now
  obtain ⟨t', hrun', hplain, hasked⟩ := run_drainWhois pr { m with actions := [] } [received.actions, m.actions] now
  refine ⟨hforHost, t ++ [_] ++ t', (Run.one hstep).append ((hrun.snoc htaken).append hrun'), fun x hx => ?_,
    fun packet address hmem => ?_,
    hasked.mono fun x hx => List.mem_cons_of_mem _ (List.mem_append_right _ hx)⟩
  · rcases List.mem_append.mp hx with hx | hx
    · rcases List.mem_append.mp hx with hx | hx
      · exact .inr (hanswers x hx)
      · obtain rfl := List.mem_singleton.mp hx
        exact .inl rfl
    · exact .inl (hplain x hx)
  · rcases List.mem_append.mp hmem with hmem | hmem
    · exact ⟨first, List.mem_cons_self, .inl ⟨hmem, fun _ h => h⟩⟩
    -- The queue is that of the last step before it is taken.
    · obtain ⟨x, hx, rfl⟩ := ((Run.one hstep).append hrun).exists_last (List.cons_ne_nil _ _)
      refine ⟨x, ?_, .inr hmem⟩
      rw [List.append_assoc]
      exact List.mem_append_left _ hx

/-- A call of the API is a step of the node, or none. -/
theorem stepOf_call {event : DaemonEvent σ} {node : Event} (hcall : event.isCall = true)
    (hreceived : event.isReceived = false) (hkind : kind node = .call)
    (hstep : d'.node = d.node ∨ step pr d.node node = .ok (d'.node, ⟨[], []⟩))
    (hout : ∃ reply, o = { DaemonOutput.none with reply }) :
    ∃ t, NodeRun pr d.node t d'.node ∧ StepOf pr engine ⟨d, event, o, d'⟩ t := by
  obtain ⟨reply, rfl⟩ := hout
  rcases hstep with hstep | hstep
  · exact ⟨[], hstep ▸ .nil, .of_call hcall hreceived rfl rfl rfl fun _ h => nomatch h⟩
  · refine ⟨_, Run.one hstep, .of_call hcall hreceived rfl rfl rfl fun x hx => ?_⟩
    obtain rfl := List.mem_singleton.mp hx
    exact hkind

variable (pr) in
/-- Joining through the API is a step of the node, or none. -/
theorem step_joinNetwork (n : Node) (markers : List Bytes) (tunNames : SortedMap UInt64 Bytes) (id : Bytes) (written : Bool) :
    ∃ node, kind node = .call ∧ ((Api.joinNetwork n markers tunNames id written).1.1 = n ∨
      step pr n node = .ok ((Api.joinNetwork n markers tunNames id written).1.1, ⟨[], []⟩)) := by
  unfold Api.joinNetwork
  split
  · exact ⟨.rejoinNetwork 0, rfl, .inl rfl⟩
  · rename_i networkId _
    split
    · exact ⟨.rejoinNetwork networkId, rfl, .inr rfl⟩
    · exact ⟨.joinNetwork (.new networkId defaultNetworkMtu), rfl, .inr rfl⟩

variable (pr) in
theorem step_leaveNetwork (n : Node) (markers : List Bytes) (id : Bytes) (removed : Bool) :
    ∃ node, kind node = .call ∧ ((Api.leaveNetwork n markers id removed).1.1 = n ∨
      step pr n node = .ok ((Api.leaveNetwork n markers id removed).1.1, ⟨[], []⟩)) := by
  unfold Api.leaveNetwork
  split
  · exact ⟨.leaveNetwork 0, rfl, .inl rfl⟩
  · rename_i networkId _
    exact ⟨.leaveNetwork networkId, rfl, .inr rfl⟩

theorem step_orbitMoon {n n' : Node} {id : Bytes} {file : Option Bytes} {reply : Except StatusCode MoonResponse}
    (h : Api.orbitMoon pr n id file = .ok (n', reply)) :
    ∃ node, kind node = .call ∧ (n' = n ∨ step pr n node = .ok (n', ⟨[], []⟩)) := by
  rcases Api.orbitMoon_cases h with rfl | ⟨world, topology, -, hloaded, rfl⟩
  · exact ⟨.unloadMoon 0, rfl, .inl rfl⟩
  · refine ⟨.loadMoon world, rfl, .inr ?_⟩
    simp only [step, hloaded]
    rfl

variable (pr) in
theorem step_deorbitMoon (n : Node) (id : Bytes) :
    ∃ node, kind node = .call ∧ ((Api.deorbitMoon n id).1 = n ∨
      step pr n node = .ok ((Api.deorbitMoon n id).1, ⟨[], []⟩)) := by
  unfold Api.deorbitMoon
  split
  · exact ⟨.unloadMoon 0, rfl, .inl rfl⟩
  · rename_i moonId _
    exact ⟨.unloadMoon moonId, rfl, .inr rfl⟩

/-- **The service is made of its node**: every turn and every call is a run of node steps. -/
theorem daemon_madeOf (pr : Primitives) (engine : Option (Controller.Engine σ)) :
    MadeOf (daemonStep pr engine) (step pr) Daemon.node (StepOf pr engine) := by
  rintro ⟨d, event, o, d'⟩ h
  cases daemonStep_turn (show daemonStep pr engine d event = .ok (d', o) from h) with
  | @bootstrap now called drained hcalled hdrained =>
    have hstep : step pr d.node (.bootstrap now) = .ok (called.1, ⟨called.2, []⟩) := hcalled ▸ rfl
    exact stepOf_once .nil (fun _ h => nomatch h) hstep (.inl rfl) rfl hdrained rfl rfl rfl fun _ h => nomatch h
  | @udpReceived data fromAddr now answers received m records drained p hreceived hanswered hdrained hhandled =>
    obtain ⟨hforHost, t, hrun, hrest, hgiven, hasked⟩ := run_received hreceived hanswered
    rw [hdrained] at hrun hasked
    refine ⟨_, hrun, .of_received rfl rfl rfl rfl (fun a ha hhost => ?_) hrest fun packet address hmem => ?_⟩
    · refine (List.mem_append.mp ha).resolve_right fun hqueued => ?_
      exact List.filter_eq_nil_iff.mp hforHost a hqueued hhost
    · rcases List.mem_append.mp hmem with hmem | hmem
      · refine hgiven packet address (List.mem_append.mpr ?_)
        exact (List.mem_append.mp hmem).imp mem_executeActions.mp mem_executeActions.mp
      · exact hasked.widen _ packet address (mem_executeActions.mp hmem)
  | @tick endpoints now answers ticked drained p hticked hdrained hhandled =>
    have hset : step pr d.node (.setLocalAddresses endpoints) = .ok (d.node.setLocalAddresses endpoints, ⟨[], []⟩) := rfl
    have hstep : step pr (d.node.setLocalAddresses endpoints) (.tick now) = .ok (ticked.1, ⟨ticked.2, []⟩) := hticked ▸ rfl
    have hforHost : ∀ a ∈ ticked.2, a.isForHost = false := by
      rw [← hticked]
      exact Node.isForHost_tick pr (d.node.setLocalAddresses endpoints) now
    refine stepOf_once (Run.one hset) (fun x hx => ?_) hstep (.inl rfl) rfl hdrained rfl rfl rfl hforHost
    obtain rfl := List.mem_singleton.mp hx
    rfl
  | @tunRead networkId frame now ethertype processed drained hethertype hprocessed hdrained =>
    have hstep : step pr d.node (.outboundFrame networkId ethertype frame now) = .ok (processed.1, ⟨processed.2, []⟩) := by
      simp only [step, hprocessed]
      rfl
    exact stepOf_once .nil (fun _ h => nomatch h) hstep (.inr ⟨_, _, _, _, rfl, .inl ⟨rfl, hethertype⟩⟩) rfl hdrained rfl rfl
      rfl fun _ h => nomatch h
  | @configRequestTimer now flushed drained hflushed hdrained =>
    have hstep : step pr d.node (.flushConfigRequests now) = .ok (flushed.1, ⟨flushed.2, []⟩) := hflushed ▸ rfl
    exact stepOf_once .nil (fun _ h => nomatch h) hstep (.inl rfl) rfl hdrained rfl rfl rfl fun _ h => nomatch h
  | pendingRetryTimer hretried =>
    obtain ⟨t, hrun, hsteps, hsends, hasked⟩ := run_retried hretried
    refine ⟨t, hrun, .of_frames rfl (fun x hx => ?_) rfl (fun _ h => nomatch h) fun data address hmem => ?_⟩
    · refine (hsteps x hx).imp_right ?_
      rintro ⟨waiting, hwaiting, hevent⟩
      exact ⟨_, _, _, _, hevent, .inr ⟨waiting, hwaiting, rfl, rfl, rfl⟩⟩
    · rcases List.mem_append.mp hmem with hmem | hmem
      · exact hsends data address (mem_executeActions.mp hmem)
      · exact hasked data address (mem_executeActions.mp hmem)
  | @joinNetwork id written called hcalled =>
    obtain ⟨node, hkind, hstep⟩ := step_joinNetwork pr d.node d.markers d.tuns.names id written
    rw [hcalled] at hstep
    exact stepOf_call rfl rfl hkind hstep ⟨_, rfl⟩
  | @leaveNetwork id removed called hcalled =>
    obtain ⟨node, hkind, hstep⟩ := step_leaveNetwork pr d.node d.markers id removed
    rw [hcalled] at hstep
    exact stepOf_call rfl rfl hkind hstep ⟨_, rfl⟩
  | orbitMoon hcalled =>
    obtain ⟨node, hkind, hstep⟩ := step_orbitMoon hcalled
    exact stepOf_call rfl rfl hkind hstep ⟨_, rfl⟩
  | @deorbitMoon id called hcalled =>
    obtain ⟨node, hkind, hstep⟩ := step_deorbitMoon pr d.node id
    rw [hcalled] at hstep
    exact stepOf_call rfl rfl hkind hstep ⟨_, rfl⟩
  | tunIgnored _ => exact ⟨[], .nil, stepOf_idle rfl rfl⟩
  | retryOff _ => exact ⟨[], .nil, stepOf_idle rfl rfl⟩
  | changeRecords _ => exact ⟨[], .nil, stepOf_idle rfl rfl⟩

end Service

end ManyTier
