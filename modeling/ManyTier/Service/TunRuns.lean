import ManyTier.Security.ConfigSource
import ManyTier.Service.DaemonRuns

/-! The devices of a service over all its turns.

What one turn does for a network only depends on what was done for it before through the
device there is by then (`handleTunActions_after`). So the history of a network adds up over
the turns (`run_tunHistory`): until it has a device every configuration is one attempt at
one; the configuration at which it gets one sets it up; from then on the payloads handed to
the network, all of them and in their order, are what is written, and no configuration
touches it. -/
namespace ManyTier

namespace Service
variable {σ : Type} {pr : Primitives} {engine : Option (Controller.Engine σ)} {localZtAddress : ByteVec 5}

/-! ### Turn by turn -/

/-- The progress with calls made before. -/
def TunProgress.after (p : TunProgress) (calls : List TunCall) : TunProgress := { p with calls := calls ++ p.calls }

@[simp] theorem TunProgress.after_tuns (p : TunProgress) (calls : List TunCall) : (p.after calls).tuns = p.tuns := rfl

@[simp] theorem TunProgress.after_calls (p : TunProgress) (calls : List TunCall) : (p.after calls).calls = calls ++ p.calls := rfl

theorem TunProgress.after_write (p : TunProgress) (calls : List TunCall) (networkId : UInt64) (payload : Bytes) :
    (p.after calls).write networkId payload = (p.write networkId payload).after calls := by
  unfold TunProgress.write
  rw [TunProgress.after_tuns]
  split
  · simp [TunProgress.after]
  · rfl

theorem TunProgress.after_create (p : TunProgress) (calls : List TunCall) (networkId : UInt64) (dictData : Bytes) :
    (p.after calls).create localZtAddress networkId dictData = (p.create localZtAddress networkId dictData).after calls := by
  unfold TunProgress.create
  rw [show (p.after calls).answers = p.answers from rfl]
  cases p.answers.head?.join with
  | none => simp [TunProgress.after]
  | some name => simp [TunProgress.after]

theorem handleTunAction_after (p : TunProgress) (calls : List TunCall) (action : NodeAction) :
    handleTunAction localZtAddress (p.after calls) action = (handleTunAction localZtAddress p action).after calls := by
  cases action with
  | frameReceived networkId srcMac destMac ethertype payload => exact p.after_write calls networkId payload
  | localReply networkId ethertype payload => exact p.after_write calls networkId payload
  | networkConfigured networkId dictData =>
    by_cases hdevice : p.tuns.devices.contains networkId = true
    · have hdevice' : (p.after calls).tuns.devices.contains networkId = true := hdevice
      rw [handleTunAction, handleTunAction, if_pos hdevice, if_pos hdevice']
    · have hdevice' : ¬ (p.after calls).tuns.devices.contains networkId = true := hdevice
      rw [handleTunAction, handleTunAction, if_neg hdevice, if_neg hdevice']
      exact p.after_create calls networkId dictData
  | _ => rfl

/-- The calls made before change nothing. -/
theorem handleTunActions_after (p : TunProgress) (calls : List TunCall) (actions : List NodeAction) :
    handleTunActions localZtAddress (p.after calls) actions = (handleTunActions localZtAddress p actions).after calls := by
  unfold handleTunActions
  induction actions generalizing p with
  | nil => rfl
  | cons action rest ih =>
    rw [List.foldl_cons, List.foldl_cons, handleTunAction_after]
    exact ih _

/-- A turn handles for the devices what it hands over. -/
theorem daemonStep_tuns {e : Entry (Daemon σ) (DaemonEvent σ) DaemonOutput}
    (h : daemonStep pr engine e.before e.event = .ok (e.after, e.output)) : ∃ answers,
      e.after.tuns = (handleTunActions e.before.node.address ⟨e.before.tuns, answers, []⟩ e.output.handed).tuns ∧
      e.output.tunCalls = (handleTunActions e.before.node.address ⟨e.before.tuns, answers, []⟩ e.output.handed).calls := by
  obtain ⟨d, event, o, d'⟩ := e
  cases daemonStep_turn (show daemonStep pr engine d event = .ok (d', o) from h) with
  | @udpReceived data fromAddr now answers received n records drained p hreceived hanswered hdrained hhandled =>
    subst hhandled
    exact ⟨answers, rfl, rfl⟩
  | @tick endpoints now answers ticked drained p hticked hdrained hhandled =>
    subst hhandled
    exact ⟨answers, rfl, rfl⟩
  | _ => exact ⟨[], rfl, rfl⟩

/-! ### Runs -/

section
variable {start d : Daemon σ} {t : List (Entry (Daemon σ) (DaemonEvent σ) DaemonOutput)}

/-- What the turns handed over for the devices, and the calls they made for it. -/
def handedIn (t : List (Entry (Daemon σ) (DaemonEvent σ) DaemonOutput)) : List NodeAction := t.flatMap fun e => e.output.handed

def tunCallsIn (t : List (Entry (Daemon σ) (DaemonEvent σ) DaemonOutput)) : List TunCall := t.flatMap fun e => e.output.tunCalls

/-- The node of a service keeps its address. -/
theorem daemon_address (hrun : DaemonRun pr engine start t d) : d.node.address = start.node.address := by
  obtain ⟨parts, -, hinner⟩ := Run.unfold (daemon_madeOf pr engine) hrun
  exact run_address hinner

/-- **In every run, what is done for a network is its history**: attempts until there is a
device, the device set up once, and then every payload in order. -/
theorem run_tunHistory (hrun : DaemonRun pr engine start t d) (hstart : start.tuns = .empty) :
    d.tuns.Named ∧ ∀ networkId, TunHistory start.node.address networkId (handedIn t) (callsFor networkId (tunCallsIn t))
      (d.tuns.devices.get? networkId) := by
  induction hrun with
  | nil =>
    rw [hstart]
    exact ⟨fun _ => rfl, fun _ => rfl⟩
  | @snoc t d₁ d₂ event o hinit hstep ih =>
    obtain ⟨hnamed, hhistory⟩ := ih
    obtain ⟨answers, htuns, hcalls⟩ := daemonStep_tuns (e := ⟨d₁, event, o, d₂⟩) hstep
    rw [daemon_address hinit] at htuns hcalls
    set p : TunProgress := ⟨d₁.tuns, answers, []⟩
    have hlater := @handleTunActions_after start.node.address p (tunCallsIn t) o.handed
    have hbefore : (p.after (tunCallsIn t)).calls = tunCallsIn t := List.append_nil _
    have hnow : tunCallsIn (t ++ [⟨d₁, event, o, d₂⟩]) =
        (handleTunActions start.node.address (p.after (tunCallsIn t)) o.handed).calls := by
      rw [hlater, TunProgress.after_calls, ← hcalls]
      simp [tunCallsIn]
    have hthen : handedIn (t ++ [⟨d₁, event, o, d₂⟩]) = handedIn t ++ o.handed := by
      simp [handedIn]
    have hend : d₂.tuns = (handleTunActions start.node.address (p.after (tunCallsIn t)) o.handed).tuns := by
      rw [hlater, TunProgress.after_tuns]
      exact htuns
    rw [hend]
    refine ⟨Tuns.Named.handleTunActions (p := p.after (tunCallsIn t)) hnamed o.handed, fun networkId => ?_⟩
    rw [hnow, hthen]
    refine tunHistory_handleTunActions o.handed ?_
    rw [hbefore]
    exact hhistory networkId

end

/-- Number 1 gets a configuration from the controller, and the host makes the device. -/
theorem run_tunHistory_configured : ∃ t d device, DaemonRun Sample.primitives none sampleDaemon t d ∧
    d.tuns.devices.get? Sample.networkId = some device ∧ device.mtu = 1500 ∧ (handedIn t).length = 1 ∧
      TunHistory sampleDaemon.node.address Sample.networkId (handedIn t)
        (callsFor Sample.networkId (tunCallsIn t)) (some device) := by
  have hcheck : okWith (daemonStep Sample.primitives none sampleDaemon
      (.udpReceived (Sample.sentBy 2 9 .ok sampleConfigAnswer) (Sample.endpoint 20) 1000
      [some (ascii ['z', 't', '0'])])) (fun r =>
        r.1.tuns.devices.get? Sample.networkId = some ⟨ascii ['z', 't', '0'], 1500⟩ && r.2.handed.length = 1) = true := by
    decide +kernel
  obtain ⟨⟨d, o⟩, hstep, hall⟩ := exists_of_okWith hcheck
  rw [Bool.and_eq_true, decide_eq_true_eq, decide_eq_true_eq] at hall
  obtain ⟨hdevice, hone⟩ := hall
  have hrun : DaemonRun Sample.primitives none sampleDaemon _ d := Run.one hstep
  obtain ⟨-, hhistory⟩ := run_tunHistory hrun rfl
  have hlen : (handedIn [⟨sampleDaemon, DaemonEvent.udpReceived (Sample.sentBy 2 9 .ok sampleConfigAnswer) (Sample.endpoint 20)
      1000 [some (ascii ['z', 't', '0'])], o, d⟩]).length = 1 := by
    simpa [handedIn] using hone
  exact ⟨_, d, _, hrun, hdevice, rfl, hlen, hdevice ▸ hhistory Sample.networkId⟩

end Service

end ManyTier
