import ManyTier.Lib.HoldQueue
import ManyTier.Security.Outbound
import ManyTier.Service.WhoisDrain

/-! The frames that wait for a path to their peer.

A frame that cannot be sent yet is queued, at most 64 of them, and from time to time all
that are queued are tried again: what has waited longer than the hold time is dropped,
what the node now answers with a datagram is sent, and the rest waits on.
`run_pendingFrames` says that the queue stays in the order of the arrivals and that every
retry accounts for all of it, whatever the node answers. -/
namespace ManyTier

namespace NodeAction

def isSendTo : NodeAction → Bool
  | sendTo _ _ => true
  | _ => false

end NodeAction

namespace Service

def pendingFrameTtlMs : UInt64 := 5000
def pendingFrameLimit : Nat := 64

/-- An outbound frame held until there is a path to its peer. -/
structure PendingFrame where
  networkId : UInt64
  ethertype : UInt16
  frame : Bytes
  queuedAtMs : UInt64
  deriving DecidableEq

def queuePendingFrame (pending : List PendingFrame) (frame : PendingFrame) : List PendingFrame :=
  pushBounded pendingFrameLimit pending frame

/-- What answers for frames: its address, what it does with a frame, and what it asks for
the addresses that were missing. -/
structure FrameHost (σ : Type) where
  address : σ → ByteVec 5
  processOutboundFrame : σ → UInt64 → UInt16 → Bytes → ByteVec 5 → UInt64 → Except Fault (σ × List NodeAction)
  drainWhoisActions : σ → List NodeAction → UInt64 → σ × List NodeAction

/-- The node of the service. -/
def nodeHost (pr : Primitives) : FrameHost Node where
  address := Node.address
  processOutboundFrame := Vl2.processOutboundFrame pr
  drainWhoisActions := drainWhoisActions pr

section
variable {σ : Type} (host : FrameHost σ)

/-- What a retry has gathered so far. -/
structure Retry (σ : Type) where
  node : σ
  sends : List NodeAction
  whoisNeeded : List NodeAction
  kept : List PendingFrame

/-- A frame is sent if at least one of its actions is a datagram. -/
def flushes (actions : List NodeAction) : Bool := actions.any NodeAction.isSendTo

def retryOne (ourAddr : ByteVec 5) (now : UInt64) (r : Retry σ) (held : PendingFrame) : Except Fault (Retry σ) :=
  if pendingFrameTtlMs < satSub now held.queuedAtMs then .ok r
  else do
    let (node, actions) ← host.processOutboundFrame r.node held.networkId held.ethertype held.frame ourAddr now
    if flushes actions then return { r with node, sends := r.sends ++ actions }
    else return { r with node, whoisNeeded := r.whoisNeeded ++ actions, kept := r.kept ++ [held] }

/-- The service between two calls: its node and the frames it holds. -/
structure HeldFrames (σ : Type) where
  node : σ
  pending : List PendingFrame

/-- What a call hands to the transport. -/
structure Transmitted where
  sends : List NodeAction
  whoisActions : List NodeAction

def retryPendingFrames (s : HeldFrames σ) (now : UInt64) (sendWhois : Bool) :
    Except Fault (HeldFrames σ × Transmitted) := do
  let r ← s.pending.foldlM (retryOne host (host.address s.node) now) ⟨s.node, [], [], []⟩
  let (node, whoisActions) := if sendWhois then host.drainWhoisActions r.node r.whoisNeeded now else (r.node, [])
  return (⟨node, r.kept⟩, ⟨r.sends, whoisActions⟩)

/-- What happens to the queue; between the calls the node may become any other. -/
inductive QueueEvent (σ : Type) where
  | queue (frame : PendingFrame)
  | retry (now : UInt64) (sendWhois : Bool)
  | elsewhere (node : σ)

def queueStep (s : HeldFrames σ) : QueueEvent σ → Except Fault (HeldFrames σ × Transmitted)
  | .queue frame => .ok ({ s with pending := queuePendingFrame s.pending frame }, ⟨[], []⟩)
  | .retry now sendWhois => retryPendingFrames host s now sendWhois
  | .elsewhere node => .ok ({ s with node }, ⟨[], []⟩)

/-! ### One retry -/

/-- What the host does with a held frame. -/
def answerHeld (ourAddr : ByteVec 5) (now : UInt64) (node : σ) (held : PendingFrame) :
    Except Fault (σ × List NodeAction) :=
  host.processOutboundFrame node held.networkId held.ethertype held.frame ourAddr now

/-- Held longer than the hold time. -/
def Expired (now : UInt64) (held : PendingFrame) : Prop := pendingFrameTtlMs < satSub now held.queuedAtMs

/-- How a retry accounts for the frames held: what is found about each, in order, decides
whether it is dropped, sent with all its actions, or held on. -/
structure Accounts (now : UInt64) (s : HeldFrames σ) (sends : List NodeAction) (kept : List PendingFrame)
    (found : List (PendingFrame × Finding (List NodeAction))) : Prop where
  answers : ∃ node, Swept (Expired now) (answerHeld host (host.address s.node) now) s.node found node
  whole : found.map Prod.fst = s.pending
  expired : ∀ e ∈ found, e.2.isLate = true ↔ Expired now e.1
  sent : sends = (found.filterMap fun e => e.2.leaving flushes).flatten
  held : kept = Finding.stayingOf flushes found
  inOrder : (Finding.leavingOf flushes found).Sublist s.pending ∧ kept.Sublist s.pending
  once : s.pending.Perm (Finding.lateOf found ++ Finding.leavingOf flushes found ++ kept)

variable {host}

/-- The loop finds something about each frame and gathers accordingly. -/
theorem foldlM_retryOne {ourAddr : ByteVec 5} {now : UInt64} {pending : List PendingFrame} {r r' : Retry σ}
    (h : pending.foldlM (retryOne host ourAddr now) r = .ok r') :
    ∃ found, Swept (Expired now) (answerHeld host ourAddr now) r.node found r'.node ∧
      found.map Prod.fst = pending ∧
      r'.sends = r.sends ++ (found.filterMap fun e => e.2.leaving flushes).flatten ∧
      r'.kept = r.kept ++ Finding.stayingOf flushes found := by
  induction pending generalizing r with
  | nil =>
    cases h
    exact ⟨[], .nil _, rfl, by simp, by simp [Finding.stayingOf]⟩
  | cons held rest ih =>
    rw [List.foldlM_cons] at h
    obtain ⟨r₁, hone, hrest⟩ := bind_eq_ok h
    obtain ⟨found, hswept, hframes, hsends, hkept⟩ := ih hrest
    unfold retryOne at hone
    split at hone
    · rename_i hlate
      cases hone
      exact ⟨(held, .late) :: found, .late hlate hswept, by rw [List.map_cons, hframes], hsends, hkept⟩
    · rename_i hlate
      obtain ⟨⟨node, actions⟩, hanswer, hone⟩ := bind_eq_ok hone
      dsimp only at hone
      cases hflushes : flushes actions with
      | true =>
        rw [hflushes, if_pos rfl] at hone
        cases hone
        refine ⟨(held, .answered actions) :: found, .answered hlate hanswer hswept, by rw [List.map_cons, hframes], ?_, ?_⟩
        · simp [hsends, Finding.leaving, hflushes]
        · simp [hkept, Finding.stayingOf, Finding.staying, hflushes]
      | false =>
        rw [hflushes, if_neg Bool.false_ne_true] at hone
        cases hone
        refine ⟨(held, .answered actions) :: found, .answered hlate hanswer hswept, by rw [List.map_cons, hframes], ?_, ?_⟩
        · simp [hsends, Finding.leaving, hflushes]
        · simp [hkept, Finding.stayingOf, Finding.staying, hflushes]

/-- A retry accounts for all the frames held. -/
theorem retry_accounts {s s' : HeldFrames σ} {now : UInt64} {sendWhois : Bool} {o : Transmitted}
    (h : retryPendingFrames host s now sendWhois = .ok (s', o)) : ∃ found, Accounts host now s o.sends s'.pending found := by
  obtain ⟨r, hloop, heq⟩ := bind_eq_ok h
  obtain ⟨found, hswept, hframes, hsends, hkept⟩ := foldlM_retryOne hloop
  have hpending : s'.pending = Finding.stayingOf flushes found := by
    cases heq
    exact hkept
  have hsent : o.sends = (found.filterMap fun e => e.2.leaving flushes).flatten := by
    cases heq
    exact hsends
  refine ⟨found, ⟨_, hswept⟩, hframes, hswept.isLate_iff, hsent, hpending, ⟨?_, ?_⟩, ?_⟩
  · rw [← hframes]
    exact Finding.leavingOf_sublist found
  · rw [hpending, ← hframes]
    exact Finding.stayingOf_sublist found
  · rw [hpending, ← hframes]
    exact Finding.perm_parts found

/-! ### Runs -/

/-- The frames that were queued, in the order of their arrival. -/
def arrivals (t : List (Entry (HeldFrames σ) (QueueEvent σ) Transmitted)) : List PendingFrame :=
  t.filterMap fun e =>
    match e.event with
    | .queue frame => some frame
    | _ => none

variable (host) in
/-- What a call does to the queue: a frame is queued behind the others, at the limit in
the place of the oldest, and a retry accounts for all of them. -/
def FramesAccounted (e : Entry (HeldFrames σ) (QueueEvent σ) Transmitted) : Prop :=
  (∀ frame, e.event = .queue frame →
    (e.before.pending.length < pendingFrameLimit → e.after.pending = e.before.pending ++ [frame]) ∧
    (e.before.pending.length = pendingFrameLimit → ∃ oldest rest, e.before.pending = oldest :: rest ∧
      e.after.pending = rest ++ [frame])) ∧
  (∀ now sendWhois, e.event = .retry now sendWhois →
    ∃ found, Accounts host now e.before e.output.sends e.after.pending found) ∧
  ∀ node, e.event = .elsewhere node → e.after.pending = e.before.pending

theorem framesAccounted_step {e : Entry (HeldFrames σ) (QueueEvent σ) Transmitted}
    (h : queueStep host e.before e.event = .ok (e.after, e.output)) : FramesAccounted host e := by
  refine ⟨fun frame hevent => ?_, fun now sendWhois hevent => ?_, fun node hevent => ?_⟩
  · rw [hevent] at h
    obtain ⟨hafter, -⟩ := Prod.mk.inj (Except.ok.inj h)
    rw [← hafter]
    exact ⟨fun hroom => pushBounded_room hroom frame,
      fun hfull => pushBounded_full (by decide) hfull.ge frame⟩
  · rw [hevent] at h
    exact retry_accounts h
  · rw [hevent] at h
    obtain ⟨hafter, -⟩ := Prod.mk.inj (Except.ok.inj h)
    rw [← hafter]

/-- One call keeps the bound and the order. -/
theorem queueStep_bounded {s s' : HeldFrames σ} {e : QueueEvent σ} {o : Transmitted}
    {t : List (Entry (HeldFrames σ) (QueueEvent σ) Transmitted)} (h : queueStep host s e = .ok (s', o))
    (hbound : s.pending.length ≤ pendingFrameLimit) (horder : s.pending.Sublist (arrivals t)) :
    s'.pending.length ≤ pendingFrameLimit ∧ s'.pending.Sublist (arrivals (t ++ [⟨s, e, o, s'⟩])) := by
  have harrivals : arrivals (t ++ [⟨s, e, o, s'⟩]) = arrivals t ++ arrivals [⟨s, e, o, s'⟩] :=
    List.filterMap_append ..
  cases e with
  | queue frame =>
    cases h
    rw [harrivals]
    exact ⟨length_pushBounded_le (by decide) hbound frame, sublist_pushBounded horder frame⟩
  | retry now sendWhois =>
    obtain ⟨found, haccounts⟩ := retry_accounts h
    obtain ⟨-, hkept⟩ := haccounts.inOrder
    refine ⟨hkept.length_le.trans hbound, ?_⟩
    rw [harrivals]
    exact (hkept.trans horder).trans (List.sublist_append_left ..)
  | elsewhere node =>
    cases h
    rw [harrivals]
    exact ⟨hbound, horder.trans (List.sublist_append_left ..)⟩

/-- Whatever the host answers and becomes: at most 64 frames are held, in the order of
their arrival, at the limit exactly the oldest gives way, and a retry drops the frames
older than the hold time, sends once and in order those that get a datagram, with all
their actions, and holds the others in order. -/
theorem run_pendingFrames {node : σ} {t : List (Entry (HeldFrames σ) (QueueEvent σ) Transmitted)} {s : HeldFrames σ}
    (hrun : Run (queueStep host) ⟨node, []⟩ t s) :
    s.pending.length ≤ pendingFrameLimit ∧ s.pending.Sublist (arrivals t) ∧ ∀ e ∈ t, FramesAccounted host e := by
  have hsteps : ∀ e ∈ t, FramesAccounted host e := fun e he => framesAccounted_step (hrun.steps e he)
  suffices h : s.pending.length ≤ pendingFrameLimit ∧ s.pending.Sublist (arrivals t) from ⟨h.1, h.2, hsteps⟩
  clear hsteps
  induction hrun with
  | nil => exact ⟨Nat.zero_le _, List.Sublist.refl _⟩
  | snoc _ hstep ih => exact queueStep_bounded hstep ih.1 ih.2

end

/-- A frame to 10.0.0.3 or to another number of the network. -/
def sampleHeld (number : UInt8) (queuedAtMs : UInt64) : PendingFrame where
  networkId := Sample.networkId
  ethertype := Ethernet.ethertypeIpv4
  frame := SampleFrame.frame.dropLast ++ [number]
  queuedAtMs := queuedAtMs

/-- Of three frames one has waited too long, one is sent and one is held on. -/
theorem run_pendingFrames_three : ∃ (t : List (Entry (HeldFrames Node) (QueueEvent Node) Transmitted))
    (s : HeldFrames Node), Run (queueStep (nodeHost Sample.primitives)) ⟨Vl2.sampleSender, []⟩ t s ∧
    t.length = 4 ∧ s.pending = [sampleHeld 9 2000] ∧
    (s.pending.length ≤ pendingFrameLimit ∧ s.pending.Sublist (arrivals t) ∧
      ∀ e ∈ t, FramesAccounted (nodeHost Sample.primitives) e) := by
  have hcheck : okWith (runAll (queueStep (nodeHost Sample.primitives)) ⟨Vl2.sampleSender, []⟩
      [.queue (sampleHeld 3 500), .queue (sampleHeld 9 2000), .queue (sampleHeld 3 2000), .retry 6000 true])
      (fun done => done.1.length = 4 ∧ done.2.pending = [sampleHeld 9 2000]) = true := by
    decide
  obtain ⟨⟨t, s⟩, hdone, hall⟩ := exists_of_okWith hcheck
  obtain ⟨hlength, hpending⟩ := of_decide_eq_true hall
  have hrun := run_runAll hdone
  exact ⟨t, s, hrun, hlength, hpending, run_pendingFrames hrun⟩

end Service

end ManyTier
