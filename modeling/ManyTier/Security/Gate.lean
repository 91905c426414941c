import ManyTier.Service.Machine

/-! Which packets reach a verb's handler.

A packet of suite 1 or 3 reaches a handler only if its MAC verifies under what is held
for the source its header names. A packet of suite 0 is handed on either way, so a
forged one reaches the handler of whatever verb it names (`forgedPlain`). That is the
only gap: `run_gated_iff` says so of every call of every run. -/
namespace ManyTier

namespace Node
variable (pr : Primitives)

/-- Whether the tag of a packet of suite 3 verifies. -/
def aesVerifies (k0 k1 : ByteVec 32) (data : Bytes) : Bool :=
  match AesGmacSiv.dearmorPacket pr k0 k1 data (buildAesAad data) with
  | .ok (_, verified) => verified
  | .error _ => false

/-- Whether a packet's MAC verifies under what is held for its source. -/
def macVerifies (n : Node) (data : Bytes) : Bool :=
  let h := PacketHeader.read data
  if h.cipherSuite = Constants.cipherNone ∨ h.cipherSuite = Constants.cipherSalsa2012 then
    match n.sharedSecretForPeer pr h.source with
    | some secret => Salsa.macVerifies pr secret data
    | none => false
  else if h.cipherSuite = Constants.cipherAesGmacSiv then
    match n.aesKeysForPeer h.source with
    | some (k0, k1) => aesVerifies pr k0 k1 data
    | none => false
  else false

/-- A whole packet for this node. -/
def forUs (n : Node) (data : Bytes) : Bool :=
  ! isFragment data && Constants.minPacketLength ≤ data.length && (PacketHeader.read data).dest = n.address

/-- A packet of suite 0 for this node that names a verb other than HELLO and whose MAC
does not verify. -/
def forgedPlain (n : Node) (data : Bytes) : Bool :=
  let h := PacketHeader.read data
  n.forUs data && h.cipherSuite = Constants.cipherNone && ! n.macVerifies pr data &&
    match Verb.fromByte h.verb with
    | some verb => verb ≠ .hello
    | none => false

variable {pr} {n : Node} {data : Bytes}

theorem isOk_dearmorPacket {secret : Secret} (hlen : Constants.minPacketLength ≤ data.length) :
    (∃ opened, Salsa.dearmorPacket pr secret data = .ok opened) ↔ Salsa.macVerifies pr secret data = true := by
  have hlong : ¬ data.length < Salsa.packetMinLen := Nat.not_lt.mpr hlen
  unfold Salsa.dearmorPacket
  rw [if_neg hlong]
  cases Salsa.macVerifies pr secret data with
  | false => simp
  | true =>
    simp only [Bool.not_true, Bool.false_eq_true, if_false, iff_true]
    split
    · exact ⟨_, rfl⟩
    · exact ⟨_, rfl⟩

/-- The packet opened under a key that may not be there. -/
theorem bind_dearmorPacket {secret : Option Secret} (hlen : Constants.minPacketLength ≤ data.length) :
    (secret.bind fun secret => (Salsa.dearmorPacket pr secret data).toOption).isSome =
      match secret with
      | some secret => Salsa.macVerifies pr secret data
      | none => false := by
  cases secret with
  | none => rfl
  | some secret =>
    rw [Bool.eq_iff_iff, ← isOk_dearmorPacket hlen]
    cases h : Salsa.dearmorPacket pr secret data <;> simp [Except.toOption, h]

/-- What is opened has a MAC that verifies, and the other way round but for HELLO. -/
theorem isSome_dearmor (hlen : Constants.minPacketLength ≤ data.length) :
    (n.dearmor pr data).isSome = (n.macVerifies pr data &&
      ! ((PacketHeader.read data).cipherSuite = Constants.cipherNone &&
        (PacketHeader.read data).verb &&& 0x1f = Verb.hello.toByte)) := by
  unfold dearmor macVerifies
  simp only
  by_cases h₀ : (PacketHeader.read data).cipherSuite = Constants.cipherNone
  · by_cases hhello : (PacketHeader.read data).verb &&& 0x1f = Verb.hello.toByte
    · simp [h₀, hhello]
    · simp only [h₀, hhello, if_true, if_false, true_or, bind_dearmorPacket hlen]
      simp
  · by_cases h₁ : (PacketHeader.read data).cipherSuite = Constants.cipherSalsa2012
    · have hne : Constants.cipherSalsa2012 ≠ Constants.cipherNone := by decide
      simp only [h₁, hne, if_true, if_false, or_true, bind_dearmorPacket hlen]
      simp
    · by_cases h₃ : (PacketHeader.read data).cipherSuite = Constants.cipherAesGmacSiv
      · have hne₀ : Constants.cipherAesGmacSiv ≠ Constants.cipherNone := by decide
        have hne₁ : Constants.cipherAesGmacSiv ≠ Constants.cipherSalsa2012 := by decide
        simp only [h₃, hne₀, hne₁, if_true, if_false, or_self]
        cases n.aesKeysForPeer (PacketHeader.read data).source with
        | none => simp
        | some keys =>
          simp only [Option.bind_some, aesVerifies]
          rcases AesGmacSiv.dearmorPacket pr keys.1 keys.2 data (buildAesAad data) with _ | ⟨opened, _ | _⟩ <;>
            simp
      · simp [h₀, h₁, h₃]

theorem fromByte_and_mask (b : UInt8) : Verb.fromByte (b &&& 0x1f) = Verb.fromByte b := by
  have hmask : (b &&& 0x1f) &&& 0x1f = b &&& 0x1f := by
    rw [UInt8.and_assoc]
    rfl
  rw [Verb.fromByte, hmask, Verb.fromByte]

end Node

namespace Call
variable (pr : Primitives) (c : Call)

/-- The call handed its packet to a handler other than that of HELLO only if the MAC
verified. -/
def Gated : Prop := ∀ verb, c.verb pr = some verb → verb ≠ .hello → c.before.macVerifies pr c.data = true

variable {pr c}

/-- A packet whose MAC does not verify is handed to a handler other than HELLO's exactly
if it is a forged packet of suite 0. -/
theorem gated_iff : c.Gated pr ↔ c.before.forgedPlain pr c.data = false := by
  constructor
  · intro hgated
    by_contra hforged
    rw [Bool.not_eq_false] at hforged
    unfold Node.forgedPlain at hforged
    simp only [Bool.and_eq_true, Bool.not_eq_true', decide_eq_true_eq] at hforged
    obtain ⟨⟨⟨hus, hsuite⟩, hmac⟩, hverb⟩ := hforged
    split at hverb
    · rename_i verb hread
      have hne : verb ≠ .hello := of_decide_eq_true hverb
      unfold Node.forUs at hus
      simp only [Bool.and_eq_true, Bool.not_eq_true', decide_eq_true_eq] at hus
      obtain ⟨⟨hfrag, hlen⟩, hdest⟩ := hus
      have hopen : c.before.dearmor pr c.data = none := by
        rw [← Option.not_isSome_iff_eq_none, Node.isSome_dearmor hlen, hmac]
        simp
      have hclosed : Node.dearmor pr { c.before with actions := [] } c.data = none := hopen
      have hadmitted : c.before.admitPacket pr c.data c.fromAddr c.now =
          Node.handOn { c.before with actions := [] } c.data c.data
            ((PacketHeader.read c.data).verb &&& 0x1f) c.fromAddr c.now := by
        unfold Node.admitPacket
        simp only [hfrag, Bool.false_eq_true, if_false, Nat.not_lt.mpr hlen, hsuite, hclosed]
        have hsame : (PacketHeader.read c.data).dest = Node.address { c.before with actions := [] } := hdest
        simp [hsame]
      have hcverb : c.verb pr = some verb := by
        rw [Call.verb, dispatched_eq_some.mpr hadmitted]
        simpa [Node.fromByte_and_mask] using hread
      rw [hgated verb hcverb hne] at hmac
      cases hmac
    · cases hverb
  · intro hplain verb hverb hne
    by_contra hmac
    rw [Bool.not_eq_true] at hmac
    obtain ⟨d, hd, hread⟩ := Option.bind_eq_some_iff.mp hverb
    obtain ⟨hfrag, hlen, hdest, -, -, -, hclosed | ⟨opened, hopen, -⟩⟩ :=
      Node.admitPacket_dispatch (dispatched_eq_some.mp hd)
    · obtain ⟨-, hsuite, -, hid⟩ := hclosed
      rw [hid, Node.fromByte_and_mask] at hread
      have hforged : c.before.forgedPlain pr c.data = true := by
        simp [Node.forgedPlain, Node.forUs, hfrag, hlen, hdest, hsuite, hmac, hread, hne]
      rw [hplain] at hforged
      cases hforged
    · have hsome : (c.before.dearmor pr c.data).isSome = true := by simp [hopen]
      rw [Node.isSome_dearmor hlen, hmac] at hsome
      cases hsome

end Call

namespace Call
variable {pr : Primitives} {c : Call}

/-- The call changed nothing but what waits for its source, and asked for nothing but
that source. -/
def Dropped (c : Call) : Prop :=
  c.after = { c.before with
    actions := []
    pendingEncryptedPackets := c.after.pendingEncryptedPackets } ∧
  ∀ a ∈ c.actions, a = .whoisNeeded [(PacketHeader.read c.data).source]

/-- A packet for this node of another suite than 0 whose MAC does not verify is dropped. -/
theorem Made.dropped (h : c.Made pr) (hus : c.before.forUs c.data = true)
    (hmac : c.before.macVerifies pr c.data = false)
    (hsuite : (PacketHeader.read c.data).cipherSuite ≠ Constants.cipherNone) : c.Dropped := by
  obtain ⟨recv, p, hp, hafter, hactions⟩ := h
  unfold Node.forUs at hus
  simp only [Bool.and_eq_true, Bool.not_eq_true', decide_eq_true_eq] at hus
  obtain ⟨⟨hfrag, hlen⟩, hdest⟩ := hus
  have hclosed : Node.dearmor pr { c.before with actions := [] } c.data = none := by
    rw [← Option.not_isSome_iff_eq_none, Node.isSome_dearmor hlen]
    have hmac' : Node.macVerifies pr { c.before with actions := [] } c.data = false := hmac
    simp [hmac']
  have hadmitted : c.before.admitPacket pr c.data c.fromAddr c.now =
      .finished (Node.dropUnopened { c.before with actions := [] } c.data c.fromAddr c.now) := by
    unfold Node.admitPacket
    have hsame : (PacketHeader.read c.data).dest = Node.address { c.before with actions := [] } := hdest
    simp [hfrag, Nat.not_lt.mpr hlen, hsuite, hclosed, hsame]
  rw [Node.receiveBody, hadmitted] at hp
  cases hp
  unfold Node.dropUnopened at hafter hactions
  simp only at hafter hactions
  split at hafter
  · rename_i hkeep
    rw [if_pos hkeep] at hactions
    refine ⟨by rw [hafter]; rfl, ?_⟩
    rw [hactions]
    intro a ha
    exact List.mem_singleton.mp ha
  · rename_i hdrop
    rw [if_neg hdrop] at hactions
    exact ⟨by rw [hafter], by simp [hactions]⟩

end Call

namespace Service

/-- In every run, a call hands a packet whose MAC does not verify to a handler other than
HELLO's exactly if it is a forged packet of suite 0; of another suite, it drops it. -/
theorem run_gated_iff (pr : Primitives) (n n' : Node) (t : List (Entry Node Event Output))
    (hrun : NodeRun pr n t n') :
    ∀ e ∈ t, ∀ c ∈ e.output.calls, (c.Gated pr ↔ c.before.forgedPlain pr c.data = false) ∧
      (c.before.forUs c.data = true → c.before.macVerifies pr c.data = false →
        (PacketHeader.read c.data).cipherSuite ≠ Constants.cipherNone → c.Dropped) := by
  intro e he c hc
  exact ⟨Call.gated_iff, (run_made hrun e he c hc).dropped⟩

/-- A message in the clear with no MAC, in the name of root number 2. -/
def sampleForgedMessage : Bytes :=
  plainHeader 7 (Sample.identity 1).address.bytes (Sample.identity 2).address.bytes 0x00
    Verb.userMessage.toByte ++ (be64 1 ++ [0x68, 0x69])

theorem step_forgedMessage : ∃ n' o, step Sample.primitives Sample.start
      (.receive sampleForgedMessage (Sample.endpoint 66) 1000) = .ok (n', o) ∧
    ∃ c ∈ o.calls, c.verb Sample.primitives = some .userMessage ∧
      c.before.macVerifies Sample.primitives c.data = false ∧
      c.actions = [.userMessageReceived (Sample.identity 2).address.bytes 1 [0x68, 0x69]] := by
  have hcheck : okWith (step Sample.primitives Sample.start
      (.receive sampleForgedMessage (Sample.endpoint 66) 1000)) (fun r => r.2.calls.any fun c =>
        c.verb Sample.primitives = some .userMessage && ! c.before.macVerifies Sample.primitives c.data &&
          c.actions = [.userMessageReceived (Sample.identity 2).address.bytes 1 [0x68, 0x69]]) = true := by
    decide +kernel
  obtain ⟨⟨n', o⟩, hstep, hall⟩ := exists_of_okWith hcheck
  obtain ⟨c, hc, hprop⟩ := List.any_eq_true.mp hall
  simp only [Bool.and_eq_true, decide_eq_true_eq, Bool.not_eq_true'] at hprop
  exact ⟨n', o, hstep, c, hc, hprop.1.1, hprop.1.2, hprop.2⟩

/-- A node that has just started reports the forged message as the root's. -/
theorem forgedMessage_reported : ∃ (start n : Node) (t : List (Entry Node Event Output)),
    Node.new (Sample.identity 1) Sample.planet.serialize 1 = .ok start ∧
    NodeRun Sample.primitives start t n ∧ ∃ e ∈ t, ∃ c ∈ e.output.calls, ¬ c.Gated Sample.primitives ∧
      c.actions = [.userMessageReceived (Sample.identity 2).address.bytes 1 [0x68, 0x69]] := by
  obtain ⟨n', o, hstep, c, hc, hverb, hmac, hactions⟩ := step_forgedMessage
  refine ⟨Sample.start, n', _, Sample.new_start, Run.one hstep, _, List.mem_singleton.mpr rfl, c, hc, ?_,
    hactions⟩
  intro hgated
  rw [hgated _ hverb (by decide)] at hmac
  cases hmac

/-- The call that took it is not gated, as it must not be. -/
theorem run_gated_iff_forgedMessage : ∃ n t, NodeRun Sample.primitives Sample.start t n ∧
    ∃ e ∈ t, ∃ c ∈ e.output.calls,
      (c.Gated Sample.primitives ↔ c.before.forgedPlain Sample.primitives c.data = false) := by
  obtain ⟨n', o, hstep, c, hc, -, -, -⟩ := step_forgedMessage
  have hrun := Run.one hstep
  refine ⟨n', _, hrun, _, List.mem_singleton.mpr rfl, c, hc, ?_⟩
  exact (run_gated_iff Sample.primitives Sample.start n' _ hrun _ (List.mem_singleton.mpr rfl) c hc).1

end Service

end ManyTier
