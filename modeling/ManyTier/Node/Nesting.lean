import ManyTier.Node.Echo
import ManyTier.Protocol.Reassembly

/-! How deep the calls of `receivePacket` nest.

A call takes the packet of a nested call out of what the node holds back, so the bytes
held and the bytes at hand (`heldBytes` and the datagram's length) bound the depth:
each nested call has fewer of them (`Settled`, `receiveWith_settled`). So the fuel of
`receivePacket` is never used up, and it satisfies the equation of the source's
recursion (`receivePacket_eq`). A call then returns unless one of those made in it has
to answer with more than a buffer holds (`receivePacket_returns_iff`). -/
namespace ManyTier

/-! ### Two computations that are one -/

/-- Both are the same computation, with fuel enough, and what it returns has `Q`. -/
structure Settled {β : Type} (x y : Except Fault β) (Q : β → Prop) : Prop where
  eq : x = y
  fuel : x ≠ .error .outOfFuel
  post : ∀ b, x = .ok b → Q b

namespace Settled
variable {α β : Type}

theorem ok {Q : β → Prop} {b : β} (h : Q b) : Settled (.ok b) (.ok b) Q := by
  refine ⟨rfl, by simp, ?_⟩
  rintro c ⟨⟩
  exact h

/-- A computation without nested calls that does not run out of fuel. -/
theorem alone {Q : β → Prop} {x : Except Fault β} (hfuel : x ≠ .error .outOfFuel)
    (h : ∀ b, x = .ok b → Q b) : Settled x x Q :=
  ⟨rfl, hfuel, h⟩

theorem mono {x y : Except Fault β} {Q Q' : β → Prop} (h : Settled x y Q) (hQ : ∀ b, Q b → Q' b) :
    Settled x y Q' :=
  ⟨h.eq, h.fuel, fun b hb => hQ b (h.post b hb)⟩

theorem bind {x y : Except Fault α} {f g : α → Except Fault β} {Q : α → Prop} {R : β → Prop}
    (h : Settled x y Q) (hf : ∀ a, Q a → Settled (f a) (g a) R) : Settled (x >>= f) (y >>= g) R := by
  obtain rfl := h.eq
  cases x with
  | error e =>
    refine ⟨rfl, ?_, ?_⟩
    · intro he
      obtain rfl : e = .outOfFuel := Except.error.inj he
      exact h.fuel rfl
    · intro b hb
      cases hb
  | ok a => exact hf a (h.post a rfl)

/-- A loop whose turns settle, by what is left of the list. -/
theorem foldlM {f g : β → α → Except Fault β} (Inv : List α → β → Prop)
    (hstep : ∀ a rest b, Inv (a :: rest) b → Settled (f b a) (g b a) (Inv rest)) {l : List α} {b : β}
    (h : Inv l b) : Settled (l.foldlM f b) (l.foldlM g b) (Inv []) := by
  induction l generalizing b with
  | nil => exact .ok h
  | cons a rest ih =>
    rw [List.foldlM_cons, List.foldlM_cons]
    exact (hstep a rest b h).bind fun c hc => ih hc

end Settled

/-! ### Bytes held by the reassembly buffer -/

namespace FragmentSlot

/-- The bytes of the pieces a slot stores. -/
def bytes (s : FragmentSlot) : Nat := (s.fragments.toList.map fun f => (f.getD []).length).sum

theorem bytes_new (total : Nat) (now : UInt64) : (new total now).bytes = 0 := by
  simp [bytes, new, List.Vector.replicate, List.Vector.toList]

/-- An element of a list replaced adds at most what it counts for. -/
theorem sum_map_set_le {α : Type} (f : α → Nat) (l : List α) (i : Nat) (a : α) :
    ((l.set i a).map f).sum ≤ (l.map f).sum + f a := by
  induction l generalizing i with
  | nil => simp
  | cons x rest ih =>
    cases i with
    | zero =>
      simp only [List.set_cons_zero, List.map_cons, List.sum_cons]
      omega
    | succ i =>
      have := ih i
      simp only [List.set_cons_succ, List.map_cons, List.sum_cons]
      omega

theorem bytes_put_le (s : FragmentSlot) (i : Nat) (data : Bytes) :
    (s.put i data).bytes ≤ s.bytes + data.length := by
  unfold put
  split
  · exact sum_map_set_le (fun f : Option Bytes => (f.getD []).length) s.fragments.toList i (some data)
  · exact Nat.le_add_right _ _

/-- The first elements of a list, those missing counting for nothing. -/
theorem sum_getD_le {α : Type} (f : Option α → Nat) (hf : f none = 0) (l : List (Option α)) (count : Nat) :
    ((List.range count).map fun i => f (l.getD i none)).sum ≤ (l.map f).sum := by
  induction l generalizing count with
  | nil => simp [hf]
  | cons x rest ih =>
    cases count with
    | zero => simp
    | succ count =>
      have := ih count
      simp only [List.range_succ_eq_map, List.map_cons, List.map_map, List.sum_cons, Function.comp_def,
        List.getD_cons_zero, List.getD_cons_succ] at this ⊢
      omega

theorem length_assemble_le (s : FragmentSlot) : s.assemble.length ≤ s.bytes := by
  have hlen : s.assemble.length =
      ((List.range s.totalExpected).map fun i => ((s.fragments.toList.getD i none).getD []).length).sum := by
    simp [assemble, List.length_flatMap, piece]
  rw [hlen]
  exact sum_getD_le (fun f : Option Bytes => (f.getD []).length) rfl s.fragments.toList _

end FragmentSlot

namespace ReassemblyBuffer

/-- The bytes of all pieces a buffer stores. -/
def bytes (b : ReassemblyBuffer) : Nat := b.pending.sumBy fun e => e.2.bytes

/-- What is left beside a packet's own slot, once there is room for it. -/
theorem bytes_makeRoom_le (b : ReassemblyBuffer) (packetId : UInt64) :
    ((b.makeRoom packetId).pending.erase packetId).sumBy (fun e => e.2.bytes) +
      ((b.pending.get? packetId).map FragmentSlot.bytes).getD 0 ≤ b.bytes := by
  rcases b.makeRoom_cases packetId with ⟨-, hr⟩ | ⟨hnew, -, old, slot, -, -, hr⟩
  · rw [hr]
    exact (b.pending.sumBy_erase packetId fun e => e.2.bytes).le
  · have hnone : b.pending.get? packetId = none := by simpa [SortedMap.contains] using hnew
    rw [hr, hnone]
    exact ((b.pending.erase old).sumBy_retain_le _ _).trans (b.pending.sumBy_retain_le _ _)

/-- An insertion keeps at most the new data beside what there was; a packet it
completes is taken out. -/
theorem bytes_insert_le (b : ReassemblyBuffer) (packetId : UInt64) (number total : UInt8) (data : Bytes)
    (now : UInt64) :
    let r := b.insert packetId number total data now
    r.1.bytes + (r.2.getD []).length ≤ b.bytes + data.length := by
  intro r
  have hroom := b.bytes_makeRoom_le packetId
  have hcases := b.insert_cases packetId number total data now
  set slot := (b.pending.get? packetId).getD (.new total.toNat now) with hslot
  have hold : slot.bytes = ((b.pending.get? packetId).map FragmentSlot.bytes).getD 0 := by
    rw [hslot]
    cases b.pending.get? packetId with
    | none => exact FragmentSlot.bytes_new _ _
    | some slot => rfl
  have hput := slot.bytes_put_le number.toNat data
  rcases hcases with ⟨-, h⟩ | ⟨-, -, h⟩ | ⟨-, -, h⟩
  · simp [r, h]
  · have hlen := (slot.put number.toNat data).length_assemble_le
    simp only [r, h, bytes, Option.getD_some] at hroom ⊢
    omega
  · simp only [r, h, bytes, SortedMap.sumBy_insert, Option.getD_none, List.length_nil] at hroom ⊢
    omega

/-- A fragment's header is not kept. -/
theorem bytes_insertPiece_le (b : ReassemblyBuffer) (piece : Bytes) (now : UInt64) :
    (b.insertPiece piece now).1.bytes + ((b.insertPiece piece now).2.getD []).length ≤
      b.bytes + (piece.length - Constants.minFragmentLength) := by
  rw [← List.length_drop]
  exact b.bytes_insert_le ..

end ReassemblyBuffer

namespace Node

theorem heldBytes_eq (n : Node) :
    n.heldBytes = n.reassembly.bytes + (n.pendingEncryptedPackets.map fun p => p.data.length).sum := rfl

/-! ### What a handler holds back -/

variable {pr : Primitives}

/-- The same fragments and the same packets wait. -/
def KeepsHeld (n n' : Node) : Prop :=
  n'.reassembly = n.reassembly ∧ n'.pendingEncryptedPackets = n.pendingEncryptedPackets

theorem KeepsHeld.heldBytes {n n' : Node} (h : KeepsHeld n n') : n'.heldBytes = n.heldBytes := by
  rw [heldBytes_eq, heldBytes_eq, h.1, h.2]

theorem keepsHeld_of_buffers {n n' : Node} (h : KeepsBuffers n n') : KeepsHeld n n' :=
  ⟨h.reassembly, h.pendingEncrypted⟩

theorem keepsHeld_deliverFrame (n : Node) (sender : ByteVec 5) (networkId : UInt64) (srcMac destMac : Mac)
    (ethertype : UInt16) (payload : Bytes) :
    KeepsHeld n (Vl2.deliverFrame pr n sender networkId srcMac destMac ethertype payload) := by
  unfold Vl2.deliverFrame
  split
  · exact ⟨rfl, rfl⟩
  · exact ⟨rfl, rfl⟩

/-- No handler holds anything back or takes anything up. -/
theorem keepsHeld_handleVerb {verb : Verb} {d : Dispatch} {fromAddr : SocketAddr} {now : UInt64} {n' : Node}
    (h : handleVerb pr verb d fromAddr now = .ok n') : KeepsHeld d.node n' := by
  by_cases hframe : verb = .frame
  · subst hframe
    obtain rfl := Except.ok.inj h
    unfold Vl2.handleFrame
    split
    · exact ⟨rfl, rfl⟩
    · exact keepsHeld_deliverFrame ..
  · by_cases hext : verb = .extFrame
    · subst hext
      obtain rfl := Except.ok.inj h
      unfold Vl2.handleExtFrame
      split
      · exact ⟨rfl, rfl⟩
      · exact keepsHeld_deliverFrame ..
    · by_cases hmulticast : verb = .multicastFrame
      · subst hmulticast
        obtain rfl := Except.ok.inj h
        unfold Vl2.handleMulticastFrame
        split
        · exact ⟨rfl, rfl⟩
        · exact keepsHeld_deliverFrame ..
      · exact keepsHeld_of_buffers (keepsBuffers_handleVerb pr h hframe hext hmulticast)

theorem keepsHeld_handleOkGeneric (n : Node) (ok : OkPayload) (data : Bytes) (now : UInt64) :
    KeepsHeld n (n.handleOkGeneric ok data now) := by
  unfold handleOkGeneric
  split
  · exact keepsHeld_of_buffers (keepsNetworks_handleMulticastGatherOk ..).toKeepsBuffers
  · split
    · exact keepsHeld_of_buffers (keepsBuffers_applyReceivedNetworkConfig ..)
    · exact ⟨rfl, rfl⟩

/-! ### Handlers never run out of fuel -/

theorem handleWhois_fuel (n : Node) (packet : Bytes) (fromAddr : SocketAddr) (now : UInt64) :
    n.handleWhois pr packet fromAddr now ≠ .error .outOfFuel := by
  unfold handleWhois answerWhois
  intro h
  split at h
  · cases h
  · simp only at h
    split at h
    · rename_i e hanswer
      split at hanswer
      · cases hanswer
      · split at hanswer
        · cases hanswer
        · split at hanswer
          · cases hanswer
            cases h
          · cases hanswer
    · cases h

theorem handleEcho_fuel (n : Node) (packet : Bytes) (fromAddr : SocketAddr) (packetId : UInt64) :
    n.handleEcho pr packet fromAddr packetId ≠ .error .outOfFuel := by
  unfold handleEcho
  intro h
  simp only at h
  split at h
  · cases h
  · split at h
    · cases h
    · split at h <;> cases h

variable (pr) in
theorem handleVerb_fuel (verb : Verb) (d : Dispatch) (fromAddr : SocketAddr) (now : UInt64) :
    handleVerb pr verb d fromAddr now ≠ .error .outOfFuel := by
  unfold handleVerb
  simp only
  split
  case h_2 => exact handleWhois_fuel _ _ _ _
  case h_4 => exact handleEcho_fuel _ _ _ _
  all_goals simp

/-! ### One call -/

/-- A receiver that settles every call with fewer than `bound` bytes, whose node holds
at most what there was and the datagram. -/
def SettledBelow (recv recv' : Receiver) (bound : Nat) : Prop :=
  ∀ n data fromAddr now, n.heldBytes + data.length < bound →
    Settled (recv n data fromAddr now) (recv' n data fromAddr now)
      fun r => r.node.heldBytes ≤ n.heldBytes + data.length

/-- A packet put to those that wait adds at most its own bytes. -/
theorem heldBytes_dropUnopened_le (n : Node) (data : Bytes) (fromAddr : SocketAddr) (now : UInt64) :
    (n.dropUnopened data fromAddr now).heldBytes ≤ n.heldBytes + data.length := by
  unfold dropUnopened
  simp only
  split
  · simp only [heldBytes_eq, pushAction, queuePendingEncryptedPacket]
    have hkept : ∀ p : PendingEncryptedPacket → Bool,
        ((n.pendingEncryptedPackets.filter p).map fun q => q.data.length).sum ≤
          (n.pendingEncryptedPackets.map fun q => q.data.length).sum :=
      fun p => (List.filter_sublist.map _).sum_le_sum fun _ _ => Nat.zero_le _
    set kept := n.pendingEncryptedPackets.filter _ with hk
    have hle := hk ▸ hkept _
    split
    · omega
    · rw [List.map_append, List.sum_append]
      simp only [List.map_cons, List.map_nil, List.sum_cons, List.sum_nil]
      split
      · have htail : (kept.tail.map fun q => q.data.length).sum ≤ (kept.map fun q => q.data.length).sum :=
          ((List.tail_sublist kept).map _).sum_le_sum fun _ _ => Nat.zero_le _
        omega
      · omega
  · exact Nat.le_add_right _ _

theorem heldBytes_finished_le {n n' : Node} {data : Bytes} {fromAddr : SocketAddr} {now : UInt64}
    (h : n.admitPacket pr data fromAddr now = .finished n') : n'.heldBytes ≤ n.heldBytes + data.length := by
  obtain ⟨-, rfl | rfl | rfl⟩ := admitPacket_finished h
  · exact Nat.le_add_right _ _
  · have hheld := (keepsHeld_of_buffers (onlySends_handleRelay pr { n with actions := [] } data now).toKeepsBuffers).heldBytes
    rw [hheld]
    exact Nat.le_add_right _ _
  · exact heldBytes_dropUnopened_le { n with actions := [] } data fromAddr now

section
variable {recv recv' : Receiver} {n : Node} {data : Bytes} {fromAddr : SocketAddr} {now : UInt64}

/-- The bytes of packets that wait. -/
def waitingBytes (l : List PendingEncryptedPacket) : Nat := (l.map fun w => w.data.length).sum

/-- What is held and what is still to be received never exceed the bound. -/
theorem replays_settled {bound : Nat} (hrecv : SettledBelow recv recv' (bound + 1)) (now : UInt64)
    (waiting more : List PendingEncryptedPacket) (p : Progress)
    (hp : p.node.heldBytes + waitingBytes (waiting ++ more) ≤ bound) :
    Settled (waiting.foldlM (replayOne recv now) p) (waiting.foldlM (replayOne recv' now) p)
      fun q => q.node.heldBytes + waitingBytes more ≤ bound := by
  let Inv (rest : List PendingEncryptedPacket) (q : Progress) : Prop :=
    q.node.heldBytes + waitingBytes (rest ++ more) ≤ bound
  refine Settled.foldlM Inv ?_ hp
  intro w rest q hq
  simp only [Inv, waitingBytes, List.cons_append, List.map_cons, List.sum_cons] at hq
  have hcall := hrecv { q.node with actions := [] } w.data w.sender (max now w.receivedAt)
    (by show q.node.heldBytes + _ < _; omega)
  refine hcall.bind fun r hr => .ok ?_
  have hr' : r.node.heldBytes ≤ q.node.heldBytes + w.data.length := hr
  show r.node.heldBytes + waitingBytes (rest ++ more) ≤ bound
  rw [waitingBytes]
  omega

/-- The bytes of the packets of a source are taken out of what is held. -/
theorem heldBytes_taken (n : Node) (source : ByteVec 5) :
    { n with pendingEncryptedPackets := n.pendingEncryptedPackets.filter (·.source ≠ source) }.heldBytes +
      waitingBytes (n.pendingEncryptedPackets.filter (·.source = source)) = n.heldBytes := by
  have hsplit : ∀ l : List PendingEncryptedPacket,
      waitingBytes (l.filter (·.source ≠ source)) + waitingBytes (l.filter (·.source = source)) =
        waitingBytes l := by
    intro l
    induction l with
    | nil => rfl
    | cons w rest ih =>
      by_cases hw : w.source = source
      · simp [waitingBytes, hw] at ih ⊢
        omega
      · simp [waitingBytes, hw] at ih ⊢
        omega
  have := hsplit n.pendingEncryptedPackets
  simp only [heldBytes_eq, waitingBytes] at this ⊢
  omega

/-- Taking up the packets of a source: their bytes are out of what is held. -/
theorem replay_settled {bound : Nat} (hrecv : SettledBelow recv recv' (bound + 1)) (source : ByteVec 5)
    (now : UInt64) (p : Progress) (hp : p.node.heldBytes ≤ bound) :
    Settled (replayPendingEncryptedPacketsFor recv source now p)
      (replayPendingEncryptedPacketsFor recv' source now p) fun q => q.node.heldBytes ≤ bound := by
  unfold replayPendingEncryptedPacketsFor
  refine (replays_settled hrecv now _ [] _ ?_).mono fun q hq => by simpa [waitingBytes] using hq
  rw [List.append_nil]
  exact (heldBytes_taken p.node source).trans_le hp

theorem resolve_settled {bound : Nat} (hrecv : SettledBelow recv recv' (bound + 1)) (now : UInt64)
    (identities : List Identity) (p : Progress) (hp : p.node.heldBytes ≤ bound) :
    Settled (identities.foldlM (resolveIdentity pr recv now) p)
      (identities.foldlM (resolveIdentity pr recv' now) p) fun q => q.node.heldBytes ≤ bound := by
  refine Settled.foldlM (fun _ (q : Progress) => q.node.heldBytes ≤ bound) ?_ hp
  intro identity rest q hq
  unfold resolveIdentity
  split
  · exact .ok hq
  · have hlearn := (keepsHeld_of_buffers (keepsNetworks_learnIdentity pr q.node identity now).toKeepsBuffers).heldBytes
    exact replay_settled hrecv _ now _ (hlearn.trans_le hq)

/-- One call settles if the calls with fewer bytes do. -/
theorem receiveWith_settled (hrecv : SettledBelow recv recv' (n.heldBytes + data.length)) :
    Settled (receiveWith pr recv n data fromAddr now) (receiveWith pr recv' n data fromAddr now)
      fun r => r.node.heldBytes ≤ n.heldBytes + data.length := by
  suffices hbody : Settled (receiveBody pr recv n data fromAddr now) (receiveBody pr recv' n data fromAddr now)
      fun p => p.node.heldBytes ≤ n.heldBytes + data.length from hbody.bind fun p hp => .ok hp
  unfold receiveBody
  split
  · unfold handleFragment
    split
    · exact .ok (Nat.le_add_right _ _)
    · rename_i hlen
      have hbytes := n.reassembly.bytes_insertPiece_le data now
      have h16 : Constants.minFragmentLength = 16 := rfl
      simp only
      split
      · rename_i hnone
        refine .ok ?_
        rw [hnone] at hbytes
        simp only [heldBytes_eq, Option.getD_none, List.length_nil] at hbytes ⊢
        omega
      · rename_i packet hsome
        rw [hsome] at hbytes
        simp only [Option.getD_some] at hbytes
        have hcall := hrecv { n with actions := [], reassembly := (n.reassembly.insertPiece data now).1 }
          packet fromAddr now (by simp only [heldBytes_eq]; omega)
        refine hcall.bind fun r hr => .ok ?_
        simp only [heldBytes_eq] at hr ⊢
        omega
  · rename_i n' hadmitted
    exact .ok (heldBytes_finished_le hadmitted)
  · rename_i d hadmitted
    obtain ⟨-, hlong, -, -, -, hnode, -⟩ := admitPacket_dispatch hadmitted
    have hpos : Constants.minPacketLength = 28 := rfl
    have hheld : d.node.heldBytes = n.heldBytes := by rw [hnode]; rfl
    have hnoted : d.node.heldBytes ≤ n.heldBytes + data.length := by omega
    unfold dispatch
    split
    · exact .ok hnoted
    · unfold handleOk
      split
      · exact .ok hnoted
      · split
        · exact .ok hnoted
        · have hbelow : SettledBelow recv recv' (n.heldBytes + 1) :=
            fun m data' from' now' h => hrecv m data' from' now' (by omega)
          exact (resolve_settled hbelow now _ ⟨d.node, []⟩ hheld.le).mono fun q hq => by omega
        · exact .ok ((keepsHeld_handleOkGeneric d.node _ _ now).heldBytes.trans_le hnoted)
    · rename_i verb _ _
      have hverb := Settled.alone (handleVerb_fuel pr verb d fromAddr now)
        fun m hm => (keepsHeld_handleVerb hm).heldBytes
      exact hverb.bind fun m hm => .ok (hm.trans_le hnoted)

/-- Fuel beyond the bytes at hand makes no difference. -/
theorem receiveFuel_settled (fuel fuel' : Nat) :
    SettledBelow (receiveFuel pr fuel) (receiveFuel pr fuel') (min fuel fuel') := by
  induction fuel generalizing fuel' with
  | zero =>
    intro n data fromAddr now h
    simp at h
  | succ fuel ih =>
    intro n data fromAddr now h
    cases fuel' with
    | zero => simp at h
    | succ fuel' =>
      refine receiveWith_settled fun m data' from' now' hm => ih fuel' m data' from' now' ?_
      omega

/-- The equation of the recursion in the source. -/
theorem receivePacket_eq (pr : Primitives) (n : Node) (data : Bytes) (fromAddr : SocketAddr) (now : UInt64) :
    n.receivePacket pr data fromAddr now = receiveWith pr (receivePacket pr) n data fromAddr now := by
  refine (receiveWith_settled ?_).eq
  intro m data' from' now' hm
  exact receiveFuel_settled _ _ m data' from' now' (by omega)

/-- So `receivePacket` is its own receiver. -/
theorem receivePacket_settled (pr : Primitives) (bound : Nat) :
    SettledBelow (receivePacket pr) (receivePacket pr) bound := by
  intro n data fromAddr now _
  exact receiveFuel_settled _ (n.heldBytes + data.length + 1) n data fromAddr now (by simp)

theorem receivePacket_fuel (pr : Primitives) (n : Node) (data : Bytes) (fromAddr : SocketAddr) (now : UInt64) :
    n.receivePacket pr data fromAddr now ≠ .error .outOfFuel :=
  (receivePacket_settled pr _ n data fromAddr now (Nat.lt_succ_self _)).fuel

end

/-! ### The calls that are made -/

variable (pr) in
/-- The answer to a packet fits the buffer it is built in. Only WHOIS and ECHO are
answered with as much as was asked. -/
def AnswerFits (d : Dispatch) : Prop :=
  match Verb.fromByte d.verbId with
  | some .whois =>
    ((WhoisRequest.deserialize (d.packet.drop Constants.minPacketLength)).filterMap
        d.node.knownIdentity).length ≤ whoisAnswerLimit ∨
      d.node.sharedSecretForPeer pr (PacketHeader.read d.packet).source = none
  | some .echo =>
    37 + (d.packet.drop Constants.minPacketLength).length ≤ answerBufferSize ∨
      d.node.identity.secret = none ∨
      d.node.sharedSecretForPeer pr (PacketHeader.read d.packet).source = none
  | _ => True

/-- A handler that makes no call returns exactly when its answer fits. -/
theorem handleAlone_returns_iff (d : Dispatch) (fromAddr : SocketAddr) (now : UInt64) :
    (∃ n', handleAlone pr d fromAddr now = .ok n') ↔ AnswerFits pr d := by
  unfold handleAlone AnswerFits
  cases hverb : Verb.fromByte d.verbId with
  | none => simp
  | some verb =>
    cases verb with
    | whois => exact handleWhois_returns_iff pr d.node d.packet fromAddr now
    | echo =>
      have hlimit : ∀ payload : Bytes,
          37 + payload.length ≤ answerBufferSize ↔ payload.length ≤ echoAnswerLimit := by
        intro payload
        unfold answerBufferSize echoAnswerLimit
        omega
      simp only [hlimit]
      exact handleEcho_returns_iff pr d.node d.packet fromAddr d.packetId
    | ok =>
      simp only [iff_true]
      split
      · exact ⟨_, rfl⟩
      · split <;> exact ⟨_, rfl⟩
    | _ => simp [handleVerb]

/-- What a call is given. -/
structure Given where
  node : Node
  data : Bytes
  fromAddr : SocketAddr
  now : UInt64

variable (pr) in
/-- While the first call is made, the second is entered: it is the same, or entered by
the call with the packet a fragment completes, or by that with a packet an answer to
WHOIS takes up, once those before it have been received. -/
inductive Enters : Given → Given → Prop where
  | self (g : Given) : Enters g g
  | fragment {n : Node} {data packet : Bytes} {fromAddr : SocketAddr} {now : UInt64} {g : Given}
      (hfrag : isFragment data = true) (hlen : Constants.minFragmentLength < data.length)
      (hwhole : (n.reassembly.insertPiece data now).2 = some packet) :
      Enters ⟨{ n with actions := [], reassembly := (n.reassembly.insertPiece data now).1 }, packet,
        fromAddr, now⟩ g → Enters ⟨n, data, fromAddr, now⟩ g
  | replay {n : Node} {data : Bytes} {fromAddr : SocketAddr} {now : UInt64} {g : Given} {d : Dispatch}
      {resolved unresolved : List Identity} {identity : Identity} {p q : Progress}
      {earlier later : List PendingEncryptedPacket} {packet : PendingEncryptedPacket}
      (hadmitted : n.admitPacket pr data fromAddr now = .dispatch d)
      (hverb : Verb.fromByte d.verbId = some .ok)
      (hanswer : whoisIdentities d.packet = some (resolved ++ identity :: unresolved))
      (hresolved : resolved.foldlM (resolveIdentity pr (receivePacket pr) now) ⟨d.node, []⟩ = .ok p)
      (hvalid : (p.node.identityAlreadyValidated identity || identity.validateAddress pr) = true)
      (hwaiting : p.node.pendingEncryptedPackets.filter (·.source = identity.address.bytes) =
        earlier ++ packet :: later)
      (hearlier : earlier.foldlM (replayOne (receivePacket pr) now)
        { p with node := { p.node.learnIdentity pr identity now with
            pendingEncryptedPackets := p.node.pendingEncryptedPackets.filter
              (·.source ≠ identity.address.bytes) } } = .ok q) :
      Enters ⟨{ q.node with actions := [] }, packet.data, packet.sender, max now packet.receivedAt⟩ g →
      Enters ⟨n, data, fromAddr, now⟩ g

variable (pr) in
/-- The answer to a call's packet, if it is handled, fits its buffer. -/
def Given.AnswerFits (g : Given) : Prop :=
  ∀ d, g.node.admitPacket pr g.data g.fromAddr g.now = .dispatch d → Node.AnswerFits pr d

/-- Taking up what waits for a learned identity: the same packets wait as before. -/
theorem pending_learnIdentity (n : Node) (identity : Identity) (now : UInt64) :
    (n.learnIdentity pr identity now).pendingEncryptedPackets = n.pendingEncryptedPackets :=
  (keepsNetworks_learnIdentity pr n identity now).pendingEncrypted

theorem admitPacket_of_fragment {n : Node} {data : Bytes} {fromAddr : SocketAddr} {now : UInt64}
    (h : isFragment data = true) : n.admitPacket pr data fromAddr now = .fragment := by
  simp [admitPacket, h]

/-- What a fragment's call does with the packet it completes. -/
theorem receiveBody_whole {recv : Receiver} {n : Node} {data packet : Bytes} {fromAddr : SocketAddr} {now : UInt64}
    (hfrag : isFragment data = true) (hlen : Constants.minFragmentLength < data.length)
    (hwhole : (n.reassembly.insertPiece data now).2 = some packet) :
    receiveBody pr recv n data fromAddr now = do
      let r ← recv { n with actions := [], reassembly := (n.reassembly.insertPiece data now).1 } packet fromAddr now
      return ⟨{ r.node with actions := r.node.actions ++ r.actions }, r.calls⟩ := by
  unfold receiveBody
  rw [admitPacket_of_fragment hfrag]
  simp only [handleFragment, if_neg (Nat.not_le.mpr hlen), hwhole]

/-- What resolving an identity does with the packets that wait for it. -/
theorem resolveIdentity_valid {recv : Receiver} {p : Progress} {identity : Identity} {now : UInt64}
    (hvalid : (p.node.identityAlreadyValidated identity || identity.validateAddress pr) = true) :
    resolveIdentity pr recv now p identity =
      (p.node.pendingEncryptedPackets.filter (·.source = identity.address.bytes)).foldlM (replayOne recv now)
        { p with node := { p.node.learnIdentity pr identity now with
            pendingEncryptedPackets := p.node.pendingEncryptedPackets.filter
              (·.source ≠ identity.address.bytes) } } := by
  have hnot : ¬ (! p.node.identityAlreadyValidated identity && ! identity.validateAddress pr) = true := by
    simpa [or_iff_not_imp_left] using hvalid
  unfold resolveIdentity
  rw [if_neg hnot]
  unfold replayPendingEncryptedPacketsFor
  simp only [pending_learnIdentity]

theorem resolveIdentity_invalid {recv : Receiver} {p : Progress} {identity : Identity} {now : UInt64}
    (hinvalid : (p.node.identityAlreadyValidated identity || identity.validateAddress pr) = false) :
    resolveIdentity pr recv now p identity = .ok p := by
  have hskip : (! p.node.identityAlreadyValidated identity && ! identity.validateAddress pr) = true := by
    rw [← Bool.not_or, hinvalid, Bool.not_false]
  unfold resolveIdentity
  rw [if_pos hskip]

/-- A call that is made returns if the call that makes it does. -/
theorem returns_of_enters {g g' : Given} (h : Enters pr g g')
    (hreturns : ∃ r, g.node.receivePacket pr g.data g.fromAddr g.now = .ok r) :
    ∃ r, g'.node.receivePacket pr g'.data g'.fromAddr g'.now = .ok r := by
  induction h with
  | self => exact hreturns
  | fragment hfrag hlen hwhole _ ih =>
    apply ih
    obtain ⟨r, hr⟩ := hreturns
    rw [receivePacket_eq] at hr
    obtain ⟨p, hp, -⟩ := bind_eq_ok hr
    rw [receiveBody_whole hfrag hlen hwhole] at hp
    obtain ⟨r', hr', -⟩ := bind_eq_ok hp
    exact ⟨r', hr'⟩
  | replay hadmitted hverb hanswer hresolved hvalid hwaiting hearlier _ ih =>
    apply ih
    obtain ⟨r, hr⟩ := hreturns
    rw [receivePacket_eq] at hr
    obtain ⟨p, hp, -⟩ := bind_eq_ok hr
    unfold receiveBody at hp
    rw [hadmitted] at hp
    rcases dispatch_cases pr _ hp with ⟨-, identities, hids, hfold⟩ | ⟨-, -, hnot⟩
    · rw [hanswer] at hids
      obtain rfl := Option.some.inj hids
      obtain ⟨q, hq⟩ := foldlM_ok_split hfold hresolved
      rw [resolveIdentity_valid hvalid, hwaiting] at hq
      obtain ⟨q', hq'⟩ := foldlM_ok_split hq hearlier
      obtain ⟨r', hr', -⟩ := bind_eq_ok hq'
      exact ⟨r', hr'⟩
    · exact absurd ⟨hverb, by simp [hanswer]⟩ hnot

/-- The answer of a call that returned fits. -/
theorem answerFits_of_returns {g : Given}
    (h : ∃ r, g.node.receivePacket pr g.data g.fromAddr g.now = .ok r) : g.AnswerFits pr := by
  obtain ⟨r, hr⟩ := h
  intro d hadmitted
  rw [receivePacket_eq] at hr
  obtain ⟨p, hp, -⟩ := bind_eq_ok hr
  unfold receiveBody at hp
  rw [hadmitted] at hp
  rcases dispatch_cases pr _ hp with ⟨hverb, -⟩ | ⟨halone, -⟩
  · simp [Node.AnswerFits, hverb]
  · exact (handleAlone_returns_iff d g.fromAddr g.now).mp ⟨_, halone⟩

/-- A packet that was not handled to its end: a loop over identities broke off, or its
answer does not fit. -/
theorem dispatch_error {d : Dispatch} {fromAddr : SocketAddr} {now : UInt64} {e : Fault}
    (h : dispatch pr (receivePacket pr) d fromAddr now = .error e) :
    (Verb.fromByte d.verbId = some .ok ∧ ∃ identities, whoisIdentities d.packet = some identities ∧
      identities.foldlM (resolveIdentity pr (receivePacket pr) now) ⟨d.node, []⟩ = .error e) ∨
    ¬ AnswerFits pr d := by
  unfold dispatch at h
  split at h
  · cases h
  · rename_i hverb
    unfold handleOk at h
    split at h
    · cases h
    · rename_i ok hdes
      obtain ⟨inReVerb, inRePacketId, sub⟩ := ok
      cases sub with
      | hello timestampEcho _ _ _ _ _ => cases h
      | whois identities => exact .inl ⟨hverb, identities, by simp [whoisIdentities, hdes], h⟩
      | generic data => cases h
  · rename_i verb hne hverb
    right
    rw [← handleAlone_returns_iff d fromAddr now]
    rintro ⟨n', hn'⟩
    simp only [handleAlone, hverb] at hn'
    rcases bind_eq_error h with he | ⟨_, -, he⟩
    · rw [hn'] at he
      cases he
    · cases he

/-- A whole packet of fragments is received in a call of its own. -/
theorem error_fragment {n : Node} {data : Bytes} {fromAddr : SocketAddr} {now : UInt64} {e : Fault}
    (hfrag : isFragment data = true)
    (h : receiveBody pr (receivePacket pr) n data fromAddr now = .error e) :
    ∃ g : Given, g.node.heldBytes + g.data.length < n.heldBytes + data.length ∧
      g.node.receivePacket pr g.data g.fromAddr g.now = .error e ∧
      ∀ g', Enters pr g g' → Enters pr ⟨n, data, fromAddr, now⟩ g' := by
  by_cases hlen : Constants.minFragmentLength < data.length
  · cases hwhole : (n.reassembly.insertPiece data now).2 with
    | none =>
      simp [receiveBody, admitPacket_of_fragment hfrag, handleFragment, Nat.not_le.mpr hlen, hwhole] at h
    | some packet =>
      rw [receiveBody_whole hfrag hlen hwhole] at h
      refine ⟨⟨{ n with actions := [], reassembly := (n.reassembly.insertPiece data now).1 }, packet,
        fromAddr, now⟩, ?_, ?_, fun g' hg' => .fragment hfrag hlen hwhole hg'⟩
      · have hbytes := n.reassembly.bytes_insertPiece_le data now
        have h16 : Constants.minFragmentLength = 16 := rfl
        rw [hwhole, Option.getD_some] at hbytes
        simp only [heldBytes_eq]
        omega
      · rcases bind_eq_error h with hnested | ⟨_, -, hok⟩
        · exact hnested
        · cases hok
  · simp [receiveBody, admitPacket_of_fragment hfrag, handleFragment, Nat.not_lt.mp hlen] at h

/-- What waited for an identity is received in calls of its own. -/
theorem error_replay {n : Node} {data : Bytes} {fromAddr : SocketAddr} {now : UInt64} {e : Fault} {d : Dispatch}
    {identities : List Identity} (hadmitted : n.admitPacket pr data fromAddr now = .dispatch d)
    (hverb : Verb.fromByte d.verbId = some .ok) (hanswer : whoisIdentities d.packet = some identities)
    (hfold : identities.foldlM (resolveIdentity pr (receivePacket pr) now) ⟨d.node, []⟩ = .error e) :
    ∃ g : Given, g.node.heldBytes + g.data.length < n.heldBytes + data.length ∧
      g.node.receivePacket pr g.data g.fromAddr g.now = .error e ∧
      ∀ g', Enters pr g g' → Enters pr ⟨n, data, fromAddr, now⟩ g' := by
  obtain ⟨-, hlong, -, -, -, hnode, -⟩ := admitPacket_dispatch hadmitted
  have hheld : d.node.heldBytes = n.heldBytes := by rw [hnode]; rfl
  have hpos : Constants.minPacketLength = 28 := rfl
  obtain ⟨resolved, identity, unresolved, p, rfl, hresolved, hthis⟩ := foldlM_error hfold
  have hp : p.node.heldBytes ≤ n.heldBytes :=
    (resolve_settled (receivePacket_settled pr _) now resolved ⟨d.node, []⟩ hheld.le).post p hresolved
  have hvalid : (p.node.identityAlreadyValidated identity || identity.validateAddress pr) = true := by
    by_contra hnot
    rw [resolveIdentity_invalid (eq_false_of_ne_true hnot)] at hthis
    exact absurd hthis (by simp)
  rw [resolveIdentity_valid hvalid] at hthis
  obtain ⟨earlier, packet, later, q, hwaiting, hearlier, hbroke⟩ := foldlM_error hthis
  have hlearned : (p.node.learnIdentity pr identity now).heldBytes = p.node.heldBytes :=
    (keepsHeld_of_buffers (keepsNetworks_learnIdentity pr p.node identity now).toKeepsBuffers).heldBytes
  have htaken := heldBytes_taken (p.node.learnIdentity pr identity now) identity.address.bytes
  rw [pending_learnIdentity, hwaiting, hlearned] at htaken
  generalize hstart : ({ p with node := { p.node.learnIdentity pr identity now with
    pendingEncryptedPackets := p.node.pendingEncryptedPackets.filter
      (·.source ≠ identity.address.bytes) } } : Progress) = start at hearlier
  have hbytes : start.node.heldBytes + waitingBytes (earlier ++ packet :: later) ≤ n.heldBytes := by
    rw [← hstart]
    exact htaken.trans_le hp
  have hq := (replays_settled (receivePacket_settled pr _) now earlier (packet :: later) start
    hbytes).post q hearlier
  refine ⟨⟨{ q.node with actions := [] }, packet.data, packet.sender, max now packet.receivedAt⟩, ?_, ?_,
    fun g' hg' => .replay hadmitted hverb hanswer hresolved hvalid hwaiting (hstart ▸ hearlier) hg'⟩
  · simp only [waitingBytes, List.map_cons, List.sum_cons] at hq
    show q.node.heldBytes + packet.data.length < _
    omega
  · rcases bind_eq_error hbroke with hnested | ⟨_, -, hok⟩
    · exact hnested
    · cases hok

/-- What a call that did not return was doing: it called another that did not, or its
answer does not fit. -/
theorem error_cases {n : Node} {data : Bytes} {fromAddr : SocketAddr} {now : UInt64} {e : Fault}
    (h : n.receivePacket pr data fromAddr now = .error e) :
    ¬ Given.AnswerFits pr ⟨n, data, fromAddr, now⟩ ∨
    ∃ g : Given, g.node.heldBytes + g.data.length < n.heldBytes + data.length ∧
      g.node.receivePacket pr g.data g.fromAddr g.now = .error e ∧
      ∀ g', Enters pr g g' → Enters pr ⟨n, data, fromAddr, now⟩ g' := by
  rw [receivePacket_eq] at h
  have hbody : receiveBody pr (receivePacket pr) n data fromAddr now = .error e := by
    rcases bind_eq_error h with hbody | ⟨_, -, hok⟩
    · exact hbody
    · cases hok
  by_cases hfrag : isFragment data = true
  · exact .inr (error_fragment hfrag hbody)
  · unfold receiveBody at hbody
    split at hbody
    · rename_i hadmitted
      exact absurd (admitPacket_fragment hadmitted) hfrag
    · cases hbody
    · rename_i d hadmitted
      rcases dispatch_error hbody with ⟨hverb, identities, hanswer, hfold⟩ | hover
      · exact .inr (error_replay hadmitted hverb hanswer hfold)
      · exact .inl fun hfits => hover (hfits d hadmitted)

/-- A call whose answers fit, and those of all calls made in it, returns. -/
theorem returns_of_fits (bound : Nat) (g : Given) (hbound : g.node.heldBytes + g.data.length < bound)
    (hfits : ∀ g', Enters pr g g' → g'.AnswerFits pr) :
    ∃ r, g.node.receivePacket pr g.data g.fromAddr g.now = .ok r := by
  induction bound generalizing g with
  | zero => exact absurd hbound (Nat.not_lt_zero _)
  | succ bound ih =>
    cases hr : g.node.receivePacket pr g.data g.fromAddr g.now with
    | ok r => exact ⟨r, rfl⟩
    | error e =>
      rcases error_cases hr with hover | ⟨g', hless, hr', henters⟩
      · exact absurd (hfits g (.self g)) hover
      · obtain ⟨r', hok⟩ := ih g' (by omega) fun g'' hg'' => hfits g'' (henters g'' hg'')
        rw [hok] at hr'
        cases hr'

/-- Receiving always terminates, and it returns unless an answer does not fit. For every
node, datagram, sender and time, the calls are never nested deeper than the bytes at
hand allow, and `receivePacket` returns exactly when no call made in it, itself
included, has to answer a WHOIS or an ECHO with more than its buffer holds. -/
theorem receivePacket_returns_iff (pr : Primitives) (n : Node) (data : Bytes) (fromAddr : SocketAddr)
    (now : UInt64) :
    n.receivePacket pr data fromAddr now ≠ .error .outOfFuel ∧
      ((∃ r, n.receivePacket pr data fromAddr now = .ok r) ↔
        ∀ g, Enters pr ⟨n, data, fromAddr, now⟩ g → g.AnswerFits pr) := by
  refine ⟨receivePacket_fuel pr n data fromAddr now, ?_, ?_⟩
  · intro hreturns g hg
    exact answerFits_of_returns (returns_of_enters hg hreturns)
  · intro hfits
    exact returns_of_fits _ ⟨n, data, fromAddr, now⟩ (Nat.lt_succ_self _) hfits

/-- A node that has just been created is asked for its own address 29 times by a root. -/
theorem receivePacket_breaks_off : ¬ ∀ (pr : Primitives) (identity : Identity) (planetData : Bytes) (id : UInt64)
    (n : Node), Node.new identity planetData id = .ok n → ∀ (data : Bytes) (fromAddr : SocketAddr) (now : UInt64),
    ∃ r, n.receivePacket pr data fromAddr now = .ok r := by
  intro hall
  have hfits : ∀ data fromAddr now, Given.AnswerFits Sample.primitives ⟨Sample.start, data, fromAddr, now⟩ := by
    intro data fromAddr now
    apply answerFits_of_returns
    exact hall Sample.primitives _ _ _ _ Sample.new_start data fromAddr now
  set c := sampleWhois (List.replicate 29 (Sample.identity 1).address.bytes) with hc
  have hcheck : (c.dispatched Sample.primitives).any (fun d =>
      Verb.fromByte d.verbId = some .whois ∧
      whoisAnswerLimit < ((WhoisRequest.deserialize (d.packet.drop Constants.minPacketLength)).filterMap
        d.node.knownIdentity).length ∧
      d.node.sharedSecretForPeer Sample.primitives (PacketHeader.read d.packet).source ≠ none) = true := by
    decide +kernel
  obtain ⟨d, hd, hall'⟩ := (Option.any_eq_true _ _).mp hcheck
  obtain ⟨hverb, hmany, hkey⟩ := of_decide_eq_true hall'
  have hthis := hfits _ _ _ d (Call.dispatched_eq_some.mp hd)
  simp only [Node.AnswerFits, hverb] at hthis
  rcases hthis with hfew | hnone
  · exact absurd hmany (Nat.not_lt.mpr hfew)
  · exact hkey hnone

end Node

end ManyTier
