import ManyTier.Protocol.Header
import ManyTier.Lib.SortedMap
import ManyTier.Lib.Collector

/-! Splitting packets into fragments and putting them together.

`fragmentPacket` cuts a packet that does not fit the MTU into at most seven pieces;
`ReassemblyBuffer` collects pieces by packet id. A slot of the buffer is read as the
set of piece numbers it holds (`SlotHolds`), one insertion is one step of a
collector over those numbers (`insert_step`), and `fragmentPacket_reassembles`
is what follows for any order of deliveries. -/
namespace ManyTier

/-! ### The splitter -/

/-- The header of piece `number` of `total`: the packet's id, destination and hops. -/
def fragmentHeader (packet : Bytes) (total number : Nat) : FragmentHeader where
  packetId := fieldAt 8 packet 0
  dest := fieldAt 5 packet 8
  indicator := Constants.fragmentIndicator
  fragmentInfo := (UInt8.ofNat total <<< 4) ||| UInt8.ofNat number
  hops := (PacketHeader.read packet).hops

/-- Piece `number`: its header and its stretch of the packet. -/
def fragmentPiece (packet : Bytes) (maxPayload total number : Nat) : Bytes :=
  (fragmentHeader packet total number).toBytes ++ slice packet (number * maxPayload) maxPayload

def fragmentPacket (packet : Bytes) (mtu : Nat) : Option (List Bytes) :=
  if packet.length ≤ mtu then some [packet]
  else if mtu ≤ Constants.minFragmentLength then none
  else do
    let _ ← PacketHeader.fromBytes packet
    let maxPayload := mtu - Constants.minFragmentLength
    let total := (packet.length + maxPayload - 1) / maxPayload
    if total = 0 ∨ Constants.maxPacketFragments < total then none
    else some ((List.range total).map (fragmentPiece packet maxPayload total))

/-! ### The buffer -/

structure FragmentSlot where
  fragments : List.Vector (Option Bytes) Constants.maxPacketFragments
  totalExpected : Nat
  receivedCount : Nat
  createdAt : UInt64
  deriving DecidableEq

namespace FragmentSlot

def new (total : Nat) (now : UInt64) : FragmentSlot :=
  ⟨List.Vector.replicate _ none, total, 0, now⟩

def piece (s : FragmentSlot) (i : Nat) : Option Bytes := s.fragments.toList.getD i none

/-- The first copy of a piece is kept. -/
def put (s : FragmentSlot) (i : Nat) (data : Bytes) : FragmentSlot :=
  if (s.piece i).isNone then
    { s with
      fragments := ⟨s.fragments.toList.set i (some data), by simp⟩
      receivedCount := s.receivedCount + 1 }
  else s

def assemble (s : FragmentSlot) : Bytes :=
  (List.range s.totalExpected).flatMap fun i => (s.piece i).getD []

end FragmentSlot

structure ReassemblyBuffer where
  pending : SortedMap UInt64 FragmentSlot
  maxPending : Nat
  deriving DecidableEq

namespace ReassemblyBuffer

def new (maxPending : Nat) : ReassemblyBuffer := ⟨.empty, maxPending⟩

/-- The id of the slot created first; of several, the smallest id. -/
def oldestId (b : ReassemblyBuffer) : Option UInt64 :=
  let older (best : Option (UInt64 × FragmentSlot)) (e : UInt64 × FragmentSlot) :=
    match best with
    | none => some e
    | some old => if e.2.createdAt < old.2.createdAt then some e else best
  (b.pending.entries.foldl older none).map Prod.fst

/-- At capacity, a new packet id takes the place of the oldest slot. -/
def makeRoom (b : ReassemblyBuffer) (packetId : UInt64) : ReassemblyBuffer :=
  if ! b.pending.contains packetId ∧ b.maxPending ≤ b.pending.size then
    match b.oldestId with
    | some id => { b with pending := b.pending.erase id }
    | none => b
  else b

/-- Whether the numbers of a fragment can be those of a packet. -/
def validNumbers (fragmentNumber totalFragments : UInt8) : Bool :=
  ! (totalFragments = 0 ∨ Constants.maxPacketFragments < totalFragments.toNat ∨
    totalFragments ≤ fragmentNumber)

def insert (b : ReassemblyBuffer) (packetId : UInt64) (fragmentNumber totalFragments : UInt8)
    (data : Bytes) (now : UInt64) : ReassemblyBuffer × Option Bytes :=
  if ! validNumbers fragmentNumber totalFragments then (b, none)
  else
    let b := b.makeRoom packetId
    let slot := (b.pending.get? packetId).getD (.new totalFragments.toNat now)
    let slot := slot.put fragmentNumber.toNat data
    if slot.totalExpected ≤ slot.receivedCount then
      ({ b with pending := b.pending.erase packetId }, some slot.assemble)
    else ({ b with pending := b.pending.insert packetId slot }, none)

def evictStale (b : ReassemblyBuffer) (now timeout : UInt64) : ReassemblyBuffer :=
  { b with pending := b.pending.retain fun _ slot => satSub now slot.createdAt < timeout }

/-- A received fragment: its header says where its payload goes. -/
def insertPiece (b : ReassemblyBuffer) (piece : Bytes) (now : UInt64) :
    ReassemblyBuffer × Option Bytes :=
  let h := FragmentHeader.read piece
  b.insert h.packetIdU64 h.fragmentNumber h.totalFragments
    (piece.drop Constants.minFragmentLength) now

end ReassemblyBuffer

/-! ### Pieces -/

/-- Consecutive stretches of `size` bytes are a prefix. -/
theorem flatMap_slice (packet : Bytes) (size count : Nat) :
    (List.range count).flatMap (fun n => slice packet (n * size) size) = packet.take (count * size) := by
  induction count with
  | zero => simp
  | succ count ih =>
    rw [List.range_succ, List.flatMap_append, ih, List.flatMap_cons, List.flatMap_nil,
      List.append_nil, slice, Nat.succ_mul, List.take_add]

/-- The number and the total share a byte without loss. -/
theorem fragmentInfo_fields (total number : Nat) (ht : total ≤ Constants.maxPacketFragments)
    (hn : number < total) (packet : Bytes) :
    (fragmentHeader packet total number).totalFragments = UInt8.ofNat total ∧
      (fragmentHeader packet total number).fragmentNumber = UInt8.ofNat number := by
  have hall : ∀ t ∈ List.range 8, ∀ n ∈ List.range 8,
      (((UInt8.ofNat t <<< 4) ||| UInt8.ofNat n) >>> 4) &&& 0x0f = UInt8.ofNat t ∧
        ((UInt8.ofNat t <<< 4) ||| UInt8.ofNat n) &&& 0x0f = UInt8.ofNat n := by decide
  simp only [Constants.maxPacketFragments] at ht
  exact hall total (by simp; omega) number (by simp; omega)

/-- What a successful split of a packet that does not fit gives. -/
theorem fragmentPacket_cases {packet : Bytes} {mtu : Nat} {pieces : List Bytes}
    (hmtu : mtu < packet.length) (h : fragmentPacket packet mtu = some pieces) :
    ∃ size total, mtu = Constants.minFragmentLength + size ∧ 0 < size ∧ 0 < total ∧
      total ≤ Constants.maxPacketFragments ∧ packet.length ≤ total * size ∧
      (∀ n < total, n * size < packet.length) ∧
      pieces = (List.range total).map (fragmentPiece packet size total) := by
  unfold fragmentPacket at h
  rw [if_neg (by omega)] at h
  split at h
  · cases h
  · rename_i hsmall
    obtain ⟨header, -, h⟩ := Option.bind_eq_some_iff.mp h
    simp only at h
    split at h
    · cases h
    · rename_i hcount
      cases h
      set size := mtu - Constants.minFragmentLength with hsize
      have hpos : 0 < size := by omega
      set total := (packet.length + size - 1) / size with htotal
      have hge : packet.length ≤ total * size := by
        have := Nat.lt_div_mul_add (a := packet.length + size - 1) hpos
        rw [← htotal] at this
        omega
      have hbelow : ∀ n < total, n * size < packet.length := by
        intro n hn
        have hle : (n + 1) * size ≤ packet.length + size - 1 :=
          (Nat.mul_le_mul_right size hn).trans (Nat.div_mul_le_self _ _)
        rw [Nat.succ_mul] at hle
        omega
      have hsome : 0 < total := Nat.pos_of_ne_zero fun h0 => hcount (.inl h0)
      have hfew : total ≤ Constants.maxPacketFragments := Nat.le_of_not_lt fun h7 => hcount (.inr h7)
      exact ⟨size, total, by omega, hpos, hsome, hfew, hge, hbelow, rfl⟩

/-- Every piece fits, is a fragment and names its packet and its place. -/
theorem fragmentPiece_fields (packet : Bytes) (size total number : Nat)
    (ht : total ≤ Constants.maxPacketFragments) (hn : number < total) :
    let piece := fragmentPiece packet size total number
    piece.length ≤ Constants.minFragmentLength + size ∧ isFragment piece = true ∧
      (FragmentHeader.read piece).packetId = (PacketHeader.read packet).iv ∧
      (FragmentHeader.read piece).dest = (PacketHeader.read packet).dest ∧
      (FragmentHeader.read piece).totalFragments = UInt8.ofNat total ∧
      (FragmentHeader.read piece).fragmentNumber = UInt8.ofNat number ∧
      piece.drop Constants.minFragmentLength = slice packet (number * size) size := by
  intro piece
  have hread : FragmentHeader.read piece = fragmentHeader packet total number :=
    FragmentHeader.read_toBytes ..
  obtain ⟨htotal, hnumber⟩ := fragmentInfo_fields total number ht hn packet
  have hlen : 16 ≤ piece.length := by simp [piece, fragmentPiece]
  have hind : byteAt piece 13 = Constants.fragmentIndicator :=
    congrArg FragmentHeader.indicator hread
  refine ⟨?_, ?_, ?_, ?_, ?_, ?_, ?_⟩
  · simp [piece, fragmentPiece, Constants.minFragmentLength]
  · simp [isFragment, Constants.minFragmentLength, hlen, hind]
  · rw [hread]; rfl
  · rw [hread]; rfl
  · rw [hread, htotal]
  · rw [hread, hnumber]
  · exact List.drop_left' (by simp [Constants.minFragmentLength])

/-! ### A slot as a set of piece numbers -/

/-- The slot holds exactly the chunks numbered `held` of a packet of `total` chunks. -/
structure SlotHolds (chunk : Nat → Bytes) (total : Nat) (held : Finset Nat) (slot : FragmentSlot) :
    Prop where
  total_eq : slot.totalExpected = total
  count_eq : slot.receivedCount = held.card
  subset : held ⊆ Finset.range total
  pieces : ∀ i < Constants.maxPacketFragments,
    slot.piece i = if i ∈ held then some (chunk i) else none

section
variable {chunk : Nat → Bytes} {total : Nat} {held : Finset Nat} {slot : FragmentSlot}

theorem slotHolds_new (chunk : Nat → Bytes) (total : Nat) (now : UInt64) :
    SlotHolds chunk total ∅ (.new total now) := by
  refine ⟨rfl, rfl, Finset.empty_subset _, ?_⟩
  intro i hi
  simp [FragmentSlot.piece, FragmentSlot.new, List.Vector.replicate, List.Vector.toList, hi]

theorem FragmentSlot.piece_put (s : FragmentSlot) (i j : Nat) (data : Bytes)
    (hi : i < Constants.maxPacketFragments) :
    (s.put i data).piece j = if j = i then some ((s.piece i).getD data) else s.piece j := by
  unfold put
  cases hp : s.piece i with
  | some old => by_cases hj : j = i <;> simp [hj, hp]
  | none =>
    by_cases hj : j = i
    · subst hj
      simp [piece, List.Vector.toList, hi]
    · have hne : i ≠ j := Ne.symm hj
      simp [piece, List.Vector.toList, hj, List.getElem?_set_ne hne]

/-- One insertion adds one number; a number already held changes nothing. -/
theorem SlotHolds.put (h : SlotHolds chunk total held slot) {i : Nat} (hi : i < total)
    (ht : total ≤ Constants.maxPacketFragments) :
    SlotHolds chunk total (held ∪ {i}) (slot.put i (chunk i)) := by
  have hi7 : i < Constants.maxPacketFragments := hi.trans_le ht
  have hpiece := h.pieces i hi7
  refine ⟨?_, ?_, ?_, ?_⟩
  · rw [← h.total_eq]
    unfold FragmentSlot.put
    split <;> rfl
  · unfold FragmentSlot.put
    by_cases hmem : i ∈ held
    · simp [hpiece, hmem, h.count_eq]
    · simp [hpiece, hmem, h.count_eq]
  · intro j hj
    rcases Finset.mem_union.mp hj with hj | hj
    · exact h.subset hj
    · rw [Finset.mem_singleton.mp hj]
      exact Finset.mem_range.mpr hi
  · intro j hj
    rw [FragmentSlot.piece_put _ _ _ _ hi7, h.pieces j hj, hpiece]
    by_cases hji : j = i
    · by_cases hmem : i ∈ held <;> simp [hji, hmem]
    · simp [hji]

/-- A slot is complete when no number is missing. -/
theorem SlotHolds.complete_iff (h : SlotHolds chunk total held slot) :
    slot.totalExpected ≤ slot.receivedCount ↔ Finset.range total ⊆ held := by
  rw [h.total_eq, h.count_eq]
  constructor
  · intro hle
    rw [Finset.eq_of_subset_of_card_le h.subset (by simpa using hle)]
  · intro hsub
    simpa using Finset.card_le_card hsub

theorem SlotHolds.assemble (h : SlotHolds chunk total held slot)
    (hall : Finset.range total ⊆ held) (ht : total ≤ Constants.maxPacketFragments) :
    slot.assemble = (List.range total).flatMap chunk := by
  unfold FragmentSlot.assemble
  rw [h.total_eq]
  apply List.flatMap_congr
  intro i hi
  have hlt : i < total := List.mem_range.mp hi
  have hmem : i ∈ held := hall (Finset.mem_range.mpr hlt)
  rw [h.pieces i (hlt.trans_le ht), if_pos hmem, Option.getD_some]

end

/-! ### Deliveries -/

/-- A call on a buffer, seen from one packet's pieces: one of them, a fragment of
another packet, or a sweep for stale slots. -/
inductive Delivery where
  | piece (number : Nat) (now : UInt64)
  | other (packetId : UInt64) (number total : UInt8) (data : Bytes) (now : UInt64)
  | evictStale (now timeout : UInt64)
  deriving DecidableEq

namespace ReassemblyBuffer
variable (pieces : List Bytes)

def deliver (b : ReassemblyBuffer) : Delivery → ReassemblyBuffer × Option Bytes
  | .piece number now => b.insertPiece (pieces.getD number []) now
  | .other packetId number total data now => b.insert packetId number total data now
  | .evictStale now timeout => (b.evictStale now timeout, none)

def deliverAll (b : ReassemblyBuffer) : List Delivery → ReassemblyBuffer
  | [] => b
  | d :: rest => deliverAll (b.deliver pieces d).1 rest

/-- The delivery does not throw out what is held for `id`: neither the slot taken
for a new packet nor a slot found stale is the one of `id`. -/
def Keeps (id : UInt64) (b : ReassemblyBuffer) : Delivery → Prop
  | .piece _ _ => (b.makeRoom id).pending.get? id = b.pending.get? id
  | .other packetId number total _ _ =>
    validNumbers number total = true → (b.makeRoom packetId).pending.get? id = b.pending.get? id
  | .evictStale now timeout => (b.evictStale now timeout).pending.get? id = b.pending.get? id

instance (id : UInt64) (b : ReassemblyBuffer) (d : Delivery) : Decidable (b.Keeps id d) :=
  match d with
  | .piece _ _ => inferInstanceAs (Decidable (_ = _))
  | .other _ _ _ _ _ => inferInstanceAs (Decidable (_ → _))
  | .evictStale _ _ => inferInstanceAs (Decidable (_ = _))

def KeepsAll (id : UInt64) (b : ReassemblyBuffer) : List Delivery → Prop
  | [] => True
  | d :: rest => b.Keeps id d ∧ KeepsAll id (b.deliver pieces d).1 rest

instance decidableKeepsAll (id : UInt64) (b : ReassemblyBuffer) (ds : List Delivery) :
    Decidable (b.KeepsAll pieces id ds) :=
  match ds with
  | [] => inferInstanceAs (Decidable True)
  | d :: rest =>
    have := decidableKeepsAll id (b.deliver pieces d).1 rest
    inferInstanceAs (Decidable (_ ∧ _))

end ReassemblyBuffer

/-- The piece a delivery brings. -/
def Delivery.brings : Delivery → Finset Nat
  | .piece number _ => {number}
  | _ => ∅

/-- The deliveries are of the packet with this id and this many pieces, and of others. -/
def Delivery.For (id : UInt64) (total : Nat) : Delivery → Prop
  | .piece number _ => number < total
  | .other packetId _ _ _ _ => packetId ≠ id
  | .evictStale _ _ => True

instance (id : UInt64) (total : Nat) (d : Delivery) : Decidable (d.For id total) :=
  match d with
  | .piece _ _ => inferInstanceAs (Decidable (_ < _))
  | .other _ _ _ _ _ => inferInstanceAs (Decidable (_ ≠ _))
  | .evictStale _ _ => inferInstanceAs (Decidable True)

/-- What is held for `id` is the chunks numbered `held`. -/
def BufferHolds (chunk : Nat → Bytes) (total : Nat) (id : UInt64) (held : Finset Nat)
    (b : ReassemblyBuffer) : Prop :=
  match b.pending.get? id with
  | none => held = ∅
  | some slot => SlotHolds chunk total held slot

/-- A packet never takes the place of its own slot. -/
theorem ReassemblyBuffer.makeRoom_self (b : ReassemblyBuffer) (id : UInt64) :
    (b.makeRoom id).pending.get? id = b.pending.get? id := by
  unfold makeRoom
  split
  · rename_i hroom
    have hnone : b.pending.get? id = none := by simpa [SortedMap.contains] using hroom.1
    split
    · simp [SortedMap.get?_erase, hnone]
    · rfl
  · rfl

section
variable {chunk : Nat → Bytes} {total : Nat} {id : UInt64} {held : Finset Nat} {b : ReassemblyBuffer}

/-- A fragment with another id, or refused, leaves what is held for `id`. -/
theorem insert_other {packetId : UInt64} (hne : packetId ≠ id) (number tot : UInt8) (data : Bytes)
    (now : UInt64) (hkeep : ReassemblyBuffer.validNumbers number tot = true →
      (b.makeRoom packetId).pending.get? id = b.pending.get? id) :
    (b.insert packetId number tot data now).1.pending.get? id = b.pending.get? id := by
  unfold ReassemblyBuffer.insert
  split
  · rfl
  · rename_i hvalid
    have hkeep' := hkeep (by simpa using hvalid)
    simp only
    split
    · rw [SortedMap.get?_erase, if_neg (Ne.symm hne), hkeep']
    · rw [SortedMap.get?_insert_of_ne _ _ (Ne.symm hne), hkeep']

/-- One chunk inserted is one step of the collector. -/
theorem insert_step (hb : BufferHolds chunk total id held b) {n : Nat} (hn : n < total)
    (ht : total ≤ Constants.maxPacketFragments) (now : UInt64)
    (hkeep : (b.makeRoom id).pending.get? id = b.pending.get? id) :
    let r := b.insert id (UInt8.ofNat n) (UInt8.ofNat total) (chunk n) now
    let c := Collector.step (Finset.range total) held {n}
    BufferHolds chunk total id c.1 r.1 ∧
      r.2 = if c.2 then some ((List.range total).flatMap chunk) else none := by
  have h7 : Constants.maxPacketFragments = 7 := rfl
  have htot : (UInt8.ofNat total).toNat = total := by simp; omega
  have hnum : (UInt8.ofNat n).toNat = n := by simp; omega
  have hvalid : ReassemblyBuffer.validNumbers (UInt8.ofNat n) (UInt8.ofNat total) = true := by
    have hz : UInt8.ofNat total ≠ 0 := by
      intro h
      have := congrArg UInt8.toNat h
      rw [htot] at this
      simp at this
      omega
    have hle : ¬ UInt8.ofNat total ≤ UInt8.ofNat n := by
      rw [UInt8.le_iff_toNat_le, htot, hnum]
      omega
    simp [ReassemblyBuffer.validNumbers, hz, htot, hle]
    omega
  have hslot : SlotHolds chunk total held
      (((b.makeRoom id).pending.get? id).getD (.new total now)) := by
    rw [hkeep]
    unfold BufferHolds at hb
    cases hget : b.pending.get? id with
    | none =>
      rw [hget] at hb
      simp only at hb
      subst hb
      exact slotHolds_new chunk total now
    | some slot =>
      rw [hget] at hb
      exact hb
  have hput := hslot.put hn ht
  intro r c
  simp only [r, c, ReassemblyBuffer.insert, hvalid, htot, hnum, Bool.not_true, Bool.false_eq_true,
    if_false, Collector.step, hput.complete_iff]
  split
  · rename_i hall
    refine ⟨?_, ?_⟩
    · simp [BufferHolds, SortedMap.get?_erase]
    · simp [hput.assemble hall ht]
  · refine ⟨?_, by simp⟩
    simpa [BufferHolds] using hput

end

/-- The numbers of the pieces among the deliveries. -/
def delivered (ds : List Delivery) : Finset Nat := Collector.supplied (ds.map Delivery.brings)

section
variable {packet : Bytes} {size total : Nat}

/-- One delivery is one step of the collector over the piece numbers. -/
theorem deliver_step (ht : total ≤ Constants.maxPacketFragments) (hcover : packet.length ≤ total * size)
    (held : Finset Nat) (b : ReassemblyBuffer) (d : Delivery)
    (hmissing : ¬ Finset.range total ⊆ held)
    (hfor : d.For (PacketHeader.read packet).packetId total)
    (hkeep : b.Keeps (PacketHeader.read packet).packetId d)
    (hb : BufferHolds (fun n => slice packet (n * size) size) total
      (PacketHeader.read packet).packetId held b) :
    let pieces := (List.range total).map (fragmentPiece packet size total)
    let r := b.deliver pieces d
    let c := Collector.step (Finset.range total) held d.brings
    BufferHolds (fun n => slice packet (n * size) size) total
        (PacketHeader.read packet).packetId c.1 r.1 ∧
      (d.brings ≠ ∅ → r.2 = if c.2 then some packet else none) := by
  intro pieces r c
  cases d with
  | piece number now =>
    have hnum : number < total := hfor
    have hpiece : pieces.getD number [] = fragmentPiece packet size total number := by
      simp [pieces, hnum]
    obtain ⟨-, -, hid, -, htot, hno, hdrop⟩ := fragmentPiece_fields packet size total number ht hnum
    have hid' : (FragmentHeader.read (fragmentPiece packet size total number)).packetIdU64 =
        (PacketHeader.read packet).packetId := by
      rw [FragmentHeader.packetIdU64, hid]
      rfl
    have hr : r = b.insert (PacketHeader.read packet).packetId (UInt8.ofNat number)
        (UInt8.ofNat total) (slice packet (number * size) size) now := by
      show b.insertPiece _ now = _
      rw [hpiece, ReassemblyBuffer.insertPiece, hid', htot, hno, hdrop]
    obtain ⟨hholds, hout⟩ := insert_step hb hnum ht now hkeep
    have hwhole : (List.range total).flatMap (fun n => slice packet (n * size) size) = packet := by
      rw [flatMap_slice, List.take_of_length_le hcover]
    rw [hwhole] at hout
    rw [hr]
    exact ⟨hholds, fun _ => hout⟩
  | other packetId number tot data now =>
    have hne : packetId ≠ (PacketHeader.read packet).packetId := hfor
    have hsame := insert_other hne number tot data now hkeep
    have hc : c = (held, false) := Collector.step_nothing _ _ hmissing
    refine ⟨?_, fun h => absurd rfl h⟩
    rw [hc]
    show BufferHolds _ _ _ held (b.insert packetId number tot data now).1
    rw [BufferHolds, hsame]
    exact hb
  | evictStale now timeout =>
    have hc : c = (held, false) := Collector.step_nothing _ _ hmissing
    refine ⟨?_, fun h => absurd rfl h⟩
    rw [hc]
    show BufferHolds _ _ _ held (b.evictStale now timeout)
    rw [BufferHolds, show (b.evictStale now timeout).pending.get? _ = _ from hkeep]
    exact hb

/-- What is held after any deliveries is what the collector holds. -/
theorem deliverAll_holds (ht : total ≤ Constants.maxPacketFragments) (hpos : 0 < total)
    (hcover : packet.length ≤ total * size) (ds : List Delivery) (held : Finset Nat)
    (b : ReassemblyBuffer) (hmissing : ¬ Finset.range total ⊆ held)
    (hfor : ∀ d ∈ ds, d.For (PacketHeader.read packet).packetId total)
    (hkeep : b.KeepsAll ((List.range total).map (fragmentPiece packet size total))
      (PacketHeader.read packet).packetId ds)
    (hb : BufferHolds (fun n => slice packet (n * size) size) total
      (PacketHeader.read packet).packetId held b) :
    let pieces := (List.range total).map (fragmentPiece packet size total)
    let held' := Collector.run (Finset.range total) held (ds.map Delivery.brings)
    ¬ Finset.range total ⊆ held' ∧ BufferHolds (fun n => slice packet (n * size) size) total
      (PacketHeader.read packet).packetId held' (b.deliverAll pieces ds) := by
  have hsome : (Finset.range total).Nonempty := ⟨0, Finset.mem_range.mpr hpos⟩
  induction ds generalizing held b with
  | nil => exact ⟨hmissing, hb⟩
  | cons d rest ih =>
    obtain ⟨hd, hrest⟩ := List.forall_mem_cons.mp hfor
    obtain ⟨hk, hkrest⟩ := hkeep
    have hstep := deliver_step ht hcover held b d hmissing hd hk hb
    exact ih _ _ (Collector.step_missing _ _ _ hsome) hrest hkrest hstep.1

end

theorem KeepsAll_append (pieces : List Bytes) (id : UInt64) (b : ReassemblyBuffer)
    (ds : List Delivery) (d : Delivery) (h : b.KeepsAll pieces id (ds ++ [d])) :
    b.KeepsAll pieces id ds ∧ (b.deliverAll pieces ds).Keeps id d := by
  induction ds generalizing b with
  | nil => exact ⟨trivial, h.1⟩
  | cons d' rest ih =>
    obtain ⟨hrest, hlast⟩ := ih _ h.2
    exact ⟨⟨h.1, hrest⟩, hlast⟩

/-- Splitting and reassembly are inverse. Every piece of a packet that does not fit
fits, is a fragment and names its packet and its place; and in any order, with
repetitions and among other packets' fragments, nothing is returned while another
piece is missing, the packet is returned with the last missing piece, and whatever is
returned later is the packet. -/
theorem fragmentPacket_reassembles (packet : Bytes) (mtu : Nat) (pieces : List Bytes)
    (hmtu : mtu < packet.length) (h : fragmentPacket packet mtu = some pieces) :
    (∀ (n : Nat) (hn : n < pieces.length),
      (pieces[n]).length ≤ mtu ∧ isFragment pieces[n] = true ∧
        (FragmentHeader.read pieces[n]).packetIdU64 = (PacketHeader.read packet).packetId ∧
        (FragmentHeader.read pieces[n]).dest = (PacketHeader.read packet).dest ∧
        (FragmentHeader.read pieces[n]).totalFragments.toNat = pieces.length ∧
        (FragmentHeader.read pieces[n]).fragmentNumber.toNat = n) ∧
    ∀ (b : ReassemblyBuffer) (before : List Delivery) (number : Nat) (now : UInt64),
      b.pending.get? (PacketHeader.read packet).packetId = none →
      (∀ d ∈ before, d.For (PacketHeader.read packet).packetId pieces.length) →
      number < pieces.length →
      b.KeepsAll pieces (PacketHeader.read packet).packetId (before ++ [.piece number now]) →
      let out := ((b.deliverAll pieces before).deliver pieces (.piece number now)).2
      let missing := Finset.range pieces.length \ delivered before
      (¬ missing ⊆ {number} → out = none) ∧ (missing = {number} → out = some packet) ∧
        ∀ r, out = some r → r = packet := by
  obtain ⟨size, total, hm, hsize, hpos, ht, hcover, -, rfl⟩ := fragmentPacket_cases hmtu h
  simp only [List.length_map, List.length_range]
  refine ⟨?_, ?_⟩
  · intro n hn
    have h7 : Constants.maxPacketFragments = 7 := rfl
    obtain ⟨hlen, hfrag, hid, hdest, htot, hno, -⟩ := fragmentPiece_fields packet size total n ht hn
    simp only [List.getElem_map, List.getElem_range]
    refine ⟨hm ▸ hlen, hfrag, ?_, hdest, ?_, ?_⟩
    · rw [FragmentHeader.packetIdU64, hid]
      rfl
    · rw [htot]; simp; omega
    · rw [hno]; simp; omega
  · intro b before number now hnone hfor hnum hkeep
    set pieces := (List.range total).map (fragmentPiece packet size total)
    set held := Collector.run (Finset.range total) ∅ (before.map Delivery.brings)
    set missing := Finset.range total \ delivered before
    obtain ⟨hkeepBefore, hkeepLast⟩ := KeepsAll_append _ _ _ _ _ hkeep
    have hstart : ¬ Finset.range total ⊆ ∅ := fun hs => by simp at hs; omega
    obtain ⟨hmiss, hholds⟩ := deliverAll_holds ht hpos hcover before ∅ b hstart hfor hkeepBefore
      (by simp [BufferHolds, hnone])
    have hout : ((b.deliverAll pieces before).deliver pieces (.piece number now)).2 =
        if (Collector.step (Finset.range total) held {number}).2 then some packet else none :=
      (deliver_step ht hcover _ _ (.piece number now) hmiss hnum hkeepLast hholds).2
        (by simp [Delivery.brings])
    obtain ⟨hnot, hlast⟩ :=
      Collector.report_missing (Finset.range total) (before.map Delivery.brings) number
    rw [hout]
    refine ⟨?_, ?_, ?_⟩
    · intro hother
      refine if_neg ?_
      rw [hnot hother]
      decide
    · intro hmissing
      exact if_pos (hlast hmissing)
    · intro r hr
      split at hr
      · exact (Option.some.inj hr).symm
      · cases hr

/-- Three pieces of a 30-byte packet, delivered last piece first, one of them twice,
among a fragment of another packet. -/
theorem fragmentPacket_reassembles_thirty :
    let packet : Bytes := List.replicate 30 7
    let pieces := (List.range 3).map (fragmentPiece packet 10 3)
    let before : List Delivery := [.piece 2 5, .other 9 0 2 [1] 5, .piece 0 6, .piece 2 7]
    (((ReassemblyBuffer.new 64).deliverAll pieces before).deliver pieces (.piece 1 8)).2 = some packet := by
  intro packet pieces before
  have hparts := (fragmentPacket_reassembles packet 26 pieces (by decide) (by decide)).2
    (ReassemblyBuffer.new 64) before 1 8 (by decide) (by decide) (by decide) (by decide)
  exact hparts.2.1 (by decide)

end ManyTier
