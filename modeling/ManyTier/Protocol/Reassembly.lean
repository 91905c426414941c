import ManyTier.Protocol.Fragment

/-! The reassembly buffer under arbitrary calls.

`insert` and `evictStale` in any order, with numbers, totals and data of a sender's
choice. A pending slot is always unfinished (`FragmentSlot.Unfinished`) and there are
never more of them than the buffer allows (`reassembly_bounded`). What a slot holds is
told from the insertions since it was created (`SlotRecords`): the first data of every
number, whatever total came with it, while the first total alone decides when the slot
is complete. So a packet is what its fragments announced exactly when every number that
was counted was also announced under that total (`insert_isPacketOf`). -/
namespace ManyTier

/-- A call on a buffer. -/
inductive ReassemblyCall where
  | insert (packetId : UInt64) (fragmentNumber totalFragments : UInt8) (data : Bytes) (now : UInt64)
  | evictStale (now timeout : UInt64)
  deriving DecidableEq

namespace ReassemblyBuffer

def call (b : ReassemblyBuffer) : ReassemblyCall → ReassemblyBuffer × Option Bytes
  | .insert packetId number total data now => b.insert packetId number total data now
  | .evictStale now timeout => (b.evictStale now timeout, none)

def callAll (b : ReassemblyBuffer) (calls : List ReassemblyCall) : ReassemblyBuffer :=
  calls.foldl (fun b c => (b.call c).1) b

/-! ### Room for a new slot -/

/-- The turn of the search for the oldest slot. -/
def older (best : Option (UInt64 × FragmentSlot)) (e : UInt64 × FragmentSlot) :
    Option (UInt64 × FragmentSlot) :=
  match best with
  | none => some e
  | some old => if e.2.createdAt < old.2.createdAt then some e else best

theorem oldestId_eq (b : ReassemblyBuffer) :
    b.oldestId = (b.pending.entries.foldl older none).map Prod.fst := rfl

/-- The search ends with a slot it saw, none of those seen being older. -/
theorem foldl_older (l : List (UInt64 × FragmentSlot)) (best : UInt64 × FragmentSlot) :
    ∃ e, l.foldl older (some best) = some e ∧ (e = best ∨ e ∈ l) ∧
      e.2.createdAt ≤ best.2.createdAt ∧ ∀ e' ∈ l, e.2.createdAt ≤ e'.2.createdAt := by
  induction l generalizing best with
  | nil => exact ⟨best, rfl, .inl rfl, le_refl _, by simp⟩
  | cons x rest ih =>
    by_cases hlt : x.2.createdAt < best.2.createdAt
    · obtain ⟨e, he, hmem, hle, hall⟩ := ih x
      refine ⟨e, ?_, ?_, hle.trans hlt.le, List.forall_mem_cons.mpr ⟨hle, hall⟩⟩
      · rw [List.foldl_cons, older, if_pos hlt, he]
      · rcases hmem with rfl | hmem
        · exact .inr List.mem_cons_self
        · exact .inr (List.mem_cons_of_mem _ hmem)
    · obtain ⟨e, he, hmem, hle, hall⟩ := ih best
      refine ⟨e, ?_, ?_, hle, List.forall_mem_cons.mpr ⟨hle.trans (not_lt.mp hlt), hall⟩⟩
      · rw [List.foldl_cons, older, if_neg hlt, he]
      · exact hmem.imp_right (List.mem_cons_of_mem _)

/-- A buffer with a slot has an oldest one. -/
theorem oldestId_spec (b : ReassemblyBuffer) (hsome : 0 < b.pending.size) :
    ∃ old slot, b.oldestId = some old ∧ b.pending.get? old = some slot ∧
      ∀ id s, b.pending.get? id = some s → slot.createdAt ≤ s.createdAt := by
  rw [oldestId_eq]
  cases hentries : b.pending.entries with
  | nil => simp [SortedMap.size, hentries] at hsome
  | cons x rest =>
    obtain ⟨e, he, hmem, hle, hall⟩ := foldl_older rest x
    have hin : e ∈ b.pending.entries := by
      rw [hentries]
      exact List.mem_cons.mpr hmem
    refine ⟨e.1, e.2, ?_, (SortedMap.mem_entries _ _ _).mp hin, ?_⟩
    · rw [List.foldl_cons, older, he]
      rfl
    · intro id s hs
      have hmem' := (SortedMap.mem_entries _ _ _).mpr hs
      rw [hentries] at hmem'
      rcases List.mem_cons.mp hmem' with rfl | hmem'
      · exact hle
      · exact hall _ hmem'

/-- Making room removes the oldest slot, or nothing. -/
theorem makeRoom_cases (b : ReassemblyBuffer) (packetId : UInt64) :
    ((b.pending.contains packetId = true ∨ b.pending.size < b.maxPending ∨ b.pending.size = 0) ∧
      b.makeRoom packetId = b) ∨
    (b.pending.contains packetId = false ∧ b.maxPending ≤ b.pending.size ∧
      ∃ old slot, b.pending.get? old = some slot ∧
        (∀ id s, b.pending.get? id = some s → slot.createdAt ≤ s.createdAt) ∧
        b.makeRoom packetId = { b with pending := b.pending.erase old }) := by
  unfold makeRoom
  split
  · rename_i hfull
    obtain ⟨hnew, hfull⟩ := hfull
    by_cases hsome : 0 < b.pending.size
    · obtain ⟨old, slot, hold, hget, hleast⟩ := b.oldestId_spec hsome
      refine .inr ⟨by simpa using hnew, hfull, old, slot, hget, hleast, ?_⟩
      rw [hold]
    · have hzero : b.pending.size = 0 := Nat.eq_zero_of_not_pos hsome
      have hnil : b.pending.entries = [] := List.eq_nil_of_length_eq_zero hzero
      refine .inl ⟨.inr (.inr hzero), ?_⟩
      rw [oldestId_eq, hnil]
      rfl
  · rename_i hroom
    refine .inl ⟨?_, rfl⟩
    by_cases hin : b.pending.contains packetId = true
    · exact .inl hin
    · right
      left
      by_contra hfull
      exact hroom ⟨by simpa using hin, Nat.le_of_not_lt hfull⟩

/-- What an insertion can do: it is refused, completes its slot, or stores the slot. -/
theorem insert_cases (b : ReassemblyBuffer) (packetId : UInt64) (number total : UInt8) (data : Bytes)
    (now : UInt64) :
    let slot := ((b.pending.get? packetId).getD (.new total.toNat now)).put number.toNat data
    let room := b.makeRoom packetId
    let r := b.insert packetId number total data now
    (validNumbers number total = false ∧ r = (b, none)) ∨
    (validNumbers number total = true ∧ slot.totalExpected ≤ slot.receivedCount ∧
      r = ({ room with pending := room.pending.erase packetId }, some slot.assemble)) ∨
    (validNumbers number total = true ∧ slot.receivedCount < slot.totalExpected ∧
      r = ({ room with pending := room.pending.insert packetId slot }, none)) := by
  intro slot room r
  have hslot : ((room.pending.get? packetId).getD (.new total.toNat now)).put number.toNat data = slot := by
    rw [show room.pending.get? packetId = b.pending.get? packetId from makeRoom_self b packetId]
  cases hvalid : validNumbers number total with
  | false =>
    left
    simp [r, insert, hvalid]
  | true =>
    right
    have hr : r = if slot.totalExpected ≤ slot.receivedCount
        then ({ room with pending := room.pending.erase packetId }, some slot.assemble)
        else ({ room with pending := room.pending.insert packetId slot }, none) := by
      rw [← hslot]
      simp [r, room, insert, hvalid]
    by_cases hfull : slot.totalExpected ≤ slot.receivedCount
    · exact .inl ⟨rfl, hfull, by rw [hr, if_pos hfull]⟩
    · exact .inr ⟨rfl, Nat.lt_of_not_le hfull, by rw [hr, if_neg hfull]⟩

end ReassemblyBuffer

/-! ### Pending slots -/

namespace FragmentSlot

/-- How many pieces the slot stores. -/
def stored (s : FragmentSlot) : Nat := s.fragments.toList.countP Option.isSome

/-- The count is that of the stored pieces, and there are fewer than announced. -/
structure Unfinished (s : FragmentSlot) : Prop where
  count_eq : s.receivedCount = s.stored
  count_lt : s.receivedCount < s.totalExpected
  total_pos : 1 ≤ s.totalExpected
  total_le : s.totalExpected ≤ Constants.maxPacketFragments

theorem stored_new (total : Nat) (now : UInt64) : (new total now).stored = 0 := by
  simp [stored, new, List.Vector.replicate, List.Vector.toList]

@[simp] theorem totalExpected_put (s : FragmentSlot) (i : Nat) (data : Bytes) :
    (s.put i data).totalExpected = s.totalExpected := by
  unfold put
  split <;> rfl

/-- A piece stored is a piece counted. -/
theorem count_put {s : FragmentSlot} (h : s.receivedCount = s.stored) {i : Nat}
    (hi : i < Constants.maxPacketFragments) (data : Bytes) :
    (s.put i data).receivedCount = (s.put i data).stored := by
  unfold put
  split
  · rename_i hnone
    have hlen : i < s.fragments.toList.length := by simpa using hi
    have hold : (s.fragments.toList[i]).isSome = false := by
      simpa [piece, List.getElem?_eq_getElem hlen] using hnone
    show s.receivedCount + 1 = (s.fragments.toList.set i (some data)).countP Option.isSome
    rw [List.countP_set hlen, hold, h]
    simp [stored]
  · exact h

/-- At most one piece is counted at a time. -/
theorem receivedCount_put_le (s : FragmentSlot) (i : Nat) (data : Bytes) :
    (s.put i data).receivedCount ≤ s.receivedCount + 1 := by
  unfold put
  split
  · exact le_refl _
  · exact Nat.le_succ _

end FragmentSlot

/-- Numbers that are accepted: a total from one to seven and a number below it. -/
theorem ReassemblyBuffer.validNumbers_iff (number total : UInt8) :
    validNumbers number total = true ↔
      1 ≤ total.toNat ∧ total.toNat ≤ Constants.maxPacketFragments ∧ number.toNat < total.toNat := by
  have hzero : total = 0 ↔ total.toNat = 0 := by
    rw [← UInt8.toNat_inj]
    rfl
  simp only [validNumbers, Bool.not_eq_true', decide_eq_false_iff_not, hzero, UInt8.le_iff_toNat_le]
  omega

/-- Every slot still waits for a piece. -/
def ReassemblyBuffer.AllUnfinished (b : ReassemblyBuffer) : Prop :=
  ∀ id slot, b.pending.get? id = some slot → slot.Unfinished

section
variable {b : ReassemblyBuffer}

@[simp] theorem ReassemblyBuffer.maxPending_makeRoom (b : ReassemblyBuffer) (packetId : UInt64) :
    (b.makeRoom packetId).maxPending = b.maxPending := by
  rcases b.makeRoom_cases packetId with ⟨-, h⟩ | ⟨-, -, old, slot, -, -, h⟩ <;> rw [h]

/-- A slot that survives making room was there before. -/
theorem ReassemblyBuffer.get?_makeRoom {packetId id : UInt64} {slot : FragmentSlot}
    (h : (b.makeRoom packetId).pending.get? id = some slot) : b.pending.get? id = some slot := by
  rcases b.makeRoom_cases packetId with ⟨-, hr⟩ | ⟨-, -, old, s, -, -, hr⟩
  · rwa [hr] at h
  · rw [hr, SortedMap.get?_erase] at h
    split at h
    · cases h
    · exact h

/-- With room made there is a place left for the packet. -/
theorem ReassemblyBuffer.size_makeRoom (hsize : b.pending.size ≤ b.maxPending) (hmax : 1 ≤ b.maxPending)
    (packetId : UInt64) : ((b.makeRoom packetId).pending.erase packetId).size < b.maxPending := by
  have herase := SortedMap.size_erase (b.makeRoom packetId).pending packetId
  rcases b.makeRoom_cases packetId with ⟨hcase, hr⟩ | ⟨hnew, hfull, old, s, hold, -, hr⟩
  · rw [hr] at herase ⊢
    rcases hcase with hin | hroom | hzero
    · rw [if_pos hin] at herase
      omega
    · omega
    · omega
  · have hgone := SortedMap.size_erase b.pending old
    rw [if_pos (show b.pending.contains old = true by simp [SortedMap.contains, hold])] at hgone
    rw [hr] at herase ⊢
    simp only at herase ⊢
    omega

/-- The slot an insertion works on, before the piece is put. -/
theorem ReassemblyBuffer.AllUnfinished.slot_of (hb : b.AllUnfinished) (packetId : UInt64)
    {number total : UInt8} (hvalid : ReassemblyBuffer.validNumbers number total = true) (now : UInt64) :
    ((b.pending.get? packetId).getD (.new total.toNat now)).Unfinished := by
  obtain ⟨hpos, hle, -⟩ := (ReassemblyBuffer.validNumbers_iff _ _).mp hvalid
  cases hget : b.pending.get? packetId with
  | none => exact ⟨(FragmentSlot.stored_new _ _).symm, hpos, hpos, hle⟩
  | some slot => exact hb packetId slot hget

theorem ReassemblyBuffer.AllUnfinished.insert (hb : b.AllUnfinished) (packetId : UInt64)
    (number total : UInt8) (data : Bytes) (now : UInt64) :
    (b.insert packetId number total data now).1.AllUnfinished := by
  rcases b.insert_cases packetId number total data now with ⟨-, h⟩ | ⟨-, -, h⟩ | ⟨hvalid, hlt, h⟩
  · rw [h]
    exact hb
  · rw [h]
    intro id slot hget
    simp only [SortedMap.get?_erase] at hget
    split at hget
    · cases hget
    · exact hb id slot (ReassemblyBuffer.get?_makeRoom hget)
  · rw [h]
    intro id slot hget
    simp only [SortedMap.get?_insert] at hget
    split at hget
    · cases hget
      have hold := hb.slot_of packetId hvalid now
      obtain ⟨-, hseven, hnumber⟩ := (ReassemblyBuffer.validNumbers_iff _ _).mp hvalid
      exact ⟨FragmentSlot.count_put hold.count_eq (hnumber.trans_le hseven) data, hlt,
        by simpa using hold.total_pos, by simpa using hold.total_le⟩
    · exact hb id slot (ReassemblyBuffer.get?_makeRoom hget)

/-- What is still there after a sweep was there before. -/
theorem ReassemblyBuffer.get?_evictStale {now timeout id : UInt64} {slot : FragmentSlot}
    (h : (b.evictStale now timeout).pending.get? id = some slot) : b.pending.get? id = some slot := by
  simp only [ReassemblyBuffer.evictStale, SortedMap.get?_retain] at h
  exact (Option.filter_eq_some_iff.mp h).1

theorem ReassemblyBuffer.AllUnfinished.call (hb : b.AllUnfinished) (c : ReassemblyCall) :
    (b.call c).1.AllUnfinished := by
  cases c with
  | insert packetId number total data now => exact hb.insert packetId number total data now
  | evictStale now timeout =>
    exact fun id slot hget => hb id slot (ReassemblyBuffer.get?_evictStale hget)

theorem ReassemblyBuffer.AllUnfinished.callAll (hb : b.AllUnfinished) (calls : List ReassemblyCall) :
    (b.callAll calls).AllUnfinished := by
  induction calls generalizing b with
  | nil => exact hb
  | cons c rest ih => exact ih (hb.call c)

theorem ReassemblyBuffer.allUnfinished_new (maxPending : Nat) :
    (ReassemblyBuffer.new maxPending).AllUnfinished :=
  fun _ _ h => by simp [ReassemblyBuffer.new] at h

@[simp] theorem ReassemblyBuffer.maxPending_call (b : ReassemblyBuffer) (c : ReassemblyCall) :
    (b.call c).1.maxPending = b.maxPending := by
  cases c with
  | evictStale now timeout => rfl
  | insert packetId number total data now =>
    show (b.insert packetId number total data now).1.maxPending = _
    rcases b.insert_cases packetId number total data now with ⟨-, h⟩ | ⟨-, -, h⟩ | ⟨-, -, h⟩ <;>
      simp [h]

theorem ReassemblyBuffer.size_call_le (hsize : b.pending.size ≤ b.maxPending) (hmax : 1 ≤ b.maxPending)
    (c : ReassemblyCall) : (b.call c).1.pending.size ≤ b.maxPending := by
  cases c with
  | evictStale now timeout => exact (SortedMap.size_retain_le _ _).trans hsize
  | insert packetId number total data now =>
    have hroom := ReassemblyBuffer.size_makeRoom hsize hmax packetId
    show (b.insert packetId number total data now).1.pending.size ≤ _
    rcases b.insert_cases packetId number total data now with ⟨-, h⟩ | ⟨-, -, h⟩ | ⟨-, -, h⟩
    · rw [h]
      exact hsize
    · rw [h]
      exact hroom.le
    · rw [h]
      simpa [SortedMap.size_insert] using hroom

theorem ReassemblyBuffer.size_callAll_le (hsize : b.pending.size ≤ b.maxPending) (hmax : 1 ≤ b.maxPending)
    (calls : List ReassemblyCall) :
    (b.callAll calls).maxPending = b.maxPending ∧ (b.callAll calls).pending.size ≤ b.maxPending := by
  induction calls generalizing b with
  | nil => exact ⟨rfl, hsize⟩
  | cons c rest ih =>
    have hstep := ReassemblyBuffer.size_call_le hsize hmax c
    have hrest := ih (b := (b.call c).1) (by simpa using hstep) (by simpa using hmax)
    simpa [ReassemblyBuffer.callAll] using hrest

end

/-- Apart from its own slot, an insertion removes the oldest slot when it needs a
place at capacity, and changes nothing otherwise. -/
theorem insert_others {b : ReassemblyBuffer} (packetId : UInt64) (number total : UInt8) (data : Bytes)
    (now : UInt64) (id : UInt64) (hid : id ≠ packetId) :
    (b.insert packetId number total data now).1.pending.get? id =
      if ReassemblyBuffer.validNumbers number total then (b.makeRoom packetId).pending.get? id
      else b.pending.get? id := by
  rcases b.insert_cases packetId number total data now with ⟨hv, h⟩ | ⟨hv, -, h⟩ | ⟨hv, -, h⟩
  · rw [h, if_neg (by simp [hv])]
  · rw [h, if_pos hv]
    simp [SortedMap.get?_erase, hid]
  · rw [h, if_pos hv]
    simp [SortedMap.get?_insert, hid]

/-- Reassembly state is bounded. After any calls on a new buffer with room for a slot
there are at most as many slots as allowed, every one of them counts the pieces it
stores and expects more of them, up to seven; and an insertion leaves every other
slot alone, but for the oldest one when it creates a slot at capacity. -/
theorem reassembly_bounded (maxPending : Nat) (hmax : 1 ≤ maxPending) (calls : List ReassemblyCall) :
    let b := (ReassemblyBuffer.new maxPending).callAll calls
    b.pending.size ≤ maxPending ∧
    (∀ id slot, b.pending.get? id = some slot →
      slot.receivedCount = slot.stored ∧ slot.receivedCount < slot.totalExpected ∧
        1 ≤ slot.totalExpected ∧ slot.totalExpected ≤ 7) ∧
    ∀ (packetId : UInt64) (number total : UInt8) (data : Bytes) (now : UInt64),
      let b' := (b.insert packetId number total data now).1
      if ReassemblyBuffer.validNumbers number total ∧ b.pending.contains packetId = false ∧
          b.pending.size = maxPending then
        ∃ old slot, old ≠ packetId ∧ b.pending.get? old = some slot ∧
          (∀ id s, b.pending.get? id = some s → slot.createdAt ≤ s.createdAt) ∧
          ∀ id ≠ packetId, b'.pending.get? id = if id = old then none else b.pending.get? id
      else ∀ id ≠ packetId, b'.pending.get? id = b.pending.get? id := by
  intro b
  have hb : b.AllUnfinished := (ReassemblyBuffer.allUnfinished_new maxPending).callAll calls
  obtain ⟨hcap, hsize⟩ : b.maxPending = maxPending ∧ b.pending.size ≤ maxPending :=
    ReassemblyBuffer.size_callAll_le (b := .new maxPending) (Nat.zero_le _) hmax calls
  refine ⟨hsize, ?_, ?_⟩
  · intro id slot hget
    obtain ⟨hcount, hlt, hpos, hle⟩ := hb id slot hget
    exact ⟨hcount, hlt, hpos, hle⟩
  · intro packetId number total data now b'
    have hothers := insert_others (b := b) packetId number total data now
    split
    · rename_i hfull
      obtain ⟨hvalid, hnew, hat⟩ := hfull
      rcases b.makeRoom_cases packetId with ⟨hcase, -⟩ | ⟨-, -, old, slot, hold, hleast, hroom⟩
      · rcases hcase with hin | hlt | hzero
        · rw [hnew] at hin
          cases hin
        · omega
        · omega
      · have hne : old ≠ packetId := by
          rintro rfl
          simp [SortedMap.contains, hold] at hnew
        refine ⟨old, slot, hne, hold, hleast, ?_⟩
        intro id hid
        rw [hothers id hid, if_pos hvalid, hroom, SortedMap.get?_erase]
    · rename_i hroom
      intro id hid
      rw [hothers id hid]
      split
      · rename_i hvalid
        rcases b.makeRoom_cases packetId with ⟨-, hr⟩ | ⟨hnew, hfull, -⟩
        · rw [hr]
        · exact absurd ⟨hvalid, hnew, le_antisymm hsize (hcap ▸ hfull)⟩ hroom
      · rfl

/-- Three packets' first fragments in a buffer for two. -/
theorem reassembly_bounded_three :
    ((ReassemblyBuffer.new 2).callAll
      [.insert 1 0 2 [1] 100, .insert 2 0 2 [2] 200, .insert 3 0 2 [3] 300]).pending.size ≤ 2 :=
  (reassembly_bounded 2 (by decide) _).1

/-! ### A slot as a record of insertions -/

/-- A fragment that was taken in. -/
structure Insertion where
  number : UInt8
  total : UInt8
  data : Bytes
  deriving DecidableEq

/-- The fragment a call brings for `id`; a refused one is not taken in. -/
def ReassemblyCall.brings (id : UInt64) : ReassemblyCall → List Insertion
  | .insert packetId number total data _ =>
    if packetId = id ∧ ReassemblyBuffer.validNumbers number total then [⟨number, total, data⟩] else []
  | .evictStale _ _ => []

/-- What was inserted for `id` since its slot was created, in order: `held` before
the calls, nothing while there is no slot. -/
def insertedSince (id : UInt64) (b : ReassemblyBuffer) (held : List Insertion) :
    List ReassemblyCall → List Insertion
  | [] => held
  | c :: rest =>
    insertedSince id (b.call c).1
      (if (b.call c).1.pending.contains id then held ++ c.brings id else []) rest

/-- The data first inserted for a number. -/
def firstData (ins : List Insertion) (n : Nat) : Option Bytes :=
  (ins.find? fun x => x.number.toNat = n).map Insertion.data

/-- The total the slot goes by: that of the fragment that created it. -/
def slotTotal (ins : List Insertion) : Nat := (ins.head?.map fun x => x.total.toNat).getD 0

/-- The packet of `t` fragments that the insertions announce as a whole. -/
def IsPacketOf (ins : List Insertion) (t : Nat) (p : Bytes) : Prop :=
  0 < t ∧ (∀ n < t, ∃ x ∈ ins, x.number.toNat = n ∧ x.total.toNat = t) ∧
    p = (List.range t).flatMap fun n => (firstData ins n).getD []

/-- Every number inserted was also inserted with the slot's total. -/
def EachAnnounced (ins : List Insertion) : Prop :=
  ∀ x ∈ ins, ∃ y ∈ ins, y.number = x.number ∧ y.total.toNat = slotTotal ins

instance (ins : List Insertion) : Decidable (EachAnnounced ins) :=
  inferInstanceAs (Decidable (∀ x ∈ ins, ∃ y ∈ ins, y.number = x.number ∧ y.total.toNat = slotTotal ins))

/-- The slot is what its insertions say: their first total and, of each number, the
first data. -/
structure SlotRecords (ins : List Insertion) (slot : FragmentSlot) : Prop where
  nonempty : ins ≠ []
  valid : ∀ x ∈ ins, ReassemblyBuffer.validNumbers x.number x.total = true
  total_eq : slot.totalExpected = slotTotal ins
  pieces : ∀ i < Constants.maxPacketFragments, slot.piece i = firstData ins i

theorem firstData_snoc (ins : List Insertion) (x : Insertion) (n : Nat) :
    firstData (ins ++ [x]) n =
      (firstData ins n).or (if x.number.toNat = n then some x.data else none) := by
  unfold firstData
  rw [List.find?_append]
  cases ins.find? fun y => decide (y.number.toNat = n) with
  | some y => rfl
  | none => by_cases h : x.number.toNat = n <;> simp [h]

theorem slotTotal_snoc {ins : List Insertion} (h : ins ≠ []) (x : Insertion) :
    slotTotal (ins ++ [x]) = slotTotal ins := by
  cases ins with
  | nil => exact absurd rfl h
  | cons y rest => rfl

/-- The fragment that creates a slot is its first record. -/
theorem slotRecords_first {x : Insertion} (now : UInt64)
    (hvalid : ReassemblyBuffer.validNumbers x.number x.total = true) :
    SlotRecords [x] ((FragmentSlot.new x.total.toNat now).put x.number.toNat x.data) := by
  obtain ⟨-, hseven, hnumber⟩ := (ReassemblyBuffer.validNumbers_iff _ _).mp hvalid
  have hempty : ∀ i < Constants.maxPacketFragments, (FragmentSlot.new x.total.toNat now).piece i = none :=
    fun i hi => by simpa using (slotHolds_new (fun _ => []) x.total.toNat now).pieces i hi
  refine ⟨by simp, by simpa using hvalid, by simp [FragmentSlot.new, slotTotal], ?_⟩
  intro i hi
  rw [FragmentSlot.piece_put _ _ _ _ (hnumber.trans_le hseven), hempty i hi,
    hempty _ (hnumber.trans_le hseven)]
  by_cases h : i = x.number.toNat
  · simp [firstData, h]
  · simp [firstData, h, Ne.symm h]

theorem SlotRecords.put {ins : List Insertion} {slot : FragmentSlot} (h : SlotRecords ins slot)
    {x : Insertion} (hvalid : ReassemblyBuffer.validNumbers x.number x.total = true) :
    SlotRecords (ins ++ [x]) (slot.put x.number.toNat x.data) := by
  obtain ⟨-, hseven, hnumber⟩ := (ReassemblyBuffer.validNumbers_iff _ _).mp hvalid
  have hx := hnumber.trans_le hseven
  refine ⟨by simp, ?_, ?_, ?_⟩
  · intro y hy
    rcases List.mem_append.mp hy with hy | hy
    · exact h.valid y hy
    · rw [List.mem_singleton.mp hy]
      exact hvalid
  · rw [slotTotal_snoc h.nonempty, FragmentSlot.totalExpected_put, h.total_eq]
  · intro i hi
    rw [FragmentSlot.piece_put _ _ _ _ hx, firstData_snoc, h.pieces i hi, h.pieces _ hx]
    by_cases heq : i = x.number.toNat
    · subst heq
      cases firstData ins x.number.toNat <;> simp
    · simp [heq, Ne.symm heq]

/-- What the buffer holds for `id` is what was inserted since; without a slot that is
nothing. -/
def BufferRecords (id : UInt64) (ins : List Insertion) (b : ReassemblyBuffer) : Prop :=
  match b.pending.get? id with
  | none => ins = []
  | some slot => SlotRecords ins slot

section
variable {id : UInt64} {ins : List Insertion} {b : ReassemblyBuffer}

/-- A slot not touched keeps its records. -/
theorem BufferRecords.kept {b' : ReassemblyBuffer} (h : BufferRecords id ins b) {c : ReassemblyCall}
    (hnothing : c.brings id = [])
    (hold : ∀ slot, b'.pending.get? id = some slot → b.pending.get? id = some slot) :
    BufferRecords id (if b'.pending.contains id then ins ++ c.brings id else []) b' := by
  unfold BufferRecords SortedMap.contains
  cases hget : b'.pending.get? id with
  | none => simp
  | some slot =>
    unfold BufferRecords at h
    rw [hold slot hget] at h
    simpa [hnothing] using h

/-- The slot an accepted fragment of `id` makes. -/
theorem BufferRecords.put (h : BufferRecords id ins b) {x : Insertion} (now : UInt64)
    (hvalid : ReassemblyBuffer.validNumbers x.number x.total = true) :
    SlotRecords (ins ++ [x])
      (((b.pending.get? id).getD (.new x.total.toNat now)).put x.number.toNat x.data) := by
  unfold BufferRecords at h
  cases hget : b.pending.get? id with
  | none =>
    rw [hget] at h
    obtain rfl : ins = [] := h
    exact slotRecords_first now hvalid
  | some slot =>
    rw [hget] at h
    exact SlotRecords.put h hvalid

/-- One call: what is held afterwards is still what was inserted since. -/
theorem BufferRecords.call (h : BufferRecords id ins b) (c : ReassemblyCall) :
    BufferRecords id (if (b.call c).1.pending.contains id then ins ++ c.brings id else [])
      (b.call c).1 := by
  cases c with
  | evictStale now timeout =>
    exact h.kept rfl fun slot hget => ReassemblyBuffer.get?_evictStale hget
  | insert packetId number total data now =>
    have hcases := b.insert_cases packetId number total data now
    by_cases hid : packetId = id
    · subst hid
      show BufferRecords packetId (if (b.insert packetId number total data now).1.pending.contains packetId
        then _ else []) (b.insert packetId number total data now).1
      rcases hcases with ⟨hvalid, hr⟩ | ⟨-, -, hr⟩ | ⟨hvalid, -, hr⟩
      · rw [hr]
        exact h.kept (c := .insert packetId number total data now)
          (by simp [ReassemblyCall.brings, hvalid]) fun _ hget => hget
      · rw [hr]
        simp [BufferRecords, SortedMap.contains, SortedMap.get?_erase]
      · have hput := h.put (x := ⟨number, total, data⟩) now hvalid
        rw [hr]
        simpa [BufferRecords, SortedMap.contains, ReassemblyCall.brings, hvalid] using hput
    · refine h.kept (by simp [ReassemblyCall.brings, hid]) ?_
      intro slot hget
      have hget' : (b.insert packetId number total data now).1.pending.get? id = some slot := hget
      rw [insert_others packetId number total data now id (Ne.symm hid)] at hget'
      split at hget'
      · exact ReassemblyBuffer.get?_makeRoom hget'
      · exact hget'

theorem BufferRecords.callAll (h : BufferRecords id ins b) (calls : List ReassemblyCall) :
    BufferRecords id (insertedSince id b ins calls) (b.callAll calls) := by
  induction calls generalizing b ins with
  | nil => exact h
  | cons c rest ih => exact ih (h.call c)

end

/-! ### What a completed slot gives -/

/-- The stored pieces are the numbers that were inserted. -/
theorem SlotRecords.stored_eq {ins : List Insertion} {slot : FragmentSlot} (h : SlotRecords ins slot) :
    slot.stored = (ins.map fun x => x.number.toNat).toFinset.card := by
  have hlist : slot.fragments.toList = (List.range Constants.maxPacketFragments).map slot.piece := by
    apply List.ext_getElem
    · simp
    · intro i hi _
      simp [FragmentSlot.piece, List.getElem?_eq_getElem hi]
  have hcount : slot.stored =
      ((Finset.range Constants.maxPacketFragments).filter fun i => (slot.piece i).isSome).card := by
    rw [FragmentSlot.stored, hlist, List.countP_map, List.countP_eq_length_filter, Finset.card_def,
      Finset.filter_val, Finset.range_val, Multiset.range, Multiset.filter_coe, Multiset.coe_card]
    simp [Function.comp_def]
  rw [hcount]
  congr 1
  ext i
  simp only [Finset.mem_filter, Finset.mem_range, List.mem_toFinset, List.mem_map]
  constructor
  · rintro ⟨hi, hsome⟩
    rw [h.pieces i hi, firstData, Option.isSome_map, List.find?_isSome] at hsome
    obtain ⟨x, hx, hnumber⟩ := hsome
    exact ⟨x, hx, by simpa using hnumber⟩
  · rintro ⟨x, hx, rfl⟩
    obtain ⟨-, hseven, hnumber⟩ := (ReassemblyBuffer.validNumbers_iff _ _).mp (h.valid x hx)
    refine ⟨hnumber.trans_le hseven, ?_⟩
    rw [h.pieces _ (hnumber.trans_le hseven), firstData, Option.isSome_map, List.find?_isSome]
    exact ⟨x, hx, by simp⟩

/-- As many numbers were inserted as announced: all of them were announced under the
slot's total exactly when the packet is a whole one. -/
theorem SlotRecords.complete_iff {ins : List Insertion} {slot : FragmentSlot} (h : SlotRecords ins slot)
    (hpos : 0 < slot.totalExpected) (hle : slot.totalExpected ≤ Constants.maxPacketFragments)
    (hfull : slot.stored = slot.totalExpected) :
    EachAnnounced ins ↔ IsPacketOf ins (slotTotal ins) slot.assemble := by
  have hcard := h.stored_eq
  rw [hfull, h.total_eq] at hcard
  rw [h.total_eq] at hpos hle
  have hdata : slot.assemble =
      (List.range (slotTotal ins)).flatMap fun n => (firstData ins n).getD [] := by
    rw [FragmentSlot.assemble, h.total_eq]
    apply List.flatMap_congr
    intro i hi
    rw [h.pieces i ((List.mem_range.mp hi).trans_le hle)]
  constructor
  · intro heach
    have hsub : (ins.map fun x => x.number.toNat).toFinset ⊆ Finset.range (slotTotal ins) := by
      intro i hi
      obtain ⟨x, hx, rfl⟩ := List.mem_map.mp (List.mem_toFinset.mp hi)
      obtain ⟨y, hy, hnumber, htotal⟩ := heach x hx
      have hlt := ((ReassemblyBuffer.validNumbers_iff _ _).mp (h.valid y hy)).2.2
      rw [hnumber, htotal] at hlt
      exact Finset.mem_range.mpr hlt
    have hall := Finset.eq_of_subset_of_card_le hsub (by rw [← hcard, Finset.card_range])
    refine ⟨hpos, ?_, hdata⟩
    intro n hn
    rw [← Finset.mem_range, ← hall, List.mem_toFinset, List.mem_map] at hn
    obtain ⟨x, hx, rfl⟩ := hn
    obtain ⟨y, hy, hnumber, htotal⟩ := heach x hx
    exact ⟨y, hy, by rw [hnumber], htotal⟩
  · rintro ⟨-, hwhole, -⟩
    have hsub : Finset.range (slotTotal ins) ⊆ (ins.map fun x => x.number.toNat).toFinset := by
      intro n hn
      obtain ⟨x, hx, hnumber, -⟩ := hwhole n (Finset.mem_range.mp hn)
      exact List.mem_toFinset.mpr (List.mem_map.mpr ⟨x, hx, hnumber⟩)
    have hall := Finset.eq_of_subset_of_card_le hsub (by rw [← hcard, Finset.card_range])
    intro x hx
    have hmem : x.number.toNat ∈ Finset.range (slotTotal ins) := by
      rw [hall, List.mem_toFinset]
      exact List.mem_map_of_mem hx
    obtain ⟨y, hy, hnumber, htotal⟩ := hwhole _ (Finset.mem_range.mp hmem)
    exact ⟨y, hy, UInt8.toNat_inj.mp hnumber, htotal⟩

/-- What `insert` returns is the whole packet its fragments announced, if every number
inserted since the slot was created was inserted with the slot's total; if one was
inserted under other totals only, it is not a whole packet of the slot's total. -/
theorem insert_isPacketOf (maxPending : Nat) (calls : List ReassemblyCall) (id : UInt64)
    (number total : UInt8) (data : Bytes) (now : UInt64) (p : Bytes)
    (h : (((ReassemblyBuffer.new maxPending).callAll calls).insert id number total data now).2 = some p) :
    let ins := insertedSince id (.new maxPending) [] calls ++ [⟨number, total, data⟩]
    (EachAnnounced ins → ∃ t, IsPacketOf ins t p) ∧
      (¬ EachAnnounced ins → ¬ IsPacketOf ins (slotTotal ins) p) := by
  intro ins
  set b := (ReassemblyBuffer.new maxPending).callAll calls
  have hb : b.AllUnfinished := (ReassemblyBuffer.allUnfinished_new maxPending).callAll calls
  have hrecords : BufferRecords id (insertedSince id (.new maxPending) [] calls) b :=
    BufferRecords.callAll (b := .new maxPending) (by simp [BufferRecords, ReassemblyBuffer.new]) calls
  rcases b.insert_cases id number total data now with ⟨-, hr⟩ | ⟨hvalid, hdone, hr⟩ | ⟨-, -, hr⟩
  · rw [hr] at h
    cases h
  · set old := (b.pending.get? id).getD (.new total.toNat now)
    have hold : old.Unfinished := hb.slot_of id hvalid now
    have hslot : SlotRecords ins (old.put number.toNat data) :=
      hrecords.put (x := ⟨number, total, data⟩) now hvalid
    have hp : (old.put number.toNat data).assemble = p := by
      rw [hr] at h
      exact Option.some.inj h
    obtain ⟨-, hseven, hnumber⟩ := (ReassemblyBuffer.validNumbers_iff _ _).mp hvalid
    have hstored := FragmentSlot.count_put hold.count_eq (hnumber.trans_le hseven) data
    have hone := FragmentSlot.receivedCount_put_le old number.toNat data
    have hlt := hold.count_lt
    have hpos := hold.total_pos
    have hle := hold.total_le
    have htotal := FragmentSlot.totalExpected_put old number.toNat data
    have hiff := hslot.complete_iff (by omega) (by omega) (by omega)
    rw [hp] at hiff
    exact ⟨fun heach => ⟨_, hiff.mp heach⟩, fun hnot hpacket => hnot (hiff.mpr hpacket)⟩
  · rw [hr] at h
    cases h

/-- Two fragments of one total, the second completing the packet. -/
theorem insert_isPacketOf_two :
    ∃ t, IsPacketOf (insertedSince 1 (.new 64) [] [.insert 1 0 2 [1] 100] ++ [⟨1, 2, [2]⟩]) t [1, 2] :=
  (insert_isPacketOf 64 [.insert 1 0 2 [1] 100] 1 1 2 [2] 101 [1, 2] (by decide)).1
    (by decide)

/-- A first fragment of two and a fourth of five are taken for a packet of two. -/
theorem insert_fabricates :
    ¬ ∀ (maxPending : Nat) (calls : List ReassemblyCall) (id : UInt64) (number total : UInt8)
      (data : Bytes) (now : UInt64) (p : Bytes),
      (((ReassemblyBuffer.new maxPending).callAll calls).insert id number total data now).2 = some p →
      ∃ t, IsPacketOf (insertedSince id (.new maxPending) [] calls ++ [⟨number, total, data⟩]) t p := by
  intro hall
  obtain ⟨t, hpos, hwhole, -⟩ := hall 64 [.insert 1 0 2 [1] 100] 1 3 5 [9] 101 [1] (by decide)
  have hins : insertedSince 1 (.new 64) [] [.insert 1 0 2 [1] 100] ++ [(⟨3, 5, [9]⟩ : Insertion)] =
      [⟨0, 2, [1]⟩, ⟨3, 5, [9]⟩] := by decide
  rw [hins] at hwhole
  obtain ⟨x, hx, hzero, htotal⟩ := hwhole 0 hpos
  have ht : t = 2 := by
    rcases List.mem_cons.mp hx with rfl | hx
    · exact htotal.symm
    · rw [List.mem_singleton.mp hx] at hzero
      cases hzero
  subst ht
  obtain ⟨y, hy, hone, -⟩ := hwhole 1 (by decide)
  rcases List.mem_cons.mp hy with rfl | hy
  · cases hone
  · rw [List.mem_singleton.mp hy] at hone
    cases hone

end ManyTier
