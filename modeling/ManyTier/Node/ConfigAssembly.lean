import Mathlib.Data.List.Count
import Mathlib.Data.List.GetD
import ManyTier.Lib.Collector
import ManyTier.Node.State

/-! Assembling a configuration from chunks.

A chunk names its network, its update, the length of the whole and its place in it.
Per network one configuration at a time is assembled; `PendingConfigsOk` is what holds
of the assemblies between deliveries. A pending assembly is read as the set of chunk
numbers it holds (`PendingHolds`), and one delivery is one step of a collector over
those numbers (`assembleNetworkConfig_step`). -/
namespace ManyTier

def maxNetworkConfigSize : Nat := 1048576

namespace PendingNetworkConfig

def new (networkId configUpdateId : UInt64) (totalLength : Nat) : PendingNetworkConfig where
  networkId
  configUpdateId
  totalLength
  data := List.replicate totalLength 0
  received := List.replicate totalLength false
  receivedBytes := 0

def ingestByte (p : PendingNetworkConfig) (index : Nat) (byte : UInt8) : PendingNetworkConfig :=
  { p with
    data := p.data.set index byte
    received := p.received.set index true
    receivedBytes := if p.received.getD index false then p.receivedBytes else p.receivedBytes + 1 }

/-- Each byte of a chunk put at its place; a place is counted when it is first filled. -/
def ingest (p : PendingNetworkConfig) (chunkIndex : Nat) : Bytes → PendingNetworkConfig
  | [] => p
  | byte :: rest => ingest (p.ingestByte chunkIndex byte) (chunkIndex + 1) rest

def isComplete (p : PendingNetworkConfig) : Bool := p.receivedBytes = p.totalLength

end PendingNetworkConfig

/-- Where a chunk goes: the assembly of its network and update, or a fresh one, which
replaces what was assembled for its network before. -/
def pendingIndex (pending : List PendingNetworkConfig) (networkId configUpdateId : UInt64) (total : Nat) :
    List PendingNetworkConfig × Nat :=
  let fresh := PendingNetworkConfig.new networkId configUpdateId total
  let isThis (p : PendingNetworkConfig) : Bool :=
    p.networkId = networkId ∧ p.configUpdateId = configUpdateId
  match pending.findIdx? isThis with
  | some index =>
    if (pending.getD index fresh).totalLength ≠ total then
      (swapRemove pending index ++ [fresh], (swapRemove pending index).length)
    else (pending, index)
  | none =>
    let kept := pending.filter fun p => p.networkId ≠ networkId
    (kept ++ [fresh], kept.length)

/-- The pending assemblies after a configuration or one chunk of it arrived, and the
configuration when it is whole. -/
def assembleNetworkConfig (pending : List PendingNetworkConfig) (nc : NetworkConfigPayload) :
    List PendingNetworkConfig × Option NetworkConfigPayload :=
  match nc.configUpdateId, nc.totalLength, nc.chunkIndex with
  | none, none, none => (pending, some nc)
  | some configUpdateId, some totalLength, some chunkIndex =>
    let total := totalLength.toNat
    if total = 0 ∨ total < chunkIndex.toNat + nc.dictData.length then (pending, none)
    else if maxNetworkConfigSize < total then (pending, none)
    else
      let (pending, index) := pendingIndex pending nc.networkId configUpdateId total
      let slot := pending.getD index (.new nc.networkId configUpdateId total)
      let entry := slot.ingest chunkIndex.toNat nc.dictData
      if ! entry.isComplete then (pending.set index entry, none)
      else
        (swapRemove (pending.set index entry) index,
          some { nc with
            dictData := entry.data
            configUpdateId := some configUpdateId
            totalLength := some totalLength
            chunkIndex := some 0
            signature := none })
  | _, _, _ => (pending, none)

/-! ### One assembly -/

namespace PendingNetworkConfig

/-- What holds of every assembly: its buffers have the announced length, within the
limit, and the received bytes are counted. -/
structure Ok (p : PendingNetworkConfig) : Prop where
  data_length : p.data.length = p.totalLength
  received_length : p.received.length = p.totalLength
  counted : p.receivedBytes = p.received.count true
  bounded : p.totalLength ≤ maxNetworkConfigSize

theorem ok_new (networkId configUpdateId : UInt64) (total : Nat) (h : total ≤ maxNetworkConfigSize) :
    (new networkId configUpdateId total).Ok := by
  refine ⟨by simp [new], by simp [new], ?_, h⟩
  simp [new, List.count_replicate]

theorem count_set_true (l : List Bool) (i : Nat) (h : i < l.length) :
    (l.set i true).count true = if l.getD i false then l.count true else l.count true + 1 := by
  induction l generalizing i with
  | nil => cases h
  | cons b rest ih =>
    cases i with
    | zero => cases b <;> simp
    | succ i =>
      have hi : i < rest.length := by simpa using h
      simp only [List.set_cons_succ, List.count_cons, List.getD_cons_succ, ih i hi]
      split <;> omega

theorem Ok.ingestByte {p : PendingNetworkConfig} (h : p.Ok) {index : Nat} (byte : UInt8)
    (hi : index < p.totalLength) : (p.ingestByte index byte).Ok := by
  refine ⟨?_, ?_, ?_, h.bounded⟩
  · simpa [PendingNetworkConfig.ingestByte] using h.data_length
  · simpa [PendingNetworkConfig.ingestByte] using h.received_length
  · have hlen : index < p.received.length := by rw [h.received_length]; exact hi
    simp only [PendingNetworkConfig.ingestByte, count_set_true _ _ hlen, h.counted]

/-- A chunk inside the bounds keeps what holds of every assembly, and what the
assembly is of. -/
theorem Ok.ingest {p : PendingNetworkConfig} (h : p.Ok) {off : Nat} {chunk : Bytes}
    (hoff : off + chunk.length ≤ p.totalLength) : (p.ingest off chunk).Ok := by
  induction chunk generalizing p off with
  | nil => exact h
  | cons byte rest ih =>
    rw [List.length_cons] at hoff
    exact ih (h.ingestByte byte (by omega)) (by simp [PendingNetworkConfig.ingestByte]; omega)

theorem ingest_names (p : PendingNetworkConfig) (off : Nat) (chunk : Bytes) :
    (p.ingest off chunk).networkId = p.networkId ∧
      (p.ingest off chunk).configUpdateId = p.configUpdateId ∧
      (p.ingest off chunk).totalLength = p.totalLength := by
  induction chunk generalizing p off with
  | nil => exact ⟨rfl, rfl, rfl⟩
  | cons byte rest ih => exact ih (p.ingestByte off byte) (off + 1)

/-- After a chunk, the places it covers hold its bytes and the others what they held. -/
theorem ingest_at {p : PendingNetworkConfig} (h : p.Ok) {off : Nat} {chunk : Bytes}
    (hoff : off + chunk.length ≤ p.totalLength) (j : Nat) :
    byteAt (p.ingest off chunk).data j =
        (if off ≤ j ∧ j < off + chunk.length then byteAt chunk (j - off) else byteAt p.data j) ∧
      (p.ingest off chunk).received.getD j false =
        (decide (off ≤ j ∧ j < off + chunk.length) || p.received.getD j false) := by
  induction chunk generalizing p off with
  | nil =>
    have hno : ¬ (off ≤ j ∧ j < off + ([] : Bytes).length) := by simp
    rw [if_neg hno, decide_eq_false hno]
    exact ⟨rfl, rfl⟩
  | cons byte rest ih =>
    rw [List.length_cons] at hoff
    have hok : (p.ingestByte off byte).Ok := h.ingestByte byte (by omega)
    have hrest : off + 1 + rest.length ≤ (p.ingestByte off byte).totalLength := by
      simp [PendingNetworkConfig.ingestByte]
      omega
    obtain ⟨hdata, hrecv⟩ := ih hok hrest
    have hd : off < p.data.length := by rw [h.data_length]; omega
    have hr : off < p.received.length := by rw [h.received_length]; omega
    rw [PendingNetworkConfig.ingest, hdata, hrecv, List.length_cons]
    rcases Nat.lt_trichotomy j off with hlt | rfl | hgt
    · have hne : off ≠ j := by omega
      rw [if_neg (by omega), if_neg (by omega), decide_eq_false (by omega), decide_eq_false (by omega)]
      simp [PendingNetworkConfig.ingestByte, byteAt, List.getElem?_set_ne hne]
    · have hno : ¬ (j + 1 ≤ j ∧ j < j + 1 + rest.length) := by omega
      rw [if_neg hno, decide_eq_false hno]
      simp [PendingNetworkConfig.ingestByte, byteAt, hd, hr]
    · have hne : off ≠ j := by omega
      have hsame : (off + 1 ≤ j ∧ j < off + 1 + rest.length) ↔
          (off ≤ j ∧ j < off + (rest.length + 1)) := by omega
      have htail : byteAt (byte :: rest) (j - off) = byteAt rest (j - (off + 1)) := by
        rw [show j - off = j - (off + 1) + 1 by omega, byteAt_cons_succ]
      simp only [hsame, htail]
      simp [PendingNetworkConfig.ingestByte, byteAt, List.getElem?_set_ne hne]

end PendingNetworkConfig

/-! ### All assemblies -/

/-- What holds of the assemblies between deliveries: one per network, each in order. -/
structure PendingConfigsOk (pending : List PendingNetworkConfig) : Prop where
  one : (pending.map PendingNetworkConfig.networkId).Nodup
  each : ∀ p ∈ pending, p.Ok

/-- The assembly a chunk continues: the one of its network, update and length. -/
def continued (pending : List PendingNetworkConfig) (networkId configUpdateId : UInt64) (total : Nat) :
    PendingNetworkConfig :=
  (pending.find? fun p => p.networkId = networkId ∧ p.configUpdateId = configUpdateId ∧
    p.totalLength = total).getD (.new networkId configUpdateId total)

/-- The place `r` of a chunk: it holds the assembly the chunk continues, and what is
elsewhere is, up to order, the other networks' assemblies. -/
structure Placed (pending : List PendingNetworkConfig) (networkId configUpdateId : UInt64) (total : Nat)
    (r : List PendingNetworkConfig × Nat) : Prop where
  inside : r.2 < r.1.length
  here : r.1.getD r.2 (.new networkId configUpdateId total) =
    continued pending networkId configUpdateId total
  elsewhere : (r.1.eraseIdx r.2).Perm (pending.filter fun p => p.networkId ≠ networkId)

section
variable {pending : List PendingNetworkConfig} {networkId configUpdateId : UInt64} {total : Nat}

theorem continued_fresh (h : ∀ p ∈ pending, p.networkId = networkId →
    p.configUpdateId = configUpdateId → p.totalLength ≠ total) :
    continued pending networkId configUpdateId total = .new networkId configUpdateId total := by
  have hfind : (pending.find? fun p => p.networkId = networkId ∧
      p.configUpdateId = configUpdateId ∧ p.totalLength = total) = none := by
    apply List.find?_eq_none.mpr
    intro p hp
    simpa using h p hp
  rw [continued, hfind, Option.getD_none]

theorem placed_fresh {kept : List PendingNetworkConfig}
    (hkept : kept.Perm (pending.filter fun p => p.networkId ≠ networkId))
    (h : ∀ p ∈ pending, p.networkId = networkId → p.configUpdateId = configUpdateId →
      p.totalLength ≠ total) :
    Placed pending networkId configUpdateId total
      (kept ++ [.new networkId configUpdateId total], kept.length) := by
  refine ⟨by simp, ?_, ?_⟩
  · rw [continued_fresh h]
    simp
  · simpa [List.eraseIdx_append_of_length_le] using hkept

/-- One network's assembly is the only one of the network. -/
theorem PendingConfigsOk.unique (h : PendingConfigsOk pending) {p q : PendingNetworkConfig}
    (hp : p ∈ pending) (hq : q ∈ pending) (heq : p.networkId = q.networkId) : p = q :=
  List.inj_on_of_nodup_map h.one hp hq heq

theorem pendingIndex_placed (h : PendingConfigsOk pending) (networkId configUpdateId : UInt64)
    (total : Nat) :
    Placed pending networkId configUpdateId total
      (pendingIndex pending networkId configUpdateId total) := by
  unfold pendingIndex
  simp only
  split
  · rename_i index hindex
    obtain ⟨hlt, hthis, -⟩ := List.findIdx?_eq_some_iff_getElem.mp hindex
    obtain ⟨hnet, hupd⟩ : pending[index].networkId = networkId ∧
        pending[index].configUpdateId = configUpdateId := by simpa using hthis
    have hget : pending.getD index (.new networkId configUpdateId total) = pending[index] := by
      simp [hlt]
    have herase : pending.eraseIdx index = pending.filter fun p => p.networkId ≠ networkId := by
      rw [eraseIdx_eq_filter _ h.one hlt, hnet]
    rw [hget]
    split
    · rename_i htotal
      apply placed_fresh
      · rw [← herase]
        exact swapRemove_perm hlt
      · intro p hp hpnet _ hptotal
        obtain rfl := h.unique hp (List.getElem_mem hlt) (hpnet.trans hnet.symm)
        exact htotal hptotal
    · rename_i htotal
      rw [ne_eq, not_not] at htotal
      refine ⟨hlt, ?_, by rw [herase]⟩
      rw [hget, continued]
      cases hfind : pending.find? fun p => p.networkId = networkId ∧
          p.configUpdateId = configUpdateId ∧ p.totalLength = total with
      | none =>
        have := List.find?_eq_none.mp hfind _ (List.getElem_mem hlt)
        simp [hnet, hupd, htotal] at this
      | some p =>
        have hp := List.find?_some hfind
        simp only [decide_eq_true_eq] at hp
        exact h.unique (List.getElem_mem hlt) (List.mem_of_find?_eq_some hfind) (hnet.trans hp.1.symm)
  · rename_i hnone
    apply placed_fresh (List.Perm.refl _)
    intro p hp hpnet hpupd
    have := List.findIdx?_eq_none_iff.mp hnone p hp
    simp [hpnet, hpupd] at this

theorem continued_names (pending : List PendingNetworkConfig) (networkId configUpdateId : UInt64)
    (total : Nat) :
    (continued pending networkId configUpdateId total).networkId = networkId ∧
      (continued pending networkId configUpdateId total).configUpdateId = configUpdateId ∧
      (continued pending networkId configUpdateId total).totalLength = total := by
  unfold continued
  cases hfind : pending.find? _ with
  | none => exact ⟨rfl, rfl, rfl⟩
  | some p => simpa using List.find?_some hfind

theorem continued_ok (h : PendingConfigsOk pending) (htotal : total ≤ maxNetworkConfigSize) :
    (continued pending networkId configUpdateId total).Ok := by
  unfold continued
  cases hfind : pending.find? _ with
  | none => exact PendingNetworkConfig.ok_new _ _ _ htotal
  | some p => exact h.each p (List.mem_of_find?_eq_some hfind)

end

/-- What a payload does when it is a chunk inside its bounds. -/
structure NetworkConfigPayload.ChunkOf (nc : NetworkConfigPayload) (configUpdateId : UInt64)
    (totalLength chunkIndex : UInt32) : Prop where
  update : nc.configUpdateId = some configUpdateId
  total : nc.totalLength = some totalLength
  index : nc.chunkIndex = some chunkIndex
  nonempty : totalLength.toNat ≠ 0
  inside : chunkIndex.toNat + nc.dictData.length ≤ totalLength.toNat
  bounded : totalLength.toNat ≤ maxNetworkConfigSize

section
variable {pending : List PendingNetworkConfig} {nc : NetworkConfigPayload}

/-- A chunk extends the assembly it continues; the assembly stays in front of the other
networks' until it is complete, and then leaves with the whole. -/
theorem assembleNetworkConfig_chunk (h : PendingConfigsOk pending) {configUpdateId : UInt64}
    {totalLength chunkIndex : UInt32} (hc : nc.ChunkOf configUpdateId totalLength chunkIndex) :
    let entry := (continued pending nc.networkId configUpdateId totalLength.toNat).ingest
      chunkIndex.toNat nc.dictData
    let others := pending.filter fun p => p.networkId ≠ nc.networkId
    let r := assembleNetworkConfig pending nc
    if entry.isComplete then
      r.1.Perm others ∧
        r.2 = some { nc with dictData := entry.data, chunkIndex := some 0, signature := none }
    else r.1.Perm (entry :: others) ∧ r.2 = none := by
  intro entry others r
  obtain ⟨hin, hhere, helse⟩ :=
    pendingIndex_placed h nc.networkId configUpdateId totalLength.toNat
  set place := pendingIndex pending nc.networkId configUpdateId totalLength.toNat with hplace
  have hset : (place.1.set place.2 entry).Perm (entry :: others) :=
    (List.set_perm_cons_eraseIdx hin entry).trans (helse.cons entry)
  have hr : r = if ! entry.isComplete then (place.1.set place.2 entry, none)
      else (swapRemove (place.1.set place.2 entry) place.2,
        some { nc with dictData := entry.data, chunkIndex := some 0, signature := none }) := by
    simp only [r, assembleNetworkConfig, hc.update, hc.total, hc.index, ← hplace, hhere]
    rw [if_neg (by have := hc.nonempty; have := hc.inside; omega), if_neg (by have := hc.bounded; omega)]
  rw [hr]
  cases entry.isComplete with
  | false => exact ⟨hset, rfl⟩
  | true =>
    refine ⟨?_, rfl⟩
    have hlen : place.2 < (place.1.set place.2 entry).length := by simpa using hin
    refine (swapRemove_perm hlen).trans ?_
    rw [List.eraseIdx_set_eq]
    exact helse

/-- What is not a chunk inside its bounds changes no assembly. -/
theorem assembleNetworkConfig_cases (pending : List PendingNetworkConfig) (nc : NetworkConfigPayload) :
    (∃ configUpdateId totalLength chunkIndex, nc.ChunkOf configUpdateId totalLength chunkIndex) ∨
      (assembleNetworkConfig pending nc).1 = pending := by
  by_cases hchunk : ∃ configUpdateId totalLength chunkIndex,
      nc.ChunkOf configUpdateId totalLength chunkIndex
  · exact .inl hchunk
  · right
    unfold assembleNetworkConfig
    split
    · rfl
    · rename_i u t c hu ht hc
      simp only
      split
      · rfl
      · rename_i hbounds
        split
        · rfl
        · rename_i hmax
          exact absurd ⟨u, t, c, hu, ht, hc, by omega, by omega, by omega⟩ hchunk
    · rfl

theorem PendingConfigsOk.perm {a b : List PendingNetworkConfig} (h : PendingConfigsOk a)
    (hab : b.Perm a) : PendingConfigsOk b :=
  ⟨(hab.map _).nodup_iff.mpr h.one, fun p hp => h.each p (hab.mem_iff.mp hp)⟩

/-- A delivery keeps one assembly per network, each in order. -/
theorem PendingConfigsOk.assemble (h : PendingConfigsOk pending) (nc : NetworkConfigPayload) :
    PendingConfigsOk (assembleNetworkConfig pending nc).1 := by
  rcases assembleNetworkConfig_cases pending nc with ⟨u, t, c, hc⟩ | hsame
  · have hstep := assembleNetworkConfig_chunk h hc
    simp only at hstep
    set entry := (continued pending nc.networkId u t.toNat).ingest c.toNat nc.dictData with hentry
    have hothers : PendingConfigsOk (pending.filter fun p => p.networkId ≠ nc.networkId) :=
      ⟨h.one.sublist (List.filter_sublist.map _), fun p hp => h.each p (List.mem_of_mem_filter hp)⟩
    split at hstep
    · exact hothers.perm hstep.1
    · have hnames := continued_names pending nc.networkId u t.toNat
      have hok : entry.Ok := (continued_ok h hc.bounded).ingest (by rw [hnames.2.2]; exact hc.inside)
      have hnet : entry.networkId = nc.networkId := by
        rw [hentry, (PendingNetworkConfig.ingest_names _ _ _).1, hnames.1]
      have hcons : PendingConfigsOk (entry :: pending.filter fun p => p.networkId ≠ nc.networkId) := by
        refine ⟨List.nodup_cons.mpr ⟨?_, hothers.one⟩, List.forall_mem_cons.mpr ⟨hok, hothers.each⟩⟩
        rw [hnet]
        intro hmem
        obtain ⟨p, hp, hpnet⟩ := List.mem_map.mp hmem
        simpa [hpnet] using (List.mem_filter.mp hp).2
      exact hcons.perm hstep.1
  · rw [hsame]
    exact h

end

/-! ### An assembly as a set of chunk numbers -/

/-- The assembly is of `dict` and holds exactly its chunks numbered `held`. -/
structure PendingHolds (dict : Bytes) (size : Nat) (held : Finset Nat) (p : PendingNetworkConfig) :
    Prop where
  ok : p.Ok
  total : p.totalLength = dict.length
  marked : ∀ j < dict.length, p.received.getD j false = decide (j / size ∈ held)
  same : ∀ j < dict.length, j / size ∈ held → byteAt p.data j = byteAt dict j

/-- How many chunks of `size` bytes a dictionary has. -/
def chunkCount (dict : Bytes) (size : Nat) : Nat := (dict.length + size - 1) / size

section
variable {dict : Bytes} {size : Nat} {held : Finset Nat} {p : PendingNetworkConfig}

theorem lt_chunkCount (hsize : 0 < size) (i : Nat) : i < chunkCount dict size ↔ i * size < dict.length := by
  rw [chunkCount, Nat.lt_div_iff_mul_lt hsize]
  constructor <;> intro h <;> omega

theorem pendingHolds_new (networkId configUpdateId : UInt64) (dict : Bytes) (size : Nat)
    (h : dict.length ≤ maxNetworkConfigSize) :
    PendingHolds dict size ∅ (.new networkId configUpdateId dict.length) := by
  refine ⟨PendingNetworkConfig.ok_new _ _ _ h, rfl, ?_, ?_⟩
  · intro j hj
    simp [PendingNetworkConfig.new, hj]
  · intro j _ hmem
    exact absurd hmem (Finset.notMem_empty _)

/-- One chunk adds one number. -/
theorem PendingHolds.ingest (h : PendingHolds dict size held p) (hsize : 0 < size) {i : Nat}
    (hi : i * size < dict.length) :
    PendingHolds dict size (held ∪ {i}) (p.ingest (i * size) (slice dict (i * size) size)) := by
  have hlen : (slice dict (i * size) size).length = min size (dict.length - i * size) := by simp
  have hin : i * size + (slice dict (i * size) size).length ≤ p.totalLength := by
    rw [hlen, h.total]
    omega
  -- The places the chunk covers are those whose number is `i`.
  have hcover : ∀ j < dict.length,
      (i * size ≤ j ∧ j < i * size + (slice dict (i * size) size).length) ↔ j / size = i := by
    intro j hj
    rw [hlen, Nat.div_eq_iff hsize]
    have : (i + 1) * size = i * size + size := Nat.succ_mul _ _
    constructor <;> intro hb <;> omega
  refine ⟨h.ok.ingest hin, ?_, ?_, ?_⟩
  · rw [(PendingNetworkConfig.ingest_names _ _ _).2.2, h.total]
  · intro j hj
    rw [(PendingNetworkConfig.ingest_at h.ok hin j).2, h.marked j hj]
    by_cases hji : j / size = i
    · rw [decide_eq_true ((hcover j hj).mpr hji)]
      simp [hji]
    · have := mt (hcover j hj).mp hji
      rw [decide_eq_false this]
      simp [hji]
  · intro j hj hmem
    rw [(PendingNetworkConfig.ingest_at h.ok hin j).1]
    by_cases hji : j / size = i
    · have hb := (hcover j hj).mpr hji
      rw [if_pos hb]
      simp only [byteAt, slice, List.getD_eq_getElem?_getD, List.getElem?_take, List.getElem?_drop]
      rw [if_pos (by omega), Nat.add_sub_cancel' hb.1]
    · rw [if_neg (mt (hcover j hj).mp hji)]
      exact h.same j hj (by simpa [hji] using hmem)

/-- Complete is holding every chunk. -/
theorem PendingHolds.isComplete_iff (h : PendingHolds dict size held p) (hsize : 0 < size) :
    p.isComplete = true ↔ Finset.range (chunkCount dict size) ⊆ held := by
  have hall : p.isComplete = true ↔ ∀ b ∈ p.received, true = b := by
    rw [PendingNetworkConfig.isComplete, decide_eq_true_eq, h.ok.counted, ← h.ok.received_length,
      List.count_eq_length]
  rw [hall]
  have hlen : p.received.length = dict.length := h.ok.received_length.trans h.total
  constructor
  · intro hb i hi
    have hi' := (lt_chunkCount hsize i).mp (Finset.mem_range.mp hi)
    have hmark := h.marked (i * size) hi'
    have hget : p.received.getD (i * size) false = true := by
      rw [List.getD_eq_getElem _ _ (by omega)]
      exact (hb _ (List.getElem_mem _)).symm
    rw [hget, Nat.mul_div_cancel i hsize] at hmark
    exact of_decide_eq_true hmark.symm
  · intro hsub b hb
    obtain ⟨j, hj, rfl⟩ := List.getElem_of_mem hb
    have hj' : j < dict.length := by omega
    have hmem : j / size ∈ held := by
      refine hsub (Finset.mem_range.mpr ((lt_chunkCount hsize _).mpr ?_))
      exact (Nat.div_mul_le_self j size).trans_lt hj'
    have hmark := h.marked j hj'
    rw [decide_eq_true hmem, List.getD_eq_getElem _ _ hj] at hmark
    exact hmark.symm

/-- A complete assembly is the dictionary. -/
theorem PendingHolds.data_eq (h : PendingHolds dict size held p) (hsize : 0 < size)
    (hall : Finset.range (chunkCount dict size) ⊆ held) : p.data = dict := by
  have hlen : p.data.length = dict.length := h.ok.data_length.trans h.total
  refine List.ext_getElem hlen ?_
  intro j hj hj'
  have hmem : j / size ∈ held := by
    refine hall (Finset.mem_range.mpr ((lt_chunkCount hsize _).mpr ?_))
    exact (Nat.div_mul_le_self j size).trans_lt hj'
  have := h.same j hj' hmem
  rwa [byteAt, byteAt, List.getD_eq_getElem _ _ hj, List.getD_eq_getElem _ _ hj'] at this

end

/-- What is assembled for one update of a network is the chunks numbered `held`. -/
structure ConfigsHold (dict : Bytes) (size : Nat) (networkId configUpdateId : UInt64)
    (held : Finset Nat) (pending : List PendingNetworkConfig) : Prop where
  ok : PendingConfigsOk pending
  holds : ∀ p ∈ pending, p.networkId = networkId → p.configUpdateId = configUpdateId →
    PendingHolds dict size held p
  absent : (∀ p ∈ pending, p.networkId = networkId → p.configUpdateId ≠ configUpdateId) → held = ∅

section
variable {dict : Bytes} {size : Nat} {networkId configUpdateId : UInt64} {held : Finset Nat}
  {pending : List PendingNetworkConfig} {nc : NetworkConfigPayload}

/-- A completed configuration is for the network of the chunk that completed it. -/
theorem networkId_assembleNetworkConfig {whole : NetworkConfigPayload}
    (h : (assembleNetworkConfig pending nc).2 = some whole) : whole.networkId = nc.networkId := by
  unfold assembleNetworkConfig at h
  split at h
  · cases h
    rfl
  · simp only at h
    split at h
    · cases h
    · split at h
      · cases h
      · split at h
        · cases h
        · cases h
          rfl
  · cases h

/-- What arrives for another network leaves a network's assembly as it is. -/
theorem mem_assembleNetworkConfig_other (h : PendingConfigsOk pending) (hne : nc.networkId ≠ networkId)
    {p : PendingNetworkConfig} (hp : p.networkId = networkId) :
    p ∈ (assembleNetworkConfig pending nc).1 ↔ p ∈ pending := by
  rcases assembleNetworkConfig_cases pending nc with ⟨u, t, c, hc⟩ | hsame
  · have hstep := assembleNetworkConfig_chunk h hc
    simp only at hstep
    have hother : p ∈ pending.filter (fun q => q.networkId ≠ nc.networkId) ↔ p ∈ pending := by
      simp [hp, Ne.symm hne]
    split at hstep
    · rw [hstep.1.mem_iff, hother]
    · rw [hstep.1.mem_iff, List.mem_cons, hother]
      refine or_iff_right ?_
      rintro rfl
      rw [(PendingNetworkConfig.ingest_names _ _ _).1, (continued_names _ _ _ _).1] at hp
      exact hne hp
  · rw [hsame]

theorem ConfigsHold.other (h : ConfigsHold dict size networkId configUpdateId held pending)
    (hne : nc.networkId ≠ networkId) :
    ConfigsHold dict size networkId configUpdateId held (assembleNetworkConfig pending nc).1 := by
  refine ⟨h.ok.assemble nc, ?_, ?_⟩
  · intro p hp hnet
    exact h.holds p ((mem_assembleNetworkConfig_other h.ok hne hnet).mp hp) hnet
  · intro hall
    refine h.absent fun p hp hnet => hall p ?_ hnet
    exact (mem_assembleNetworkConfig_other h.ok hne hnet).mpr hp

/-- A chunk continues an assembly that holds what was collected. -/
theorem ConfigsHold.continued (h : ConfigsHold dict size networkId configUpdateId held pending)
    (hbound : dict.length ≤ maxNetworkConfigSize) :
    PendingHolds dict size held (ManyTier.continued pending networkId configUpdateId dict.length) := by
  by_cases hnone : ∀ p ∈ pending, p.networkId = networkId → p.configUpdateId ≠ configUpdateId
  · rw [h.absent hnone, continued_fresh fun p hp hnet hupd => absurd hupd (hnone p hp hnet)]
    exact pendingHolds_new networkId configUpdateId dict size hbound
  · push Not at hnone
    obtain ⟨p, hp, hnet, hupd⟩ := hnone
    have hholds := h.holds p hp hnet hupd
    unfold ManyTier.continued
    cases hfind : pending.find? _ with
    | none =>
      have := List.find?_eq_none.mp hfind p hp
      simp [hnet, hupd, hholds.total] at this
    | some q =>
      have hq := List.find?_some hfind
      simp only [decide_eq_true_eq] at hq
      exact h.holds q (List.mem_of_find?_eq_some hfind) hq.1 hq.2.1

/-- One chunk delivered is one step of the collector over the chunk numbers. -/
theorem assembleNetworkConfig_step (h : ConfigsHold dict size networkId configUpdateId held pending)
    (hsize : 0 < size) (hbound : dict.length ≤ maxNetworkConfigSize) {i : Nat}
    (hi : i * size < dict.length) (hnet : nc.networkId = networkId)
    (hdata : nc.dictData = slice dict (i * size) size) {totalLength chunkIndex : UInt32}
    (hc : nc.ChunkOf configUpdateId totalLength chunkIndex) (htotal : totalLength.toNat = dict.length)
    (hindex : chunkIndex.toNat = i * size) :
    let c := Collector.step (Finset.range (chunkCount dict size)) held {i}
    let r := assembleNetworkConfig pending nc
    ConfigsHold dict size networkId configUpdateId c.1 r.1 ∧
      r.2 = if c.2 then some { nc with dictData := dict, chunkIndex := some 0, signature := none }
        else none := by
  intro c r
  subst hnet
  have hstep := assembleNetworkConfig_chunk h.ok hc
  rw [htotal, hindex, hdata] at hstep
  have hentry := (h.continued hbound).ingest hsize hi
  set entry := (continued pending nc.networkId configUpdateId dict.length).ingest (i * size)
    (slice dict (i * size) size) with hentryDef
  have hnames : entry.networkId = nc.networkId ∧ entry.configUpdateId = configUpdateId := by
    rw [hentryDef, (PendingNetworkConfig.ingest_names _ _ _).1,
      (PendingNetworkConfig.ingest_names _ _ _).2.1]
    exact ⟨(continued_names _ _ _ _).1, (continued_names _ _ _ _).2.1⟩
  simp only at hstep
  by_cases hall : Finset.range (chunkCount dict size) ⊆ held ∪ {i}
  · have hcomplete : entry.isComplete = true := (hentry.isComplete_iff hsize).mpr hall
    rw [if_pos hcomplete, hentry.data_eq hsize hall] at hstep
    have hcstep : c = (∅, true) := by simp only [c, Collector.step, if_pos hall]
    rw [hcstep]
    have hgone : ∀ p ∈ r.1, p.networkId ≠ nc.networkId := by
      intro p hp
      simpa using (List.mem_filter.mp (hstep.1.mem_iff.mp hp)).2
    exact ⟨⟨h.ok.assemble nc, fun p hp hn => absurd hn (hgone p hp), fun _ => rfl⟩, hstep.2⟩
  · have hcomplete : ¬ entry.isComplete = true := mt (hentry.isComplete_iff hsize).mp hall
    rw [if_neg hcomplete] at hstep
    have hcstep : c = (held ∪ {i}, false) := by simp only [c, Collector.step, if_neg hall]
    rw [hcstep]
    refine ⟨⟨h.ok.assemble nc, ?_, ?_⟩, hstep.2⟩
    · intro p hp hn _
      rcases List.mem_cons.mp (hstep.1.mem_iff.mp hp) with rfl | hp
      · exact hentry
      · have := (List.mem_filter.mp hp).2
        simp [hn] at this
    · intro hno
      have hmem : entry ∈ r.1 := hstep.1.mem_iff.mpr List.mem_cons_self
      exact absurd hnames.2 (hno entry hmem hnames.1)

end

end ManyTier
