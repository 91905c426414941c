import ManyTier.Controller.Backends
import ManyTier.Controller.Engine
import ManyTier.Controller.NetworkApi

/-! Runs of the three storage backends.

From empty, the backends return the same in every run whose calls meet their conditions
(`backends_agree`), and in no other: a call that does not meet its condition is told apart
by its own result or by the next read (`agree_iff_meets`). One that is not met in practice
is that of a deletion. SQLite leaves the members of a deleted network, and the next
network with its id has them (`deleted_members_return`). -/
namespace ManyTier.Controller

/-- The three backends return the same in a run from empty. -/
def Agree (calls : List Call) : Prop :=
  List.Forall₂ SameResult (results SqliteStorage.call .new calls) (results InMemoryStorage.call .new calls) ∧
    List.Forall₂ SameResult (results SqliteStorage.call .new calls) (results FilesystemStorage.call .new calls) ∧
    List.Forall₂ SameResult (results InMemoryStorage.call .new calls) (results FilesystemStorage.call .new calls)

/-- Calls that put a member, pools or routes into a network. -/
def Call.Fills (id : UInt64) : Call → Prop
  | .upsertMember member => member.networkId = id
  | .setIpPools id' _ | .setRoutes id' _ => id' = id
  | _ => False

/-- Calls that return records. -/
def Call.Reads : Call → Prop
  | .getNetwork _ | .listNetworks | .getMember _ _ | .listMembers _ | .getIpPools _ | .getRoutes _
  | .getAssignedIps _ => True
  | _ => False

namespace Store

theorem cleared_clear (st : Store) (id : UInt64) : (st.clear id).Cleared id := by
  refine ⟨fun node => ?_, ?_, ?_⟩
  · exact if_pos rfl
  · exact if_pos rfl
  · exact if_pos rfl

/-- A cleared network stays so under calls that put nothing into it. -/
theorem cleared_next {st : Store} {id : UInt64} (h : st.Cleared id) {c : Call} (hc : ¬ c.Fills id) :
    (st.next c).Cleared id := by
  obtain ⟨hmembers, hpools, hroutes⟩ := h
  cases c with
  | upsertMember member =>
    refine ⟨fun node => ?_, hpools, hroutes⟩
    have hne : ¬ (id = member.networkId ∧ node = member.nodeId) := fun h => hc h.1.symm
    exact (if_neg hne).trans (hmembers node)
  | setIpPools id' pools => exact ⟨hmembers, (if_neg fun h => hc h.symm).trans hpools, hroutes⟩
  | setRoutes id' routes => exact ⟨hmembers, hpools, (if_neg fun h => hc h.symm).trans hroutes⟩
  | deleteNetwork id' =>
    refine ⟨fun node => ?_, ?_, ?_⟩
    · exact ite_eq_left_iff.mpr fun _ => hmembers node
    · exact ite_eq_left_iff.mpr fun _ => hpools
    · exact ite_eq_left_iff.mpr fun _ => hroutes
  | deleteMember id' node' =>
    refine ⟨fun node => ?_, hpools, hroutes⟩
    exact ite_eq_left_iff.mpr fun _ => hmembers node
  | _ => exact ⟨hmembers, hpools, hroutes⟩

theorem cleared_foldl {st : Store} {id : UInt64} (h : st.Cleared id) {calls : List Call}
    (hcalls : ∀ c ∈ calls, ¬ c.Fills id) : (calls.foldl next st).Cleared id := by
  induction calls generalizing st with
  | nil => exact h
  | cons c rest ih =>
    exact ih (cleared_next h (hcalls c List.mem_cons_self)) fun c hc => hcalls c (List.mem_cons_of_mem _ hc)

end Store

/-! ### Calls that meet their conditions -/

theorem agree_of_meets {calls : List Call} (hmeet : AllMeet Store.empty calls) : Agree calls := by
  have hmemory : InMemoryStorage.new.Distinct := List.nodup_nil
  exact ⟨SqliteStorage.refines.results_same InMemoryStorage.refines trivial hmemory rfl hmeet,
    SqliteStorage.refines.results_same FilesystemStorage.refines trivial trivial rfl hmeet,
    InMemoryStorage.refines.results_same FilesystemStorage.refines hmemory trivial rfl hmeet⟩

theorem backends_agree {calls : List Call} (hmeet : AllMeet Store.empty calls) :
    Agree calls ∧ ∀ before id after, calls = before ++ .deleteNetwork id :: after → (∀ c ∈ after, ¬ c.Fills id) →
      (stateAfter SqliteStorage.call .new calls).view.Cleared id ∧
        (stateAfter InMemoryStorage.call .new calls).view.Cleared id ∧
        (stateAfter FilesystemStorage.call .new calls).view.Cleared id := by
  have hmemory : InMemoryStorage.new.Distinct := List.nodup_nil
  constructor
  · exact agree_of_meets hmeet
  · rintro before id after rfl hafter
    have hcleared : ((before ++ .deleteNetwork id :: after).foldl Store.next Store.empty).Cleared id := by
      rw [List.foldl_append, List.foldl_cons]
      exact Store.cleared_foldl (Store.cleared_clear _ id) hafter
    have hsqlite := (SqliteStorage.refines.view_stateAfter (s := .new) trivial hmeet).1
    have hmem := (InMemoryStorage.refines.view_stateAfter (s := .new) hmemory hmeet).1
    have hfiles := (FilesystemStorage.refines.view_stateAfter (s := .new) trivial hmeet).1
    rw [hsqlite, hmem, hfiles]
    exact ⟨hcleared, hcleared, hcleared⟩

/-! A network that is emptied before it is deleted. -/

def sampleMember : MemberRecord :=
  { newMember 16 ⟨[1, 2, 3, 4, 5], rfl⟩ 0 with
    authorized := true
    ipAssignments := [.literal ['1', '0', '.', '0', '.', '0', '.', '2']] }

def emptiedRun : List Call :=
  [.createNetwork sampleNetwork, .upsertMember sampleMember, .setIpPools 16 [⟨hostIn 10 1, hostIn 10 9⟩],
    .deleteMember 16 sampleMember.nodeId, .setIpPools 16 [], .deleteNetwork 16, .createNetwork sampleNetwork,
    .getMember 16 sampleMember.nodeId]

theorem emptiedRun_meets : AllMeet Store.empty emptiedRun := by
  refine ⟨rfl, trivial, List.nodup_singleton _, trivial, List.nodup_nil, ⟨fun node => ?_, rfl, rfl⟩, rfl, trivial, trivial⟩
  by_cases hnode : node = sampleMember.nodeId
  · exact if_pos ⟨rfl, hnode⟩
  · exact (if_neg fun h => hnode h.2).trans (if_neg fun h => hnode h.2)

theorem backends_agree_emptied :
    Agree emptiedRun ∧ (stateAfter SqliteStorage.call .new emptiedRun).view.Cleared 16 := by
  obtain ⟨hagree, hcleared⟩ := backends_agree emptiedRun_meets
  refine ⟨hagree, (hcleared (emptiedRun.take 5) 16 (emptiedRun.drop 6) rfl ?_).1⟩
  intro c hc
  obtain rfl | rfl := List.mem_pair.mp hc
  · exact id
  · exact id

/-! ### Calls that do not -/

section
variable {σ τ : Type} {b : Backend σ} {b' : Backend τ} {s : σ} {t : τ}

/-- What is the same in a run is the same in its second part. -/
theorem same_of_append {before rest : List Call}
    (h : List.Forall₂ SameResult (results b s (before ++ rest)) (results b' t (before ++ rest))) :
    List.Forall₂ SameResult (results b (stateAfter b s before) rest) (results b' (stateAfter b' t before) rest) := by
  induction before generalizing s t with
  | nil => exact h
  | cons c before ih => exact ih (List.forall₂_cons.mp h).2

theorem same_head {c : Call} {rest : List Call}
    (h : List.Forall₂ SameResult (results b s (c :: rest)) (results b' t (c :: rest))) :
    SameResult ((b c).run s).1 ((b' c).run t).1 :=
  (List.forall₂_cons.mp h).1

theorem same_tail {c : Call} {rest : List Call}
    (h : List.Forall₂ SameResult (results b s (c :: rest)) (results b' t (c :: rest))) :
    List.Forall₂ SameResult (results b ((b c).run s).2 rest) (results b' ((b' c).run t).2 rest) :=
  (List.forall₂_cons.mp h).2

end

theorem not_same_error_ok {e : StorageError} {r : StorageReply} : ¬ SameResult (.error e) (.ok r) := id

theorem not_same_ok_error {e : StorageError} {r : StorageReply} : ¬ SameResult (.ok r) (.error e) := id

theorem same_member {m m' : Option MemberRecord} (h : SameResult (.ok (.member m)) (.ok (.member m'))) : m = m' := by
  cases h
  rfl

theorem same_ipPools_nil {pools : List IpPool} (h : SameResult (.ok (.ipPools pools)) (.ok (.ipPools []))) :
    pools = [] := by
  cases h with
  | rfl => rfl
  | ipPools h => exact h.eq_nil

theorem same_routes_nil {routes : List ManagedRoute} (h : SameResult (.ok (.routes routes)) (.ok (.routes []))) :
    routes = [] := by
  cases h with
  | rfl => rfl
  | routes h => exact h.eq_nil

/-- SQLite and memory, with the same records, are told apart by a call that does not meet
its condition and a read behind it. -/
theorem told_apart {s : SqliteStorage} {t : InMemoryStorage} (hview : t.view = s.view) (ht : t.Distinct) {c : Call}
    (hc : ¬ c.Meets s.view) :
    ∃ probe : Call, probe.Reads ∧ ¬ List.Forall₂ SameResult (results SqliteStorage.call s [c, probe])
      (results InMemoryStorage.call t [c, probe]) := by
  cases c with
  | createNetwork network =>
    refine ⟨.listNetworks, trivial, fun h => ?_⟩
    have hmem : network.id ∈ s.networks.rows.map NetworkRecord.id := by
      by_contra hnone
      exact hc (Table.find?_eq_none.mpr hnone)
    have hrun : (SqliteStorage.call (.createNetwork network)).run s = (.error .constraint, s) := by
      apply Attempt.run_bind_error
      apply Attempt.run_write_error
      rw [Table.insert_eq_none.mpr hmem]
      rfl
    have hsame := same_head h
    rw [hrun] at hsame
    exact not_same_error_ok hsame
  | updateNetwork network =>
    refine ⟨.listNetworks, trivial, fun h => ?_⟩
    have hnone : ¬ (t.view.network network.id).isSome := by rw [hview]; exact hc
    have hrun : (InMemoryStorage.call (.updateNetwork network)).run t = (.error .notFound, t) := by
      apply Attempt.run_bind_error
      apply Attempt.run_write_error
      exact if_neg hnone
    have hsame := same_head h
    rw [hrun] at hsame
    exact not_same_ok_error hsame
  | deleteNetwork id =>
    obtain ⟨hmembers, hpools, hroutes⟩ := t.view.cleared_clear id
    rw [← InMemoryStorage.view_deleteNetwork ht id] at hmembers hpools hroutes
    by_contra! hall
    apply hc
    refine ⟨fun node => ?_, ?_, ?_⟩
    · have hsame := same_head (same_tail (hall (.getMember id node) trivial))
      exact (same_member hsame).trans (hmembers node)
    · have hsame := same_head (same_tail (hall (.getIpPools id) trivial))
      exact same_ipPools_nil (hpools ▸ hsame)
    · have hsame := same_head (same_tail (hall (.getRoutes id) trivial))
      exact same_routes_nil (hroutes ▸ hsame)
  | setIpPools id pools =>
    refine ⟨.listNetworks, trivial, fun h => ?_⟩
    have hset := SqliteStorage.setIpPools_eq id pools s
    rw [if_neg (show ¬ pools.Nodup from hc)] at hset
    obtain ⟨ipPools, hrun⟩ := hset
    have hsame := same_head h
    rw [SqliteStorage.call, Attempt.run_bind_error hrun] at hsame
    exact not_same_error_ok hsame
  | setRoutes id routes =>
    refine ⟨.listNetworks, trivial, fun h => ?_⟩
    have hrun := SqliteStorage.setRoutes_eq id routes s
    rw [if_neg (show ¬ (routes.map ManagedRoute.target).Nodup from hc)] at hrun
    have hsame := same_head h
    rw [SqliteStorage.call, Attempt.run_bind_error hrun] at hsame
    exact not_same_error_ok hsame
  | _ => exact absurd trivial hc

theorem allMeet_append {st : Store} {before rest : List Call} :
    AllMeet st (before ++ rest) ↔ AllMeet st before ∧ AllMeet (before.foldl Store.next st) rest := by
  induction before generalizing st with
  | nil => exact (and_iff_right trivial).symm
  | cons c before ih =>
    rw [List.cons_append, AllMeet, AllMeet, List.foldl_cons, ih, and_assoc]

/-- A run with a call that does not meet its condition has a first such call. -/
theorem exists_first {st : Store} {calls : List Call} (h : ¬ AllMeet st calls) :
    ∃ before c after, calls = before ++ c :: after ∧ AllMeet st before ∧ ¬ c.Meets (before.foldl Store.next st) := by
  induction calls generalizing st with
  | nil => exact absurd trivial h
  | cons c rest ih =>
    by_cases hc : c.Meets st
    · obtain ⟨before, c', after, rfl, hbefore, hc'⟩ := ih fun hrest => h ⟨hc, hrest⟩
      exact ⟨c :: before, c', after, rfl, ⟨hc, hbefore⟩, hc'⟩
    · exact ⟨[], c, rest, rfl, trivial, hc⟩

/-- The backends return the same after every beginning of a run, whatever is read there,
exactly if its calls meet their conditions. -/
theorem agree_iff_meets (calls : List Call) :
    AllMeet Store.empty calls ↔ ∀ before probe, before <+: calls → probe.Reads → Agree (before ++ [probe]) := by
  constructor
  · rintro hmeet before probe ⟨after, rfl⟩ hreads
    apply agree_of_meets
    refine allMeet_append.mpr ⟨(allMeet_append.mp hmeet).1, ?_, trivial⟩
    cases probe with
    | createNetwork _ | updateNetwork _ | deleteNetwork _ | setIpPools _ _ | setRoutes _ _ => cases hreads
    | _ => exact trivial
  · intro hagree
    by_contra hmeet
    obtain ⟨before, c, after, rfl, hbefore, hc⟩ := exists_first hmeet
    have hmemory : InMemoryStorage.new.Distinct := List.nodup_nil
    obtain ⟨hsqlite, -⟩ := SqliteStorage.refines.view_stateAfter (s := .new) trivial hbefore
    obtain ⟨hmem, hdistinct⟩ := InMemoryStorage.refines.view_stateAfter (s := .new) hmemory hbefore
    rw [show Store.empty = SqliteStorage.new.view from rfl, ← hsqlite] at hc
    obtain ⟨probe, hreads, hdiffers⟩ := told_apart (hmem.trans hsqlite.symm) hdistinct hc
    have hbegins : before ++ [c] <+: before ++ c :: after := ⟨after, by simp⟩
    have hsame := (hagree (before ++ [c]) probe hbegins hreads).1
    rw [List.append_assoc] at hsame
    exact hdiffers (same_of_append hsame)

/-! ### A network deleted with a member -/

def recreated : List Call :=
  [.createNetwork sampleNetwork, .upsertMember sampleMember, .deleteNetwork 16, .createNetwork sampleNetwork]

def deletedRun : List Call := recreated ++ [.getMember 16 sampleMember.nodeId]

/-- In SQLite the new network has the old one's authorised member. -/
theorem deleted_members_return :
    (results SqliteStorage.call .new deletedRun).getLast? = some (.ok (.member (some sampleMember))) ∧
      sampleMember.authorized = true ∧
      (results InMemoryStorage.call .new deletedRun).getLast? = some (.ok (.member none)) ∧
      (results FilesystemStorage.call .new deletedRun).getLast? = some (.ok (.member none)) ∧
      ¬ ∀ calls, Agree calls := by
  refine ⟨rfl, rfl, rfl, rfl, fun h => ?_⟩
  have hsame := same_head (same_of_append (h deletedRun).1)
  have hmember : some sampleMember = none := same_member hsame
  cases hmember

end ManyTier.Controller
