import ManyTier.Controller.Authorization

/-! Automatic assignment of IPv4 addresses over whole runs.

No two members of a network are ever assigned one address: what a request assigns is the
first address of the pools that no member holds, and nothing else changes an assignment
(`assignments_distinct`). -/
namespace ManyTier.Controller

namespace Store
variable (st : Store) (networkId : UInt64) (node : ByteVec 5)

/-- The assignments of a node on a network; none when it has no record. -/
def assignments : List Text := ((st.member networkId node).map MemberRecord.ipAssignments).getD []

/-- The IPv4 addresses they name. -/
def heldBy : List (ByteVec 4) := (st.assignments networkId node).filterMap parseIpv4FromAssignment

/-- No IPv4 address of a network is assigned twice, to one member or to two. -/
structure DistinctIpv4s : Prop where
  nodup : ∀ node, (st.heldBy networkId node).Nodup
  disjoint : ∀ a b, a ≠ b → ∀ ip ∈ st.heldBy networkId a, ip ∉ st.heldBy networkId b

variable {st networkId node}

theorem held_iff {ip : ByteVec 4} : st.Held networkId ip ↔ ∃ node, ip ∈ st.heldBy networkId node := by
  constructor
  · rintro ⟨node, m, hm, hip⟩
    refine ⟨node, ?_⟩
    rw [heldBy, assignments, hm]
    exact hip
  · rintro ⟨node, hip⟩
    rw [heldBy, assignments] at hip
    cases hmember : st.member networkId node with
    | none =>
      rw [hmember] at hip
      cases hip
    | some m =>
      rw [hmember] at hip
      exact ⟨node, m, hmember, hip⟩

theorem ipAssignments_requester (now : UInt64) :
    (st.requester networkId node now).ipAssignments = st.assignments networkId node := by
  rw [requester, assignments]
  cases st.member networkId node <;> rfl

theorem assignments_setMember (m : MemberRecord) : (st.setMember m).assignments networkId node =
    if networkId = m.networkId ∧ node = m.nodeId then m.ipAssignments else st.assignments networkId node := by
  simp only [assignments, setMember]
  split <;> rfl

end Store

/-! ### One command -/

/-- The member a command is about. -/
def Command.target : Command → UInt64 × ByteVec 5
  | .configRequest networkId node _ => (networkId, node)
  | .authorize networkId node => (networkId, node)
  | .deauthorize networkId node => (networkId, node)

theorem Command.target_of_sets {command : Command} {networkId : UInt64} {node : ByteVec 5} {authorized : Bool}
    (h : command.sets = some (networkId, node, authorized)) : command.target = (networkId, node) := by
  cases command with
  | configRequest => cases h
  | authorize => cases h; rfl
  | deauthorize => cases h; rfl

/-- The record of a member written with the assignments it had, or with the first free
address where it had none. -/
def Store.Writes (st : Store) (m : MemberRecord) : Prop :=
  m.ipAssignments = st.assignments m.networkId m.nodeId ∨ st.assignments m.networkId m.nodeId = [] ∧
    ∃ ip, FirstFree (st.ipPools m.networkId) (st.Held m.networkId) ip ∧ m.ipAssignments = [assignmentOf ip]

section
variable {σ : Type} {c : Engine σ} {pr : Primitives} {st st' : Store} {command : Command}
  {reply : Except Failure Reply}

/-- Every command writes at most the record of the member it is about. -/
theorem Effect.writes (h : Effect c pr st command reply st') (hkeyed : st.Keyed) :
    st' = st ∨ ∃ m, st' = st.setMember m ∧ (m.networkId, m.nodeId) = command.target ∧ st.Writes m := by
  cases h with
  | unknown => exact .inl rfl
  | noMember => exact .inl rfl
  | @refused networkId node now _ _ _ _ =>
    obtain ⟨hid, hnode⟩ := hkeyed.requester networkId node now
    refine .inr ⟨_, rfl, Prod.ext hid hnode, .inl ?_⟩
    rw [hid, hnode, Store.ipAssignments_requester]
  | @authorized _ networkId node _ m hsets hmember =>
    obtain ⟨hid, hnode⟩ := hkeyed networkId node m hmember
    refine .inr ⟨_, rfl, by rw [Command.target_of_sets hsets]; exact Prod.ext hid hnode, .inl ?_⟩
    show m.ipAssignments = st.assignments m.networkId m.nodeId
    rw [hid, hnode, Store.assignments, hmember]
    rfl
  | @served networkId node now network m members hserves hlists =>
    obtain ⟨hid, hnode⟩ := hkeyed.requester networkId node now
    obtain ⟨ips, rfl, hassigns⟩ := hserves.record
    refine .inr ⟨_, rfl, Prod.ext hid hnode, ?_⟩
    simp only [Store.Writes, hid, hnode]
    rw [Store.ipAssignments_requester] at hassigns
    rcases hassigns with ⟨hsame, -⟩ | ⟨hempty, -, ip, hfirst, hips⟩
    · exact .inl hsame
    · exact .inr ⟨hempty, ip, hfirst, hips⟩

/-- A record of either kind keeps the addresses of every network distinct. -/
theorem Store.DistinctIpv4s.setMember {networkId : UInt64} {m : MemberRecord} (h : st.DistinctIpv4s networkId)
    (hwrites : st.Writes m) : (st.setMember m).DistinctIpv4s networkId := by
  by_cases hid : networkId = m.networkId
  · subst hid
    have hother : ∀ node, node ≠ m.nodeId →
        (st.setMember m).heldBy m.networkId node = st.heldBy m.networkId node := by
      intro node hne
      simp [heldBy, assignments_setMember, hne]
    have hself : (st.setMember m).heldBy m.networkId m.nodeId = m.heldIpv4s := by
      simp [heldBy, assignments_setMember, MemberRecord.heldIpv4s]
    rcases hwrites with hsame | ⟨-, ip, hfirst, hips⟩
    · have hall : ∀ node, (st.setMember m).heldBy m.networkId node = st.heldBy m.networkId node := by
        intro node
        by_cases hne : node = m.nodeId
        · rw [hne, hself, MemberRecord.heldIpv4s, hsame]
          rfl
        · exact hother node hne
      exact ⟨fun node => hall node ▸ h.nodup node, fun a b hab => by rw [hall, hall]; exact h.disjoint a b hab⟩
    · obtain ⟨-, -, -, -, -, hfree, -⟩ := hfirst
      have hone : (st.setMember m).heldBy m.networkId m.nodeId = [ip] := by
        rw [hself, MemberRecord.heldIpv4s, hips]
        simp [parse_assignmentOf]
      have hunheld : ∀ node, ip ∉ st.heldBy m.networkId node := fun node hip => hfree (held_iff.mpr ⟨node, hip⟩)
      constructor
      · intro node
        by_cases hne : node = m.nodeId
        · rw [hne, hone]
          simp
        · rw [hother node hne]
          exact h.nodup node
      · intro a b hab other hother'
        by_cases ha : a = m.nodeId
        · rw [ha, hone] at hother'
          obtain rfl := List.mem_singleton.mp hother'
          rw [hother b fun hb => hab (ha.trans hb.symm)]
          exact hunheld b
        · rw [hother a ha] at hother'
          by_cases hb : b = m.nodeId
          · rw [hb, hone]
            intro hmem
            obtain rfl := List.mem_singleton.mp hmem
            exact hunheld a hother'
          · rw [hother b hb]
            exact h.disjoint a b hab other hother'
  · have hall : ∀ node, (st.setMember m).heldBy networkId node = st.heldBy networkId node := by
      intro node
      simp [heldBy, assignments_setMember, hid]
    exact ⟨fun node => hall node ▸ h.nodup node, fun a b hab => by rw [hall, hall]; exact h.disjoint a b hab⟩

/-- What a command does about addresses. Only the member it is about has its record
changed. Assignments change only from none to the first free address; where none is free,
or no pool is there, they stay empty. -/
structure Allots (st : Store) (command : Command) (st' : Store) : Prop where
  others : ∀ networkId node, (networkId, node) ≠ command.target →
    st'.member networkId node = st.member networkId node
  assigned : ∀ networkId node, st'.assignments networkId node ≠ st.assignments networkId node →
    st.assignments networkId node = [] ∧ ∃ ip, FirstFree (st.ipPools networkId) (st.Held networkId) ip ∧
      st'.assignments networkId node = [assignmentOf ip]
  exhausted : ∀ networkId node, st.assignments networkId node = [] →
    (∀ pool ∈ st.ipPools networkId, ∀ ip, pool.Contains ip → st.Held networkId ip) →
    st'.assignments networkId node = []

theorem allots_setMember {m : MemberRecord} (htarget : (m.networkId, m.nodeId) = command.target)
    (hwrites : st.Writes m) : Allots st command (st.setMember m) := by
  have hassigned : ∀ networkId node, (st.setMember m).assignments networkId node ≠ st.assignments networkId node →
      st.assignments networkId node = [] ∧ ∃ ip, FirstFree (st.ipPools networkId) (st.Held networkId) ip ∧
        (st.setMember m).assignments networkId node = [assignmentOf ip] := by
    intro networkId node hne
    rw [Store.assignments_setMember] at hne ⊢
    by_cases hkey : networkId = m.networkId ∧ node = m.nodeId
    · obtain ⟨rfl, rfl⟩ := hkey
      rw [if_pos ⟨rfl, rfl⟩] at hne ⊢
      rcases hwrites with hsame | hfree
      · exact absurd hsame hne
      · exact hfree
    · rw [if_neg hkey] at hne
      exact absurd rfl hne
  refine ⟨?_, hassigned, ?_⟩
  · intro networkId node hne
    refine st.member_setMember_of_ne m fun hkey => hne ?_
    rw [← htarget, hkey.1, hkey.2]
  · intro networkId node hempty hexhausted
    by_contra hne
    obtain ⟨-, ip, ⟨before, pool, after, hpools, hcontains, hfree, -⟩, -⟩ :=
      hassigned networkId node (by rw [hempty]; exact hne)
    exact hfree (hexhausted pool (by simp [hpools]) ip hcontains)

theorem Effect.allots (h : Effect c pr st command reply st') (hkeyed : st.Keyed) : Allots st command st' := by
  rcases h.writes hkeyed with rfl | ⟨m, rfl, htarget, hwrites⟩
  · exact ⟨fun _ _ _ => rfl, fun _ _ hne => absurd rfl hne, fun _ _ hempty _ => hempty⟩
  · exact allots_setMember htarget hwrites

end

/-! ### Runs -/

/-- From a store in which no IPv4 address of a network is assigned twice, every run keeps
it so, and every step assigns only the first free address. -/
theorem assignments_distinct {σ : Type} (c : Engine σ) (pr : Primitives) (view : σ → Store)
    (hf : Faithful c.storage view) {s s' : σ} {t : List (Entry σ Command (Except Failure Reply))}
    (hrun : Run (c.step pr) s t s') {networkId : UInt64} (hs : (view s).DistinctIpv4s networkId) :
    (view s').DistinctIpv4s networkId ∧
      ∀ n ∈ t, (view n.after).DistinctIpv4s networkId ∧ Allots (view n.before) n.event (view n.after) := by
  have hstep : ∀ n : Entry σ Command (Except Failure Reply), c.step pr n.before n.event = .ok (n.after, n.output) →
      True → (view n.before).DistinctIpv4s networkId → (view n.after).DistinctIpv4s networkId := by
    intro n hn _ hdistinct
    rcases (step_effect hf pr hn).writes (hf.keyed n.before) with hsame | ⟨m, hset, -, hwrites⟩
    · rw [hsame]
      exact hdistinct
    · rw [hset]
      exact hdistinct.setMember hwrites
  refine ⟨Run.invariant (fun s => (view s).DistinctIpv4s networkId) (fun _ => True) hstep hrun hs
    fun _ _ => trivial, ?_⟩
  refine Run.forall_entries (fun s => (view s).DistinctIpv4s networkId) (fun _ => True) _ ?_ hrun hs fun _ _ => trivial
  intro n hn htrue hdistinct
  have hafter := hstep n hn htrue hdistinct
  exact ⟨hafter, hafter, (step_effect hf pr hn).allots (hf.keyed n.before)⟩

namespace SampleMembers

/-- A network with the pool 10.0.0.1 to 10.0.0.2 and one member that has no address. -/
def pooled : InMemoryStorage where
  networks := [network]
  members := [member 2 []]
  ipPools := [(networkId, ⟨⟨[10, 0, 0, 1], rfl⟩, ⟨[10, 0, 0, 2], rfl⟩⟩)]
  routes := []
  memberKeys := by simp

theorem pooled_assignments (node : ByteVec 5) : pooled.view.assignments networkId node = [] := by
  unfold Store.assignments
  cases hmember : pooled.view.member networkId node with
  | none => rfl
  | some m =>
    obtain rfl := List.mem_singleton.mp (InMemoryStorage.getMember_key hmember).1
    rfl

end SampleMembers

open SampleMembers in
/-- The first request of a member without an address assigns it the first of the pool, and
no address is assigned twice. -/
theorem assignments_distinct_first :
    let after := ((engine.execute Sample.primitives (.configRequest networkId (address 2) 1000)).run pooled).2
    after.view.DistinctIpv4s networkId ∧
      after.view.assignments networkId (address 2) = [assignmentOf ⟨[10, 0, 0, 1], rfl⟩] := by
  intro after
  have hs : pooled.view.DistinctIpv4s networkId := by
    have hnone : ∀ node, pooled.view.heldBy networkId node = [] := fun node => by
      rw [Store.heldBy, pooled_assignments]
      rfl
    exact ⟨fun node => by rw [hnone]; exact List.nodup_nil, fun a b _ ip hip => by rw [hnone] at hip; cases hip⟩
  have hrun : Run (engine.step Sample.primitives) pooled [⟨pooled, .configRequest networkId (address 2) 1000,
      ((engine.execute Sample.primitives (.configRequest networkId (address 2) 1000)).run pooled).1, after⟩] after :=
    Run.one (engine.step_eq _ _ _)
  obtain ⟨hdistinct, -⟩ := assignments_distinct engine Sample.primitives InMemoryStorage.view
    InMemoryStorage.memory_faithful hrun hs
  exact ⟨hdistinct, by decide +kernel⟩

end ManyTier.Controller
