import ManyTier.Controller.Allocation

/-! The flag that keeps a member out of the pools.

A record carries the flag, and no request reads it. Along a run a flagged member keeps
its assignments exactly as long as no request is one that assigns it an address, whatever
its flag says (`flag_honoured_iff`). -/
namespace ManyTier.Controller

/-- Who was flagged still is, and has the assignments it had. -/
def Store.KeepsFlagged (st st' : Store) : Prop :=
  ∀ networkId node m, st.member networkId node = some m → m.noAutoAssignIps = true →
    ∃ m', st'.member networkId node = some m' ∧ m'.noAutoAssignIps = true ∧ m'.ipAssignments = m.ipAssignments

namespace Store.KeepsFlagged
variable {st st' st'' : Store}

theorem refl (st : Store) : st.KeepsFlagged st := fun _ _ m hm hflag => ⟨m, hm, hflag, rfl⟩

theorem trans (h : st.KeepsFlagged st') (h' : st'.KeepsFlagged st'') : st.KeepsFlagged st'' := by
  intro networkId node m hm hflag
  obtain ⟨m', hm', hflag', hips⟩ := h networkId node m hm hflag
  obtain ⟨m'', hm'', hflag'', hips'⟩ := h' networkId node m' hm' hflag'
  exact ⟨m'', hm'', hflag'', hips'.trans hips⟩

/-- A record is written whose flag and assignments stay, if there was a flagged one. -/
theorem setMember {m' : MemberRecord}
    (h : ∀ m, st.member m'.networkId m'.nodeId = some m → m.noAutoAssignIps = true →
      m'.noAutoAssignIps = true ∧ m'.ipAssignments = m.ipAssignments) : st.KeepsFlagged (st.setMember m') := by
  intro networkId node m hm hflag
  by_cases hkey : networkId = m'.networkId ∧ node = m'.nodeId
  · obtain ⟨rfl, rfl⟩ := hkey
    obtain ⟨hflag', hips⟩ := h m hm hflag
    exact ⟨m', st.member_setMember_self m', hflag', hips⟩
  · exact ⟨m, (st.member_setMember_of_ne m' hkey).trans hm, hflag, rfl⟩

end Store.KeepsFlagged

/-- A request that assigns nothing to a flagged member: the member is not served, or has
assignments, or the network assigns none, or every address of the pools is held. -/
def Store.Spares (st : Store) (command : Command) : Prop :=
  ∀ networkId node now, command = .configRequest networkId node now → ∀ network m,
    st.network networkId = some network → st.member networkId node = some m → m.noAutoAssignIps = true →
    (network.isPrivate = true ∧ m.authorized = false) ∨ m.ipAssignments ≠ [] ∨
      network.v4AssignMode ≠ assignModeZt ∨
      ∀ pool ∈ st.ipPools networkId, ∀ ip, pool.Contains ip → st.Held networkId ip

section
variable {σ : Type} {c : Engine σ} {pr : Primitives} {st st' : Store} {command : Command}
  {reply : Except Failure Reply}

theorem requester_of_member {networkId : UInt64} {node : ByteVec 5} {m : MemberRecord}
    (h : st.member networkId node = some m) (now : UInt64) : st.requester networkId node now = m := by
  rw [Store.requester, h]
  rfl

/-- A member that is served keeps its assignments if the request assigns nothing to it. -/
theorem Store.Spares.served {networkId now : UInt64} {node : ByteVec 5} {network : NetworkRecord} {m : MemberRecord}
    (hspares : st.Spares (.configRequest networkId node now)) (hkeyed : st.Keyed)
    (hserves : st.Serves networkId node now network m) : st.KeepsFlagged (st.setMember m) := by
  obtain ⟨ips, rfl, hassigns⟩ := hserves.record
  obtain ⟨hid, hnode⟩ := hkeyed.requester networkId node now
  refine .setMember fun m hm hflag => ?_
  simp only [hid, hnode] at hm
  have hrequester := requester_of_member hm now
  have hadmitted := hserves.admitted
  rw [hrequester] at hassigns hadmitted ⊢
  refine ⟨hflag, ?_⟩
  rcases hassigns with ⟨hsame, -⟩ | ⟨hempty, hmode, ip, ⟨earlier, pool, later, hpools, hin, hfree, -⟩, -⟩
  · exact hsame
  · rcases hspares networkId node now rfl network m hserves.found hm hflag with ⟨hprivate, hnot⟩ | hsome | hnone | hheld
    · rw [hadmitted hprivate] at hnot
      cases hnot
    · exact absurd hempty hsome
    · exact absurd hmode hnone
    · exact absurd (hheld pool (by simp [hpools]) ip hin) hfree

/-- What a command does to flagged members, if it spares them. -/
theorem Effect.keepsFlagged (h : Effect c pr st command reply st') (hkeyed : st.Keyed) (hspares : st.Spares command) :
    st.KeepsFlagged st' := by
  cases h with
  | unknown => exact .refl st
  | noMember => exact .refl st
  | @refused networkId node now _ _ _ _ =>
    obtain ⟨hid, hnode⟩ := hkeyed.requester networkId node now
    refine .setMember fun m hm hflag => ?_
    rw [hid, hnode] at hm
    rw [requester_of_member hm]
    exact ⟨hflag, rfl⟩
  | @authorized _ networkId node authorized m hsets hmember =>
    obtain ⟨hid, hnode⟩ := hkeyed networkId node m hmember
    refine .setMember fun m₀ hm₀ hflag => ?_
    simp only [hid, hnode] at hm₀
    obtain rfl := Option.some.inj (hmember.symm.trans hm₀)
    exact ⟨hflag, rfl⟩
  | served hserves _ => exact hspares.served hkeyed hserves

/-- A command that changes no flagged member spares them. -/
theorem Effect.spares (h : Effect c pr st command reply st') (hkeyed : st.Keyed) (hkeeps : st.KeepsFlagged st') :
    st.Spares command := by
  rintro networkId node now rfl network m hnetwork hm hflag
  have hrequester := requester_of_member hm now
  cases h with
  | unknown hnone =>
    rw [hnone] at hnetwork
    cases hnetwork
  | noMember hsets => cases hsets
  | authorized hsets => cases hsets
  | refused hfound hprivate hauth =>
    obtain rfl := Option.some.inj (hfound.symm.trans hnetwork)
    rw [hrequester] at hauth
    exact .inl ⟨hprivate, hauth⟩
  | @served _ _ _ network' m' members hserves hlists =>
    obtain rfl := Option.some.inj (hserves.found.symm.trans hnetwork)
    obtain ⟨ips, rfl, hassigns⟩ := hserves.record
    obtain ⟨hid, hnode⟩ := hkeyed.requester networkId node now
    obtain ⟨m', hm', -, hips⟩ := hkeeps networkId node m hm hflag
    have hstored : (st.setMember { st.requester networkId node now with
        authorized := true, ipAssignments := ips, lastSeen := now }).member networkId node = some _ :=
      if_pos ⟨hid.symm, hnode.symm⟩
    obtain rfl := Option.some.inj (hstored.symm.trans hm')
    simp only at hips
    rw [hrequester] at hassigns
    refine .inr (or_iff_not_imp_left.mpr fun hsome => or_iff_not_imp_left.mpr fun hmode => ?_)
    rcases hassigns with ⟨-, hexhausted⟩ | ⟨hempty, -, ip, -, hassigned⟩
    · exact hexhausted (not_not.mp hsome) (not_not.mp hmode)
    · rw [hassigned, hempty] at hips
      cases hips

end

/-- In every run, each step leaves flagged members their assignments exactly when each step
spares them; and if each does, then in every state that is reached whoever was flagged at
the start has the assignments it had then. -/
theorem flag_honoured_iff {σ : Type} (c : Engine σ) (pr : Primitives) (view : σ → Store)
    (hf : Faithful c.storage view) {s s' : σ} {t : List (Entry σ Command (Except Failure Reply))}
    (hrun : Run (c.step pr) s t s') :
    ((∀ e ∈ t, (view e.before).KeepsFlagged (view e.after)) ↔ ∀ e ∈ t, (view e.before).Spares e.event) ∧
      ((∀ e ∈ t, (view e.before).Spares e.event) → ∀ e ∈ t, (view s).KeepsFlagged (view e.after)) := by
  have hstep : ∀ e ∈ t, (view e.before).KeepsFlagged (view e.after) ↔ (view e.before).Spares e.event := by
    intro e he
    have heffect := step_effect hf pr (hrun.steps e he)
    exact ⟨heffect.spares (hf.keyed e.before), heffect.keepsFlagged (hf.keyed e.before)⟩
  refine ⟨forall₂_congr hstep, fun hspares => ?_⟩
  refine Run.forall_entries (fun s₁ => (view s).KeepsFlagged (view s₁)) (fun e => (view e.before).Spares e.event) _ ?_
    hrun (.refl _) hspares
  intro e he hspare hbefore
  have hafter := hbefore.trans ((step_effect hf pr he).keepsFlagged (hf.keyed e.before) hspare)
  exact ⟨hafter, hafter⟩

namespace SampleMembers

/-- A flagged member of a network with a pool of one address. -/
def flagged (ipAssignments : List Text) : InMemoryStorage where
  networks := [network]
  members := [{ member 2 ipAssignments with noAutoAssignIps := true }]
  ipPools := [(networkId, ⟨ByteVec.ofBytes 4 [10, 0, 0, 1], ByteVec.ofBytes 4 [10, 0, 0, 1]⟩)]
  routes := []
  memberKeys := by simp

/-- The state after its first request. -/
def flaggedServed (ipAssignments : List Text) : InMemoryStorage :=
  ((engine.execute Sample.primitives (.configRequest networkId (address 2) 1000)).run (flagged ipAssignments)).2

theorem run_flagged (ipAssignments : List Text) : Run (engine.step Sample.primitives) (flagged ipAssignments)
    [⟨flagged ipAssignments, .configRequest networkId (address 2) 1000,
      ((engine.execute Sample.primitives (.configRequest networkId (address 2) 1000)).run (flagged ipAssignments)).1,
      flaggedServed ipAssignments⟩] (flaggedServed ipAssignments) :=
  Run.one (engine.step_eq _ _ _)

end SampleMembers

open SampleMembers in
/-- A flagged member with an assignment of its own keeps it. -/
theorem flag_honoured_assigned : ∃ m, (flaggedServed [ipv4]).view.member networkId (address 2) = some m ∧
    m.ipAssignments = [ipv4] := by
  obtain ⟨-, hkept⟩ := flag_honoured_iff engine Sample.primitives InMemoryStorage.view InMemoryStorage.memory_faithful
    (run_flagged [ipv4])
  have hspares : ∀ e ∈ [(⟨flagged [ipv4], .configRequest networkId (address 2) 1000,
      ((engine.execute Sample.primitives (.configRequest networkId (address 2) 1000)).run (flagged [ipv4])).1,
      flaggedServed [ipv4]⟩ : Entry InMemoryStorage Command (Except Failure Reply))],
      e.before.view.Spares e.event := by
    intro e he
    rw [List.mem_singleton.mp he]
    intro id node now _ network m _ hm _
    obtain ⟨hmem, -⟩ := InMemoryStorage.getMember_key hm
    rw [List.mem_singleton.mp hmem]
    exact .inr (.inl (List.cons_ne_nil _ _))
  have hkeeps := hkept hspares _ List.mem_cons_self
  simp only at hkeeps
  obtain ⟨m, hm, -, hips⟩ := hkeeps networkId (address 2) { member 2 [ipv4] with noAutoAssignIps := true } (by decide) rfl
  exact ⟨m, hm, hips⟩

open SampleMembers in
/-- A flagged member without one is assigned an address from the pool. -/
theorem flag_ignored : ¬ ∀ (pr : Primitives) (s s' : InMemoryStorage)
    (t : List (Entry InMemoryStorage Command (Except Failure Reply))), Run (engine.step pr) s t s' →
    ∀ e ∈ t, s.view.KeepsFlagged e.after.view := by
  intro hall
  have hkeeps := hall Sample.primitives _ _ _ (run_flagged []) _ List.mem_cons_self
  have hspares := (step_effect InMemoryStorage.memory_faithful Sample.primitives
    ((run_flagged []).steps _ List.mem_cons_self)).spares (InMemoryStorage.memory_faithful.keyed _) hkeeps
  rcases hspares networkId (address 2) 1000 rfl network { member 2 [] with noAutoAssignIps := true } rfl (by decide) rfl
    with ⟨-, hnot⟩ | hsome | hmode | hheld
  · cases hnot
  · exact hsome rfl
  · exact hmode rfl
  · obtain ⟨node, m, hm, hip⟩ := hheld _ List.mem_cons_self ⟨[10, 0, 0, 1], rfl⟩ ⟨le_refl _, le_refl _⟩
    obtain ⟨hmem, -⟩ := InMemoryStorage.getMember_key hm
    rw [List.mem_singleton.mp hmem] at hip
    cases hip

end ManyTier.Controller
