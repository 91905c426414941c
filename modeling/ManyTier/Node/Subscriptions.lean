import ManyTier.Node.Vl2

/-! The store of multicast subscriptions.

`subscribersOf` says what the store means: who listens to a group, and since when. Each
operation has one equation about it (`subscribersOf_subscribe`, `subscribersOf_retain`),
and all of them keep the store in order (`InOrder`): a group is listed once, with each of
its subscribers once, and only while it has one. -/
namespace ManyTier

namespace MulticastManager

/-! ### One group's subscribers -/

section
variable (ztAddress : ByteVec 5) (now : UInt64) (subs : List Subscriber)

theorem renew_ne_nil : renew ztAddress now subs ≠ [] := by
  cases subs with
  | nil => simp [renew]
  | cons s rest =>
    unfold renew
    split <;> simp

/-- The others stay as they are. -/
theorem others_renew : (renew ztAddress now subs).filter (·.ztAddress ≠ ztAddress) =
    subs.filter (·.ztAddress ≠ ztAddress) := by
  induction subs with
  | nil => simp [renew]
  | cons s rest ih =>
    unfold renew
    split
    · rename_i hs
      simp [hs]
    · rename_i hs
      rw [List.filter_cons_of_pos (by simpa using hs), List.filter_cons_of_pos (by simpa using hs), ih]

theorem mem_addresses_renew (a : ByteVec 5) : a ∈ (renew ztAddress now subs).map Subscriber.ztAddress ↔
    a = ztAddress ∨ a ∈ subs.map Subscriber.ztAddress := by
  induction subs with
  | nil => simp [renew]
  | cons s rest ih =>
    unfold renew
    split
    · rename_i hs
      simp [hs]
    · rw [List.map_cons, List.mem_cons, ih, List.map_cons, List.mem_cons]
      exact or_left_comm

theorem nodup_renew (h : (subs.map Subscriber.ztAddress).Nodup) :
    ((renew ztAddress now subs).map Subscriber.ztAddress).Nodup := by
  induction subs with
  | nil => simp [renew]
  | cons s rest ih =>
    obtain ⟨hnew, hrest⟩ := List.nodup_cons.mp h
    unfold renew
    split
    · exact List.nodup_cons.mpr ⟨hnew, hrest⟩
    · rename_i hs
      refine List.nodup_cons.mpr ⟨?_, ih hrest⟩
      rw [mem_addresses_renew]
      rintro (heq | hmem)
      · exact hs heq
      · exact hnew hmem

end

/-! ### The store in order -/

/-- A group is listed once, with each subscriber once, and with one at least. -/
structure InOrder (m : MulticastManager) : Prop where
  groups : (m.subscriptions.map Prod.fst).Nodup
  subscribers : ∀ e ∈ m.subscriptions, (e.2.map Subscriber.ztAddress).Nodup
  nonempty : ∀ e ∈ m.subscriptions, e.2 ≠ []

theorem inOrder_new : InOrder new := ⟨List.nodup_nil, by simp [new], by simp [new]⟩

variable (group : MulticastGroup) (ztAddress : ByteVec 5) (now : UInt64)

theorem mem_subscribeIn {l : List (MulticastGroup × List Subscriber)} {e : MulticastGroup × List Subscriber}
    (h : e ∈ subscribeIn group ztAddress now l) :
    e ∈ l ∨ ∃ subs, e = (group, renew ztAddress now subs) ∧ ((group, subs) ∈ l ∨ subs = []) := by
  induction l with
  | nil =>
    obtain rfl := List.mem_singleton.mp h
    exact .inr ⟨[], rfl, .inr rfl⟩
  | cons x rest ih =>
    obtain ⟨key, subs⟩ := x
    unfold subscribeIn at h
    split at h
    · rename_i hkey
      rcases List.mem_cons.mp h with rfl | h
      · exact .inr ⟨subs, by rw [hkey], .inl (by simp [hkey])⟩
      · exact .inl (List.mem_cons_of_mem _ h)
    · rcases List.mem_cons.mp h with rfl | h
      · exact .inl List.mem_cons_self
      · rcases ih h with h | ⟨subs', heq, h⟩
        · exact .inl (List.mem_cons_of_mem _ h)
        · refine .inr ⟨subs', heq, ?_⟩
          rcases h with h | h
          · exact .inl (List.mem_cons_of_mem _ h)
          · exact .inr h

theorem nodup_subscribeIn (l : List (MulticastGroup × List Subscriber)) (h : (l.map Prod.fst).Nodup) :
    ((subscribeIn group ztAddress now l).map Prod.fst).Nodup := by
  induction l with
  | nil => simp [subscribeIn]
  | cons x rest ih =>
    obtain ⟨key, subs⟩ := x
    obtain ⟨hnew, hrest⟩ := List.nodup_cons.mp h
    unfold subscribeIn
    split
    · exact List.nodup_cons.mpr ⟨hnew, hrest⟩
    · rename_i hkey
      refine List.nodup_cons.mpr ⟨?_, ih hrest⟩
      intro hmem
      obtain ⟨e, he, heq⟩ := List.mem_map.mp hmem
      rcases mem_subscribeIn group ztAddress now he with he | ⟨subs', rfl, -⟩
      · exact hnew (List.mem_map.mpr ⟨e, he, heq⟩)
      · exact hkey heq.symm

variable {m : MulticastManager}

theorem InOrder.subscribe (h : m.InOrder) : (m.subscribe group ztAddress now).InOrder := by
  refine ⟨nodup_subscribeIn group ztAddress now _ h.groups, ?_, ?_⟩
  · intro e he
    rcases mem_subscribeIn group ztAddress now he with he | ⟨subs, rfl, hsubs | rfl⟩
    · exact h.subscribers e he
    · exact nodup_renew ztAddress now subs (h.subscribers _ hsubs)
    · exact nodup_renew ztAddress now [] List.nodup_nil
  · intro e he
    rcases mem_subscribeIn group ztAddress now he with he | ⟨subs, rfl, -⟩
    · exact h.nonempty e he
    · exact renew_ne_nil ztAddress now subs

theorem InOrder.subscribeAll (h : m.InOrder) (groups : List MulticastGroup) :
    (groups.foldl (fun m group => m.subscribe group ztAddress now) m).InOrder := by
  induction groups generalizing m with
  | nil => exact h
  | cons group rest ih => exact ih (h.subscribe group ztAddress now)

theorem InOrder.retain (h : m.InOrder) (keep : MulticastGroup → Subscriber → Bool) : (m.retain keep).InOrder := by
  have hmem : ∀ e ∈ (m.retain keep).subscriptions, e.2 ≠ [] ∧
      ∃ subs, (e.1, subs) ∈ m.subscriptions ∧ e.2 = subs.filter (keep e.1) := by
    intro e he
    obtain ⟨he, hsome⟩ := List.mem_filter.mp he
    obtain ⟨old, hold, rfl⟩ := List.mem_map.mp he
    exact ⟨by simpa using hsome, old.2, hold, rfl⟩
  refine ⟨?_, fun e he => ?_, fun e he => (hmem e he).1⟩
  · have hsame : ((m.subscriptions.map fun e => (e.1, e.2.filter (keep e.1))).map Prod.fst) =
        m.subscriptions.map Prod.fst := by
      rw [List.map_map]
      rfl
    exact (hsame ▸ h.groups).sublist (List.filter_sublist.map _)
  · obtain ⟨-, subs, hsubs, heq⟩ := hmem e he
    rw [heq]
    exact (h.subscribers _ hsubs).sublist (List.filter_sublist.map _)

theorem InOrder.replaceSubscriptions (h : m.InOrder) (networkId : UInt64) (groups : List MulticastGroup) :
    (m.replaceSubscriptions networkId ztAddress groups now).InOrder :=
  (h.retain _).subscribeAll ztAddress now groups

theorem InOrder.unsubscribeAll (h : m.InOrder) : (m.unsubscribeAll ztAddress).InOrder := h.retain _

theorem InOrder.expireOld (h : m.InOrder) (maxAge : UInt64) : (m.expireOld now maxAge).InOrder := h.retain _

/-! ### What the store says -/

theorem subscribersOf_subscribe (g : MulticastGroup) : (m.subscribe group ztAddress now).subscribersOf g =
    if g = group then renew ztAddress now (m.subscribersOf group) else m.subscribersOf g := by
  unfold subscribersOf MulticastManager.subscribe
  simp only
  induction m.subscriptions with
  | nil =>
    by_cases hg : g = group
    · simp [subscribeIn, hg]
    · simp [subscribeIn, hg, Ne.symm hg]
  | cons x rest ih =>
    obtain ⟨key, subs⟩ := x
    unfold subscribeIn
    by_cases hkey : key = group
    · subst hkey
      by_cases hg : g = key
      · simp [hg]
      · simp [hg, Ne.symm hg]
    · by_cases hg : key = g
      · subst hg
        simp [hkey]
      · simp only [List.find?_cons, hkey, hg, decide_false, if_false]
        exact ih

/-- Keeping some subscribers keeps them in every group; a group without one is not there. -/
theorem subscribersOf_retain (h : m.InOrder) (keep : MulticastGroup → Subscriber → Bool) (g : MulticastGroup) :
    (m.retain keep).subscribersOf g = (m.subscribersOf g).filter (keep g) := by
  have hgroups := h.groups
  unfold subscribersOf MulticastManager.retain
  simp only
  generalize m.subscriptions = entries at hgroups ⊢
  induction entries with
  | nil => rfl
  | cons x rest ih =>
    obtain ⟨key, subs⟩ := x
    obtain ⟨hnew, hrest⟩ := List.nodup_cons.mp hgroups
    by_cases hkey : key = g
    · subst hkey
      rw [List.find?_cons_of_pos (by simp), List.map_cons]
      by_cases hempty : (subs.filter (keep key)).isEmpty = true
      · -- The only entry of the group goes.
        have hnone : ((rest.map fun e => (e.1, e.2.filter (keep e.1))).filter fun e => ! e.2.isEmpty).find?
            (fun e => e.1 = key) = none := by
          rw [List.find?_eq_none]
          intro e he hek
          obtain ⟨old, hold, rfl⟩ := List.mem_map.mp (List.mem_filter.mp he).1
          exact hnew (List.mem_map.mpr ⟨old, hold, by simpa using hek⟩)
        rw [List.filter_cons_of_neg (by simpa using hempty), hnone]
        exact (List.isEmpty_iff.mp hempty).symm
      · rw [List.filter_cons_of_pos (by simpa using hempty), List.find?_cons_of_pos (by simp)]
        rfl
    · rw [List.map_cons, List.find?_cons_of_neg (by simpa using hkey), ← ih hrest, List.filter_cons]
      split
      · rw [List.find?_cons_of_neg (by simpa using hkey)]
      · rfl

/-- Whether an address listens to a group. -/
def listens (m : MulticastManager) (g : MulticastGroup) (a : ByteVec 5) : Prop :=
  a ∈ (m.subscribersOf g).map Subscriber.ztAddress

/-- The subscribers of a group other than an address. -/
def others (m : MulticastManager) (g : MulticastGroup) (a : ByteVec 5) : List Subscriber :=
  (m.subscribersOf g).filter (·.ztAddress ≠ a)

/-- An address subscribed to some groups: it listens to them, and nothing else changes. -/
theorem subscribeAll_spec (m : MulticastManager) (groups : List MulticastGroup) (g : MulticastGroup) :
    let m' := groups.foldl (fun m group => m.subscribe group ztAddress now) m
    m'.others g ztAddress = m.others g ztAddress ∧ (g ∈ groups → m'.listens g ztAddress) ∧
      (g ∉ groups → m'.subscribersOf g = m.subscribersOf g) ∧ (m.listens g ztAddress → m'.listens g ztAddress) := by
  induction groups generalizing m with
  | nil => simp
  | cons group rest ih =>
    obtain ⟨hothers, hlisten, hsame, hstill⟩ := ih (m.subscribe group ztAddress now)
    have hgroup := m.subscribersOf_subscribe group ztAddress now g
    refine ⟨hothers.trans ?_, fun hg => ?_, fun hg => ?_, fun hl => hstill ?_⟩
    · unfold others
      rw [hgroup]
      split
      · rename_i heq
        rw [others_renew, heq]
      · rfl
    · rcases List.mem_cons.mp hg with rfl | hg
      · apply hstill
        unfold listens
        rw [hgroup, if_pos rfl, mem_addresses_renew]
        exact .inl rfl
      · exact hlisten hg
    · obtain ⟨hne, hrest⟩ := not_or.mp (mt List.mem_cons.mpr hg)
      rw [List.foldl_cons, hsame hrest, hgroup, if_neg hne]
    · unfold listens at hl ⊢
      rw [hgroup]
      split
      · rename_i heq
        rw [mem_addresses_renew, ← heq]
        exact .inr hl
      · exact hl

/-- On its network, an address listens to exactly the groups listed; the others and the
other networks are left. -/
theorem replaceSubscriptions_spec (h : m.InOrder) (networkId : UInt64) {groups : List MulticastGroup}
    (hgroups : ∀ g ∈ groups, g.networkId = networkId) (g : MulticastGroup) :
    let m' := m.replaceSubscriptions networkId ztAddress groups now
    m'.others g ztAddress = m.others g ztAddress ∧
      (g.networkId = networkId → (m'.listens g ztAddress ↔ g ∈ groups)) ∧
      (g.networkId ≠ networkId → m'.subscribersOf g = m.subscribersOf g) := by
  intro m'
  set keep : MulticastGroup → Subscriber → Bool := fun key s =>
    key.networkId ≠ networkId || groups.contains key || s.ztAddress ≠ ztAddress with hkeep
  obtain ⟨hothers, hlisten, hsame, -⟩ := subscribeAll_spec ztAddress now (m.retain keep) groups g
  have hretain := subscribersOf_retain h keep g
  have hkept : g ∉ groups → m'.subscribersOf g = (m.subscribersOf g).filter (keep g) :=
    fun hg => (hsame hg).trans hretain
  refine ⟨hothers.trans ?_, fun hid => ⟨fun hl => ?_, hlisten⟩, fun hid => ?_⟩
  · unfold others
    rw [hretain, List.filter_filter]
    apply List.filter_congr
    intro s _
    by_cases hs : s.ztAddress = ztAddress
    · simp [hs]
    · simp [hkeep, hs]
  · by_contra hg
    unfold listens at hl
    rw [hkept hg] at hl
    obtain ⟨s, hs, heq⟩ := List.mem_map.mp hl
    have hthis := (List.mem_filter.mp hs).2
    simp [hkeep, hid, hg, heq] at hthis
  · have hg : g ∉ groups := fun hg => hid (hgroups g hg)
    rw [hkept hg, List.filter_eq_self]
    intro s _
    simp [hkeep, hid]

/-! ### Who stays -/

/-- Who listens goes on doing so if none of its entries is dropped. -/
theorem listens_retain {keep : MulticastGroup → Subscriber → Bool} {g : MulticastGroup} {a : ByteVec 5}
    (h : m.listens g a) (hkeep : ∀ s ∈ m.subscribersOf g, s.ztAddress = a → keep g s = true) :
    (m.retain keep).listens g a := by
  unfold listens subscribersOf at h
  unfold subscribersOf at hkeep
  unfold listens subscribersOf MulticastManager.retain
  simp only
  generalize m.subscriptions = entries at h hkeep ⊢
  induction entries with
  | nil => simp at h
  | cons x rest ih =>
    obtain ⟨key, subs⟩ := x
    by_cases hkey : key = g
    · subst hkey
      rw [List.find?_cons_of_pos (by simp)] at h hkeep
      obtain ⟨s, hs, heq⟩ := List.mem_map.mp h
      have hmem : s ∈ subs.filter (keep key) := List.mem_filter.mpr ⟨hs, hkeep s hs heq⟩
      rw [List.map_cons, List.filter_cons_of_pos (by simpa using ⟨s, List.mem_filter.mp hmem⟩),
        List.find?_cons_of_pos (by simp)]
      exact List.mem_map.mpr ⟨s, hmem, heq⟩
    · rw [List.find?_cons_of_neg (by simpa using hkey)] at h hkeep
      have hrest := ih h hkeep
      rw [List.map_cons, List.filter_cons]
      split
      · rw [List.find?_cons_of_neg (by simpa using hkey)]
        exact hrest
      · exact hrest

theorem listens_subscribe {g : MulticastGroup} {a : ByteVec 5} (h : m.listens g a) :
    (m.subscribe group ztAddress now).listens g a := by
  unfold listens at h ⊢
  rw [subscribersOf_subscribe]
  split
  · rename_i heq
    rw [mem_addresses_renew, ← heq]
    exact .inr h
  · exact h

theorem listens_subscribeAll {α : Type} (f : α → MulticastGroup × ByteVec 5) (l : List α) {g : MulticastGroup}
    {a : ByteVec 5} (h : m.listens g a) :
    (l.foldl (fun m x => m.subscribe (f x).1 (f x).2 now) m).listens g a := by
  induction l generalizing m with
  | nil => exact h
  | cons x rest ih => exact ih (listens_subscribe (f x).1 (f x).2 now h)

/-- Who listens goes on doing so, unless it replaces its own subscriptions without the group. -/
theorem listens_replaceSubscriptions {networkId : UInt64} {groups : List MulticastGroup} {g : MulticastGroup}
    {a : ByteVec 5} (h : m.listens g a) (hlists : ztAddress = a → g.networkId = networkId → g ∈ groups) :
    (m.replaceSubscriptions networkId ztAddress groups now).listens g a := by
  refine listens_subscribeAll now (fun group => (group, ztAddress)) groups (listens_retain h fun s _ hs => ?_)
  by_cases hown : ztAddress = a
  · by_cases hid : g.networkId = networkId
    · simp [hlists hown hid]
    · simp [hid]
  · simp [hs, Ne.symm hown]

theorem mem_groupsForSubscriber {g : MulticastGroup} {a : ByteVec 5} (h : m.listens g a) :
    g ∈ m.groupsForSubscriber g.networkId a := by
  unfold listens subscribersOf at h
  cases hfind : m.subscriptions.find? (fun e => e.1 = g) with
  | none => simp [hfind] at h
  | some e =>
    rw [hfind] at h
    obtain ⟨s, hs, heq⟩ := List.mem_map.mp h
    have hkey : e.1 = g := by simpa using List.find?_some hfind
    refine List.mem_map.mpr ⟨e, List.mem_filter.mpr ⟨List.mem_of_find?_eq_some hfind, ?_⟩, hkey⟩
    simp only [hkey, decide_true, Bool.true_and, List.any_eq_true, decide_eq_true_eq]
    exact ⟨s, hs, heq⟩

end MulticastManager

/-! ### MULTICAST_LIKE -/

namespace Vl2

/-- The networks a message mentions, in the order of their first groups. -/
def likeNetworks (groups : List MulticastGroup) : List UInt64 :=
  groups.foldl (fun ids g => if ids.contains g.networkId then ids else ids ++ [g.networkId]) []

theorem mem_likeNetworks (groups : List MulticastGroup) (networkId : UInt64) :
    networkId ∈ likeNetworks groups ↔ ∃ g ∈ groups, g.networkId = networkId := by
  suffices h : ∀ ids : List UInt64, networkId ∈ groups.foldl (fun ids (g : MulticastGroup) =>
      if ids.contains g.networkId then ids else ids ++ [g.networkId]) ids ↔
      networkId ∈ ids ∨ ∃ g ∈ groups, g.networkId = networkId by
    simpa [likeNetworks] using h []
  induction groups with
  | nil => simp
  | cons g rest ih =>
    intro ids
    rw [List.foldl_cons, ih, List.exists_mem_cons_iff, ← or_assoc]
    apply or_congr_left
    split
    · rename_i hknown
      constructor
      · exact .inl
      · rintro (hmem | rfl)
        · exact hmem
        · simpa using hknown
    · rw [List.mem_append, List.mem_singleton, eq_comm]

/-- The subscriptions of a sender replaced on each network its message mentions. -/
def takeLike (sender : ByteVec 5) (groups : List MulticastGroup) (now : UInt64) (m : MulticastManager) :
    MulticastManager :=
  (likeNetworks groups).foldl (fun m networkId =>
    m.replaceSubscriptions networkId sender (groups.filter (·.networkId = networkId)) now) m

theorem handleMulticastLike_eq (n : Node) (sender : ByteVec 5) (payloadData : Bytes) (now : UInt64) :
    handleMulticastLike n sender payloadData now =
      match MulticastLikePayload.deserialize payloadData with
      | .error _ => n
      | .ok groups => { n with multicastManager := takeLike sender groups now n.multicastManager } := rfl

variable {m : MulticastManager} (h : m.InOrder) (sender : ByteVec 5) (groups : List MulticastGroup) (now : UInt64)
include h

/-- What the turns for some networks do, one after the other. -/
theorem replaceEach_spec (networkIds : List UInt64) :
    let m' := networkIds.foldl (fun m networkId =>
      m.replaceSubscriptions networkId sender (groups.filter (·.networkId = networkId)) now) m
    m'.InOrder ∧ ∀ g, m'.others g sender = m.others g sender ∧
      (g.networkId ∈ networkIds → (m'.listens g sender ↔ g ∈ groups)) ∧
      (g.networkId ∉ networkIds → m'.subscribersOf g = m.subscribersOf g) := by
  induction networkIds generalizing m with
  | nil => exact ⟨h, by simp⟩
  | cons networkId rest ih =>
    set groups' := groups.filter (·.networkId = networkId) with hgroups'
    have hon : ∀ g ∈ groups', g.networkId = networkId := fun g hg => of_decide_eq_true (List.mem_filter.mp hg).2
    obtain ⟨horder, hrest⟩ := ih (h.replaceSubscriptions sender now networkId groups')
    refine ⟨horder, fun g => ?_⟩
    obtain ⟨hothers, hlisten, hsame⟩ := hrest g
    obtain ⟨hothers', hlisten', hsame'⟩ :=
      MulticastManager.replaceSubscriptions_spec sender now h networkId hon g
    refine ⟨hothers.trans hothers', fun hg => ?_, fun hg => ?_⟩
    · by_cases hmore : g.networkId ∈ rest
      · exact hlisten hmore
      · have hid : g.networkId = networkId := (List.mem_cons.mp hg).resolve_right hmore
        have hmem : g ∈ groups' ↔ g ∈ groups := by simp [hgroups', hid]
        rw [← hmem, ← hlisten' hid]
        unfold MulticastManager.listens
        rw [List.foldl_cons, hsame hmore]
    · obtain ⟨hne, hmore⟩ := not_or.mp (mt List.mem_cons.mpr hg)
      rw [List.foldl_cons, hsame hmore, hsame' hne]

theorem takeLike_spec : (takeLike sender groups now m).InOrder ∧
    ∀ g, (takeLike sender groups now m).others g sender = m.others g sender ∧
      ((∃ g' ∈ groups, g'.networkId = g.networkId) → ((takeLike sender groups now m).listens g sender ↔ g ∈ groups)) ∧
      ((¬ ∃ g' ∈ groups, g'.networkId = g.networkId) →
        (takeLike sender groups now m).subscribersOf g = m.subscribersOf g) := by
  obtain ⟨horder, hall⟩ := replaceEach_spec h sender groups now (likeNetworks groups)
  refine ⟨horder, fun g => ?_⟩
  rw [← mem_likeNetworks]
  exact hall g

omit h in
/-- Who listens goes on doing so, unless it is the sender and leaves the group out. -/
theorem listens_takeLike {g : MulticastGroup} {a : ByteVec 5} (hlistens : m.listens g a)
    (hlists : sender = a → (∃ g' ∈ groups, g'.networkId = g.networkId) → g ∈ groups) :
    (takeLike sender groups now m).listens g a := by
  have hmentioned : ∀ networkId ∈ likeNetworks groups, ∃ g' ∈ groups, g'.networkId = networkId :=
    fun networkId => (mem_likeNetworks groups networkId).mp
  unfold takeLike
  generalize likeNetworks groups = networkIds at hmentioned ⊢
  induction networkIds generalizing m with
  | nil => exact hlistens
  | cons networkId rest ih =>
    obtain ⟨hthis, hrest⟩ := List.forall_mem_cons.mp hmentioned
    refine ih ?_ hrest
    refine MulticastManager.listens_replaceSubscriptions sender now hlistens fun hown hid => ?_
    rw [← hid] at hthis
    exact List.mem_filter.mpr ⟨hlists hown hthis, by simpa using hid⟩

end Vl2

/-! ### Any operations -/

/-- What is done to the subscriptions. -/
inductive SubscriptionEvent where
  | subscribe (group : MulticastGroup) (ztAddress : ByteVec 5) (now : UInt64)
  | replaceSubscriptions (networkId : UInt64) (ztAddress : ByteVec 5) (groups : List MulticastGroup) (now : UInt64)
  | unsubscribeAll (ztAddress : ByteVec 5)
  | expireOld (now maxAge : UInt64)
  | multicastLike (sender : ByteVec 5) (payloadData : Bytes) (now : UInt64)

namespace Node

def subscriptionStep (n : Node) : SubscriptionEvent → Node
  | .subscribe group ztAddress now =>
    { n with multicastManager := n.multicastManager.subscribe group ztAddress now }
  | .replaceSubscriptions networkId ztAddress groups now =>
    { n with multicastManager := n.multicastManager.replaceSubscriptions networkId ztAddress groups now }
  | .unsubscribeAll ztAddress => { n with multicastManager := n.multicastManager.unsubscribeAll ztAddress }
  | .expireOld now maxAge => { n with multicastManager := n.multicastManager.expireOld now maxAge }
  | .multicastLike sender payloadData now => Vl2.handleMulticastLike n sender payloadData now

theorem inOrder_subscriptionStep {n : Node} (h : n.multicastManager.InOrder) (e : SubscriptionEvent) :
    (n.subscriptionStep e).multicastManager.InOrder := by
  cases e with
  | subscribe group ztAddress now => exact h.subscribe group ztAddress now
  | replaceSubscriptions networkId ztAddress groups now => exact h.replaceSubscriptions ztAddress now networkId groups
  | unsubscribeAll ztAddress => exact h.unsubscribeAll ztAddress
  | expireOld now maxAge => exact h.expireOld now maxAge
  | multicastLike sender payloadData now =>
    show (Vl2.handleMulticastLike n sender payloadData now).multicastManager.InOrder
    rw [Vl2.handleMulticastLike_eq]
    split
    · exact h
    · exact (Vl2.takeLike_spec h sender _ now).1

/-- After any operations on a store that was empty: a group is listed once, each of its
subscribers once, and no group without one. And a MULTICAST_LIKE then makes its sender
listen, on every network it mentions, to exactly the groups it lists there; what it
listens to on other networks and all other subscribers stay. -/
theorem subscriptions_inOrder (n : Node) (events : List SubscriptionEvent) :
    let n' := events.foldl subscriptionStep { n with multicastManager := .new }
    n'.multicastManager.InOrder ∧
    ∀ (sender : ByteVec 5) (payloadData : Bytes) (now : UInt64) (groups : List MulticastGroup),
      MulticastLikePayload.deserialize payloadData = .ok groups →
      let m := (Vl2.handleMulticastLike n' sender payloadData now).multicastManager
      ∀ g, ((∃ g' ∈ groups, g'.networkId = g.networkId) → (m.listens g sender ↔ g ∈ groups)) ∧
        ((¬ ∃ g' ∈ groups, g'.networkId = g.networkId) → m.subscribersOf g = n'.multicastManager.subscribersOf g) ∧
        m.others g sender = n'.multicastManager.others g sender := by
  intro n'
  have horder : n'.multicastManager.InOrder := by
    suffices h : ∀ n : Node, n.multicastManager.InOrder → (events.foldl subscriptionStep n).multicastManager.InOrder from
      h _ MulticastManager.inOrder_new
    induction events with
    | nil => exact fun n h => h
    | cons e rest ih => exact fun n h => ih _ (inOrder_subscriptionStep h e)
  refine ⟨horder, ?_⟩
  intro sender payloadData now groups hparse m g
  have hm : m = Vl2.takeLike sender groups now n'.multicastManager := by
    show (Vl2.handleMulticastLike n' sender payloadData now).multicastManager = _
    rw [Vl2.handleMulticastLike_eq, hparse]
  obtain ⟨hothers, hlisten, hsame⟩ := (Vl2.takeLike_spec horder sender groups now).2 g
  rw [hm]
  exact ⟨hlisten, hsame, hothers⟩

/-- A group of a network, of one of its multicast addresses. -/
def sampleGroup (networkId : UInt64) (k : UInt8) : MulticastGroup := ⟨networkId, ⟨[1, 0, 0x5e, 0, 0, k], rfl⟩, 0⟩

/-- Root number 2 listens to a group on each of two networks; its MULTICAST_LIKE lists another
group of the first. It then listens to that one there, and on the second as before. -/
theorem subscriptions_inOrder_like :
    let n := [.subscribe (sampleGroup 1 1) (Sample.identity 2).address.bytes 1000,
      .subscribe (sampleGroup 2 1) (Sample.identity 2).address.bytes 1000].foldl subscriptionStep
        { Sample.start with multicastManager := .new }
    let m := (Vl2.handleMulticastLike n (Sample.identity 2).address.bytes (MulticastLikePayload.serialize [sampleGroup 1 2])
      2000).multicastManager
    m.listens (sampleGroup 1 2) (Sample.identity 2).address.bytes ∧
      ¬ m.listens (sampleGroup 1 1) (Sample.identity 2).address.bytes ∧
      m.listens (sampleGroup 2 1) (Sample.identity 2).address.bytes := by
  intro n m
  obtain ⟨-, hlike⟩ := subscriptions_inOrder Sample.start
    [.subscribe (sampleGroup 1 1) (Sample.identity 2).address.bytes 1000,
      .subscribe (sampleGroup 2 1) (Sample.identity 2).address.bytes 1000]
  have hgroups := hlike (Sample.identity 2).address.bytes (MulticastLikePayload.serialize [sampleGroup 1 2]) 2000
    [sampleGroup 1 2] (by decide)
  refine ⟨?_, ?_, ?_⟩
  · exact ((hgroups (sampleGroup 1 2)).1 ⟨_, List.mem_cons_self, rfl⟩).mpr List.mem_cons_self
  · rw [(hgroups (sampleGroup 1 1)).1 ⟨_, List.mem_cons_self, rfl⟩]
    decide
  · rw [MulticastManager.listens, (hgroups (sampleGroup 2 1)).2.1 (by decide)]
    decide

end Node

end ManyTier
