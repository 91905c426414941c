import ManyTier.Node.State

/-! Which way a packet is routed.

The choice is documented as a rule: directly if the destination has a direct path that is
alive, and else through a root. It is made by one minimum over a score in which latency
counts as much as a relay's penalty, so it follows the rule exactly when no relayed path
scores better than the direct ones (`route_documented_iff`). -/
namespace ManyTier

/-- A direct path of a peer that is alive. -/
def Peer.DirectPath (p : Peer) (now : UInt64) (path : Path) : Prop :=
  path ∈ p.paths ∧ path.isAlive now = true ∧ path.isDirect = true

namespace Switch

/-- The rule for a destination. -/
structure Documented (t : Topology) (dest : ByteVec 5) (now : UInt64) (d : RouteDecision) : Prop where
  direct : (∃ address, d = .direct address) ↔ ∃ peer, t.getPeer dest = some peer ∧ ∃ path, peer.DirectPath now path
  best : ∀ address, d = .direct address → ∃ peer path, t.getPeer dest = some peer ∧ peer.DirectPath now path ∧
    path.address = address ∧ ∀ other, peer.DirectPath now other → path.qualityScore now ≤ other.qualityScore now
  relayed : (∀ address, d ≠ .direct address) → ∀ root, t.getRoot = some root → root.paths ≠ [] →
    ∃ path ∈ root.paths, d = .relay path.address dest ∧
      ((∃ other ∈ root.paths, other.isAlive now = true) → path.isAlive now = true)
  dropped : d = .drop → t.getRoot = none ∨ ∃ root, t.getRoot = some root ∧ root.paths = []

/-- When there is a direct path that is alive, every relayed one that is scores worse than
some direct one, or no better and stands behind it. -/
def DirectPreferred (t : Topology) (dest : ByteVec 5) (now : UInt64) : Prop :=
  ∀ peer, t.getPeer dest = some peer → (∃ path, peer.DirectPath now path) →
    ∀ front relayed back, peer.paths.filter (·.isAlive now) = front ++ relayed :: back → relayed.isDirect = false →
      ∃ path, peer.DirectPath now path ∧ (path.qualityScore now < relayed.qualityScore now ∨
        path ∈ front ∧ path.qualityScore now = relayed.qualityScore now)

/-! ### The best path -/

/-- The best path of a peer with a direct one is direct exactly when those are preferred. -/
theorem bestPath_direct_iff {p : Peer} {now : UInt64} {best : Path} (h : p.bestPath now = some best) :
    best.isDirect = true ↔
      ∀ front relayed back, p.paths.filter (·.isAlive now) = front ++ relayed :: back → relayed.isDirect = false →
        ∃ path, p.DirectPath now path ∧ (path.qualityScore now < relayed.qualityScore now ∨
          path ∈ front ∧ path.qualityScore now = relayed.qualityScore now) := by
  obtain ⟨before, after, hsplit, hbefore, hafter⟩ := minByKey_split h
  obtain ⟨hmem, halive⟩ := Peer.bestPath_mem h
  constructor
  · intro hdirect front relayed back heq hrelayed
    have hne : relayed ≠ best := by
      rintro rfl
      rw [hdirect] at hrelayed
      cases hrelayed
    have hin : relayed ∈ p.paths.filter (·.isAlive now) := by
      rw [heq]
      exact List.mem_append_right _ List.mem_cons_self
    refine ⟨best, ⟨hmem, halive, hdirect⟩, ?_⟩
    rcases (minByKey_le h relayed hin).lt_or_eq with hless | hsame
    · exact .inl hless
    -- of equal scores the first is best, so the relayed path stands behind it
    refine .inr ⟨?_, hsame⟩
    rcases List.append_eq_append_iff.mp (hsplit.symm.trans heq) with ⟨mid, rfl, hrest⟩ | ⟨mid, rfl, hrest⟩
    · cases mid with
      | nil => exact absurd (List.cons.inj hrest).1.symm hne
      | cons first mid =>
        rw [← (List.cons.inj hrest).1]
        exact List.mem_append_right _ List.mem_cons_self
    · cases mid with
      | nil => exact absurd (List.cons.inj hrest).1 hne
      | cons first mid =>
        have hless := hbefore first (List.mem_append_right _ List.mem_cons_self)
        rw [← (List.cons.inj hrest).1, hsame] at hless
        exact absurd hless (lt_irrefl _)
  · intro hpreferred
    by_contra hrelayed
    rw [Bool.not_eq_true] at hrelayed
    obtain ⟨path, ⟨hpath, hpathAlive, -⟩, hless | ⟨hfront, hsame⟩⟩ := hpreferred before best after hsplit hrelayed
    · exact absurd (Peer.bestPath_le h hpath hpathAlive) (Nat.not_le.mpr hless)
    · have hgreater := hbefore path hfront
      omega

/-! ### The decision -/

/-- What happens when the destination is not reached directly. -/
def relay (t : Topology) (dest : ByteVec 5) (now : UInt64) : RouteDecision :=
  match t.getRoot with
  | none => .drop
  | some root =>
    match root.bestPath now, root.paths with
    | some path, _ => .relay path.address dest
    | none, first :: _ => .relay first.address dest
    | none, [] => .drop

section
variable {t : Topology} {dest : ByteVec 5} {now : UInt64}

theorem route_direct {p : Peer} {best : Path} (hpeer : t.getPeer dest = some p) (hbest : p.bestPath now = some best)
    (hdirect : best.isDirect = true) : route t dest now = .direct best.address := by
  have hfound : (t.getPeer dest).bind (·.bestPath now) = some best := by rw [hpeer, Option.bind_some, hbest]
  unfold route
  simp only [hfound, hdirect, if_true]

theorem route_relay (hnot : ∀ p best, t.getPeer dest = some p → p.bestPath now = some best → best.isDirect = false) :
    route t dest now = relay t dest now := by
  unfold route
  simp only
  split
  · rename_i best hfound
    obtain ⟨p, hpeer, hbest⟩ := Option.bind_eq_some_iff.mp hfound
    rw [if_neg (by rw [hnot p best hpeer hbest]; decide)]
    rfl
  · rfl

theorem relay_ne_direct (address : SocketAddr) : relay t dest now ≠ .direct address := by
  unfold relay
  split
  · simp
  · split <;> simp

/-- A root with a path is used, by an alive one if it has one. -/
theorem relay_root {root : Peer} (hroot : t.getRoot = some root) (hpaths : root.paths ≠ []) :
    ∃ path ∈ root.paths, relay t dest now = .relay path.address dest ∧
      ((∃ other ∈ root.paths, other.isAlive now = true) → path.isAlive now = true) := by
  unfold relay
  simp only [hroot]
  split
  · rename_i path hbest
    obtain ⟨hmem, halive⟩ := Peer.bestPath_mem hbest
    exact ⟨path, hmem, rfl, fun _ => halive⟩
  · rename_i first rest hnone hfirst
    refine ⟨first, by rw [hfirst]; exact List.mem_cons_self, rfl, ?_⟩
    rintro ⟨other, hother, halive⟩
    obtain ⟨best, hbest⟩ := Peer.bestPath_isSome hother halive
    rw [hnone] at hbest
    cases hbest
  · rename_i hempty
    exact absurd hempty hpaths

theorem relay_drop (h : relay t dest now = .drop) : t.getRoot = none ∨ ∃ root, t.getRoot = some root ∧ root.paths = [] := by
  cases hroot : t.getRoot with
  | none => exact .inl rfl
  | some root =>
    refine .inr ⟨root, rfl, ?_⟩
    by_contra hpaths
    obtain ⟨path, -, hrelay, -⟩ : ∃ path ∈ root.paths, relay t dest now = .relay path.address dest ∧ _ :=
      relay_root hroot hpaths
    rw [h] at hrelay
    cases hrelay

/-- Where no direct path is alive, the rule is followed. -/
theorem documented_relay (hnone : ∀ p, t.getPeer dest = some p → ∀ path, ¬ p.DirectPath now path) :
    Documented t dest now (route t dest now) := by
  have hrelay : route t dest now = relay t dest now := by
    refine route_relay fun p best hpeer hbest => ?_
    obtain ⟨hmem, halive⟩ := Peer.bestPath_mem hbest
    rw [← Bool.not_eq_true]
    exact fun hdirect => hnone p hpeer best ⟨hmem, halive, hdirect⟩
  rw [hrelay]
  refine ⟨iff_of_false ?_ ?_, fun address h => absurd h (relay_ne_direct address), fun _ root => relay_root, relay_drop⟩
  · rintro ⟨address, h⟩
    exact relay_ne_direct address h
  · rintro ⟨p, hpeer, path, hpath⟩
    exact hnone p hpeer path hpath

/-- Where one is and the best path is direct, it is followed too. -/
theorem documented_direct {p : Peer} {best : Path} (hpeer : t.getPeer dest = some p)
    (hbest : p.bestPath now = some best) (hdirect : best.isDirect = true) :
    Documented t dest now (route t dest now) := by
  obtain ⟨hmem, halive⟩ := Peer.bestPath_mem hbest
  rw [route_direct hpeer hbest hdirect]
  refine ⟨iff_of_true ⟨_, rfl⟩ ⟨p, hpeer, best, hmem, halive, hdirect⟩, ?_, fun hnot => absurd rfl (hnot _), nofun⟩
  intro address heq
  refine ⟨p, best, hpeer, ⟨hmem, halive, hdirect⟩, RouteDecision.direct.inj heq, ?_⟩
  rintro other ⟨hother, hotherAlive, -⟩
  exact Peer.bestPath_le hbest hother hotherAlive

end

/-- A packet is routed as documented exactly when direct paths are preferred by their
scores. -/
theorem route_documented_iff (t : Topology) (dest : ByteVec 5) (now : UInt64) :
    Documented t dest now (route t dest now) ↔ DirectPreferred t dest now := by
  by_cases hsome : ∃ p, t.getPeer dest = some p ∧ ∃ path, p.DirectPath now path
  · obtain ⟨p, hpeer, path, hpath⟩ := hsome
    obtain ⟨best, hbest⟩ := Peer.bestPath_isSome hpath.1 hpath.2.1
    have hpreferred : DirectPreferred t dest now ↔ best.isDirect = true := by
      rw [bestPath_direct_iff hbest, DirectPreferred, hpeer]
      constructor
      · exact fun h => h p rfl ⟨path, hpath⟩
      · intro h p' hp' _
        obtain rfl := Option.some.inj hp'
        exact h
    rw [hpreferred]
    constructor
    · intro hrule
      by_contra hrelayed
      rw [Bool.not_eq_true] at hrelayed
      have hrelay : route t dest now = relay t dest now := by
        refine route_relay fun p' best' hpeer' hbest' => ?_
        obtain rfl := Option.some.inj (hpeer.symm.trans hpeer')
        obtain rfl := Option.some.inj (hbest.symm.trans hbest')
        exact hrelayed
      obtain ⟨address, h⟩ := hrule.direct.mpr ⟨p, hpeer, path, hpath⟩
      exact relay_ne_direct address (hrelay.symm.trans h)
    · exact documented_direct hpeer hbest
  · have hnone : ∀ p, t.getPeer dest = some p → ∀ path, ¬ p.DirectPath now path :=
      fun p hpeer path hpath => hsome ⟨p, hpeer, path, hpath⟩
    refine iff_of_true (documented_relay hnone) ?_
    rintro p hpeer ⟨path, hpath⟩
    exact absurd hpath (hnone p hpeer path)

/-- A peer with a direct path of twenty seconds' latency and a relayed one of ten
milliseconds'. -/
def sampleSlow : Topology :=
  (Topology.new.addPeer (Sample.identity 4)).modifyPeer (Sample.identity 4).address.bytes fun p =>
    { p with paths := [⟨Sample.endpoint 40, 0, 1000, 20000, true⟩, ⟨Sample.endpoint 50, 0, 1000, 10, false⟩] }

/-- Its packets are dropped where there is no root, though it can be reached directly. -/
theorem route_not_documented : ¬ ∀ (t : Topology) (dest : ByteVec 5) (now : UInt64),
    Documented t dest now (route t dest now) := by
  intro hall
  obtain ⟨address, hdirect⟩ := (hall sampleSlow (Sample.identity 4).address.bytes 2000).direct.mpr
    ⟨_, rfl, ⟨Sample.endpoint 40, 0, 1000, 20000, true⟩, List.mem_cons_self, by decide, rfl⟩
  have hdrop : route sampleSlow (Sample.identity 4).address.bytes 2000 = .drop := by decide
  cases hdrop.symm.trans hdirect

end Switch

end ManyTier
