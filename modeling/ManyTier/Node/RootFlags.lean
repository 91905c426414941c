import ManyTier.Node.Peers
import ManyTier.Node.Roots

/-! Whether a peer is marked as a root exactly while it is one.

Who is a root is kept twice: in the root list, and as a mark on the peer entry. Loading
sets both. Unloading a moon takes its roots out of the list and leaves their entries as
they are, mark included, so the two agree until a moon is unloaded that takes a root
away. -/
namespace ManyTier

/-- What is done with a topology that has its planet. -/
inductive RootEvent where
  | moons (e : MoonEvent)
  | addPeer (identity : Identity)

namespace Topology

def rootStep (pr : Primitives) (t : Topology) : RootEvent → Except Fault (Topology × Except ProtocolError Bool)
  | .moons e => t.moonStep pr e
  | .addPeer identity => .ok (t.addPeer identity, .ok true)

/-- A topology that has learned some peers and loads its planet. -/
def withPlanet (learned : List Identity) (planet : World) : Topology :=
  (learned.foldl addPeer new).loadPlanet planet

/-- Every entry says of its peer whether it is a root. -/
def FlagsRoots (t : Topology) : Prop :=
  ∀ a peer, t.getPeer a = some peer → (peer.isRoot = true ↔ a ∈ t.roots)

/-- A moon that is unloaded has no root of its own: each is listed by the planet or by a
moon that stays. -/
def SparesRoots (t : Topology) : RootEvent → Prop
  | .moons (.unloadMoon moonId) =>
    ∀ moon, t.moons.find? (·.id = moonId) = some moon → ∀ a, isRootOf moon a = true →
      (∃ planet, t.planet = some planet ∧ isRootOf planet a = true) ∨
        ∃ m ∈ t.moons.eraseP (·.id = moonId), isRootOf m a = true
  | .moons (.loadMoon _) => True
  | .addPeer _ => True

/-! ### Entries that are made -/

theorem FlagsRoots.addRoot {t : Topology} (h : FlagsRoots t) (root : WorldRoot) : FlagsRoots (t.addRoot root) := by
  intro a peer hpeer
  rw [getPeer_addRoot] at hpeer
  rw [mem_roots_addRoot]
  split at hpeer
  · rename_i ha
    cases hpeer
    obtain ⟨paths, heq⟩ := rootPeer_eq root
    exact iff_of_true (by rw [heq]; rfl) (.inr ha.symm)
  · rename_i hne
    rw [h a peer hpeer]
    exact (or_iff_left fun heq => hne heq.symm).symm

theorem FlagsRoots.addRoots {t : Topology} (h : FlagsRoots t) (roots : List WorldRoot) :
    FlagsRoots (roots.foldl Topology.addRoot t) := by
  induction roots generalizing t with
  | nil => exact h
  | cons root rest ih => exact ih (h.addRoot root)

theorem roots_addPeer (t : Topology) (identity : Identity) : (t.addPeer identity).roots = t.roots := by
  unfold addPeer
  simp only
  split <;> rfl

/-- A learned peer is no root: an address in the root list has its entry already. -/
theorem FlagsRoots.addPeer {t : Topology} (h : FlagsRoots t) (hentries : ∀ a ∈ t.roots, (t.getPeer a).isSome = true)
    (identity : Identity) : FlagsRoots (t.addPeer identity) := by
  intro a peer hpeer
  rw [getPeer_addPeer] at hpeer
  rw [roots_addPeer]
  split at hpeer
  · rename_i hnew
    cases hpeer
    refine iff_of_false Bool.false_ne_true fun ha => ?_
    have hentry := hentries a ha
    rw [hnew.2] at hentry
    cases hentry
  · exact h a peer hpeer

/-- Peers that are learned before any world is loaded change nothing besides, and are
not marked. -/
theorem foldl_addPeer (learned : List Identity) :
    ∃ peers, learned.foldl addPeer new = { new with peers } ∧
      FlagsRoots { new with peers } := by
  suffices h : ∀ peers, FlagsRoots { new with peers } →
      ∃ peers', learned.foldl addPeer { new with peers } = { new with peers := peers' } ∧
        FlagsRoots { new with peers := peers' } by
    exact h .empty fun a peer hpeer => by cases hpeer
  induction learned with
  | nil => exact fun peers h => ⟨peers, rfl, h⟩
  | cons identity rest ih =>
    intro peers h
    have hadded := h.addPeer (fun a ha => by cases ha) identity
    have heq : ∃ peers', ({ new with peers } : Topology).addPeer identity = { new with peers := peers' } := by
      unfold addPeer
      simp only
      split
      · exact ⟨peers, rfl⟩
      · exact ⟨_, rfl⟩
    obtain ⟨peers', heq⟩ := heq
    rw [heq] at hadded
    rw [List.foldl_cons, heq]
    exact ih peers' hadded

variable {t : Topology} {planet : World} {pr : Primitives}

/-- The planet marks its roots. -/
theorem withPlanet_agree (learned : List Identity) (planet : World) :
    RootSet planet (withPlanet learned planet) ∧ FlagsRoots (withPlanet learned planet) := by
  obtain ⟨peers, heq, hflags⟩ := foldl_addPeer learned
  unfold withPlanet
  rw [heq]
  exact ⟨rootSet_loadPlanet planet peers new.pendingWhois, hflags.addRoots planet.roots⟩

/-! ### One call -/

theorem RootSet.addPeer (h : RootSet planet t) (identity : Identity) : RootSet planet (t.addPeer identity) := by
  have hworlds := t.worlds_addPeer identity
  refine ⟨(congrArg Prod.fst hworlds).trans h.loaded, ?_, fun a => ?_, fun a ha => ?_⟩
  · rw [roots_addPeer]
    exact h.nodup
  · rw [roots_addPeer, show (t.addPeer identity).moons = t.moons from congrArg Prod.snd hworlds]
    exact h.exact a
  · rw [roots_addPeer] at ha
    rw [getPeer_addPeer]
    split
    · rfl
    · exact h.entries a ha

/-- Unloading a moon touches no entry. So the marks stay right exactly if no root goes. -/
theorem RootSet.flagsRoots_unloadMoon (h : RootSet planet t) (hflags : FlagsRoots t) (moonId : UInt64) :
    FlagsRoots (t.unloadMoon moonId).1 ↔ SparesRoots t (.moons (.unloadMoon moonId)) := by
  obtain ⟨hafter, hmoons⟩ := h.unloadMoon moonId
  have hstays : ∀ a, a ∈ (t.unloadMoon moonId).1.roots ↔
      (∃ p, t.planet = some p ∧ isRootOf p a = true) ∨
        ∃ m ∈ t.moons.eraseP (·.id = moonId), isRootOf m a = true := by
    intro a
    rw [hafter.exact, hmoons, h.loaded]
    simp only [Option.some.injEq, exists_eq_left']
  have hpeers : (t.unloadMoon moonId).1.peers = t.peers := by
    rcases t.unloadMoon_cases moonId with ⟨-, hunload⟩ | ⟨moon, -, hunload⟩ <;> rw [hunload]
  constructor
  · intro hflags' moon hfind a ha
    have hmember : a ∈ t.roots := (h.exact a).mpr (.inr ⟨moon, List.mem_of_find?_eq_some hfind, ha⟩)
    obtain ⟨peer, hpeer⟩ := Option.isSome_iff_exists.mp (h.entries a hmember)
    have hmarked : peer.isRoot = true := (hflags a peer hpeer).mpr hmember
    rw [← hstays, ← hflags' a peer (by rw [getPeer, hpeers]; exact hpeer)]
    exact hmarked
  · intro hspares a peer hpeer
    rw [getPeer, hpeers] at hpeer
    rw [hflags a peer hpeer]
    constructor
    · intro hmember
      rw [hstays]
      rcases (h.exact a).mp hmember with hplanet | hmoon
      · exact .inl ⟨planet, h.loaded, hplanet⟩
      · cases hfind : t.moons.find? (·.id = moonId) with
        | none =>
          rw [List.eraseP_of_forall_not (by simpa using hfind)]
          exact .inr hmoon
        | some moon =>
          rcases (exists_mem_eraseP (isRootOf · a = true) hfind).mp hmoon with hown | hother
          · exact hspares moon hfind a hown
          · exact .inr hother
    · intro hmember
      rw [h.exact]
      rcases (hstays a).mp hmember with ⟨p, hp, hroot⟩ | ⟨m, hm, hroot⟩
      · rw [h.loaded] at hp
        cases hp
        exact .inl hroot
      · exact .inr ⟨m, List.mem_of_mem_eraseP hm, hroot⟩

theorem RootSet.rootStep (h : RootSet planet t) {e : RootEvent} {t' : Topology}
    {result : Except ProtocolError Bool} (hstep : t.rootStep pr e = .ok (t', result)) : RootSet planet t' := by
  cases e with
  | addPeer identity =>
    cases hstep
    exact h.addPeer identity
  | moons e => exact (h.step hstep).1

/-- A call that finds the marks right leaves them right exactly if no root goes. -/
theorem RootSet.flagsRoots_rootStep (h : RootSet planet t) (hflags : FlagsRoots t) {e : RootEvent} {t' : Topology}
    {result : Except ProtocolError Bool} (hstep : t.rootStep pr e = .ok (t', result)) :
    FlagsRoots t' ↔ SparesRoots t e := by
  cases e with
  | addPeer identity =>
    cases hstep
    exact iff_of_true (hflags.addPeer h.entries identity) trivial
  | moons e =>
    cases e with
    | unloadMoon moonId =>
      cases hstep
      exact h.flagsRoots_unloadMoon hflags moonId
    | loadMoon moon =>
      refine iff_of_true ?_ trivial
      obtain ⟨⟨taken, verified⟩, htake, heq⟩ := bind_eq_ok hstep
      cases heq
      unfold Topology.takeMoon at htake
      obtain ⟨accepted, -, htake⟩ := bind_eq_ok htake
      cases accepted with
      | error e =>
        cases htake
        exact hflags
      | ok _ =>
        cases htake
        exact hflags.addRoots moon.roots

/-! ### Any calls -/

/-- From a topology with its planet, whatever moons are loaded and unloaded and whoever
is learned: every entry says throughout whether its peer is a root exactly if no moon is
unloaded that has a root of its own. -/
theorem run_flagsRoots_iff (pr : Primitives) (learned : List Identity) (planet : World) (t : Topology)
    (calls : List (Entry Topology RootEvent (Except ProtocolError Bool)))
    (hrun : Run (rootStep pr) (withPlanet learned planet) calls t) :
    (FlagsRoots (withPlanet learned planet) ∧ ∀ e ∈ calls, FlagsRoots e.after) ↔
      ∀ e ∈ calls, SparesRoots e.before e.event := by
  obtain ⟨hset, hflags⟩ := withPlanet_agree learned planet
  have hiff := hrun.forall_after_iff (RootSet planet) FlagsRoots (fun e => SparesRoots e.before e.event)
    (fun e hstep hbefore => ⟨hbefore.rootStep hstep, fun hmarks => hbefore.flagsRoots_rootStep hmarks hstep⟩)
    hset hflags
  rw [hiff]
  exact and_iff_right hflags

/-- Someone is learned. -/
theorem run_flagsRoots_learned :
    Run (rootStep Sample.primitives) (withPlanet [] Sample.planet)
        [⟨withPlanet [] Sample.planet, .addPeer (Sample.identity 5), .ok true,
          (withPlanet [] Sample.planet).addPeer (Sample.identity 5)⟩]
        ((withPlanet [] Sample.planet).addPeer (Sample.identity 5)) ∧
      FlagsRoots ((withPlanet [] Sample.planet).addPeer (Sample.identity 5)) := by
  have hstep : (withPlanet [] Sample.planet).rootStep Sample.primitives (.addPeer (Sample.identity 5)) =
      .ok ((withPlanet [] Sample.planet).addPeer (Sample.identity 5), .ok true) := rfl
  have hrun := Run.one hstep
  have hiff := run_flagsRoots_iff Sample.primitives [] Sample.planet _ _ hrun
  exact ⟨hrun, (hiff.mpr (by simp [SparesRoots])).2 _ List.mem_cons_self⟩

/-- A moon names a root that the planet does not. It is loaded and unloaded again, and
that peer is no root but stays marked as one. -/
theorem flagsRoots_stale :
    ¬ ∀ (pr : Primitives) (learned : List Identity) (planet : World) (t : Topology)
      (calls : List (Entry Topology RootEvent (Except ProtocolError Bool))),
      Run (rootStep pr) (withPlanet learned planet) calls t →
        FlagsRoots (withPlanet learned planet) ∧ ∀ e ∈ calls, FlagsRoots e.after := by
  intro h
  have hcheck : okWith (runAll (rootStep Sample.primitives) (withPlanet [] Sample.planet)
      [.moons (.loadMoon sampleMoon), .moons (.unloadMoon 7)]) (fun r =>
        r.2.roots = [2, 3].map (fun k => (Sample.identity k).address.bytes) ∧
          (r.2.getPeer (Sample.identity 4).address.bytes).map (·.isRoot) = some true) = true := by
    decide +kernel
  obtain ⟨⟨calls, t⟩, hcalls, hfound⟩ := exists_of_okWith hcheck
  obtain ⟨hroots, hmarked⟩ := of_decide_eq_true hfound
  obtain ⟨hstart, hafter⟩ := h Sample.primitives [] Sample.planet t calls (run_runAll hcalls)
  have hmarks : FlagsRoots t := by
    cases run_runAll hcalls with
    | nil => exact hstart
    | snoc _ _ => exact hafter _ (List.mem_append_right _ List.mem_cons_self)
  obtain ⟨peer, hpeer, hroot⟩ := Option.map_eq_some_iff.mp hmarked
  have hmember := (hmarks _ peer hpeer).mp hroot
  rw [hroots] at hmember
  revert hmember
  decide

end Topology
end ManyTier
