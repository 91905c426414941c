import ManyTier.Node.Sessions
import ManyTier.Protocol.WorldFile

/-! Which addresses are roots.

The root set is kept by hand: worlds add their roots, and a moon that is unloaded takes
away those that are listed nowhere else. `RootSet` says what it then is: each address
once, exactly the roots of the planet and of the moons loaded, each with a peer entry. In
a run every unload is complete exactly if each finds at most one moon of its id
(`run_unloadsWhole_iff`). -/
namespace ManyTier

/-- What is done with moons. -/
inductive MoonEvent where
  | loadMoon (moon : World)
  | unloadMoon (moonId : UInt64)

namespace Topology

/-- A moon loaded, with the topology that is there after an error too: the signature is
checked before anything is changed. -/
def takeMoon (pr : Primitives) (t : Topology) (moon : World) :
    Except Fault (Topology × Except ProtocolError Unit) := do
  match ← moon.verifySignature pr with
  | .error e => return (t, .error e)
  | .ok () =>
    let t := moon.roots.foldl addRoot t
    return ({ t with moons := t.moons ++ [moon] }, .ok ())

/-- One call: what it leaves, and whether it did what was asked for. -/
def moonStep (pr : Primitives) (t : Topology) : MoonEvent → Except Fault (Topology × Except ProtocolError Bool)
  | .loadMoon moon => do
    let (t, result) ← t.takeMoon pr moon
    return (t, result.map fun _ => true)
  | .unloadMoon moonId => .ok ((t.unloadMoon moonId).1, .ok (t.unloadMoon moonId).2)

theorem loadMoon_eq (pr : Primitives) (t : Topology) (moon : World) :
    t.loadMoon pr moon = do
      let (t, result) ← t.takeMoon pr moon
      return result.map fun _ => t := by
  unfold loadMoon takeMoon
  cases moon.verifySignature pr with
  | error e => rfl
  | ok result => cases result <;> rfl

/-! ### Roots entered -/

theorem isRootOf_iff {world : World} {a : ByteVec 5} :
    isRootOf world a = true ↔ ∃ r ∈ world.roots, r.identity.address.bytes = a := by
  simp [isRootOf]

variable (t : Topology) (roots : List WorldRoot)

theorem mem_roots_addRoot (root : WorldRoot) (a : ByteVec 5) :
    a ∈ (t.addRoot root).roots ↔ a ∈ t.roots ∨ root.identity.address.bytes = a := by
  simp only [addRoot]
  split
  · rename_i hknown
    have hmem : root.identity.address.bytes ∈ t.roots := by simpa using hknown
    constructor
    · exact .inl
    · rintro (ha | rfl)
      · exact ha
      · exact hmem
  · rw [List.mem_append, List.mem_singleton, eq_comm]

theorem nodup_roots_addRoot (root : WorldRoot) (h : t.roots.Nodup) : (t.addRoot root).roots.Nodup := by
  simp only [addRoot]
  split
  · exact h
  · rename_i hnew
    refine List.nodup_append.mpr ⟨h, List.nodup_singleton _, ?_⟩
    rintro a ha b hb rfl
    obtain rfl := List.mem_singleton.mp hb
    exact hnew (by simpa using ha)

/-- What entering some roots does to the root set and to the peers. -/
theorem foldl_addRoot :
    (∀ a, a ∈ (roots.foldl addRoot t).roots ↔ a ∈ t.roots ∨ ∃ r ∈ roots, r.identity.address.bytes = a) ∧
    (t.roots.Nodup → (roots.foldl addRoot t).roots.Nodup) ∧
    (∀ a, ((t.getPeer a).isSome = true ∨ ∃ r ∈ roots, r.identity.address.bytes = a) →
      ((roots.foldl addRoot t).getPeer a).isSome = true) ∧
    (roots.foldl addRoot t).planet = t.planet ∧ (roots.foldl addRoot t).moons = t.moons := by
  induction roots generalizing t with
  | nil => simp
  | cons root rest ih =>
    obtain ⟨hmem, hnodup, hpeer, hplanet, hmoons⟩ := ih (t.addRoot root)
    refine ⟨fun a => ?_, fun h => hnodup (t.nodup_roots_addRoot root h), fun a ha => hpeer a ?_, hplanet, hmoons⟩
    · rw [List.foldl_cons, hmem, mem_roots_addRoot, List.exists_mem_cons_iff, or_assoc]
    · rw [getPeer_addRoot]
      split
      · exact .inl rfl
      · rename_i hne
        rcases ha with ha | ha
        · exact .inl ha
        · rcases (List.exists_mem_cons_iff _ _ _).mp ha with heq | ha
          · exact absurd heq.symm hne
          · exact .inr ha

/-! ### Roots taken away -/

/-- The roots of an unloaded moon that are still listed stay, the others go. -/
theorem mem_foldl_drop (still : ByteVec 5 → Bool) (l : List (ByteVec 5)) (a : ByteVec 5) :
    a ∈ roots.foldl (fun l root =>
        if still root.identity.address.bytes then l else l.filter (· ≠ root.identity.address.bytes)) l ↔
      a ∈ l ∧ ((∃ r ∈ roots, r.identity.address.bytes = a) → still a = true) := by
  induction roots generalizing l with
  | nil => simp
  | cons root rest ih =>
    rw [List.foldl_cons, ih, List.exists_mem_cons_iff]
    by_cases hstill : still root.identity.address.bytes = true
    · rw [if_pos hstill]
      constructor
      · rintro ⟨hmem, hrest⟩
        refine ⟨hmem, ?_⟩
        rintro (rfl | h)
        · exact hstill
        · exact hrest h
      · rintro ⟨hmem, hall⟩
        exact ⟨hmem, fun h => hall (.inr h)⟩
    · rw [if_neg hstill, List.mem_filter, decide_eq_true_eq]
      constructor
      · rintro ⟨⟨hmem, hne⟩, hrest⟩
        refine ⟨hmem, ?_⟩
        rintro (rfl | h)
        · exact absurd rfl hne
        · exact hrest h
      · rintro ⟨hmem, hall⟩
        refine ⟨⟨hmem, ?_⟩, fun h => hall (.inr h)⟩
        rintro rfl
        exact hstill (hall (.inl rfl))

theorem nodup_foldl_drop (still : ByteVec 5 → Bool) (l : List (ByteVec 5)) (h : l.Nodup) :
    (roots.foldl (fun l root =>
      if still root.identity.address.bytes then l else l.filter (· ≠ root.identity.address.bytes)) l).Nodup := by
  induction roots generalizing l with
  | nil => exact h
  | cons root rest ih =>
    apply ih
    dsimp only
    split
    · exact h
    · exact h.filter _

/-! ### The root set -/

/-- Each root once, exactly those of the planet and of the moons loaded, and a peer
entry for each. -/
structure RootSet (planet : World) (t : Topology) : Prop where
  loaded : t.planet = some planet
  nodup : t.roots.Nodup
  exact : ∀ a, a ∈ t.roots ↔ isRootOf planet a = true ∨ ∃ moon ∈ t.moons, isRootOf moon a = true
  entries : ∀ a ∈ t.roots, (t.getPeer a).isSome = true

variable {t} {planet : World} {pr : Primitives}

/-- The planet's roots, and none besides. -/
theorem rootSet_loadPlanet (planet : World) (peers : SortedMap (ByteVec 5) Peer)
    (pendingWhois : SortedMap (ByteVec 5) (UInt64 × UInt64)) :
    RootSet planet (({ new with peers, pendingWhois } : Topology).loadPlanet planet) := by
  obtain ⟨hmem, hnodup, hpeer, -, hmoons⟩ := foldl_addRoot { new with peers, pendingWhois } planet.roots
  have hexact : ∀ a, a ∈ (planet.roots.foldl addRoot { new with peers, pendingWhois }).roots ↔
      ∃ r ∈ planet.roots, r.identity.address.bytes = a := by
    intro a
    rw [hmem]
    simp [new]
  refine ⟨rfl, hnodup List.nodup_nil, fun a => ?_, fun a ha => hpeer a (.inr ((hexact a).mp ha))⟩
  show a ∈ (planet.roots.foldl addRoot _).roots ↔ _ ∨ ∃ moon ∈ (planet.roots.foldl addRoot _).moons, _
  rw [hexact, hmoons, isRootOf_iff]
  simp [new]

theorem RootSet.takeMoon (h : RootSet planet t) {moon : World} {t' : Topology} {result : Except ProtocolError Unit}
    (htake : t.takeMoon pr moon = .ok (t', result)) :
    RootSet planet t' ∧ (∀ e, result = .error e → t' = t) ∧ (result = .ok () → t'.moons = t.moons ++ [moon]) := by
  unfold Topology.takeMoon at htake
  obtain ⟨verified, -, htake⟩ := bind_eq_ok htake
  cases verified with
  | error e =>
    cases htake
    exact ⟨h, fun _ _ => rfl, fun hok => by cases hok⟩
  | ok _ =>
    cases htake
    obtain ⟨hmem, hnodup, hpeer, hplanet, hmoons⟩ := foldl_addRoot t moon.roots
    refine ⟨⟨hplanet.trans h.loaded, hnodup h.nodup, fun a => ?_, fun a ha => hpeer a ?_⟩,
      (fun _ herror => by cases herror), fun _ => congrArg (· ++ [moon]) hmoons⟩
    · show a ∈ (moon.roots.foldl addRoot t).roots ↔ _ ∨ ∃ m ∈ (moon.roots.foldl addRoot t).moons ++ [moon], _
      rw [hmem, h.exact, hmoons, ← isRootOf_iff, or_assoc]
      simp only [List.mem_append, List.mem_singleton, or_and_right, exists_or, exists_eq_left]
    · rcases (hmem a).mp ha with ha | ha
      · exact .inl (h.entries a ha)
      · exact .inr ha

/-- The moon found and those that are left are all there were. -/
theorem exists_mem_eraseP {moons : List World} {moonId : UInt64} {moon : World} (P : World → Prop)
    (h : moons.find? (·.id = moonId) = some moon) :
    (∃ m ∈ moons, P m) ↔ P moon ∨ ∃ m ∈ moons.eraseP (·.id = moonId), P m := by
  induction moons with
  | nil => cases h
  | cons m rest ih =>
    by_cases hm : m.id = moonId
    · rw [List.find?_cons_of_pos (by simpa using hm)] at h
      obtain rfl := Option.some.inj h
      rw [List.eraseP_cons_of_pos (by simpa using hm), List.exists_mem_cons_iff]
    · rw [List.find?_cons_of_neg (by simpa using hm)] at h
      rw [List.eraseP_cons_of_neg (by simpa using hm), List.exists_mem_cons_iff, List.exists_mem_cons_iff, ih h]
      exact or_left_comm

/-- A moon is found by its id exactly if it can be removed. -/
theorem unloadMoon_cases (t : Topology) (moonId : UInt64) :
    (t.moons.find? (·.id = moonId) = none ∧ t.unloadMoon moonId = (t, false)) ∨
    ∃ moon, t.moons.find? (·.id = moonId) = some moon ∧
      let moons := t.moons.eraseP (·.id = moonId)
      t.unloadMoon moonId = ({ t with
        moons
        roots := moon.roots.foldl (fun l root =>
          if (match t.planet with
              | some p => isRootOf p root.identity.address.bytes
              | none => false) || moons.any (isRootOf · root.identity.address.bytes) then l
          else l.filter (· ≠ root.identity.address.bytes)) t.roots }, true) := by
  unfold unloadMoon
  rw [List.eraseP_eq_eraseIdx]
  cases hfind : t.moons.find? (·.id = moonId) with
  | none =>
    have hidx : t.moons.findIdx? (·.id = moonId) = none := by
      rw [List.findIdx?_eq_none_iff]
      simpa using hfind
    exact .inl ⟨rfl, by rw [hidx]⟩
  | some moon =>
    have hidx : (t.moons.findIdx? (·.id = moonId)).isSome = true := by
      rw [List.findIdx?_isSome, List.any_eq_true]
      exact ⟨moon, List.mem_of_find?_eq_some hfind, by simpa using List.find?_some hfind⟩
    obtain ⟨index, hindex⟩ := Option.isSome_iff_exists.mp hidx
    refine .inr ⟨moon, rfl, ?_⟩
    generalize t.moons.findIdx? (·.id = moonId) = found at hindex
    subst hindex
    rfl

theorem RootSet.unloadMoon (h : RootSet planet t) (moonId : UInt64) :
    RootSet planet (t.unloadMoon moonId).1 ∧
      (t.unloadMoon moonId).1.moons = t.moons.eraseP (·.id = moonId) := by
  rcases t.unloadMoon_cases moonId with ⟨hnone, hunload⟩ | ⟨moon, hfind, hunload⟩
  · rw [hunload]
    refine ⟨h, (List.eraseP_of_forall_not ?_).symm⟩
    simpa using hnone
  · rw [hunload]
    set moons := t.moons.eraseP (·.id = moonId) with hmoons
    set still : ByteVec 5 → Bool := fun a => (match t.planet with
      | some p => isRootOf p a
      | none => false) || moons.any (isRootOf · a) with hstill
    have hkept : ∀ a, still a = true ↔ isRootOf planet a = true ∨ ∃ m ∈ moons, isRootOf m a = true := by
      intro a
      simp only [hstill, h.loaded, Bool.or_eq_true, List.any_eq_true]
    refine ⟨⟨h.loaded, nodup_foldl_drop moon.roots still _ h.nodup, fun a => ?_, fun a ha => ?_⟩, rfl⟩
    · show a ∈ moon.roots.foldl _ t.roots ↔ _ ∨ ∃ m ∈ moons, _
      rw [mem_foldl_drop moon.roots still, h.exact, exists_mem_eraseP (isRootOf · a = true) hfind, hkept,
        ← isRootOf_iff]
      tauto
    · exact h.entries a ((mem_foldl_drop moon.roots still _ _).mp ha).1

/-! ### Any loads and unloads -/

/-- The moons loaded after some calls: those that were accepted, less those unloaded. -/
def loadedMoons (moons : List World) (e : Entry Topology MoonEvent (Except ProtocolError Bool)) : List World :=
  match e.event, e.output with
  | .loadMoon moon, .ok _ => moons ++ [moon]
  | .loadMoon _, .error _ => moons
  | .unloadMoon moonId, _ => moons.eraseP (·.id = moonId)

/-- One call keeps the root set, and one that fails changes nothing. -/
theorem RootSet.step (h : RootSet planet t) {e : MoonEvent} {t' : Topology} {result : Except ProtocolError Bool}
    (hstep : t.moonStep pr e = .ok (t', result)) :
    RootSet planet t' ∧ t'.moons = loadedMoons t.moons ⟨t, e, result, t'⟩ ∧ (∀ err, result = .error err → t' = t) := by
  cases e with
  | loadMoon moon =>
    obtain ⟨⟨taken, verified⟩, htake, heq⟩ := bind_eq_ok hstep
    cases heq
    obtain ⟨hroots, herror, hok⟩ := h.takeMoon htake
    refine ⟨hroots, ?_, fun err herr => ?_⟩
    · cases verified with
      | error err => rw [herror err rfl]; rfl
      | ok _ => exact hok rfl
    · cases verified with
      | error err => exact herror err rfl
      | ok _ => cases herr
  | unloadMoon moonId =>
    cases hstep
    obtain ⟨hroots, hmoons⟩ := h.unloadMoon moonId
    exact ⟨hroots, hmoons, fun err herr => by cases herr⟩

/-- From a topology that loaded its planet, whatever moons are loaded and unloaded: no
address is a root twice, the roots are those of the planet and of the moons loaded, each
has a peer entry, and a moon that is refused changes nothing. -/
theorem run_rootSet (pr : Primitives) (planet : World) (peers : SortedMap (ByteVec 5) Peer)
    (pendingWhois : SortedMap (ByteVec 5) (UInt64 × UInt64)) (t : Topology)
    (calls : List (Entry Topology MoonEvent (Except ProtocolError Bool)))
    (hrun : Run (moonStep pr) (({ new with peers, pendingWhois } : Topology).loadPlanet planet) calls t) :
    t.roots.Nodup ∧ t.moons = calls.foldl loadedMoons [] ∧
      (∀ a, a ∈ t.roots ↔ isRootOf planet a = true ∨
        ∃ moon ∈ calls.foldl loadedMoons [], isRootOf moon a = true) ∧
      (∀ a ∈ t.roots, (t.getPeer a).isSome = true) ∧
      ∀ e ∈ calls, ∀ err, e.output = .error err → e.after = e.before := by
  suffices h : RootSet planet t ∧ t.moons = calls.foldl loadedMoons [] ∧
      ∀ e ∈ calls, ∀ err, e.output = .error err → e.after = e.before by
    obtain ⟨hroots, hmoons, herrors⟩ := h
    refine ⟨hroots.nodup, hmoons, fun a => ?_, hroots.entries, herrors⟩
    rw [hroots.exact, hmoons]
  have hstart := rootSet_loadPlanet planet peers pendingWhois
  induction hrun with
  | nil =>
    refine ⟨hstart, ?_, by simp⟩
    exact (foldl_addRoot { new with peers, pendingWhois } planet.roots).2.2.2.2
  | @snoc calls t₁ t₂ e result _ hstep ih =>
    obtain ⟨hroots, hmoons, herrors⟩ := ih
    obtain ⟨hroots', hmoons', herror⟩ := hroots.step hstep
    refine ⟨hroots', ?_, ?_⟩
    · rw [hmoons', hmoons, List.foldl_append]
      rfl
    · intro e' he'
      rcases List.mem_append.mp he' with he' | he'
      · exact herrors e' he'
      · obtain rfl := List.mem_singleton.mp he'
        exact herror

/-- A moon that shares a root with the planet and lists another one twice. -/
def sampleMoon : World :=
  let moon : World := { Sample.planet with
    worldType := .moon
    id := 7
    signingKey := ByteVec.ofBytes 64 (List.replicate 32 0 ++ (Sample.key 5).toBytes)
    roots := [Sample.worldRoot 2 [22], Sample.worldRoot 4 [40], Sample.worldRoot 4 [41]] }
  { moon with signature := Signing.sign Sample.primitives (Sample.key 5) moon.signedPortion }

/-- It is loaded. -/
theorem run_rootSet_moon : ∃ (t : Topology) (calls : List (Entry Topology MoonEvent (Except ProtocolError Bool))),
    Run (moonStep Sample.primitives) (new.loadPlanet Sample.planet) calls t ∧ t.roots.Nodup ∧
      t.roots = [2, 3, 4].map fun k => (Sample.identity k).address.bytes := by
  have hcheck : okWith ((new.loadPlanet Sample.planet).moonStep Sample.primitives (.loadMoon sampleMoon))
      (fun r => r.1.roots = [2, 3, 4].map fun k => (Sample.identity k).address.bytes) = true := by
    decide +kernel
  obtain ⟨⟨t, result⟩, hstep, hroots⟩ := exists_of_okWith hcheck
  have hrun := Run.one hstep
  have hset := run_rootSet Sample.primitives Sample.planet new.peers new.pendingWhois t _ hrun
  exact ⟨t, _, hrun, hset.1, of_decide_eq_true hroots⟩

/-! ### Moons unloaded -/

/-- A moon is gone, and its roots with it: no moon loaded has its id, and each root is one
of the planet or of a loaded moon with another id. -/
def MoonGone (planet : World) (moonId : UInt64) (t : Topology) : Prop :=
  (∀ moon ∈ t.moons, moon.id ≠ moonId) ∧
    ∀ a ∈ t.roots, isRootOf planet a = true ∨ ∃ moon ∈ t.moons, moon.id ≠ moonId ∧ isRootOf moon a = true

/-- What a call says it unloaded is gone. -/
def UnloadsWhole (planet : World) (e : Entry Topology MoonEvent (Except ProtocolError Bool)) : Prop :=
  ∀ moonId, e.event = .unloadMoon moonId → e.output = .ok true → MoonGone planet moonId e.after

/-- A call unloads no id under which more than one moon is loaded. -/
def UnloadsOne (e : Entry Topology MoonEvent (Except ProtocolError Bool)) : Prop :=
  ∀ moonId, e.event = .unloadMoon moonId → e.before.moons.countP (·.id = moonId) ≤ 1

/-- The first one removed was the only one. -/
theorem forall_mem_eraseP_iff {moons : List World} {moonId : UInt64} :
    (∀ moon ∈ moons.eraseP (·.id = moonId), moon.id ≠ moonId) ↔ moons.countP (·.id = moonId) ≤ 1 := by
  induction moons with
  | nil => simp
  | cons m rest ih =>
    by_cases hm : m.id = moonId
    · have hnone : rest.countP (·.id = moonId) + 1 ≤ 1 ↔ rest.countP (·.id = moonId) = 0 := by omega
      rw [List.eraseP_cons_of_pos (by simpa using hm), List.countP_cons_of_pos (by simpa using hm), hnone,
        List.countP_eq_zero]
      simp only [decide_eq_true_eq, ne_eq]
    · rw [List.eraseP_cons_of_neg (by simpa using hm), List.countP_cons_of_neg (by simpa using hm), ← ih,
        List.forall_mem_cons, and_iff_right hm]

/-- Without a moon of that id, the roots are those of the planet and of the others. -/
theorem RootSet.moonGone_iff (h : RootSet planet t) (moonId : UInt64) :
    MoonGone planet moonId t ↔ ∀ moon ∈ t.moons, moon.id ≠ moonId := by
  refine and_iff_left_of_imp fun hgone a ha => ?_
  rcases (h.exact a).mp ha with hplanet | ⟨moon, hmoon, hroot⟩
  · exact .inl hplanet
  · exact .inr ⟨moon, hmoon, hgone moon hmoon, hroot⟩

/-- A call unloads all of a moon exactly if there is no other one with its id. -/
theorem RootSet.unloadsWhole_iff {e : Entry Topology MoonEvent (Except ProtocolError Bool)} (h : RootSet planet e.before)
    (hstep : e.before.moonStep pr e.event = .ok (e.after, e.output)) : UnloadsWhole planet e ↔ UnloadsOne e := by
  refine forall_congr' fun moonId => imp_congr_right fun hevent => ?_
  rw [hevent] at hstep
  obtain ⟨hafter, houtput⟩ := Prod.mk.inj (Except.ok.inj hstep)
  obtain ⟨hroots, hmoons⟩ := h.unloadMoon moonId
  rw [hafter] at hroots hmoons
  rw [hroots.moonGone_iff, hmoons, forall_mem_eraseP_iff]
  refine ⟨fun hwhole => ?_, fun hone _ => hone⟩
  rcases e.before.unloadMoon_cases moonId with ⟨hnone, -⟩ | ⟨moon, -, hunload⟩
  · have hzero : e.before.moons.countP (·.id = moonId) = 0 := by
      rw [List.countP_eq_zero]
      exact List.find?_eq_none.mp hnone
    exact hzero.le.trans (Nat.zero_le 1)
  · refine hwhole ?_
    rw [← houtput, hunload]

/-- From a topology that loaded its planet, whatever moons are loaded and unloaded: every
moon that is unloaded is gone with its roots, exactly if at most one moon was loaded under
its id each time. -/
theorem run_unloadsWhole_iff (pr : Primitives) (planet : World) (peers : SortedMap (ByteVec 5) Peer)
    (pendingWhois : SortedMap (ByteVec 5) (UInt64 × UInt64)) (t : Topology)
    (calls : List (Entry Topology MoonEvent (Except ProtocolError Bool)))
    (hrun : Run (moonStep pr) (({ new with peers, pendingWhois } : Topology).loadPlanet planet) calls t) :
    (∀ e ∈ calls, UnloadsWhole planet e) ↔ ∀ e ∈ calls, UnloadsOne e := by
  have hall : ∀ e ∈ calls, (UnloadsWhole planet e ↔ UnloadsOne e) :=
    hrun.forall_entries (RootSet planet) (fun _ => True) (fun e => UnloadsWhole planet e ↔ UnloadsOne e)
      (fun e hstep _ hbefore => ⟨(hbefore.step hstep).1, hbefore.unloadsWhole_iff hstep⟩)
      (rootSet_loadPlanet planet peers pendingWhois) fun _ _ => trivial
  exact forall₂_congr hall

/-- A moon is loaded and unloaded. -/
theorem run_unloadsWhole_moon : ∃ (t : Topology) (calls : List (Entry Topology MoonEvent (Except ProtocolError Bool))),
    Run (moonStep Sample.primitives) (new.loadPlanet Sample.planet) calls t ∧
      calls.map (·.output) = [.ok true, .ok true] ∧ ∀ e ∈ calls, UnloadsWhole Sample.planet e := by
  have hcheck : okWith (runAll (moonStep Sample.primitives) (new.loadPlanet Sample.planet)
      [.loadMoon sampleMoon, .unloadMoon 7]) (fun r => r.1.map (·.output) = [.ok true, .ok true] ∧
        ∀ e ∈ r.1, e.before.moons.length ≤ 1) = true := by
    decide +kernel
  obtain ⟨⟨calls, t⟩, hcalls, hfound⟩ := exists_of_okWith hcheck
  obtain ⟨houtputs, hfew⟩ := of_decide_eq_true hfound
  have hrun := run_runAll hcalls
  refine ⟨t, calls, hrun, houtputs, ?_⟩
  refine (run_unloadsWhole_iff Sample.primitives Sample.planet new.peers new.pendingWhois t calls hrun).mpr ?_
  exact fun e he _ _ => List.countP_le_length.trans (hfew e he)

/-- The same moon is loaded twice and unloaded once: one of the two stays, and a root of
its own with it. -/
theorem unloadsWhole_twice :
    ¬ ∀ (pr : Primitives) (planet : World) (peers : SortedMap (ByteVec 5) Peer)
      (pendingWhois : SortedMap (ByteVec 5) (UInt64 × UInt64)) (t : Topology)
      (calls : List (Entry Topology MoonEvent (Except ProtocolError Bool))),
      Run (moonStep pr) (({ new with peers, pendingWhois } : Topology).loadPlanet planet) calls t →
        ∀ e ∈ calls, UnloadsWhole planet e := by
  intro h
  have hcheck : okWith (runAll (moonStep Sample.primitives) (new.loadPlanet Sample.planet)
      [.loadMoon sampleMoon, .loadMoon sampleMoon]) (fun r => (r.2.unloadMoon 7).2 = true ∧
        ∃ moon ∈ (r.2.unloadMoon 7).1.moons, moon.id = 7) = true := by
    decide +kernel
  obtain ⟨⟨calls, t⟩, hcalls, hfound⟩ := exists_of_okWith hcheck
  obtain ⟨htrue, moon, hmoon, hid⟩ := of_decide_eq_true hfound
  have hunload : t.moonStep Sample.primitives (.unloadMoon 7) = .ok ((t.unloadMoon 7).1, .ok (t.unloadMoon 7).2) := rfl
  have hgone := h Sample.primitives Sample.planet new.peers new.pendingWhois _ _ ((run_runAll hcalls).snoc hunload) _
    (List.mem_append_right _ List.mem_cons_self) 7 rfl (congrArg Except.ok htrue)
  exact hgone.1 moon hmoon hid

/-! ### Worlds of any size -/

theorem verifySignature_returns_iff (pr : Primitives) (w : World) :
    (∃ result, w.verifySignature pr = .ok result) ↔
      pr.ed25519Point (fieldAt 32 w.signingKey.toBytes 32) = false ∨ w.signedSize ≤ World.signingBufferSize := by
  unfold World.verifySignature
  dsimp only
  rw [World.length_signedPortion_eq]
  cases hpoint : pr.ed25519Point (fieldAt 32 w.signingKey.toBytes 32) with
  | false => exact iff_of_true ⟨_, rfl⟩ (.inl rfl)
  | true =>
    simp only [Bool.not_true, Bool.false_eq_true, if_false, Bool.true_eq_false, false_or]
    split
    · rename_i hlarge
      exact iff_of_false (by simp) (Nat.not_le.mpr hlarge)
    · rename_i hfits
      refine iff_of_true ?_ (Nat.not_lt.mp hfits)
      split <;> exact ⟨_, rfl⟩

/-- Whatever file is accepted as a world, its signature is checked, and a moon loaded or
refused, without writing past the buffer exactly if its key is refused before that, it is
no moon, or what it lists and its dictionary fit the buffer. -/
theorem loadMoon_returns_iff (pr : Primitives) (data : Bytes) (w : World) (haccepted : World.deserialize data = .ok w) :
    ((∃ result, w.verifySignature pr = .ok result) ∧ ∀ t : Topology, ∃ result, t.loadMoon pr w = .ok result) ↔
      pr.ed25519Point (fieldAt 32 w.signingKey.toBytes 32) = false ∨ w.worldType ≠ .moon ∨
        w.signedSize ≤ World.signingBufferSize := by
  have hload : (∃ result, w.verifySignature pr = .ok result) →
      ∀ t : Topology, ∃ result, t.loadMoon pr w = .ok result := by
    rintro ⟨result, hverified⟩ t
    unfold loadMoon
    rw [hverified]
    cases result <;> exact ⟨_, rfl⟩
  have hsmall : w.worldType ≠ .moon → w.signedSize ≤ World.signingBufferSize := by
    intro hmoon
    have hbound := World.length_signedPortion_le (World.deserialize_fits haccepted)
    rw [World.length_signedPortion_eq, World.serializeDict, if_neg hmoon] at hbound
    exact hbound.trans (by decide)
  rw [and_iff_left_of_imp hload, verifySignature_returns_iff]
  exact or_congr_right ⟨.inr, fun h => h.elim hsmall id⟩

/-- The sample planet's own file. -/
theorem loadMoon_returns_planet :
    ∃ w, World.deserialize Sample.planet.serialize = .ok w ∧
      ∃ result, w.verifySignature Sample.primitives = .ok result := by
  have hread := World.deserialize_serialize Sample.planet ⟨by decide, by decide, by decide⟩
  exact ⟨_, hread, ((loadMoon_returns_iff Sample.primitives _ _ hread).mpr (.inr (.inl (by decide)))).1⟩

/-- A moon without roots and with a dictionary of 4013 bytes. -/
theorem loadMoon_overflows :
    ¬ ∀ (pr : Primitives) (data : Bytes) (w : World), World.deserialize data = .ok w →
      (∃ result, w.verifySignature pr = .ok result) ∧ ∀ t : Topology, ∃ result, t.loadMoon pr w = .ok result := by
  intro h
  let moon : World := { sampleMoon with roots := [], dictData := some (List.replicate 4013 0) }
  have hfits : moon.Fits := by
    refine ⟨Nat.zero_le _, fun r hr => (nomatch hr), fun dict hdict => ⟨rfl, ?_⟩⟩
    cases hdict
    rw [List.length_replicate]
    decide
  have hread := World.deserialize_serialize moon hfits
  have hreturns := (verifySignature_returns_iff Sample.primitives moon.published).mp (h _ _ _ hread).1
  rcases hreturns with hkey | hsize
  · cases hkey
  · have hdict : (moon.published.dictData.getD []).length = 4013 := List.length_replicate
    rw [World.signedSize, if_pos (show moon.published.worldType = .moon from rfl), hdict] at hsize
    exact absurd hsize (by decide)

end Topology

end ManyTier
