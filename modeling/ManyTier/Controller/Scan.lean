import ManyTier.Controller.Dictionary
import ManyTier.Lib.Buffer

/-! The dictionary parser on its buffer.

`Dictionary.deserialize` reads a list from the front. The parser itself keeps a
position in a buffer and looks bytes up there, and a position outside the buffer is a
panic. `deserializeAt_eq`: on every byte string it comes to an end, looks nothing up
outside, and returns what `deserialize` returns. -/
namespace ManyTier

namespace Dictionary

/-! ### The loops -/

/-- From `pos` on while the bytes are such. -/
def skipAt (p : UInt8 → Bool) (data : Bytes) : Nat → Nat → Except Fault Nat
  | 0, _ => .error .outOfFuel
  | fuel + 1, pos =>
    if pos < data.length then do
      let b ← indexAt data pos
      if p b then skipAt p data fuel (pos + 1) else .ok pos
    else .ok pos

/-- The value that starts at `pos`, after what was read of it, and where its line ends. -/
def valueAt (data : Bytes) : Nat → Nat → Bytes → Bool → Except Fault (Bytes × Nat)
  | 0, _, _, _ => .error .outOfFuel
  | fuel + 1, pos, value, escape =>
    if pos < data.length then do
      let byte ← indexAt data pos
      if escape then valueAt data fuel (pos + 1) (value ++ [unescapeByte byte]) false
      else if byte = backslash then valueAt data fuel (pos + 1) value true
      else if isNewline byte then .ok (value, pos)
      else valueAt data fuel (pos + 1) (value ++ [byte]) false
    else .ok (value, pos)

/-- Past the line end at `pos`, if there is one. -/
def lineEndAt (data : Bytes) (pos : Nat) : Except Fault Nat :=
  if pos < data.length then do
    let b ← indexAt data pos
    if b = cr then
      if pos + 1 < data.length then do
        let b ← indexAt data (pos + 1)
        if b = lf then .ok (pos + 2) else .ok (pos + 1)
      else .ok (pos + 1)
    else .ok (pos + 1)
  else .ok pos

/-- The entries from `pos` on, after those read before. Every loop inside takes at most
one turn for each byte, and one to stop. -/
def entriesAt (data : Bytes) : Nat → Nat → Dictionary → Except Fault (Except DictionaryError Dictionary)
  | 0, _, _ => .error .outOfFuel
  | fuel + 1, pos, entries =>
    if pos < data.length then do
      let keyStart ← skipAt isNewline data (data.length + 1) pos
      if data.length ≤ keyStart then return .ok entries
      let pos ← skipAt (fun b => ! (b = equals ∨ isNewline b)) data (data.length + 1) keyStart
      if data.length ≤ pos then return .error .missingEquals
      let b ← indexAt data pos
      if b ≠ equals then return .error .missingEquals
      let key ← sliceAt data keyStart pos
      if h : isUtf8 key = true then
        let (value, pos) ← valueAt data (data.length + 1) (pos + 1) [] false
        let pos ← lineEndAt data pos
        entriesAt data fuel pos (entries ++ [⟨⟨key, h⟩, value⟩])
      else return .error .invalidKey
    else return .ok entries

def deserializeAt (data : Bytes) : Except Fault (Except DictionaryError Dictionary) :=
  entriesAt data (data.length + 1) 0 []

/-! ### What the loops return -/

theorem skipAt_eq (p : UInt8 → Bool) (data : Bytes) (fuel pos : Nat) (hpos : pos ≤ data.length)
    (hfuel : data.length < pos + fuel) :
    skipAt p data fuel pos = .ok (pos + ((data.drop pos).takeWhile p).length) := by
  induction fuel generalizing pos with
  | zero => omega
  | succ fuel ih =>
    unfold skipAt
    by_cases hinside : pos < data.length
    · obtain ⟨b, hdrop⟩ := drop_pos hinside
      rw [if_pos hinside, indexAt_drop hdrop, hdrop, List.takeWhile_cons, ok_bind]
      by_cases hb : p b = true
      · rw [if_pos hb, if_pos hb, ih (pos + 1) (by omega) (by omega), List.length_cons]
        congr 1
        omega
      · simp [hb]
    · rw [if_neg hinside, List.drop_eq_nil_of_le (by omega)]
      simp

/-- A value read at a position is the value at the front of what is left there. -/
theorem valueAt_eq (data : Bytes) (fuel pos : Nat) (value : Bytes) (hpos : pos ≤ data.length)
    (hfuel : data.length < pos + fuel) :
    ∃ stop, valueAt data fuel pos value false = .ok (value ++ (readValue (data.drop pos)).1, stop) ∧
      pos ≤ stop ∧ stop ≤ data.length ∧ data.drop stop = (readValue (data.drop pos)).2 := by
  induction fuel using Nat.strong_induction_on generalizing pos value with
  | _ fuel ih =>
    obtain ⟨fuel, rfl⟩ : ∃ f, fuel = f + 1 := ⟨fuel - 1, by omega⟩
    unfold valueAt
    by_cases hinside : pos < data.length
    · obtain ⟨b, hdrop⟩ := drop_pos hinside
      rw [if_pos hinside, indexAt_drop hdrop, hdrop, ok_bind, if_neg (by simp)]
      by_cases hb : b = backslash
      · rw [if_pos hb]
        -- The backslash is read with the byte behind it, if there is one.
        obtain ⟨fuel, rfl⟩ : ∃ f, fuel = f + 1 := ⟨fuel - 1, by omega⟩
        unfold valueAt
        by_cases hnext : pos + 1 < data.length
        · obtain ⟨c, hdrop'⟩ := drop_pos hnext
          rw [if_pos hnext, indexAt_drop hdrop', hdrop', ok_bind, if_pos rfl]
          obtain ⟨stop, hvalue, hle, hstop, hrest⟩ :=
            ih fuel (by omega) (pos + 1 + 1) (value ++ [unescapeByte c]) (by omega) (by omega)
          have hread : readValue (b :: c :: data.drop (pos + 1 + 1)) =
              (unescapeByte c :: (readValue (data.drop (pos + 1 + 1))).1,
                (readValue (data.drop (pos + 1 + 1))).2) := by
            simp [readValue, hb]
          rw [hread]
          exact ⟨stop, by rw [hvalue]; simp, by omega, hstop, hrest⟩
        · have hlast : data.drop (pos + 1) = [] := List.drop_eq_nil_of_le (by omega)
          rw [if_neg hnext, hlast]
          exact ⟨pos + 1, by simp [readValue, hb], by omega, by omega, by simp [readValue, hb, hlast]⟩
      · rw [if_neg hb]
        by_cases hnewline : isNewline b = true
        · rw [if_pos hnewline]
          have hread : readValue (b :: data.drop (pos + 1)) = ([], b :: data.drop (pos + 1)) := by
            cases data.drop (pos + 1) <;> simp [readValue, hb, hnewline]
          rw [hread]
          exact ⟨pos, by simp, by omega, by omega, hdrop⟩
        · rw [if_neg hnewline]
          obtain ⟨stop, hvalue, hle, hstop, hrest⟩ :=
            ih fuel (by omega) (pos + 1) (value ++ [b]) (by omega) (by omega)
          rw [readValue_plain b _ hb (by simpa using hnewline)]
          exact ⟨stop, by rw [hvalue]; simp, by omega, hstop, hrest⟩
    · have hnone : data.drop pos = [] := List.drop_eq_nil_of_le (by omega)
      rw [if_neg hinside, hnone]
      exact ⟨pos, by simp [readValue], by omega, by omega, by simp [readValue, hnone]⟩

theorem lineEndAt_eq (data : Bytes) (pos : Nat) (hpos : pos ≤ data.length) :
    ∃ next, lineEndAt data pos = .ok next ∧ pos ≤ next ∧ next ≤ data.length ∧
      data.drop next = skipLineEnd (data.drop pos) := by
  unfold lineEndAt
  by_cases hinside : pos < data.length
  · obtain ⟨b, hdrop⟩ := drop_pos hinside
    rw [if_pos hinside, indexAt_drop hdrop, hdrop, ok_bind]
    by_cases hb : b = cr
    · rw [if_pos hb]
      by_cases hnext : pos + 1 < data.length
      · obtain ⟨c, hdrop'⟩ := drop_pos hnext
        rw [if_pos hnext, indexAt_drop hdrop', hdrop', ok_bind]
        by_cases hc : c = lf
        · subst hb hc
          exact ⟨pos + 2, by simp, by omega, by omega, rfl⟩
        · rw [if_neg hc]
          refine ⟨pos + 1, rfl, by omega, by omega, ?_⟩
          rw [hdrop', skipLineEnd.eq_2]
          rintro rest - heq
          exact hc (List.cons.inj heq).1
      · rw [if_neg hnext]
        refine ⟨pos + 1, rfl, by omega, by omega, ?_⟩
        rw [List.drop_eq_nil_of_le (by omega : data.length ≤ pos + 1), hb]
        rfl
    · rw [if_neg hb]
      refine ⟨pos + 1, rfl, by omega, by omega, ?_⟩
      rw [skipLineEnd.eq_2]
      rintro rest hcr -
      exact hb hcr
  · rw [if_neg hinside, List.drop_eq_nil_of_le (by omega)]
    exact ⟨pos, rfl, by omega, hpos, List.drop_eq_nil_of_le (by omega)⟩

theorem drop_length_takeWhile (p : UInt8 → Bool) (l : Bytes) :
    l.drop (l.takeWhile p).length = l.dropWhile p := by
  have hsplit : l.takeWhile p ++ l.dropWhile p = l := List.takeWhile_append_dropWhile
  calc l.drop (l.takeWhile p).length
      = (l.takeWhile p ++ l.dropWhile p).drop (l.takeWhile p).length := by rw [hsplit]
    _ = l.dropWhile p := List.drop_left' rfl

/-- A list read at the front, after the entries read before it. -/
def after (entries : Dictionary) (r : Except DictionaryError Dictionary) : Except DictionaryError Dictionary :=
  match r with
  | .ok rest => .ok (entries ++ rest)
  | .error e => .error e

/-- The entries from a position on are those at the front of what is left there. -/
theorem entriesAt_eq (data : Bytes) (fuel pos k : Nat) (entries : Dictionary) (hpos : pos ≤ data.length)
    (hfuel : data.length < pos + fuel) (hk : data.length ≤ pos + k) :
    entriesAt data fuel pos entries = .ok (after entries (entriesOf k (data.drop pos))) := by
  induction fuel generalizing pos k entries with
  | zero => omega
  | succ fuel ih =>
    unfold entriesAt
    by_cases hinside : pos < data.length
    · obtain ⟨k, rfl⟩ : ∃ j, k = j + 1 := ⟨k - 1, by omega⟩
      rw [if_pos hinside, skipAt_eq _ _ _ _ hpos (by omega), ok_bind, entriesOf]
      set line := (data.drop pos).dropWhile isNewline with hline
      set keyStart := pos + ((data.drop pos).takeWhile isNewline).length with hkeyStart
      have hstart : data.drop keyStart = line := by
        rw [hkeyStart, ← List.drop_drop, drop_length_takeWhile]
      by_cases hend : data.length ≤ keyStart
      · have hnone : line = [] := by rw [← hstart, List.drop_eq_nil_of_le hend]
        simp [hend, hnone, after, pure, Except.pure]
      · have hsome : line ≠ [] := by rw [← hstart]; simpa using hend
        simp only [if_neg hend, List.isEmpty_iff, if_neg hsome]
        rw [skipAt_eq _ _ _ _ (by omega) (by omega), ok_bind, hstart]
        set key := line.takeWhile fun b => ! (b = equals ∨ isNewline b) with hkey
        have hdrop : data.drop (keyStart + key.length) = line.drop key.length := by
          rw [← List.drop_drop, hstart]
        by_cases hstop : data.length ≤ keyStart + key.length
        · rw [if_pos hstop, ← hdrop, List.drop_eq_nil_of_le hstop]
          rfl
        · obtain ⟨b, hcons⟩ := drop_pos (Nat.lt_of_not_le hstop)
          rw [if_neg hstop, indexAt_drop hcons, ok_bind, ← hdrop, hcons]
          simp only
          by_cases hb : b = equals
          · have hslice : sliceAt data keyStart (keyStart + key.length) = .ok key := by
              have hparsed : line.take key.length = key :=
                (List.prefix_iff_eq_take.mp (List.takeWhile_prefix _)).symm
              rw [sliceAt, if_pos ⟨by omega, by omega⟩, List.drop_take, hstart]
              simp [hparsed]
            rw [if_neg (by simp [hb]), hslice, ok_bind, if_neg (by simp [hb])]
            by_cases hutf8 : isUtf8 key = true
            · obtain ⟨stop, hvalue, hle, hstop', hrest⟩ := valueAt_eq data (data.length + 1)
                (keyStart + key.length + 1) [] (by omega) (by omega)
              obtain ⟨next, hnext, hle', hnext', hskip⟩ := lineEndAt_eq data stop hstop'
              rw [dif_pos hutf8, dif_pos hutf8, hvalue, ok_bind, hnext, ok_bind,
                ih next k _ hnext' (by omega) (by omega), hskip, hrest]
              cases entriesOf k (skipLineEnd (readValue (data.drop (keyStart + key.length + 1))).2) with
              | ok rest => simp [after]
              | error e => rfl
            · rw [dif_neg hutf8, dif_neg hutf8]
              rfl
          · rw [if_pos (by simp [hb]), if_pos (by simp [hb])]
            rfl
    · rw [if_neg hinside, List.drop_eq_nil_of_le (by omega)]
      cases k <;> simp [entriesOf, after, pure, Except.pure]

/-- On every byte string the parser ends, stays inside its buffer, and returns what
`deserialize` does. -/
theorem deserializeAt_eq (data : Bytes) : deserializeAt data = .ok (deserialize data) := by
  rw [deserializeAt, entriesAt_eq data _ 0 data.length [] (by omega) (by omega) (by omega), deserialize,
    List.drop_zero]
  cases entriesOf data.length data <;> simp [after]

/-! ### Lossless -/

theorem zero_notMem_escapeByte (b : UInt8) : 0 ∉ escapeByte b := by
  unfold escapeByte
  split
  · decide
  · split
    · decide
    · split
      · decide
      · split
        · decide
        · split
          · decide
          · rename_i hzero _ _ _ _
            simpa using fun h => hzero h.symm

theorem zero_notMem_serialize (d : Dictionary) (hkeys : ∀ e ∈ d, 0 ∉ e.key.bytes) : 0 ∉ serialize d := by
  have hentry : ∀ e ∈ d, 0 ∉ serializeEntry e := by
    intro e he
    simp only [serializeEntry, List.mem_append, List.mem_cons, List.mem_flatMap, not_or, not_exists]
    exact ⟨hkeys e he, by decide, fun b hb => zero_notMem_escapeByte b hb.2⟩
  induction d with
  | nil => simp [serialize]
  | cons e rest ih =>
    obtain ⟨hfirst, hothers⟩ := List.forall_mem_cons.mp hentry
    cases rest with
    | nil => exact hfirst
    | cons e' rest =>
      simp only [serialize, List.mem_append, List.mem_cons, not_or]
      exact ⟨hfirst, by decide, ih (fun x hx => hkeys x (List.mem_cons_of_mem _ hx)) hothers⟩

/-- Entries whose keys have none of the separators are read back as they were written,
what is written has no zero byte, and no byte string leads the parser outside its
buffer. -/
theorem dictionary_lossless (d : Dictionary)
    (hkeys : ∀ e ∈ d, ∀ b ∈ e.key.bytes, b ≠ equals ∧ b ≠ cr ∧ b ≠ lf ∧ b ≠ 0) :
    deserializeAt (serialize d) = .ok (.ok d) ∧ 0 ∉ serialize d ∧
      ∀ data, ∃ r, deserializeAt data = .ok r := by
  have hplain : PlainKeys d := by
    intro e he b hb
    obtain ⟨hequals, hcr, hlf, -⟩ := hkeys e he b hb
    exact ⟨hequals, by simp [isNewline, hcr, hlf]⟩
  refine ⟨?_, ?_, fun data => ⟨_, deserializeAt_eq data⟩⟩
  · rw [deserializeAt_eq, deserialize_serialize d hplain]
  · exact zero_notMem_serialize d fun e he hzero => (hkeys e he 0 hzero).2.2.2 rfl

/-- A value of the bytes that are escaped, and of those their escapes are made of. -/
theorem dictionary_lossless_escapes :
    deserializeAt (serialize [⟨⟨[0x52, 0x54], by decide⟩, [0, 0x0d, 0x0a, 0x5c, 0x3d, 0x5c, 0x30, 0x6e]⟩]) =
      .ok (.ok [⟨⟨[0x52, 0x54], by decide⟩, [0, 0x0d, 0x0a, 0x5c, 0x3d, 0x5c, 0x30, 0x6e]⟩]) :=
  (dictionary_lossless _ (by decide +kernel)).1

end Dictionary

end ManyTier
