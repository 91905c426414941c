import ManyTier.Lib.Text

/-! The dictionary format of network configurations: lines of `key=value`, with the
bytes that have a meaning escaped in values. `deserialize_serialize` is the round trip
for entries whose keys contain none of the separators. -/
namespace ManyTier

structure DictEntry where
  key : Text
  value : Bytes
  deriving DecidableEq

abbrev Dictionary := List DictEntry

inductive DictionaryError where
  | invalidKey
  | missingEquals
  deriving Repr, DecidableEq

namespace Dictionary

def cr : UInt8 := 0x0d
def lf : UInt8 := 0x0a
def equals : UInt8 := 0x3d
def backslash : UInt8 := 0x5c

def addBinary (d : Dictionary) (key : Text) (data : Bytes) : Dictionary := d ++ [⟨key, data⟩]

def escapeByte (b : UInt8) : Bytes :=
  if b = 0 then [backslash, 0x30]
  else if b = cr then [backslash, 0x72]
  else if b = lf then [backslash, 0x6e]
  else if b = backslash then [backslash, backslash]
  else if b = equals then [backslash, 0x65]
  else [b]

def serializeEntry (e : DictEntry) : Bytes := e.key.bytes ++ equals :: e.value.flatMap escapeByte

/-- Entries separated by newlines. -/
def serialize : Dictionary → Bytes
  | [] => []
  | [e] => serializeEntry e
  | e :: rest => serializeEntry e ++ lf :: serialize rest

/-! ### Reading -/

def isNewline (b : UInt8) : Bool := b = cr ∨ b = lf

def unescapeByte (b : UInt8) : UInt8 :=
  if b = 0x72 then cr else if b = 0x6e then lf else if b = 0x30 then 0
  else if b = 0x65 then equals else b

/-- A value up to the end of its line, and what follows it. -/
def readValue : Bytes → Bytes × Bytes
  | [] => ([], [])
  | [b] => if b = backslash then ([], []) else if isNewline b then ([], [b]) else ([b], [])
  | b :: c :: rest =>
    if b = backslash then
      let (value, rest) := readValue rest
      (unescapeByte c :: value, rest)
    else if isNewline b then ([], b :: c :: rest)
    else
      let (value, rest) := readValue (c :: rest)
      (b :: value, rest)

/-- Past one line end, which may be two characters. -/
def skipLineEnd : Bytes → Bytes
  | 0x0d :: 0x0a :: rest => rest
  | _ :: rest => rest
  | [] => []

/-- The entries of `data`, at most `fuel` of them; each takes at least one byte. -/
def entriesOf : Nat → Bytes → Except DictionaryError Dictionary
  | 0, _ => .ok []
  | fuel + 1, data =>
    let data := data.dropWhile isNewline
    if data.isEmpty then .ok []
    else
      let key := data.takeWhile fun b => ! (b = equals ∨ isNewline b)
      match data.drop key.length with
      | [] => .error .missingEquals
      | b :: rest =>
        if b ≠ equals then .error .missingEquals
        else if h : isUtf8 key = true then
          match entriesOf fuel (skipLineEnd (readValue rest).2) with
          | .ok entries => .ok (⟨⟨key, h⟩, (readValue rest).1⟩ :: entries)
          | .error e => .error e
        else .error .invalidKey

def deserialize (data : Bytes) : Except DictionaryError Dictionary := entriesOf data.length data

def getBinary (d : Dictionary) (key : Text) : Option Bytes :=
  (d.find? fun e => e.key = key).map DictEntry.value

/-- The value of the first entry with the key, if it is text. -/
def getText (d : Dictionary) (key : Text) : Option Bytes :=
  (d.getBinary key).filter isUtf8

def getHexU64 (d : Dictionary) (key : Text) : Option UInt64 := (d.getText key).bind parseHexU64

/-! ### The round trip -/

/-- Keys that do not contain what separates entries. -/
def PlainKeys (d : Dictionary) : Prop := ∀ e ∈ d, ∀ b ∈ e.key.bytes, b ≠ equals ∧ isNewline b = false

theorem readValue_plain (b : UInt8) (s : Bytes) (hb : b ≠ backslash) (hn : isNewline b = false) :
    readValue (b :: s) = (b :: (readValue s).1, (readValue s).2) := by
  cases s with
  | nil => simp [readValue, hb, hn]
  | cons c rest => simp [readValue, hb, hn]

/-- One escaped byte is one byte of the value. -/
theorem readValue_escape (b : UInt8) (s : Bytes) :
    readValue (escapeByte b ++ s) = (b :: (readValue s).1, (readValue s).2) := by
  unfold escapeByte
  split
  · subst b; rfl
  · split
    · subst b; rfl
    · split
      · subst b; rfl
      · split
        · subst b; rfl
        · split
          · subst b; rfl
          · rename_i hcr hlf hbs _
            exact readValue_plain b s hbs (by simp [isNewline, hcr, hlf])

theorem readValue_line (value rest : Bytes)
    (hrest : rest = [] ∨ ∃ b r, rest = b :: r ∧ isNewline b = true ∧ b ≠ backslash) :
    readValue (value.flatMap escapeByte ++ rest) = (value, rest) := by
  induction value with
  | nil =>
    rcases hrest with rfl | ⟨b, r, rfl, hn, hb⟩
    · rfl
    · cases r <;> simp [readValue, hb, hn]
  | cons b value ih =>
    rw [List.flatMap_cons, List.append_assoc, readValue_escape, ih]

theorem takeWhile_key (key rest : Bytes) (hkey : ∀ b ∈ key, b ≠ equals ∧ isNewline b = false) :
    (key ++ equals :: rest).takeWhile (fun b => ! (b = equals ∨ isNewline b)) = key := by
  rw [List.takeWhile_append_of_pos]
  · simp
  · intro b hb
    simp [hkey b hb]

/-- A line starts with a key or the separator, so it is not taken for a line end. -/
theorem dropWhile_line (key rest : Bytes) (hkey : ∀ b ∈ key, b ≠ equals ∧ isNewline b = false) :
    (key ++ equals :: rest).dropWhile isNewline = key ++ equals :: rest := by
  cases key with
  | nil => rfl
  | cons b key => simp [(hkey b List.mem_cons_self).2]

/-- Reading one line and then the rest. -/
theorem entriesOf_line (fuel : Nat) (e : DictEntry) (rest : Bytes)
    (hkey : ∀ b ∈ e.key.bytes, b ≠ equals ∧ isNewline b = false)
    (hrest : rest = [] ∨ ∃ b r, rest = b :: r ∧ isNewline b = true ∧ b ≠ backslash) :
    entriesOf (fuel + 1) (serializeEntry e ++ rest) =
      match entriesOf fuel (skipLineEnd rest) with
      | .ok entries => .ok (e :: entries)
      | .error err => .error err := by
  have hline : serializeEntry e ++ rest =
      e.key.bytes ++ equals :: (e.value.flatMap escapeByte ++ rest) := by
    simp [serializeEntry]
  have hdrop : (e.key.bytes ++ equals :: (e.value.flatMap escapeByte ++ rest)).drop
      e.key.bytes.length = equals :: (e.value.flatMap escapeByte ++ rest) := List.drop_left
  have hnonempty : (e.key.bytes ++ equals :: (e.value.flatMap escapeByte ++ rest)).isEmpty = false := by
    simp
  rw [hline, entriesOf]
  simp only [dropWhile_line _ _ hkey, hnonempty, takeWhile_key _ _ hkey, hdrop, readValue_line _ _ hrest,
    ne_eq, not_true_eq_false, if_false, e.key.utf8, dif_pos, Bool.false_eq_true]

theorem length_le_serialize (d : Dictionary) : d.length ≤ (serialize d).length := by
  induction d with
  | nil => exact Nat.le_refl _
  | cons e rest ih =>
    cases rest with
    | nil => simp [serialize, serializeEntry]; omega
    | cons e' rest =>
      simp only [serialize, serializeEntry, List.length_append, List.length_cons] at ih ⊢
      omega

theorem entriesOf_serialize (d : Dictionary) (fuel : Nat) (hd : PlainKeys d) (hfuel : d.length ≤ fuel) :
    entriesOf fuel (serialize d) = .ok d := by
  induction d generalizing fuel with
  | nil => cases fuel <;> rfl
  | cons e rest ih =>
    obtain ⟨fuel, rfl⟩ : ∃ f, fuel = f + 1 := ⟨fuel - 1, by simp at hfuel; omega⟩
    obtain ⟨hkey, hrest⟩ := List.forall_mem_cons.mp hd
    have hlen : rest.length ≤ fuel := by simpa using hfuel
    cases rest with
    | nil =>
      have hone := entriesOf_line fuel e [] hkey (.inl rfl)
      have hnone : entriesOf fuel (skipLineEnd []) = .ok [] := by cases fuel <;> rfl
      rw [hnone] at hone
      simpa [serialize] using hone
    | cons e' rest =>
      have hsep : (lf :: serialize (e' :: rest) : Bytes) = [] ∨
          ∃ b r, (lf :: serialize (e' :: rest) : Bytes) = b :: r ∧ isNewline b = true ∧ b ≠ backslash :=
        .inr ⟨lf, _, rfl, by decide, by decide⟩
      have hline := entriesOf_line fuel e (lf :: serialize (e' :: rest)) hkey hsep
      have hskip : skipLineEnd (lf :: serialize (e' :: rest)) = serialize (e' :: rest) := rfl
      rw [hskip, ih fuel hrest hlen] at hline
      exact hline

/-- What was serialized is read back, entry by entry. -/
theorem deserialize_serialize (d : Dictionary) (hd : PlainKeys d) : deserialize (serialize d) = .ok d :=
  entriesOf_serialize d _ hd (length_le_serialize d)

end Dictionary

end ManyTier
