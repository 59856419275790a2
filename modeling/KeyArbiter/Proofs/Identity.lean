import KeyArbiter.Key.Table
import Mathlib

/-!
# Which keys are the same

The tables take scan codes to physical keys and key symbols to logical keys. Two scan codes are never
the same physical key. Two key symbols are the same logical key only where the tables mean it: under
one name, or as one character in two cases. The plane of a word tells what its symbol was taken for.
-/

namespace KeyArbiter

/-! ## Looking a table up -/

section Table

variable {α β : Type} [BEq α] [LawfulBEq α] {table : List (α × β)} {key : α} {value : β}

theorem find?_row_cases (table : List (α × β)) (key : α) :
    (∃ value, table.find? (·.1 == key) = some (key, value)) ∨
      table.find? (·.1 == key) = none := by
  cases found : table.find? (·.1 == key) with
  | none => exact .inr rfl
  | some row =>
    have same : row.1 = key := by simpa using List.find?_some found
    exact .inl ⟨row.2, by rw [← same]⟩

theorem find?_row_none (none : table.find? (·.1 == key) = none) : (key, value) ∉ table := by
  intro mem
  simpa using List.find?_eq_none.1 none _ mem

theorem find?_row (distinct : (table.map (·.1)).Nodup) (mem : (key, value) ∈ table) :
    table.find? (·.1 == key) = some (key, value) := by
  rcases find?_row_cases table key with ⟨value', found⟩ | none
  · have mem' := List.mem_of_find?_eq_some found
    rw [found, List.inj_on_of_nodup_map distinct mem' mem rfl]
  · exact absurd mem (find?_row_none none)

end Table

/-! ## Planes -/

namespace Plane

/-- The high half of a word. -/
def of (word : UInt64) : Nat := word.toNat >>> 32

theorem of_or (a b : UInt64) : of (a ||| b) = of a ||| of b := by
  simp only [of, UInt64.toNat_or, Nat.shiftRight_or_distrib]

theorem of_small {word : UInt64} (small : word.toNat < 2 ^ 32) : of word = 0 := by
  simp only [of, Nat.shiftRight_eq_div_pow, Nat.div_eq_of_lt small]

theorem of_toolkit {word : UInt64} (small : word.toNat < 2 ^ 32) : of (toolkit ||| word) = 0x15 := by
  rw [of_or, of_small small]
  rfl

theorem toUInt32_toolkit (n : UInt32) : (toolkit ||| n.toUInt64).toUInt32 = n := by
  rw [UInt64.toUInt32_or, UInt32.toUInt32_toUInt64]
  exact UInt32.zero_or

theorem toUInt16_toolkit (n : UInt16) : (toolkit ||| n.toUInt64).toUInt16 = n := by
  rw [UInt64.toUInt16_or, UInt16.toUInt16_toUInt64]
  exact UInt16.zero_or

end Plane

/-! ## Scan codes -/

theorem usages_distinct : (usages.map (keyboardPage ||| ·.2)).Nodup := by decide +kernel

theorem plane_of_usages : ∀ row ∈ usages, Plane.of (keyboardPage ||| row.2) = 0 :=
  List.forall_iff_forall_mem.1 (by decide +kernel)

namespace PhysicalKey

theorem ofKeycode_cases (keycode : UInt16) :
    (∃ usage, (keycode, usage) ∈ usages ∧ ofKeycode keycode = ⟨keyboardPage ||| usage⟩) ∨
      ofKeycode keycode = ⟨Plane.toolkit ||| keycode.toUInt64⟩ := by
  rcases find?_row_cases usages keycode with ⟨usage, found⟩ | none
  · exact .inl ⟨usage, List.mem_of_find?_eq_some found, by simp [ofKeycode, found]⟩
  · exact .inr (by simp [ofKeycode, none])

theorem ofKeycode_injective : Function.Injective ofKeycode := by
  have apart {usage : UInt64} {a b : UInt16} (row : (a, usage) ∈ usages) :
      keyboardPage ||| usage ≠ Plane.toolkit ||| b.toUInt64 := by
    intro same
    have small : b.toUInt64.toNat < 2 ^ 32 := by
      have := b.toNat_lt
      simp only [UInt16.toNat_toUInt64]
      omega
    have := plane_of_usages _ row
    rw [same, Plane.of_toolkit small] at this
    cases this
  intro a b same
  rcases ofKeycode_cases a with ⟨u, rowA, eqA⟩ | eqA <;>
    rcases ofKeycode_cases b with ⟨v, rowB, eqB⟩ | eqB <;>
    rw [eqA, eqB, PhysicalKey.mk.injEq] at same
  · exact congrArg (·.1) (List.inj_on_of_nodup_map usages_distinct rowA rowB same)
  · exact absurd same (apart rowA)
  · exact absurd same.symm (apart rowB)
  · rw [← Plane.toUInt16_toolkit a, same, Plane.toUInt16_toolkit]

end PhysicalKey

/-! ## Characters of key symbols -/

theorem toNat_of_charOfNat? {n : Nat} {c : Char} (is : charOfNat? n = some c) : c.toNat = n := by
  unfold charOfNat? at is
  split at is
  · cases is
    rfl
  · cases is

/-- A character below 0x100 is its own symbol. From there on the symbols are shifted. -/
theorem symbol_of_charOfKeyval {keyval : UInt32} {c : Char} (is : charOfKeyval keyval = some c) :
    isControl c = false ∧
      keyval.toNat = if c.toNat < 0x100 then c.toNat else c.toNat + 0x1000000 := by
  unfold charOfKeyval at is
  simp only [UInt32.le_iff_toNat_le, UInt32.reduceToNat] at is
  simp only [isControl]
  split at is
  · have value := toNat_of_charOfNat? is
    grind
  · split at is
    · have value := toNat_of_charOfNat? (Option.filter_eq_some_iff.1 is).1
      grind
    · cases is

theorem charOfKeyval_injective {a b : UInt32} {c : Char} (ofA : charOfKeyval a = some c)
    (ofB : charOfKeyval b = some c) : a = b :=
  UInt32.toNat_inj.1 ((symbol_of_charOfKeyval ofA).2.trans (symbol_of_charOfKeyval ofB).2.symm)

/-! ## Kinds of key symbols -/

inductive SymbolKind
  | named
  | printable
  | toolkit
  deriving DecidableEq, Repr

/-- The table of names goes first. -/
def SymbolKind.of (keyval : UInt32) : SymbolKind :=
  if keyval ∈ namedKeys.map (·.1) then .named
  else if (charOfKeyval keyval).isSome then .printable
  else .toolkit

def SymbolKind.planes : SymbolKind → List Nat
  | .named => [0x10, 0x20]
  | .printable => [0]
  | .toolkit => [0x15]

theorem SymbolKind.eq_of_plane {j k : SymbolKind} {plane : Nat} (ofJ : plane ∈ j.planes)
    (ofK : plane ∈ k.planes) : j = k := by
  cases j <;> cases k <;> simp [planes] at ofJ ofK ⊢ <;> omega

theorem namedKeys_distinct : (namedKeys.map (·.1)).Nodup := by decide +kernel

theorem plane_of_namedKeys : ∀ row ∈ namedKeys, Plane.of row.2.word ∈ SymbolKind.named.planes := by
  decide +kernel

theorem charOfKeyval_named : ∀ row ∈ namedKeys, charOfKeyval row.1 = none := by decide +kernel

namespace LogicalKey

def ofChar (c : Char) : LogicalKey := ⟨.ofNat (Text.lowerCase c).toNat⟩

theorem toNat_ofChar (c : Char) : (ofChar c).word.toNat = (Text.lowerCase c).toNat := by
  have : (Text.lowerCase c).toNat < UInt32.size := (Text.lowerCase c).val.toNat_lt
  simp only [ofChar, UInt64.toNat_ofNat']
  exact Nat.mod_eq_of_lt (by simp only [UInt32.size] at this; omega)

theorem plane_ofChar (c : Char) : Plane.of (ofChar c).word = 0 :=
  Plane.of_small (by rw [toNat_ofChar]; exact (Text.lowerCase c).val.toNat_lt)

theorem ofChar_inj {c d : Char} : ofChar c = ofChar d ↔ Text.lowerCase c = Text.lowerCase d := by
  refine ⟨fun same => ?_, fun same => by simp only [ofChar, same]⟩
  have same := congrArg (·.word.toNat) same
  simp only [toNat_ofChar] at same
  exact Char.toNat_inj.1 same

theorem ofKeyval_of_row {keyval : UInt32} {key : LogicalKey} (row : (keyval, key) ∈ namedKeys) :
    ofKeyval keyval = key := by
  simp [ofKeyval, find?_row namedKeys_distinct row]

theorem ofKeyval_of_char {keyval : UInt32} {c : Char} (is : charOfKeyval keyval = some c) :
    ofKeyval keyval = ofChar c := by
  rcases find?_row_cases namedKeys keyval with ⟨key, found⟩ | none
  · have := charOfKeyval_named _ (List.mem_of_find?_eq_some found)
    simp [this] at is
  · simp [ofKeyval, none, is, ofChar]

def Reads (keyval : UInt32) (key : LogicalKey) : SymbolKind → Prop
  | .named => (keyval, key) ∈ namedKeys
  | .printable => ∃ c, charOfKeyval keyval = some c ∧ key = ofChar c
  | .toolkit => key = ⟨Plane.toolkit ||| keyval.toUInt64⟩

theorem reads_ofKeyval (keyval : UInt32) : Reads keyval (ofKeyval keyval) (.of keyval) := by
  rcases find?_row_cases namedKeys keyval with ⟨key, found⟩ | none
  · have row := List.mem_of_find?_eq_some found
    have kind : SymbolKind.of keyval = .named := if_pos (List.mem_map_of_mem row)
    rw [kind, ofKeyval_of_row row]
    exact row
  · have unnamed : keyval ∉ namedKeys.map (·.1) := by
      intro mem
      obtain ⟨⟨_, key⟩, row, rfl⟩ := List.mem_map.1 mem
      exact find?_row_none none row
    cases is : charOfKeyval keyval with
    | some c =>
      have kind : SymbolKind.of keyval = .printable := by simp [SymbolKind.of, unnamed, is]
      rw [kind]
      exact ⟨c, is, ofKeyval_of_char is⟩
    | none =>
      have kind : SymbolKind.of keyval = .toolkit := by simp [SymbolKind.of, unnamed, is]
      rw [kind]
      simp [Reads, ofKeyval, none, is]

theorem Reads.plane {keyval : UInt32} {key : LogicalKey} {kind : SymbolKind}
    (reads : Reads keyval key kind) : Plane.of key.word ∈ kind.planes := by
  cases kind with
  | named => exact plane_of_namedKeys (keyval, key) reads
  | printable =>
    obtain ⟨c, -, rfl⟩ := reads
    simp [plane_ofChar, SymbolKind.planes]
  | toolkit =>
    have small : keyval.toUInt64.toNat < 2 ^ 32 := by
      rw [UInt32.toNat_toUInt64]
      exact keyval.toNat_lt
    cases reads
    simp [Plane.of_toolkit small, SymbolKind.planes]

theorem kind_eq {a b : UInt32} (same : ofKeyval a = ofKeyval b) :
    SymbolKind.of a = SymbolKind.of b := by
  have plane := (reads_ofKeyval a).plane
  rw [same] at plane
  exact SymbolKind.eq_of_plane plane (reads_ofKeyval b).plane

/-- Within a kind, the key goes back to the name, the character or the symbol. -/
theorem Reads.same {a b : UInt32} {key : LogicalKey} {kind : SymbolKind}
    (readsA : Reads a key kind) (readsB : Reads b key kind) :
    a = b ∨ (∃ key, (a, key) ∈ namedKeys ∧ (b, key) ∈ namedKeys) ∨
      ∃ c d, charOfKeyval a = some c ∧ charOfKeyval b = some d ∧
        Text.lowerCase c = Text.lowerCase d := by
  cases kind with
  | named => exact .inr (.inl ⟨key, readsA, readsB⟩)
  | printable =>
    obtain ⟨c, isC, eqC⟩ := readsA
    obtain ⟨d, isD, eqD⟩ := readsB
    exact .inr (.inr ⟨c, d, isC, isD, ofChar_inj.1 (eqC.symm.trans eqD)⟩)
  | toolkit =>
    have words := congrArg (·.word.toUInt32) (Eq.trans (Eq.symm readsA) readsB)
    simp only [Plane.toUInt32_toolkit] at words
    exact .inl words

end LogicalKey

/-- Keys have an identifier in common only where the tables mean it. -/
theorem keys_told_apart :
    (∀ a b : UInt16, PhysicalKey.ofKeycode a = .ofKeycode b → a = b) ∧
    (∀ a b : UInt32, LogicalKey.ofKeyval a = .ofKeyval b ↔
      a = b ∨ (∃ key, (a, key) ∈ namedKeys ∧ (b, key) ∈ namedKeys) ∨
        ∃ c d, charOfKeyval a = some c ∧ charOfKeyval b = some d ∧
          Text.lowerCase c = Text.lowerCase d) ∧
    (∀ a b : UInt32, LogicalKey.ofKeyval a = .ofKeyval b → SymbolKind.of a = .of b) ∧
    (∀ a b : UInt32, ∀ c, charOfKeyval a = some c → charOfKeyval b = some c → a = b) ∧
    (∀ a : UInt32, ∀ c, charOfKeyval a = some c → isControl c = false) := by
  refine ⟨fun _ _ same => PhysicalKey.ofKeycode_injective same, fun a b => ⟨fun same => ?_, ?_⟩,
    fun _ _ => LogicalKey.kind_eq, fun _ _ _ => charOfKeyval_injective,
    fun _ _ is => (symbol_of_charOfKeyval is).1⟩
  · have readsB := LogicalKey.reads_ofKeyval b
    rw [← LogicalKey.kind_eq same, ← same] at readsB
    exact (LogicalKey.reads_ofKeyval a).same readsB
  · rintro (rfl | ⟨key, rowA, rowB⟩ | ⟨c, d, isC, isD, folded⟩)
    · rfl
    · rw [LogicalKey.ofKeyval_of_row rowA, LogicalKey.ofKeyval_of_row rowB]
    · rw [LogicalKey.ofKeyval_of_char isC, LogicalKey.ofKeyval_of_char isD,
        LogicalKey.ofChar_inj.2 folded]

end KeyArbiter
