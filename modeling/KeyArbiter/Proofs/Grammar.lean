import KeyArbiter.Proofs.Readback
import Mathlib

/-!
# The grammar of JSON

Which bytes are a value, and which are an object or a list of what is inside, said without a reader.
Blanks may stand around every value, name, comma and colon. The text of a skipped value is any run of
bytes between quotes in which each escape is complete; a name has to spell characters.
-/

namespace KeyArbiter.Json

/-! ## Blanks -/

def Blank (ws : List UInt8) : Prop := ∀ b ∈ ws, isBlank b = true

instance (ws : List UInt8) : Decidable (Blank ws) :=
  inferInstanceAs (Decidable (∀ b ∈ ws, isBlank b = true))

namespace Blank

variable {ws : List UInt8}

theorem nil : Blank [] := List.forall_mem_nil _

theorem append {ws' : List UInt8} (blank : Blank ws) (blank' : Blank ws') : Blank (ws ++ ws') :=
  List.forall_mem_append.2 ⟨blank, blank'⟩

theorem skipBlank_append (blank : Blank ws) (rest : List UInt8) :
    skipBlank (ws ++ rest) = skipBlank rest :=
  List.dropWhile_append_of_pos blank

theorem endsNumber (blank : Blank ws) {rest : List UInt8} (ends : EndsNumber rest) :
    EndsNumber (ws ++ rest) := by
  cases ws with
  | nil => exact ends
  | cons b ws =>
    have solid : ∀ b : UInt8, isBlank b = true →
        isDigit b = false ∧ b ≠ 0x2e ∧ b ≠ 0x65 ∧ b ≠ 0x45 := by decide +kernel
    rintro _ ⟨⟩
    exact solid b (blank b (List.mem_cons_self ..))

end Blank

theorem exists_blank (bytes : List UInt8) : ∃ ws, Blank ws ∧ bytes = ws ++ skipBlank bytes :=
  ⟨bytes.takeWhile isBlank, fun _ hb => List.mem_takeWhile_imp hb,
    List.takeWhile_append_dropWhile.symm⟩

theorem solid_of_skipBlank {bytes rest : List UInt8} {b : UInt8} (eq : skipBlank bytes = b :: rest) :
    isBlank b = false := by
  have first := List.head?_dropWhile_not isBlank bytes
  have dropped : bytes.dropWhile isBlank = b :: rest := eq
  rw [dropped] at first
  simpa using first

theorem blanks_before {bytes rest : List UInt8} {b : UInt8} (eq : skipBlank bytes = b :: rest) :
    ∃ ws, Blank ws ∧ bytes = ws ++ b :: rest := by
  obtain ⟨ws, blank, split⟩ := exists_blank bytes
  rw [eq] at split
  exact ⟨ws, blank, split⟩

/-! ## Numbers -/

def Digits (ds : List UInt8) : Prop := ds ≠ [] ∧ ∀ d ∈ ds, isDigit d = true

def WholeForm (ds : List UInt8) : Prop := Digits ds ∧ (ds.head? = some 0x30 → ds = [0x30])

instance (ds : List UInt8) : Decidable (WholeForm ds) :=
  inferInstanceAs (Decidable ((ds ≠ [] ∧ ∀ d ∈ ds, isDigit d = true) ∧ _))

inductive FractionForm : List UInt8 → Prop
  | none : FractionForm []
  | some {ds : List UInt8} (digits : Digits ds) : FractionForm (0x2e :: ds)

inductive PowerForm : List UInt8 → Prop
  | none : PowerForm []
  | some {e : UInt8} {sign ds : List UInt8} (letter : e = 0x65 ∨ e = 0x45)
    (signed : sign = [] ∨ sign = [0x2b] ∨ sign = [minus]) (digits : Digits ds) :
    PowerForm (e :: (sign ++ ds))

inductive NumberForm : List UInt8 → Prop
  | mk {sign whole fraction power : List UInt8} (signed : sign = [] ∨ sign = [minus])
    (isWhole : WholeForm whole) (isFraction : FractionForm fraction) (isPower : PowerForm power) :
    NumberForm (sign ++ (whole ++ (fraction ++ power)))

/-! ## Texts -/

def Plain (b : UInt8) : Prop := b ≠ quote ∧ b ≠ backslash ∧ ¬ b < 0x20

instance (b : UInt8) : Decidable (Plain b) := inferInstanceAs (Decidable (_ ∧ _ ∧ _))

/-- What may stand between the quotes of a text. -/
inductive TextForm : List UInt8 → Prop
  | nil : TextForm []
  | plain {b : UInt8} {body : List UInt8} (plain : Plain b) (more : TextForm body) :
    TextForm (b :: body)
  | short {b : UInt8} {body : List UInt8} (known : (shortEscape b).isSome) (more : TextForm body) :
    TextForm (backslash :: b :: body)
  | hex {hs body : List UInt8} (four : hs.length = 4) (known : (hexValue hs).isSome)
    (more : TextForm body) : TextForm (backslash :: 0x75 :: (hs ++ body))

/-- What stands between the quotes spells these bytes. -/
inductive Spells : List UInt8 → List UInt8 → Prop
  | nil : Spells [] []
  | plain {b : UInt8} {body text : List UInt8} (plain : Plain b) (more : Spells body text) :
    Spells (b :: body) (b :: text)
  | short {b c : UInt8} {body text : List UInt8} (known : shortEscape b = some c)
    (more : Spells body text) : Spells (backslash :: b :: body) (c :: text)
  | hex {hs body text : List UInt8} {n : Nat} (four : hs.length = 4) (known : hexValue hs = some n)
    (whole : isHighSurrogate n = false ∧ isLowSurrogate n = false) (more : Spells body text) :
    Spells (backslash :: 0x75 :: (hs ++ body)) (charBytes n ++ text)
  | pair {hs ls body text : List UInt8} {high low : Nat} (fourHigh : hs.length = 4)
    (knownHigh : hexValue hs = some high) (isHigh : isHighSurrogate high = true)
    (fourLow : ls.length = 4) (knownLow : hexValue ls = some low)
    (isLow : isLowSurrogate low = true) (more : Spells body text) :
    Spells (backslash :: 0x75 :: (hs ++ backslash :: 0x75 :: (ls ++ body)))
      (charBytes (pairOf high low) ++ text)

inductive Quotes (s : String) : List UInt8 → Prop
  | mk {body : List UInt8} (spells : Spells body (utf8 s)) : Quotes s (quote :: (body ++ [quote]))

theorem Spells.textForm {body text : List UInt8} (spells : Spells body text) : TextForm body := by
  induction spells with
  | nil => exact .nil
  | plain plain _ ih => exact .plain plain ih
  | short known _ ih => exact .short (by rw [known]; rfl) ih
  | hex four known _ _ ih => exact .hex four (by rw [known]; rfl) ih
  | pair fourHigh knownHigh _ fourLow knownLow _ _ ih =>
    exact .hex fourHigh (by rw [knownHigh]; rfl) (.hex fourLow (by rw [knownLow]; rfl) ih)

/-! ## Values -/

def Bracket.opening : Bracket → UInt8
  | .list => openList
  | .object => openObject

inductive Part
  | value
  /-- What stands between a pair of brackets that are not empty. -/
  | inside (k : Bracket)

/-- What stands before a value in the brackets: in an object, its name and a colon. -/
inductive LeadForm : Bracket → List UInt8 → Prop
  | item : LeadForm .list []
  | member {ws body ws' : List UInt8} (before : Blank ws) (name : TextForm body)
    (after : Blank ws') : LeadForm .object (ws ++ quote :: (body ++ quote :: (ws' ++ [colon])))

inductive Form : Part → List UInt8 → Prop
  | null : Form .value (ascii "null")
  | flag (b : Bool) : Form .value (ascii (flagText b))
  | number {v : List UInt8} (number : NumberForm v) : Form .value v
  | text {body : List UInt8} (text : TextForm body) : Form .value (quote :: (body ++ [quote]))
  | empty (k : Bracket) {ws : List UInt8} (blank : Blank ws) :
    Form .value (k.opening :: (ws ++ [k.closing]))
  | filled {k : Bracket} {vs : List UInt8} (inside : Form (.inside k) vs) :
    Form .value (k.opening :: (vs ++ [k.closing]))
  | last {k : Bracket} {front ws v ws' : List UInt8} (lead : LeadForm k front) (before : Blank ws)
    (value : Form .value v) (after : Blank ws') :
    Form (.inside k) (front ++ (ws ++ (v ++ ws')))
  | more {k : Bracket} {front ws v ws' vs : List UInt8} (lead : LeadForm k front)
    (before : Blank ws) (value : Form .value v) (after : Blank ws') (others : Form (.inside k) vs) :
    Form (.inside k) (front ++ (ws ++ (v ++ (ws' ++ comma :: vs))))

/-! ## Objects and lists with what is inside -/

inductive MemberForm : String × List UInt8 → List UInt8 → Prop
  | mk {name : String} {ws quoted ws₁ ws₂ v ws' : List UInt8} (before : Blank ws)
    (quotes : Quotes name quoted) (beforeColon : Blank ws₁) (afterColon : Blank ws₂)
    (value : Form .value v) (after : Blank ws') :
    MemberForm (name, v) (ws ++ (quoted ++ (ws₁ ++ colon :: (ws₂ ++ (v ++ ws')))))

inductive MembersForm : List (String × List UInt8) → List UInt8 → Prop
  | last {p : String × List UInt8} {w : List UInt8} (member : MemberForm p w) : MembersForm [p] w
  | more {p : String × List UInt8} {ps : List (String × List UInt8)} {w ws : List UInt8}
    (member : MemberForm p w) (others : MembersForm ps ws) :
    MembersForm (p :: ps) (w ++ comma :: ws)

/-- An object with these members, in this order. -/
inductive ObjectForm : List (String × List UInt8) → List UInt8 → Prop
  | empty {ws : List UInt8} (blank : Blank ws) :
    ObjectForm [] (openObject :: (ws ++ [closeObject]))
  | filled {ps : List (String × List UInt8)} {w : List UInt8} (members : MembersForm ps w) :
    ObjectForm ps (openObject :: (w ++ [closeObject]))

inductive ItemsForm : List (List UInt8) → List UInt8 → Prop
  | last {ws v ws' : List UInt8} (before : Blank ws) (value : Form .value v) (after : Blank ws') :
    ItemsForm [v] (ws ++ (v ++ ws'))
  | more {ws v ws' w : List UInt8} {vs : List (List UInt8)} (before : Blank ws)
    (value : Form .value v) (after : Blank ws') (others : ItemsForm vs w) :
    ItemsForm (v :: vs) (ws ++ (v ++ (ws' ++ comma :: w)))

inductive ListForm : List (List UInt8) → List UInt8 → Prop
  | empty {ws : List UInt8} (blank : Blank ws) : ListForm [] (openList :: (ws ++ [closeList]))
  | filled {vs : List (List UInt8)} {w : List UInt8} (items : ItemsForm vs w) :
    ListForm vs (openList :: (w ++ [closeList]))

/-- The text is the value with blanks around it. -/
inductive Around (v : List UInt8) : List UInt8 → Prop
  | mk {ws ws' : List UInt8} (before : Blank ws) (after : Blank ws') : Around v (ws ++ (v ++ ws'))

theorem MembersForm.inside {ps : List (String × List UInt8)} {w : List UInt8}
    (members : MembersForm ps w) : Form (.inside .object) w := by
  have lead {ws body ws₁ : List UInt8} {name : String} (before : Blank ws)
      (spells : Spells body (utf8 name)) (after : Blank ws₁) :=
    LeadForm.member before spells.textForm after
  induction members with
  | last member =>
    obtain ⟨before, ⟨spells⟩, beforeColon, afterColon, value, after⟩ := member
    have form := Form.last (lead before spells beforeColon) afterColon value after
    simpa only [List.append_assoc, List.cons_append, List.nil_append] using form
  | more member _ ih =>
    obtain ⟨before, ⟨spells⟩, beforeColon, afterColon, value, after⟩ := member
    have form := Form.more (lead before spells beforeColon) afterColon value after ih
    simpa only [List.append_assoc, List.cons_append, List.nil_append] using form

theorem ObjectForm.form {ps : List (String × List UInt8)} {v : List UInt8} (object : ObjectForm ps v) :
    Form .value v := by
  cases object with
  | empty blank => exact .empty .object blank
  | filled members => exact .filled members.inside

theorem ItemsForm.form_of_mem {vs : List (List UInt8)} {w : List UInt8} (items : ItemsForm vs w) :
    ∀ v ∈ vs, Form .value v := by
  induction items with
  | last _ value => exact List.forall_mem_singleton.2 value
  | more _ value _ _ ih => exact List.forall_mem_cons.2 ⟨value, ih⟩

theorem ListForm.form_of_mem {vs : List (List UInt8)} {v : List UInt8} (list : ListForm vs v) :
    ∀ v ∈ vs, Form .value v := by
  cases list with
  | empty => exact List.forall_mem_nil _
  | filled items => exact items.form_of_mem

/-! ## How a value starts -/

theorem WholeForm.exists_cons {ds : List UInt8} (whole : WholeForm ds) :
    ∃ d more, ds = d :: more ∧ isDigit d = true := by
  cases ds with
  | nil => exact absurd rfl whole.1.1
  | cons d more => exact ⟨d, more, rfl, whole.1.2 d (List.mem_cons_self ..)⟩

theorem Form.exists_cons {v : List UInt8} (form : Form .value v) :
    ∃ b more, v = b :: more ∧ isBlank b = false ∧ ∀ k : Bracket, b ≠ k.closing := by
  have closing (k : Bracket) : k.closing = closeList ∨ k.closing = closeObject := by
    cases k
    · exact .inl rfl
    · exact .inr rfl
  have starts {b : UInt8} (solid : isBlank b = false) (list : b ≠ closeList)
      (object : b ≠ closeObject) : isBlank b = false ∧ ∀ k : Bracket, b ≠ k.closing := by
    refine ⟨solid, fun k => ?_⟩
    rcases closing k with eq | eq <;> rw [eq] <;> assumption
  have digit : ∀ d : UInt8, isDigit d = true →
      isBlank d = false ∧ d ≠ closeList ∧ d ≠ closeObject := by decide +kernel
  cases form with
  | null => exact ⟨_, _, rfl, starts (by decide) (by decide) (by decide)⟩
  | flag b => cases b <;> exact ⟨_, _, rfl, starts (by decide) (by decide) (by decide)⟩
  | number number =>
    obtain @⟨sign, whole, fraction, power, signed, form, -, -⟩ := number
    rcases signed with rfl | rfl
    · obtain ⟨d, more, rfl, first⟩ := form.exists_cons
      obtain ⟨solid, list, object⟩ := digit d first
      exact ⟨d, _, rfl, starts solid list object⟩
    · exact ⟨minus, _, rfl, starts (by decide) (by decide) (by decide)⟩
  | text => exact ⟨quote, _, rfl, starts (by decide) (by decide) (by decide)⟩
  | empty k => cases k <;> exact ⟨_, _, rfl, starts (by decide) (by decide) (by decide)⟩
  | @filled k => cases k <;> exact ⟨_, _, rfl, starts (by decide) (by decide) (by decide)⟩

end KeyArbiter.Json
