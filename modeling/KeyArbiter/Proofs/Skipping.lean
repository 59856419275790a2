import KeyArbiter.Proofs.Grammar
import Mathlib

/-!
# What is skipped

The value of an unknown member is looked over by a machine that keeps the open brackets in a list.
It gets past all values of the grammar, however deep they nest, and past nothing else.
-/

namespace KeyArbiter.Json

variable {bytes rest : List UInt8}

/-! ## Numbers -/

theorem dropWhile_digits {ds : List UInt8} (digits : ∀ d ∈ ds, isDigit d = true)
    (stop : startsDigit rest = false) : (ds ++ rest).dropWhile isDigit = rest := by
  rw [List.dropWhile_append_of_pos digits]
  cases rest with
  | nil => rfl
  | cons b rest => exact List.dropWhile_cons_of_neg (by simpa [startsDigit] using stop)

theorem digits_cons {b : UInt8} (digit : isDigit b = true) (more : List UInt8) :
    Digits (b :: more.takeWhile isDigit) := by
  refine ⟨List.cons_ne_nil _ _, List.forall_mem_cons.2 ⟨digit, fun _ hd => ?_⟩⟩
  exact List.mem_takeWhile_imp hd

theorem Digits.exists_cons {ds : List UInt8} (digits : Digits ds) :
    ∃ d more, ds = d :: more ∧ isDigit d = true ∧ ∀ d ∈ more, isDigit d = true := by
  cases ds with
  | nil => exact absurd rfl digits.1
  | cons d more => exact ⟨d, more, rfl, List.forall_mem_cons.1 digits.2⟩

theorem skipPower_digits {ds : List UInt8} (digits : Digits ds) (stop : startsDigit rest = false) :
    skipPower (ds ++ rest) = .ok rest := by
  obtain ⟨d, more, rfl, digit, digits⟩ := digits.exists_cons
  rw [List.cons_append, skipPower, if_pos digit, dropWhile_digits digits stop]

theorem exists_of_skipPower (h : skipPower bytes = .ok rest) :
    ∃ ds, Digits ds ∧ bytes = ds ++ rest := by
  cases bytes with
  | nil => cases h
  | cons b more =>
    simp only [skipPower] at h
    split at h
    · next digit =>
      cases h
      exact ⟨_, digits_cons digit more,
        congrArg (b :: ·) List.takeWhile_append_dropWhile.symm⟩
    · cases h

theorem skipTail_power {power : List UInt8} (form : PowerForm power) (ends : EndsNumber rest) :
    skipTail (power ++ rest) = .ok rest := by
  cases form with
  | none =>
    cases rest with
    | nil => rfl
    | cons b rest =>
      obtain ⟨-, -, small, large⟩ := ends b rfl
      rw [List.nil_append, skipTail, if_neg (not_or.2 ⟨small, large⟩)]
  | @some e sign ds letter signed digits =>
    have power := skipPower_digits digits ends.startsDigit
    rw [List.cons_append, skipTail, if_pos letter, List.append_assoc]
    rcases signed with rfl | rfl | rfl
    · obtain ⟨d, more, rfl, digit, -⟩ := digits.exists_cons
      have unsigned : ¬ (d = 0x2b ∨ d = minus) := by
        rintro (rfl | rfl) <;> exact absurd digit (by decide)
      rw [List.nil_append, List.cons_append, skipExponent, if_neg unsigned]
      exact power
    · exact power
    · exact power

theorem exists_of_skipTail (h : skipTail bytes = .ok rest) :
    ∃ power, PowerForm power ∧ bytes = power ++ rest := by
  cases bytes with
  | nil => cases h; exact ⟨[], .none, rfl⟩
  | cons e more =>
    simp only [skipTail] at h
    split at h
    · next letter =>
      have power : ∃ sign ds, (sign = [] ∨ sign = [0x2b] ∨ sign = [minus]) ∧ Digits ds ∧
          more = sign ++ (ds ++ rest) := by
        cases more with
        | nil => cases h
        | cons b more =>
          simp only [skipExponent] at h
          split at h
          · next sign =>
            obtain ⟨ds, digits, rfl⟩ := exists_of_skipPower h
            exact ⟨[b], ds, .inr (sign.imp (by rintro rfl; rfl) (by rintro rfl; rfl)), digits, rfl⟩
          · obtain ⟨ds, digits, eq⟩ := exists_of_skipPower h
            exact ⟨[], ds, .inl rfl, digits, eq⟩
      obtain ⟨sign, ds, signed, digits, rfl⟩ := power
      exact ⟨e :: (sign ++ ds), .some letter signed digits, by rw [List.cons_append, List.append_assoc]⟩
    · cases h; exact ⟨[], .none, rfl⟩

theorem PowerForm.head_ne {power : List UInt8} (form : PowerForm power) (ends : EndsNumber rest) :
    ∀ b ∈ (power ++ rest).head?, isDigit b = false ∧ b ≠ 0x2e := by
  cases form with
  | none => exact fun b hb => ⟨(ends b hb).1, (ends b hb).2.1⟩
  | some letter =>
    rintro b ⟨⟩
    rcases letter with rfl | rfl <;> decide

theorem startsDigit_eq_false (h : ∀ b ∈ bytes.head?, isDigit b = false) :
    startsDigit bytes = false := by
  cases bytes with
  | nil => rfl
  | cons b bytes => exact h b rfl

theorem skipPoint_fraction {fraction power : List UInt8} (form : FractionForm fraction)
    (isPower : PowerForm power) (ends : EndsNumber rest) :
    skipPoint (fraction ++ (power ++ rest)) = .ok rest := by
  have next := isPower.head_ne ends
  cases form with
  | none =>
    rw [List.nil_append]
    rw [← skipTail_power isPower ends]
    cases eq : power ++ rest with
    | nil => rfl
    | cons b more =>
      rw [eq] at next
      rw [skipPoint, if_neg (next b rfl).2]
  | some digits =>
    obtain ⟨d, more, rfl, digit, digits⟩ := digits.exists_cons
    have stop := startsDigit_eq_false fun b hb => (next b hb).1
    rw [List.cons_append, skipPoint, if_pos rfl, List.cons_append, skipFraction, if_pos digit,
      dropWhile_digits digits stop, skipTail_power isPower ends]

theorem exists_of_skipPoint (h : skipPoint bytes = .ok rest) :
    ∃ fraction power, FractionForm fraction ∧ PowerForm power ∧ bytes = fraction ++ (power ++ rest) := by
  cases bytes with
  | nil => cases h; exact ⟨[], [], .none, .none, rfl⟩
  | cons b more =>
    simp only [skipPoint] at h
    split at h
    · next point =>
      subst point
      cases more with
      | nil => cases h
      | cons d more =>
        simp only [skipFraction] at h
        split at h
        · next digit =>
          obtain ⟨power, isPower, eq⟩ := exists_of_skipTail h
          refine ⟨0x2e :: d :: more.takeWhile isDigit, power, .some (digits_cons digit more), isPower, ?_⟩
          rw [← eq, List.cons_append, List.cons_append, List.takeWhile_append_dropWhile]
        · cases h
    · obtain ⟨power, isPower, eq⟩ := exists_of_skipTail h
      exact ⟨[], power, .none, isPower, eq⟩

theorem startsDigit_tail {fraction power : List UInt8} (isFraction : FractionForm fraction)
    (isPower : PowerForm power) (ends : EndsNumber rest) :
    startsDigit (fraction ++ (power ++ rest)) = false := by
  cases isFraction with
  | none => exact startsDigit_eq_false fun b hb => (isPower.head_ne ends b hb).1
  | some => rfl

theorem skipNumber_whole {whole fraction power : List UInt8} (form : WholeForm whole)
    (isFraction : FractionForm fraction) (isPower : PowerForm power) (ends : EndsNumber rest) :
    skipNumber (whole ++ (fraction ++ (power ++ rest))) = .ok rest := by
  have stop := startsDigit_tail isFraction isPower ends
  have after := skipPoint_fraction isFraction isPower ends
  obtain ⟨d, more, rfl, digit, digits⟩ := form.1.exists_cons
  rw [List.cons_append, skipNumber]
  split
  · next zero =>
    subst zero
    obtain rfl : more = [] := by simpa using form.2 rfl
    have stop : (fraction ++ (power ++ rest)).head?.any isDigit = false := stop
    rw [List.nil_append, stop]
    exact after
  · rw [dropWhile_digits digits stop]
    exact after

theorem exists_of_skipNumber (h : skipNumber bytes = .ok rest) :
    ∃ whole fraction power, WholeForm whole ∧ FractionForm fraction ∧ PowerForm power ∧
      bytes = whole ++ (fraction ++ (power ++ rest)) := by
  cases bytes with
  | nil => cases h
  | cons b more =>
    simp only [skipNumber] at h
    split at h
    · next zero =>
      subst zero
      split at h
      · cases h
      · obtain ⟨fraction, power, isFraction, isPower, rfl⟩ := exists_of_skipPoint h
        have zero : Digits [0x30] := ⟨List.cons_ne_nil _ _, List.forall_mem_singleton.2 rfl⟩
        exact ⟨[0x30], fraction, power, ⟨zero, fun _ => rfl⟩, isFraction, isPower, rfl⟩
    · next nonzero =>
      split at h
      · next digit =>
        obtain ⟨fraction, power, isFraction, isPower, eq⟩ := exists_of_skipPoint h
        refine ⟨b :: more.takeWhile isDigit, fraction, power, ⟨digits_cons digit more, fun zero => ?_⟩,
          isFraction, isPower, ?_⟩
        · exact absurd (Option.some.inj zero) nonzero
        · rw [← eq, List.cons_append, List.takeWhile_append_dropWhile]
      · cases h

/-! ## Texts -/

def SkipMode.begun : SkipMode → List UInt8
  | .plain => []
  | .escape => [backslash]
  | .hex seen => backslash :: 0x75 :: seen

theorem ne_of_isSome_shortEscape {b : UInt8} (known : (shortEscape b).isSome) : b ≠ 0x75 := by
  rintro rfl
  exact absurd known (by decide)

theorem skipText_hex {seen hs : List UInt8} (four : seen.length + hs.length = 4) (more : hs ≠ [])
    (known : (hexValue (seen ++ hs)).isSome) (rest : List UInt8) :
    skipText (.hex seen) (hs ++ rest) = skipText .plain rest := by
  induction hs generalizing seen with
  | nil => exact absurd rfl more
  | cons b hs ih =>
    rw [List.length_cons] at four
    rw [List.cons_append, skipText]
    split
    · next few =>
      refine ih (by rw [List.length_append, List.length_singleton]; omega) ?_ ?_
      · rintro rfl
        rw [List.length_nil] at four
        omega
      · rwa [List.append_assoc]
    · next enough =>
      obtain rfl : hs = [] := List.eq_nil_of_length_eq_zero (by omega)
      rw [if_pos known, List.nil_append]

theorem skipText_body {body : List UInt8} (form : TextForm body) (rest : List UInt8) :
    skipText .plain (body ++ quote :: rest) = .ok rest := by
  induction form with
  | nil => rfl
  | plain plain _ ih =>
    obtain ⟨quoted, escaped, control⟩ := plain
    rw [List.cons_append, skipText, if_neg quoted, if_neg escaped, if_neg control, ih]
  | short known _ ih =>
    rw [List.cons_append, skipText, if_neg (by decide), if_pos rfl, List.cons_append, skipText,
      if_neg (ne_of_isSome_shortEscape known), if_pos known, ih]
  | @hex hs body four known _ ih =>
    have digits := @skipText_hex [] hs (by simpa using four)
      (List.ne_nil_of_length_eq_add_one four) known (body ++ quote :: rest)
    rw [List.cons_append, skipText, if_neg (by decide), if_pos rfl, List.cons_append, skipText,
      if_pos rfl, List.append_assoc, digits, ih]

theorem exists_of_skipText {mode : SkipMode} (few : mode.begun.length ≤ 5)
    (h : skipText mode bytes = .ok rest) :
    ∃ w, TextForm (mode.begun ++ w) ∧ bytes = w ++ quote :: rest := by
  fun_induction skipText mode bytes with
  | case1 => cases h
  | case2 => cases h; exact ⟨[], .nil, rfl⟩
  | case3 more _ ih =>
    obtain ⟨w, form, rfl⟩ := ih (by decide) h
    exact ⟨backslash :: w, form, rfl⟩
  | case4 => cases h
  | case5 b more quoted escaped control ih =>
    obtain ⟨w, form, rfl⟩ := ih (by decide) h
    exact ⟨b :: w, .plain ⟨quoted, escaped, control⟩ form, rfl⟩
  | case6 more ih =>
    obtain ⟨w, form, rfl⟩ := ih (by decide) h
    exact ⟨0x75 :: w, form, rfl⟩
  | case7 b more _ known ih =>
    obtain ⟨w, form, rfl⟩ := ih (by decide) h
    exact ⟨b :: w, .short known form, rfl⟩
  | case8 => cases h
  | case9 seen b more few' ih =>
    have few'' : (SkipMode.hex (seen ++ [b])).begun.length ≤ 5 := by
      simp only [SkipMode.begun, List.length_cons, List.length_append, List.length_nil]
      omega
    obtain ⟨w, form, rfl⟩ := ih few'' h
    refine ⟨b :: w, ?_, rfl⟩
    simpa only [SkipMode.begun, List.cons_append, List.append_assoc, List.nil_append] using form
  | case10 seen b more enough known ih =>
    obtain ⟨w, form, rfl⟩ := ih (by decide) h
    simp only [SkipMode.begun, List.length_cons] at few
    have four : (seen ++ [b]).length = 4 := by
      rw [List.length_append, List.length_singleton]
      omega
    refine ⟨b :: w, ?_, rfl⟩
    have hex := TextForm.hex four known form
    simpa only [SkipMode.begun, List.cons_append, List.append_assoc, List.nil_append] using hex
  | case11 => cases h

theorem skipText_eq_ok_iff :
    skipText .plain bytes = .ok rest ↔ ∃ body, TextForm body ∧ bytes = body ++ quote :: rest := by
  constructor
  · exact @exists_of_skipText _ _ .plain (by decide)
  · rintro ⟨body, form, rfl⟩
    exact skipText_body form rest

/-! ## Scalars -/

theorem eq_of_literal {word : List UInt8} (h : literal word bytes = .ok rest) :
    bytes = word ++ rest := by
  fun_induction literal word bytes with
  | case1 => cases h; rfl
  | case2 => cases h
  | case3 w ws more ih => rw [ih h, List.cons_append]
  | case4 => cases h

theorem exists_of_skipScalar {b : UInt8} (h : skipScalar b bytes = .ok rest) :
    ∃ v, Form .value v ∧ b :: bytes = v ++ rest := by
  have number {sign whole fraction power : List UInt8} (signed : sign = [] ∨ sign = [minus])
      (isWhole : WholeForm whole) (isFraction : FractionForm fraction) (isPower : PowerForm power) :=
    Form.number (NumberForm.mk signed isWhole isFraction isPower)
  unfold skipScalar at h
  split at h
  · next eq => exact ⟨ascii "null", .null, by rw [eq, eq_of_literal h]; rfl⟩
  split at h
  · next eq => exact ⟨ascii "true", .flag true, by rw [eq, eq_of_literal h]; rfl⟩
  split at h
  · next eq => exact ⟨ascii "false", .flag false, by rw [eq, eq_of_literal h]; rfl⟩
  split at h
  · next eq =>
    obtain ⟨whole, fraction, power, isWhole, isFraction, isPower, rfl⟩ := exists_of_skipNumber h
    refine ⟨_, number (.inr rfl) isWhole isFraction isPower, ?_⟩
    simp only [eq, List.cons_append, List.nil_append, List.append_assoc]
  split at h
  · obtain ⟨whole, fraction, power, isWhole, isFraction, isPower, eq⟩ := exists_of_skipNumber h
    refine ⟨_, number (.inl rfl) isWhole isFraction isPower, ?_⟩
    simp only [eq, List.nil_append, List.append_assoc]
  split at h
  · next eq =>
    obtain ⟨body, form, rfl⟩ := skipText_eq_ok_iff.1 h
    refine ⟨_, .text form, ?_⟩
    simp only [eq, List.cons_append, List.nil_append, List.append_assoc]
  · cases h

theorem skipScalar_digit {d : UInt8} (digit : isDigit d = true) (more : List UInt8) :
    skipScalar d more = skipNumber (d :: more) := by
  have other : ∀ d : UInt8, isDigit d = true → d ≠ 0x6e ∧ d ≠ 0x74 ∧ d ≠ 0x66 ∧ d ≠ minus := by
    decide +kernel
  obtain ⟨null, yes, no, positive⟩ := other d digit
  rw [skipScalar, if_neg null, if_neg yes, if_neg no, if_neg positive, if_pos digit]

theorem skipScalar_number {v : List UInt8} (number : NumberForm v) (ends : EndsNumber rest) :
    ∃ b more, v = b :: more ∧ b ≠ openList ∧ b ≠ openObject ∧
      skipScalar b (more ++ rest) = .ok rest := by
  have inside : ∀ d : UInt8, isDigit d = true → d ≠ openList ∧ d ≠ openObject := by decide +kernel
  obtain @⟨sign, whole, fraction, power, signed, isWhole, isFraction, isPower⟩ := number
  have skipped := skipNumber_whole isWhole isFraction isPower ends
  rcases signed with rfl | rfl
  · obtain ⟨d, more, rfl, digit⟩ := isWhole.exists_cons
    obtain ⟨list, object⟩ := inside d digit
    refine ⟨d, more ++ (fraction ++ power), rfl, list, object, ?_⟩
    rw [skipScalar_digit digit]
    simpa only [List.cons_append, List.append_assoc] using skipped
  · have negative (more : List UInt8) : skipScalar minus more = skipNumber more := rfl
    refine ⟨minus, whole ++ (fraction ++ power), rfl, by decide, by decide, ?_⟩
    rw [negative]
    simpa only [List.append_assoc] using skipped

/-! ## The open brackets -/

variable {k : Bracket} {outer : List Bracket} {b : UInt8}

def goOn : List Bracket × List UInt8 → Except Fault (List UInt8)
  | ([], rest) => .ok rest
  | (k :: outer, rest) => skipValue (k :: outer) rest

def skipOn (outer : List Bracket) (bytes : List UInt8) : Except Fault (List UInt8) :=
  skipAfter outer bytes >>= goOn

def skipInside (k : Bracket) (outer : List Bracket) (bytes : List UInt8) :
    Except Fault (List UInt8) :=
  skipName k bytes >>= skipValue (k :: outer)

theorem skipValue_eq (outer : List Bracket) (bytes : List UInt8) :
    skipValue outer bytes = skipStep outer bytes >>= goOn := by
  rw [skipValue]
  split <;> rename_i step <;> rw [step] <;> rfl

theorem map_goOn (r : Except Fault (List UInt8)) :
    r.map ((k :: outer, ·)) >>= goOn = r >>= skipValue (k :: outer) := by
  cases r <;> rfl

theorem skipOn_cons (eq : skipBlank bytes = b :: rest) :
    skipOn (k :: outer) bytes =
      if b = comma then skipInside k outer rest
      else if b = k.closing then skipOn outer rest
      else .error (.peek k.expectedCommaOrEnd (b :: rest)) := by
  rw [skipOn, skipAfter, eq]
  simp only
  split_ifs
  · exact map_goOn _
  · rfl
  · rfl

theorem skipStep_skipBlank (outer : List Bracket) (bytes : List UInt8) :
    skipStep outer (skipBlank bytes) = skipStep outer bytes := by
  cases eq : skipBlank bytes with
  | nil => rw [skipStep, skipStep, eq]; rfl
  | cons b rest => rw [skipStep, skipStep, eq, skipBlank_of_solid (solid_of_skipBlank eq)]

theorem skipInside_skipBlank (k : Bracket) (outer : List Bracket) (bytes : List UInt8) :
    skipInside k outer (skipBlank bytes) = skipInside k outer bytes := by
  cases k with
  | list =>
    have same (bytes : List UInt8) : skipInside .list outer bytes = skipValue (.list :: outer) bytes :=
      rfl
    rw [same, same, skipValue_eq, skipValue_eq, skipStep_skipBlank]
  | object =>
    have same : skipName .object (skipBlank bytes) = skipName .object bytes := by
      cases eq : skipBlank bytes with
      | nil => simp only [skipName, eq]; rfl
      | cons b rest => simp only [skipName, eq, skipBlank_of_solid (solid_of_skipBlank eq)]
    rw [skipInside, skipInside, same]

theorem skipOpened_eq (eq : skipBlank bytes = b :: rest) :
    skipOpened k outer bytes >>= goOn =
      if b = k.closing then skipOn outer rest else skipInside k outer bytes := by
  rw [← skipInside_skipBlank, skipOpened, eq]
  simp only
  split_ifs
  · rfl
  · exact map_goOn _

theorem skipValue_opening (eq : skipBlank bytes = k.opening :: rest) :
    skipValue outer bytes = skipOpened k outer rest >>= goOn := by
  rw [skipValue_eq, skipStep, eq]
  cases k <;> rfl

theorem skipValue_scalar (eq : skipBlank bytes = b :: rest) (list : b ≠ openList)
    (object : b ≠ openObject) : skipValue outer bytes = skipScalar b rest >>= skipOn outer := by
  rw [skipValue_eq, skipStep, eq]
  simp only [list, object, if_false]
  cases skipScalar b rest <;> rfl

/-! ## Values of the grammar are skipped -/

theorem skipColon_blank {ws : List UInt8} (blank : Blank ws) (rest : List UInt8) :
    skipColon (ws ++ colon :: rest) = .ok rest := by
  rw [skipColon, blank.skipBlank_append, skipBlank_of_solid rfl]
  rfl

theorem skipName_lead {front : List UInt8} (lead : LeadForm k front) (rest : List UInt8) :
    skipName k (front ++ rest) = .ok rest := by
  cases lead with
  | item => rfl
  | @member ws body ws' before name after =>
    have skipped := skipText_body name (ws' ++ colon :: rest)
    simp only [skipName, List.append_assoc, List.cons_append, List.nil_append,
      before.skipBlank_append, skipBlank_of_solid (b := quote) rfl, if_true, skipped]
    exact skipColon_blank after rest

/-- What a part of the grammar is for the machine: a value leads on to what follows it, and what is
inside brackets leads on to what follows those. -/
def Leads : Part → List UInt8 → Prop
  | .value, v => ∀ {ws outer rest}, Blank ws → EndsNumber rest →
    skipValue outer (ws ++ (v ++ rest)) = skipOn outer rest
  | .inside k, vs => ∀ {outer rest}, skipInside k outer (vs ++ k.closing :: rest) = skipOn outer rest

theorem leads_scalar {v : List UInt8} (solid : ∃ b more, v = b :: more ∧ isBlank b = false)
    (scalar : ∀ {rest}, EndsNumber rest → ∃ b more, v = b :: more ∧ b ≠ openList ∧ b ≠ openObject ∧
      skipScalar b (more ++ rest) = .ok rest) : Leads .value v := by
  intro ws outer rest blank ends
  obtain ⟨b, more, rfl, list, object, skipped⟩ := scalar ends
  obtain ⟨_, _, same, solid⟩ := solid
  obtain ⟨rfl, -⟩ := List.cons_eq_cons.1 same
  have eq : skipBlank (ws ++ (b :: more ++ rest)) = b :: (more ++ rest) := by
    rw [blank.skipBlank_append, List.cons_append, skipBlank_of_solid solid]
  rw [skipValue_scalar eq list object, skipped]
  rfl

theorem isBlank_opening (k : Bracket) : isBlank k.opening = false := by cases k <;> rfl

theorem isBlank_closing (k : Bracket) : isBlank k.closing = false := by cases k <;> rfl

theorem closing_ne_comma (k : Bracket) : k.closing ≠ comma := by cases k <;> decide

theorem endsNumber_closing (k : Bracket) (rest : List UInt8) : EndsNumber (k.closing :: rest) := by
  rintro b ⟨⟩
  cases k <;> decide

theorem endsNumber_comma (rest : List UInt8) : EndsNumber (comma :: rest) := by
  rintro b ⟨⟩
  decide

theorem Form.inside_ne_closing {vs : List UInt8} (form : Form (.inside k) vs) (rest : List UInt8) :
    ∃ b more, skipBlank (vs ++ rest) = b :: more ∧ b ≠ k.closing := by
  have starts {front ws v more : List UInt8} (lead : LeadForm k front) (before : Blank ws)
      (value : Form .value v) :
      ∃ b more', skipBlank (front ++ (ws ++ (v ++ more))) = b :: more' ∧ b ≠ k.closing := by
    cases lead with
    | item =>
      obtain ⟨b, v, rfl, solid, other⟩ := value.exists_cons
      exact ⟨b, v ++ more, by
        rw [List.nil_append, before.skipBlank_append, List.cons_append, skipBlank_of_solid solid],
        other _⟩
    | @member ws' body ws₁ outside =>
      refine ⟨quote, body ++ quote :: (ws₁ ++ [colon]) ++ (ws ++ (v ++ more)), ?_, by decide⟩
      rw [List.append_assoc, outside.skipBlank_append, List.cons_append]
      exact skipBlank_of_solid rfl _
  cases form with
  | last lead before value =>
    simp only [List.append_assoc]
    exact starts lead before value
  | more lead before value =>
    simp only [List.append_assoc]
    exact starts lead before value

/-- All that the grammar derives is skipped. -/
theorem Form.leads {part : Part} {v : List UInt8} (form : Form part v) : Leads part v := by
  induction form with
  | null =>
    refine leads_scalar ⟨_, _, rfl, rfl⟩ fun {rest} _ => ⟨_, _, rfl, by decide, by decide, ?_⟩
    exact literal_append (ascii "ull") rest
  | flag b =>
    cases b with
    | true =>
      refine leads_scalar ⟨_, _, rfl, rfl⟩ fun {rest} _ => ⟨_, _, rfl, by decide, by decide, ?_⟩
      exact literal_append (ascii "rue") rest
    | false =>
      refine leads_scalar ⟨_, _, rfl, rfl⟩ fun {rest} _ => ⟨_, _, rfl, by decide, by decide, ?_⟩
      exact literal_append (ascii "alse") rest
  | number number =>
    obtain ⟨b, more, eq, solid, -⟩ := (Form.number number).exists_cons
    exact leads_scalar ⟨b, more, eq, solid⟩ fun ends => skipScalar_number number ends
  | @text body form =>
    refine leads_scalar ⟨_, _, rfl, rfl⟩ fun {rest} _ => ⟨_, _, rfl, by decide, by decide, ?_⟩
    have skipped := skipText_body form rest
    rw [List.append_assoc]
    exact skipped
  | @empty k ws blank =>
    intro ws' outer rest before _
    have opening : skipBlank (ws' ++ (k.opening :: (ws ++ [k.closing]) ++ rest)) =
        k.opening :: (ws ++ k.closing :: rest) := by
      rw [before.skipBlank_append, List.cons_append, skipBlank_of_solid (isBlank_opening k),
        List.append_assoc]
      rfl
    have closing : skipBlank (ws ++ k.closing :: rest) = k.closing :: rest := by
      rw [blank.skipBlank_append, skipBlank_of_solid (isBlank_closing k)]
    rw [skipValue_opening opening, skipOpened_eq closing, if_pos rfl]
  | @filled k vs inside ih =>
    intro ws outer rest before _
    have opening : skipBlank (ws ++ (k.opening :: (vs ++ [k.closing]) ++ rest)) =
        k.opening :: (vs ++ k.closing :: rest) := by
      rw [before.skipBlank_append, List.cons_append, skipBlank_of_solid (isBlank_opening k),
        List.append_assoc]
      rfl
    obtain ⟨b, more, first, other⟩ := inside.inside_ne_closing (k.closing :: rest)
    rw [skipValue_opening opening, skipOpened_eq first, if_neg other]
    exact ih
  | @last k front ws v ws' lead before _ after ih =>
    intro outer rest
    have ends := after.endsNumber (endsNumber_closing k rest)
    have closing : skipBlank (ws' ++ k.closing :: rest) = k.closing :: rest := by
      rw [after.skipBlank_append, skipBlank_of_solid (isBlank_closing k)]
    have value : skipValue (k :: outer) (ws ++ (v ++ (ws' ++ k.closing :: rest))) = skipOn outer rest := by
      rw [ih before ends, skipOn_cons closing, if_neg (closing_ne_comma k), if_pos rfl]
    rw [skipInside]
    simp only [List.append_assoc, skipName_lead lead]
    exact value
  | @more k front ws v ws' vs lead before _ after _ ih others =>
    intro outer rest
    have ends := after.endsNumber (endsNumber_comma (vs ++ k.closing :: rest))
    have next : skipBlank (ws' ++ comma :: (vs ++ k.closing :: rest)) =
        comma :: (vs ++ k.closing :: rest) := by
      rw [after.skipBlank_append, skipBlank_of_solid rfl]
    have value : skipValue (k :: outer) (ws ++ (v ++ (ws' ++ comma :: (vs ++ k.closing :: rest)))) =
        skipOn outer rest := by
      rw [ih before ends, skipOn_cons next, if_pos rfl]
      exact others
    rw [skipInside]
    simp only [List.append_assoc, List.cons_append, skipName_lead lead]
    exact value

theorem Form.skipValue {v ws : List UInt8} (form : Form .value v) (blank : Blank ws)
    (ends : EndsNumber rest) : skipValue [] (ws ++ (v ++ rest)) = .ok rest :=
  form.leads blank ends

/-! ## Nothing else is -/

theorem exists_of_skipColon (h : skipColon bytes = .ok rest) :
    ∃ ws, Blank ws ∧ bytes = ws ++ colon :: rest := by
  unfold skipColon at h
  split at h
  · cases h
  · next eq =>
    obtain ⟨ws, blank, split⟩ := blanks_before eq
    split at h
    · next is => cases h; exact ⟨ws, blank, by rw [split, is]⟩
    · cases h

theorem exists_of_skipName (h : skipName k bytes = .ok rest) :
    ∃ front, LeadForm k front ∧ bytes = front ++ rest := by
  cases k with
  | list => cases h; exact ⟨[], .item, rfl⟩
  | object =>
    simp only [skipName] at h
    split at h
    · cases h
    · next eq =>
      obtain ⟨ws, before, rfl⟩ := blanks_before eq
      split at h
      · next is =>
        obtain ⟨middle, text, after⟩ := exists_of_bind_eq_ok h
        obtain ⟨body, name, rfl⟩ := skipText_eq_ok_iff.1 text
        obtain ⟨ws', blank, rfl⟩ := exists_of_skipColon after
        refine ⟨_, .member before name blank, ?_⟩
        simp only [is, List.append_assoc, List.cons_append, List.nil_append]
      · cases h

def ValueSound (n : Nat) : Prop :=
  ∀ {outer bytes rest}, bytes.length ≤ n → skipValue outer bytes = .ok rest →
    ∃ ws v more, Blank ws ∧ Form .value v ∧ bytes = ws ++ (v ++ more) ∧ skipOn outer more = .ok rest

def InsideSound (n : Nat) : Prop :=
  ∀ {k outer bytes rest}, bytes.length ≤ n → skipInside k outer bytes = .ok rest →
    ∃ vs more, Form (.inside k) vs ∧ bytes = vs ++ k.closing :: more ∧ skipOn outer more = .ok rest

theorem exists_of_skipOpened {n : Nat} (inside : InsideSound n) (short : bytes.length ≤ n)
    (h : skipOpened k outer bytes >>= goOn = .ok rest) :
    ∃ v more, Form .value v ∧ k.opening :: bytes = v ++ more ∧ skipOn outer more = .ok rest := by
  cases eq : skipBlank bytes with
  | nil =>
    rw [skipOpened, eq] at h
    cases h
  | cons b tail =>
    rw [skipOpened_eq eq] at h
    split at h
    · next is =>
      obtain ⟨ws, blank, rfl⟩ := blanks_before eq
      refine ⟨_, tail, .empty k blank, ?_, h⟩
      simp only [is, List.append_assoc, List.cons_append, List.nil_append]
    · obtain ⟨vs, more, form, rfl, on⟩ := inside short h
      refine ⟨_, more, .filled form, ?_, on⟩
      simp only [List.append_assoc, List.cons_append, List.nil_append]

theorem valueSound {n : Nat} (inside : ∀ m < n, InsideSound m) : ValueSound n := by
  intro outer bytes rest short h
  cases eq : skipBlank bytes with
  | nil =>
    rw [skipValue_eq, skipStep, eq] at h
    cases h
  | cons b tail =>
    obtain ⟨ws, blank, rfl⟩ := blanks_before eq
    rw [List.length_append, List.length_cons] at short
    have value : ∃ v more, Form .value v ∧ b :: tail = v ++ more ∧ skipOn outer more = .ok rest := by
      by_cases list : b = openList
      · subst list
        rw [skipValue_opening (k := .list) eq] at h
        exact exists_of_skipOpened (inside _ (by omega)) le_rfl h
      · by_cases object : b = openObject
        · subst object
          rw [skipValue_opening (k := .object) eq] at h
          exact exists_of_skipOpened (inside _ (by omega)) le_rfl h
        · rw [skipValue_scalar eq list object] at h
          obtain ⟨more, scalar, on⟩ := exists_of_bind_eq_ok h
          obtain ⟨v, form, split⟩ := exists_of_skipScalar scalar
          exact ⟨v, more, form, split, on⟩
    obtain ⟨v, more, form, split, on⟩ := value
    exact ⟨ws, v, more, blank, form, by rw [split], on⟩

theorem insideSound {n : Nat} (value : ValueSound n) (inside : ∀ m < n, InsideSound m) :
    InsideSound n := by
  intro k outer bytes rest short h
  obtain ⟨middle, name, skipped⟩ := exists_of_bind_eq_ok h
  obtain ⟨front, lead, rfl⟩ := exists_of_skipName name
  rw [List.length_append] at short
  obtain ⟨ws, v, more, before, form, rfl, on⟩ := value (by omega) skipped
  obtain ⟨first, tail, rfl, -⟩ := form.exists_cons
  cases eq : skipBlank more with
  | nil =>
    rw [skipOn, skipAfter, eq] at on
    cases on
  | cons b left =>
    obtain ⟨ws', after, rfl⟩ := blanks_before eq
    rw [skipOn_cons eq] at on
    split at on
    · next is =>
      simp only [List.length_append, List.length_cons] at short
      obtain ⟨vs, more, others, rfl, done⟩ := inside left.length (by omega) le_rfl on
      refine ⟨_, more, .more lead before form after others, ?_, done⟩
      simp only [is, List.append_assoc, List.cons_append]
    · split at on
      · next is =>
        refine ⟨_, left, .last lead before form after, ?_, on⟩
        simp only [is, List.append_assoc, List.cons_append]
      · cases on

theorem skip_sound (n : Nat) : ValueSound n ∧ InsideSound n := by
  induction n using Nat.strong_induction_on with
  | _ n ih =>
    have inside : ∀ m < n, InsideSound m := fun m lt => (ih m lt).2
    exact ⟨valueSound inside, insideSound (valueSound inside) inside⟩

theorem exists_of_skipValue (h : skipValue [] bytes = .ok rest) :
    ∃ ws v, Blank ws ∧ Form .value v ∧ bytes = ws ++ (v ++ rest) := by
  obtain ⟨ws, v, more, blank, form, split, on⟩ := (skip_sound bytes.length).1 le_rfl h
  cases on
  exact ⟨ws, v, blank, form, split⟩

end KeyArbiter.Json
