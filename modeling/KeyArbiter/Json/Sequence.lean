import KeyArbiter.Json.Skip

/-!
# Lists and objects, item by item

What stands between the items: commas, names, colons, and the closing bracket. The items themselves
are read by whoever wants them.
-/

namespace KeyArbiter.Json

/-! ## Items -/

/-- Goes on to the next item of a list, and tells whether there is one. If not, the list ends here,
before its bracket. -/
def nextItem (first : Bool) (bytes : List UInt8) : Except Fault (Bool × List UInt8) :=
  match skipBlank bytes with
  | [] => .error (.peek .eofList [])
  | b :: rest =>
    if b = closeList then .ok (false, b :: rest)
    else if first then .ok (true, b :: rest)
    else if b = comma then
      match skipBlank rest with
      | [] => .error (.peek .eofValue [])
      | c :: rest =>
        if c = closeList then .error (.peek .trailingComma (c :: rest))
        else .ok (true, c :: rest)
    else .error (.peek .expectedListCommaOrEnd (b :: rest))

def endList (bytes : List UInt8) : Except Fault (List UInt8) :=
  match skipBlank bytes with
  | [] => .error (.peek .eofList [])
  | b :: rest =>
    if b = closeList then .ok rest
    else if b = comma then
      match skipBlank rest with
      | [] => .error (.peek .trailingCharacters [])
      | c :: rest =>
        .error (.peek (if c = closeList then .trailingComma else .trailingCharacters) (c :: rest))
    else .error (.peek .trailingCharacters (b :: rest))

/-- What is still unread when a list is given up: it ends here, or its next comma is passed. -/
def abandonList (bytes : List UInt8) : List UInt8 :=
  match skipBlank bytes with
  | [] => []
  | b :: rest =>
    if b = closeList then rest
    else if b = comma then skipBlank rest
    else b :: rest

/-! ## Names -/

/-- Goes on to the next member of an object and reads its name, or gives none if the object ends
here, before its bracket. -/
def nextName (first : Bool) (bytes : List UInt8) : Except Fault (Option String × List UInt8) :=
  match skipBlank bytes with
  | [] => .error (.peek .eofObject [])
  | b :: rest =>
    if b = closeObject then .ok (none, b :: rest)
    else if first then
      if b = quote then (readText rest).map fun (name, rest) => (some name, rest)
      else .error (.peek .keyMustBeText (b :: rest))
    else if b = comma then
      match skipBlank rest with
      | [] => .error (.peek .eofValue [])
      | c :: rest =>
        if c = quote then (readText rest).map fun (name, rest) => (some name, rest)
        else if c = closeObject then .error (.peek .trailingComma (c :: rest))
        else .error (.peek .keyMustBeText (c :: rest))
    else .error (.peek .expectedObjectCommaOrEnd (b :: rest))

def endObject (bytes : List UInt8) : Except Fault (List UInt8) :=
  match skipBlank bytes with
  | [] => .error (.peek .eofObject [])
  | b :: rest =>
    if b = closeObject then .ok rest
    else if b = comma then .error (.peek .trailingComma (b :: rest))
    else .error (.peek .trailingCharacters (b :: rest))

/-- What is still unread when an object is given up: it ends here, or goes on. -/
def abandonObject (bytes : List UInt8) : List UInt8 :=
  match skipBlank bytes with
  | [] => []
  | b :: rest => if b = closeObject then rest else b :: rest

/-! ## Each step reads something -/

section

variable {first : Bool} {bytes rest : List UInt8}

theorem nextItem_length_le {more : Bool} (h : nextItem first bytes = .ok (more, rest)) :
    rest.length ≤ bytes.length := by
  have len := skipBlank_length_le bytes
  unfold nextItem at h
  split at h
  · cases h
  · next b tail heq =>
    rw [heq, List.length_cons] at len
    split at h
    · cases h; simp; omega
    split at h
    · cases h; simp; omega
    split at h
    · have len' := skipBlank_length_le tail
      split at h
      · cases h
      · next heq' =>
        rw [heq', List.length_cons] at len'
        split at h
        · cases h
        · cases h; simp; omega
    · cases h

theorem endList_shorter (h : endList bytes = .ok rest) : rest.length < bytes.length := by
  have len := skipBlank_length_le bytes
  unfold endList at h
  split at h
  · cases h
  · next b tail heq =>
    rw [heq, List.length_cons] at len
    split at h
    · cases h; omega
    split at h
    · split at h <;> cases h
    · cases h

theorem nextName_length_le {o : Option String} (h : nextName first bytes = .ok (o, rest)) :
    rest.length ≤ bytes.length := by
  have len := skipBlank_length_le bytes
  unfold nextName at h
  split at h
  · cases h
  · next b tail heq =>
    rw [heq, List.length_cons] at len
    split at h
    · cases h; simp; omega
    split at h
    · split at h
      · obtain ⟨_, h₁, h₂⟩ := exists_of_map_eq_ok h
        cases h₂
        have := readText_shorter h₁
        omega
      · cases h
    split at h
    · have len' := skipBlank_length_le tail
      split at h
      · cases h
      · next heq' =>
        rw [heq', List.length_cons] at len'
        split at h
        · obtain ⟨_, h₁, h₂⟩ := exists_of_map_eq_ok h
          cases h₂
          have := readText_shorter h₁
          omega
        split at h <;> cases h
    · cases h

theorem endObject_shorter (h : endObject bytes = .ok rest) : rest.length < bytes.length := by
  have len := skipBlank_length_le bytes
  unfold endObject at h
  split at h
  · cases h
  · next b tail heq =>
    rw [heq, List.length_cons] at len
    split at h
    · cases h; omega
    split at h <;> cases h

end

/-! ## All items, all members -/

def readItems {α : Type} (r : Reader α) (first : Bool) (bytes : List UInt8) :
    Except Fault (List α × List UInt8) :=
  match _hn : nextItem first bytes with
  | .error e => .error e
  | .ok (false, rest) => .ok ([], rest)
  | .ok (true, start) =>
    match _hr : r.run start with
    | .error e => .error e
    | .ok (a, rest) => (readItems r false rest).map fun (as, rest) => (a :: as, rest)
termination_by bytes.length
decreasing_by exact Nat.lt_of_lt_of_le (r.run_shorter _hr) (nextItem_length_le _hn)

theorem readItems_length_le {α : Type} {r : Reader α} {first : Bool} {bytes rest : List UInt8}
    {as : List α} (h : readItems r first bytes = .ok (as, rest)) :
    rest.length ≤ bytes.length := by
  fun_induction readItems r first bytes generalizing as rest with
  | case1 => cases h
  | case2 _ _ _ hn => cases h; exact nextItem_length_le hn
  | case3 => cases h
  | case4 _ _ _ hn _ _ hr ih =>
    obtain ⟨_, h₁, h₂⟩ := exists_of_map_eq_ok h
    cases h₂
    have := ih h₁
    have := r.run_shorter hr
    have := nextItem_length_le hn
    omega

/-- Takes the member of a given name into what is gathered so far. -/
structure MemberReader (σ : Type) where
  run : String → σ → List UInt8 → Except Fault (σ × List UInt8)
  run_shorter : ∀ {name : String} {s t : σ} {bytes rest : List UInt8},
    run name s bytes = .ok (t, rest) → rest.length < bytes.length

def readMembers {σ : Type} (r : MemberReader σ) (first : Bool) (s : σ) (bytes : List UInt8) :
    Except Fault (σ × List UInt8) :=
  match _hn : nextName first bytes with
  | .error e => .error e
  | .ok (none, rest) => .ok (s, rest)
  | .ok (some name, start) =>
    match _hr : r.run name s start with
    | .error e => .error e
    | .ok (s, rest) => readMembers r false s rest
termination_by bytes.length
decreasing_by exact Nat.lt_of_lt_of_le (r.run_shorter _hr) (nextName_length_le _hn)

theorem readMembers_length_le {σ : Type} {r : MemberReader σ} {first : Bool} {s t : σ}
    {bytes rest : List UInt8} (h : readMembers r first s bytes = .ok (t, rest)) :
    rest.length ≤ bytes.length := by
  fun_induction readMembers r first s bytes with
  | case1 => cases h
  | case2 _ _ _ _ hn => cases h; exact nextName_length_le hn
  | case3 => cases h
  | case4 _ _ _ _ _ hn _ _ hr ih =>
    have := ih h
    have := r.run_shorter hr
    have := nextName_length_le hn
    omega

end KeyArbiter.Json
