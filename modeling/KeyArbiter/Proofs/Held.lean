import KeyArbiter.Arbiter.HeldKeys
import Mathlib

/-!
# The table of held keys

Only `logical?` can be told from outside: a key whose release is under way looks like one that is up.
-/

namespace KeyArbiter

namespace Hold

theorem find?_insert (h : Hold) (holds : List Hold) (key : PhysicalKey) :
    (insert h holds).find? (·.physical == key) =
      if h.physical = key then some h else holds.find? (·.physical == key) := by
  induction holds with
  | nil => by_cases eq : h.physical = key <;> simp [insert, eq]
  | cons g gs ih =>
    unfold insert
    split
    · by_cases eq : h.physical = key <;> simp [eq]
    split
    · next same => by_cases eq : h.physical = key <;> simp [eq, ← same]
    · next other =>
      by_cases eq : g.physical = key
      · have ne : h.physical ≠ key := by
          rintro rfl
          exact other eq.symm
        simp [eq, ne]
      · simp [eq, ih]

end Hold

namespace HeldKeys

variable (k : HeldKeys) (key : PhysicalKey)

theorem logical?_insert (h : Hold) : (k.insert h).logical? key =
    if h.physical = key then (if h.releasing = none then some h.logical else none)
    else k.logical? key := by
  obtain ⟨physical, logical, releasing⟩ := h
  unfold logical? find? insert
  rw [Hold.find?_insert]
  by_cases eq : physical = key
  · cases releasing <;> simp [eq]
  · simp [eq]

theorem find?_of_mem {k : HeldKeys} {h : Hold} (mem : h ∈ k.holds) : k.find? h.physical = some h := by
  obtain ⟨before, later, split⟩ := List.append_of_mem mem
  have ascending := k.ascending
  rw [split] at ascending
  obtain ⟨-, -, less⟩ := List.pairwise_append.1 ascending
  unfold find?
  rw [split, List.find?_append, List.find?_eq_none.2]
  · simp
  · intro g hg same
    have lt := less g hg h (List.mem_cons_self ..)
    rw [eq_of_beq same] at lt
    exact absurd lt (UInt64.lt_irrefl _)

theorem logical?_finishRelease (released : PhysicalKey) (id : Nat) :
    (k.finishRelease released id).logical? key = k.logical? key := by
  unfold finishRelease
  cases found : k.find? released with
  | none => rfl
  | some h =>
    simp only
    split
    · next releasing =>
      unfold logical? erase
      by_cases eq : key = released
      · subst eq
        have gone : HeldKeys.find? ⟨k.holds.filter (·.physical != key), k.ascending.filter _⟩ key =
            none := by
          unfold find?
          rw [List.find?_eq_none]
          intro g hg
          simpa using (List.mem_filter.1 hg).2
        obtain ⟨physical, logical, releasing'⟩ := h
        cases releasing
        rw [gone, found]
      · have kept : HeldKeys.find? ⟨k.holds.filter (·.physical != released), k.ascending.filter _⟩ key =
            k.find? key := by
          unfold find?
          rw [List.find?_filter]
          congr 1
          funext g
          by_cases same : g.physical = key <;> simp [same, eq]
        rw [kept]
    · rfl

theorem mem_down : key ∈ k.down ↔ (k.logical? key).isSome := by
  unfold down logical?
  constructor
  · intro mem
    obtain ⟨h, hh, rfl⟩ := List.mem_map.1 mem
    obtain ⟨hh, idle⟩ := List.mem_filter.1 hh
    rw [find?_of_mem hh]
    obtain ⟨physical, logical, releasing⟩ := h
    cases releasing with
    | none => rfl
    | some id => cases idle
  · intro some
    split at some
    · next physical logical found =>
      have mem := List.mem_of_find?_eq_some found
      have same := List.find?_some found
      refine List.mem_map.2 ⟨_, List.mem_filter.2 ⟨mem, rfl⟩, ?_⟩
      exact eq_of_beq same
    · cases some

/-! ## Releases under way -/

def Idle (k : HeldKeys) : Prop := ∀ h ∈ k.holds, h.releasing = none

def Leaving (k : HeldKeys) (key : PhysicalKey) (id : Nat) : Prop :=
  ∀ h ∈ k.holds, h.releasing = none ∨ h.physical = key ∧ h.releasing = some id

variable {k key}

theorem Idle.leaving (idle : k.Idle) (id : Nat) : k.Leaving key id := by
  intro h hh
  exact .inl (idle h hh)

theorem Idle.press (idle : k.Idle) (logical : LogicalKey) : (k.press key logical).1.Idle := by
  unfold HeldKeys.press
  split
  · exact idle
  · intro h hh
    rcases Hold.mem_insert hh with rfl | hh
    · rfl
    · exact idle h hh

theorem Idle.release (idle : k.Idle) {id : Nat} {k' : HeldKeys} {logical : LogicalKey}
    (released : k.release key id = some (k', logical)) : k'.Leaving key id := by
  unfold HeldKeys.release at released
  obtain ⟨first, -, eq⟩ := Option.map_eq_some_iff.1 released
  cases eq
  intro h hh
  rcases Hold.mem_insert hh with rfl | hh
  · exact .inr ⟨rfl, rfl⟩
  · exact .inl (idle h hh)

theorem Leaving.finishRelease {id : Nat} (leaving : k.Leaving key id) :
    (k.finishRelease key id).Idle := by
  unfold HeldKeys.finishRelease
  cases found : k.find? key with
  | none =>
    intro h hh
    rcases leaving h hh with idle | ⟨rfl, -⟩
    · exact idle
    · rw [find?_of_mem hh] at found
      cases found
  | some g =>
    simp only
    split
    · intro h hh
      obtain ⟨hh, other⟩ := List.mem_filter.1 hh
      rcases leaving h hh with idle | ⟨rfl, -⟩
      · exact idle
      · simp at other
    · next settled =>
      intro h hh
      rcases leaving h hh with idle | ⟨rfl, releasing⟩
      · exact idle
      · rw [find?_of_mem hh] at found
        cases found
        exact absurd releasing settled

theorem Idle.mem_toList (idle : k.Idle) {logical : LogicalKey} :
    (key, logical) ∈ k.toList ↔ k.logical? key = some logical := by
  unfold toList logical?
  constructor
  · intro mem
    obtain ⟨h, hh, eq⟩ := List.mem_map.1 mem
    obtain ⟨physical, logical', releasing⟩ := h
    cases eq
    obtain rfl : releasing = none := idle _ hh
    have found := find?_of_mem hh
    simp only at found
    rw [found]
  · intro down
    split at down
    · next physical logical' found =>
      cases down
      have same := List.find?_some found
      rw [← eq_of_beq same]
      exact List.mem_map.2 ⟨_, List.mem_of_find?_eq_some found, rfl⟩
    · cases down

theorem ascending_toList (k : HeldKeys) : k.toList.Pairwise fun p q => p.1.word < q.1.word :=
  List.pairwise_map.2 k.ascending

end HeldKeys

end KeyArbiter
