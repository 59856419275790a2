import KeyArbiter.Key.Event

/-!
# Held keys

The keys that are down, each with the logical key that its press was given. A key stays until its
release is settled. Keys stand in the order of their words.
-/

namespace KeyArbiter

structure Hold where
  physical : PhysicalKey
  logical : LogicalKey
  /-- The release under way. -/
  releasing : Option Nat := none
  deriving DecidableEq, Repr

namespace Hold

def Ascending (holds : List Hold) : Prop :=
  holds.Pairwise fun a b => a.physical.word < b.physical.word

/-- Puts a hold where its key belongs, in place of an earlier one of that key. -/
def insert (h : Hold) : List Hold → List Hold
  | [] => [h]
  | g :: gs =>
    if h.physical.word < g.physical.word then h :: g :: gs
    else if h.physical = g.physical then h :: gs
    else g :: insert h gs

theorem mem_insert {h x : Hold} {holds : List Hold} (hx : x ∈ insert h holds) :
    x = h ∨ x ∈ holds := by
  induction holds with
  | nil => simpa [insert] using hx
  | cons g gs ih =>
    simp only [insert] at hx
    split at hx
    · simpa using hx
    split at hx
    · rcases List.mem_cons.1 hx with rfl | hx
      · exact .inl rfl
      · exact .inr (List.mem_cons_of_mem _ hx)
    · rcases List.mem_cons.1 hx with rfl | hx
      · exact .inr (List.mem_cons_self ..)
      · exact (ih hx).imp_right (List.mem_cons_of_mem _)

theorem ascending_insert {h : Hold} {holds : List Hold} (ha : Ascending holds) :
    Ascending (insert h holds) := by
  induction holds with
  | nil => exact List.pairwise_singleton _ _
  | cons g gs ih =>
    have ⟨first, rest⟩ := List.pairwise_cons.1 ha
    simp only [insert]
    split
    · next lt =>
      refine List.pairwise_cons.2 ⟨fun x hx => ?_, ha⟩
      rcases List.mem_cons.1 hx with rfl | hx
      · exact lt
      · exact UInt64.lt_trans lt (first x hx)
    split
    · next eq => exact List.pairwise_cons.2 ⟨fun x hx => eq ▸ first x hx, rest⟩
    · next nlt ne =>
      refine List.pairwise_cons.2 ⟨fun x hx => ?_, ih rest⟩
      rcases mem_insert hx with rfl | hx
      · refine UInt64.lt_of_le_of_ne (UInt64.not_lt.1 nlt) fun eq => ne ?_
        cases hp : x.physical; cases hq : g.physical
        simp_all
      · exact first x hx

end Hold

structure HeldKeys where
  holds : List Hold := []
  ascending : Hold.Ascending holds := by exact List.Pairwise.nil
  deriving DecidableEq, Repr

instance : Inhabited HeldKeys := ⟨{}⟩

namespace HeldKeys

def find? (k : HeldKeys) (key : PhysicalKey) : Option Hold := k.holds.find? (·.physical == key)

def insert (k : HeldKeys) (h : Hold) : HeldKeys := ⟨Hold.insert h k.holds, Hold.ascending_insert k.ascending⟩

def erase (k : HeldKeys) (key : PhysicalKey) : HeldKeys :=
  ⟨k.holds.filter (·.physical != key), List.Pairwise.filter _ k.ascending⟩

/-- The key is down and no release of it is under way. -/
def logical? (k : HeldKeys) (key : PhysicalKey) : Option LogicalKey :=
  match k.find? key with
  | some ⟨_, logical, none⟩ => some logical
  | _ => none

/-- Presses a key. One that is down stays as it is: this press repeats it. -/
def press (k : HeldKeys) (key : PhysicalKey) (logical : LogicalKey) :
    HeldKeys × Transition × LogicalKey :=
  match k.logical? key with
  | some first => (k, .repeated, first)
  | none => (k.insert ⟨key, logical, none⟩, .down, logical)

/-- Starts the release of a key that is down, and gives its logical key. -/
def release (k : HeldKeys) (key : PhysicalKey) (id : Nat) : Option (HeldKeys × LogicalKey) :=
  (k.logical? key).map fun logical => (k.insert ⟨key, logical, some id⟩, logical)

/-- Drops a key whose release is settled, unless it was pressed again since. -/
def finishRelease (k : HeldKeys) (key : PhysicalKey) (id : Nat) : HeldKeys :=
  match k.find? key with
  | some h => if h.releasing = some id then k.erase key else k
  | none => k

/-- All keys that are down or on their way up, with their logical keys. -/
def toList (k : HeldKeys) : List (PhysicalKey × LogicalKey) :=
  k.holds.map fun h => (h.physical, h.logical)

/-- The keys that are down and not on their way up. -/
def down (k : HeldKeys) : List PhysicalKey :=
  (k.holds.filter (·.releasing.isNone)).map (·.physical)

end HeldKeys

end KeyArbiter
