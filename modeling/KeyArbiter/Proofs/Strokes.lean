import KeyArbiter.Proofs.Keystroke
import Mathlib

/-!
# Strokes

A key goes down, perhaps repeats, and goes up again. The dispatches of one key, but for releases of
a key that was up, are such strokes, one after the other, the last of them perhaps not ended.
-/

namespace KeyArbiter

/-! ## The words of a key -/

/-- One stroke of a key: all of it with the logical key of its press. -/
def stroke (logical : LogicalKey) (repeats : Nat) : List (Transition × LogicalKey) :=
  (.down, logical) :: List.replicate repeats (.repeated, logical) ++ [(.up, logical)]

def strokes (groups : List (LogicalKey × Nat)) : List (Transition × LogicalKey) :=
  groups.flatMap fun g => stroke g.1 g.2

/-- Words of strokes, after which the key is up, or is down with this logical key. -/
inductive Strokes : Option LogicalKey → List (Transition × LogicalKey) → Prop
  | nothing : Strokes none []
  | down {word : List (Transition × LogicalKey)} (before : Strokes none word)
    (logical : LogicalKey) : Strokes (some logical) (word ++ [(.down, logical)])
  | repeated {word : List (Transition × LogicalKey)} {logical : LogicalKey}
    (before : Strokes (some logical) word) :
    Strokes (some logical) (word ++ [(.repeated, logical)])
  | up {word : List (Transition × LogicalKey)} {logical : LogicalKey}
    (before : Strokes (some logical) word) : Strokes none (word ++ [(.up, logical)])

namespace Strokes

theorem exists_groups {key : Option LogicalKey} {word : List (Transition × LogicalKey)}
    (h : Strokes key word) : ∃ groups, match key with
      | none => word = strokes groups
      | some logical => ∃ n,
        word = strokes groups ++ (.down, logical) :: List.replicate n (.repeated, logical) := by
  induction h with
  | nothing => exact ⟨[], rfl⟩
  | down before logical ih =>
    obtain ⟨groups, rfl⟩ := ih
    exact ⟨groups, 0, rfl⟩
  | repeated before ih =>
    obtain ⟨groups, n, rfl⟩ := ih
    refine ⟨groups, n + 1, ?_⟩
    rw [List.replicate_succ', List.append_assoc, List.cons_append]
  | @up _ logical before ih =>
    obtain ⟨groups, n, rfl⟩ := ih
    refine ⟨groups ++ [(logical, n)], ?_⟩
    simp [strokes, stroke]

/-- A word of strokes is the start of whole strokes. -/
theorem prefix_strokes {key : Option LogicalKey} {word : List (Transition × LogicalKey)}
    (h : Strokes key word) : ∃ groups, word <+: strokes groups := by
  obtain ⟨groups, eq⟩ := h.exists_groups
  cases key with
  | none => exact ⟨groups, by rw [eq]⟩
  | some logical =>
    obtain ⟨n, rfl⟩ := eq
    refine ⟨groups ++ [(logical, n)], [(.up, logical)], ?_⟩
    simp [strokes, stroke]

end Strokes

/-! ## The dispatches of a key -/

/-- The word that dispatches tell of a key. An orphan release tells nothing. -/
def wordOf (key : PhysicalKey) (ds : List Dispatch) : List (Transition × LogicalKey) :=
  (ds.filter fun d => d.physical = key ∧ d.orphan = false).map fun d => (d.transition, d.logical)

theorem wordOf_append (key : PhysicalKey) (ds more : List Dispatch) :
    wordOf key (ds ++ more) = wordOf key ds ++ wordOf key more := by
  simp [wordOf]

theorem wordOf_mono (key : PhysicalKey) {ds all : List Dispatch} (first : ds <+: all) :
    wordOf key ds <+: wordOf key all := by
  obtain ⟨more, rfl⟩ := first
  rw [wordOf_append]
  exact List.prefix_append _ _

theorem wordOf_singleton (key : PhysicalKey) (d : Dispatch) :
    wordOf key [d] =
      if d.physical = key ∧ d.orphan = false then [(d.transition, d.logical)] else [] := by
  by_cases told : d.physical = key ∧ d.orphan = false <;> simp [wordOf, told]

/-- The dispatches of every key are strokes, and the held keys say where each stands. -/
def Desk.InStrokes (k : Desk) : Prop :=
  ∀ key, Strokes (k.book.held.logical? key) (wordOf key (dispatchesOf k.past))

theorem Keystroke.strokes {held held' : HeldKeys} {id : Nat} {e : KeyEvent} {d : Dispatch}
    (h : Keystroke held id e d held') {key : PhysicalKey} {word : List (Transition × LogicalKey)}
    (before : Strokes (held.logical? key) word) :
    Strokes (held'.logical? key) (word ++ wordOf key [d]) := by
  rw [wordOf_singleton]
  by_cases own : d.physical = key
  swap
  · rw [if_neg fun told => own told.1, List.append_nil]
    cases h with
    | down | up => rwa [HeldKeys.logical?_insert, if_neg own]
    | repeated | orphan => exact before
  subst own
  cases h with
  | down press up logical =>
    rw [HeldKeys.logical?_insert]
    rw [up] at before
    simpa using Strokes.down before logical
  | repeated press isDown =>
    rw [isDown] at before ⊢
    simpa using Strokes.repeated before
  | up release isDown =>
    rw [HeldKeys.logical?_insert]
    rw [isDown] at before
    simpa using Strokes.up before
  | orphan release isUp logical => simpa using before

theorem HeldKeys.logical?_settle (held : HeldKeys) (d : Dispatch) (key : PhysicalKey) :
    (held.settle d).logical? key = held.logical? key := by
  unfold settle
  split
  · exact logical?_finishRelease ..
  · rfl

namespace Desk.InStrokes

variable {k k' : Desk}

theorem turn (turn : Turn k k') (h : k.InStrokes) : k'.InStrokes := by
  intro key
  cases turn with
  | fresh stroke past docket =>
    rw [past, dispatchesOf_dispatched, wordOf_append]
    exact stroke.strokes (h key)
  | settled owed held dispatches =>
    rw [held, HeldKeys.logical?_settle, dispatches]
    exact h key
  | quiet held dispatches =>
    rw [held, dispatches]
    exact h key

theorem of_blank (blank : k.Blank) : k.InStrokes := by
  intro key
  rw [blank.book, dispatchesOf_of_blank blank]
  exact .nothing

end Desk.InStrokes

theorem Moment.inStrokes (moves : List Move) (a : ArbiterId) : ((after moves).desk a).InStrokes :=
  always .of_blank (fun change h => h.turn change.turn) moves a

theorem Moment.enrolled (moves : List Move) (a : ArbiterId) : Enrolled ((after moves).desk a) :=
  always .of_blank (fun change h => h.turn change.turn) moves a

end KeyArbiter
