import KeyArbiter.Proofs.History
import Mathlib

/-!
# What commands do to the scene

Only building an arbiter, disposing of one, and an echo that is set or taken off change the arbiters
of the scene or the handlers of its channels. Calls in progress change neither.
-/

namespace KeyArbiter

open Session (Command)

/-! ## Handlers -/

namespace Scene

variable (sc : Scene)

theorem handler?_setHandler (channel other : String) (h : Option Handler) :
    (sc.setHandler channel h).handler? other =
      if channel = other then h else sc.handler? other := by
  have others : ((sc.handlers.filter (·.1 != channel)).find? (·.1 == other)).map (·.2) =
      if channel = other then none else sc.handler? other := by
    rw [List.find?_filter]
    split
    · next eq =>
      subst eq
      rw [List.find?_eq_none.2 fun p _ => by simp]
      rfl
    · next ne =>
      unfold handler?
      congr 2
      funext p
      by_cases eq : p.1 = other
      · simp [eq, Ne.symm ne]
      · simp [eq]
  cases h with
  | none =>
    unfold setHandler
    rw [handler?, others]
  | some h =>
    unfold setHandler
    by_cases eq : channel = other
    · simp [handler?, eq]
    · rw [if_neg eq] at others ⊢
      rw [handler?, List.find?_cons_of_neg (by simpa using eq)]
      exact others

theorem setup_set (a b : ArbiterId) :
    { sc with setups := sc.setups.set a { sc.setup a with alive := false } }.setup b =
      if b = a then { sc.setup a with alive := false } else sc.setup b := by
  unfold setup
  rw [List.getD_eq_getElem?_getD, List.getElem?_set]
  by_cases eq : b = a
  · subst eq
    by_cases lt : b < sc.setups.length
    · simp [lt]
    · simp [lt]
  · simp [eq, Ne.symm eq]

end Scene

/-! ## Commands -/

def Session.Command.Still : Command → Prop
  | .build .. | .dispose _ | .setEcho .. => False
  | _ => True

structure Scene.Alike (sc sc' : Scene) : Prop where
  setups : sc'.setups = sc.setups
  handlers : sc'.handlers = sc.handlers

namespace Scene.Alike

variable {sc sc' : Scene}

theorem refl (sc : Scene) : Alike sc sc := ⟨rfl, rfl⟩

theorem of_eq (same : sc' = sc) : Alike sc sc' := by
  rw [same]
  exact refl sc

theorem setup_eq (h : Alike sc sc') (a : ArbiterId) : sc'.setup a = sc.setup a := by
  unfold setup
  rw [h.setups]

theorem handler?_eq (h : Alike sc sc') (channel : String) :
    sc'.handler? channel = sc.handler? channel := by
  unfold handler?
  rw [h.handlers]

end Scene.Alike

namespace Session

variable (s : Session)

theorem scene_meet (a : ArbiterId) (e : KeyEvent) : (s.meet a e).1.scene = s.scene := by
  unfold meet
  split <;> rfl

theorem scene_close (c : Completion) (how : Ending) : (s.close c how).1.scene = s.scene := by
  cases how <;> rfl

theorem alike_launch {c : Command} (still : c.Still) : s.scene.Alike (s.launch c).1.scene := by
  cases c with
  | build | dispose | setEcho => exact still.elim
  | event a e => exact .of_eq (scene_meet s a e)
  | feed a slot =>
    simp only [launch]
    split
    · exact .refl _
    · exact .of_eq (scene_meet s a _)
  | sync a modifiers time =>
    simp only [launch]
    split <;> exact .refl _
  | respond slot claimed =>
    rcases taken : s.takeCompletion slot with ⟨s', o⟩
    obtain ⟨-, scene, -⟩ := takeCompletion_spec taken 0
    simp only [launch, taken]
    rcases o with _ | _ | c
    · exact .of_eq scene
    · exact .of_eq scene
    · exact .of_eq ((scene_close ..).trans scene)
  | dropRecord slot =>
    simp only [launch]
    split
    · exact .refl _
    · split
      · exact .of_eq (scene_close ..)
      · exact .refl _
  | takeCallback slot =>
    rcases taken : s.takeCompletion slot with ⟨s', o⟩
    obtain ⟨-, scene, -⟩ := takeCompletion_spec taken 0
    simp only [launch, perform, taken]
    rcases o with _ | _ | c <;> exact .of_eq scene
  | endCallback slot how =>
    simp only [launch]
    split
    · exact .refl _
    · exact .of_eq (scene_close ..)
  | endHeld slot how =>
    simp only [launch]
    split
    · exact .refl _
    · cases how <;> exact .refl _
  | setRedispatch mode => cases mode <;> exact ⟨rfl, rfl⟩
  | receive channel data => exact .of_eq (receive_frame s 0 channel data).1
  | _ => exact ⟨rfl, rfl⟩

theorem addResponders_alike (extra : List ResponderSpec) :
    s.scene.Alike (s.addResponders extra).1.scene := by
  induction extra generalizing s with
  | nil => exact .refl _
  | cons r rs ih =>
    have first : s.scene.Alike (s.addResponder r).1.scene := by
      cases r <;> exact ⟨rfl, rfl⟩
    have rest := ih (s.addResponder r).1
    exact ⟨rest.setups.trans first.setups, rest.handlers.trans first.handlers⟩

/-! ## Arbiters -/

theorem setup_build (settings : Settings) (scripted : Bool) (extra : List ResponderSpec)
    (a : ArbiterId) :
    (s.build settings scripted extra).1.scene.setup a =
      if a = s.scene.setups.length then
        { settings, layout := if scripted then .scripted else .fixed .us,
          extra := (s.addResponders extra).2 }
      else s.scene.setup a := by
  have same := (addResponders_alike s extra).setups
  simp only [build, Scene.setup, Scene.setHandler, same]
  rcases lt_trichotomy a s.scene.setups.length with lt | rfl | gt
  · simp [lt.ne, List.getElem?_append_left lt]
  · simp
  · simp [gt.ne', List.getElem?_append_right gt.le, List.getElem?_eq_none gt.le,
      Nat.sub_ne_zero_of_lt gt]

theorem setup_launch (c : Command) {a : ArbiterId} (built : a < s.scene.setups.length) :
    ∃ alive, (s.launch c).1.scene.setup a = { s.scene.setup a with alive } := by
  have kept : s.scene.setup a = { s.scene.setup a with alive := (s.scene.setup a).alive } := rfl
  by_cases still : c.Still
  · exact ⟨_, ((alike_launch s still).setup_eq a).trans kept⟩
  cases c with
  | build settings scripted extra =>
    exact ⟨_, ((setup_build s settings scripted extra a).trans (if_neg built.ne)).trans kept⟩
  | dispose b =>
    simp only [launch, perform]
    split
    · have disposed := Scene.setup_set s.scene b a
      by_cases eq : a = b
      · subst eq
        exact ⟨false, disposed.trans (if_pos rfl)⟩
      · exact ⟨_, (disposed.trans (if_neg eq)).trans kept⟩
    · exact ⟨_, kept⟩
  | setEcho => exact ⟨_, kept⟩
  | _ => exact absurd trivial still

/-! ## Handlers of a channel -/

theorem handler?_build (settings : Settings) (scripted : Bool) (extra : List ResponderSpec)
    (channel : String) :
    (s.build settings scripted extra).1.scene.handler? channel =
      if settings.keyboardChannel = channel then some (.arbiter s.scene.setups.length)
      else s.scene.handler? channel := by
  have same := addResponders_alike s extra
  simp only [build, Scene.handler?_setHandler, same.setups]
  rw [← same.handler?_eq channel]
  rfl

theorem handler?_dispose (a : ArbiterId) (channel : String) :
    (s.dispose a).scene.handler? channel =
      if (s.scene.setup a).settings.keyboardChannel = channel then none
      else s.scene.handler? channel := by
  simp only [dispose, Scene.handler?_setHandler]
  rfl

end Session

namespace Moment

theorem setup_next (m : Moment) (move : Move) {a : ArbiterId} (built : a < m.scene.setups.length) :
    ∃ alive, (m.next move).scene.setup a = { m.scene.setup a with alive } := by
  obtain ⟨s, tasks⟩ := m
  cases move with
  | command c => exact s.setup_launch c built
  | go => cases tasks <;> exact ⟨_, rfl⟩

end Moment

end KeyArbiter
