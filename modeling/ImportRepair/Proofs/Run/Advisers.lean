import ImportRepair.Proofs.Keeping
import ImportRepair.Run

/-!
# Advisers

Whoever gives the modules of types touches no file: not the mappings, which make a
record at most, and not the user, who is asked on the console. A module that is known
beforehand is given without fail.

Results:
* `Resolver.keeps`: a resolver touches no file.
* `Resolver.answers_of_mapped?`: a resolver gives the module that its first mapping has.
-/

namespace ImportRepair

namespace Adviser

/-- Giving the module of a type touches no file. -/
def Keeps (adviser : Adviser) (type : Text) : Prop :=
  ∀ n w module v, (adviser type n).run w = .ok module v → World.Kept w v

/-- The module of a type is a given one, and giving it touches no file. -/
def Answers (adviser : Adviser) (type module : Text) : Prop :=
  ∀ n w, ∃ v, (adviser type n).run w = .ok (some module) v ∧ World.Kept w v

variable {adviser : Adviser} {type module : Text}

theorem Answers.keeps (h : adviser.Answers type module) : adviser.Keeps type := by
  intro n w m v hv
  obtain ⟨v', hv', hk⟩ := h n w
  rw [hv] at hv'
  cases hv'
  exact hk

theorem Answers.unique (h : adviser.Answers type module) {n : Nat} {w v : World} {m : Option Text}
    (hv : (adviser type n).run w = .ok m v) : m = some module := by
  obtain ⟨v', hv', _⟩ := h n w
  rw [hv] at hv'
  cases hv'
  rfl

/-- Giving modules that were chosen beforehand. -/
def fixed (assign : Text → Text) : Adviser := fun type _ => pure (some (assign type))

theorem answers_fixed (assign : Text → Text) (type : Text) :
    (fixed assign).Answers type (assign type) :=
  fun _ w => ⟨w, rfl, .refl w⟩

end Adviser

namespace Resolver

/-- A type that the first mapping knows. -/
theorem answers_of_mapped? {mapping : Mapping} {rest : List Mapping} {interactive : Bool}
    {type module : Text} (h : mapped? mapping type = some module) :
    Adviser.Answers (Resolver.resolve ⟨mapping :: rest, interactive⟩) type module := by
  intro n w
  refine ⟨w.note .info .mapping ("Using mapped module " ++ module ++ " for " ++ type), ?_,
    World.kept_note ..⟩
  show (resolveBy interactive type n (mapping :: rest)).run w = _
  rw [resolveBy, h]
  rfl

theorem kept_of_ask {question : Text} {w v : World} {answer : Option Text}
    (h : (ask question).run w = .ok answer v) : World.Kept w v := by
  rw [ask] at h
  obtain ⟨_, u, hu, h⟩ := run_bind_eq_ok.1 h
  have hk := kept_of_display hu
  rw [EStateM.run_modifyGet] at h
  cases h
  refine hk.trans ?_
  rw [World.answer]
  split
  · exact .refl u
  · exact ⟨.refl .., rfl, rfl, [], (World.map_presentAll_nil _).symm⟩

theorem kept_of_askOnce {type : Text} {n : Nat} {w v : World} {reply : Reply}
    (h : (askOnce type n).run w = .ok reply v) : World.Kept w v := by
  rw [askOnce] at h
  obtain ⟨answer, u, hu, h⟩ := run_bind_eq_ok.1 h
  refine (kept_of_ask hu).trans ?_
  cases answer with
  | none =>
    cases h
    exact World.kept_note ..
  | some answer =>
    simp only at h
    split at h
    · obtain ⟨_, x, hx, h⟩ := run_bind_eq_ok.1 h
      cases h
      exact kept_of_display hx
    · cases h
      exact World.kept_note ..

theorem kept_of_askWithin {type : Text} {n retries : Nat} {w v : World} {module : Option Text}
    (h : (askWithin type n retries).run w = .ok module v) : World.Kept w v := by
  induction retries generalizing w with
  | zero =>
    rw [askWithin] at h
    obtain ⟨reply, u, hu, h⟩ := run_bind_eq_ok.1 h
    cases reply <;> cases h <;> exact kept_of_askOnce hu
  | succ retries ih =>
    rw [askWithin] at h
    obtain ⟨reply, u, hu, h⟩ := run_bind_eq_ok.1 h
    cases reply with
    | module name =>
      cases h
      exact kept_of_askOnce hu
    | endOfInput =>
      cases h
      exact kept_of_askOnce hu
    | blank => exact (kept_of_askOnce hu).trans (ih h)

/-- Whoever is asked for a module, no file is touched. -/
theorem keeps (resolver : Resolver) (type : Text) : Adviser.Keeps resolver.resolve type := by
  intro n w module v h
  rw [resolve] at h
  generalize resolver.mappings = mappings at h
  induction mappings generalizing w with
  | nil =>
    rw [resolveBy] at h
    split at h
    · rw [askModule] at h
      obtain ⟨_, u, hu, h⟩ := run_bind_eq_ok.1 h
      cases hu
      exact kept_of_askWithin h
    · cases h
  | cons mapping mappings ih =>
    rw [resolveBy] at h
    split at h
    · cases h
      exact World.kept_note ..
    · split at h
      · cases h
        exact World.kept_note ..
      · exact ih w h

end Resolver

end ImportRepair
