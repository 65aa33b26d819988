import ImportRepair.Proofs.Files.Twins
import ImportRepair.Proofs.Silence

/-!
# Twin worlds

Two worlds are twins if their trees are, and if they have the same mishaps, the same answers to come
and consoles that refuse the same. Their journals may differ, as long as records go to hidden
contents only, and so may what was shown before. Two jobs agree if they end alike in all twin
worlds: with related results or the same failure, in twin worlds, and with the same shown meanwhile.

Results:
* `Agree.bind`, `Agree.mapM`, `Agree.forM`, `Agree.attempt`: jobs that are made of agreeing jobs
  agree.
* `agree_note`, `agree_display`, `agree_ask`: records, requests and questions agree.
-/

namespace ImportRepair

/-- What two worlds may differ in, and what they have in common. -/
structure Pairing where
  /-- A tree that both trees come from. -/
  base : FileTree
  /-- The contents that may differ. -/
  hidden : List Nat
  /-- The paths that lead to no hidden content. -/
  paths : List Text
  /-- What was shown to each before. -/
  screen : List Console.Event
  screen' : List Console.Event

namespace World

variable {d : Pairing} {u v w u' v' w' : World}

/-- What the console refuses to show after some requests. -/
def refusals (w : World) (before : List Console.Event) (e : Console.Event) : Option Failure :=
  w.console.bind fun session => ((session.presentAll before).present e).1

/-- Two worlds that differ in no more than a pairing allows. What records are appended to is
hidden. -/
structure Twin (d : Pairing) (w w' : World) : Prop where
  tree : FileTree.Twin d.hidden d.paths w.tree w'.tree
  base : FileTree.Descends d.hidden d.base w.tree
  mishaps : w'.mishaps = w.mishaps
  answers : w'.answers = w.answers
  refusals : w'.refusals = w.refusals
  screens : ∃ events, w.screen = d.screen ++ events ∧ w'.screen = d.screen' ++ events
  sinks : w.journal.sinks ⊆ d.hidden
  sinks' : w'.journal.sinks ⊆ d.hidden

theorem present_fst (w : World) (e : Console.Event) : (w.present e).1 = w.refusals [] e := by
  unfold present refusals
  simp only
  cases w.console <;> rfl

theorem refusals_present (w : World) (e : Console.Event) :
    (w.present e).2.refusals = fun before => w.refusals (e :: before) := by
  unfold present refusals
  simp only
  cases w.console <;> rfl

theorem screen_present (w : World) (e : Console.Event) :
    (w.present e).2.screen = w.screen ++ [e] := by
  unfold present
  simp only
  cases w.console <;> rfl

theorem answers_present (w : World) (e : Console.Event) : (w.present e).2.answers = w.answers := by
  unfold present
  simp only
  cases w.console <;> rfl

theorem tree_present (w : World) (e : Console.Event) : (w.present e).2.tree = w.tree := by
  unfold present
  cases w.console <;> rfl

theorem journal_present (w : World) (e : Console.Event) : (w.present e).2.journal = w.journal := by
  unfold present
  cases w.console <;> rfl

/-- Twin worlds after jobs that only records tell apart from changing the trees. -/
theorem Twin.of_unheard (h : Twin d w w') {t t' : FileTree}
    (ht : FileTree.Twin d.hidden d.paths t t') (hbase : FileTree.Descends d.hidden d.base t)
    (hk : Kept (Files.withTree w t) v) (hu : Unheard w v) (hk' : Kept (Files.withTree w' t') v')
    (hu' : Unheard w' v') : Twin d v v' where
  tree := ht.of_logged (hk.tree.mono h.sinks) (hk'.tree.mono h.sinks')
  base := hbase.of_logged (hk.tree.mono h.sinks)
  mishaps := hk'.mishaps.trans (h.mishaps.trans hk.mishaps.symm)
  answers := hu'.answers.trans (h.answers.trans hu.answers.symm)
  refusals := by
    have hrefusals := h.refusals
    unfold World.refusals at hrefusals ⊢
    rw [hu.console, hu'.console, hrefusals]
  screens := by
    rw [hu.screen, hu'.screen]
    exact h.screens
  sinks := hk.sinks.symm ▸ h.sinks
  sinks' := hk'.sinks.symm ▸ h.sinks'

/-- Whatever is shown, a twin shows it too, or refuses it too. -/
theorem Twin.present (h : Twin d w w') (e : Console.Event) :
    (w'.present e).1 = (w.present e).1 ∧ Twin d (w.present e).2 (w'.present e).2 := by
  have hk := kept_present e w
  have hk' := kept_present e w'
  refine ⟨by rw [present_fst, present_fst, h.refusals], ?_, ?_, ?_, ?_, ?_, ?_, ?_, ?_⟩
  · rw [tree_present, tree_present]
    exact h.tree
  · rw [tree_present]
    exact h.base
  · rw [hk.mishaps, hk'.mishaps, h.mishaps]
  · rw [answers_present, answers_present, h.answers]
  · rw [refusals_present, refusals_present, h.refusals]
  · obtain ⟨events, hs, hs'⟩ := h.screens
    exact ⟨events ++ [e], by rw [screen_present, hs, List.append_assoc],
      by rw [screen_present, hs', List.append_assoc]⟩
  · exact hk.sinks.symm ▸ h.sinks
  · exact hk'.sinks.symm ▸ h.sinks'

/-- A twin takes the same answer. -/
theorem Twin.answer (h : Twin d w w') :
    w'.answer.1 = w.answer.1 ∧ Twin d w.answer.2 w'.answer.2 := by
  unfold World.answer
  rw [h.answers]
  split
  · exact ⟨rfl, h⟩
  · exact ⟨rfl, h.tree, h.base, h.mishaps, rfl, h.refusals, h.screens, h.sinks, h.sinks'⟩

/-! ## Twins at first -/

theorem refusals_congr (h : w'.console = w.console) : w'.refusals = w.refusals := by
  unfold World.refusals
  rw [h]

/-- Consoles that refuse nothing refuse the same. -/
theorem Obliging.refusals (h : w.Obliging) : w.refusals = fun _ _ => none := by
  funext before e
  unfold World.refusals
  cases hc : w.console with
  | none => rfl
  | some session => exact h session hc before e

/-- Two worlds at first: their trees differ in hidden contents at most. -/
def pairing (w w' : World) (hidden : List Nat) (paths : List Text) : Pairing :=
  ⟨w.tree, hidden, paths, w.screen, w'.screen⟩

variable {hidden : List Nat} {paths : List Text}

/-- Worlds that differ in hidden contents and in the journal at most are twins for all paths
that name other contents, if all that records are appended to is hidden. -/
theorem twin_pairing (hs : w.tree.Sound) (hlogged : FileTree.Logged hidden w.tree w'.tree)
    (hold : ∀ c ∈ hidden, c < w.tree.contents.length)
    (hapart : ∀ path ∈ paths, ∀ c ∈ hidden, w.tree.contentAt path ≠ .ok c)
    (hw : w.journal.sinks ⊆ hidden) (hw' : w'.journal.sinks ⊆ hidden)
    (hmishaps : w'.mishaps = w.mishaps) (hanswers : w'.answers = w.answers)
    (hrefusals : w'.refusals = w.refusals) :
    Twin (w.pairing w' hidden paths) w w' where
  tree := ⟨hlogged, hs, hold, fun path hpath _ c hopened hn hc =>
    hapart path hpath c hc (FileTree.contentAt_of_opened? hs hopened hn)⟩
  base := .refl hidden w.tree
  mishaps := hmishaps
  answers := hanswers
  refusals := hrefusals
  screens := ⟨[], (List.append_nil _).symm, (List.append_nil _).symm⟩
  sinks := hw
  sinks' := hw'

/-- Twins hold the same at every place where no hidden content stood at first. -/
theorem Twin.bytesAt? (h : Twin (w.pairing w' hidden paths) v v') {q : Place}
    (hq : ∀ c ∈ hidden, w.tree.node? q ≠ some (.file c)) :
    v'.tree.bytesAt? q = v.tree.bytesAt? q :=
  h.base.bytesAt? h.tree.logged hq

end World

theorem answers_of_display {e : Console.Event} {w v : World} (h : (display e).run w = .ok () v) :
    v.answers = w.answers := by
  rw [display, EStateM.run_bind, EStateM.run_modifyGet] at h
  simp only at h
  split at h
  · cases h
  · cases h
    exact World.answers_present w e

/-! ## Jobs that agree -/

/-- Two jobs have ended alike: with related results or the same failure, in twin worlds. -/
inductive SameEnd {α β : Type} (d : Pairing) (R : α → β → Prop) :
    EStateM.Result Failure World α → EStateM.Result Failure World β → Prop
  | returned {a b v v'} : R a b → World.Twin d v v' → SameEnd d R (.ok a v) (.ok b v')
  | failed {e v v'} : World.Twin d v v' → SameEnd d R (.error e v) (.error e v')

/-- Two jobs end alike in all twin worlds. -/
structure Agree {α β : Type} (d : Pairing) (R : α → β → Prop) (job : Job α)
    (job' : Job β) : Prop where
  sameEnd : ∀ {w w'}, World.Twin d w w' → SameEnd d R (job.run w) (job'.run w')

variable {α β γ δ : Type} {d : Pairing} {R : α → β → Prop} {S : γ → δ → Prop}

theorem agree_pure {a : α} {b : β} (h : R a b) : Agree d R (pure a) (pure b) :=
  ⟨fun ht => .returned h ht⟩

theorem agree_throw (e : Failure) : Agree d R (throw e) (throw e) := ⟨fun ht => .failed ht⟩

/-- Jobs that have ended alike go on alike. -/
theorem SameEnd.bind {job : Job α} {job' : Job β} {next : α → Job γ} {next' : β → Job δ}
    {w w' : World} (h : SameEnd d R (job.run w) (job'.run w'))
    (hnext : ∀ a b, R a b → Agree d S (next a) (next' b)) :
    SameEnd d S ((job >>= next).run w) ((job' >>= next').run w') := by
  rw [EStateM.run_bind, EStateM.run_bind]
  generalize job.run w = r at h
  generalize job'.run w' = r' at h
  cases h with
  | returned hab hv => exact (hnext _ _ hab).sameEnd hv
  | failed hv => exact .failed hv

theorem Agree.bind {job : Job α} {job' : Job β} {next : α → Job γ} {next' : β → Job δ}
    (h : Agree d R job job') (hnext : ∀ a b, R a b → Agree d S (next a) (next' b)) :
    Agree d S (job >>= next) (job' >>= next') :=
  ⟨fun ht => (h.sameEnd ht).bind hnext⟩

/-- Jobs that agree on their results go on alike. -/
theorem Agree.bind_eq {job job' : Job α} {next : α → Job γ} {next' : α → Job δ}
    (h : Agree d Eq job job') (hnext : ∀ a, Agree d S (next a) (next' a)) :
    Agree d S (job >>= next) (job' >>= next') :=
  h.bind fun a _ hab => hab ▸ hnext a

/-- Jobs that ask for the world first. -/
theorem agree_get {next : World → Job γ} {next' : World → Job δ}
    (h : ∀ w w', World.Twin d w w' → SameEnd d S ((next w).run w) ((next' w').run w')) :
    Agree d S (get >>= next) (get >>= next') := by
  refine ⟨fun {w w'} ht => ?_⟩
  rw [EStateM.run_bind, EStateM.run_get, EStateM.run_bind, EStateM.run_get]
  exact h w w' ht

theorem Agree.attempt {job job' : Job α} (h : Agree d Eq job job') (counts : Failure → Bool) :
    Agree d Eq (Patch.attempt counts job) (Patch.attempt counts job') := by
  refine ⟨fun {w w'} ht => ?_⟩
  rw [Patch.run_attempt, Patch.run_attempt]
  have hend := h.sameEnd ht
  generalize job.run w = r at hend
  generalize job'.run w' = r' at hend
  cases hend with
  | returned hab hv => exact .returned (congrArg Except.ok hab) hv
  | @failed e _ _ hv =>
    simp only
    cases counts e with
    | true => exact .returned rfl hv
    | false => exact .failed hv

theorem agree_forM {step step' : α → Job Unit} {items : List α}
    (h : ∀ a ∈ items, Agree d Eq (step a) (step' a)) :
    Agree d Eq (items.forM step) (items.forM step') := by
  induction items with
  | nil => exact agree_pure rfl
  | cons a items ih =>
    rw [List.forall_mem_cons] at h
    exact h.1.bind_eq fun _ => ih h.2

theorem agree_mapM {step step' : α → Job γ} {items : List α}
    (h : ∀ a ∈ items, Agree d Eq (step a) (step' a)) :
    Agree d Eq (items.mapM step) (items.mapM step') := by
  induction items with
  | nil => exact agree_pure rfl
  | cons a items ih =>
    rw [List.forall_mem_cons] at h
    rw [List.mapM_cons, List.mapM_cons]
    exact h.1.bind_eq fun _ => (ih h.2).bind_eq fun _ => agree_pure rfl

/-! ## Records, requests and questions -/

/-- Records may differ. -/
theorem agree_note (severity severity' : Severity) (source source' : Source)
    (message message' : Text) :
    Agree d Eq (note severity source message) (note severity' source' message') :=
  ⟨fun ht => .returned rfl (ht.of_unheard ht.tree ht.base (World.kept_note ..)
    (World.unheard_note ..) (World.kept_note ..) (World.unheard_note ..))⟩

theorem agree_display (e : Console.Event) : Agree d Eq (display e) (display e) := by
  refine ⟨fun {w w'} ht => ?_⟩
  obtain ⟨hfst, hsnd⟩ := ht.present e
  rw [display, EStateM.run_bind, EStateM.run_modifyGet, EStateM.run_bind, EStateM.run_modifyGet]
  simp only
  rw [hfst]
  cases (w.present e).1 with
  | none => exact .returned rfl hsnd
  | some failure => exact .failed hsnd

theorem agree_ask (question : Text) : Agree d Eq (ask question) (ask question) := by
  refine (agree_display _).bind_eq fun _ => ⟨fun {w w'} ht => ?_⟩
  obtain ⟨hfst, hsnd⟩ := ht.answer
  rw [EStateM.run_modifyGet, EStateM.run_modifyGet]
  exact .returned hfst.symm hsnd

end ImportRepair
