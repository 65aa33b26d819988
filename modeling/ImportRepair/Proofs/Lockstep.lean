import ImportRepair.Proofs.Beside
import ImportRepair.Proofs.Run.Returning

/-!
# Jobs in lockstep

A job may read files, as long as none of them has the content that two worlds side by side
differ in. Then it ends alike in both worlds whatever their consoles are, if everything that
it shows is taken by either: with the same result or the same failure, in worlds side by side
that were shown the same.

Results:
* `Lockstep.bind`, `lockstep_mapM`, `Lockstep.attempt`, `Lockstep.finally`: jobs that are
  made of jobs in lockstep.
* `lockstep_note`, `lockstep_display`, `lockstep_ask`: records, requests and questions.
-/

namespace ImportRepair

/-- What is known of two worlds that differ in the bytes of a content. -/
structure Sight where
  /-- A tree that both trees come from. -/
  base : FileTree
  /-- The content whose bytes may differ. -/
  content : Nat
  /-- The paths that lead to other contents. -/
  paths : List Text

variable {d : Sight}

/-! ## Trees -/

namespace FileTree

/-- A tree in which the paths do not lead to the content, and the content stands
where it stood before. -/
structure Spares (d : Sight) (tree : FileTree) : Prop where
  twin : Twin [d.content] d.paths tree tree
  descends : Descends [d.content] d.base tree

variable {tree tree' : FileTree} {path : Text} {p : Place}

/-- Appending to files moves nothing. -/
theorem Spares.of_logged {sinks : List Nat} (h : tree.Spares d) (hl : Logged sinks tree tree') :
    tree'.Spares d where
  twin := by
    refine ⟨.refl _ _, hl.sound h.twin.sound,
      fun c hc => (h.twin.old c hc).trans_eq hl.length.symm, ?_⟩
    intro path hm p c ho hn
    rw [← hl.sameShape.opened?] at ho
    rw [hl.node?] at hn
    exact h.twin.apart path hm p c ho hn
  descends := by
    refine ⟨h.descends.shape.trans hl.sameShape, fun q c hc hq => h.descends.places q c hc ?_⟩
    rwa [hl.node?] at hq

/-- A file that a path opens may be given new bytes. -/
theorem Spares.rewritten (h : tree.Spares d) (hm : path ∈ d.paths) (ho : tree.opened? path = some p)
    (inPlace : Bool) (data : List UInt8) : (tree.rewritten inPlace p data).Spares d := by
  obtain ⟨_, c, hn, _⟩ := settled_of_opened? h.twin.sound ho
  exact ⟨h.twin.rewritten hm ho inPlace data, h.descends.rewritten h.twin.old hn data⟩

/-- What the paths open is read as it is. -/
theorem Spares.readBytes (h : tree.Spares d) (hm : path ∈ d.paths) (ho : tree.opened? path = some p)
    (bytes : List UInt8) :
    (tree.withBytes d.content bytes).readBytes path = tree.readBytes path := by
  have htwin : Twin [d.content] d.paths tree (tree.withBytes d.content bytes) :=
    ⟨logged_withBytes, h.twin.sound, h.twin.old, h.twin.apart⟩
  exact htwin.readBytes hm ho

/-- A tree spares a content for all paths that name other contents. -/
theorem spares_self {c : Nat} {paths : List Text} (hs : tree.Sound)
    (hold : c < tree.contents.length) (h : ∀ path ∈ paths, tree.contentAt path ≠ .ok c) :
    tree.Spares ⟨tree, c, paths⟩ where
  twin := by
    refine ⟨.refl _ _, hs, List.forall_mem_singleton.2 hold, fun path hm p n ho hn hc => ?_⟩
    rw [List.mem_singleton.1 hc] at hn
    exact h path hm (contentAt_of_opened? hs ho hn)
  descends := .refl _ _

end FileTree

/-! ## Worlds -/

namespace World

/-- Two worlds side by side where the paths do not lead to the content that they differ in. -/
structure Abreast (d : Sight) (w w' : World) : Prop extends Beside d.content w w' where
  spares : w.tree.Spares d

variable {u v w w' : World}

theorem Abreast.opened? (h : Abreast d w w') (path : Text) :
    w.tree.opened? path = d.base.opened? path :=
  h.spares.descends.opened? path

/-- Showing something changes the screen and the console. -/
theorem exists_present_eq (w : World) (e : Console.Event) :
    ∃ console, (w.present e).2 = { w with screen := w.screen ++ [e], console } := by
  unfold World.present
  cases w.console with
  | none => exact ⟨none, rfl⟩
  | some session => exact ⟨some (session.present e).2, rfl⟩

theorem Abreast.present (h : Abreast d w w') (e : Console.Event) :
    Abreast d (w.present e).2 (w'.present e).2 := by
  obtain ⟨console, hv⟩ := exists_present_eq w e
  obtain ⟨console', hv'⟩ := exists_present_eq w' e
  rw [hv, hv', h.screen]
  exact ⟨⟨h.tree, h.old, h.mishaps, h.journal, rfl, h.answers⟩, h.spares⟩

theorem Abreast.answer (h : Abreast d w w') :
    w'.answer.1 = w.answer.1 ∧ Abreast d w.answer.2 w'.answer.2 := by
  unfold World.answer
  rw [h.answers]
  split
  · exact ⟨rfl, h⟩
  · exact ⟨rfl, ⟨h.tree, h.old, h.mishaps, h.journal, h.screen, rfl⟩, h.spares⟩

end World

/-! ## Jobs -/

/-- What a job shows is shown after what was shown before. -/
def Shows {α : Type} (job : Job α) : Prop :=
  ∀ w : World, ∃ events, w.Showed events (worldAfter (job.run w))

/-- A job that ends alike in worlds side by side, if everything that it shows is taken. -/
structure Lockstep {α : Type} (d : Sight) (job : Job α) : Prop where
  shows : Shows job
  endAlike : ∀ {w w' : World}, w.Abreast d w' → w.Drawn (worldAfter (job.run w)) →
    w'.Drawn (worldAfter (job.run w')) → EndAlike (World.Abreast d) Eq (job.run w) (job.run w')

variable {α β : Type} {job : Job α} {next : α → Job β} {w w' : World}

theorem lockstep_pure (a : α) : Lockstep d (pure a : Job α) :=
  ⟨fun w => ⟨[], (World.Unheard.refl w).showed⟩, fun hw _ _ => .returned rfl hw⟩

theorem lockstep_throw (e : Failure) : Lockstep d (throw e : Job α) :=
  ⟨fun w => ⟨[], (World.Unheard.refl w).showed⟩, fun hw _ _ => .failed hw⟩

/-- Nothing of what a silent job shows can be refused. -/
theorem IsSilent.lockstep (hs : IsSilent job)
    (h : ∀ {w w' : World}, w.Abreast d w' →
      EndAlike (World.Abreast d) Eq (job.run w) (job.run w')) :
    Lockstep d job :=
  ⟨fun w => ⟨[], (hs.unheard w).showed⟩, fun hw _ _ => h hw⟩

theorem IsSilent.endAlike (hs : IsSilent job) (h : Lockstep d job) (hw : w.Abreast d w') :
    EndAlike (World.Abreast d) Eq (job.run w) (job.run w') :=
  h.endAlike hw (.of_unheard (hs.unheard w)) (.of_unheard (hs.unheard w'))

/-- A silent job that echoes itself is in lockstep if it moves nothing. -/
theorem Echoes.lockstep (h : Echoes d.content Eq job job) (hs : IsSilent job)
    (hkeeps : ∀ w : World, w.tree.Spares d → (worldAfter (job.run w)).tree.Spares d) :
    Lockstep d job := by
  refine hs.lockstep fun {w w'} hw => ?_
  have hspares := hkeeps w hw.spares
  have hend := h.endAlike hw.toBeside
  generalize job.run w = r at hend hspares
  generalize job.run w' = r' at hend
  cases hend with
  | returned hab hv => exact .returned hab ⟨hv, hspares⟩
  | failed hv => exact .failed ⟨hv, hspares⟩

/-- What was taken by the end of a job and its continuation was taken by the end of the job. -/
theorem World.Drawn.of_bind (hd : w.Drawn (worldAfter ((job >>= next).run w))) (h : Shows job)
    (hnext : ∀ a, Shows (next a)) : w.Drawn (worldAfter (job.run w)) ∧
      ∀ a u, job.run w = .ok a u → u.Drawn (worldAfter ((next a).run u)) := by
  obtain ⟨events, hevents⟩ := h w
  cases hj : job.run w with
  | ok a u =>
    obtain ⟨more, hmore⟩ := hnext a u
    rw [hj] at hevents
    rw [run_bind_of_ok hj] at hd
    obtain ⟨hfirst, hsecond⟩ := hd.split hevents hmore
    refine ⟨hfirst, fun a' u' hu => ?_⟩
    cases hu
    exact hsecond
  | error e u =>
    rw [run_bind_of_error hj] at hd
    exact ⟨hd, fun _ _ hu => (by cases hu)⟩

theorem Shows.bind (h : Shows job) (hnext : ∀ a, Shows (next a)) : Shows (job >>= next) := by
  intro w
  obtain ⟨events, hevents⟩ := h w
  cases hj : job.run w with
  | ok a u =>
    obtain ⟨more, hmore⟩ := hnext a u
    rw [hj] at hevents
    rw [run_bind_of_ok hj]
    exact ⟨events ++ more, hevents.trans hmore⟩
  | error e u =>
    rw [hj] at hevents
    rw [run_bind_of_error hj]
    exact ⟨events, hevents⟩

/-- Jobs end alike if what comes after a job does so for its result, as long as everything is
taken. -/
theorem EndAlike.bind_drawn {T : World → World → Prop} (h : Shows job)
    (hshows : ∀ a, Shows (next a)) (hd : w.Drawn (worldAfter ((job >>= next).run w)))
    (hd' : w'.Drawn (worldAfter ((job >>= next).run w')))
    (hjob : w.Drawn (worldAfter (job.run w)) → w'.Drawn (worldAfter (job.run w')) →
      EndAlike T Eq (job.run w) (job.run w'))
    (hnext : ∀ a u u', job.run w = .ok a u → T u u' → u.Drawn (worldAfter ((next a).run u)) →
      u'.Drawn (worldAfter ((next a).run u')) → EndAlike T Eq ((next a).run u) ((next a).run u')) :
    EndAlike T Eq ((job >>= next).run w) ((job >>= next).run w') := by
  obtain ⟨hfirst, hrest⟩ := hd.of_bind h hshows
  obtain ⟨hfirst', hrest'⟩ := hd'.of_bind h hshows
  have hend := hjob hfirst hfirst'
  rw [EStateM.run_bind, EStateM.run_bind]
  generalize job.run w = r at hend hrest hnext
  generalize job.run w' = r' at hend hrest'
  cases hend with
  | failed hv => exact .failed hv
  | @returned a b u u' hab hu =>
    subst hab
    exact hnext a u u' rfl hu (hrest a u rfl) (hrest' a u' rfl)

/-- Worlds stay side by side if what comes after a job in lockstep does so for the result of the
job. -/
theorem Lockstep.endAlike_bind (h : Lockstep d job) (hshows : ∀ a, Shows (next a))
    (hw : w.Abreast d w') (hd : w.Drawn (worldAfter ((job >>= next).run w)))
    (hd' : w'.Drawn (worldAfter ((job >>= next).run w')))
    (hnext : ∀ a u u', job.run w = .ok a u → u.Abreast d u' →
      u.Drawn (worldAfter ((next a).run u)) →
      u'.Drawn (worldAfter ((next a).run u')) →
      EndAlike (World.Abreast d) Eq ((next a).run u) ((next a).run u')) :
    EndAlike (World.Abreast d) Eq ((job >>= next).run w) ((job >>= next).run w') :=
  .bind_drawn h.shows hshows hd hd' (h.endAlike hw) hnext

theorem Lockstep.bind (h : Lockstep d job) (hnext : ∀ a, Lockstep d (next a)) :
    Lockstep d (job >>= next) where
  shows := Shows.bind h.shows fun a => (hnext a).shows
  endAlike hw hd hd' := h.endAlike_bind (fun a => (hnext a).shows) hw hd hd'
    fun a _ _ _ hu hdrawn hdrawn' => (hnext a).endAlike hu hdrawn hdrawn'

/-- A job that asks for the world first, and does not tell worlds side by side from each other. -/
theorem lockstep_get {next : World → Job α} (h : ∀ w, Lockstep d (next w))
    (hsame : ∀ w w', World.Abreast d w w' → next w' = next w) : Lockstep d (get >>= next) := by
  refine ⟨fun w => (h w).shows w, fun {w w'} hw hd hd' => ?_⟩
  change EndAlike _ _ ((next w).run w) ((next w').run w')
  change w'.Drawn (worldAfter ((next w').run w')) at hd'
  rw [hsame w w' hw] at hd' ⊢
  exact (h w).endAlike hw hd hd'

theorem worldAfter_attempt (counts : Failure → Bool) (job : Job α) (w : World) :
    worldAfter ((Patch.attempt counts job).run w) = worldAfter (job.run w) := by
  rw [Patch.run_attempt]
  cases job.run w with
  | ok a u => rfl
  | error e u =>
    simp only
    split <;> rfl

/-- What counts as an outcome of jobs that end alike is the same. -/
theorem EndAlike.attempt {T : World → World → Prop} (h : EndAlike T Eq (job.run w) (job.run w'))
    (counts : Failure → Bool) :
    EndAlike T Eq ((Patch.attempt counts job).run w) ((Patch.attempt counts job).run w') := by
  rw [Patch.run_attempt, Patch.run_attempt]
  generalize job.run w = r at h
  generalize job.run w' = r' at h
  cases h with
  | returned hab hv => exact .returned (congrArg Except.ok hab) hv
  | failed hv =>
    simp only
    split
    · exact .returned rfl hv
    · exact .failed hv

theorem Lockstep.attempt (h : Lockstep d job) (counts : Failure → Bool) :
    Lockstep d (Patch.attempt counts job) := by
  refine ⟨fun w => ?_, fun {w w'} hw hd hd' => ?_⟩
  · rw [worldAfter_attempt]
    exact h.shows w
  · rw [worldAfter_attempt] at hd hd'
    exact (h.endAlike hw hd hd').attempt counts

theorem lockstep_forM {step : α → Job Unit} (h : ∀ a, Lockstep d (step a)) (items : List α) :
    Lockstep d (items.forM step) := by
  induction items with
  | nil => exact lockstep_pure ()
  | cons a items ih => exact (h a).bind fun _ => ih

theorem lockstep_mapM {step : α → Job β} {items : List α} (h : ∀ a ∈ items, Lockstep d (step a)) :
    Lockstep d (items.mapM step) := by
  induction items with
  | nil => exact lockstep_pure []
  | cons a items ih =>
    rw [List.forall_mem_cons] at h
    rw [List.mapM_cons]
    exact h.1.bind fun b => (ih h.2).bind fun bs => lockstep_pure (b :: bs)

/-- What is done in any case is done after both ends. -/
theorem Lockstep.finally {last : Job Unit} (h : Lockstep d job) (hlast : Lockstep d last) :
    Lockstep d (tryFinally job last) := by
  constructor
  · intro w
    obtain ⟨events, hevents⟩ := h.shows w
    obtain ⟨more, hmore⟩ := hlast.shows (worldAfter (job.run w))
    rw [worldAfter_tryFinally]
    exact ⟨events ++ more, hevents.trans hmore⟩
  · intro w w' hw hd hd'
    have hsplit : ∀ {w : World}, w.Drawn (worldAfter ((tryFinally job last).run w)) →
        w.Drawn (worldAfter (job.run w)) ∧
          (worldAfter (job.run w)).Drawn (worldAfter (last.run (worldAfter (job.run w)))) := by
      intro w hd
      obtain ⟨events, hevents⟩ := h.shows w
      obtain ⟨more, hmore⟩ := hlast.shows (worldAfter (job.run w))
      rw [worldAfter_tryFinally] at hd
      exact hd.split hevents hmore
    obtain ⟨hfirst, hsecond⟩ := hsplit hd
    obtain ⟨hfirst', hsecond'⟩ := hsplit hd'
    have hend := h.endAlike hw hfirst hfirst'
    rw [run_tryFinally, run_tryFinally]
    generalize job.run w = r at hend hsecond
    generalize job.run w' = r' at hend hsecond'
    cases hend with
    | returned hab hv =>
      have hlast := hlast.endAlike hv hsecond hsecond'
      simp only at hlast ⊢
      generalize last.run _ = s at hlast
      generalize last.run _ = s' at hlast
      cases hlast with
      | returned _ hz => exact .returned hab hz
      | failed hz => exact .failed hz
    | failed hv =>
      have hlast := hlast.endAlike hv hsecond hsecond'
      simp only at hlast ⊢
      generalize last.run _ = s at hlast
      generalize last.run _ = s' at hlast
      cases hlast with
      | returned _ hz => exact .failed hz
      | failed hz => exact .failed hz

/-! ## Records, requests and questions -/

theorem lockstep_note (severity : Severity) (source : Source) (message : Text) :
    Lockstep d (note severity source message) :=
  (echoes_note ..).lockstep (isSilent_note ..) fun w h =>
    h.of_logged (World.kept_note severity source message w).tree

/-- What is taken by both consoles was shown by both. -/
theorem lockstep_display (e : Console.Event) : Lockstep d (display e) := by
  refine ⟨(failsOnly_display e).shows, fun {w w'} hw hd hd' => ?_⟩
  have hrun : ∀ {w : World}, w.Drawn (worldAfter ((display e).run w)) →
      (display e).run w = .ok () (w.present e).2 := by
    intro w hd
    cases hj : (display e).run w with
    | ok u v => rw [World.eq_present_of_display hj]
    | error failure v =>
      rw [hj] at hd
      exact absurd hd (((failsOnly_display e).fails w failure v hj).resolve_left id)
  rw [hrun hd, hrun hd']
  exact .returned rfl (hw.present e)

theorem lockstep_ask (question : Text) : Lockstep d (ask question) := by
  refine (lockstep_display _).bind fun _ => ⟨isSteady_answer.shows, fun {w w'} hw _ _ => ?_⟩
  obtain ⟨hfst, hsnd⟩ := hw.answer
  rw [EStateM.run_modifyGet, EStateM.run_modifyGet]
  exact .returned hfst.symm hsnd

end ImportRepair
