import ImportRepair.Patch.File
import ImportRepair.Proofs.Patch.Outcome
import ImportRepair.Proofs.Twins

/-!
# What jobs show

A job shows one thing after the other, and what it has shown stays shown, also if it fails. It may
fail because the console refuses something, or for a reason of its own. If everything that was shown
was taken, only the reasons of its own are left.

Results:
* `World.Drawn.split`: if everything was taken, then everything up to a point and from there on.
* `FailsOnly.bind`, `FailsOnly.finally`: reasons to fail are put together from those of the parts.
* `failsOnly_display`, `isSteady_display`: showing something fails only if it is refused.
-/

namespace ImportRepair

/-! ## Consoles -/

/-- Whether a request is that an indicator stops. -/
def Console.Event.isStop : Console.Event → Bool
  | .stopped _ => true
  | _ => false

namespace Console.Session

/-- Whether a console takes everything that it is asked to show, one thing after the other. -/
def takes (s : Session) : List Event → Bool
  | [] => true
  | e :: es => (s.present e).1.isNone && (s.present e).2.takes es

theorem takes_append (s : Session) (es fs : List Event) :
    s.takes (es ++ fs) = (s.takes es && (s.presentAll es).takes fs) := by
  induction es generalizing s with
  | nil => rfl
  | cons e es ih =>
    rw [List.cons_append, takes, takes, ih, Bool.and_assoc]
    rfl

end Console.Session

/-! ## Worlds -/

namespace World

variable {u v w : World} {events more : List Console.Event}

/-- What was shown between two worlds, and what it has done to the console. -/
structure Showed (w : World) (events : List Console.Event) (v : World) : Prop where
  screen : v.screen = w.screen ++ events
  console : v.console = w.console.map (·.presentAll events)

theorem Unheard.showed (h : Unheard w v) : w.Showed [] v :=
  ⟨by rw [h.screen, List.append_nil], by rw [h.console, map_presentAll_nil]⟩

theorem Showed.trans (h : w.Showed events u) (h' : u.Showed more v) : w.Showed (events ++ more) v :=
  ⟨by rw [h'.screen, h.screen, List.append_assoc], by
    rw [h'.console, h.console, map_presentAll_append]⟩

theorem showed_present (w : World) (e : Console.Event) : w.Showed [e] (w.present e).2 := by
  refine ⟨screen_present w e, ?_⟩
  unfold present
  cases w.console <;> rfl

/-- Everything that was shown between two worlds was taken by the console. -/
def Drawn (w v : World) : Prop :=
  ∃ events, w.Showed events v ∧ ∀ session ∈ w.console, session.takes events = true

theorem Drawn.of_unheard (h : Unheard w v) : w.Drawn v := ⟨[], h.showed, fun _ _ => rfl⟩

/-- If everything was taken, then everything up to a point and from there on. -/
theorem Drawn.split (h : w.Drawn v) (hu : w.Showed events u) (hv : u.Showed more v) :
    w.Drawn u ∧ u.Drawn v := by
  obtain ⟨all, hall, htakes⟩ := h
  have heq : all = events ++ more := by
    have hscreen := hall.screen.symm.trans (hu.trans hv).screen
    exact List.append_cancel_left hscreen
  subst heq
  have hboth : ∀ session ∈ w.console, session.takes events = true ∧
      (session.presentAll events).takes more = true := by
    intro session hs
    have hsession := htakes session hs
    rw [Console.Session.takes_append, Bool.and_eq_true] at hsession
    exact hsession
  refine ⟨⟨events, hu, fun session hs => (hboth session hs).1⟩, more, hv, ?_⟩
  intro session hs
  rw [hu.console, Option.mem_map] at hs
  obtain ⟨before, hb, rfl⟩ := hs
  exact (hboth before hb).2

/-- A console that had shown nothing yet has taken what it was shown if it takes
everything on the screen. -/
theorem Showed.drawn {session : Console.Session} (h : w.Showed events v) (hscreen : w.screen = [])
    (hconsole : w.console = some session) (ht : session.takes v.screen = true) : w.Drawn v := by
  rw [h.screen, hscreen, List.nil_append] at ht
  refine ⟨events, h, fun s hs => ?_⟩
  rw [hconsole] at hs
  cases hs
  exact ht

end World

/-! ## Jobs -/

/-- A job that fails only for a reason that was there before, or because something
that it shows is refused. -/
structure FailsOnly {α : Type} (reason : World → Prop) (job : Job α) : Prop where
  shows : ∀ w : World, ∃ events, w.Showed events (worldAfter (job.run w))
  fails : ∀ (w : World) e v, job.run w = .error e v → reason w ∨ ¬w.Drawn v

/-- The console refuses something with a failure, after other things were shown. An indicator that
stops does not count. -/
def World.Refuses (w : World) (e : Failure) : Prop :=
  ∃ session ∈ w.console, ∃ events shown, shown.isStop = false ∧
    ((session.presentAll events).present shown).1 = some e

/-- A job that fails only because something that it shows is refused, and stops no indicator. -/
structure IsSteady {α : Type} (job : Job α) : Prop extends FailsOnly (fun _ => False) job where
  refused : ∀ (w : World) e v, job.run w = .error e v → w.Refuses e

variable {α β : Type} {reason : World → Prop} {job : Job α} {u v w : World}

theorem FailsOnly.showed_of_ok {a : α} (h : FailsOnly reason job) (hv : job.run w = .ok a v) :
    ∃ events, w.Showed events v := by
  have hw := h.shows w
  rwa [hv] at hw

theorem FailsOnly.showed_of_error {e : Failure} (h : FailsOnly reason job)
    (hv : job.run w = .error e v) : ∃ events, w.Showed events v := by
  have hw := h.shows w
  rwa [hv] at hw

theorem FailsOnly.mono {reason' : World → Prop} (h : FailsOnly reason job)
    (himp : ∀ w, reason w → reason' w) : FailsOnly reason' job :=
  ⟨h.shows, fun w e v hv => (h.fails w e v hv).imp (himp w) id⟩

theorem IsSilent.failsOnly (h : IsSilent job)
    (hfails : ∀ w e v, job.run w = .error e v → reason w) :
    FailsOnly reason job :=
  ⟨fun w => ⟨[], (h.unheard w).showed⟩, fun w e v hv => Or.inl (hfails w e v hv)⟩

theorem IsSteady.failsOnly (h : IsSteady job) : FailsOnly reason job :=
  h.toFailsOnly.mono fun _ => False.elim

theorem IsSilent.isSteady (h : IsSilent job) (hfails : ∀ w e v, job.run w ≠ .error e v) :
    IsSteady job :=
  ⟨h.failsOnly hfails, fun w e v hv => absurd hv (hfails w e v)⟩

theorem isSteady_pure (a : α) : IsSteady (pure a : Job α) :=
  (isSilent_pure a).isSteady fun w e v h => by cases h

theorem isSteady_note (severity : Severity) (source : Source) (message : Text) :
    IsSteady (note severity source message) :=
  (isSilent_note ..).isSteady fun w e v h => by cases h

theorem run_display (e : Console.Event) (w : World) :
    (display e).run w = match (w.present e).1 with
      | none => .ok () (w.present e).2
      | some failure => .error failure (w.present e).2 := by
  rw [display, EStateM.run_bind, EStateM.run_modifyGet]
  simp only
  cases (w.present e).1 <;> rfl

/-- A failure to show something is that of the console. -/
theorem present_of_display_eq_error {shown : Console.Event} {e : Failure}
    (h : (display shown).run w = .error e v) :
    v = (w.present shown).2 ∧ ∃ session ∈ w.console, (session.present shown).1 = some e := by
  rw [run_display] at h
  cases hf : (w.present shown).1 with
  | none =>
    rw [hf] at h
    cases h
  | some e' =>
    rw [hf] at h
    cases h
    refine ⟨rfl, ?_⟩
    unfold World.present at hf
    cases hc : w.console with
    | none =>
      rw [hc] at hf
      cases hf
    | some session =>
      rw [hc] at hf
      exact ⟨session, rfl, hf⟩

/-- Showing something fails only if it is refused. -/
theorem failsOnly_display (shown : Console.Event) : FailsOnly (fun _ => False) (display shown) := by
  constructor
  · intro w
    refine ⟨[shown], ?_⟩
    have hshowed := World.showed_present w shown
    rw [run_display]
    cases (w.present shown).1 <;> exact hshowed
  · intro w e v h
    refine Or.inr fun ⟨events, hshowed, htakes⟩ => ?_
    obtain ⟨rfl, session, hs, hrefused⟩ := present_of_display_eq_error h
    have hevents : events = [shown] :=
      List.append_cancel_left (hshowed.screen.symm.trans (World.screen_present w shown))
    have hsession := htakes session hs
    rw [hevents, Console.Session.takes, Bool.and_eq_true, Option.isNone_iff_eq_none] at hsession
    cases hsession.1.symm.trans hrefused

theorem isSteady_display (shown : Console.Event) (h : shown.isStop = false) :
    IsSteady (display shown) := by
  refine ⟨failsOnly_display shown, fun w e v he => ?_⟩
  obtain ⟨_, session, hs, hrefused⟩ := present_of_display_eq_error he
  exact ⟨session, hs, [], shown, h, hrefused⟩

/-- Reasons to fail are put together from those of the parts, as long as the reasons of what comes
later can be told from the start. -/
theorem FailsOnly.bind {reason' : α → World → Prop} {next : α → Job β} (h : FailsOnly reason job)
    (hnext : ∀ a, FailsOnly (reason' a) (next a))
    (hback : ∀ w a u, job.run w = .ok a u → reason' a u → reason w) :
    FailsOnly reason (job >>= next) := by
  constructor
  · intro w
    rw [EStateM.run_bind]
    cases hj : job.run w with
    | ok a u =>
      obtain ⟨events, hevents⟩ := h.showed_of_ok hj
      obtain ⟨more, hmore⟩ := (hnext a).shows u
      exact ⟨events ++ more, hevents.trans hmore⟩
    | error e u => exact h.showed_of_error hj
  · intro w e v hv
    rw [EStateM.run_bind] at hv
    cases hj : job.run w with
    | ok a u =>
      rw [hj] at hv
      obtain ⟨events, hevents⟩ := h.showed_of_ok hj
      obtain ⟨more, hmore⟩ := (hnext a).showed_of_error hv
      obtain hreason | hrefused := (hnext a).fails u e v hv
      · exact Or.inl (hback w a u hj hreason)
      · exact Or.inr fun hdrawn => hrefused (hdrawn.split hevents hmore).2
    | error e' u =>
      rw [hj] at hv
      cases hv
      exact h.fails w _ _ hj

/-- What is refused after other things were shown is refused from the start. -/
theorem World.Showed.refuses {events : List Console.Event} {e : Failure} (h : w.Showed events u)
    (hu : u.Refuses e) : w.Refuses e := by
  obtain ⟨session, hs, more, shown, hshown, hrefused⟩ := hu
  rw [h.console, Option.mem_map] at hs
  obtain ⟨before, hb, rfl⟩ := hs
  refine ⟨before, hb, events ++ more, shown, hshown, ?_⟩
  rw [Console.Session.presentAll, List.foldl_append]
  exact hrefused

theorem IsSteady.bind {next : α → Job β} (h : IsSteady job) (hnext : ∀ a, IsSteady (next a)) :
    IsSteady (job >>= next) := by
  refine ⟨h.toFailsOnly.bind (fun a => (hnext a).toFailsOnly) fun _ _ _ _ h => h,
    fun w e v hv => ?_⟩
  rw [EStateM.run_bind] at hv
  cases hj : job.run w with
  | ok a u =>
    rw [hj] at hv
    obtain ⟨events, hevents⟩ := h.showed_of_ok hj
    exact hevents.refuses ((hnext a).refused u e v hv)
  | error e' u =>
    rw [hj] at hv
    cases hv
    exact h.refused w _ _ hj

/-- What is done in any case comes after the job, however that ended. -/
theorem worldAfter_tryFinally (job : Job α) (last : Job Unit) (w : World) :
    worldAfter ((tryFinally job last).run w) = worldAfter (last.run (worldAfter (job.run w))) := by
  rw [run_tryFinally]
  cases job.run w with
  | ok a u =>
    simp only [worldAfter]
    cases last.run u <;> rfl
  | error e u =>
    simp only [worldAfter]
    cases last.run u <;> rfl

/-- What is done in any case does not add reasons. -/
theorem FailsOnly.finally {last : Job Unit} (h : FailsOnly reason job)
    (hlast : FailsOnly (fun _ => False) last) : FailsOnly reason (tryFinally job last) := by
  constructor
  · intro w
    obtain ⟨events, hevents⟩ := h.shows w
    obtain ⟨more, hmore⟩ := hlast.shows (worldAfter (job.run w))
    rw [worldAfter_tryFinally]
    exact ⟨events ++ more, hevents.trans hmore⟩
  · intro w e v hv
    obtain ⟨events, hevents⟩ := h.shows w
    obtain ⟨more, hmore⟩ := hlast.shows (worldAfter (job.run w))
    have hend := worldAfter_tryFinally job last w
    rw [hv] at hend
    obtain rfl : v = _ := hend
    rw [run_tryFinally] at hv
    cases hj : job.run w with
    | ok a u =>
      -- The job gave a value, so it is what came last that failed.
      rw [hj] at hv hevents hmore
      cases hl : last.run u with
      | ok _ x =>
        simp only [hl] at hv
        cases hv
      | error e' x =>
        have hrefused := (hlast.fails u _ _ hl).resolve_left id
        simp only [worldAfter, hl] at hmore ⊢
        exact Or.inr fun hdrawn => hrefused (hdrawn.split hevents hmore).2
    | error e' u =>
      rw [hj] at hevents hmore
      exact (h.fails w _ _ hj).imp id fun hrefused hdrawn => hrefused (hdrawn.split hevents hmore).1

theorem isSteady_forM {step : α → Job Unit} (h : ∀ a, IsSteady (step a)) (items : List α) :
    IsSteady (items.forM step) := by
  induction items with
  | nil => exact isSteady_pure ()
  | cons a items ih => exact (h a).bind fun _ => ih

/-- A job whose failures all count as outcomes does not fail. -/
theorem isSteady_attempt (h : FailsOnly reason job) :
    IsSteady (Patch.attempt (fun _ => true) job) := by
  have hfails : ∀ w e v, (Patch.attempt (fun _ => true) job).run w ≠ .error e v := by
    intro w e v hv
    rw [Patch.run_attempt] at hv
    cases hj : job.run w <;> rw [hj] at hv <;> cases hv
  refine ⟨⟨fun w => ?_, fun w e v hv => absurd hv (hfails w e v)⟩,
    fun w e v hv => absurd hv (hfails w e v)⟩
  have hw := h.shows w
  rw [Patch.run_attempt]
  cases hj : job.run w <;> rw [hj] at hw <;> exact hw

end ImportRepair
