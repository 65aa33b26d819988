import ImportRepair.Command.Basic
import ImportRepair.Proofs.Run.Returning
import ImportRepair.Proofs.Settings.Sections

/-!
# What a command runs on

A command needs three things for a run: the extension has to be a text, the mapping, if one is
asked for, has to load, and the build log has to be named by a text. If it has them, it is a run
with a user; if not, it fails.

Results:
* `Command.run_assemble`: a run is set up exactly if the extension is a text and the mapping loads.
* `Command.run_execute`: a command executes the run of its plan, or it has no plan.
* `Command.failsOnly_execute`: a command with a plan fails only for its log or for an overlong path.
-/

namespace ImportRepair.Command

open Settings

variable {o : Arguments.Options} {settings : Entries} {v w : World}

/-! ## What has to be there -/

/-- The value that settings give for the extension of the files. -/
def extensionOf (settings : Entries) : Value :=
  (get? settings "build_log" "file_extension").getD (.text Reader.defaultExtension)

/-- The mappings that are asked for, as a tree has them: one or none. -/
def mappingsIn (o : Arguments.Options) (tree : FileTree) : Except Failure (List Mapping) :=
  match o.modules.bind Arguments.Given.text? with
  | some path => (Mapping.ofTree tree (Path.plain path)).map fun mapping? => [mapping?.getD []]
  | none => .ok []

/-- The world in which the mapping is loaded: the reader was set up, with two records. -/
def atLoading (extension : Text) (w : World) : World :=
  (w.note .debug .construction "Creating FileSystemAdapter").note .debug .errorLines
    ("RegexErrorParserAdapter initialized for '." ++
      ErrorLine.bareExtension extension ++ "' files.")

theorem kept_atLoading (extension : Text) (w : World) : World.Kept w (atLoading extension w) :=
  (World.kept_note ..).trans (World.kept_note ..)

theorem unheard_atLoading (extension : Text) (w : World) :
    World.Unheard w (atLoading extension w) :=
  (World.unheard_note ..).trans (World.unheard_note ..)

/-- What a run goes by: the extension of the files, the mappings, and the path of the build log. -/
structure Plan where
  extension : Text
  mappings : List Mapping
  log : Text

namespace Plan

/-- The run of a plan. -/
def run (plan : Plan) (trial : Bool) : Run := .asking ⟨plan.extension⟩ plan.mappings trial

/-- The index of the log of a plan. -/
def index (plan : Plan) (w : World) : Index :=
  (Reader.mk plan.extension).indexOf (Run.atReading plan.log w).tree plan.log

/-- The plan is that of the options and the settings: the extension is a text, the mapping loads,
and the log is named by a text. -/
structure Fits (plan : Plan) (o : Arguments.Options) (settings : Entries) (w : World) : Prop where
  extension : extensionOf settings = .text plan.extension
  mappings : mappingsIn o (atLoading plan.extension w).tree = .ok plan.mappings
  log : buildLog settings = .text plan.log

theorem Fits.unique {plan plan' : Plan} (h : plan.Fits o settings w)
    (h' : plan'.Fits o settings w) :
    plan' = plan := by
  obtain ⟨extension, mappings, log⟩ := plan
  obtain ⟨extension', mappings', log'⟩ := plan'
  have hextension := h'.extension.symm.trans h.extension
  have hlog := h'.log.symm.trans h.log
  simp only [Value.text.injEq] at hextension hlog
  subst hextension hlog
  have hmappings := h'.mappings.symm.trans h.mappings
  simp only [Except.ok.injEq] at hmappings
  rw [hmappings]

end Plan

/-! ## Setting up -/

theorem ofSettings_eq (h : IsSectioned settings) : Reader.ofSettings (.map settings) =
    match extensionOf settings with
    | .text extension => .ok ⟨extension⟩
    | .bytes _ => .error .textInBytes
    | v => .error (.lacks v.kindName "lstrip") := by
  rw [Reader.ofSettings, map_or_empty, sectionAt_eq h (by decide)]
  rfl

/-- A reader is set up, with a record, exactly if the extension is a text. -/
theorem run_create (h : IsSectioned settings) (w : World) :
    (∃ extension, extensionOf settings = .text extension ∧
        (Reader.create (.map settings)).run w = .ok ⟨extension⟩ (w.note .debug .errorLines
          ("RegexErrorParserAdapter initialized for '." ++ ErrorLine.bareExtension extension ++
            "' files."))) ∨
      (∃ e, (Reader.create (.map settings)).run w = .error e w) ∧
        ∀ extension, extensionOf settings ≠ .text extension := by
  rw [Reader.create, ofSettings_eq h]
  cases extensionOf settings with
  | text extension => exact Or.inl ⟨extension, rfl, rfl⟩
  | _ => exact Or.inr ⟨⟨_, rfl⟩, by simp⟩

/-- Loading the mappings that are asked for. -/
def loadMappings (o : Arguments.Options) : Job (List Mapping) :=
  match o.modules.bind Arguments.Given.text? with
  | some path => (fun mapping => [mapping]) <$> Mapping.load path
  | none => pure []

theorem run_loadMappings (o : Arguments.Options) (w : World) :
    match mappingsIn o w.tree with
    | .error e => (loadMappings o).run w = .error e w
    | .ok mappings =>
      ∃ v, (loadMappings o).run w = .ok mappings v ∧ World.Kept w v ∧ World.Unheard w v := by
  rw [mappingsIn, loadMappings]
  cases o.modules.bind Arguments.Given.text? with
  | none => exact ⟨w, rfl, .refl w, .refl w⟩
  | some path =>
    simp only
    rw [map_eq_pure_bind, Mapping.load, bind_assoc, EStateM.run_bind, EStateM.run_get]
    simp only
    cases Mapping.ofTree w.tree (Path.plain path) with
    | error e => rfl
    | ok mapping? =>
      cases mapping? with
      | none => exact ⟨w, rfl, .refl w, .refl w⟩
      | some mapping => exact ⟨_, rfl, World.kept_note .., World.unheard_note ..⟩

theorem assemble_eq (o : Arguments.Options) (settings : Entries) :
    assemble o settings = (do
      note .debug .construction "Creating FileSystemAdapter"
      let reader ← Reader.create (.map settings)
      let mappings ← loadMappings o
      return Run.asking reader mappings (isTrial settings)) := by
  rw [assemble, loadMappings]
  cases o.modules.bind Arguments.Given.text? <;> rfl

/-- A run is set up exactly if the extension is a text and the mapping loads. -/
theorem run_assemble (h : IsSectioned settings) (o : Arguments.Options) (w : World) :
    (∃ extension mappings v, extensionOf settings = .text extension ∧
        mappingsIn o (atLoading extension w).tree = .ok mappings ∧
        (assemble o settings).run w = .ok (.asking ⟨extension⟩ mappings (isTrial settings)) v ∧
        World.Kept w v ∧ World.Unheard w v) ∨
      ∃ e v, (assemble o settings).run w = .error e v ∧ World.Kept w v ∧ World.Unheard w v ∧
        ∀ extension, extensionOf settings = .text extension →
          ∀ mappings, mappingsIn o (atLoading extension w).tree ≠ .ok mappings := by
  have hnote := World.unheard_note .debug .construction "Creating FileSystemAdapter" w
  rw [assemble_eq]
  obtain ⟨extension, hextension, hcreate⟩ | ⟨⟨e, hcreate⟩, hnone⟩ :=
    run_create h (w.note .debug .construction "Creating FileSystemAdapter")
  · have hload := run_loadMappings o (atLoading extension w)
    cases hm : mappingsIn o (atLoading extension w).tree with
    | ok mappings =>
      rw [hm] at hload
      obtain ⟨v, hv, hkept, hquiet⟩ := hload
      refine Or.inl ⟨extension, mappings, v, hextension, hm, ?_,
        (kept_atLoading extension w).trans hkept, (unheard_atLoading extension w).trans hquiet⟩
      exact (run_bind_of_ok hcreate).trans ((run_bind_of_ok hv).trans rfl)
    | error e =>
      rw [hm] at hload
      refine Or.inr ⟨e, _, (run_bind_of_ok hcreate).trans (run_bind_of_error hload),
        kept_atLoading extension w, unheard_atLoading extension w, ?_⟩
      intro extension' hextension' mappings
      rw [hextension] at hextension'
      cases hextension'
      simp [hm]
  · exact Or.inr ⟨e, _, (run_bind_of_ok rfl).trans (run_bind_of_error hcreate),
      World.kept_note .., hnote, fun extension he => absurd he (hnone extension)⟩

/-! ## Executing -/

/-- A command executes the run of its plan, or it has no plan. -/
theorem run_execute (h : IsSectioned settings) (o : Arguments.Options) (w : World) :
    (∃ (plan : Plan) (v : World), plan.Fits o settings w ∧ World.Kept w v ∧ World.Unheard w v ∧
        (assemble o settings).run w = .ok (plan.run (isTrial settings)) v ∧
        (execute o settings).run w = ((plan.run (isTrial settings)).execute plan.log).run v) ∨
      ∃ e v, (execute o settings).run w = .error e v ∧ World.Kept w v ∧ World.Unheard w v ∧
        ∀ plan : Plan, ¬plan.Fits o settings w := by
  rw [execute]
  obtain ⟨extension, mappings, v, hextension, hmappings, hrun, hkept, hquiet⟩ |
    ⟨e, v, hrun, hkept, hquiet, hnone⟩ := run_assemble h o w
  · rw [run_bind_of_ok hrun]
    cases hlog : buildLog settings with
    | text log =>
      exact Or.inl ⟨⟨extension, mappings, log⟩, v, ⟨hextension, hmappings, hlog⟩, hkept,
        hquiet, hrun, rfl⟩
    | _ =>
      refine Or.inr ⟨_, v, rfl, hkept, hquiet, fun plan hfits => ?_⟩
      have hlog' := hfits.log
      rw [hlog] at hlog'
      cases hlog'
  · exact Or.inr ⟨e, v, run_bind_of_error hrun, hkept, hquiet, fun plan hfits =>
      hnone plan.extension hfits.extension plan.mappings hfits.mappings⟩

/-- A command with a plan fails only for its log or for an overlong path. -/
theorem failsOnly_execute (h : IsSectioned settings) (o : Arguments.Options) :
    FailsOnly (fun w => ∀ (plan : Plan) (v : World), plan.Fits o settings w →
      (assemble o settings).run w = .ok (plan.run (isTrial settings)) v →
      Run.Obstructs ⟨plan.extension⟩ plan.log v) (execute o settings) := by
  constructor
  · intro w
    obtain ⟨plan, v, _, _, hquiet, _, hrun⟩ | ⟨e, v, hrun, _, hquiet, _⟩ := run_execute h o w
    · obtain ⟨events, hshowed⟩ := (Run.failsOnly_execute ⟨plan.extension⟩ plan.mappings
        (isTrial settings) plan.log).shows v
      rw [hrun]
      exact ⟨[] ++ events, hquiet.showed.trans hshowed⟩
    · rw [hrun]
      exact ⟨[], hquiet.showed⟩
  · intro w e x hx
    obtain ⟨plan, v, hfits, _, hquiet, hassemble, hrun⟩ | ⟨e', v, _, _, _, hnone⟩ :=
      run_execute h o w
    · have hsteady :=
        Run.failsOnly_execute ⟨plan.extension⟩ plan.mappings (isTrial settings) plan.log
      rw [hrun] at hx
      obtain ⟨events, hshowed⟩ := hsteady.showed_of_error hx
      obtain hreason | hrefused := hsteady.fails v e x hx
      · refine Or.inl fun plan' v' hfits' hassemble' => ?_
        obtain rfl := hfits.unique hfits'
        rw [hassemble] at hassemble'
        cases hassemble'
        exact hreason
      · exact Or.inr fun hdrawn => hrefused (hdrawn.split hquiet.showed hshowed).2
    · exact Or.inl fun plan v hfits => absurd hfits (hnone plan)

end ImportRepair.Command
