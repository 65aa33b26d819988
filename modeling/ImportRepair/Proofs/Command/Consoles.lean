import ImportRepair.Proofs.Command.Misreading
import ImportRepair.Proofs.Console.Reading
import ImportRepair.Proofs.Run.Lockstep

/-!
# One command on two consoles

The choice of the console does not change what a command does. With two settings files that
differ in nothing but the console that they ask for, a command ends with the same exit code, asks
and shows the same, takes the same answers of the same input, and leaves the same files but for
the settings. The settings file must not be the build log, or a file that the build log reports,
since its bytes are what differs. It may be the module mapping: that is refused on both consoles,
though perhaps in other words.

Results:
* `Command.endAlike_execute`, `Command.endAlike_fix`: files are patched alike in worlds
  that differ in the settings.
* `Command.run_congr_console`: commands on different consoles do the same.
-/

namespace ImportRepair

variable {c : Nat} {d : Sight} {w w' : World}

/-! ## Worlds and jobs -/

/-- Worlds side by side whose trees are as a file system keeps them. -/
structure World.Paired (c : Nat) (w w' : World) : Prop extends Beside c w w' where
  sound : w.tree.Sound

theorem World.Abreast.paired (h : Abreast d w w') : Paired d.content w w' :=
  ⟨h.toBeside, h.spares.twin.sound⟩

/-- All paths to other contents may be read. -/
theorem World.Paired.abreast (h : Paired c w w') {paths : List Text}
    (hp : ∀ path ∈ paths, w.tree.contentAt path ≠ .ok c) : Abreast ⟨w.tree, c, paths⟩ w w' :=
  ⟨h.toBeside, FileTree.spares_self h.sound h.old hp⟩

section EndAlike

variable {α β : Type} {T T' : World → World → Prop} {R : α → β → Prop}
  {r : EStateM.Result Failure World α} {r' : EStateM.Result Failure World β}

theorem EndAlike.mono (h : EndAlike T R r r') (himp : ∀ v v', T v v' → T' v v') :
    EndAlike T' R r r' := by
  cases h with
  | returned hab hv => exact .returned hab (himp _ _ hv)
  | failed hv => exact .failed (himp _ _ hv)

/-- Worlds that are left side by side are paired if the first one is sound. -/
theorem EndAlike.paired (h : EndAlike (World.Beside c) R r r') (hs : (worldAfter r).tree.Sound) :
    EndAlike (World.Paired c) R r r' := by
  cases h with
  | returned hab hv => exact .returned hab ⟨hv, hs⟩
  | failed hv => exact .failed ⟨hv, hs⟩

/-- Where one job has returned, the other one has returned the same. -/
theorem EndAlike.of_ok {a : α} {v : World} {s : EStateM.Result Failure World α}
    (h : EndAlike T Eq (.ok a v) s) :
    ∃ v', s = .ok a v' ∧ T v v' := by
  cases h with
  | returned hab hv => exact ⟨_, by rw [hab], hv⟩

end EndAlike

/-- A job that is in lockstep without reading anything. -/
theorem endAlike_of_lockstep {α : Type} {job : Job α} (h : ∀ d, Lockstep d job) (hw : w.Paired c w')
    (hd : w.Drawn (worldAfter (job.run w))) (hd' : w'.Drawn (worldAfter (job.run w'))) :
    EndAlike (World.Paired c) Eq (job.run w) (job.run w') :=
  ((h ⟨w.tree, c, []⟩).endAlike (hw.abreast (List.forall_mem_nil _)) hd hd').mono fun _ _ hv =>
    hv.paired

namespace Command

open Settings Console

variable {o : Arguments.Options} {settings settings' : Entries} {terminal : Terminal}
  {arguments : List Text}

/-! ## Settings for the other console -/

/-- Nothing but the choice of the console depends on the console that settings ask for. -/
theorem fix_congr {kind kind' : Text} (h : Variants kind kind' settings settings')
    (hs : IsSectioned settings) (o : Arguments.Options) : fix o settings' = fix o settings := by
  have hlog : buildLog settings' = buildLog settings := by
    rw [buildLog, buildLog, h.get? (by decide)]
  have htrial : isTrial settings' = isTrial settings := by rw [isTrial, isTrial, h.get? (by decide)]
  have hextension : extensionOf settings' = extensionOf settings := by
    rw [extensionOf, extensionOf, h.get? (by decide)]
  have hreader : Reader.create (.map settings') = Reader.create (.map settings) := by
    rw [Reader.create, Reader.create, ofSettings_eq hs,
      ofSettings_eq (h.isSectioned hs), hextension]
  have hexecute : execute o settings' = execute o settings := by
    rw [execute, execute, assemble_eq, assemble_eq, hreader, htrial, hlog]
  rw [fix, fix, hexecute, hlog, htrial]

/-! ## Setting up -/

/-- A command does not read a content for its module mapping. -/
def MapsApart (o : Arguments.Options) (c : Nat) (w : World) : Prop :=
  ∀ path ∈ o.modules.bind Arguments.Given.text?, w.tree.contentAt (Path.plain path) ≠ .ok c

/-- A command reads a content for its settings, and for no build log: the build log does not have
it, nor a file that is reported in the log. If the mapping has it, no records go there. -/
structure IsApart (o : Arguments.Options) (settings : Entries) (c : Nat) (w : World) : Prop where
  mapping : c ∈ w.journal.sinks → MapsApart o c w
  log : ∀ path, buildLog settings = .text path → w.tree.contentAt path ≠ .ok c
  reported : ∀ (plan : Plan) (v : World), plan.Fits o settings w →
    (assemble o settings).run w = .ok (plan.run (isTrial settings)) v →
    ∀ r ∈ (plan.index v).references, w.tree.contentAt r.path ≠ .ok c

theorem mapsApart_atPanel : MapsApart o c (atPanel settings w) ↔ MapsApart o c w := by
  rw [MapsApart, MapsApart, atPanel, World.tree_present]

theorem prepares_assemble (o : Arguments.Options) (settings : Entries) :
    Prepares World.Readied (assemble o settings) := by
  rw [assemble_eq]
  refine (prepares_note ..).bind fun _ => Prepares.bind ?_ fun reader =>
    Prepares.bind ?_ fun mappings =>
    prepares_pure _
  · rw [Reader.create]
    split
    · exact prepares_throw _
    · exact (prepares_note ..).bind fun _ => prepares_pure _
  · rw [loadMappings]
    split
    · next path _ =>
      rw [map_eq_pure_bind]
      refine Prepares.bind (prepares_get fun w => ?_) fun _ => prepares_pure _
      split
      · exact Preparing.refl w
      · exact Preparing.refl w
      · exact ((prepares_note ..).bind fun _ => prepares_pure _).after w
    · exact prepares_pure _

theorem isSilent_assemble (h : IsSectioned settings) (o : Arguments.Options) :
    IsSilent (assemble o settings) := by
  refine ⟨fun w => ?_⟩
  obtain ⟨_, _, v, _, _, hrun, _, hquiet⟩ | ⟨e, v, hrun, _, hquiet, _⟩ := run_assemble h o w
  · rw [hrun]
    exact hquiet
  · rw [hrun]
    exact hquiet

/-- A mapping that has another content is loaded alike. -/
theorem endAlike_loadMappings (hw : w.Beside c w')
    (hm : MapsApart o c w) :
    EndAlike (World.Beside c) Eq ((loadMappings o).run w) ((loadMappings o).run w') := by
  rw [loadMappings]
  cases hpath : o.modules.bind Arguments.Given.text? with
  | none => exact .returned rfl hw
  | some path =>
    have hread : w'.tree.readBytes (Path.plain path) = w.tree.readBytes (Path.plain path) :=
      hw.logged.readBytes (List.forall_mem_singleton.2 (hm path hpath))
    have hload : EndAlike (World.Beside c) Eq ((Mapping.load path).run w)
        ((Mapping.load path).run w') := by
      rw [Mapping.load, EStateM.run_bind, EStateM.run_get, EStateM.run_bind, EStateM.run_get]
      simp only [Mapping.ofTree, hread]
      split
      · exact .failed hw
      · exact .returned rfl hw
      · exact ((echoes_note ..).bind_eq fun _ => echoes_pure rfl).endAlike hw
    simp only [map_eq_pure_bind]
    exact hload.bind fun _ _ _ _ _ hab hv => .returned (congrArg (fun m => [m]) hab) hv

theorem endAlike_assemble (h : IsSectioned settings) (hw : w.Beside c w') (hm : MapsApart o c w) :
    EndAlike (World.Beside c) Eq ((assemble o settings).run w) ((assemble o settings).run w') := by
  have hcreate : Echoes c Eq (Reader.create (.map settings)) (Reader.create (.map settings)) := by
    rw [Reader.create]
    split
    · exact echoes_throw _
    · exact (echoes_note ..).bind_eq fun _ => echoes_pure rfl
  rw [assemble_eq]
  refine ((echoes_note ..).endAlike hw).bind fun _ _ u u' hu _ hw => ?_
  cases hu
  refine (hcreate.endAlike hw).bind fun reader reader' v v' hv hreader hw => ?_
  obtain ⟨extension, _, hrun⟩ | ⟨⟨e, hrun⟩, _⟩ := run_create h _
  swap
  · rw [hrun] at hv
    cases hv
  rw [hrun] at hv
  cases hv
  refine (endAlike_loadMappings hw fun path hpath => ?_).bind
    fun mappings mappings' _ _ _ hmappings hw => ?_
  · -- The records that were made move nothing.
    have hsame := (kept_atLoading extension w).tree.contentAt (Path.plain path)
    exact fun hc => hm path hpath (hsame.symm.trans hc)
  · rw [hreader, hmappings]
    exact .returned rfl hw

/-! ## Executing -/

/-- Runs are set up and executed alike if they read the content only for the settings. -/
theorem endAlike_execute (h : IsSectioned settings) (hw : w.Paired c w') (hm : MapsApart o c w)
    (hapart : IsApart o settings c w) (hd : w.Drawn (worldAfter ((execute o settings).run w)))
    (hd' : w'.Drawn (worldAfter ((execute o settings).run w'))) :
    EndAlike (World.Paired c) Eq ((execute o settings).run w) ((execute o settings).run w') := by
  have hassemble := (endAlike_assemble h hw.toBeside hm).paired
    (((prepares_assemble o settings).after w).sound hw.sound)
  rw [execute] at hd hd' ⊢
  cases hlog : buildLog settings with
  | text log =>
    rw [hlog] at hd hd'
    obtain ⟨extension, mappings, v, hextension, hmappings, hrun, hkept, hquiet⟩ |
      ⟨e, v, hrun, _, _, _⟩ := run_assemble h o w
    swap
    · exact hassemble.bind fun _ _ _ _ hv _ _ => (by rw [hrun] at hv; cases hv)
    rw [hrun] at hassemble
    obtain ⟨v', hrun', hv⟩ := hassemble.of_ok
    rw [run_bind_of_ok hrun] at hd ⊢
    rw [run_bind_of_ok hrun'] at hd' ⊢
    have hshows := (Run.failsOnly_execute ⟨extension⟩ mappings (isTrial settings) log).shows
    have hquiet' := (isSilent_assemble h o).of_ok hrun'
    have hpaths :
        ∀ path ∈ log :: ((Plan.index ⟨extension, mappings, log⟩ v).references.map (·.path)),
        v.tree.contentAt path ≠ .ok c := by
      intro path hpath
      rw [hkept.tree.contentAt]
      obtain rfl | hpath := List.mem_cons.1 hpath
      · exact hapart.log path hlog
      · obtain ⟨r, hr, rfl⟩ := List.mem_map.1 hpath
        exact hapart.reported ⟨extension, mappings, log⟩ v ⟨hextension, hmappings, hlog⟩ hrun r hr
    refine (Run.endAlike_execute (hv.abreast hpaths) (List.mem_cons_self ..)
      (fun r hr => ?_) ?_ ?_).mono fun _ _ hv => hv.paired
    · exact List.mem_cons_of_mem _ (List.mem_map_of_mem hr)
    · obtain ⟨events, hshowed⟩ := hshows v
      exact (hd.split hquiet.showed hshowed).2
    · obtain ⟨events, hshowed⟩ := hshows v'
      exact (hd'.split hquiet'.showed hshowed).2
  | _ => exact hassemble.bind fun _ _ _ _ _ _ hv => .failed hv

/-! ## Patching -/

theorem lockstep_tell (severity : Severity) (shown recorded : Text) :
    Lockstep d (tell severity shown recorded) :=
  (lockstep_display _).bind fun _ => lockstep_note ..

theorem lockstep_summarise (report : Report) : Lockstep d (summarise report) := by
  rw [summarise]
  split
  · exact (lockstep_display _).bind fun _ =>
      (lockstep_forM (fun _ => lockstep_display _) _).bind fun _ => lockstep_display _
  · exact lockstep_pure ()

theorem lockstep_finish (result : Except Failure Outcome) : Lockstep d (finish result) := by
  cases result with
  | error e =>
    refine Lockstep.bind ?_ fun _ => lockstep_pure _
    rw [tellFailure]
    split <;> exact lockstep_tell ..
  | ok outcome =>
    cases outcome with
    | inputEnded type report =>
      exact (lockstep_summarise report).bind fun _ => (lockstep_tell ..).bind fun _ =>
        lockstep_pure _
    | finished report =>
      refine (lockstep_summarise report).bind fun _ => ?_
      split
      · exact (lockstep_display _).bind fun _ => lockstep_pure _
      · exact lockstep_pure _

/-- Files are patched alike if the content is read only for the settings. -/
theorem endAlike_fix (h : IsSectioned settings) (hw : w.Paired c w')
    (hm : MapsApart o c (atPanel settings w)) (hapart : IsApart o settings c (atPanel settings w))
    (hd : w.Drawn (worldAfter ((fix o settings).run w)))
    (hd' : w'.Drawn (worldAfter ((fix o settings).run w'))) :
    EndAlike (World.Paired c) Eq ((fix o settings).run w) ((fix o settings).run w') := by
  have hattempt := (isSteady_attempt (failsOnly_execute h o)).shows
  have hrest :=
    ((isSteady_attempt (failsOnly_execute h o)).bind fun result => isSteady_finish result).shows
  rw [fix_eq] at hd hd' ⊢
  refine .bind_drawn (failsOnly_display (panel settings)).shows (fun _ => hrest) hd hd'
    (endAlike_of_lockstep (fun d => lockstep_display (panel settings)) hw)
    fun _ u u' hu hw hd hd' => ?_
  obtain rfl : u = atPanel settings w := World.eq_present_of_display hu
  refine .bind_drawn hattempt (fun result => (isSteady_finish result).shows) hd hd'
    (fun hd hd' => ?_)
    fun result _ _ _ hw hd hd' => endAlike_of_lockstep (fun d => lockstep_finish result) hw hd hd'
  rw [worldAfter_attempt] at hd hd'
  exact (endAlike_execute h hw hm hapart hd hd').attempt _

/-! ## Choosing -/

/-- Settings that ask for the plain console get it. -/
theorem run_choose_plain (h : IsSectioned settings)
    (ht : get? settings "ui" "type" = some (.text "tqdm")) (w : World) :
    (Kind.choose (.map settings)).run w = .ok .plain w := by
  have hwish : Kind.wish settings = .text "tqdm" := by rw [Kind.wish, ht, Option.getD_some]
  rw [Kind.choose_eq h, hwish]
  rfl

/-- Settings that ask for the drawn console get it, if a console can be chosen. -/
theorem run_choose_drawn (h : IsSectioned settings)
    (ht : get? settings "ui" "type" = some (.text "rich")) (hchoosable : Kind.IsChoosable settings)
    (w : World) :
    ∃ timed, (Kind.choose (.map settings)).run w = .ok (.drawn timed) w := by
  have hwish : Kind.wish settings = .text "rich" := by rw [Kind.wish, ht, Option.getD_some]
  have hstyle : (Kind.style settings).holdsLongNumber = false := by
    refine hchoosable.style ?_
    rw [hwish]
    decide
  have hdrawn : Kind.drawnOf (.map settings) =
      .ok (.drawn ((Kind.style settings).display.toLower = ("spinner" : Text))) := by
    rw [Kind.drawnOf_eq h, Value.shown, hstyle]
    rfl
  refine ⟨(Kind.style settings).display.toLower = ("spinner" : Text), ?_⟩
  rw [Kind.choose_eq h, hwish]
  show (Kind.byName settings ("rich" : Text)).run w = _
  rw [Kind.byName, if_neg (by decide), if_neg (by decide), hdrawn]
  rfl

/-! ## Two commands -/

/-- Two worlds for the two consoles. They are the same but for the bytes of a content, where the
settings ask for the plain console in one world and for the drawn one in the other, and for how the
consoles read one input. -/
structure Counterparts (arguments : List Text) (c : Nat) (text : Text) (w w' : World) : Prop where
  sound : w.tree.Sound
  old : c < w.tree.contents.length
  tree : ∃ bytes, w'.tree = w.tree.withBytes c bytes
  mishaps : w'.mishaps = w.mishaps
  journal : w'.journal = w.journal
  unlogged : w.journal.sinks = []
  blank : w.screen = []
  blank' : w'.screen = []
  answers : w.answers = Kind.plain.readAll text
  answers' : ∃ timed, w'.answers = (Kind.drawn timed).readAll text
  settings : ∀ o, Arguments.parse arguments = .options o → ∃ loaded loaded',
    Gives w.tree (fileIn w.tree.working.path (settingsFile o)) (settingsFile o).isSome loaded ∧
      Gives w'.tree (fileIn w'.tree.working.path (settingsFile o)) (settingsFile o).isSome loaded' ∧
      Variants "tqdm" "rich" loaded loaded'

/-- Two commands that have done the same: they end with the same code, have asked and
shown the same, taken the same answers, recorded the same, and leave the same files but
for the bytes of a content. -/
structure Ending.Matches (c : Nat) (ending ending' : Ending) : Prop where
  code : ending'.code = ending.code
  screen : ending'.world.screen = ending.world.screen
  answers : ending'.world.answers = ending.world.answers
  journal : ending'.world.journal = ending.world.journal
  tree : ∃ bytes, ending'.world.tree = ending.world.tree.withBytes c bytes

/-- The questions among what was shown. -/
def questions (screen : List Event) : List Event :=
  screen.filter fun
    | .question _ => true
    | _ => false

/-- Two commands that have come to the same: they end with the same code, have asked
the same and taken the same answers, and leave the same files but for the bytes of a
content and of the log file. -/
structure Ending.Agrees (c : Nat) (ending ending' : Ending) : Prop where
  code : ending'.code = ending.code
  questions : questions ending'.world.screen = questions ending.world.screen
  answers : ending'.world.answers = ending.world.answers
  tree : FileTree.Logged (c :: ending.world.journal.sinks) ending.world.tree ending'.world.tree

/-- The console of a command, if it has chosen one, has taken everything that it was asked to
show. -/
def Ending.IsDrawn (terminal : Terminal) (ending : Ending) : Prop :=
  ∀ kind ∈ ending.console, (Session.new kind terminal).takes ending.world.screen = true

theorem Ending.Matches.agrees {ending ending' : Ending} (h : ending.Matches c ending') :
    ending.Agrees c ending' := by
  obtain ⟨bytes, htree⟩ := h.tree
  refine ⟨h.code, by rw [h.screen], h.answers, ?_⟩
  rw [htree]
  exact FileTree.logged_withBytes.mono (by simp)

theorem Counterparts.beside {text : Text} (h : Counterparts arguments c text w w') :
    w.Beside c w' := by
  obtain ⟨timed, hanswers⟩ := h.answers'
  refine ⟨h.tree, h.old, h.mishaps, h.journal, h.blank'.trans h.blank.symm, ?_⟩
  rw [hanswers, h.answers, Kind.readAll_eq, Kind.readAll_eq]

/-- Worlds side by side at the end of commands with the same code. -/
theorem Ending.Matches.of_beside {ending ending' : Ending} (hcode : ending'.code = ending.code)
    (h : ending.world.Beside c ending'.world) : ending.Matches c ending' :=
  ⟨hcode, h.screen, h.answers, h.journal, h.tree⟩

/-- Commands that patch files alike do the same. -/
theorem matches_of_endAlike {kind kind' : Kind} {r r' : EStateM.Result Failure World Nat}
    (h : EndAlike (World.Paired c) Eq r r') : (endingOf kind r).Matches c (endingOf kind' r') := by
  cases h with
  | returned hab hv =>
    exact .of_beside (by rw [endingOf, endingOf, codeBy, codeBy, hab]) hv.toBeside
  | failed hv => exact .of_beside rfl hv.toBeside

theorem isSectioned_of_begin {u : World} (h : (begin o).run w = .ok settings u) :
    IsSectioned settings := by
  obtain ⟨_, _, hsettings, h⟩ := run_bind_eq_ok.1 h
  obtain ⟨_, _, _, h⟩ := run_bind_eq_ok.1 h
  obtain ⟨_, _, _, h⟩ := run_bind_eq_ok.1 h
  obtain ⟨_, _, _, h⟩ := run_bind_eq_ok.1 h
  cases h
  exact isSectioned_of_settings hsettings

/-- The content in which two worlds differ is that of the settings file. -/
theorem Counterparts.contentAt_settings {text : Text} (h : Counterparts arguments c text w w')
    (ho : Arguments.parse arguments = .options o) :
    w.tree.contentAt (fileIn w.tree.working.path (settingsFile o)) = .ok c := by
  obtain ⟨loaded, loaded', hgives, hgives', hvariants⟩ := h.settings o ho
  have hlogged := h.beside.logged
  rw [hlogged.working] at hgives'
  by_contra hother
  have hread : w'.tree.readBytes (fileIn w.tree.working.path (settingsFile o)) =
      w.tree.readBytes (fileIn w.tree.working.path (settingsFile o)) :=
    hlogged.readBytes (List.forall_mem_singleton.2 hother)
  have hsame : Gives w.tree (fileIn w.tree.working.path (settingsFile o))
      (settingsFile o).isSome loaded' := by
    unfold Gives valueAt at hgives' ⊢
    rwa [hlogged.isFile, hread] at hgives'
  obtain ⟨htype, htype'⟩ := hvariants.type
  rw [hgives.unique hsame, htype, Option.some_inj, Value.text.injEq] at htype'
  exact absurd htype' (by decide)

/-- Two commands that end with the same code, after a panel and a message each, come to the same. -/
theorem agrees_of_talked {kind kind' : Kind} {x x' y y' : World} {code : Nat}
    {title text text' : Text} {content : Text} (hx : x.Beside c x') (hkept : World.Kept x y)
    (hkept' : World.Kept x' y')
    (htalked : x.Talked [.panel content title, .message .error text] [] y)
    (htalked' : x'.Talked [.panel content title, .message .error text'] [] y') :
    (endingOf kind (.ok code y)).Agrees c (endingOf kind' (.ok code y')) where
  code := rfl
  questions := by
    show questions y'.screen = questions y.screen
    rw [htalked.screen, htalked'.screen, hx.screen]
    simp [Command.questions]
  answers := by
    show y'.answers = y.answers
    rw [htalked.answers, htalked'.answers, hx.answers]
  tree := by
    show FileTree.Logged (c :: y.journal.sinks) y.tree y'.tree
    have hsinks : x'.journal.sinks = x.journal.sinks := by rw [hx.journal]
    have hbefore := hkept.tree.symm.mono (List.subset_cons_self c _)
    have hafter := hkept'.tree
    rw [hsinks] at hafter
    rw [hkept.sinks]
    exact hbefore.trans ((hx.logged.mono (by simp)).trans (hafter.mono (List.subset_cons_self c _)))

/-- Two commands that are given their settings for a module mapping, too, come to the same. -/
theorem agrees_of_settings {text : Text} (h : Counterparts arguments c text w w')
    (ho : Arguments.parse arguments = .options o) {config config' : Entries} {u u' x x' : World}
    (hbegin : (begin o).run w = .ok config u) (hbegin' : (begin o).run w' = .ok config' u')
    (hu : x.tree = u.tree ∧ x.journal = u.journal)
    (hu' : x'.tree = u'.tree ∧ x'.journal = u'.journal) (hx : x.Beside c x')
    (hsectioned : IsSectioned settings) (hm : ¬MapsApart o c x) (hc : c ∉ x.journal.sinks)
    (hd : x.Drawn (worldAfter ((fix o settings).run x)))
    (hd' : x'.Drawn (worldAfter ((fix o settings).run x'))) (kind kind' : Kind) :
    (endingOf kind ((fix o settings).run x)).Agrees c
      (endingOf kind' ((fix o settings).run x')) := by
  obtain ⟨loaded, loaded', hgives, hgives', hvariants⟩ := h.settings o ho
  obtain ⟨entries, entries', he, he', -⟩ := hvariants.ui
  obtain ⟨path, hpath, hcontent⟩ : ∃ path, o.modules.bind Arguments.Given.text? = some path ∧
      x.tree.contentAt (Path.plain path) = .ok c := by
    unfold MapsApart at hm
    push Not at hm
    exact hm
  have hw := h.beside
  have hfile := h.contentAt_settings ho
  have hfile' := (hw.logged.contentAt _).trans hfile
  rw [← hw.logged.working] at hfile'
  obtain ⟨y, shown, hrun, hkept, htalked⟩ :=
    fix_of_settings h.unlogged hgives (Entries.mem_of_get? he) hfile h.old hbegin hu.1 hu.2
      hsectioned hpath hcontent hc hd
  obtain ⟨y', shown', hrun', hkept', htalked'⟩ := fix_of_settings (hw.journal ▸ h.unlogged) hgives'
    (Entries.mem_of_get? he') hfile' (h.old.trans_eq hw.logged.length.symm) hbegin' hu'.1 hu'.2
    hsectioned hpath ((hx.logged.contentAt _).trans hcontent) (hx.journal ▸ hc) hd'
  rw [hrun, hrun']
  exact agrees_of_talked hx hkept hkept' htalked htalked'

/-- Two commands with their consoles come to the same. They do the same if their settings
are no module mapping. -/
theorem agrees_of_begun {text : Text} (h : Counterparts arguments c text w w')
    (ho : Arguments.parse arguments = .options o) {config config' : Entries} {u u' x x' : World}
    (hbegin : (begin o).run w = .ok config u) (hbegin' : (begin o).run w' = .ok config' u')
    (hx : x.Paired c x') (hu : x.tree = u.tree ∧ x.journal = u.journal)
    (hu' : x'.tree = u'.tree ∧ x'.journal = u'.journal) (hsectioned : IsSectioned settings)
    (hapart : IsApart o settings c (atPanel settings x))
    (hd : x.Drawn (worldAfter ((fix o settings).run x)))
    (hd' : x'.Drawn (worldAfter ((fix o settings).run x'))) (kind kind' : Kind) :
    (endingOf kind ((fix o settings).run x)).Agrees c (endingOf kind' ((fix o settings).run x')) ∧
      (MapsApart o c (atPanel settings x) →
        (endingOf kind ((fix o settings).run x)).Matches c
          (endingOf kind' ((fix o settings).run x'))) := by
  by_cases hm : MapsApart o c (atPanel settings x)
  · have hmatches : (endingOf kind ((fix o settings).run x)).Matches c
        (endingOf kind' ((fix o settings).run x')) :=
      matches_of_endAlike (endAlike_fix hsectioned hx hm hapart hd hd')
    exact ⟨hmatches.agrees, fun _ => hmatches⟩
  · refine ⟨?_, fun hall => absurd hall hm⟩
    have hc : c ∉ x.journal.sinks := by
      intro hc
      refine hm (hapart.mapping ?_)
      rwa [atPanel, World.journal_present]
    rw [mapsApart_atPanel] at hm
    exact agrees_of_settings h ho hbegin hbegin' hu hu' hx.toBeside hsectioned hm hc hd
      hd' kind kind'

/-- A command line without options is answered with a text, and without a console. -/
theorem matches_of_parse (hw : w.Beside c w') (h : ∀ o, Arguments.parse arguments ≠ .options o) :
    (run terminal arguments w).Matches c (run terminal arguments w') ∧
      (run terminal arguments w).console = none ∧ (run terminal arguments w').console = none := by
  rw [run, run]
  cases hparse : Arguments.parse arguments with
  | help => exact ⟨.of_beside rfl hw, rfl, rfl⟩
  | mistake message => exact ⟨.of_beside rfl hw, rfl, rfl⟩
  | options o => exact absurd hparse (h o)

/-- What a command shows on its console starts with nothing. -/
theorem Ending.IsDrawn.drawn {kind : Kind} {u : World} (hsectioned : IsSectioned settings)
    (hblank : u.screen = [])
    (h : (endingOf kind
      ((fix o settings).run { u with console := some (.new kind terminal) })).IsDrawn terminal) :
    World.Drawn { u with console := some (.new kind terminal) }
      (worldAfter ((fix o settings).run { u with console := some (.new kind terminal) })) := by
  obtain ⟨events, hshowed⟩ :=
    (isSteady_fix hsectioned o).shows { u with console := some (.new kind terminal) }
  exact hshowed.drawn hblank rfl (h kind rfl)

/-- For all command lines, files and inputs, and for settings that differ in nothing but the console
that they ask for: If a command does not read the settings file for its build log, a console can be
chosen, and each console takes everything that it is asked to show, then the command comes to the
same on both consoles. It does the same, in the same words, if it does not read the settings file
for its module mapping either. -/
theorem run_congr_console {text : Text} (h : Counterparts arguments c text w w')
    (happart : ∀ o settings u, Arguments.parse arguments = .options o →
      (begin o).run w = .ok settings u →
      IsApart o settings c (atPanel settings { u with console := some (.new .plain terminal) }))
    (hchoosable : ∀ o settings u, Arguments.parse arguments = .options o →
      (begin o).run w' = .ok settings u →
      Kind.IsChoosable settings) (hdrawn : (run terminal arguments w).IsDrawn terminal)
    (hdrawn' : (run terminal arguments w').IsDrawn terminal) :
    let ending := run terminal arguments w
    let ending' := run terminal arguments w'
    ending.Agrees c ending' ∧
      ((∀ o settings u, Arguments.parse arguments = .options o → (begin o).run w = .ok settings u →
        MapsApart o c (atPanel settings { u with console := some (.new .plain terminal) })) →
        ending.Matches c ending') ∧
      (ending.console = none ∧ ending'.console = none ∨
        ending.console = some .plain ∧ ∃ timed, ending'.console = some (.drawn timed)) := by
  have hw := h.beside
  by_cases hoptions : ∃ o, Arguments.parse arguments = .options o
  swap
  · obtain ⟨hmatches, hnone⟩ := matches_of_parse hw fun o ho => hoptions ⟨o, ho⟩
    exact ⟨hmatches.agrees, fun _ => hmatches, Or.inl hnone⟩
  obtain ⟨o, hparse⟩ := hoptions
  obtain ⟨loaded, loaded', hgives, hgives', hvariants⟩ := h.settings o hparse
  rw [hw.logged.working] at hgives'
  have hbegin := (endAlike_begin hw h.unlogged hgives hgives' hvariants).paired
    (((prepares_begin o).after w).sound h.sound)
  have hblank := ((prepares_begin o).after w).unheard.screen
  have hblank' := ((prepares_begin o).after w').unheard.screen
  cases hr : (begin o).run w with
  | error e u =>
    rw [hr] at hbegin
    generalize hr' : (begin o).run w' = r' at hbegin
    cases hbegin with
    | failed hv =>
      rw [run_of_error hparse hr, run_of_error hparse hr']
      exact ⟨(Ending.Matches.of_beside (by exact rfl) hv.toBeside).agrees,
        fun _ => .of_beside (by exact rfl) hv.toBeside, Or.inl ⟨rfl, rfl⟩⟩
  | ok settings u =>
    rw [hr] at hbegin hblank
    generalize hr' : (begin o).run w' = r' at hbegin hblank'
    cases hbegin with
    | @returned _ settings' _ u' hab hv =>
      have hsectioned := isSectioned_of_begin hr
      obtain ⟨timed, hchoose'⟩ :=
        run_choose_drawn (hab.isSectioned hsectioned) hab.type.2
          (hchoosable o settings' u' hparse hr') u'
      rw [run_of_choose hparse hr (run_choose_plain hsectioned hab.type.1 u)] at hdrawn ⊢
      rw [run_of_choose hparse hr' hchoose', fix_congr hab hsectioned o] at hdrawn' ⊢
      have hconsoles : World.Paired c { u with console := some (.new .plain terminal) }
          { u' with console := some (.new (.drawn timed) terminal) } :=
        ⟨hv.toBeside.withConsole _ _, hv.sound⟩
      obtain ⟨hagrees, hmatches⟩ :=
        agrees_of_begun h hparse hr hr' hconsoles ⟨rfl, rfl⟩ ⟨rfl, rfl⟩ hsectioned
          (happart o settings u hparse hr) (hdrawn.drawn hsectioned (hblank.trans h.blank))
        (hdrawn'.drawn hsectioned (hblank'.trans h.blank')) .plain (.drawn timed)
      exact ⟨hagrees, fun hall => hmatches (hall o settings u hparse hr), Or.inr ⟨rfl, timed, rfl⟩⟩

/-! ## A line of settings that reads like an error -/

/-- Whether a command without a mapping reads a content only for its settings. -/
def isApart (o : Arguments.Options) (settings : Entries) (c : Nat) (w : World) : Bool :=
  match o.modules.bind Arguments.Given.text?, extensionOf settings, buildLog settings,
    (assemble o settings).run w with
  | none, .text extension, .text log, .ok _ v =>
    decide (w.tree.contentAt log ≠ .ok c) &&
      (Plan.index ⟨extension, [], log⟩ v).references.all fun r =>
      decide (w.tree.contentAt r.path ≠ .ok c)
  | _, _, _, _ => false

theorem IsApart.of_isApart (h : isApart o settings c w = true) : IsApart o settings c w := by
  unfold isApart at h
  split at h
  swap
  · cases h
  next extension log run v hpath hextension hlog hrun =>
  rw [Bool.and_eq_true, decide_eq_true_eq, List.all_eq_true] at h
  obtain ⟨happart, hreported⟩ := h
  refine ⟨?_, ?_, ?_⟩
  · intro _
    rw [MapsApart, hpath]
    rintro _ ⟨⟩
  · intro path hpath
    cases hlog.symm.trans hpath
    exact happart
  · intro plan v' hfits hrun' r hr
    cases hextension.symm.trans hfits.extension
    cases hlog.symm.trans hfits.log
    cases hrun.symm.trans hrun'
    exact of_decide_eq_true (hreported r hr)

/-- Settings that ask for a console, beside keys that stand in one line with it like a
path before an error. -/
def lineSettings (kind : Text) : Entries :=
  [(.text "ui", .map [(.text "/tmp/ifx/", .int 1), (.text "type", .text kind),
    (.text "a.swift:1:1: error: cannot find 'Foo' in scope", .int 2)])]

/-- A text of these settings. -/
def lineText (kind : Text) : Text :=
  "\x7bui: \x7b\n/tmp/ifx/: 1, type: " ++ kind ++
    ", \"a.swift:1:1: error: cannot find 'Foo' in scope\": 2\x7d\x7d\n"

/-- A world with a settings file in which the drawn console is named, a build log, the file that the
log reports, and a file that can be opened but not decoded. -/
def lineWorld (kind : Text) : World :=
  let here : Place := ["ifx", "tmp"]
  World.new ⟨here, [(["tmp"], .directory), (here, .directory), ("config" :: here, .directory),
      ("application.yml" :: "config" :: here, .file 0), ("output.txt" :: here, .file 1),
      (["A.swift"], .file 2), (": 1, type: rich, \"a.swift" :: here, .file 3)],
    [⟨Utf8.encodeAll (lineText kind), 0o644⟩, ⟨Utf8.encodeAll Run.sampleLog, 0o644⟩,
      ⟨Utf8.encodeAll "import X\n", 0o644⟩, ⟨[0xff], 0o644⟩]⟩
    Journal.defaultThreshold [some "M", some "N"] {}

/-- Whether a text is read as settings that ask for a console. -/
def reads (kind : Text) (bytes : List UInt8) : Bool :=
  match Yaml.readBytes bytes with
  | .ok (.map
      [(.text ui,
        .map [(.text first, .int m), (.text type, .text kind'), (.text last, .int n)])]) =>
    decide (ui = "ui" ∧ first = "/tmp/ifx/" ∧ m = 1 ∧ type = "type" ∧ kind' = kind ∧
      last = "a.swift:1:1: error: cannot find 'Foo' in scope" ∧ n = 2)
  | _ => false

theorem eq_of_reads {kind : Text} {bytes : List UInt8} (h : reads kind bytes = true) :
    Yaml.readBytes bytes = .ok (.map (lineSettings kind)) := by
  unfold reads at h
  split at h
  · next hread =>
    obtain ⟨rfl, rfl, rfl, rfl, rfl, rfl, rfl⟩ := of_decide_eq_true h
    exact hread
  · cases h

theorem variants_line : Variants "tqdm" "rich" (lineSettings "tqdm") (lineSettings "rich") := by
  refine ⟨fun name hn => ?_, _, _, rfl, rfl, rfl, rfl, fun key hk => ?_⟩
  · simp [lineSettings, Entries.get?_cons, Value.text_sameKey, hn]
  · simp [Entries.get?_cons, Value.text_sameKey, hk]

theorem gives_line {kind : Text} (h : reads kind (Utf8.encodeAll (lineText kind)) = true)
    (hfile : (lineWorld kind).tree.isFile
      (fileIn (lineWorld kind).tree.working.path none) = .ok true)
    (hbytes : (lineWorld kind).tree.readBytes (fileIn (lineWorld kind).tree.working.path none) =
      .ok (Utf8.encodeAll (lineText kind))) :
    Gives (lineWorld kind).tree (fileIn (lineWorld kind).tree.working.path none) false
      (lineSettings kind) := by
  refine Or.inr ⟨hfile, .map (lineSettings kind), ?_, rfl⟩
  rw [valueAt, hbytes]
  exact eq_of_reads h

/-- The consoles are the only difference if the settings file is the usual one. -/
theorem counterparts_line (h : ∀ o, Arguments.parse arguments = .options o → o.config = none) :
    Counterparts arguments 0 "M\r\nN" (lineWorld "tqdm") (lineWorld "rich") where
  sound := by
    have hname : ∀ name ∈ (["ifx", "tmp"] : List Text), Path.IsName name := by
      simp only [List.forall_mem_cons]
      refine ⟨⟨?_, ?_, ?_, ?_, ?_⟩, ⟨?_, ?_, ?_, ?_, ?_⟩, List.forall_mem_nil _⟩ <;> decide
    refine FileTree.sound_of_fits ⟨hname _ (by decide), rfl, hname _ (by decide), rfl, trivial⟩ ?_
    decide +kernel
  old := by decide
  tree := ⟨Utf8.encodeAll (lineText "rich"), rfl⟩
  mishaps := rfl
  journal := rfl
  unlogged := rfl
  blank := rfl
  blank' := rfl
  answers := by
    rw [Kind.readAll_eq]
    decide +kernel
  answers' := ⟨true, by
    rw [Kind.readAll_eq]
    decide +kernel⟩
  settings := by
    intro o ho
    rw [settingsFile, h o ho]
    refine ⟨_, _, gives_line ?_ ?_ ?_, gives_line ?_ ?_ ?_, variants_line⟩
    all_goals decide +kernel

/-- A command has chosen a console, which has taken everything, and ended with a code. -/
def Ending.EndsOn (terminal : Terminal) (kind : Kind) (code : Nat) (ending : Ending) : Prop :=
  ending.console = some kind ∧ (Session.new kind terminal).takes ending.world.screen = true ∧
    ending.code = .ok code

instance (terminal : Terminal) (kind : Kind) (code : Nat) (ending : Ending) :
    Decidable (ending.EndsOn terminal kind code) :=
  inferInstanceAs (Decidable (_ ∧ _ ∧ _))

theorem Ending.EndsOn.isDrawn {kind : Kind} {code : Nat} {ending : Ending}
    (h : ending.EndsOn terminal kind code) :
    ending.IsDrawn terminal := by
  intro kind' hkind
  cases h.1.symm.trans hkind
  exact h.2.1

/-- A console could be chosen if there is one. -/
theorem Ending.EndsOn.isChoosable {kind : Kind} {code : Nat} {u : World}
    (h : (run terminal arguments w).EndsOn terminal kind code)
    (hparse : Arguments.parse arguments = .options o) (hbegin : (begin o).run w = .ok settings u) :
    Kind.IsChoosable settings := by
  obtain ⟨_, _, _, _, _, hchoosable⟩ | ⟨v, hv, _⟩ :=
    Kind.choose_cases (isSectioned_of_begin hbegin) u
  · exact hchoosable
  · have hconsole := h.1
    rw [run_of_unchosen hparse hbegin hv] at hconsole
    cases hconsole

/-- Whether the settings file is not read again once a command without arguments has begun. -/
def beginsApart (w : World) : Bool :=
  match (begin {}).run w with
  | .ok settings u =>
    isApart {} settings 0 (atPanel settings { u with console := some (.new .plain ⟨80, true⟩) })
  | .error _ _ => true

theorem isApart_of_beginsApart {u : World} (h : beginsApart w = true)
    (hr : (begin {}).run w = .ok settings u) :
    isApart {} settings 0
      (atPanel settings { u with console := some (.new .plain ⟨80, true⟩) }) = true := by
  unfold beginsApart at h
  rw [hr] at h
  exact h

/-- With the usual build log, which does not name the settings file, the consoles do not matter. -/
theorem run_congr_console_line :
    let ending := run ⟨80, true⟩ [] (lineWorld "tqdm")
    let ending' := run ⟨80, true⟩ [] (lineWorld "rich")
    ending.EndsOn ⟨80, true⟩ .plain successCode ∧
      ending'.EndsOn ⟨80, true⟩ (.drawn true) successCode ∧
      ending.Matches 0 ending' := by
  have hoptions : ∀ o, Arguments.parse [] = .options o → o = {} := by
    intro o ho
    cases (show Arguments.parse [] = .options {} from rfl).symm.trans ho
    rfl
  have hends : (run ⟨80, true⟩ [] (lineWorld "tqdm")).EndsOn ⟨80, true⟩ .plain successCode := by
    decide +kernel
  have hends' : (run ⟨80, true⟩ [] (lineWorld "rich")).EndsOn ⟨80, true⟩
      (.drawn true) successCode := by
    decide +kernel
  have happart : beginsApart (lineWorld "tqdm") = true := by decide +kernel
  have hcounterparts := counterparts_line fun o ho => by rw [hoptions o ho]
  refine ⟨hends, hends',
    (run_congr_console hcounterparts ?_ ?_ hends.isDrawn hends'.isDrawn).2.1 ?_⟩
  · intro o settings u ho hr
    cases hoptions o ho
    exact .of_isApart (isApart_of_beginsApart happart hr)
  · exact fun o settings u ho hr => hends'.isChoosable ho hr
  · intro o settings u ho hr path hpath
    cases hoptions o ho
    cases hpath

/-- The settings file must not be the build log, too: which file is reported there may depend on the
console that is named before it, and so may the exit code. -/
theorem not_run_congr_console :
    ¬∀ (terminal : Terminal) (arguments : List Text) (c : Nat) (text : Text) (w w' : World),
      Counterparts arguments c text w w' →
      (∀ o settings u, Arguments.parse arguments = .options o → (begin o).run w' = .ok settings u →
        Kind.IsChoosable settings) →
      (run terminal arguments w).IsDrawn terminal → (run terminal arguments w').IsDrawn terminal →
      (run terminal arguments w').code = (run terminal arguments w).code := by
  intro hall
  have hparse : Arguments.parse ["--build-file", "config/application.yml"] =
      .options { buildFile := some (.text "config/application.yml") } := by decide +kernel
  have hends : (run ⟨80, true⟩ ["--build-file", "config/application.yml"] (lineWorld "tqdm")).EndsOn
      ⟨80, true⟩ .plain successCode := by decide +kernel
  have hends' :
      (run ⟨80, true⟩ ["--build-file", "config/application.yml"] (lineWorld "rich")).EndsOn
      ⟨80, true⟩ (.drawn true) incompleteCode := by decide +kernel
  have hcounterparts := counterparts_line fun o ho => by
    cases hparse.symm.trans ho
    rfl
  have hcode := hall _ _ _ _ _ _ hcounterparts (fun o settings u ho hr => hends'.isChoosable ho hr)
    hends.isDrawn hends'.isDrawn
  rw [hends.2.2, hends'.2.2] at hcode
  cases hcode

end Command

end ImportRepair
