import ImportRepair.Command.Basic
import ImportRepair.Proofs.Settings.Merging
import ImportRepair.Proofs.Settings.Reading

/-!
# What becomes of loading settings

Loading settings ends in one of three ways: with settings, with the exit code 1, or with
a failure that nobody handles. Which one it is can be told from the settings file and
from the options. Settings that were loaded have a mapping for every section, and a log
file is given by its real path.

Results:
* `Settings.run_resolvePath`: a path in a section is replaced, or it has no real path.
* `Settings.verdict_load`: the three ways of the settings of a file over the defaults.
* `Command.verdict_settings`: the three ways of all settings.
* `Command.isSectioned_of_settings`: settings that were loaded have their sections.
-/

namespace ImportRepair

/-- A failure to find a path: the system or the spelling is in the way, or links run in a circle. -/
def Failure.IsOfPath : Failure → Prop
  | .file _ => True
  | .linkCircle _ => True
  | _ => False

namespace Settings

variable {tree : FileTree} {path root : Text} {asked : Bool}
  {settings settings' : Entries} {w v : World}

/-! ## Sections -/

theorem run_checkSections (path : Text) (settings : Entries) (names : List Text) (w : World) :
    (checkSections path settings names).run w = .ok () w ∧
        (∀ name ∈ names, ∃ entries, settings.get? name = some (.map entries)) ∨
      (∃ u, (checkSections path settings names).run w = .error (.exit 1) u) ∧
        ¬∀ name ∈ names, ∃ entries, settings.get? name = some (.map entries) := by
  induction names with
  | nil => exact Or.inl ⟨rfl, by simp⟩
  | cons name names ih =>
    rw [checkSections]
    simp only [List.forall_mem_cons]
    split
    · next entries he =>
      obtain ⟨hrun, hnames⟩ | ⟨hrun, hnames⟩ := ih
      · exact Or.inl ⟨hrun, ⟨entries, he⟩, hnames⟩
      · exact Or.inr ⟨hrun, fun h => hnames h.2⟩
    · next hother =>
      refine Or.inr ⟨⟨_, rfl⟩, fun h => ?_⟩
      obtain ⟨entries, he⟩ := h.1
      exact hother entries he

/-! ## Paths -/

/-- A value that stands for a path, or for none: a text has to have a real path. -/
def StandsForPath (tree : FileTree) (root : Text) (v : Value) : Prop :=
  v.isTruthy = true → ∃ path real, v = .text path ∧ realPathFrom tree root path = .ok real

/-- A path is not found because of the system, its spelling, or a circle of links. -/
theorem isOfPath_of_realPathFrom {e : Failure} (h : realPathFrom tree root path = .error e) :
    e.IsOfPath := by
  rw [realPathFrom] at h
  split at h
  · cases h
    trivial
  · split at h
    · cases h
      trivial
    · split at h <;> cases h
      trivial

theorem of_resolveValue_eq_ok {v : Value} {path? : Option Text}
    (h : resolveValue tree root v = .ok path?) :
    StandsForPath tree root v ∧ (v.isTruthy = false ∧ path? = none ∨
      ∃ path real, v = .text path ∧ realPathFrom tree root path = .ok real ∧
        path? = some real) := by
  unfold resolveValue at h
  cases ht : v.isTruthy with
  | false =>
    rw [ht] at h
    cases h
    exact ⟨by simp [StandsForPath, ht], Or.inl ⟨rfl, rfl⟩⟩
  | true =>
    rw [ht] at h
    cases v with
    | text path =>
      cases hreal : realPathFrom tree root path with
      | ok real =>
        simp only [hreal] at h
        cases h
        exact ⟨fun _ => ⟨path, real, rfl, hreal⟩, Or.inr ⟨path, real, rfl, hreal, rfl⟩⟩
      | error e =>
        simp only [hreal] at h
        cases h
    | _ => cases h

/-- The settings with the path that a value at a key of a section was found to stand for. -/
def withPath (settings : Entries) (name key : Text) : Option Text → Entries
  | none => settings.set name (.map (sectionOf settings name))
  | some path => set settings name key (.text path)

theorem IsSectioned.withPath (h : IsSectioned settings) (name key : Text) (path? : Option Text) :
    IsSectioned (withPath settings name key path?) := by
  cases path? with
  | none => exact h.putMap name _
  | some path => exact h.set name key _

theorem get?_withPath (settings : Entries) (name name' key key' : Text) (path? : Option Text) :
    get? (withPath settings name key path?) name' key' =
      if name = name' ∧ key = key' then (path?.map .text).or (get? settings name' key')
      else get? settings name' key' := by
  cases path? with
  | none =>
    have hsection : sectionOf (settings.set name (.map (sectionOf settings name))) name' =
        sectionOf settings name' := by
      rw [sectionOf_putMap]
      split
      · next h => rw [h]
      · rfl
    rw [withPath, get?, hsection]
    simp [get?]
  | some path => rw [withPath, get?_set, Option.map_some, Option.some_or]

/-- A path that is put into settings takes no value away. -/
theorem isSome_withPath {name' key' : Text} (name key : Text) (path? : Option Text)
    (h : (get? settings name' key').isSome = true) :
    (get? (withPath settings name key path?) name' key').isSome = true := by
  rw [get?_withPath]
  split <;> simp [Option.isSome_or, h]

/-- Replacing the path of a section is looking for it and putting it there. -/
theorem run_resolvePath (h : IsSectioned settings) {name : Text} (hn : name ∈ sections)
    (key root : Text) (w : World) :
    match resolveValue w.tree root ((get? settings name key).getD .null) with
    | .error e => (resolvePath root [name, key] settings).run w = .error e w
    | .ok path? => ∃ v, (resolvePath root [name, key] settings).run w =
        .ok (withPath settings name key path?) v ∧ World.Kept w v := by
  obtain ⟨entries, he⟩ := h name hn
  have hrun : (resolvePath root [name, key] settings).run w =
      ((resolveAt root [name, key] [key] entries) >>= fun inner =>
        pure (settings.set name (.map inner))).run w := by
    conv_lhs => unfold resolvePath resolveAt
    simp only [he]
  rw [hrun, get?, sectionOf_eq he, resolveAt, EStateM.run_bind, EStateM.run_bind, EStateM.run_get]
  simp only
  cases resolveValue w.tree root ((Entries.get? entries key).getD .null) with
  | error e => rfl
  | ok path? =>
    cases path? with
    | none =>
      simp only [withPath, sectionOf_eq he]
      exact ⟨w, rfl, .refl w⟩
    | some path =>
      simp only [withPath, set, sectionOf_eq he]
      exact ⟨_, rfl, World.kept_note ..⟩

theorem IsSectioned.of_resolvePath (h : IsSectioned settings) {name key : Text}
    (hn : name ∈ sections)
    (hrun : (resolvePath root [name, key] settings).run w = .ok settings' v) :
    IsSectioned settings' := by
  have hresolve := run_resolvePath h hn key root w
  split at hresolve
  · rw [hresolve] at hrun
    cases hrun
  · obtain ⟨u, hu, _⟩ := hresolve
    rw [hu] at hrun
    cases hrun
    exact h.withPath name key _

/-! ## Settings -/

/-- A log file that was found: if there is to be one, it is given by a real path. -/
def HasLogPath (settings : Entries) : Prop :=
  ((get? settings "logging" "log_file").getD .null).isTruthy = true →
    ∃ tree root path real, realPathFrom tree root path = .ok real ∧
      get? settings "logging" "log_file" = some (.text real)

/-- The entries of a file have each key once, and so have those of the mappings in it. -/
theorem isKeyed_of_gives {tree : FileTree} {path : Text} {asked : Bool}
    (h : Gives tree path asked loaded) :
    (Value.map loaded).IsKeyed 2 := by
  have hempty : (Value.map []).IsKeyed 2 := ⟨.nil, nofun⟩
  obtain ⟨_, _, rfl⟩ | ⟨_, v, hv, he⟩ := h
  · exact hempty
  · rw [← he]
    split
    · rw [valueAt] at hv
      split at hv
      · cases hv
      · exact Yaml.isKeyed_of_readBytes hv
    · exact hempty

/-- Settings that a file gives, with a mapping for every section. -/
def Usable (tree : FileTree) (path : Text) (asked : Bool) (merged : Entries) : Prop :=
  IsSectioned merged ∧ ∃ loaded, Gives tree path asked loaded ∧ merged = merge defaults loaded

theorem Usable.unique {merged merged' : Entries} (h : Usable tree path asked merged)
    (h' : Usable tree path asked merged') : merged' = merged := by
  obtain ⟨_, loaded, hgives, rfl⟩ := h
  obtain ⟨_, loaded', hgives', rfl⟩ := h'
  rw [hgives.unique hgives']

/-- Finding the paths of settings. -/
def findPaths (root path : Text) (loaded merged : Entries) : Job Entries := do
  let settings ← resolvePath root ["build_log", "default_path"] merged
  let settings ← resolvePath root ["logging", "log_file"] settings
  note .debug .settings ("Configuration resolved from " ++
    if loaded.isEmpty then ("defaults" : Text) else path)
  return settings

/-- The settings with a value put at a key of a section if there is one. -/
def putOption (name key : Text) (v? : Option Value) (settings : Entries) : Entries :=
  match v? with
  | some v => set settings name key v
  | none => settings

theorem get?_putOption (name key name' key' : Text) (v? : Option Value) (settings : Entries) :
    get? (putOption name key v? settings) name' key' =
      if name = name' ∧ key = key' then v?.or (get? settings name' key') else
          get? settings name' key' := by
  cases v? with
  | none => simp [putOption]
  | some v => rw [putOption, get?_set, Option.some_or]

theorem IsSectioned.putOption (h : IsSectioned settings) (name key : Text) (v? : Option Value) :
    IsSectioned (putOption name key v? settings) := by
  cases v? with
  | none => exact h
  | some v => exact h.set name key v

/-- The settings with the options of the command line over them, once the build log is known. -/
def withOptions (o : Arguments.Options) (buildFile : Value) (settings : Entries) : Entries :=
  putOption "logging" "level" (levelOf o)
    (putOption "patching" "dry_run" (if o.dryRun then some (.bool true) else none)
      (putOption "build_log" "file_extension" (extensionOf o)
        (putOption "build_log" "build_file" (some buildFile) settings)))

theorem IsSectioned.withOptions (h : IsSectioned settings) (o : Arguments.Options)
    (buildFile : Value) :
    IsSectioned (withOptions o buildFile settings) :=
  (((h.putOption _ _ (some buildFile)).putOption _ _ _).putOption _ _ _).putOption _ _ _

theorem logFile_withOptions (o : Arguments.Options) (buildFile : Value) (settings : Entries) :
    get? (withOptions o buildFile settings) "logging" "log_file" =
      get? settings "logging" "log_file" := by
  simp +decide only [withOptions, get?_putOption, if_false]

/-- A value is put at a key of a section that is a mapping. -/
theorem run_putItem (h : IsSectioned settings) {name : Text} (hn : name ∈ sections) (key : Text)
    (v? : Option Value) (w : World) :
    (putItem settings name key v?).run w = .ok (putOption name key v? settings) w := by
  cases v? with
  | none => rfl
  | some v =>
    obtain ⟨entries, he⟩ := h name hn
    rw [putItem, setItem_eq he]
    rfl

/-- Where a value could be put at a key of a section, it was put there. -/
theorem of_putItem {name key : Text} {v? : Option Value}
    (h : (putItem settings name key v?).run w = .ok settings' v) :
    settings' = putOption name key v? settings := by
  cases v? with
  | none =>
    cases h
    rfl
  | some value =>
    rw [putItem] at h
    cases hset : setItem settings name key value with
    | error e =>
      rw [hset] at h
      cases h
    | ok entries =>
      rw [hset] at h
      cases h
      exact eq_of_setItem hset

/-- The build log that is asked for can be found. -/
def FindsBuildLog (tree : FileTree) (root : Text) (o : Arguments.Options) : Prop :=
  ∀ path ∈ o.buildFile.bind Arguments.Given.text?, ∃ real, realPathFrom tree root path = .ok real

/-- The build log is found, or the one that is asked for has no real path. Settings that name one
have to be asked for it only where they do. -/
theorem run_findBuildLog (h : (get? settings "build_log" "default_path").isSome = true)
    (root : Text) (o : Arguments.Options) (w : World) :
    (∃ buildFile, (findBuildLog root o settings).run w = .ok buildFile w ∧
      FindsBuildLog w.tree root o) ∨
      ∃ e, (findBuildLog root o settings).run w = .error e w ∧ e.IsOfPath ∧
        ¬FindsBuildLog w.tree root o := by
  unfold FindsBuildLog
  rw [findBuildLog]
  cases o.buildFile.bind Arguments.Given.text? with
  | none =>
    obtain ⟨path, hpath⟩ := Option.isSome_iff_exists.1 h
    refine Or.inl ⟨path, ?_, by simp⟩
    rw [item_eq_ok_iff.2 hpath]
    rfl
  | some path =>
    cases hreal : realPathFrom w.tree root path with
    | ok real =>
      refine Or.inl ⟨.text real, ?_, ?_⟩
      · simp only [EStateM.run_bind, EStateM.run_get, hreal]
        rfl
      · rintro _ ⟨⟩
        exact ⟨real, hreal⟩
    | error e =>
      refine Or.inr ⟨e, ?_, isOfPath_of_realPathFrom hreal, ?_⟩
      · simp only [EStateM.run_bind, EStateM.run_get, hreal]
        rfl
      · intro h
        obtain ⟨real, hreal'⟩ := h path rfl
        rw [hreal] at hreal'
        cases hreal'

/-- Options are put over settings that have their sections and a build log, unless the build log
that they ask for cannot be found. -/
theorem run_override (h : IsSectioned settings)
    (hpath : (get? settings "build_log" "default_path").isSome = true) (root : Text)
    (o : Arguments.Options) (w : World) :
    (∃ buildFile, (override root o settings).run w = .ok (withOptions o buildFile settings) w ∧
        FindsBuildLog w.tree root o) ∨
      ∃ e, (override root o settings).run w = .error e w ∧ e.IsOfPath ∧
        ¬FindsBuildLog w.tree root o := by
  rw [override]
  obtain ⟨buildFile, hrun, hfinds⟩ | ⟨e, hrun, he, hfinds⟩ := run_findBuildLog hpath root o w
  · refine Or.inl ⟨buildFile, ?_, hfinds⟩
    have hbuild := h.putOption "build_log" "build_file" (some buildFile)
    have hextension := hbuild.putOption "build_log" "file_extension" (extensionOf o)
    have htrial :=
      hextension.putOption "patching" "dry_run" (if o.dryRun then some (.bool true) else none)
    rw [run_bind_of_ok hrun, run_bind_of_ok (run_putItem h (by decide) _ _ w),
      run_bind_of_ok (run_putItem hbuild (by decide) _ _ w),
      run_bind_of_ok (run_putItem hextension (by decide) _ _ w)]
    exact run_putItem htrial (by decide) _ _ w
  · exact Or.inr ⟨e, run_bind_of_error hrun, he, hfinds⟩

/-- Options that could be put over settings: the build log is known, and no record is made. -/
theorem of_override {o : Arguments.Options}
    (h : (override root o settings).run w = .ok settings' v) :
    ∃ buildFile, settings' = withOptions o buildFile settings ∧
      match o.buildFile.bind Arguments.Given.text? with
      | some path => ∃ real, realPathFrom w.tree root path = .ok real ∧ buildFile = .text real
      | none => get? settings "build_log" "default_path" = some buildFile := by
  obtain ⟨buildFile, _, hfind, hrun⟩ := run_bind_eq_ok.1 h
  obtain ⟨first, _, hbuild, hrun⟩ := run_bind_eq_ok.1 hrun
  obtain ⟨second, _, hextension, hrun⟩ := run_bind_eq_ok.1 hrun
  obtain ⟨third, _, htrial, hlevel⟩ := run_bind_eq_ok.1 hrun
  refine ⟨buildFile, ?_, ?_⟩
  · rw [of_putItem hlevel, of_putItem htrial, of_putItem hextension, of_putItem hbuild]
    rfl
  · rw [findBuildLog] at hfind
    cases hgiven : o.buildFile.bind Arguments.Given.text? with
    | none =>
      rw [hgiven] at hfind
      cases hitem : item settings "build_log" "default_path" with
      | error e =>
        simp only [hitem] at hfind
        cases hfind
      | ok path =>
        simp only [hitem] at hfind
        cases hfind
        exact item_eq_ok_iff.1 hitem
    | some path =>
      rw [hgiven] at hfind
      simp only [EStateM.run_bind, EStateM.run_get] at hfind
      cases hreal : realPathFrom w.tree root path with
      | error e =>
        rw [hreal] at hfind
        cases hfind
      | ok real =>
        rw [hreal] at hfind
        cases hfind
        exact ⟨real, hreal, rfl⟩

end Settings

namespace Command

open Settings

/-- Settings that were loaded have a mapping for every section. -/
theorem isSectioned_of_settings {o : Arguments.Options} {config : Entries} {w v : World}
    (h : (Command.settings o).run w = .ok config v) : IsSectioned config := by
  obtain ⟨_, _, hroot, h⟩ := run_bind_eq_ok.1 h
  cases hroot
  obtain ⟨loaded, u, hload, h⟩ := run_bind_eq_ok.1 h
  have hloaded : IsSectioned loaded := by
    obtain ⟨_, _, _, hload⟩ := run_bind_eq_ok.1 hload
    obtain ⟨entries, x, _, hload⟩ := run_bind_eq_ok.1 hload
    obtain ⟨_, y, hsections, hload⟩ := run_bind_eq_ok.1 hload
    obtain ⟨first, _, hfirst, hload⟩ := run_bind_eq_ok.1 hload
    obtain ⟨second, _, hsecond, hload⟩ := run_bind_eq_ok.1 hload
    cases hload
    obtain ⟨_, hsectioned⟩ | ⟨⟨_, hrefused⟩, _⟩ := run_checkSections
      (fileIn w.tree.working.path (settingsFile o)) (merge defaults entries) sections x
    · have hfirst := IsSectioned.of_resolvePath hsectioned (by decide) hfirst
      exact hfirst.of_resolvePath (by decide) hsecond
    · rw [hrefused] at hsections
      cases hsections
  obtain ⟨buildFile, rfl, _⟩ := of_override h
  exact hloaded.withOptions o buildFile

end Command

end ImportRepair
