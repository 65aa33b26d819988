import ImportRepair.Proofs.Settings.Variants
import ImportRepair.Proofs.Value.Ways

/-!
# Which settings are in effect

Options of the command line win over the settings file, and the file wins over the defaults. The
build log is the one that is asked for, or else that of the settings, and the paths in the settings
are taken from the root. Along every way of keys that has to do with none of this, the settings are
those of the file over the defaults.

Results:
* `Settings.along?_withPaths`, `Settings.along?_withOptions`: the ways that paths
  and options leave alone.
* `Settings.inEffect_of_load`: the settings that are in effect once a file was loaded and
  options were put over it.
-/

namespace ImportRepair

namespace Settings

open Value

variable {settings loaded used config : Entries} {root name key : Text}
  {tree : FileTree} {v w : World} {o : Arguments.Options} {way : List Value}

/-! ## What is in effect -/

/-- The settings that options are put at, by their section and key. -/
def optionWays : List (Text × Text) :=
  [("build_log", "build_file"), ("build_log", "file_extension"), ("patching", "dry_run"),
    ("logging", "level")]

/-- Whether a way of keys has to do with neither paths nor options. -/
def IsApart (way : List Value) : Prop :=
  ∀ place ∈ pathWays ++ optionWays, Apart [.text place.1, .text place.2] way

/-- What the file says at a key of a section, or else the default. -/
def configured (loaded : Entries) (name key : Text) : Value :=
  ((get? loaded name key).or (get? defaults name key)).getD .null

/-- What becomes of a value that stands for a path: it gives way to a real path, unless
it counts as not set. -/
def Resolves (tree : FileTree) (root : Text) (value value' : Value) : Prop :=
  if value.isTruthy then
    ∃ path real, value = .text path ∧ realPathFrom tree root path = .ok real ∧ value' = .text real
  else value' = value

/-- The settings that are in effect, for the entries of a file and the options of a command line. -/
structure InEffect (tree : FileTree) (root : Text) (o : Arguments.Options)
    (loaded used : Entries) : Prop where
  /-- Every section is a mapping. -/
  sectioned : IsSectioned used
  /-- The path of the build log in the settings is found. -/
  defaultPath : ∃ value, Resolves tree root (configured loaded "build_log" "default_path") value ∧
    get? used "build_log" "default_path" = some value
  /-- The log file is found. -/
  logFile : ∃ value, Resolves tree root (configured loaded "logging" "log_file") value ∧
    get? used "logging" "log_file" = some value
  /-- The build log is the one that is asked for, or else that of the settings. -/
  buildFile : match o.buildFile.bind Arguments.Given.text? with
    | some path => ∃ real, realPathFrom tree root path = .ok real ∧
        get? used "build_log" "build_file" = some (.text real)
    | none => get? used "build_log" "build_file" = get? used "build_log" "default_path"
  extension : get? used "build_log" "file_extension" =
    some ((extensionOf o).getD (configured loaded "build_log" "file_extension"))
  dryRun : get? used "patching" "dry_run" =
    some (if o.dryRun then .bool true else configured loaded "patching" "dry_run")
  level : get? used "logging" "level" =
    some ((levelOf o).getD (configured loaded "logging" "level"))
  /-- Everything else is that of the file over the defaults. -/
  rest : ∀ way, IsApart way → (map used).along? way = (map (merge defaults loaded)).along? way

/-! ## Paths -/

/-- A section that is put back changes nothing. -/
theorem withPath_none (h : IsSectioned settings) (hn : name ∈ sections) (key : Text) :
    withPath settings name key none = settings := by
  obtain ⟨entries, he⟩ := h name hn
  rw [withPath, sectionOf_eq he]
  exact Entries.put_of_find? he

theorem along?_withPath (h : IsSectioned settings) (hn : name ∈ sections) (path? : Option Text)
    (hway : Apart [.text name, .text key] way) :
    (map (withPath settings name key path?)).along? way = (map settings).along? way := by
  cases path? with
  | none => rw [withPath_none h hn]
  | some path =>
    obtain ⟨entries, he⟩ := h name hn
    exact along?_set he (.text path) hway

theorem along?_withPaths (h : IsSectioned (merge defaults loaded)) (log? file? : Option Text)
    (hway : IsApart way) :
    (map (withPaths loaded log? file?)).along? way = (map (merge defaults loaded)).along? way := by
  rw [withPaths,
    along?_withPath (h.withPath _ _ log?) (by decide) file?
      (hway ("logging", "log_file") (by decide)),
    along?_withPath h (by decide) log? (hway ("build_log", "default_path") (by decide))]

/-- What is found for a value is what becomes of it. -/
theorem resolves_of_resolveValue {value : Value} {path? : Option Text}
    (h : resolveValue tree root value = .ok path?) :
    Resolves tree root value ((path?.map .text).getD value) := by
  unfold Resolves
  obtain ⟨hunset, rfl⟩ | ⟨path, real, rfl, hne, hreal, rfl⟩ := resolveValue_eq_ok_iff.1 h
  · rw [hunset]
    rfl
  · rw [if_pos (by simpa [isTruthy] using hne)]
    exact ⟨path, real, rfl, hreal, rfl⟩

/-! ## Options -/

theorem along?_putOption (h : IsSectioned settings) (hn : name ∈ sections) (v? : Option Value)
    (hway : Apart [.text name, .text key] way) :
    (map (putOption name key v? settings)).along? way = (map settings).along? way := by
  cases v? with
  | none => rfl
  | some v =>
    obtain ⟨entries, he⟩ := h name hn
    exact along?_set he v hway

/-- Options leave alone what parts from them. -/
theorem along?_withOptions (h : IsSectioned settings) (o : Arguments.Options) (buildFile : Value)
    (hway : IsApart way) :
    (map (withOptions o buildFile settings)).along? way = (map settings).along? way := by
  have hbuild := h.putOption "build_log" "build_file" (some buildFile)
  have hextension := hbuild.putOption "build_log" "file_extension" (extensionOf o)
  have htrial :=
    hextension.putOption "patching" "dry_run" (if o.dryRun then some (.bool true) else none)
  rw [withOptions, along?_putOption htrial (by decide) _ (hway ("logging", "level") (by decide)),
    along?_putOption hextension (by decide) _ (hway ("patching", "dry_run") (by decide)),
    along?_putOption hbuild (by decide) _ (hway ("build_log", "file_extension") (by decide)),
    along?_putOption h (by decide) _ (hway ("build_log", "build_file") (by decide))]

/-! ## All together -/

/-- A key with a default has the value that the file says, or else the default. -/
theorem get?_merge_eq_configured (hkeyed : (Value.map loaded).IsKeyed 2)
    (h : IsSectioned (merge defaults loaded)) (hn : name ∈ sections)
    (hdefault : (get? defaults name key).isSome = true) :
    get? (merge defaults loaded) name key = some (configured loaded name key) := by
  obtain ⟨value, hvalue⟩ := Option.isSome_iff_exists.1 hdefault
  rw [get?_merge hkeyed.1 h (distinct_sectionOf hkeyed name) hn, configured, hvalue]
  cases get? loaded name key <;> rfl

/-- Loaded settings with options over them are in effect. -/
theorem inEffect_withOptions (hkeyed : (Value.map loaded).IsKeyed 2)
    (h : IsSectioned (merge defaults loaded)) {log? file? : Option Text}
    (hpaths : FoundPaths tree root loaded log? file?) (o : Arguments.Options) {buildFile : Value}
    (hbuild : match o.buildFile.bind Arguments.Given.text? with
      | some path => ∃ real, realPathFrom tree root path = .ok real ∧ buildFile = .text real
      | none => get? (withPaths loaded log? file?) "build_log" "default_path" = some buildFile) :
    InEffect tree root o loaded (withOptions o buildFile (withPaths loaded log? file?)) := by
  have hsectioned : IsSectioned (withPaths loaded log? file?) :=
    (h.withPath _ _ log?).withPath _ _ file?
  have hmerged :=
    fun {name key} (hn : name ∈ sections) (hdefault : (get? defaults name key).isSome = true) =>
    get?_merge_eq_configured hkeyed h hn hdefault
  -- a path that was found, or the value that was not set
  have hput : ∀ (v? : Option Value) (v : Value), v?.or (some v) = some (v?.getD v) := by
    intro v? v
    cases v? <;> rfl
  have hlog := resolves_of_resolveValue hpaths.buildLog
  have hfile := resolves_of_resolveValue hpaths.logFile
  rw [hmerged (by decide) (by decide), Option.getD_some] at hlog hfile
  have hpath : get? (withPaths loaded log? file?) "build_log" "default_path" =
      some ((log?.map .text).getD (configured loaded "build_log" "default_path")) := by
    rw [withPaths, get?_withPath, if_neg (by decide), get?_withPath, if_pos (by decide),
      hmerged (by decide) (by decide), hput]
  have hother : ∀ {name key : Text}, name ∈ sections → (get? defaults name key).isSome = true →
      (name, key) ∉ pathWays →
      get? (withPaths loaded log? file?) name key = some (configured loaded name key) := by
    intro name key hn hdefault hway
    rw [withPaths, get?_withPath, if_neg, get?_withPath, if_neg, hmerged hn hdefault]
    · rintro ⟨rfl, rfl⟩
      exact hway (by decide)
    · rintro ⟨rfl, rfl⟩
      exact hway (by decide)
  constructor
  case sectioned => exact hsectioned.withOptions o buildFile
  case rest =>
    intro way hway
    rw [along?_withOptions hsectioned o buildFile hway, along?_withPaths h log? file? hway]
  all_goals simp +decide only [withOptions, get?_putOption, if_true, if_false]
  case defaultPath => exact ⟨_, hlog, hpath⟩
  case logFile =>
    refine ⟨_, hfile, ?_⟩
    rw [withPaths, get?_withPath, if_pos (by decide), get?_withPath, if_neg (by decide),
      hmerged (by decide) (by decide), hput]
  case buildFile =>
    rw [hpath] at hbuild ⊢
    revert hbuild
    cases o.buildFile.bind Arguments.Given.text? with
    | none => exact Eq.symm
    | some path =>
      rintro ⟨real, hreal, rfl⟩
      exact ⟨real, hreal, rfl⟩
  case extension => rw [hother (by decide) (by decide) (by decide), hput]
  case dryRun =>
    rw [hother (by decide) (by decide) (by decide)]
    cases o.dryRun <;> rfl
  case level => rw [hother (by decide) (by decide) (by decide), hput]

/-- Settings that were loaded from a file, with the options of a command line over them, are
in effect: the options win over the file, the file wins over the defaults, and everything
else is as it was merged. -/
theorem inEffect_of_load {file : Option Text}
    (h : (load root file >>= override root o).run w = .ok used v) :
    ∃ (u : World) (loaded : Entries), World.Kept w u ∧
      Gives u.tree (fileIn root file) file.isSome loaded ∧
      InEffect w.tree root o loaded used := by
  obtain ⟨config, x, hload, hoverride⟩ := run_bind_eq_ok.1 h
  obtain ⟨u, loaded, log?, file?, hu, hgives, hsectioned, hpaths, rfl, hx⟩ := of_load hload
  obtain ⟨buildFile, rfl, hbuild⟩ := of_override hoverride
  simp only [hx.tree.realPathFrom] at hbuild
  exact ⟨u, loaded, hu, hgives,
    inEffect_withOptions (isKeyed_of_gives hgives) hsectioned hpaths o hbuild⟩

/-- Options over a file that sets a path and a console. -/
theorem inEffect_of_load_nested :
    let o : Arguments.Options := { extension := some (.text ".kt"), dryRun := true }
    ∃ (used : Entries) (v u : World) (loaded : Entries),
      (load "/" (some "application.yml") >>= override "/" o).run nestedWorld = .ok used v ∧
      Gives u.tree (fileIn "/" (some "application.yml")) true loaded ∧
      InEffect nestedWorld.tree "/" o loaded used ∧
      get? used "build_log" "file_extension" = some (.text "kt") := by
  intro o
  have hreturns :
      returns ((load "/" (some "application.yml") >>= override "/" o).run nestedWorld) = true := by
    decide +kernel
  obtain ⟨used, v, hrun⟩ := exists_of_returns hreturns
  obtain ⟨u, loaded, -, hgives, heffect⟩ := inEffect_of_load hrun
  exact ⟨used, v, u, loaded, hrun, hgives, heffect, heffect.extension⟩

/-- The path of the build log is not kept as it is merged, although no option is put at its
key: it is found, too. -/
theorem not_rest_of_defaultPath :
    let w := World.new ⟨[], [], []⟩ Journal.defaultThreshold [] {}
    let way : List Value := [.text "build_log", .text "default_path"]
    Gives w.tree (fileIn "/" none) false [] ∧
      ∃ used v, (load "/" none >>= override "/" {}).run w = .ok used v ∧
        (map used).along? way = some (.text "/output.txt") ∧
        (map (merge defaults [])).along? way = some (.text "output.txt") := by
  intro w way
  have hreturns : returns (((load "/" none >>= override "/" {}) >>= fun used =>
      if ((map used).along? way).bind text? = some "/output.txt" then pure used else
          throw .emptyWay).run w) = true := by
    decide +kernel
  obtain ⟨_, _, hchecked⟩ := exists_of_returns hreturns
  obtain ⟨used, v, hrun, hchecked⟩ := run_bind_eq_ok.1 hchecked
  split at hchecked
  · next hpath =>
    obtain ⟨value, hvalue, htext⟩ := Option.bind_eq_some_iff.1 hpath
    refine ⟨.inl ⟨by decide +kernel, rfl, rfl⟩, used, v, hrun, ?_, rfl⟩
    rw [hvalue]
    cases value <;> cases htext
    rfl
  · cases hchecked

end Settings

end ImportRepair
