import ImportRepair.Proofs.Files.Bytes
import ImportRepair.Proofs.Settings.Directories
import ImportRepair.Proofs.Settings.Merging

/-!
# Settings that were loaded are safe to use

Whatever a settings file holds, settings that were loaded from it have every section with every key
of the defaults, their paths are found or not set, and everything else in the file is kept. So
nothing that a command does with them can fail because something is missing or of the wrong kind.

Results:
* `Settings.of_load`: loaded settings are those of the file over the defaults, with their paths
  found.
* `Settings.IsSafe`: what is promised of loaded settings.
* `Settings.isSafe_withPaths`: the settings of a file over the defaults keep the promise.
* `Settings.load_safe`: loaded settings are safe, also with options over them.
-/

namespace ImportRepair

/-- What a path stands for does not depend on what files hold. -/
theorem FileTree.Logged.realPathFrom {sinks : List Nat} {a b : FileTree} (h : Logged sinks a b)
    (root path : Text) : Settings.realPathFrom b root path = Settings.realPathFrom a root path := by
  simp only [Settings.realPathFrom, h.realPath, h.isCircle]

theorem FileTree.Logged.resolveValue {sinks : List Nat} {a b : FileTree} (h : Logged sinks a b)
    (root : Text) (v : Value) :
    Settings.resolveValue b root v = Settings.resolveValue a root v := by
  unfold Settings.resolveValue
  simp only [h.realPathFrom]

namespace Settings

variable {settings settings' config loaded : Entries} {root name key : Text} {v w : World}

/-! ## Paths -/

/-- The settings that are paths, by their section and key. -/
def pathWays : List (Text × Text) := [("build_log", "default_path"), ("logging", "log_file")]

/-- A path that counts as not set, or is absolute. -/
def IsSettled (value : Value) : Prop :=
  value.isTruthy = true → ∃ path, value = .text path ∧ Path.isAbsolute path = true

/-- A real path that was found. -/
def IsFound (path : Text) : Prop := ∃ tree root given, realPathFrom tree root given = .ok path

/-- What was found for a value: nothing if it counts as not set, or else a real path. -/
structure Settles (value : Value) (path? : Option Text) : Prop where
  unset : path? = none → value.isTruthy = false
  found : ∀ path ∈ path?, IsFound path

/-- Replacing a path puts there what was found for it. -/
theorem of_resolvePath (h : IsSectioned settings) (hn : name ∈ sections)
    (hrun : (resolvePath root [name, key] settings).run w = .ok settings' v) :
    ∃ path?, settings' = withPath settings name key path? ∧
      resolveValue w.tree root ((get? settings name key).getD .null) = .ok path? ∧
      World.Kept w v := by
  have hresolve := run_resolvePath h hn key root w
  cases hpath : resolveValue w.tree root ((get? settings name key).getD .null) with
  | error e =>
    rw [hpath] at hresolve
    rw [hresolve] at hrun
    cases hrun
  | ok path? =>
    rw [hpath] at hresolve
    obtain ⟨u, hu, hkept⟩ := hresolve
    rw [hu] at hrun
    cases hrun
    exact ⟨path?, rfl, rfl, hkept⟩

/-- What is found for a value: nothing if it counts as not set, or else the real path of a text. -/
theorem resolveValue_eq_ok_iff {tree : FileTree} {value : Value} {path? : Option Text} :
    resolveValue tree root value = .ok path? ↔
    value.isTruthy = false ∧ path? = none ∨
      ∃ path real, value = .text path ∧ path ≠ [] ∧ realPathFrom tree root path = .ok real ∧
        path? = some real := by
  cases htruthy : value.isTruthy with
  | false =>
    have hnone : resolveValue tree root value = .ok none := by
      unfold resolveValue
      rw [htruthy]
      rfl
    rw [hnone]
    constructor
    · rintro ⟨⟩
      exact .inl ⟨rfl, rfl⟩
    · rintro (⟨-, rfl⟩ | ⟨path, real, rfl, hne, -⟩)
      · rfl
      · exact absurd htruthy (by simpa [Value.isTruthy] using hne)
  | true =>
    constructor
    · intro h
      obtain ⟨-, ⟨hunset, -⟩ | ⟨path, real, rfl, hreal, rfl⟩⟩ := of_resolveValue_eq_ok h
      · rw [htruthy] at hunset
        cases hunset
      · exact .inr ⟨path, real, rfl, by simpa [Value.isTruthy] using htruthy, hreal, rfl⟩
    · rintro (⟨hunset, -⟩ | ⟨path, real, rfl, -, hreal, rfl⟩)
      · cases hunset
      · unfold resolveValue
        rw [htruthy]
        simp only [Bool.not_true, Bool.false_eq_true, if_false, hreal]
        rfl

theorem settles_of_resolveValue {tree : FileTree} {value : Value} {path? : Option Text}
    (h : resolveValue tree root value = .ok path?) : Settles value path? := by
  obtain ⟨hunset, rfl⟩ | ⟨path, real, _, _, hreal, rfl⟩ := resolveValue_eq_ok_iff.1 h
  · exact ⟨fun _ => hunset, by simp⟩
  · refine ⟨nofun, ?_⟩
    rintro _ ⟨⟩
    exact ⟨tree, root, path, hreal⟩

/-- A path that was found for a value stands in its place. -/
theorem Settles.of_isTruthy {path? : Option Text}
    (h : Settles ((get? settings name key).getD .null) path?)
    (htruthy : ((get? (withPath settings name key path?) name key).getD .null).isTruthy = true) :
    ∃ path, get? (withPath settings name key path?) name key = some (.text path) ∧
      IsFound path := by
  rw [get?_withPath, if_pos ⟨rfl, rfl⟩] at htruthy ⊢
  cases path? with
  | none =>
    rw [Option.map_none, Option.none_or, h.unset rfl] at htruthy
    cases htruthy
  | some path => exact ⟨path, rfl, h.found path rfl⟩

theorem Settles.isSettled {path? : Option Text}
    (h : Settles ((get? settings name key).getD .null) path?) :
    IsSettled ((get? (withPath settings name key path?) name key).getD .null) := by
  intro htruthy
  obtain ⟨path, hpath, _, _, _, hreal⟩ := h.of_isTruthy htruthy
  rw [hpath]
  exact ⟨path, rfl, (of_realPathFrom hreal).2⟩

/-- Entries of a section stay when a path is put at another key. -/
theorem mem_sectionOf_withPath {e : Value × Value} {name' : Text} (path? : Option Text)
    (he : e ∈ sectionOf settings name') (hkey : name = name' → e.1 ≠ .text key) :
    e ∈ sectionOf (withPath settings name key path?) name' := by
  cases path? with
  | none =>
    rw [withPath, sectionOf_putMap]
    split
    · next hname => rwa [hname]
    · exact he
  | some path =>
    rw [withPath, set, sectionOf_putMap]
    split
    · next hname =>
      subst hname
      exact Entries.mem_put_of_mem he fun hsame => hkey rfl (Value.sameKey_text.1 hsame)
    · exact he

/-- Entries outside of a section stay when a path is put into it. -/
theorem mem_withPath {e : Value × Value} (path? : Option Text) (he : e ∈ settings)
    (hkey : e.1 ≠ .text name) :
    e ∈ withPath settings name key path? := by
  cases path? <;> exact Entries.mem_put_of_mem he fun hsame => hkey (Value.sameKey_text.1 hsame)

/-! ## Loading -/

/-- Settings of a file over the defaults, with a path of the build log and one of the log file. -/
def withPaths (loaded : Entries) (log? file? : Option Text) : Entries :=
  withPath (withPath (merge defaults loaded) "build_log" "default_path" log?) "logging"
    "log_file" file?

/-- What was found for the paths in settings of a file over the defaults. -/
structure FindsPaths (loaded : Entries) (log? file? : Option Text) : Prop where
  buildLog : Settles ((get? (merge defaults loaded) "build_log" "default_path").getD .null) log?
  logFile : Settles ((get? (merge defaults loaded) "logging" "log_file").getD .null) file?

/-- The paths in settings of a file over the defaults, as they are found in a tree. -/
structure FoundPaths (tree : FileTree) (root : Text) (loaded : Entries)
    (log? file? : Option Text) : Prop where
  buildLog : resolveValue tree root
    ((get? (merge defaults loaded) "build_log" "default_path").getD .null) = .ok log?
  logFile : resolveValue tree root
    ((get? (merge defaults loaded) "logging" "log_file").getD .null) = .ok file?

theorem FoundPaths.findsPaths {tree : FileTree} {log? file? : Option Text}
    (h : FoundPaths tree root loaded log? file?) : FindsPaths loaded log? file? :=
  ⟨settles_of_resolveValue h.buildLog, settles_of_resolveValue h.logFile⟩

/-- Loaded settings are those of the file over the defaults, with their paths found. -/
theorem of_load {file : Option Text} (h : (load root file).run w = .ok config v) :
    ∃ (u : World) (loaded : Entries) (log? file? : Option Text),
      World.Kept w u ∧ Gives u.tree (fileIn root file) file.isSome loaded ∧
      IsSectioned (merge defaults loaded) ∧ FoundPaths w.tree root loaded log? file? ∧
      config = withPaths loaded log? file? ∧ World.Kept w v := by
  obtain ⟨_, u, hnote, h⟩ := run_bind_eq_ok.1 h
  have hu : World.Kept w u := by
    cases hnote
    exact World.kept_note ..
  obtain ⟨loaded, x, hread, h⟩ := run_bind_eq_ok.1 h
  obtain ⟨_, y, hsections, h⟩ := run_bind_eq_ok.1 h
  obtain ⟨first, z, hfirst, h⟩ := run_bind_eq_ok.1 h
  obtain ⟨second, z', hsecond, h⟩ := run_bind_eq_ok.1 h
  cases h
  have hgives := verdict_readSettings (fileIn root file) file.isSome u
  rw [hread] at hgives
  obtain ⟨hchecked, hsectioned⟩ | ⟨⟨_, hrefused⟩, _⟩ :=
    run_checkSections (fileIn root file) (merge defaults loaded) sections x
  swap
  · rw [hrefused] at hsections
    cases hsections
  rw [hchecked] at hsections
  cases hsections
  have hx := hu.trans hgives.2.2.1
  obtain ⟨log?, rfl, hlog, hz⟩ := of_resolvePath hsectioned (by decide) hfirst
  obtain ⟨file?, rfl, hfile, hz'⟩ :=
    of_resolvePath (IsSectioned.withPath hsectioned _ _ log?) (by decide) hsecond
  rw [get?_withPath, if_neg (by decide), (hx.trans hz).tree.resolveValue] at hfile
  rw [hx.tree.resolveValue] at hlog
  exact ⟨u, loaded, log?, file?, hu, hgives.2.2.2, hsectioned, ⟨hlog, hfile⟩, rfl,
    ((hx.trans hz).trans hz').trans (World.kept_note ..)⟩

theorem FindsPaths.logFile_withPath {log? file? : Option Text} (h : FindsPaths loaded log? file?) :
    Settles ((get? (withPath (merge defaults loaded) "build_log" "default_path" log?)
      "logging" "log_file").getD .null) file? := by
  rw [get?_withPath, if_neg (by decide)]
  exact h.logFile

/-- A log file in loaded settings has a real path. -/
theorem hasLogPath_withPaths {log? file? : Option Text} (h : FindsPaths loaded log? file?) :
    HasLogPath (withPaths loaded log? file?) := by
  intro htruthy
  obtain ⟨path, hpath, tree, root, given, hreal⟩ := h.logFile_withPath.of_isTruthy htruthy
  exact ⟨tree, root, given, path, hreal, hpath⟩

/-! ## What is promised -/

/-- What is promised of settings that were loaded from the entries of a file. -/
structure IsSafe (loaded config : Entries) : Prop where
  /-- Every section is a mapping. -/
  sectioned : IsSectioned config
  /-- Every default has a value. -/
  complete : ∀ name ∈ sections, ∀ key, (get? defaults name key).isSome = true →
    (get? config name key).isSome = true
  /-- Paths are not set, or absolute. -/
  settled : ∀ way ∈ pathWays, IsSettled ((get? config way.1 way.2).getD .null)
  /-- What is no path comes from the file, or else from the defaults. -/
  found : ∀ name ∈ sections, ∀ key, (name, key) ∉ pathWays →
    get? config name key = (get? loaded name key).or (get? defaults name key)
  /-- The entries of the file's sections are kept, whatever their keys are. -/
  kept : ∀ name ∈ sections, ∀ e ∈ sectionOf loaded name,
    (∀ key, (name, key) ∈ pathWays → e.1 ≠ .text key) →
    e ∈ sectionOf config name
  /-- The file's other entries are kept. -/
  rest : ∀ e ∈ loaded, (∀ name ∈ sections, e.1 ≠ .text name) → e ∈ config

/-- The defaults have nothing but sections. -/
theorem name_of_mem_defaults {e : Value × Value} (he : e ∈ defaults) :
    ∃ name ∈ sections, e.1 = .text name := by
  have hnames : defaults.map Prod.fst = sections.map Value.text := rfl
  have hmem : e.1 ∈ sections.map Value.text := hnames ▸ List.mem_map_of_mem he
  obtain ⟨name, hn, hname⟩ := List.mem_map.1 hmem
  exact ⟨name, hn, hname.symm⟩

/-- Settings of a file over the defaults are safe once their paths are found. -/
theorem isSafe_withPaths (hkeyed : (Value.map loaded).IsKeyed 2)
    (h : IsSectioned (merge defaults loaded)) {log? file? : Option Text}
    (hpaths : FindsPaths loaded log? file?) :
    IsSafe loaded (withPaths loaded log? file?) := by
  have hmerged : ∀ name ∈ sections, ∀ key, get? (merge defaults loaded) name key =
      (get? loaded name key).or (get? defaults name key) :=
    fun name hn key => get?_merge hkeyed.1 h (distinct_sectionOf hkeyed name) hn key
  constructor
  case sectioned => exact (IsSectioned.withPath h _ _ log?).withPath _ _ file?
  case complete =>
    intro name hn key hdefault
    exact isSome_withPath _ _ _ (isSome_withPath _ _ _ (isSome_merge hkeyed h hn hdefault))
  case settled =>
    intro way hway
    rw [pathWays, List.mem_cons, List.mem_singleton] at hway
    obtain rfl | rfl := hway
    · rw [withPaths, get?_withPath, if_neg (by decide)]
      exact hpaths.buildLog.isSettled
    · exact hpaths.logFile_withPath.isSettled
  case found =>
    intro name hn key hway
    rw [← hmerged name hn key, withPaths, get?_withPath, if_neg, get?_withPath, if_neg]
    · rintro ⟨rfl, rfl⟩
      exact hway (by decide)
    · rintro ⟨rfl, rfl⟩
      exact hway (by decide)
  case kept =>
    intro name hn e he hkeys
    have hmem := mem_sectionOf_merge hkeyed.1 h (distinct_sectionOf hkeyed name) hn he
    refine mem_sectionOf_withPath file? (mem_sectionOf_withPath log? hmem ?_) ?_
    · rintro rfl
      exact hkeys _ (by decide)
    · rintro rfl
      exact hkeys _ (by decide)
  case rest =>
    intro e he hnames
    refine mem_withPath file? (mem_withPath log? (mem_merge hkeyed.1 he ?_) ?_) ?_
    · refine Entries.find?_eq_none_iff.2 fun d hd hsame => ?_
      obtain ⟨name, hn, hname⟩ := name_of_mem_defaults hd
      rw [hname] at hsame
      exact hnames name hn (Value.text_sameKey.1 hsame)
    · exact hnames _ (by decide)
    · exact hnames _ (by decide)

/-! ## Use -/

/-- The value that a key of a section leads to. The section has to be a mapping; there is no value
if the key is missing. -/
def lookUpIn (settings : Entries) (name key : Text) : Except Failure (Option Value) := do
  lookUp (← sectionAt (.map settings) name) key

/-- In a section that is a mapping, a key leads to its value. -/
theorem lookUpIn_eq (h : IsSectioned settings) (hn : name ∈ sections) (key : Text) :
    lookUpIn settings name key = .ok (get? settings name key) := by
  rw [lookUpIn, sectionAt_eq h hn]
  rfl

theorem get?_buildFile_withOptions (o : Arguments.Options) (buildFile : Value)
    (settings : Entries) :
    get? (withOptions o buildFile settings) "build_log" "build_file" = some buildFile := by
  simp +decide only [withOptions, get?_putOption, Option.some_or, if_false, if_true]

theorem get?_dryRun_withOptions (o : Arguments.Options) (buildFile : Value) (settings : Entries) :
    get? (withOptions o buildFile settings) "patching" "dry_run" =
      if o.dryRun then some (.bool true) else get? settings "patching" "dry_run" := by
  simp +decide only [withOptions, get?_putOption, if_false, if_true]
  cases o.dryRun <;> rfl

/-- Settings that were loaded, from whatever root and file, have their four sections with every key
of the defaults, and paths that are not set or absolute. All else that the file has is kept.
Options, whatever they are, can only fail to find the build log that they ask for: no section or key
that they need is missing. With the options over the settings, making the directory of the log file
never fails, and whether the run is a trial and which build log it has can be told, also by asking
for items that have to be there. -/
theorem load_safe {file : Option Text} (h : (load root file).run w = .ok config v) :
    ∃ (u : World) (loaded : Entries),
      World.Kept w u ∧ Gives u.tree (fileIn root file) file.isSome loaded ∧ IsSafe loaded config ∧
      ∀ (base : Text) (o : Arguments.Options) (x : World),
        (∀ e y, (override base o config).run x = .error e y → e.IsOfPath) ∧
        ∀ used y, (override base o config).run x = .ok used y →
          (∀ z, ∃ z', (ensureDirectories used).run z = .ok () z') ∧
          (∃ trial, lookUpIn used "patching" "dry_run" = .ok (some trial) ∧
            item used "patching" "dry_run" = .ok trial ∧ Command.isTrial used = trial.isTruthy) ∧
          lookUpIn used "build_log" "build_file" = .ok (some (Command.buildLog used)) ∧
          item used "build_log" "build_file" = .ok (Command.buildLog used) := by
  obtain ⟨u, loaded, log?, file?, hkept, hgives, hsectioned, hfound, rfl, -⟩ := of_load h
  have hpaths := hfound.findsPaths
  have hsafe := isSafe_withPaths (isKeyed_of_gives hgives) hsectioned hpaths
  have hlog := hasLogPath_withPaths hpaths
  refine ⟨u, loaded, hkept, hgives, hsafe, fun base o x => ?_⟩
  generalize withPaths loaded log? file? = config at hsafe hlog
  have hdefault := hsafe.complete "build_log" (by decide) "default_path" (by decide)
  obtain ⟨buildFile, hrun, _⟩ | ⟨e, hrun, he, _⟩ := run_override hsafe.sectioned hdefault base o x
  · rw [hrun]
    refine ⟨fun _ _ hfails => (by cases hfails), fun used y hused => ?_⟩
    cases hused
    have hsectioned := hsafe.sectioned.withOptions o buildFile
    have hbuild := get?_buildFile_withOptions o buildFile config
    have htrial :
        ∃ trial, get? (withOptions o buildFile config) "patching" "dry_run" = some trial := by
      rw [get?_dryRun_withOptions]
      split
      · exact ⟨_, rfl⟩
      · exact Option.isSome_iff_exists.1
          (hsafe.complete "patching" (by decide) "dry_run" (by decide))
    obtain ⟨trial, htrial⟩ := htrial
    refine ⟨run_ensureDirectories ?_, ⟨trial, ?_, item_eq_ok_iff.2 htrial, ?_⟩, ?_, ?_⟩
    · rw [HasLogPath, logFile_withOptions]
      exact hlog
    · rw [lookUpIn_eq hsectioned (by decide), htrial]
    · rw [Command.isTrial, htrial]
      rfl
    · rw [lookUpIn_eq hsectioned (by decide), Command.buildLog, hbuild]
      rfl
    · rw [Command.buildLog, hbuild]
      exact item_eq_ok_iff.2 hbuild
  · rw [hrun]
    refine ⟨fun e' y hfails => ?_, fun _ _ hused => by cases hused⟩
    cases hfails
    exact he

/-- A world with a settings file that has a section, a part of one, and something
that no default is for. -/
def nestedWorld : World :=
  let text : Text :=
    "\x7bx: [1], ui: \x7btype: tqdm, depth: \x7ba: 1\x7d\x7d, build_log: \x7bdefault_path: a/b\x7d\x7d"
  World.new ⟨[], [(["application.yml"], .file 0)], [⟨Utf8.encodeAll text, 0o644⟩]⟩
    Journal.defaultThreshold [] {}

/-- A file that sets a path, changes a console, and has entries that nothing reads is safe. -/
theorem load_safe_nested :
    ∃ (config : Entries) (v u : World) (loaded : Entries),
      (load "/" (some "application.yml")).run nestedWorld = .ok config v ∧
      Gives u.tree (fileIn "/" (some "application.yml")) true loaded ∧ IsSafe loaded config := by
  have hreturns : returns ((load "/" (some "application.yml")).run nestedWorld) = true := by
    decide +kernel
  obtain ⟨config, v, hrun⟩ := exists_of_returns hreturns
  obtain ⟨u, loaded, _, hgives, hsafe, _⟩ := load_safe hrun
  exact ⟨config, v, u, loaded, hrun, hgives, hsafe⟩

end Settings

end ImportRepair
