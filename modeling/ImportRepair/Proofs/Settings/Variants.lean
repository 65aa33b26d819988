import ImportRepair.Proofs.Beside
import ImportRepair.Proofs.Journal.SettingUp
import ImportRepair.Proofs.Settings.Safety

/-!
# Settings for one console and for another

Two settings files may differ in nothing but the console that they ask for. Then so do the
settings that are loaded from them, and everything that is done with the settings before the
console is chosen is done alike.

Results:
* `Settings.Variants`: settings that differ in the console that they ask for.
* `Settings.endAlike_load`, `Settings.echoes_override`: such settings are loaded alike.
* `Settings.echoes_ensureDirectories`, `Journal.echoes_setUp`: and what they ask for is made alike.
-/

namespace ImportRepair

variable {c : Nat} {w w' : World}

/-! ## Paths -/

theorem World.Beside.logged (h : Beside c w w') : FileTree.Logged [c] w.tree w'.tree := by
  obtain ⟨bytes, ht⟩ := h.tree
  rw [ht]
  exact FileTree.logged_withBytes

theorem Echoes.tryCatch {α β : Type} {R : α → β → Prop} {job : Job α} {job' : Job β}
    {handler : Failure → Job α} {handler' : Failure → Job β} (h : Echoes c R job job')
    (hhandler : ∀ e, Echoes c R (handler e) (handler' e)) :
    Echoes c R (tryCatch job handler) (tryCatch job' handler') := by
  refine ⟨fun {w w'} hw => ?_⟩
  have hend := h.endAlike hw
  rw [run_tryCatch, run_tryCatch]
  generalize job.run w = r at hend
  generalize job'.run w' = r' at hend
  cases hend with
  | returned hab hv => exact .returned hab hv
  | failed hv => exact (hhandler _).endAlike hv

theorem echoes_ofExcept {α : Type} (result : Except Failure α) :
    Echoes c Eq (MonadExcept.ofExcept result : Job α) (MonadExcept.ofExcept result) := by
  cases result with
  | ok a => exact echoes_pure rfl
  | error e => exact echoes_throw e

namespace Settings

/-! ## Variants -/

/-- Settings that are the same but for the console that they ask for. -/
structure Variants (kind kind' : Text) (settings settings' : Entries) : Prop where
  others : ∀ name : Text, name ≠ "ui" → Entries.get? settings' name = Entries.get? settings name
  ui : ∃ entries entries', Entries.get? settings "ui" = some (.map entries) ∧
    Entries.get? settings' "ui" = some (.map entries') ∧
    Entries.get? entries "type" = some (.text kind) ∧
    Entries.get? entries' "type" = some (.text kind') ∧
    ∀ key : Text, key ≠ "type" → Entries.get? entries' key = Entries.get? entries key

namespace Variants

variable {kind kind' : Text} {settings settings' loaded loaded' : Entries}

theorem type (h : Variants kind kind' settings settings') :
    get? settings "ui" "type" = some (.text kind) ∧
      get? settings' "ui" "type" = some (.text kind') := by
  obtain ⟨entries, entries', he, he', ht, ht', _⟩ := h.ui
  rw [Settings.get?, Settings.get?, sectionOf_eq he, sectionOf_eq he']
  exact ⟨ht, ht'⟩

/-- Whatever else is looked up is the same. -/
theorem get? (h : Variants kind kind' settings settings') {name key : Text}
    (hne : ¬(name = "ui" ∧ key = "type")) : get? settings' name key = get? settings name key := by
  by_cases hn : name = "ui"
  · subst hn
    obtain ⟨entries, entries', he, he', _, _, hsame⟩ := h.ui
    rw [Settings.get?, Settings.get?, sectionOf_eq he, sectionOf_eq he']
    exact hsame key fun hk => hne ⟨rfl, hk⟩
  · rw [Settings.get?, Settings.get?, sectionOf, sectionOf, h.others name hn]

theorem isSectioned (h : Variants kind kind' settings settings') (hs : IsSectioned settings) :
    IsSectioned settings' := by
  intro name hn
  by_cases hui : name = "ui"
  · obtain ⟨_, entries', _, he', _⟩ := h.ui
    exact ⟨entries', hui ▸ he'⟩
  · rw [h.others name hui]
    exact hs name hn

/-- The same mapping for another section of both. -/
theorem putMap (h : Variants kind kind' settings settings') {name : Text} (hn : name ≠ "ui")
    (entries : Entries) :
    Variants kind kind' (settings.set name (.map entries)) (settings'.set name (.map entries)) := by
  constructor
  · intro name' hn'
    rw [Entries.get?_set, Entries.get?_set, h.others name' hn']
  · rw [Entries.get?_set, Entries.get?_set, if_neg hn, if_neg hn]
    exact h.ui

/-- The same value at a key of another section of both. -/
theorem set (h : Variants kind kind' settings settings') {name : Text} (hn : name ≠ "ui")
    (key : Text) (v : Value) :
    Variants kind kind' (set settings name key v) (Settings.set settings' name key v) := by
  have hsection : sectionOf settings' name = sectionOf settings name := by
    rw [sectionOf, sectionOf, h.others name hn]
  rw [Settings.set, Settings.set, hsection]
  exact h.putMap hn _

/-- Entries of files that differ in the console, over the defaults. -/
theorem merge (h : Variants kind kind' loaded loaded') (hkeyed : (Value.map loaded).IsKeyed 2)
    (hkeyed' : (Value.map loaded').IsKeyed 2) :
    Variants kind kind' (merge defaults loaded) (Settings.merge defaults loaded') := by
  constructor
  · intro name hn
    rw [get?_mergeEntries hkeyed.1, get?_mergeEntries hkeyed'.1, h.others name hn]
  · obtain ⟨entries, entries', he, he', ht, ht', hsame⟩ := h.ui
    have hdistinct : Entries.Distinct entries := (hkeyed.2 _ (Entries.mem_of_get? he)).1
    have hdistinct' : Entries.Distinct entries' := (hkeyed'.2 _ (Entries.mem_of_get? he')).1
    refine ⟨Settings.merge (sectionOf defaults "ui") entries,
      Settings.merge (sectionOf defaults "ui") entries',
      ?_, ?_, ?_, ?_, fun key hk => ?_⟩
    · rw [get?_section hkeyed.1 (by decide), he]
    · rw [get?_section hkeyed'.1 (by decide), he']
    · rw [get?_mergeEntries hdistinct, ht]
      rfl
    · rw [get?_mergeEntries hdistinct', ht']
      rfl
    · rw [get?_mergeEntries hdistinct, get?_mergeEntries hdistinct', hsame key hk]

end Variants

/-! ## Loading -/

variable {kind kind' root path : Text} {settings settings' loaded loaded' : Entries}

theorem echoes_refuse {α : Type} {R : α → α → Prop} (message : Text) :
    Echoes c R (refuse message : Job α) (refuse message) := echoes_fail ..

theorem echoes_checkSections (h : Variants kind kind' settings settings') (path : Text)
    (names : List Text) :
    Echoes c Eq (checkSections path settings names) (checkSections path settings' names) := by
  induction names with
  | nil => exact echoes_pure rfl
  | cons name names ih =>
    rw [checkSections, checkSections]
    by_cases hui : name = "ui"
    · obtain ⟨_, _, he, he', _⟩ := h.ui
      rw [hui, he, he']
      exact ih
    · rw [h.others name hui]
      split
      · exact ih
      · exact echoes_refuse _

theorem echoes_resolveAt_last (root : Text) (way : List Text) (key : Text) (entries : Entries) :
    Echoes c Eq (resolveAt root way [key] entries) (resolveAt root way [key] entries) := by
  rw [resolveAt]
  refine echoes_get fun w w' hw => ?_
  rw [hw.logged.resolveValue]
  cases resolveValue w.tree root ((Entries.get? entries key).getD .null) with
  | error e => exact .failed hw
  | ok path? =>
    cases path? with
    | none => exact .returned rfl hw
    | some path => exact ((echoes_note ..).bind_eq fun _ => echoes_pure rfl).endAlike hw

theorem echoes_resolvePath (h : Variants kind kind' settings settings') {name : Text}
    (hn : name ≠ "ui") (root key : Text) :
    Echoes c (Variants kind kind') (resolvePath root [name, key] settings)
      (resolvePath root [name, key] settings') := by
  unfold resolvePath resolveAt
  rw [h.others name hn]
  split
  · exact (echoes_resolveAt_last ..).bind_eq fun inner => echoes_pure (h.putMap hn inner)
  · exact (echoes_note ..).bind_eq fun _ => echoes_pure h

/-- What is left of loading when the file was read. -/
def complete (root path : Text) (loaded : Entries) : Job Entries := do
  checkSections path (merge defaults loaded) sections
  findPaths root path loaded (merge defaults loaded)

theorem load_eq (root : Text) (file : Option Text) :
    load root file = (do
      note .debug .settings ("Attempting to load configuration from: " ++ fileIn root file)
      let loaded ← readSettings (fileIn root file) file.isSome
      complete root (fileIn root file) loaded) := rfl

theorem echoes_complete (h : Variants kind kind' loaded loaded')
    (hkeyed : (Value.map loaded).IsKeyed 2) (hkeyed' : (Value.map loaded').IsKeyed 2)
    (root path : Text) :
    Echoes c (Variants kind kind') (complete root path loaded) (complete root path loaded') := by
  have hmerged := h.merge hkeyed hkeyed'
  have hempty : loaded'.isEmpty = loaded.isEmpty := by
    obtain ⟨_, _, he, he', _⟩ := h.ui
    cases loaded <;> cases loaded' <;> first | rfl | cases he | cases he'
  refine (echoes_checkSections hmerged path sections).bind_eq fun _ => ?_
  refine (echoes_resolvePath hmerged (by decide) root _).bind fun a b hab => ?_
  refine (echoes_resolvePath hab (by decide) root _).bind fun a b hab => ?_
  rw [hempty]
  exact (echoes_note ..).bind_eq fun _ => echoes_pure hab

/-- A file with entries is read without a record. -/
theorem run_readSettings {asked : Bool} (h : Gives w.tree path asked loaded) (hne : loaded ≠ []) :
    (readSettings path asked).run w = .ok loaded w := by
  obtain ⟨_, _, rfl⟩ | ⟨hfile, v, hv, he⟩ := h
  · exact absurd rfl hne
  · have hread := run_readFile path w
    rw [hv] at hread
    rw [readSettings, EStateM.run_bind, EStateM.run_get]
    simp only [hfile]
    rw [run_bind_of_ok hread]
    cases ht : v.isTruthy with
    | false =>
      rw [ht] at he
      cases he
      exact absurd rfl hne
    | true =>
      rw [ht] at he
      obtain rfl : v = .map loaded := he
      rfl

/-- Loading a file with entries is completing them, after a record. -/
theorem run_load (hunlogged : w.journal.sinks = []) {file : Option Text}
    (h : Gives w.tree (fileIn root file) file.isSome loaded) (hne : loaded ≠ []) :
    (load root file).run w = (complete root (fileIn root file) loaded).run
      (w.note .debug .settings
        ("Attempting to load configuration from: " ++ fileIn root file)) := by
  have hkept := World.kept_note .debug .settings
    ("Attempting to load configuration from: " ++ fileIn root file) w
  rw [← hkept.tree_eq hunlogged] at h
  have hnote :
      (note .debug .settings ("Attempting to load configuration from: " ++ fileIn root file)).run w =
        .ok () (w.note .debug .settings
          ("Attempting to load configuration from: " ++ fileIn root file)) := rfl
  rw [load_eq, run_bind_of_ok hnote, run_bind_of_ok (run_readSettings h hne)]

/-- Files that differ in the console that they ask for are loaded alike. -/
theorem endAlike_load (hw : w.Beside c w') (hunlogged : w.journal.sinks = []) {file : Option Text}
    (hgives : Gives w.tree (fileIn root file) file.isSome loaded)
    (hgives' : Gives w'.tree (fileIn root file) file.isSome loaded')
    (h : Variants kind kind' loaded loaded') :
    EndAlike (World.Beside c) (Variants kind kind') ((load root file).run w)
      ((load root file).run w') := by
  have hne : loaded ≠ [] ∧ loaded' ≠ [] := by
    obtain ⟨_, _, he, he', _⟩ := h.ui
    constructor <;> rintro rfl
    · cases he
    · cases he'
  rw [run_load hunlogged hgives hne.1, run_load (hw.journal ▸ hunlogged) hgives' hne.2]
  exact (echoes_complete h (isKeyed_of_gives hgives) (isKeyed_of_gives hgives') root _).endAlike
    (hw.note ..)

/-! ## Options -/

theorem echoes_putItem (h : Variants kind kind' settings settings') {name : Text} (hn : name ≠ "ui")
    (key : Text) (v? : Option Value) :
    Echoes c (Variants kind kind') (putItem settings name key v?)
      (putItem settings' name key v?) := by
  cases v? with
  | none => exact echoes_pure h
  | some v =>
    rw [putItem, putItem, setItem, setItem, itemOf, itemOf, h.others name hn]
    cases Entries.get? settings name with
    | none => exact echoes_throw _
    | some value =>
      cases value with
      | map entries => exact echoes_pure (h.set hn key v)
      | _ => exact echoes_throw _

theorem echoes_findBuildLog (h : Variants kind kind' settings settings') (root : Text)
    (o : Arguments.Options) :
    Echoes c Eq (findBuildLog root o settings) (findBuildLog root o settings') := by
  rw [findBuildLog, findBuildLog]
  split
  · refine echoes_get fun w w' hw => ?_
    rw [hw.logged.realPathFrom]
    exact ((echoes_ofExcept _).bind_eq fun real => echoes_pure rfl).endAlike hw
  · rw [item, item, itemOf, itemOf, h.others "build_log" (by decide)]
    exact echoes_ofExcept _

theorem echoes_override (h : Variants kind kind' settings settings') (root : Text)
    (o : Arguments.Options) :
    Echoes c (Variants kind kind') (override root o settings) (override root o settings') := by
  rw [override, override]
  refine (echoes_findBuildLog h root o).bind_eq fun buildFile => ?_
  refine (echoes_putItem h (by decide) _ _).bind fun a b hab => ?_
  refine (echoes_putItem hab (by decide) _ _).bind fun a b hab => ?_
  refine (echoes_putItem hab (by decide) _ _).bind fun a b hab => ?_
  exact echoes_putItem hab (by decide) _ _

/-! ## Directories -/

end Settings

namespace FileTree

variable {tree tree' : FileTree}

theorem length_of_makeDirectory {path : Text} (h : tree.makeDirectory path = .ok tree') :
    tree'.contents.length = tree.contents.length := by
  obtain ⟨_, _, _, rfl⟩ := of_makeDirectory h
  rfl

end FileTree

namespace Files

theorem echoes_makeOne (path : PlainPath) : Echoes c Eq (makeOne path) (makeOne path) := by
  rw [makeOne]
  refine echoes_get fun w w' hw => ?_
  obtain ⟨bytes, ht⟩ := hw.tree
  rw [ht, FileTree.makeDirectory_withBytes]
  cases hmake : w.tree.makeDirectory path.display with
  | ok tree =>
    exact .returned rfl
      (hw.withTree (hw.old.trans_eq (FileTree.length_of_makeDirectory hmake).symm) bytes)
  | error e =>
    simp only [Except.map]
    split
    · cases ‹Except.error e = _›
    · exact .failed hw
    · refine (echoes_get fun w w' hw => ?_).endAlike hw
      rw [hw.logged.isDirectory]
      split
      · exact .returned rfl hw
      · exact .failed hw
    · exact .failed hw

theorem echoes_makeAllWithin (levels : Nat) (path : PlainPath) :
    Echoes c Eq (makeAllWithin levels path) (makeAllWithin levels path) := by
  induction levels generalizing path with
  | zero => exact echoes_makeOne path
  | succ levels ih =>
    rw [makeAllWithin]
    refine (echoes_makeOne path).tryCatch fun e => ?_
    split
    · exact (ih path.parent).bind_eq fun _ => echoes_makeOne path
    · exact echoes_throw e

end Files

namespace Settings

variable {kind kind' : Text} {settings settings' : Entries}

theorem ensureDirectories_congr (h : Variants kind kind' settings settings') :
    ensureDirectories settings' = ensureDirectories settings := by
  rw [ensureDirectories, ensureDirectories, h.get? (by decide)]

theorem echoes_ensureDirectories (settings : Entries) :
    Echoes c Eq (ensureDirectories settings) (ensureDirectories settings) := by
  rw [ensureDirectories]
  simp only
  split
  · exact echoes_pure rfl
  · split
    · refine Echoes.tryCatch ((Files.echoes_makeAllWithin ..).bind_eq fun _ =>
        echoes_note ..) fun e => ?_
      split
      · exact echoes_note ..
      · exact echoes_throw _
    · exact echoes_throw _

end Settings

/-! ## The journal -/

namespace Journal

open Settings

variable {kind kind' : Text} {settings settings' : Entries}

theorem setUp_congr (h : Variants kind kind' settings settings') (hs : IsSectioned settings) :
    setUp (.map settings') = setUp (.map settings) := by
  have hwished : wished settings' = wished settings := by
    simp only [wished, levelIn, formatIn, logFileIn, drawsRecords]
    rw [h.get? (by decide), h.get? (by decide), h.get? (by decide), h.get? (by decide)]
  have hlevel : levelIn settings' = levelIn settings := by
    rw [levelIn, levelIn, h.get? (by decide)]
  rw [setUp_eq, setUp_eq, wishesOf_eq hs, wishesOf_eq (h.isSectioned hs), hwished, hlevel]

theorem echoes_fileHandlers (path : Text) (format : Value) :
    Echoes c Eq (fileHandlers path format) (fileHandlers path format) := by
  rw [fileHandlers]
  refine echoes_get fun w w' hw => ?_
  obtain ⟨bytes, ht⟩ := hw.tree
  have hopen' : w'.tree.openForWriting (w'.tree.absolute path) =
      (w.tree.openForWriting (w.tree.absolute path)).map fun opened =>
        (opened.1, opened.2.withBytes c bytes) := by
    rw [hw.logged.absolute, ht, FileTree.openForWriting_withBytes hw.old]
  simp only [hopen']
  cases hopen : w.tree.openForWriting (w.tree.absolute path) with
  | error e =>
    cases e with
    | system cause =>
      refine .returned rfl ?_
      simp only [hw.journal]
      exact hw.withJournal _
    | _ => exact .failed hw
  | ok opened =>
    obtain ⟨n, tree⟩ := opened
    have hlt := hw.old.trans_le (FileTree.le_of_openForWriting hopen)
    exact ((echoes_ofExcept (formatOf format)).bind_eq fun format => echoes_pure rfl).endAlike
      (hw.withTree hlt bytes)

theorem echoes_openHandlers (wishes : Wishes) :
    Echoes c Eq (openHandlers wishes) (openHandlers wishes) := by
  rw [openHandlers]
  refine (echoes_ofExcept _).bind_eq fun visible => Echoes.bind_eq ?_ fun toFile => echoes_pure rfl
  rw [openLog]
  split
  · exact echoes_pure rfl
  · split
    · exact echoes_fileHandlers ..
    · exact echoes_throw _

theorem echoes_adjust (wishes : Wishes) (handlers : List Handler) :
    Echoes c Eq (adjust wishes handlers) (adjust wishes handlers) := by
  have hchange : ∀ change : Journal → Journal,
      Echoes c Eq (modify fun w => { w with journal := change w.journal } : Job Unit)
        (modify fun w => { w with journal := change w.journal } : Job Unit) := by
    refine fun change => echoes_modify fun w w' hw => ?_
    rw [hw.journal]
    exact hw.withJournal _
  rw [adjust]
  refine (hchange fun journal => { journal with handlers }).bind_eq fun _ => ?_
  refine (echoes_ofExcept _).bind_eq fun threshold => ?_
  exact (hchange fun journal => { journal with threshold }).bind_eq fun _ => echoes_note ..

theorem echoes_setUp (settings : Value) : Echoes c Eq (setUp settings) (setUp settings) := by
  rw [setUp_eq]
  exact (echoes_ofExcept _).bind_eq fun wishes =>
    (echoes_openHandlers wishes).bind_eq fun handlers => echoes_adjust wishes handlers

end Journal

end ImportRepair
