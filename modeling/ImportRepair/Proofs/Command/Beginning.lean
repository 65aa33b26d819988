import ImportRepair.Proofs.Command.Ending
import ImportRepair.Proofs.Settings.Variants

/-!
# The beginning of a command

Before the console is chosen, a command shows nothing and takes no answer. It may create directories
and a log file, each under a name that was free, so the tree stays one that a file system keeps. And
it begins alike with settings files that differ in nothing but the console that they ask for.

Results:
* `FileTree.Sound.put`: something new under a free name keeps a tree sound.
* `Command.prepares_begin`: a beginning shows nothing and keeps a tree sound.
* `Command.endAlike_begin`: commands with settings files for different consoles begin alike.
-/

namespace ImportRepair

/-! ## Sound trees -/

namespace FileTree

variable {tree tree' : FileTree} {path : Text}

/-- Something new under a free name keeps a tree sound. -/
theorem Sound.put (hs : tree.Sound) {p : Place} {node : Node} (hfree : tree.node? p = none)
    (hfits : Fits tree.contents.length node) : (tree.put p node).Sound := by
  have hp : p ≠ [] := by
    rintro rfl
    rw [node?, if_pos rfl] at hfree
    cases hfree
  have hnode : ∀ q n, (tree.put p node).node? q = some n → n = node ∨ tree.node? q = some n := by
    intro q n hq
    rw [node?_put hp] at hq
    split at hq
    · exact Or.inl (Option.some.inj hq).symm
    · exact Or.inr hq
  constructor
  · refine hs.working.mono fun q hq => ?_
    rw [node?_put hp, if_neg, hq]
    rintro rfl
    rw [hfree] at hq
    cases hq
  · intro q target hq
    obtain rfl | hq := hnode q _ hq
    · exact hfits
    · exact hs.links q target hq
  · intro q c hq
    obtain rfl | hq := hnode q _ hq
    · exact hfits
    · exact hs.contents q c hq

theorem Sound.addContent (hs : tree.Sound) (content : Content) :
    (tree.addContent content).2.Sound where
  working := hs.working.mono fun _ hq => hq
  links := hs.links
  contents q c hq :=
    (Nat.lt_succ_of_lt (hs.contents q c hq)).trans_eq (length_addContent content).symm

theorem Sound.makeDirectory (hs : tree.Sound) (h : tree.makeDirectory path = .ok tree') :
    tree'.Sound := by
  obtain ⟨d, name, hfree, rfl⟩ := of_makeDirectory h
  exact hs.put (isThere_of_locate hfree) trivial

theorem Sound.openForWriting (hs : tree.Sound) {n : Nat}
    (h : tree.openForWriting path = .ok (n, tree')) :
    tree'.Sound := by
  obtain ⟨_, _, rfl⟩ | ⟨d, name, hfree, rfl, rfl⟩ := of_openForWriting h
  · exact hs
  · have hnone : tree.node? (name :: d) = none := isThere_of_locate hfree
    exact (hs.addContent ⟨[], defaultMode⟩).put hnone
      ((Nat.lt_succ_self _).trans_eq (length_addContent _).symm)

end FileTree

/-! ## Preparations -/

/-- How a world may change while a command begins: it gets records, directories and a log file. -/
class Preparing (T : World → World → Prop) : Prop where
  refl : ∀ w, T w w
  trans : ∀ {w u v}, T w u → T u v → T w v
  note : ∀ severity source message w, T w (w.note severity source message)
  stream : ∀ w text, T w { w with journal := { w.journal with stream := text } }
  makeDirectory : ∀ {w path tree}, w.tree.makeDirectory path = .ok tree → T w { w with tree }
  openForWriting : ∀ {w path n tree}, w.tree.openForWriting path = .ok (n, tree) →
    T w { w with tree }

/-- A job that changes the world no further, whether it fails or not. -/
structure Prepares (T : World → World → Prop) {α : Type} (job : Job α) : Prop where
  after : ∀ w, T w (worldAfter (job.run w))

section Prepares

variable {T : World → World → Prop} {α β : Type}

theorem Prepares.of_ok {job : Job α} (h : Prepares T job) {w v : World} {a : α}
    (hrun : job.run w = .ok a v) : T w v := by
  have hw := h.after w
  rw [hrun] at hw
  exact hw

theorem prepares_get {next : World → Job α} (h : ∀ w, T w (worldAfter ((next w).run w))) :
    Prepares T (get >>= next) := ⟨h⟩

variable [Preparing T]

theorem prepares_pure (a : α) : Prepares T (pure a : Job α) := ⟨Preparing.refl⟩

theorem prepares_throw (e : Failure) : Prepares T (throw e : Job α) := ⟨Preparing.refl⟩

theorem prepares_ofExcept (result : Except Failure α) :
    Prepares T (MonadExcept.ofExcept result : Job α) := by
  cases result <;> exact ⟨Preparing.refl⟩

theorem prepares_note (severity : Severity) (source : Source) (message : Text) :
    Prepares T (note severity source message) :=
  ⟨Preparing.note severity source message⟩

theorem Prepares.bind {job : Job α} {next : α → Job β} (h : Prepares T job)
    (hnext : ∀ a, Prepares T (next a)) : Prepares T (job >>= next) := by
  refine ⟨fun w => ?_⟩
  have hw := h.after w
  rw [EStateM.run_bind]
  cases hj : job.run w with
  | ok a u =>
    rw [hj] at hw
    exact Preparing.trans hw ((hnext a).after u)
  | error e u =>
    rw [hj] at hw
    exact hw

theorem Prepares.tryCatch {job : Job α} {handler : Failure → Job α} (h : Prepares T job)
    (hhandler : ∀ e, Prepares T (handler e)) : Prepares T (tryCatch job handler) := by
  refine ⟨fun w => ?_⟩
  have hw := h.after w
  rw [run_tryCatch]
  cases hj : job.run w with
  | ok a u =>
    rw [hj] at hw
    exact hw
  | error e u =>
    rw [hj] at hw
    exact Preparing.trans hw ((hhandler e).after u)

/-! ## Settings -/

namespace Settings

theorem prepares_refuse (message : Text) : Prepares T (refuse message : Job α) :=
  (prepares_note ..).bind fun _ => prepares_throw _

theorem prepares_readFile (path : Text) : Prepares T (readFile path) := by
  refine prepares_get fun w => ?_
  split
  · exact (prepares_refuse _).after w
  · exact Preparing.refl w
  · split
    · exact Preparing.refl w
    · split
      · exact (prepares_refuse _).after w
      · exact Preparing.refl w
    · exact Preparing.refl w

theorem prepares_readSettings (path : Text) (asked : Bool) :
    Prepares T (readSettings path asked) := by
  refine prepares_get fun w => ?_
  split
  · exact Preparing.refl w
  · refine ((prepares_readFile path).bind fun v => ?_).after w
    split
    · exact prepares_pure _
    · split
      · exact prepares_pure _
      · exact prepares_refuse _
  · cases asked with
    | true => exact (prepares_refuse _).after w
    | false => exact ((prepares_note ..).bind fun _ => prepares_pure _).after w

theorem prepares_checkSections (path : Text) (settings : Entries) (names : List Text) :
    Prepares T (checkSections path settings names) := by
  induction names with
  | nil => exact prepares_pure ()
  | cons name names ih =>
    rw [checkSections]
    split
    · exact ih
    · exact prepares_refuse _

theorem prepares_resolveAt (root : Text) (way rest : List Text) (settings : Entries) :
    Prepares T (resolveAt root way rest settings) := by
  induction rest generalizing settings with
  | nil => exact prepares_throw _
  | cons key rest ih =>
    cases rest with
    | nil =>
      rw [resolveAt]
      refine prepares_get fun w => ?_
      split
      · exact Preparing.refl w
      · exact Preparing.refl w
      · exact ((prepares_note ..).bind fun _ => prepares_pure _).after w
    | cons next rest =>
      rw [resolveAt]
      split
      · exact (ih _).bind fun inner => prepares_pure _
      · exact (prepares_note ..).bind fun _ => prepares_pure _
      · simp

theorem prepares_load (root : Text) (file : Option Text) : Prepares T (load root file) := by
  rw [load_eq]
  refine (prepares_note ..).bind fun _ => (prepares_readSettings ..).bind fun loaded => ?_
  refine (prepares_checkSections ..).bind fun _ => (prepares_resolveAt ..).bind fun first => ?_
  exact (prepares_resolveAt ..).bind fun second => (prepares_note ..).bind fun _ => prepares_pure _

theorem prepares_putItem (settings : Entries) (name key : Text) (v? : Option Value) :
    Prepares T (putItem settings name key v?) := by
  cases v? with
  | none => exact prepares_pure settings
  | some v => exact prepares_ofExcept _

theorem prepares_override (root : Text) (o : Arguments.Options) (settings : Entries) :
    Prepares T (override root o settings) := by
  rw [override]
  refine Prepares.bind ?_ fun buildFile => ?_
  · rw [findBuildLog]
    split
    · exact prepares_get fun w => ((prepares_ofExcept _).bind fun real => prepares_pure _).after w
    · exact prepares_ofExcept _
  · refine (prepares_putItem ..).bind fun _ => (prepares_putItem ..).bind fun _ => ?_
    exact (prepares_putItem ..).bind fun _ => prepares_putItem ..

end Settings

/-! ## Directories and the journal -/

namespace Files

theorem prepares_makeOne (path : PlainPath) : Prepares T (makeOne path) := by
  refine prepares_get fun w => ?_
  split
  · next hmake => exact Preparing.makeDirectory hmake
  · exact Preparing.refl w
  · refine (prepares_get fun w => ?_).after w
    split <;> exact Preparing.refl w
  · exact Preparing.refl w

theorem prepares_makeAllWithin (levels : Nat) (path : PlainPath) :
    Prepares T (makeAllWithin levels path) := by
  induction levels generalizing path with
  | zero => exact prepares_makeOne path
  | succ levels ih =>
    rw [makeAllWithin]
    refine (prepares_makeOne path).tryCatch fun e => ?_
    split
    · exact (ih path.parent).bind fun _ => prepares_makeOne path
    · exact prepares_throw e

end Files

theorem Settings.prepares_ensureDirectories (settings : Entries) :
    Prepares T (ensureDirectories settings) := by
  rw [ensureDirectories]
  simp only
  split
  · exact prepares_pure ()
  · split
    · refine Prepares.tryCatch ((Files.prepares_makeAllWithin ..).bind fun _ =>
        prepares_note ..) fun e => ?_
      split
      · exact prepares_note ..
      · exact prepares_throw _
    · exact prepares_throw _

namespace Journal

theorem prepares_fileHandlers (path : Text) (format : Value) :
    Prepares T (fileHandlers path format) := by
  refine prepares_get fun w => ?_
  dsimp only
  split
  · exact Preparing.stream ..
  · exact Preparing.refl w
  · next content tree hopen =>
    refine Preparing.trans (Preparing.openForWriting hopen) ?_
    exact ((prepares_ofExcept _).bind fun format => prepares_pure _).after _

theorem prepares_openHandlers (wishes : Wishes) : Prepares T (openHandlers wishes) := by
  refine (prepares_ofExcept _).bind fun visible => Prepares.bind ?_ fun _ => prepares_pure _
  rw [openLog]
  split
  · exact prepares_pure []
  · split
    · exact prepares_fileHandlers ..
    · exact prepares_throw _

end Journal

end Prepares

/-! ## Beginning -/

/-- A world that was prepared: nothing was shown, no answer was taken, and its tree is still
sound. -/
structure World.Readied (w v : World) : Prop where
  unheard : Unheard w v
  sound : w.tree.Sound → v.tree.Sound

instance : Preparing World.Readied where
  refl w := ⟨.refl w, id⟩
  trans h h' := ⟨h.unheard.trans h'.unheard, h'.sound ∘ h.sound⟩
  note severity source message w :=
    ⟨World.unheard_note .., (World.kept_note severity source message w).tree.sound⟩
  stream _ _ := ⟨⟨rfl, rfl, rfl⟩, id⟩
  makeDirectory h := ⟨⟨rfl, rfl, rfl⟩, fun hs => hs.makeDirectory h⟩
  openForWriting h := ⟨⟨rfl, rfl, rfl⟩, fun hs => hs.openForWriting h⟩

/-- A world that has grown: its handlers are the same, and so are the contents that
none of them appends to. -/
structure World.Grown (w v : World) : Prop where
  handlers : v.journal.handlers = w.journal.handlers
  length : w.tree.contents.length ≤ v.tree.contents.length
  contents : ∀ n < w.tree.contents.length, n ∉ w.journal.sinks →
    v.tree.content? n = w.tree.content? n

theorem World.Grown.sinks {w v : World} (h : Grown w v) : v.journal.sinks = w.journal.sinks := by
  rw [Journal.sinks, Journal.sinks, h.handlers]

theorem World.Kept.grown {w v : World} (h : Kept w v) : Grown w v :=
  ⟨h.handlers, h.tree.length.ge, fun n _ hn => h.tree.contents n hn⟩

instance : Preparing World.Grown where
  refl _ := ⟨rfl, le_refl _, fun _ _ _ => rfl⟩
  trans h h' := by
    refine ⟨h'.handlers.trans h.handlers, h.length.trans h'.length, fun n hlt hn => ?_⟩
    rw [h'.contents n (hlt.trans_le h.length) (h.sinks ▸ hn), h.contents n hlt hn]
  note severity source message w := (World.kept_note severity source message w).grown
  stream _ _ := ⟨rfl, le_refl _, fun _ _ _ => rfl⟩
  makeDirectory h := by
    obtain ⟨_, _, _, rfl⟩ := FileTree.of_makeDirectory h
    exact ⟨rfl, le_refl _, fun _ _ _ => rfl⟩
  openForWriting h := by
    obtain ⟨_, _, rfl⟩ | ⟨_, _, _, _, rfl⟩ := FileTree.of_openForWriting h
    · exact ⟨rfl, le_refl _, fun _ _ _ => rfl⟩
    · refine ⟨rfl, (Nat.le_succ _).trans_eq (FileTree.length_addContent _).symm, fun n hlt _ => ?_⟩
      exact List.getElem?_append_left hlt

namespace Command

open Settings

variable {o : Arguments.Options} {c : Nat} {w w' : World}

theorem prepares_settings {T : World → World → Prop} [Preparing T] (o : Arguments.Options) :
    Prepares T (Command.settings o) :=
  prepares_get fun w => ((prepares_load ..).bind fun _ => prepares_override ..).after w

/-- A beginning shows nothing, takes no answer and keeps a tree sound. -/
theorem prepares_begin (o : Arguments.Options) : Prepares World.Readied (begin o) := by
  have hadjust : ∀ change : Journal → Journal, Prepares World.Readied
      (modify fun w => { w with journal := change w.journal } : Job Unit) :=
    fun change => ⟨fun w => ⟨⟨rfl, rfl, rfl⟩, id⟩⟩
  refine (prepares_settings o).bind fun settings =>
    (prepares_ensureDirectories settings).bind fun _ =>
    Prepares.bind ?_ fun _ => (prepares_note ..).bind fun _ => prepares_pure settings
  rw [Journal.setUp_eq]
  refine (prepares_ofExcept _).bind fun wishes =>
    (Journal.prepares_openHandlers wishes).bind fun handlers => ?_
  refine (hadjust fun journal => { journal with handlers }).bind fun _ => ?_
  refine (prepares_ofExcept _).bind fun threshold => ?_
  exact (hadjust fun journal => { journal with threshold }).bind fun _ => prepares_note ..

/-- Once the handlers are in charge, nothing changes but what they append to. -/
theorem grown_of_adjust {wishes : Journal.Wishes} {handlers : List Handler}
    {u : World} (h : (Journal.adjust wishes handlers).run w = .ok () u) :
    World.Grown { w with journal := { w.journal with handlers } } u := by
  obtain ⟨_, _, hhandlers, h⟩ := run_bind_eq_ok.1 h
  cases hhandlers
  obtain ⟨threshold, _, hthreshold, h⟩ := run_bind_eq_ok.1 h
  cases hlevel : Journal.thresholdOf wishes.level with
  | error e =>
    rw [hlevel] at hthreshold
    cases hthreshold
  | ok threshold' =>
    rw [hlevel] at hthreshold
    cases hthreshold
    cases h
    have hset : World.Grown { w with journal := { w.journal with handlers } }
        { w with journal := { w.journal with handlers, threshold } } :=
      ⟨rfl, le_refl _, fun _ _ _ => rfl⟩
    exact Preparing.trans hset (World.kept_note ..).grown

/-- A beginning leaves every content as it was that records do not go to. -/
theorem content?_of_begin (hw : w.journal.sinks = []) {settings : Entries} {u : World}
    (h : (begin o).run w = .ok settings u) {n : Nat} (hlt : n < w.tree.contents.length)
    (hn : n ∉ u.journal.sinks) : u.tree.content? n = w.tree.content? n := by
  obtain ⟨_, v, hsettings, h⟩ := run_bind_eq_ok.1 h
  obtain ⟨_, x, hdirectories, h⟩ := run_bind_eq_ok.1 h
  obtain ⟨_, z, hjournal, h⟩ := run_bind_eq_ok.1 h
  cases h
  rw [Journal.setUp_eq] at hjournal
  obtain ⟨wishes, x', hwishes, hjournal⟩ := run_bind_eq_ok.1 hjournal
  obtain ⟨handlers, y, hopen, hadjust⟩ := run_bind_eq_ok.1 hjournal
  have hv := (prepares_settings o : Prepares World.Grown _).of_ok hsettings
  have hx := (prepares_ensureDirectories _ : Prepares World.Grown _).of_ok hdirectories
  have hx' := (prepares_ofExcept _ : Prepares World.Grown _).of_ok hwishes
  have hy := (Journal.prepares_openHandlers wishes : Prepares World.Grown _).of_ok hopen
  have hbefore : World.Grown w y := Preparing.trans hv (Preparing.trans hx (Preparing.trans hx' hy))
  have hafter : World.Grown { y with journal := { y.journal with handlers } } _ :=
    Preparing.trans (grown_of_adjust hadjust)
      (World.kept_note .info .entry "--- Starting Import Fixer ---" z).grown
  rw [hafter.contents n (hlt.trans_le hbefore.length) (hafter.sinks ▸ hn),
    ← hbefore.contents n hlt (by simp [hw])]

theorem run_settings (o : Arguments.Options) (w : World) : (Command.settings o).run w =
    (load w.tree.working.path (settingsFile o) >>= override w.tree.working.path o).run w := by
  rw [Command.settings, EStateM.run_bind, EStateM.run_get]

/-- Commands with settings files that differ in nothing but the console that they ask for begin
alike. -/
theorem endAlike_begin {kind kind' : Text} (hw : w.Beside c w') (hunlogged : w.journal.sinks = [])
    {loaded loaded' : Entries}
    (hgives : Gives w.tree (fileIn w.tree.working.path (settingsFile o))
      (settingsFile o).isSome loaded)
    (hgives' : Gives w'.tree (fileIn w.tree.working.path (settingsFile o))
      (settingsFile o).isSome loaded')
    (h : Variants kind kind' loaded loaded') :
    EndAlike (World.Beside c) (Variants kind kind') ((begin o).run w) ((begin o).run w') := by
  have hsettings : EndAlike (World.Beside c) (Variants kind kind') ((Command.settings o).run w)
      ((Command.settings o).run w') := by
    have hroot : w'.tree.working.path = w.tree.working.path := by rw [hw.logged.working]
    rw [run_settings, run_settings, hroot]
    exact (endAlike_load hw hunlogged hgives hgives' h).bind fun _ _ _ _ _ hab hv =>
      (echoes_override hab _ o).endAlike hv
  refine hsettings.bind fun settings settings' v v' hv hab hw => ?_
  have hsectioned := isSectioned_of_settings hv
  rw [ensureDirectories_congr hab, Journal.setUp_congr hab hsectioned]
  refine ((echoes_ensureDirectories settings).bind_eq fun _ => ?_).endAlike hw
  exact (Journal.echoes_setUp _).bind_eq fun _ => (echoes_note ..).bind_eq fun _ => echoes_pure hab

end Command

end ImportRepair
