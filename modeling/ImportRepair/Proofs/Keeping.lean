import ImportRepair.Proofs.Files.Rewriting

/-!
# What jobs leave alone

A record changes the journal, and the files that handlers append to. A request to the
console changes the console. Nothing else of the world changes, and without handlers that
write to files no file does.

Results:
* `World.kept_note`, `World.kept_present`: records and requests leave the rest of the world alone.
* `World.Obliging.display`: a console that refuses nothing lets a job go on.
-/

namespace ImportRepair

/-! ## Jobs -/

theorem run_bind_of_ok {α β : Type} {job : Job α} {next : α → Job β} {w v : World} {a : α}
    (h : job.run w = .ok a v) : (job >>= next).run w = (next a).run v := by
  rw [EStateM.run_bind, h]

theorem run_bind_of_error {α β : Type} {job : Job α} {next : α → Job β} {w v : World} {e : Failure}
    (h : job.run w = .error e v) : (job >>= next).run w = .error e v := by
  rw [EStateM.run_bind, h]

/-- A job that goes on after another one returns only if the first one does. -/
theorem run_bind_eq_ok {α β : Type} {job : Job α} {next : α → Job β} {w v : World} {b : β} :
    (job >>= next).run w = .ok b v ↔ ∃ a u, job.run w = .ok a u ∧ (next a).run u = .ok b v := by
  rw [EStateM.run_bind]
  cases hj : job.run w with
  | ok a u =>
    simp only
    constructor
    · intro h
      exact ⟨a, u, rfl, h⟩
    · rintro ⟨a', u', hu, h⟩
      cases hu
      exact h
  | error e u =>
    simp

/-- The world that a job leaves, whether it fails or not. -/
def worldAfter {α : Type} : EStateM.Result Failure World α → World
  | .ok _ v => v
  | .error _ v => v

/-- Whether a job returns. -/
def returns {α : Type} : EStateM.Result Failure World α → Bool
  | .ok _ _ => true
  | .error _ _ => false

theorem exists_of_returns {α : Type} {result : EStateM.Result Failure World α}
    (h : returns result = true) :
    ∃ a w, result = .ok a w := by
  cases result with
  | ok a w => exact ⟨a, w, rfl⟩
  | error e w => cases h

/-! ## Trees that logs are appended to -/

/-- The contents that handlers append to. -/
def Journal.sinks (journal : Journal) : List Nat :=
  journal.handlers.filterMap fun handler =>
    match handler.sink with
    | .file c => some c
    | _ => none

namespace FileTree

/-- Two trees are the same but for the bytes of some contents. -/
structure Logged (sinks : List Nat) (a b : FileTree) : Prop where
  working : b.working = a.working
  nodes : b.nodes = a.nodes
  length : b.contents.length = a.contents.length
  contents : ∀ c ∉ sinks, b.content? c = a.content? c

variable {sinks : List Nat} {a b c : FileTree}

theorem Logged.refl (sinks : List Nat) (a : FileTree) : Logged sinks a a :=
  ⟨rfl, rfl, rfl, fun _ _ => rfl⟩

theorem Logged.trans (h : Logged sinks a b) (h' : Logged sinks b c) : Logged sinks a c :=
  ⟨h'.working.trans h.working, h'.nodes.trans h.nodes, h'.length.trans h.length,
    fun n hn => (h'.contents n hn).trans (h.contents n hn)⟩

theorem Logged.symm (h : Logged sinks a b) : Logged sinks b a :=
  ⟨h.working.symm, h.nodes.symm, h.length.symm, fun n hn => (h.contents n hn).symm⟩

theorem Logged.mono {more : List Nat} (h : Logged sinks a b) (hs : sinks ⊆ more) :
    Logged more a b :=
  ⟨h.working, h.nodes, h.length, fun n hn => h.contents n fun hmem => hn (hs hmem)⟩

theorem Logged.modifyContent {n : Nat} (hn : n ∈ sinks) (a : FileTree)
    (change : Content → Content) :
    Logged sinks a (a.modifyContent n change) := by
  refine ⟨rfl, rfl, List.length_modify .., ?_⟩
  intro m hm
  have hne : n ≠ m := fun h => hm (h ▸ hn)
  exact List.getElem?_modify_ne change a.contents hne

/-- Without contents that are appended to, the trees are the same. -/
theorem Logged.eq (h : Logged [] a b) : b = a := by
  have hc : b.contents = a.contents := List.ext_getElem? fun n => h.contents n List.not_mem_nil
  obtain ⟨_, _, _⟩ := a
  obtain ⟨_, _, _⟩ := b
  have hw := h.working
  have hn := h.nodes
  simp only at hw hn hc
  rw [hw, hn, hc]

theorem Logged.node? (h : Logged sinks a b) (p : Place) : b.node? p = a.node? p :=
  node?_congr h.nodes p

theorem Logged.sameShape (h : Logged sinks a b) : SameShape a b :=
  ⟨h.working.symm, fun p => by rw [h.node?]⟩

theorem Logged.sound (h : Logged sinks a b) (hs : a.Sound) : b.Sound where
  working := by
    rw [h.working]
    exact h.sameShape.solid hs.working
  links := h.sameShape.hasCleanLinks hs.links
  contents p n hp := by
    rw [h.node?] at hp
    rw [h.length]
    exact hs.contents p n hp

/-- Overwriting the same file of both trees. -/
theorem Logged.rewritten (h : Logged sinks a b) (p : Place) (data : List UInt8) :
    Logged sinks (a.rewritten true p data) (b.rewritten true p data) := by
  rw [FileTree.rewritten, FileTree.rewritten, h.node?]
  split
  · next n hn =>
    refine ⟨h.working, h.nodes, ?_, ?_⟩
    · rw [if_pos rfl, if_pos rfl]
      show (b.contents.modify n _).length = (a.contents.modify n _).length
      rw [List.length_modify, List.length_modify, h.length]
    · intro m hm
      have hb := h.contents m hm
      rw [content?, content?] at hb
      rw [if_pos rfl, if_pos rfl]
      show (b.contents.modify n _)[m]? = (a.contents.modify n _)[m]?
      rw [List.getElem?_modify, List.getElem?_modify, hb]
  · exact h

/-- Discarding a temporary file that was logged beside. -/
theorem Logged.discard {p : Place} {data : List UInt8} (hp : a.nodes.lookup p = none)
    (h : Logged sinks (a.addTemporary p data).2 b) :
    Logged sinks a (b.discard p a.contents.length) := by
  have hback : (a.addTemporary p data).2.discard p (a.addTemporary p data).1 = a :=
    discard_addTemporary hp
  have hnodes : (b.discard p a.contents.length).nodes = a.nodes := by
    conv_rhs => rw [← hback]
    show b.nodes.filter (fun entry => entry.1 ≠ p) =
      (a.addTemporary p data).2.nodes.filter fun entry => entry.1 ≠ p
    rw [h.nodes]
  have hlen : b.contents.length = a.contents.length + 1 := by
    rw [h.length]
    exact List.length_append
  refine ⟨h.working, hnodes, ?_, ?_⟩
  · show (b.contents.take a.contents.length).length = a.contents.length
    rw [List.length_take, hlen]
    omega
  · intro m hm
    have hc : b.contents[m]? = (a.contents ++ [⟨data, 0o600⟩])[m]? := h.contents m hm
    show (b.contents.take a.contents.length)[m]? = a.contents[m]?
    rw [List.getElem?_take]
    split
    · next hlt => rw [hc, List.getElem?_append_left hlt]
    · next hlt => rw [List.getElem?_eq_none (by omega)]

/-- Discarding a temporary file that is gone already. -/
theorem Logged.discard_absent {p : Place} (hp : a.nodes.lookup p = none) (h : Logged sinks a b) :
    Logged sinks a (b.discard p a.contents.length) := by
  have hb : b.nodes.lookup p = none := by rw [h.nodes, hp]
  rw [← h.length, FileTree.discard_absent hb]
  exact h

end FileTree

/-! ## Worlds -/

namespace World

/-- A world after records were made and requests were shown. -/
structure Kept (w v : World) : Prop where
  tree : FileTree.Logged w.journal.sinks w.tree v.tree
  mishaps : v.mishaps = w.mishaps
  handlers : v.journal.handlers = w.journal.handlers
  console : ∃ events, v.console = w.console.map (·.presentAll events)

variable {u v w : World}

theorem Kept.sinks (h : Kept w v) : v.journal.sinks = w.journal.sinks := by
  rw [Journal.sinks, Journal.sinks, h.handlers]

theorem map_presentAll_nil (console : Option Console.Session) :
    console.map (·.presentAll []) = console := by
  cases console <;> rfl

theorem map_presentAll_append (console : Option Console.Session) (es fs : List Console.Event) :
    (console.map (·.presentAll es)).map (·.presentAll fs) =
      console.map (·.presentAll (es ++ fs)) := by
  cases console with
  | none => rfl
  | some session =>
    simp only [Option.map_some]
    rw [Console.Session.presentAll, Console.Session.presentAll, Console.Session.presentAll,
      List.foldl_append]

theorem Kept.refl (w : World) : Kept w w :=
  ⟨.refl .., rfl, rfl, [], (map_presentAll_nil _).symm⟩

theorem Kept.trans (h : Kept w u) (h' : Kept u v) : Kept w v := by
  obtain ⟨events, he⟩ := h.console
  obtain ⟨more, hm⟩ := h'.console
  refine ⟨?_, h'.mishaps.trans h.mishaps, h'.handlers.trans h.handlers, events ++ more, ?_⟩
  · have htree := h'.tree
    rw [h.sinks] at htree
    exact h.tree.trans htree
  · rw [hm, he, map_presentAll_append]

/-- Without handlers that write to files, no file changes. -/
theorem Kept.tree_eq (h : Kept w v) (hw : w.journal.sinks = []) : v.tree = w.tree := by
  have htree := h.tree
  rw [hw] at htree
  exact htree.eq

theorem kept_handle (r : Record) {handler : Handler} (h : handler ∈ w.journal.handlers) :
    Kept w (handle r w handler) := by
  unfold handle
  split
  · exact .refl w
  · split
    · exact ⟨.refl .., rfl, rfl, [], (map_presentAll_nil _).symm⟩
    · exact ⟨.refl .., rfl, rfl, [], (map_presentAll_nil _).symm⟩
    · next c hc =>
      split
      · exact .refl w
      · have hmem : c ∈ w.journal.sinks := List.mem_filterMap.2 ⟨handler, h, by rw [hc]⟩
        exact ⟨.modifyContent hmem .., rfl, rfl, [], (map_presentAll_nil _).symm⟩

theorem kept_handle_all (r : Record) {handlers : List Handler}
    (h : ∀ handler ∈ handlers, handler ∈ w.journal.handlers) :
    Kept w (handlers.foldl (handle r) w) := by
  induction handlers generalizing w with
  | nil => exact .refl w
  | cons handler handlers ih =>
    rw [List.forall_mem_cons] at h
    have hk := kept_handle r h.1
    refine hk.trans (ih fun x hx => ?_)
    rw [hk.handlers]
    exact h.2 x hx

/-- A record changes nothing but the journal and the files that handlers append to. -/
theorem kept_note (severity : Severity) (source : Source) (message : Text) (w : World) :
    Kept w (w.note severity source message) := by
  unfold note
  split
  · exact .refl w
  · have hk : Kept w { w with journal := { w.journal with
        records := w.journal.records ++ [⟨severity, source, message⟩] } } :=
      ⟨.refl .., rfl, rfl, [], (map_presentAll_nil _).symm⟩
    exact hk.trans (kept_handle_all _ fun _ hx => hx)

/-- A request changes nothing but the console. -/
theorem kept_present (e : Console.Event) (w : World) : Kept w (w.present e).2 := by
  unfold present
  simp only
  cases hc : w.console with
  | none =>
    simp only
    exact ⟨.refl .., rfl, rfl, [], by rw [hc]; rfl⟩
  | some session =>
    simp only
    exact ⟨.refl .., rfl, rfl, [e], by rw [hc]; rfl⟩

/-! ## Consoles that refuse nothing -/

/-- Whatever was shown before, the console shows what it is asked to show. -/
def Obliging (w : World) : Prop :=
  ∀ session ∈ w.console, ∀ events e, ((session.presentAll events).present e).1 = none

theorem obliging_of_no_console (h : w.console = none) : Obliging w := by
  intro session hs
  rw [h] at hs
  cases hs

/-- It does not matter what was shown meanwhile. -/
theorem Obliging.of_console (h : Obliging w) {events : List Console.Event}
    (he : v.console = w.console.map (·.presentAll events)) : Obliging v := by
  intro session hs more e
  rw [he, Option.mem_map] at hs
  obtain ⟨before, hb, rfl⟩ := hs
  have hall := h before hb (events ++ more) e
  rw [Console.Session.presentAll, List.foldl_append] at hall
  exact hall

theorem Obliging.kept (h : Obliging w) (hk : Kept w v) : Obliging v := by
  obtain ⟨events, he⟩ := hk.console
  exact h.of_console he

theorem Obliging.display (h : Obliging w) (e : Console.Event) :
    ∃ v, (ImportRepair.display e).run w = .ok () v ∧ Kept w v := by
  refine ⟨(w.present e).2, ?_, kept_present e w⟩
  have hnone : (w.present e).1 = none := by
    unfold present
    cases hc : w.console with
    | none => rfl
    | some session => exact h session hc [] e
  rw [ImportRepair.display, EStateM.run_bind, EStateM.run_modifyGet]
  simp only
  rw [hnone]
  rfl

end World

/-- What is shown is shown, or the job fails. -/
theorem kept_of_display {e : Console.Event} {w v : World} (h : (display e).run w = .ok () v) :
    World.Kept w v := by
  rw [display, EStateM.run_bind, EStateM.run_modifyGet] at h
  simp only at h
  have hk := World.kept_present e w
  cases hf : (w.present e).1 with
  | none =>
    rw [hf] at h
    cases h
    exact hk
  | some failure =>
    rw [hf] at h
    cases h

end ImportRepair
