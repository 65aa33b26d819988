import ImportRepair.Proofs.Files.Bytes
import ImportRepair.Proofs.Silence

/-!
# Worlds side by side

Two worlds stand side by side if they are the same but for the bytes of one content and for the
console. A job echoes another one if both end alike from worlds side by side: with related results
or the same failure, in worlds side by side. Records echo themselves, since nothing but the journal
decides what is recorded, and so do jobs that do not look at the bytes of files.

Results:
* `Echoes.bind`: echoes one after the other.
* `echoes_note`, `Files.echoes_replace`: records, and replacing a file.
-/

namespace ImportRepair

/-! ## Worlds -/

namespace World

variable {c : Nat} {w w' : World}

/-- Two worlds that are the same but for the bytes of a content and for the console. -/
structure Beside (c : Nat) (w w' : World) : Prop where
  tree : ∃ bytes, w'.tree = w.tree.withBytes c bytes
  old : c < w.tree.contents.length
  mishaps : w'.mishaps = w.mishaps
  journal : w'.journal = w.journal
  screen : w'.screen = w.screen
  answers : w'.answers = w.answers

/-- Worlds stay side by side if their trees are changed alike. -/
theorem Beside.withTree (h : Beside c w w') {tree : FileTree} (hold : c < tree.contents.length)
    (bytes : List UInt8) : Beside c { w with tree } { w' with tree := tree.withBytes c bytes } :=
  ⟨⟨bytes, rfl⟩, hold, h.mishaps, h.journal, h.screen, h.answers⟩

/-- Worlds stay side by side if their journals are changed alike. -/
theorem Beside.withJournal (h : Beside c w w') (journal : Journal) :
    Beside c { w with journal } { w' with journal } :=
  ⟨h.tree, h.old, h.mishaps, rfl, h.screen, h.answers⟩

/-- Consoles do not matter. -/
theorem Beside.withConsole (h : Beside c w w') (console console' : Option Console.Session) :
    Beside c { w with console } { w' with console := console' } :=
  ⟨h.tree, h.old, h.mishaps, h.journal, h.screen, h.answers⟩

theorem Beside.handle (h : Beside c w w') (r : Record) (handler : Handler) :
    Beside c (handle r w handler) (handle r w' handler) := by
  have hline : w'.journal.line? r handler = w.journal.line? r handler := by rw [h.journal]
  unfold World.handle
  rw [hline]
  cases w.journal.line? r handler with
  | none => exact h
  | some line =>
    cases handler.sink with
    | drawn =>
      simp only [h.journal]
      exact h.withJournal _
    | stream =>
      simp only [h.journal]
      exact h.withJournal _
    | file n =>
      simp only
      cases Utf8.encode line with
      | error e => exact h
      | ok added =>
        obtain ⟨bytes, ht⟩ := h.tree
        obtain ⟨bytes', hmodify⟩ :=
          @FileTree.modifyBytes_withBytes w.tree c bytes n (· ++ added)
        simp only [ht, hmodify]
        refine h.withTree ?_ bytes'
        rw [FileTree.length_modifyContent]
        exact h.old

theorem Beside.handleAll (h : Beside c w w') (r : Record) (handlers : List Handler) :
    Beside c (handlers.foldl (World.handle r) w) (handlers.foldl (World.handle r) w') := by
  induction handlers generalizing w w' with
  | nil => exact h
  | cons handler handlers ih => exact ih (h.handle r handler)

theorem Beside.note (h : Beside c w w') (severity : Severity) (source : Source) (message : Text) :
    Beside c (w.note severity source message) (w'.note severity source message) := by
  unfold World.note
  rw [h.journal]
  split
  · exact h
  · exact (h.withJournal { w.journal with
      records := w.journal.records ++ [⟨severity, source, message⟩] }).handleAll _
        w.journal.handlers

end World

/-! ## Jobs -/

variable {α β γ δ : Type} {T : World → World → Prop} {R : α → β → Prop} {S : γ → δ → Prop} {c : Nat}

/-- Two jobs have ended alike: with related results or the same failure, in related worlds. -/
inductive EndAlike (T : World → World → Prop) (R : α → β → Prop) :
    EStateM.Result Failure World α → EStateM.Result Failure World β → Prop
  | returned {a b v v'} : R a b → T v v' → EndAlike T R (.ok a v) (.ok b v')
  | failed {e v v'} : T v v' → EndAlike T R (.error e v) (.error e v')

/-- Two jobs end alike from worlds side by side. -/
structure Echoes (c : Nat) (R : α → β → Prop) (job : Job α) (job' : Job β) : Prop where
  endAlike : ∀ {w w'}, World.Beside c w w' → EndAlike (World.Beside c) R (job.run w) (job'.run w')

theorem echoes_pure {a : α} {b : β} (h : R a b) : Echoes c R (pure a) (pure b) :=
  ⟨fun hw => .returned h hw⟩

theorem echoes_throw (e : Failure) : Echoes c R (throw e) (throw e) := ⟨fun hw => .failed hw⟩

/-- Jobs that have ended alike go on alike. -/
theorem EndAlike.bind {job : Job α} {job' : Job β} {next : α → Job γ} {next' : β → Job δ}
    {w w' : World} (h : EndAlike T R (job.run w) (job'.run w'))
    (hnext : ∀ a b v v', job.run w = .ok a v → R a b → T v v' →
      EndAlike T S ((next a).run v) ((next' b).run v')) :
    EndAlike T S ((job >>= next).run w) ((job' >>= next').run w') := by
  rw [EStateM.run_bind, EStateM.run_bind]
  generalize hj : job.run w = r at h hnext
  generalize job'.run w' = r' at h
  cases h with
  | returned hab hv => exact hnext _ _ _ _ rfl hab hv
  | failed hv => exact .failed hv

theorem Echoes.bind {job : Job α} {job' : Job β} {next : α → Job γ} {next' : β → Job δ}
    (h : Echoes c R job job') (hnext : ∀ a b, R a b → Echoes c S (next a) (next' b)) :
    Echoes c S (job >>= next) (job' >>= next') :=
  ⟨fun hw => (h.endAlike hw).bind fun a b _ _ _ hab hv => (hnext a b hab).endAlike hv⟩

/-- Jobs with the same result go on with it. -/
theorem Echoes.bind_eq {job job' : Job α} {next : α → Job γ} {next' : α → Job δ}
    (h : Echoes c Eq job job') (hnext : ∀ a, Echoes c S (next a) (next' a)) :
    Echoes c S (job >>= next) (job' >>= next') :=
  h.bind fun a _ hab => hab ▸ hnext a

/-- Jobs that ask for the world first. -/
theorem echoes_get {next : World → Job γ} {next' : World → Job δ}
    (h : ∀ w w', World.Beside c w w' →
      EndAlike (World.Beside c) S ((next w).run w) ((next' w').run w')) :
    Echoes c S (get >>= next) (get >>= next') := by
  refine ⟨fun {w w'} hw => ?_⟩
  rw [EStateM.run_bind, EStateM.run_get, EStateM.run_bind, EStateM.run_get]
  exact h w w' hw

theorem echoes_modify {change change' : World → World}
    (h : ∀ w w', World.Beside c w w' → World.Beside c (change w) (change' w')) :
    Echoes c Eq (modify change : Job Unit) (modify change' : Job Unit) :=
  ⟨fun hw => .returned rfl (h _ _ hw)⟩

theorem echoes_note (severity : Severity) (source : Source) (message : Text) :
    Echoes c Eq (note severity source message) (note severity source message) :=
  echoes_modify fun _ _ hw => hw.note severity source message

/-- Recording a failure and failing. -/
theorem echoes_fail (severity : Severity) (source : Source) (message : Text) (e : Failure) :
    Echoes c R (do note severity source message; throw e)
      (do note severity source message; throw e) :=
  (echoes_note ..).bind_eq fun _ => echoes_throw e

/-! ## Replacing files -/

namespace FileTree

variable {tree tree' : FileTree} {n : Nat} {p : Place}

theorem le_of_openForWriting {path : Text} (h : tree.openForWriting path = .ok (n, tree')) :
    tree.contents.length ≤ tree'.contents.length := by
  obtain ⟨_, _, rfl⟩ | ⟨d, name, _, _, rfl⟩ := of_openForWriting h
  · exact le_refl _
  · exact (Nat.le_succ _).trans_eq (length_addContent _).symm

theorem of_createTemporary {target : PlainPath} {data : List UInt8}
    (h : tree.createTemporary target data = .ok (p, n, tree')) :
    n = tree.contents.length ∧ tree'.contents.length = tree.contents.length + 1 := by
  obtain ⟨_, rfl, rfl⟩ := eq_addTemporary_of_createTemporary h
  exact ⟨rfl, List.length_append⟩

theorem length_of_commit {mishaps : Mishaps} {target : PlainPath}
    (h : tree.commit mishaps p n target = .ok tree') :
    tree'.contents.length = tree.contents.length := by
  unfold commit at h
  simp only at h
  split at h
  · cases h
  · split at h
    · cases h
    · split at h
      · cases h
      · cases h
        exact length_modifyContent ..
      · cases h
      · cases h
        exact length_modifyContent ..

end FileTree

namespace Files

theorem echoes_overwrite (path : Text) (data : List UInt8) :
    Echoes c Eq (overwrite path data) (overwrite path data) := by
  refine echoes_get fun w w' hw => ?_
  obtain ⟨bytes, ht⟩ := hw.tree
  rw [ht, FileTree.openForWriting_withBytes hw.old]
  cases hopen : w.tree.openForWriting path with
  | error e => exact (echoes_fail ..).endAlike hw
  | ok opened =>
    obtain ⟨n, tree⟩ := opened
    have hle := FileTree.le_of_openForWriting hopen
    obtain ⟨bytes', hmodify⟩ :=
      @FileTree.modifyBytes_withBytes tree c bytes n fun _ => data
    refine .returned rfl ?_
    show World.Beside c (withTree w (tree.modifyContent n _))
      (withTree w' ((tree.withBytes c bytes).modifyContent n _))
    rw [hmodify]
    refine hw.withTree ?_ bytes'
    rw [FileTree.length_modifyContent]
    exact hw.old.trans_le hle

theorem echoes_cleanUp (vanishing : Bool) (path : Text) (temporary : Place) {n : Nat} (hn : c < n)
    (e : OsError) :
    Echoes c Eq (cleanUp vanishing path temporary n e) (cleanUp vanishing path temporary n e) := by
  have hdiscard : Echoes c Eq
      (modify fun w => { w with tree := w.tree.discard temporary n } : Job Unit)
      (modify fun w => { w with tree := w.tree.discard temporary n } : Job Unit) := by
    refine echoes_modify fun w w' hw => ?_
    obtain ⟨bytes, ht⟩ := hw.tree
    rw [ht, FileTree.discard_withBytes]
    exact hw.withTree ((lt_min hn hw.old).trans_eq List.length_take.symm) bytes
  cases vanishing with
  | true => exact hdiscard.bind_eq fun _ => (echoes_note ..).bind_eq fun _ =>
      hdiscard.bind_eq fun _ => echoes_throw _
  | false => exact (echoes_note ..).bind_eq fun _ => hdiscard.bind_eq fun _ => echoes_throw _

theorem echoes_rename (path : Text) (temporary : Place) {n : Nat} (hn : c < n)
    (target : PlainPath) :
    Echoes c Eq (rename path temporary n target) (rename path temporary n target) := by
  refine echoes_get fun w w' hw => ?_
  obtain ⟨bytes, ht⟩ := hw.tree
  have hcommit' : w'.tree.commit w'.mishaps temporary n target =
      (w.tree.commit w.mishaps temporary n target).map (FileTree.withBytes c bytes) := by
    rw [ht, hw.mishaps, FileTree.commit_withBytes]
  rw [hcommit']
  cases hcommit : w.tree.commit w.mishaps temporary n target with
  | error e =>
    have hclean := (echoes_cleanUp w.mishaps.vanishing path temporary hn e).endAlike hw
    rw [← hw.mishaps] at hclean ⊢
    exact hclean
  | ok tree =>
    exact .returned rfl
      (hw.withTree (hw.old.trans_eq (FileTree.length_of_commit hcommit).symm) bytes)

/-- Replacing a file does not look at the bytes that it has. -/
theorem echoes_replace (path : Text) (data : List UInt8) :
    Echoes c Eq (replace path data) (replace path data) := by
  refine ⟨fun {w w'} hw => ?_⟩
  obtain ⟨bytes, ht⟩ := hw.tree
  have hmishaps := hw.mishaps
  have hreal' : w'.tree.realPath path = w.tree.realPath path := by
    rw [ht, FileTree.logged_withBytes.realPath]
  cases hi : w.mishaps.irreplaceable.lookup path with
  | some reason =>
    rw [replace, EStateM.run_bind, EStateM.run_get, EStateM.run_bind, EStateM.run_get]
    simp only [hmishaps, hi]
    exact .failed hw
  | none =>
    cases hreal : w.tree.realPath path with
    | error e =>
      rw [replace, EStateM.run_bind, EStateM.run_get, EStateM.run_bind, EStateM.run_get]
      simp only [hmishaps, hi, hreal', hreal]
      exact .failed hw
    | ok target =>
      cases hnone : w.mishaps.noTemporary with
      | true =>
        rw [replace, EStateM.run_bind, EStateM.run_get, EStateM.run_bind, EStateM.run_get]
        simp only [hmishaps, hi, hreal', hreal, hnone]
        exact ((echoes_note ..).bind_eq fun _ => echoes_overwrite target.display data).endAlike hw
      | false =>
        rw [hreal] at hreal'
        have hcreate' := @FileTree.createTemporary_withBytes w.tree c bytes hw.old target data
        rw [← ht] at hcreate'
        cases hcreate : w.tree.createTemporary target data with
        | error e =>
          rw [hcreate] at hcreate'
          rw [run_replace_of_uncreated hi hnone hreal hcreate,
            run_replace_of_uncreated (hmishaps ▸ hi) (hmishaps ▸ hnone) hreal' hcreate']
          exact .failed hw
        | ok made =>
          obtain ⟨temporary, n, tree⟩ := made
          obtain ⟨rfl, hlength⟩ := FileTree.of_createTemporary hcreate
          rw [hcreate] at hcreate'
          rw [run_replace_of_created hi hnone hreal hcreate,
            run_replace_of_created (hmishaps ▸ hi) (hmishaps ▸ hnone) hreal' hcreate']
          have hlt : c < tree.contents.length :=
            (hw.old.trans_le (Nat.le_add_right ..)).trans_eq hlength.symm
          exact (echoes_rename path temporary hw.old target).endAlike (hw.withTree hlt bytes)

end Files

end ImportRepair
