import ImportRepair.Proofs.Keeping

/-!
# Jobs on files

What the jobs that ask for, read and replace a file come to, once it is known at which place the
path opens a file. A job that fails leaves the files as they were.

Results:
* `Files.isWritable_iff`, `Files.isReadable_iff`: when a file counts as writable, and as readable.
* `Files.run_readLines`, `Files.run_readText`: what is read.
* `Files.run_replace`: a file is replaced unless there is an obstacle.
-/

namespace ImportRepair

/-- The text that reading the file at a place gives, where the path of the file may be one
that fails to be read. -/
def Mishaps.textAt? (mishaps : Mishaps) (tree : FileTree) (path : Text) (p : Place) : Option Text :=
  if (mishaps.unreadable.lookup path).isSome then none else tree.textAt? p

namespace Files

variable {w : World} {path : Text} {p : Place}

/-! ## Questions -/

theorem run_isOpenable (path : Text) (w : World) :
    (isOpenable path).run w =
      match w.tree.isOpenableFile path with
      | .ok b => .ok b w
      | .error e => .error (.file (.system e)) w := by
  rw [isOpenable, EStateM.run_bind, EStateM.run_get]
  simp only
  cases w.tree.isOpenableFile path <;> rfl

theorem run_isWritable_refused (h : w.mishaps.unwritable.contains path = true) :
    (isWritable path).run w = .ok false w := by
  rw [isWritable, EStateM.run_bind, EStateM.run_get]
  simp only [h, if_true]
  rfl

theorem run_isWritable (h : w.mishaps.unwritable.contains path = false) :
    (isWritable path).run w =
      match w.tree.isOpenableFile path with
      | .ok b => .ok b w
      | .error e => .error (.file (.system e)) w := by
  rw [← run_isOpenable, isWritable, EStateM.run_bind, EStateM.run_get]
  simp only [h, Bool.false_eq_true, if_false]

/-- The paths that count as writable: they open a file, and nothing is said against it. -/
theorem isWritable_iff : (isWritable path).run w = .ok true w ↔
    w.mishaps.unwritable.contains path = false ∧ ∃ p, w.tree.opened? path = some p := by
  cases hc : w.mishaps.unwritable.contains path with
  | true =>
    rw [run_isWritable_refused hc]
    simp
  | false =>
    rw [run_isWritable hc]
    constructor
    · intro h
      refine ⟨rfl, FileTree.opened?_of_isOpenableFile ?_⟩
      cases hopen : w.tree.isOpenableFile path with
      | error e => rw [hopen] at h; cases h
      | ok b =>
        rw [hopen] at h
        cases h
        rfl
    · rintro ⟨_, p, hp⟩
      rw [(FileTree.opened?_eq_some hp).1]

/-- The paths that count as readable: they open a file. -/
theorem isReadable_iff :
    (isReadable path).run w = .ok true w ↔ ∃ p, w.tree.opened? path = some p := by
  rw [isReadable, run_isOpenable]
  constructor
  · intro h
    apply FileTree.opened?_of_isOpenableFile
    cases hopen : w.tree.isOpenableFile path with
    | error e => rw [hopen] at h; cases h
    | ok b =>
      rw [hopen] at h
      cases h
      rfl
  · rintro ⟨p, hp⟩
    rw [(FileTree.opened?_eq_some hp).1]

/-! ## Reading -/

theorem run_readLines (path : Text) (w : World) :
    (readLines path).run w =
      match w.tree.readBytes path with
      | .ok bytes => .ok (linesOf bytes) w
      | .error e => .error (.file e) w := by
  rw [readLines, EStateM.run_bind, EStateM.run_get]
  simp only
  cases w.tree.readBytes path <;> rfl

/-- What reading the text of a file comes to, where its bytes can be read. -/
theorem run_readText_of_readBytes {bytes : List UInt8} (hb : w.tree.readBytes path = .ok bytes) :
    match w.mishaps.unreadable.lookup path with
    | some reason => (readText path).run w = .error (.file (.system (.device reason))) w
    | none =>
      match textOf bytes with
      | .ok t => (readText path).run w = .ok t w
      | .error e => ∃ v, (readText path).run w = .error (.file e) v ∧ World.Kept w v := by
  have htext : (w.tree.readBytes path >>= textOf) = textOf bytes := by
    rw [hb]
    rfl
  rw [readText, EStateM.run_bind, EStateM.run_get]
  simp only [htext]
  cases w.mishaps.unreadable.lookup path with
  | some reason => rfl
  | none =>
    cases textOf bytes with
    | ok t => rfl
    | error e => exact ⟨_, rfl, World.kept_note ..⟩

theorem run_readText (hs : w.tree.Sound) (h : w.tree.opened? path = some p) :
    match w.mishaps.textAt? w.tree path p with
    | some t => (readText path).run w = .ok t w
    | none => ∃ e v, (readText path).run w = .error (.file e) v ∧ World.Kept w v ∧
        ((∃ os, e = .system os) ∨ ∃ d, e = .undecodable d) := by
  obtain ⟨bytes, hb, hread⟩ := FileTree.readBytes_of_opened? hs h
  have hrun := run_readText_of_readBytes hread
  rw [textOf] at hrun
  rw [Mishaps.textAt?, FileTree.textAt?, hb, Option.bind_some]
  cases hu : w.mishaps.unreadable.lookup path with
  | some reason =>
    rw [hu] at hrun
    exact ⟨_, w, hrun, .refl w, Or.inl ⟨_, rfl⟩⟩
  | none =>
    rw [hu] at hrun
    simp only [Option.isSome_none, Bool.false_eq_true, if_false]
    cases hd : Utf8.decode bytes with
    | ok t =>
      rw [hd] at hrun
      exact hrun
    | error e =>
      rw [hd] at hrun
      obtain ⟨v, hv, hk⟩ := hrun
      exact ⟨_, v, hv, hk, Or.inr ⟨e, rfl⟩⟩

/-! ## Replacing -/

/-- The world with another tree. -/
abbrev withTree (w : World) (tree : FileTree) : World := { w with tree }

theorem run_overwrite_of_ok {c : Nat} {tree : FileTree}
    (h : w.tree.openForWriting path = .ok (c, tree)) (data : List UInt8) :
    (overwrite path data).run w =
      .ok () (withTree w (tree.modifyContent c fun content => { content with bytes := data })) := by
  rw [overwrite, EStateM.run_bind, EStateM.run_get]
  simp only [h]
  rfl

theorem run_overwrite_of_opened {c : Nat} (h : w.tree.openForWriting path = .ok (c, w.tree))
    (hn : w.tree.node? p = some (.file c)) (data : List UInt8) :
    (overwrite path data).run w = .ok () (withTree w (w.tree.rewritten true p data)) := by
  rw [run_overwrite_of_ok h, FileTree.rewritten, hn]
  rfl

theorem run_overwrite_of_error {e : FileError} (h : w.tree.openForWriting path = .error e)
    (data : List UInt8) :
    ∃ v, (overwrite path data).run w = .error (.file e) v ∧ World.Kept w v := by
  rw [overwrite, EStateM.run_bind, EStateM.run_get]
  simp only [h]
  exact ⟨_, rfl, World.kept_note ..⟩

/-- Overwriting a file in place. -/
theorem run_overwrite {c : Nat} (hp : w.tree.Settled p) (hn : w.tree.node? p = some (.file c))
    (data : List UInt8) :
    if Path.maxPath ≤ Path.byteLength (PlainPath.ofPlace p).display then
      ∃ v, (overwrite (PlainPath.ofPlace p).display data).run w =
        .error (.file (.system (.onPath .nameTooLong (PlainPath.ofPlace p).display))) v ∧
          World.Kept w v
    else
      (overwrite (PlainPath.ofPlace p).display data).run w =
        .ok () (withTree w (w.tree.rewritten true p data)) := by
  have hopen := FileTree.openForWriting_ofPlace hp hn
  split
  · next hlen =>
    rw [if_pos hlen] at hopen
    exact run_overwrite_of_error hopen data
  · next hlen =>
    rw [if_neg hlen] at hopen
    exact run_overwrite_of_opened hopen hn data

theorem run_replace_of_irreplaceable {reason : Text}
    (h : w.mishaps.irreplaceable.lookup path = some reason) (data : List UInt8) :
    (replace path data).run w = .error (.file (.system (.device reason))) w := by
  rw [replace, EStateM.run_bind, EStateM.run_get]
  simp only [h]
  rfl

theorem run_replace_of_no_realPath {e : FileError} (hi : w.mishaps.irreplaceable.lookup path = none)
    (h : w.tree.realPath path = .error e) (data : List UInt8) :
    (replace path data).run w = .error (.file e) w := by
  rw [replace, EStateM.run_bind, EStateM.run_get]
  simp only [hi, h]
  rfl

/-- Without temporary files, there is a record, and the file is overwritten in the world after
it. -/
theorem run_replace_of_noTemporary {target : PlainPath}
    (hi : w.mishaps.irreplaceable.lookup path = none) (ht : w.mishaps.noTemporary = true)
    (hreal : w.tree.realPath path = .ok target) (data : List UInt8) :
    ∃ u, World.Kept w u ∧ (replace path data).run w = (overwrite target.display data).run u := by
  refine ⟨w.note .debug .files ("Cannot create a temporary file next to " ++ target.display ++
    " (directory not writable); writing in place"), World.kept_note .., ?_⟩
  rw [replace, EStateM.run_bind, EStateM.run_get]
  simp only [hi, hreal, ht, if_true]
  rfl

/-- Without temporary files, a file is overwritten in place. -/
theorem run_replace_inPlace (hs : w.tree.Sound) (h : w.tree.opened? path = some p)
    (hi : w.mishaps.irreplaceable.lookup path = none) (ht : w.mishaps.noTemporary = true)
    (data : List UInt8) :
    if Path.maxPath ≤ Path.byteLength (PlainPath.ofPlace p).display then
      ∃ v, (replace path data).run w =
        .error (.file (.system (.onPath .nameTooLong (PlainPath.ofPlace p).display))) v ∧
          World.Kept w v
    else
      ∃ v, (replace path data).run w = .ok () v ∧
        World.Kept (withTree w (w.tree.rewritten true p data)) v := by
  obtain ⟨hp, c, hn, _⟩ := FileTree.settled_of_opened? hs h
  obtain ⟨u, hk, hrun⟩ := run_replace_of_noTemporary hi ht (FileTree.realPath_of_opened? hs h) data
  have hover := run_overwrite (hk.tree.sameShape.settled hp) ((hk.tree.node? p).trans hn) data
  rw [hrun]
  split
  · next hlen =>
    rw [if_pos hlen] at hover
    obtain ⟨v, hv, hkv⟩ := hover
    exact ⟨v, hv, hk.trans hkv⟩
  · next hlen =>
    rw [if_neg hlen] at hover
    exact ⟨_, hover, hk.tree.rewritten p data, hk.mishaps, hk.handlers, hk.console⟩

/-- Whether the temporary file is still there or not, nothing of it is left. -/
theorem run_cleanUp (path : Text) {temporary : Place} (hfree : w.tree.nodes.lookup temporary = none)
    (vanishing : Bool) (data : List UInt8) (e : OsError) :
    ∃ v, (cleanUp vanishing path temporary w.tree.contents.length e).run
        (withTree w (w.tree.addTemporary temporary data).2) = .error (.file (.system e)) v ∧
      World.Kept w v := by
  cases vanishing with
  | true =>
    have hback : withTree w ((w.tree.addTemporary temporary data).2.discard temporary
        w.tree.contents.length) = w := by
      show withTree w ((w.tree.addTemporary temporary data).2.discard temporary
        (w.tree.addTemporary temporary data).1) = w
      rw [FileTree.discard_addTemporary hfree]
    obtain ⟨u, hu⟩ : ∃ u, u = (withTree w ((w.tree.addTemporary temporary data).2.discard temporary
      w.tree.contents.length)).note .error .files
        ("Error writing file " ++ path ++ ": " ++ e.message) := ⟨_, rfl⟩
    have hk : World.Kept w u := by
      rw [hu, hback]
      exact World.kept_note ..
    refine ⟨withTree u (u.tree.discard temporary w.tree.contents.length), ?_,
      hk.tree.discard_absent hfree, hk.mishaps, hk.handlers, hk.console⟩
    rw [hu]
    rfl
  | false =>
    obtain ⟨u, hu⟩ : ∃ u, u = (withTree w (w.tree.addTemporary temporary data).2).note .error .files
      ("Error writing file " ++ path ++ ": " ++ e.message) := ⟨_, rfl⟩
    have hk : World.Kept (withTree w (w.tree.addTemporary temporary data).2) u :=
      hu ▸ World.kept_note ..
    refine ⟨withTree u (u.tree.discard temporary w.tree.contents.length), ?_,
      FileTree.Logged.discard hfree hk.tree, hk.mishaps, hk.handlers, hk.console⟩
    rw [hu]
    rfl

theorem run_rename_of_ok {temporary : Place} {content : Nat} {target : PlainPath} {tree : FileTree}
    (h : w.tree.commit w.mishaps temporary content target = .ok tree) :
    (rename path temporary content target).run w = .ok () (withTree w tree) := by
  rw [rename, EStateM.run_bind, EStateM.run_get]
  simp only [h]
  rfl

theorem run_rename_of_error {temporary : Place} {content : Nat} {target : PlainPath} {e : OsError}
    (h : w.tree.commit w.mishaps temporary content target = .error e) :
    (rename path temporary content target).run w =
      (cleanUp w.mishaps.vanishing path temporary content e).run w := by
  rw [rename, EStateM.run_bind, EStateM.run_get]
  simp only [h]

section Temporary

variable {target : PlainPath} {data : List UInt8}

theorem run_replace_of_uncreated (hi : w.mishaps.irreplaceable.lookup path = none)
    (ht : w.mishaps.noTemporary = false) (hreal : w.tree.realPath path = .ok target) {e : FileError}
    (hc : w.tree.createTemporary target data = .error e) :
    (replace path data).run w = .error (.file e) w := by
  rw [replace, EStateM.run_bind, EStateM.run_get]
  simp only [hi, hreal, ht, Bool.false_eq_true, if_false]
  show EStateM.run (run (w.tree.createTemporary target data) >>= _) w = _
  rw [hc]
  rfl

theorem run_replace_of_created (hi : w.mishaps.irreplaceable.lookup path = none)
    (ht : w.mishaps.noTemporary = false) (hreal : w.tree.realPath path = .ok target)
    {temporary : Place} {content : Nat} {tree : FileTree}
    (hc : w.tree.createTemporary target data = .ok (temporary, content, tree)) :
    (replace path data).run w = (rename path temporary content target).run (withTree w tree) := by
  rw [replace, EStateM.run_bind, EStateM.run_get]
  simp only [hi, hreal, ht, Bool.false_eq_true, if_false]
  show EStateM.run (run (w.tree.createTemporary target data) >>= _) w = _
  rw [hc]
  rfl

end Temporary

/-- With temporary files, a file is replaced by one. -/
theorem run_replace_temporary (hs : w.tree.Sound) (h : w.tree.opened? path = some p)
    (hi : w.mishaps.irreplaceable.lookup path = none) (ht : w.mishaps.noTemporary = false)
    (data : List UInt8) :
    match w.tree.obstacle? w.mishaps path p with
    | none => (replace path data).run w = .ok () (withTree w (w.tree.rewritten false p data))
    | some e => ∃ v, (replace path data).run w = .error (.file (.system e)) v ∧ World.Kept w v := by
  obtain ⟨hp, c, hn, _⟩ := FileTree.settled_of_opened? hs h
  have hreal := FileTree.realPath_of_opened? hs h
  obtain ⟨name, d, rfl, hname, hd⟩ := id hp
  have hcreate := FileTree.createTemporary_ofPlace hname.clean hd data
  rw [FileTree.obstacle?]
  simp only [hi, ht, Bool.false_eq_true, if_false, PlainPath.name_ofPlace, List.tail_cons]
  by_cases hlong : Path.maxName < Path.byteLength (Temporary.shownName name) ∨
      Path.maxPath ≤ Path.byteLength (FileTree.shownTemporary (.ofPlace (name :: d)))
  · rw [if_pos hlong] at hcreate
    rw [if_pos hlong]
    exact ⟨w, run_replace_of_uncreated hi ht hreal hcreate, .refl w⟩
  · rw [if_neg hlong] at hcreate
    rw [if_neg hlong]
    cases hf : Temporary.freeName? w.tree d name with
    | none =>
      rw [hf] at hcreate
      exact ⟨w, run_replace_of_uncreated hi ht hreal hcreate, .refl w⟩
    | some free =>
      have hfree := FileTree.lookup_of_freeName? hf
      have hcommit := FileTree.commit_ofPlace w.mishaps hs hp hn hfree (by omega) data
      rw [hf] at hcreate
      have hrun := run_replace_of_created hi ht hreal hcreate
      simp only [Option.isNone_some, Bool.false_eq_true, if_false]
      cases hfault : w.mishaps.renameFault with
      | none =>
        rw [hfault] at hcommit
        exact hrun.trans (run_rename_of_ok hcommit)
      | some reason =>
        obtain ⟨v, hv, hk⟩ := run_cleanUp path hfree w.mishaps.vanishing data (.device reason)
        rw [hfault] at hcommit
        exact ⟨v, hrun.trans ((run_rename_of_error hcommit).trans hv), hk⟩

/-- A file is replaced, unless there is an obstacle. -/
theorem run_replace (hs : w.tree.Sound) (h : w.tree.opened? path = some p) (data : List UInt8) :
    match w.tree.obstacle? w.mishaps path p with
    | none => ∃ v, (replace path data).run w = .ok () v ∧
        World.Kept (withTree w (w.tree.rewritten w.mishaps.noTemporary p data)) v
    | some e => ∃ v, (replace path data).run w = .error (.file (.system e)) v ∧ World.Kept w v := by
  cases hi : w.mishaps.irreplaceable.lookup path with
  | some reason =>
    rw [FileTree.obstacle?]
    simp only [hi]
    exact ⟨w, run_replace_of_irreplaceable hi data, .refl w⟩
  | none =>
    cases ht : w.mishaps.noTemporary with
    | true =>
      have hrun := run_replace_inPlace hs h hi ht data
      rw [FileTree.obstacle?]
      simp only [hi, ht, if_true]
      split at hrun
      · next hlen =>
        rw [if_pos hlen]
        exact hrun
      · next hlen =>
        rw [if_neg hlen]
        exact hrun
    | false =>
      have hrun := run_replace_temporary hs h hi ht data
      cases ho : w.tree.obstacle? w.mishaps path p with
      | none =>
        rw [ho] at hrun
        exact ⟨_, hrun, .refl _⟩
      | some e =>
        rw [ho] at hrun
        exact hrun

end Files

/-! ## Small worlds -/

/-- A tree with a file and a build log in the root. -/
def FileTree.sample (log : Text) : FileTree :=
  ⟨[], [(["A.swift"], .file 0), (["log"], .file 1)],
    [⟨Utf8.encodeAll "import X\n", 0o644⟩, ⟨Utf8.encodeAll log, 0o644⟩]⟩

/-- The world with this tree, and nothing that goes wrong. -/
def World.sample (log : Text) : World := World.new (.sample log) Journal.defaultThreshold [] {}

theorem FileTree.sound_sample (log : Text) : (FileTree.sample log).Sound := by
  have hroot : (sample log).Solid (sample log).working := trivial
  refine sound_of_fits hroot ?_
  intro entry he
  rw [sample, List.mem_cons, List.mem_singleton] at he
  obtain rfl | rfl := he
  · exact Nat.zero_lt_two
  · exact Nat.one_lt_two

theorem World.obliging_sample (log : Text) : (World.sample log).Obliging :=
  obliging_of_no_console rfl

/-- A tree with a file in a directory, a link to the directory, and a link that runs in a circle. -/
def FileTree.linked : FileTree :=
  ⟨[], [(["d"], .directory), (["A.swift", "d"], .file 0), (["dl"], .link "d"),
    (["loop"], .link "loop")], [⟨Utf8.encodeAll "import X\n", 0o644⟩]⟩

/-- The world with this tree, and nothing that goes wrong. -/
def World.linked : World := World.new .linked Journal.defaultThreshold [] {}

theorem FileTree.sound_linked : FileTree.linked.Sound := by
  have hroot : linked.Solid linked.working := trivial
  exact sound_of_fits hroot (by decide)

theorem World.sound_linked : World.linked.tree.Sound := by
  rw [World.linked, World.new]
  exact FileTree.sound_linked

end ImportRepair
