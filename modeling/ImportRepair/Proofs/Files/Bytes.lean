import ImportRepair.Files.Access
import ImportRepair.Proofs.Files.Twins

/-!
# One content with other bytes

Where paths lead does not depend on what files hold. So a content may hold other bytes than
it does: whatever is created, renamed or overwritten, the tree is again the same but for
the bytes of that content.

Results:
* `Logged.contentAt`, `Logged.realPath`: paths name the same contents and have the same real paths.
* `makeDirectory_withBytes`, `openForWriting_withBytes`, `createTemporary_withBytes`,
  `commit_withBytes`: changes of the tree take the other bytes along.
-/

namespace ImportRepair

namespace FileTree

/-! ## Where paths lead -/

section Paths

variable {sinks : List Nat} {a b : FileTree}

theorem Logged.sameNodes (h : Logged sinks a b) : SameNodes a b := ⟨h.working, h.node?⟩

theorem Logged.locate (h : Logged sinks a b) (followLast : Bool) (path : Text) :
    b.locate followLast path = a.locate followLast path :=
  h.sameNodes.locate followLast path

theorem Logged.lookUp (h : Logged sinks a b) (path : Text) : b.lookUp path = a.lookUp path :=
  h.sameNodes.lookUp path

/-- Paths name the same contents. -/
theorem Logged.contentAt (h : Logged sinks a b) (path : Text) :
    b.contentAt path = a.contentAt path := by
  simp only [FileTree.contentAt, h.lookUp]

theorem Logged.isFile (h : Logged sinks a b) (path : Text) : b.isFile path = a.isFile path := by
  simp only [FileTree.isFile, h.lookUp]

theorem Logged.isDirectory (h : Logged sinks a b) (path : Text) :
    b.isDirectory path = a.isDirectory path := by
  simp only [FileTree.isDirectory, h.lookUp]

/-- A content that did not change is read as it was. -/
theorem Logged.readBytes (h : Logged sinks a b) {path : Text}
    (hc : ∀ c ∈ sinks, a.contentAt path ≠ .ok c) :
    b.readBytes path = a.readBytes path := by
  simp only [FileTree.readBytes, h.contentAt]
  cases hn : a.contentAt path with
  | error e => rfl
  | ok n =>
    show Except.ok _ = Except.ok _
    rw [h.contents n fun hmem => hc n hmem hn]

theorem Logged.traceNames (h : Logged sinks a b)
    {follow follow' : PlainPath → Text → Except Impasse PlainPath}
    (hsame : ∀ link target, follow' link target = follow link target) (current : PlainPath)
    (names : List Text) :
    b.traceNames follow' current names = a.traceNames follow current names := by
  induction names generalizing current with
  | nil => rfl
  | cons name names ih =>
    simp only [FileTree.traceNames, placeOf, link?, h.working, h.node?, ih, hsame]

theorem Logged.trace (h : Logged sinks a b) (links : Nat) (active : List PlainPath)
    (current : PlainPath) (names : List Text) :
    b.trace links active current names = a.trace links active current names := by
  induction links generalizing active current names with
  | zero =>
    rw [FileTree.trace, FileTree.trace]
    exact h.traceNames (fun _ _ => rfl) current names
  | succ links ih =>
    rw [FileTree.trace, FileTree.trace]
    exact h.traceNames (fun _ _ => by simp only [ih]) current names

theorem Logged.absolute (h : Logged sinks a b) (path : Text) :
    b.absolute path = a.absolute path := by
  rw [FileTree.absolute, FileTree.absolute, h.working]

/-- Paths have the same real paths. -/
theorem Logged.realPath (h : Logged sinks a b) (path : Text) :
    b.realPath path = a.realPath path := by
  simp only [FileTree.realPath, h.trace, h.absolute, placeOf, linkCount, h.working, h.nodes]

theorem Logged.isCircle (h : Logged sinks a b) (path : PlainPath) :
    b.isCircle path = a.isCircle path := by
  simp only [FileTree.isCircle, h.lookUp]

end Paths

/-! ## Contents -/

/-- The tree with other bytes in a content. -/
def withBytes (c : Nat) (bytes : List UInt8) (tree : FileTree) : FileTree :=
  tree.modifyContent c fun content => { content with bytes }

variable {tree : FileTree} {c : Nat} {bytes : List UInt8}

theorem logged_withBytes : Logged [c] tree (tree.withBytes c bytes) :=
  .modifyContent (List.mem_singleton_self c) ..

theorem length_modifyContent (n : Nat) (change : Content → Content) :
    (tree.modifyContent n change).contents.length = tree.contents.length := List.length_modify ..

theorem mode_withBytes (n : Nat) :
    ((tree.withBytes c bytes).content? n).map (·.mode) = (tree.content? n).map (·.mode) := by
  show ((tree.contents.modify c _)[n]?).map _ = (tree.contents[n]?).map _
  rw [List.getElem?_modify]
  split
  · cases tree.contents[n]? <;> rfl
  · cases tree.contents[n]? <;> rfl

/-- Changes of two contents, in either order. -/
theorem modifyContent_comm {n m : Nat} {f g : Content → Content}
    (h : n = m → ∀ k, f (g k) = g (f k)) :
    (tree.modifyContent m g).modifyContent n f = (tree.modifyContent n f).modifyContent m g := by
  simp only [modifyContent, FileTree.mk.injEq, true_and]
  refine List.ext_getElem? fun i => ?_
  simp only [List.getElem?_modify]
  cases tree.contents[i]? with
  | none => simp
  | some k =>
    by_cases hn : n = i <;> by_cases hm : m = i
    · simp [hn, hm, h (hn.trans hm.symm)]
    all_goals simp [hn, hm]

/-- Bytes that replace those of any content, or are added to them, leave the tree the
same but for one content. -/
theorem modifyBytes_withBytes (n : Nat) (change : List UInt8 → List UInt8) :
    ∃ bytes',
      (tree.withBytes c bytes).modifyContent n (fun k => { k with bytes := change k.bytes }) =
      (tree.modifyContent n fun k => { k with bytes := change k.bytes }).withBytes c bytes' := by
  by_cases hn : n = c
  · subst hn
    refine ⟨change bytes, ?_⟩
    simp only [withBytes, modifyContent, FileTree.mk.injEq, true_and]
    refine List.ext_getElem? fun i => ?_
    simp only [List.getElem?_modify]
    cases tree.contents[i]? with
    | none => rfl
    | some k => by_cases hi : n = i <;> simp [hi]
  · exact ⟨bytes, modifyContent_comm fun h => absurd h hn⟩

theorem length_addContent (content : Content) :
    (tree.addContent content).2.contents.length = tree.contents.length + 1 := List.length_append

/-- A new content is none of the old ones. -/
theorem addContent_withBytes (h : c < tree.contents.length) (content : Content) :
    (tree.withBytes c bytes).addContent content =
      ((tree.addContent content).1, (tree.addContent content).2.withBytes c bytes) := by
  simp only [addContent, withBytes, modifyContent, List.length_modify, Prod.mk.injEq, true_and,
    FileTree.mk.injEq]
  refine List.ext_getElem? fun i => ?_
  simp only [List.getElem?_append, List.getElem?_modify, List.length_modify]
  split
  · rfl
  · have hne : c ≠ i := by omega
    simp [hne]

theorem discard_withBytes (p : Place) (n : Nat) :
    (tree.withBytes c bytes).discard p n = (tree.discard p n).withBytes c bytes := by
  simp only [discard, remove, withBytes, modifyContent, FileTree.mk.injEq, true_and]
  refine List.ext_getElem? fun i => ?_
  simp only [List.getElem?_take, List.getElem?_modify]
  split <;> simp

/-! ## Changes -/

/-- A directory that is made gets a free name. -/
theorem of_makeDirectory {path : Text} {tree' : FileTree}
    (h : tree.makeDirectory path = .ok tree') :
    ∃ d name, tree.locate false path = .ok (.free d name) ∧
      tree' = tree.put (name :: d) .directory := by
  unfold makeDirectory at h
  cases hc : checkPath path with
  | error e =>
    rw [hc] at h
    cases h
  | ok u =>
    simp only [hc, bind, Except.bind] at h
    split at h <;> cases h
    next d name hfree => exact ⟨d, name, hfree, rfl⟩

/-- A file that is opened for writing was there, or it is a new one under a free name. -/
theorem of_openForWriting {path : Text} {n : Nat} {tree' : FileTree}
    (h : tree.openForWriting path = .ok (n, tree')) :
    (∃ p, tree.locate true path = .ok (.node p (.file n)) ∧ tree' = tree) ∨
      ∃ d name, tree.locate true path = .ok (.free d name) ∧ n = tree.contents.length ∧
        tree' = (tree.addContent ⟨[], defaultMode⟩).2.put (name :: d) (.file n) := by
  unfold openForWriting at h
  cases hc : checkPath path with
  | error e =>
    rw [hc] at h
    cases h
  | ok u =>
    simp only [hc, bind, Except.bind] at h
    split at h <;> cases h
    · next p hfile => exact Or.inl ⟨p, hfile, rfl⟩
    · next d name hfree => exact Or.inr ⟨d, name, hfree, rfl, rfl⟩

theorem makeDirectory_withBytes (path : Text) :
    (tree.withBytes c bytes).makeDirectory path =
      (tree.makeDirectory path).map (withBytes c bytes) := by
  unfold makeDirectory
  rw [logged_withBytes.locate]
  cases checkPath path with
  | error e => rfl
  | ok u =>
    rcases tree.locate false path with e | ⟨_, _⟩ | ⟨_, _⟩ <;> rfl

theorem openForWriting_withBytes (h : c < tree.contents.length) (path : Text) :
    (tree.withBytes c bytes).openForWriting path =
      (tree.openForWriting path).map fun opened => (opened.1, opened.2.withBytes c bytes) := by
  unfold openForWriting
  rw [logged_withBytes.locate]
  cases checkPath path with
  | error e => rfl
  | ok u =>
    rcases tree.locate true path with e | ⟨_, _ | _ | _⟩ | ⟨directory, name⟩
    all_goals try rfl
    have hadd := @addContent_withBytes tree c bytes h ⟨[], defaultMode⟩
    show Except.ok (((tree.withBytes c bytes).addContent ⟨[], defaultMode⟩).1,
      ((tree.withBytes c bytes).addContent ⟨[], defaultMode⟩).2.put (name :: directory)
        (.file ((tree.withBytes c bytes).addContent ⟨[], defaultMode⟩).1)) = _
    rw [hadd]
    rfl

theorem createTemporary_withBytes (h : c < tree.contents.length) (target : PlainPath)
    (data : List UInt8) :
    (tree.withBytes c bytes).createTemporary target data =
      (tree.createTemporary target data).map fun made =>
        (made.1, made.2.1, made.2.2.withBytes c bytes) := by
  unfold createTemporary
  have hfree : ∀ d name,
      Temporary.freeName? (tree.withBytes c bytes) d name = Temporary.freeName? tree d name :=
    fun _ _ => rfl
  simp only [logged_withBytes.locate, hfree]
  cases checkPath (shownTemporary target) with
  | error e => rfl
  | ok u =>
    simp only [bind, Except.bind]
    split
    · rfl
    rcases tree.locate true target.parent.display with e | ⟨_, _ | _ | _⟩ | ⟨_, _⟩
    all_goals try rfl
    simp only
    split
    · rfl
    · split
      · rfl
      · simp only [addTemporary, addContent_withBytes h]
        rfl

theorem modeOf_withBytes (n : Node) : (tree.withBytes c bytes).modeOf n = tree.modeOf n := by
  cases n <;> simp only [modeOf, mode_withBytes]

theorem commit_withBytes (mishaps : Mishaps) (temporary : Place) (n : Nat) (target : PlainPath) :
    (tree.withBytes c bytes).commit mishaps temporary n target =
      (tree.commit mishaps temporary n target).map (withBytes c bytes) := by
  have hothers : (tree.withBytes c bytes).remove temporary =
    (tree.remove temporary).withBytes c bytes := rfl
  have hmode : ∀ mode,
    ((tree.remove temporary).withBytes c bytes).modifyContent n (fun k => { k with mode }) =
      ((tree.remove temporary).modifyContent n fun k => { k with mode }).withBytes c bytes :=
    fun mode => modifyContent_comm fun _ _ => rfl
  unfold commit
  simp only [hothers, logged_withBytes.lookUp, logged_withBytes.locate, modeOf_withBytes, hmode]
  rcases (tree.remove temporary).lookUp target.display with e | ⟨p, node⟩
  · rfl
  simp only
  cases mishaps.renameFault with
  | some reason => rfl
  | none =>
    rcases (tree.remove temporary).locate false target.display with e | ⟨_, _ | _ | _⟩ | ⟨_, _⟩ <;>
      rfl

end FileTree

end ImportRepair
