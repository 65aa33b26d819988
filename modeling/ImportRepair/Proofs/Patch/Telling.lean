import ImportRepair.Proofs.Patch.Trail

/-!
# What is told about a file

The result for a path, its message included, depends on the shape of the tree and on the bytes of
the file that the path opens. It is given here as a function of these, so that results from
different trees can be compared.

Results:
* `file_returns_result`: patching a file gives this result.
* `result_congr`: the same file in trees of the same shape gives the same result.
* `bytesAt?_after_congr`, `bytesAt?_after_of_apart`: and is given the same bytes, while
  other files keep theirs.
-/

namespace ImportRepair.Patch

variable {trial : Bool} {mishaps : Mishaps} {tree a b : FileTree} {module path text : Text}

/-! ## Results -/

/-- The result for a file that gets a new text. The first argument says what keeps the
file from being replaced. -/
def resultOfNewText (obstacle? : Option OsError) (trial : Bool) (module path newText : Text) :
    Result :=
  match Utf8.encode newText with
  | .error e => ⟨path, module, .encodeFailed,
      "Failed to convert file contents to data (" ++ e.message ++ "). Skipping: " ++ path⟩
  | .ok _ =>
    if trial then ⟨path, module, .wouldPatch, "Would fix " ++ path⟩
    else
      match obstacle? with
      | some e => ⟨path, module, .failed, "Failed to write " ++ path ++ ": " ++ e.message⟩
      | none => ⟨path, module, .patched, "Fixed " ++ path⟩

/-- The result for a file with a text. -/
def resultOfText (obstacle? : Option OsError) (trial : Bool) (module path text : Text) : Result :=
  if occursIn (Insertion.line module) text then
    ⟨path, module, .alreadyPresent, "Already imports " ++ module ++ ": " ++ path⟩
  else
    match Insertion.insert? text (Insertion.line module) with
    | none => ⟨path, module, .noAnchor,
        "One import stmt is needed in file to know where to add the new import stmt. Skipping: " ++
          path⟩
    | some newText => resultOfNewText obstacle? trial module path newText

/-- The result for a path. -/
def result (trial : Bool) (mishaps : Mishaps) (tree : FileTree) (module path : Text) : Result :=
  match target? mishaps tree path with
  | none => ⟨path, module, .unwritable, "Failed to open file for writing. Skipping: " ++ path⟩
  | some p =>
    match mishaps.unreadable.lookup path with
    | some reason => ⟨path, module, .failed, "Failed to read " ++ path ++ ": " ++ reason⟩
    | none =>
      match Files.textOf ((tree.bytesAt? p).getD []) with
      | .error e => ⟨path, module, .failed, "Failed to read " ++ path ++ ": " ++ e.message⟩
      | .ok text => resultOfText (tree.obstacle? mishaps path p) trial module path text

section Returning

variable {w : World} {p : Place}

theorem writeBack_returns (hs : w.tree.Sound) (h : w.tree.opened? path = some p) (newText : Text) :
    ∃ v, (writeBack trial path module newText).run w =
      .ok (resultOfNewText (w.tree.obstacle? w.mishaps path p) trial module path newText) v := by
  unfold resultOfNewText
  rw [writeBack]
  cases Utf8.encode newText with
  | error e => exact ⟨_, rfl⟩
  | ok data =>
    cases trial with
    | true => exact ⟨_, rfl⟩
    | false =>
      have hrep := Files.run_replace hs h data
      have hatt := run_attempt isWriteOutcome (Files.replace path data) w
      simp only [Bool.false_eq_true, if_false]
      cases ho : w.tree.obstacle? w.mishaps path p with
      | none =>
        rw [ho] at hrep
        obtain ⟨u, hu, _⟩ := hrep
        rw [hu] at hatt
        exact ⟨_, (run_bind_of_ok hatt).trans rfl⟩
      | some e =>
        rw [ho] at hrep
        obtain ⟨u, hu, _⟩ := hrep
        rw [hu] at hatt
        exact ⟨_, (run_bind_of_ok hatt).trans rfl⟩

theorem amend_returns (hs : w.tree.Sound) (h : w.tree.opened? path = some p) (text : Text) :
    ∃ v, (amend trial module path text).run w =
      .ok (resultOfText (w.tree.obstacle? w.mishaps path p) trial module path text) v := by
  simp only [amend, resultOfText]
  cases occursIn (Insertion.line module) text with
  | true => exact ⟨_, rfl⟩
  | false =>
    simp only [Bool.false_eq_true, if_false]
    cases Insertion.insert? text (Insertion.line module) with
    | none => exact ⟨_, rfl⟩
    | some newText => exact writeBack_returns hs h newText

theorem readText_fails {e : FileError} (hs : w.tree.Sound) (h : w.tree.opened? path = some p)
    (hread : w.mishaps.unreadable.lookup path = none)
    (he : Files.textOf ((w.tree.bytesAt? p).getD []) = .error e) :
    ∃ v, (attempt isOutcome (Files.readText path)).run w = .ok (.error (.file e)) v := by
  obtain ⟨bytes, hb, hbytes⟩ := FileTree.readBytes_of_opened? hs h
  rw [hb, Option.getD_some] at he
  have hrun := Files.run_readText_of_readBytes hbytes
  rw [hread, he] at hrun
  obtain ⟨v, hv, -⟩ := hrun
  have hcounts : isOutcome (.file e) = true := by
    rw [Files.textOf] at he
    cases hd : Utf8.decode bytes <;> rw [hd] at he <;> cases he
    rfl
  rw [run_attempt, hv]
  exact ⟨v, if_pos hcounts⟩

theorem readText_returns {text : Text} (hs : w.tree.Sound) (h : w.tree.opened? path = some p)
    (hread : w.mishaps.unreadable.lookup path = none)
    (ht : Files.textOf ((w.tree.bytesAt? p).getD []) = .ok text) :
    (attempt isOutcome (Files.readText path)).run w = .ok (.ok text) w := by
  obtain ⟨bytes, hb, hbytes⟩ := FileTree.readBytes_of_opened? hs h
  rw [hb, Option.getD_some] at ht
  have hrun := Files.run_readText_of_readBytes hbytes
  rw [hread, ht] at hrun
  rw [run_attempt, hrun]

theorem refused_returns (hf : fault? w.mishaps w.tree path = none)
    (ht : target? w.mishaps w.tree path = none) :
    ∃ v, (file trial module path).run w = .ok (result trial w.mishaps w.tree module path) v := by
  have hwritable : (Files.isWritable path).run w = .ok false w := by
    rw [fault?] at hf
    rw [target?] at ht
    cases hc : w.mishaps.unwritable.contains path with
    | true => exact Files.run_isWritable_refused hc
    | false =>
      simp only [hc, Bool.false_eq_true, if_false] at hf ht
      rw [Files.run_isWritable hc]
      cases hopen : w.tree.isOpenableFile path with
      | error e => rw [hopen] at hf; cases hf
      | ok b =>
        cases b with
        | false => rfl
        | true =>
          obtain ⟨p, hp⟩ := FileTree.opened?_of_isOpenableFile hopen
          rw [ht] at hp
          cases hp
  unfold result
  rw [ht, file]
  exact ⟨_, (run_bind_of_ok hwritable).trans rfl⟩

theorem opened_returns (hs : w.tree.Sound) (h : target? w.mishaps w.tree path = some p) :
    ∃ v, (file trial module path).run w = .ok (result trial w.mishaps w.tree module path) v := by
  obtain ⟨hallowed, hp⟩ := target?_eq_some h
  have hwritable := Files.isWritable_iff.2 ⟨hallowed, p, hp⟩
  unfold result
  rw [h, file]
  simp only
  cases hread : w.mishaps.unreadable.lookup path with
  | some reason =>
    have hfails : (attempt isOutcome (Files.readText path)).run w =
        .ok (.error (.file (.system (.device reason)))) w := by
      obtain ⟨bytes, -, hbytes⟩ := FileTree.readBytes_of_opened? hs hp
      have hrun := Files.run_readText_of_readBytes hbytes
      rw [hread] at hrun
      rw [run_attempt, hrun]
      rfl
    exact ⟨_, (run_bind_of_ok hwritable).trans ((run_bind_of_ok hfails).trans rfl)⟩
  | none =>
    cases ht : Files.textOf ((w.tree.bytesAt? p).getD []) with
    | error e =>
      obtain ⟨u, hu⟩ := readText_fails hs hp hread ht
      exact ⟨_, (run_bind_of_ok hwritable).trans ((run_bind_of_ok hu).trans rfl)⟩
    | ok text =>
      obtain ⟨v, hv⟩ := amend_returns hs hp text
      exact ⟨v, (run_bind_of_ok hwritable).trans
        ((run_bind_of_ok (readText_returns hs hp hread ht)).trans hv)⟩

/-- Patching a file gives the result, unless it cannot be told whether the path can be written. -/
theorem file_returns_result (hs : w.tree.Sound) (hf : fault? w.mishaps w.tree path = none) :
    ∃ v, (file trial module path).run w = .ok (result trial w.mishaps w.tree module path) v ∧
      World.Kept (Files.withTree w (after trial w.mishaps w.tree module path)) v := by
  have hrun := run_file hs trial module path
  rw [hf] at hrun
  obtain ⟨message, v, hv, hk⟩ := hrun
  obtain ⟨u, hu⟩ : ∃ u, (file trial module path).run w =
      .ok (result trial w.mishaps w.tree module path) u := by
    cases ht : target? w.mishaps w.tree path with
    | some p => exact opened_returns hs ht
    | none => exact refused_returns hf ht
  rw [hv, EStateM.Result.ok.injEq] at hu
  exact ⟨v, by rw [hv, hu.1], hk⟩

end Returning

/-! ## The same file in other trees -/

/-- The same file in trees of the same shape gives the same result. -/
theorem result_congr (hshape : FileTree.SameShape a b)
    (hbytes : ∀ p, target? mishaps a path = some p → b.bytesAt? p = a.bytesAt? p) :
    result trial mishaps b module path = result trial mishaps a module path := by
  unfold result
  rw [← hshape.target?]
  cases ht : target? mishaps a path with
  | none => rfl
  | some p => simp only [hbytes p ht, hshape.obstacle?]

/-- A file keeps its bytes if the path that is handled gives no file that shares them. -/
theorem bytesAt?_after_of_apart (hs : tree.Sound) {q : Place}
    (h : ∀ p, target? mishaps tree path = some p →
      tree.sharesFile mishaps.noTemporary p q = false) :
    (after trial mishaps tree module path).bytesAt? q = tree.bytesAt? q := by
  obtain hafter | ⟨p, c, data, ht, hn, hafter⟩ := after_cases hs
  · rw [hafter]
  · rw [hafter, FileTree.bytesAt?_rewritten hs _ _ hn, h p ht, if_neg (by simp)]

/-- The same file in trees of the same shape is given the same bytes. -/
theorem bytesAt?_after_congr (ha : a.Sound) (hb : b.Sound) (hshape : FileTree.SameShape a b)
    {q : Place} (hreal : ∀ p, target? mishaps a path = some p → p = q)
    (hbytes : b.bytesAt? q = a.bytesAt? q) :
    (after trial mishaps b module path).bytesAt? q =
      (after trial mishaps a module path).bytesAt? q := by
  have hsame : outcome trial mishaps b module path = outcome trial mishaps a module path :=
    outcome_congr hshape fun p hp => by rw [hreal p hp, hbytes]
  by_cases ho : outcome trial mishaps a module path = .patched
  · obtain ⟨_, _, p, t, k, ht, _, htext, _, hk, hafter⟩ := of_patched ho
    obtain ⟨_, _, p', t', k', ht', _, htext', _, hk', hafter'⟩ := of_patched (hsame.trans ho)
    rw [← hshape.target?, ht] at ht'
    cases ht'
    obtain rfl := hreal p ht
    rw [FileTree.textAt?, hbytes, ← FileTree.textAt?, htext] at htext'
    cases htext'
    rw [hk] at hk'
    cases hk'
    obtain ⟨_, c, hn, _⟩ := FileTree.settled_of_opened? ha (target?_eq_some ht).2
    obtain ⟨c', hn'⟩ := hshape.file hn
    rw [hafter, hafter', FileTree.bytesAt?_rewritten ha _ _ hn,
      FileTree.bytesAt?_rewritten hb _ _ hn', FileTree.sharesFile_self, FileTree.sharesFile_self]
    rfl
  · rw [after_of_ne_patched ho, after_of_ne_patched (hsame ▸ ho), hbytes]

end ImportRepair.Patch
