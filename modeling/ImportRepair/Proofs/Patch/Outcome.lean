import ImportRepair.Patch.File
import ImportRepair.Proofs.Files.Jobs
import ImportRepair.Proofs.Text.Insertion

/-!
# What becomes of a file

The outcome for a path depends on the place that the path opens, on the text of the file there, and
on whether the file can be replaced. The file changes only if the outcome is that it was patched.

Results:
* `of_patched`: what it takes to patch a file, and what it does.
* `run_file`: patching a file gives the outcome, or fails because of the path alone.
-/

namespace ImportRepair.Patch

variable {trial : Bool} {mishaps : Mishaps} {tree : FileTree} {module path : Text}

/-! ## Outcomes -/

/-- The place of the file that a path gives for writing. -/
def target? (mishaps : Mishaps) (tree : FileTree) (path : Text) : Option Place :=
  if mishaps.unwritable.contains path then none else tree.opened? path

/-- The failure to tell whether a path can be written. -/
def fault? (mishaps : Mishaps) (tree : FileTree) (path : Text) : Option OsError :=
  if mishaps.unwritable.contains path then none
  else
    match tree.isOpenableFile path with
    | .ok _ => none
    | .error e => some e

/-- The outcome for a line and a file with a text, if it can be read; `blocked` says that the
file cannot be replaced. -/
def statusOf (trial blocked : Bool) (line : Text) : Option Text → Status
  | none => .failed
  | some t =>
    if occursIn line t then .alreadyPresent
    else if !occursIn Insertion.anchor t then .noAnchor
    else if !line.isScalar then .encodeFailed
    else if trial then .wouldPatch
    else if blocked then .failed
    else .patched

/-- The outcome for a module and a path. -/
def outcome (trial : Bool) (mishaps : Mishaps) (tree : FileTree) (module path : Text) : Status :=
  match target? mishaps tree path with
  | none => .unwritable
  | some p =>
    statusOf trial (tree.obstacle? mishaps path p).isSome (Insertion.line module)
      (mishaps.textAt? tree path p)

/-- The text with the line of a module in it. -/
def amended (module t : Text) : Text :=
  (Insertion.insert? t (Insertion.line module)).getD t

/-- The tree after a path was handled. -/
def after (trial : Bool) (mishaps : Mishaps) (tree : FileTree) (module path : Text) : FileTree :=
  match outcome trial mishaps tree module path, target? mishaps tree path with
  | .patched, some p =>
    tree.rewritten mishaps.noTemporary p
      (Utf8.encodeAll (amended module ((tree.textAt? p).getD [])))
  | _, _ => tree

theorem target?_eq_some {p : Place} (h : target? mishaps tree path = some p) :
    mishaps.unwritable.contains path = false ∧ tree.opened? path = some p := by
  rw [target?] at h
  split at h
  · cases h
  · next hc => exact ⟨Bool.not_eq_true _ ▸ hc, h⟩

theorem after_of_ne_patched (h : outcome trial mishaps tree module path ≠ .patched) :
    after trial mishaps tree module path = tree := by
  unfold after
  split
  · next hs _ => exact absurd hs h
  · rfl

theorem statusOf_eq_patched {blocked : Bool} {line : Text} {t? : Option Text}
    (h : statusOf trial blocked line t? = .patched) :
    trial = false ∧ blocked = false ∧ line.isScalar = true ∧
      ∃ t, t? = some t ∧ occursIn line t = false ∧ occursIn Insertion.anchor t = true := by
  unfold statusOf at h
  split at h
  · cases h
  · split at h
    · cases h
    · next hl =>
      split at h
      · cases h
      · next ha =>
        split at h
        · cases h
        · next hsc =>
          split at h
          · cases h
          · next ht =>
            split at h
            · cases h
            · next hb =>
              refine ⟨by simpa using ht, by simpa using hb, by simpa using hsc, _, rfl, ?_, ?_⟩
              · simpa using hl
              · simpa using ha

/-- What it takes to patch a file, and what it does. -/
theorem of_patched (h : outcome trial mishaps tree module path = .patched) :
    trial = false ∧ (Insertion.line module).isScalar = true ∧
      ∃ p t k, target? mishaps tree path = some p ∧ tree.obstacle? mishaps path p = none ∧
        tree.textAt? p = some t ∧
        occursIn (Insertion.line module) t = false ∧ firstIndex? Insertion.anchor t = some k ∧
        after trial mishaps tree module path = tree.rewritten mishaps.noTemporary p
          (Utf8.encodeAll (splice k (Insertion.line module) t)) := by
  have ho := h
  unfold outcome at h
  cases ht : target? mishaps tree path with
  | none => rw [ht] at h; cases h
  | some p =>
    rw [ht] at h
    obtain ⟨htrial, hb, hsc, t, htext, hl, ha⟩ := statusOf_eq_patched h
    obtain ⟨k, hk⟩ := Option.isSome_iff_exists.1 ha
    have htext' : tree.textAt? p = some t := by
      rw [Mishaps.textAt?] at htext
      split at htext
      · cases htext
      · exact htext
    refine ⟨htrial, hsc, p, t, k, rfl, ?_, htext', hl, hk, ?_⟩
    · exact Option.not_isSome_iff_eq_none.1 (by simpa using hb)
    · unfold after
      rw [ho, ht]
      simp only
      rw [htext', Option.getD_some, amended, (Insertion.insert?_eq_some_iff hl).2 ⟨k, hk, rfl⟩,
        Option.getD_some]

theorem outcome_of_target? {p : Place} (h : target? mishaps tree path = some p) :
    outcome trial mishaps tree module path =
      statusOf trial (tree.obstacle? mishaps path p).isSome (Insertion.line module)
        (mishaps.textAt? tree path p) := by
  rw [outcome, h]

theorem target?_empty (tree : FileTree) (path : Text) : target? {} tree path = tree.opened? path :=
  rfl

/-- The outcome where nothing is said to fail. -/
theorem outcome_empty {p : Place} (h : target? {} tree path = some p) :
    outcome trial {} tree module path =
      statusOf trial (tree.obstacle? {} path p).isSome (Insertion.line module) (tree.textAt? p) :=
  outcome_of_target? h

/-- The outcome for a text that has an anchor. -/
theorem statusOf_of_anchor {blocked : Bool} {line t : Text}
    (h : occursIn Insertion.anchor t = true) :
    statusOf trial blocked line (some t) =
      if occursIn line t then .alreadyPresent
      else if !line.isScalar then .encodeFailed
      else if trial then .wouldPatch
      else if blocked then .failed
      else .patched := by
  rw [statusOf, h]
  rfl

/-! ## Patching a file -/

theorem isScalar_splice (k : Nat) (line : Text) {t : Text} (ht : t.isScalar = true) :
    Text.isScalar (splice k line t) = line.isScalar := by
  have hparts : Text.isScalar (t.take k) = true ∧ Text.isScalar (t.drop k) = true := by
    rw [← Bool.and_eq_true, Text.isScalar, Text.isScalar, ← List.all_append, List.take_append_drop]
    exact ht
  rw [splice, Text.isScalar, List.all_append, List.all_append]
  rw [Text.isScalar, Text.isScalar] at hparts
  rw [hparts.1, hparts.2, Bool.true_and, Bool.and_true, Text.isScalar]

theorem run_leave (severity : Severity) (path module : Text) (status : Status) (message : Text)
    (w : World) :
    ∃ v, (leave severity path module status message).run w = .ok ⟨path, module, status, message⟩ v ∧
      World.Kept w v :=
  ⟨_, rfl, World.kept_note ..⟩

theorem run_attempt {α : Type} (counts : Failure → Bool) (job : Job α) (w : World) :
    (attempt counts job).run w =
      match job.run w with
      | .ok a v => .ok (.ok a) v
      | .error e v => if counts e then .ok (.error e) v else .error e v := by
  show EStateM.tryCatch (EStateM.map Except.ok job) _ w = _
  unfold EStateM.tryCatch EStateM.map EStateM.run
  cases job w with
  | ok a v => rfl
  | error e v =>
    simp only
    cases hc : counts e <;> rfl

variable {w : World} {p : Place} {t : Text} {k : Nat}

/-- Writing a text with a line put in. -/
theorem run_writeBack (hs : w.tree.Sound) (h : w.tree.opened? path = some p)
    (ht : w.tree.textAt? p = some t) (trial : Bool) (module : Text) (k : Nat) :
    ∃ status message v,
      (writeBack trial path module (splice k (Insertion.line module) t)).run w =
        .ok ⟨path, module, status, message⟩ v ∧
      status = (if !(Insertion.line module).isScalar then .encodeFailed
        else if trial then .wouldPatch
        else if (w.tree.obstacle? w.mishaps path p).isSome then .failed else .patched) ∧
      World.Kept (Files.withTree w (if status = .patched then
        w.tree.rewritten w.mishaps.noTemporary p
          (Utf8.encodeAll (splice k (Insertion.line module) t)) else w.tree)) v := by
  have hscalar := isScalar_splice k (Insertion.line module)
    (FileTree.isScalar_of_textAt? ht)
  rw [writeBack]
  cases henc : Utf8.encode (splice k (Insertion.line module) t) with
  | error e =>
    have hline : (Insertion.line module).isScalar = false := by
      rw [← hscalar, ← Bool.not_eq_true]
      intro hsc
      rw [Utf8.encode_eq_ok_iff.2 ⟨hsc, rfl⟩] at henc
      cases henc
    obtain ⟨v, hv, hk⟩ := run_leave .warning path module .encodeFailed
      ("Failed to convert file contents to data (" ++ e.message ++ "). Skipping: " ++ path) w
    refine ⟨_, _, v, hv, by rw [hline]; rfl, hk⟩
  | ok data =>
    obtain ⟨hsc, hdata⟩ := Utf8.encode_eq_ok_iff.1 henc
    rw [hscalar] at hsc
    cases trial with
    | true => exact ⟨_, _, _, rfl, by rw [hsc]; rfl, World.kept_note ..⟩
    | false =>
      have hrep := Files.run_replace hs h data
      have hatt := run_attempt isWriteOutcome (Files.replace path data) w
      simp only [Bool.false_eq_true, if_false]
      cases ho : w.tree.obstacle? w.mishaps path p with
      | none =>
        rw [ho] at hrep
        obtain ⟨u, hu, hk⟩ := hrep
        rw [hu] at hatt
        refine ⟨.patched, _, _, (run_bind_of_ok hatt).trans rfl, by rw [hsc]; rfl, ?_⟩
        rw [if_pos rfl, ← hdata]
        exact hk.trans (World.kept_note ..)
      | some e =>
        rw [ho] at hrep
        obtain ⟨u, hu, hk⟩ := hrep
        rw [hu] at hatt
        obtain ⟨v, hv, hk'⟩ := run_leave .error path module .failed
          ("Failed to write " ++ path ++ ": " ++ (Failure.file (.system e)).message) u
        refine ⟨_, _, v, (run_bind_of_ok hatt).trans hv, by rw [hsc]; rfl, hk.trans hk'⟩

/-- Adding a line to a file with a text. -/
theorem run_amend (hs : w.tree.Sound) (h : w.tree.opened? path = some p)
    (ht : w.tree.textAt? p = some t) (trial : Bool) (module : Text) :
    ∃ status message v,
      (amend trial module path t).run w = .ok ⟨path, module, status, message⟩ v ∧
      status = statusOf trial (w.tree.obstacle? w.mishaps path p).isSome (Insertion.line module)
        (some t) ∧
      World.Kept (Files.withTree w (if status = .patched then
        w.tree.rewritten w.mishaps.noTemporary p (Utf8.encodeAll (amended module t))
          else w.tree)) v := by
  rw [amend, statusOf]
  cases hl : occursIn (Insertion.line module) t with
  | true => exact ⟨.alreadyPresent, _, _, rfl, rfl, World.kept_note ..⟩
  | false =>
    cases hk : firstIndex? Insertion.anchor t with
    | none =>
      have hanchor : occursIn Insertion.anchor t = false := by rw [occursIn, hk]; rfl
      obtain ⟨v, hv, hkept⟩ := run_leave .warning path module .noAnchor
        ("One import stmt is needed in file to know where to add the new import stmt. Skipping: " ++
          path) w
      refine ⟨.noAnchor, _, v, Eq.trans ?_ hv, ?_, hkept⟩
      · rw [(Insertion.insert?_eq_none_iff hl).2 hk]
        rfl
      · rw [hanchor]
        rfl
    | some k =>
      have hanchor : occursIn Insertion.anchor t = true := by rw [occursIn, hk]; rfl
      have hinsert := (Insertion.insert?_eq_some_iff hl).2 ⟨k, hk, rfl⟩
      obtain ⟨status, message, v, hv, hstatus, hkept⟩ := run_writeBack hs h ht trial module k
      refine ⟨status, message, v, ?_, ?_, ?_⟩
      · rw [hinsert]
        exact hv
      · rw [hstatus, hanchor]
        rfl
      · rw [amended, hinsert]
        exact hkept

/-- A path that gives no file for writing. -/
theorem run_file_refused (h : (Files.isWritable path).run w = .ok false w) (trial : Bool)
    (module : Text) :
    ∃ message v, (file trial module path).run w = .ok ⟨path, module, .unwritable, message⟩ v ∧
      World.Kept w v := by
  obtain ⟨v, hv, hk⟩ := run_leave .warning path module .unwritable
    ("Failed to open file for writing. Skipping: " ++ path) w
  refine ⟨_, v, Eq.trans ?_ hv, hk⟩
  rw [file]
  exact run_bind_of_ok h

/-- A path that gives a file for writing. -/
theorem run_file_opened (hs : w.tree.Sound) (h : target? w.mishaps w.tree path = some p)
    (trial : Bool) (module : Text) :
    ∃ message v,
      (file trial module path).run w =
        .ok ⟨path, module, outcome trial w.mishaps w.tree module path, message⟩ v ∧
      World.Kept (Files.withTree w (after trial w.mishaps w.tree module path)) v := by
  obtain ⟨hc, hp⟩ := target?_eq_some h
  have hwrit := Files.run_isWritable hc
  rw [(FileTree.opened?_eq_some hp).1] at hwrit
  have hread := Files.run_readText hs hp
  have hatt := run_attempt isOutcome (Files.readText path) w
  have hout : outcome trial w.mishaps w.tree module path =
      statusOf trial (w.tree.obstacle? w.mishaps path p).isSome (Insertion.line module)
        (w.mishaps.textAt? w.tree path p) := outcome_of_target? h
  rw [file]
  cases ht : w.mishaps.textAt? w.tree path p with
  | none =>
    rw [ht] at hread hout
    obtain ⟨e, u, hu, hk, hcounts⟩ := hread
    have hcount : isOutcome (.file e) = true := by
      obtain ⟨os, rfl⟩ | ⟨d, rfl⟩ := hcounts <;> rfl
    rw [hu] at hatt
    simp only [hcount, if_true] at hatt
    obtain ⟨v, hv, hk'⟩ := run_leave .error path module .failed
      ("Failed to read " ++ path ++ ": " ++ (Failure.file e).message) u
    have hne : outcome trial w.mishaps w.tree module path ≠ .patched := by
      rw [hout]
      show Status.failed ≠ .patched
      decide
    rw [after_of_ne_patched hne, hout]
    exact ⟨_, v, (run_bind_of_ok hwrit).trans ((run_bind_of_ok hatt).trans hv), hk.trans hk'⟩
  | some t =>
    rw [ht] at hread hout
    have htext : w.tree.textAt? p = some t := by
      rw [Mishaps.textAt?] at ht
      split at ht
      · cases ht
      · exact ht
    rw [hread] at hatt
    obtain ⟨status, message, v, hv, hstatus, hk⟩ := run_amend hs hp htext trial module
    rw [← hstatus] at hout
    refine ⟨message, v, (run_bind_of_ok hwrit).trans ((run_bind_of_ok hatt).trans ?_), ?_⟩
    · rw [hout]
      exact hv
    · have hafter : after trial w.mishaps w.tree module path = if status = .patched then
          w.tree.rewritten w.mishaps.noTemporary p (Utf8.encodeAll (amended module t))
            else w.tree := by
        rw [after, hout, h]
        cases status <;> simp only [reduceCtorEq, if_true, if_false]
        rw [htext, Option.getD_some]
      rw [hafter]
      exact hk

/-- Patching a file gives the outcome, unless it cannot be told whether the path can be written. -/
theorem run_file (hs : w.tree.Sound) (trial : Bool) (module path : Text) :
    match fault? w.mishaps w.tree path with
    | some e => (file trial module path).run w = .error (.file (.system e)) w
    | none => ∃ message v,
        (file trial module path).run w =
          .ok ⟨path, module, outcome trial w.mishaps w.tree module path, message⟩ v ∧
        World.Kept (Files.withTree w (after trial w.mishaps w.tree module path)) v := by
  have hrefused : (Files.isWritable path).run w = .ok false w →
      target? w.mishaps w.tree path = none → ∃ message v,
        (file trial module path).run w =
          .ok ⟨path, module, outcome trial w.mishaps w.tree module path, message⟩ v ∧
        World.Kept (Files.withTree w (after trial w.mishaps w.tree module path)) v := by
    intro hwrit ht
    have hout : outcome trial w.mishaps w.tree module path = .unwritable := by rw [outcome, ht]
    rw [after_of_ne_patched (by rw [hout]; decide), hout]
    exact run_file_refused hwrit trial module
  rw [fault?]
  cases hc : w.mishaps.unwritable.contains path with
  | true =>
    simp only [if_true]
    exact hrefused (Files.run_isWritable_refused hc) (by rw [target?, hc, if_pos rfl])
  | false =>
    have hwrit := Files.run_isWritable hc
    have ht : target? w.mishaps w.tree path = w.tree.opened? path := by
      rw [target?, hc, if_neg (by simp)]
    simp only [Bool.false_eq_true, if_false]
    cases hopen : w.tree.isOpenableFile path with
    | error e =>
      rw [hopen] at hwrit
      simp only
      rw [file]
      exact run_bind_of_error hwrit
    | ok b =>
      rw [hopen] at hwrit
      simp only
      cases b with
      | false => exact hrefused hwrit (ht.trans (FileTree.opened?_eq_none (by rw [hopen]; simp)))
      | true =>
        obtain ⟨p, hp⟩ := FileTree.opened?_of_isOpenableFile hopen
        exact run_file_opened hs (ht.trans hp) trial module

end ImportRepair.Patch
