import ImportRepair.Proofs.Keeping
import ImportRepair.Settings.Load

/-!
# What becomes of a settings file

A settings file is used, or it is refused with the exit code 1, or a failure comes up that nobody
handles. Which of the three it is can be told from the file.

Results:
* `error_of_readBytes`: bytes have no value because they are no text, or because the document has
  none.
* `verdict_readSettings`: the three ways of a settings file.
-/

namespace ImportRepair

/-- A failure that asks for no exit code. -/
def Failure.IsUnhandled (e : Failure) : Prop := ∀ code, e ≠ .exit code

/-- The three ways of a job. If everything is fit and it is given what it needs, it comes to
something good, and makes records at most. If it is not given what it needs, it asks for the exit
code 1. If something is not fit, it fails in a way that nobody handles. -/
def Verdict {α : Type} (w : World) (fit given : Prop) (good : α → Prop) :
    EStateM.Result Failure World α → Prop
  | .ok a v => fit ∧ given ∧ World.Kept w v ∧ good a
  | .error e _ => e = .exit 1 ∧ fit ∧ ¬given ∨ e.IsUnhandled ∧ ¬fit

namespace Settings

variable {tree : FileTree} {path : Text} {asked : Bool} {entries : Entries}

/-- The value in a file. -/
def valueAt (tree : FileTree) (path : Text) : Except Failure Value :=
  match tree.readBytes path with
  | .error e => .error (.file e)
  | .ok bytes => Yaml.readBytes bytes

/-- The failures for which a settings file is refused: the system cannot read it, or it breaks
the rules of the format. -/
def isRefused : Failure → Bool
  | .file (.system _) => true
  | .document e => e.isOfFormat
  | _ => false

/-- A settings file that is either used or refused: it can be asked for, and nothing else is
wrong with its value. -/
structure Readable (tree : FileTree) (path : Text) : Prop where
  askable : ∀ e, tree.isFile path ≠ .error e
  refused : tree.isFile path = .ok true → ∀ e, valueAt tree path = .error e → isRefused e = true

/-- The entries that a settings file gives. A file that was not asked for may be missing, and one
without a value has no entries. -/
def Gives (tree : FileTree) (path : Text) (asked : Bool) (entries : Entries) : Prop :=
  tree.isFile path = .ok false ∧ asked = false ∧ entries = [] ∨
    tree.isFile path = .ok true ∧
      ∃ v, valueAt tree path = .ok v ∧ (if v.isTruthy then v else .map []) = .map entries

theorem Gives.unique {entries' : Entries} (h : Gives tree path asked entries)
    (h' : Gives tree path asked entries') : entries' = entries := by
  obtain ⟨hfile, _, rfl⟩ | ⟨hfile, v, hv, he⟩ := h
  · obtain ⟨_, _, rfl⟩ | ⟨hfile', _⟩ := h'
    · rfl
    · simp [hfile] at hfile'
  · obtain ⟨hfile', _⟩ | ⟨_, v', hv', he'⟩ := h'
    · simp [hfile] at hfile'
    · have hvalue : v' = v := Except.ok.inj (hv'.symm.trans hv)
      rw [hvalue] at he'
      exact Value.map.inj (he'.symm.trans he)

theorem fault_ofPortions {fault : Option Failure} {portions : List Text} {e : Failure}
    (h : (Yaml.Source.ofPortions fault portions).fault = some e) :
    fault = some e ∨ e = .document .malformed := by
  induction portions with
  | nil => exact Or.inl h
  | cons portion portions ih =>
    rw [Yaml.Source.ofPortions] at h
    split at h
    · exact ih h
    · exact Or.inr (Option.some.inj h).symm

/-- Bytes have no value because they are no text, or because the document has none. -/
theorem error_of_readBytes {bytes : List UInt8} {e : Failure}
    (h : Yaml.readBytes bytes = .error e) :
    (∃ d, e = .document d) ∨ ∃ cut, e = .file (.undecodable cut) := by
  rw [Yaml.readBytes, Yaml.Source.value] at h
  split at h
  · next hfault _ =>
    cases h
    obtain hcut | rfl := fault_ofPortions hfault
    · obtain ⟨cut, _, rfl⟩ := Option.map_eq_some_iff.1 hcut
      exact Or.inr ⟨cut, rfl⟩
    · exact Or.inl ⟨_, rfl⟩
  · generalize Yaml.Source.readText _ _ = result at h
    cases result with
    | ok v => cases h
    | error d =>
      cases h
      exact Or.inl ⟨d, rfl⟩

/-- Reading a value asks for no exit code. -/
theorem isUnhandled_of_valueAt {e : Failure} (h : valueAt tree path = .error e) :
    e.IsUnhandled := by
  rw [valueAt] at h
  split at h
  · cases h
    simp [Failure.IsUnhandled]
  · obtain ⟨d, rfl⟩ | ⟨cut, rfl⟩ := error_of_readBytes h <;> simp [Failure.IsUnhandled]

theorem run_readFile (path : Text) (w : World) :
    match valueAt w.tree path with
    | .ok v => (readFile path).run w = .ok v w
    | .error e =>
      if isRefused e then ∃ u, (readFile path).run w = .error (.exit 1) u
      else (readFile path).run w = .error e w := by
  rw [valueAt, readFile, EStateM.run_bind, EStateM.run_get]
  simp only
  cases w.tree.readBytes path with
  | error e =>
    cases e with
    | system cause => exact ⟨_, rfl⟩
    | nullInPath => rfl
    | unencodable e => rfl
    | undecodable e => rfl
  | ok bytes =>
    simp only
    cases hv : Yaml.readBytes bytes with
    | ok v => rfl
    | error e =>
      obtain ⟨d, rfl⟩ | ⟨cut, rfl⟩ := error_of_readBytes hv
      · cases hd : d.isOfFormat with
        | true =>
          simp only [isRefused, hd]
          exact ⟨_, rfl⟩
        | false =>
          simp only [isRefused, hd]
          rfl
      · rfl

/-- The three ways of a settings file. -/
theorem verdict_readSettings (path : Text) (asked : Bool) (w : World) :
    Verdict w (Readable w.tree path) (∃ entries, Gives w.tree path asked entries)
      (Gives w.tree path asked) ((readSettings path asked).run w) := by
  rw [readSettings, EStateM.run_bind, EStateM.run_get]
  simp only
  cases hfile : w.tree.isFile path with
  | error e =>
    refine Or.inr ⟨?_, fun h => h.askable e hfile⟩
    simp [Failure.IsUnhandled]
  | ok exists? =>
    have haskable : ∀ e, w.tree.isFile path ≠ .error e := by simp [hfile]
    cases exists? with
    | false =>
      have hreadable : Readable w.tree path := ⟨haskable, by simp [hfile]⟩
      cases asked with
      | true =>
        refine Or.inl ⟨rfl, hreadable, ?_⟩
        simp [Gives, hfile]
      | false =>
        have hgives : Gives w.tree path false [] := Or.inl ⟨hfile, rfl, rfl⟩
        exact ⟨hreadable, ⟨[], hgives⟩, World.kept_note .., hgives⟩
    | true =>
      have hrun := run_readFile path w
      simp only
      cases hv : valueAt w.tree path with
      | error e =>
        rw [hv] at hrun
        simp only at hrun
        split at hrun
        · next hrefused =>
          obtain ⟨u, hu⟩ := hrun
          rw [run_bind_of_error hu]
          refine Or.inl ⟨rfl, ⟨haskable, ?_⟩, ?_⟩
          · intro _ e' he'
            rw [hv] at he'
            cases he'
            exact hrefused
          · simp [Gives, hfile, hv]
        · next hother =>
          rw [run_bind_of_error hrun]
          exact Or.inr ⟨isUnhandled_of_valueAt hv, fun h => hother (h.refused hfile e hv)⟩
      | ok v =>
        rw [hv] at hrun
        have hreadable : Readable w.tree path := ⟨haskable, by simp [hv]⟩
        rw [run_bind_of_ok hrun]
        cases ht : v.isTruthy with
        | false =>
          have hgives : Gives w.tree path asked [] := Or.inr ⟨hfile, v, hv, by rw [ht]; rfl⟩
          exact ⟨hreadable, ⟨[], hgives⟩, .refl w, hgives⟩
        | true =>
          have hgives : ∀ entries, Gives w.tree path asked entries ↔ v = .map entries := by
            intro entries
            simp [Gives, hfile, hv, ht]
          cases v with
          | map entries =>
            exact ⟨hreadable, ⟨entries, (hgives entries).2 rfl⟩, .refl w, (hgives entries).2 rfl⟩
          | _ => exact Or.inl ⟨rfl, hreadable, fun ⟨entries, h⟩ => by cases (hgives entries).1 h⟩

end Settings

end ImportRepair
