import ImportRepair.Proofs.Files.Jobs
import ImportRepair.Proofs.Mapping.Entries
import ImportRepair.Proofs.Settings.Reading

/-!
# Loading module mappings

A file of modules is loaded, or it is refused with an error about the mapping. A few failures are
neither: a path that can name no file, a document that is no text or that holds a scalar of which no
value can be made, and a key that cannot be shown.

Results:
* `verdict_ofTree`: the three ways of a file.
* `load_handled_iff`: which files are loaded or refused with an error about the mapping.
* `load_normalises`: what the entries of a file come to.
-/

namespace ImportRepair.Mapping

variable {path : Text} {mapping : Mapping} {entries : Entries} {tree : FileTree} {w : World}
  {bytes : List UInt8}

/-! ## What a file comes to -/

/-- The failures of which loading makes no error about the mapping. -/
def escapes : Failure → Bool
  | .file (.system _) => false
  | .file _ => true
  | .document e => !e.isOfFormat
  | .longNumber => true
  | _ => false

/-- A document that is a mapping, or is refused with an error about the mapping. -/
structure IsDocumentHandled (bytes : List UInt8) : Prop where
  /-- The document has a value, or breaks the rules of the format. -/
  read : ∀ e, Yaml.readBytes bytes = .error e → ∃ d : Yaml.Error, e = .document d ∧
    d.isOfFormat = true
  /-- The first entry that is refused has a key that can be shown. -/
  shown : ∀ entries e, Yaml.readBytes bytes = .ok (.map entries) →
    List.find? isRefused entries = some e → e.1.holdsLongNumber = false

/-- A file that is loaded, or refused with an error about the mapping. -/
structure IsHandled (tree : FileTree) (path : Text) : Prop where
  /-- The path can name a file. -/
  named : Path.IsClean path
  document : ∀ bytes, tree.readBytes path = .ok bytes → IsDocumentHandled bytes

/-- A module as a mapping holds it: a text that is not empty, without blanks at its ends. -/
structure IsModule (module : Text) : Prop where
  nonempty : module ≠ []
  trimmed : module.IsTrimmed

theorem isModule_of_module? {v : Value} {m : Text} (h : module? v = some m) : IsModule m := by
  obtain ⟨t, -, rfl, hne⟩ := module?_eq_some_iff.1 h
  exact ⟨hne, Text.isTrimmed_strip t⟩

/-- A file whose bytes can be had is handled if the document in it is. -/
theorem isHandled_iff (h : tree.readBytes path = .ok bytes) :
    IsHandled tree path ↔ IsDocumentHandled bytes := by
  have hclean : Path.IsClean path := by
    rw [← FileTree.checkPath_eq_ok_iff]
    rw [FileTree.readBytes, FileTree.contentAt] at h
    cases hcheck : FileTree.checkPath path with
    | error e =>
      rw [hcheck] at h
      cases h
    | ok u => rfl
  constructor
  · intro hhandled
    exact hhandled.document bytes h
  · intro hdocument
    refine ⟨hclean, fun bytes' h' => ?_⟩
    rwa [← Except.ok.inj (h.symm.trans h')]

/-- Without its bytes a file is handled if the path can name a file. -/
theorem isHandled_iff_of_unread {e : FileError} (h : tree.readBytes path = .error e) :
    IsHandled tree path ↔ ∃ cause, e = .system cause := by
  have hnone : ∀ {bytes}, tree.readBytes path ≠ .ok bytes := by
    intro bytes hbytes
    rw [h] at hbytes
    cases hbytes
  have hhandled : IsHandled tree path ↔ FileTree.checkPath path = .ok () := by
    rw [FileTree.checkPath_eq_ok_iff]
    exact ⟨IsHandled.named, fun hclean => ⟨hclean, fun _ hb => absurd hb hnone⟩⟩
  rw [hhandled]
  rw [FileTree.readBytes, FileTree.contentAt] at h
  cases hcheck : FileTree.checkPath path with
  | ok u =>
    rw [hcheck] at h
    simp only [bind, Except.bind] at h
    split at h
    · next hfail =>
      split at hfail <;> cases hfail <;> cases h <;> exact ⟨fun _ => ⟨_, rfl⟩, fun _ => rfl⟩
    · cases h
  | error cause =>
    rw [hcheck] at h
    cases h
    have hother : ∀ os, e ≠ .system os := by
      intro os hos
      subst hos
      rw [FileTree.checkPath] at hcheck
      split at hcheck
      · cases hcheck
      · split at hcheck <;> cases hcheck
    simp [hother]

/-- The ways of reading a mapping. What is handled gives modules, or fails with an error about the
mapping; what is not handled fails in another way. -/
def Verdict (handled : Prop) : Except Failure (Option Mapping) → Prop
  | .ok mapping? => handled ∧ ∀ e ∈ mapping?.getD [], IsModule e.2
  | .error e => handled ∧ (∃ m, e = .mapping m) ∨ ¬handled ∧ escapes e = true

theorem verdict_entries (path : Text) (entries : Entries) :
    Verdict (∀ e, List.find? isRefused entries = some e → e.1.holdsLongNumber = false)
      ((extend path [] entries).map some) := by
  cases hrefused : List.find? isRefused entries with
  | none =>
    obtain ⟨result, hresult, -⟩ := extend_of_taken hrefused path
    rw [hresult]
    exact ⟨nofun, forall_mem_extend (fun _ _ => isModule_of_module?) (by simp) hresult⟩
  | some e =>
    rw [extend_of_refused hrefused]
    cases hlong : e.1.holdsLongNumber with
    | true =>
      refine Or.inr ⟨fun h => ?_, by rw [refusal, hlong]; rfl⟩
      rw [h e rfl] at hlong
      cases hlong
    | false =>
      exact Or.inl ⟨fun _ h => Option.some.inj h ▸ hlong, by rw [refusal, hlong]; exact ⟨_, rfl⟩⟩

theorem verdict_ofBytes (path : Text) (bytes : List UInt8) :
    Verdict (IsDocumentHandled bytes) (ofBytes path bytes) := by
  rw [ofBytes]
  cases hv : Yaml.readBytes bytes with
  | error e =>
    have hhandled : IsDocumentHandled bytes ↔ ∃ d : Yaml.Error, e = .document d ∧
        d.isOfFormat = true := by
      refine ⟨fun h => h.read e hv, fun h => ⟨fun e' he' => ?_, fun entries e' he' => ?_⟩⟩
      · rw [hv] at he'
        cases he'
        exact h
      · rw [hv] at he'
        cases he'
    rw [hhandled]
    obtain ⟨d, rfl⟩ | ⟨cut, rfl⟩ := Settings.error_of_readBytes hv
    · cases hd : d.isOfFormat with
      | true =>
        refine Or.inl ⟨⟨d, rfl, hd⟩, .malformed path, ?_⟩
        simp only [hd, if_true]
      | false =>
        refine Or.inr ⟨?_, by simp [escapes, hd]⟩
        rintro ⟨d', hd', hformat⟩
        cases hd'
        rw [hd] at hformat
        cases hformat
    · refine Or.inr ⟨?_, rfl⟩
      rintro ⟨d, hd, -⟩
      cases hd
  | ok v =>
    have hhandled : IsDocumentHandled bytes ↔ ∀ entries e, v = .map entries →
        List.find? isRefused entries = some e → e.1.holdsLongNumber = false := by
      refine ⟨fun h entries e he => h.shown entries e (he ▸ hv),
        fun h => ⟨fun e he => ?_, fun entries e he => ?_⟩⟩
      · rw [hv] at he
        cases he
      · exact h entries e (Except.ok.inj (hv.symm.trans he))
    rw [hhandled]
    cases v with
    | null => exact ⟨nofun, by simp⟩
    | map entries =>
      have hentries : (∀ es e, Value.map entries = .map es → List.find? isRefused es = some e →
          e.1.holdsLongNumber = false) ↔
            ∀ e, List.find? isRefused entries = some e → e.1.holdsLongNumber = false :=
        ⟨fun h e => h entries e rfl, fun h es e hes => Value.map.inj hes ▸ h e⟩
      rw [hentries]
      exact verdict_entries path entries
    | _ => exact Or.inl ⟨nofun, .notMapping path, rfl⟩

/-- The three ways of a file: it is loaded, it is refused with an error about the mapping, or
another failure comes up. -/
theorem verdict_ofTree (tree : FileTree) (path : Text) :
    Verdict (IsHandled tree path) (ofTree tree path) := by
  cases h : tree.readBytes path with
  | error e =>
    have hiff := isHandled_iff_of_unread h
    rw [ofTree, h]
    cases e with
    | system cause => exact Or.inl ⟨hiff.2 ⟨cause, rfl⟩, _, rfl⟩
    | _ => exact Or.inr ⟨fun hhandled => by simpa using hiff.1 hhandled, rfl⟩
  | ok bytes =>
    rw [isHandled_iff h, ofTree, h]
    exact verdict_ofBytes path bytes

/-! ## Loading -/

/-- Loading a mapping goes by what the file holds, and makes a record at most. -/
theorem run_load (path : Text) (w : World) :
    (load path).run w =
      match ofTree w.tree (Path.plain path) with
      | .error e => .error e w
      | .ok none => .ok [] w
      | .ok (some mapping) => .ok mapping (w.note .info .mapping
          ("Loaded " ++ Text.ofNat mapping.length ++ " module assignments from " ++
            Path.plain path)) := by
  rw [load, EStateM.run_bind, EStateM.run_get]
  simp only
  cases ofTree w.tree (Path.plain path) with
  | error e => rfl
  | ok mapping? => cases mapping? <;> rfl

/-- Exactly the files that are handled are loaded, with modules that are neither empty nor have
blanks at their ends, or refused with an error about the mapping. With all others a failure of
another kind comes up. -/
theorem load_handled_iff (path : Text) (w : World) :
    ((∃ mapping v, (load path).run w = .ok mapping v ∧ ∀ e ∈ mapping, IsModule e.2) ∨
        (∃ m v, (load path).run w = .error (.mapping m) v) ↔ IsHandled w.tree (Path.plain path)) ∧
      (¬IsHandled w.tree (Path.plain path) → ∃ e v, (load path).run w = .error e v ∧
        escapes e = true) := by
  have hverdict := verdict_ofTree w.tree (Path.plain path)
  rw [run_load]
  cases hload : ofTree w.tree (Path.plain path) with
  | error e =>
    rw [hload] at hverdict
    obtain ⟨hhandled, m, rfl⟩ | ⟨hnot, hescapes⟩ := hverdict
    · exact ⟨⟨fun _ => hhandled, fun _ => Or.inr ⟨m, w, rfl⟩⟩, fun hnot => absurd hhandled hnot⟩
    · refine ⟨⟨?_, fun hhandled => absurd hhandled hnot⟩, fun _ => ⟨e, w, rfl, hescapes⟩⟩
      rintro (⟨mapping, v, hv, -⟩ | ⟨m, v, hv⟩)
      · cases hv
      · cases hv
        cases hescapes
  | ok mapping? =>
    rw [hload] at hverdict
    obtain ⟨hhandled, hmodules⟩ := hverdict
    refine ⟨⟨fun _ => hhandled, fun _ => Or.inl ?_⟩, fun hnot => absurd hhandled hnot⟩
    cases mapping? with
    | none => exact ⟨[], w, rfl, hmodules⟩
    | some mapping => exact ⟨mapping, _, rfl, hmodules⟩

/-- What the entries of a file come to. If every key can be shown, the file is refused with an error
about the mapping exactly if a value tells no module. The first entry that is refused is named by
its key; if the key cannot be shown, the failure is that. If no entry is refused, each text that
shows a key has the module of the last entry whose key it shows, in the order of the first entries,
and there are no other types. -/
theorem load_normalises (hfile : w.tree.readBytes (Path.plain path) = .ok bytes)
    (hvalue : Yaml.readBytes bytes = .ok (.map entries)) :
    ((∀ e ∈ entries, e.1.holdsLongNumber = false) →
        ((∃ m v, (load path).run w = .error (.mapping m) v) ↔
          ∃ e ∈ entries, lacksModule e.2 = true)) ∧
      (∀ e, List.find? isRefused entries = some e → (load path).run w = .error
        (if e.1.holdsLongNumber then .longNumber
          else .mapping (.badModule e.1.display (Path.plain path))) w) ∧
      (List.find? isRefused entries = none →
        ∃ mapping v, (load path).run w = .ok mapping v ∧ Normalises entries mapping) := by
  have hread : ofTree w.tree (Path.plain path) =
      (extend (Path.plain path) [] entries).map some := by
    rw [ofTree, hfile]
    simp only [ofBytes, hvalue]
    rfl
  have hrefused : ∀ e, List.find? isRefused entries = some e →
      (load path).run w = .error (refusal (Path.plain path) e.1) w := by
    intro e he
    rw [run_load, hread, extend_of_refused he]
    rfl
  have htaken : List.find? isRefused entries = none →
      ∃ mapping v, (load path).run w = .ok mapping v ∧ Normalises entries mapping := by
    intro hnone
    obtain ⟨mapping, hmapping, hnormal⟩ := extend_of_taken hnone (Path.plain path)
    have hrun := run_load path w
    rw [hread, hmapping] at hrun
    exact ⟨mapping, _, hrun, hnormal⟩
  refine ⟨fun hshown => ?_, hrefused, htaken⟩
  -- where every key can be shown, an entry is refused for its value
  have hsame : ∀ e ∈ entries, isRefused e = lacksModule e.2 := by
    intro e he
    rw [isRefused, hshown e he, Bool.false_or]
  cases hfind : List.find? isRefused entries with
  | none =>
    obtain ⟨mapping, v, hv, -⟩ := htaken hfind
    rw [hv]
    constructor
    · rintro ⟨m, u, hu⟩
      cases hu
    rintro ⟨e, he, hlacks⟩
    have hnot := List.find?_eq_none.1 hfind e he
    rw [hsame e he] at hnot
    exact absurd hlacks hnot
  | some e =>
    have he := List.mem_of_find?_eq_some hfind
    have hlacks := List.find?_some hfind
    rw [hsame e he] at hlacks
    rw [hrefused e hfind, refusal, hshown e he]
    exact ⟨fun _ => ⟨e, he, hlacks⟩, fun _ => ⟨_, w, rfl⟩⟩

/-! ### One type with two keys -/

/-- Whether a document has entries that pass a check. -/
def hasEntries (check : Entries → Bool) : Except Failure Value → Bool
  | .ok (.map entries) => check entries
  | _ => false

theorem exists_of_hasEntries {check : Entries → Bool} {read : Except Failure Value}
    (h : hasEntries check read = true) :
    ∃ entries, read = .ok (.map entries) ∧ check entries = true := by
  match read, h with
  | .ok (.map entries), h => exact ⟨entries, rfl, h⟩

/-- A number and a text that is written like it count as one type, which has the later module. -/
theorem load_normalises_sample :
    ∃ mapping v, (load "/log").run (World.sample "1: A\nx: C\n'1': ' B '\n") = .ok mapping v ∧
      mapping.map (·.1) = [("1" : Text), "x"] ∧
      mapping.lookup ("1" : Text) = some ("B" : Text) := by
  obtain ⟨entries, hvalue, hcheck⟩ := exists_of_hasEntries
    (by decide +kernel : hasEntries (fun entries =>
      (List.find? isRefused entries).isNone &&
        entries.map (·.1.display) = [("1" : Text), "x", "1"] &&
        ((entries.filter fun e => e.1.display = ("1" : Text)).getLast?.bind fun e => module? e.2) =
        some ("B" : Text))
      (Yaml.readBytes (Utf8.encodeAll "1: A\nx: C\n'1': ' B '\n")) = true)
  simp only [Bool.and_eq_true, decide_eq_true_eq, Option.isNone_iff_eq_none] at hcheck
  obtain ⟨⟨htaken, hdisplay⟩, hlast⟩ := hcheck
  have hfile : (World.sample "1: A\nx: C\n'1': ' B '\n").tree.readBytes (Path.plain "/log") =
      .ok (Utf8.encodeAll "1: A\nx: C\n'1': ' B '\n") := by decide +kernel
  obtain ⟨-, -, hloads⟩ := load_normalises hfile hvalue
  obtain ⟨mapping, v, hv, hnormal⟩ := hloads htaken
  refine ⟨mapping, v, hv, ?_, ?_⟩
  · rw [hnormal.keys, hdisplay]
    decide +kernel
  · rw [hnormal.modules, hlast]

end ImportRepair.Mapping
