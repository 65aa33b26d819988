import ImportRepair.Proofs.Command.Beginning
import ImportRepair.Proofs.Mapping.Entries

/-!
# Settings that are taken for a module mapping

The settings of a file are kept in sections, and a section is no module. So if a command is
given its settings file as the module mapping, too, it has nothing to run: the mapping is
refused, which is told, and the exit code is 1. Only if records go to that file as well, it may
be something else by then.

Results:
* `Mapping.exists_error_of_section`: a document with a mapping in it is no module mapping.
* `Command.fix_of_error`: a command with nothing to run ends with the exit code 1.
* `Command.fix_of_settings`: so does a command with its settings for a module mapping.
-/

namespace ImportRepair

/-! ## Mappings -/

/-- The bytes of a file are those of its content. -/
theorem FileTree.readBytes_of_contentAt {tree : FileTree} {path : Text} {n : Nat}
    (h : tree.contentAt path = .ok n) :
    tree.readBytes path = .ok (((tree.content? n).map (·.bytes)).getD []) := by
  rw [readBytes, h]
  rfl

/-- A document with a mapping in it is no module mapping. -/
theorem Mapping.exists_error_of_section {bytes : List UInt8} {entries inner : Entries} {key : Value}
    (hread : Yaml.readBytes bytes = .ok (.map entries)) (hmem : (key, .map inner) ∈ entries)
    (path : Text) : ∃ e, ofBytes path bytes = .error e := by
  have hrefused : isRefused (key, .map inner) = true := Bool.or_true _
  have hfirst : (List.find? isRefused entries).isSome = true :=
    List.find?_isSome.2 ⟨_, hmem, hrefused⟩
  obtain ⟨e, he⟩ := Option.isSome_iff_exists.1 hfirst
  refine ⟨refusal path e.1, ?_⟩
  rw [ofBytes, hread]
  show (extend path [] entries).map some = _
  rw [extend_of_refused he path []]
  rfl

namespace Settings

variable {tree : FileTree} {path : Text} {asked : Bool} {entries : Entries}

/-- Settings with an entry are read from the content of their file. -/
theorem readBytes_of_gives {n : Nat} (h : Gives tree path asked entries) (hne : entries ≠ [])
    (hcontent : tree.contentAt path = .ok n) :
    Yaml.readBytes (((tree.content? n).map (·.bytes)).getD []) = .ok (.map entries) := by
  obtain ⟨_, _, rfl⟩ | ⟨_, v, hv, he⟩ := h
  · exact absurd rfl hne
  · rw [valueAt, FileTree.readBytes_of_contentAt hcontent] at hv
    split at he
    · rwa [he] at hv
    · cases he
      exact absurd rfl hne

end Settings

/-! ## Commands with nothing to run -/

namespace Command

open Settings Console

variable {o : Arguments.Options} {settings : Entries} {c : Nat} {v w : World}

/-- A command has no plan if its mapping is a document with a mapping in it. -/
theorem not_fits_of_section {entries inner : Entries} {key : Value} {path : Text}
    (hpath : o.modules.bind Arguments.Given.text? = some path)
    (hcontent : w.tree.contentAt (Path.plain path) = .ok c) (hc : c ∉ w.journal.sinks)
    (hread : Yaml.readBytes (((w.tree.content? c).map (·.bytes)).getD []) = .ok (.map entries))
    (hmem : (key, .map inner) ∈ entries) (plan : Plan) : ¬plan.Fits o settings w := by
  intro hfits
  have hmappings := hfits.mappings
  have hkept := (kept_atLoading plan.extension w).tree
  have hbytes :=
    FileTree.readBytes_of_contentAt ((hkept.contentAt (Path.plain path)).trans hcontent)
  rw [hkept.contents c hc] at hbytes
  obtain ⟨e, he⟩ := Mapping.exists_error_of_section hread hmem (Path.plain path)
  rw [mappingsIn, hpath] at hmappings
  simp only [Mapping.ofTree, hbytes, he] at hmappings
  cases hmappings

/-- A command with nothing to run ends with the exit code 1. It shows its panel and a message, asks
nothing, and changes no file but by its records. -/
theorem fix_of_error (h : IsSectioned settings) {e : Failure}
    (hrun : (execute o settings).run (atPanel settings w) = .error e v)
    (hkept : World.Kept (atPanel settings w) v) (hquiet : World.Unheard (atPanel settings w) v)
    (hd : w.Drawn (worldAfter ((fix o settings).run w))) :
    ∃ x text, (fix o settings).run w = .ok failureCode x ∧ World.Kept w x ∧
      w.Talked [panel settings, .message .error text] [] x := by
  obtain ⟨_, x, hx⟩ := fix_returns h o hd
  rw [hrun] at hx
  have hsteps := hx
  rw [fix_eq] at hsteps
  obtain ⟨_, u, hpanel, hsteps⟩ := run_bind_eq_ok.1 hsteps
  obtain rfl : u = atPanel settings w := World.eq_present_of_display hpanel
  obtain ⟨result, y, hattempt, hsteps⟩ := run_bind_eq_ok.1 hsteps
  rw [Patch.run_attempt, hrun] at hattempt
  cases hattempt
  obtain ⟨_, z, htell, hsteps⟩ := run_bind_eq_ok.1 hsteps
  cases hsteps
  -- the failure is told by a message and a record, expected or not
  have htold : ∃ severity shown recorded, (tell severity shown recorded).run v = .ok () x := by
    rw [tellFailure] at htell
    split at htell
    · exact ⟨_, _, _, htell⟩
    · exact ⟨_, _, _, htell⟩
  obtain ⟨severity, shown, recorded, htold⟩ := htold
  obtain ⟨_, y, hshown, hnote⟩ := run_bind_eq_ok.1 htold
  cases hnote
  refine ⟨_, shown, hx, ?_, ?_⟩
  · exact ((World.kept_present ..).trans hkept).trans
      ((kept_of_display hshown).trans (World.kept_note ..))
  · have htalked :=
      (World.talked_of_display hpanel).trans (hquiet.talked.trans (World.talked_of_display hshown))
    exact htalked.trans (World.unheard_note severity .command recorded y).talked

/-- A command that is given its settings for a module mapping, too, has nothing to run, so it ends
with the exit code 1. -/
theorem fix_of_settings (hw : w.journal.sinks = []) {loaded inner : Entries} {key : Value}
    (hgives : Gives w.tree (fileIn w.tree.working.path (settingsFile o))
      (settingsFile o).isSome loaded)
    (hmem : (key, .map inner) ∈ loaded)
    (hfile : w.tree.contentAt (fileIn w.tree.working.path (settingsFile o)) = .ok c)
    (hlt : c < w.tree.contents.length) {config : Entries} {u x : World}
    (hbegin : (begin o).run w = .ok config u) (htree : x.tree = u.tree)
    (hjournal : x.journal = u.journal) (h : IsSectioned settings) {path : Text}
    (hpath : o.modules.bind Arguments.Given.text? = some path)
    (hcontent : x.tree.contentAt (Path.plain path) = .ok c) (hc : c ∉ x.journal.sinks)
    (hd : x.Drawn (worldAfter ((fix o settings).run x))) :
    ∃ y text, (fix o settings).run x = .ok failureCode y ∧ World.Kept x y ∧
      x.Talked [panel settings, .message .error text] [] y := by
  have hpanel : (atPanel settings x).tree = u.tree ∧ (atPanel settings x).journal = u.journal :=
    ⟨(World.tree_present ..).trans htree, (World.journal_present ..).trans hjournal⟩
  have hread := readBytes_of_gives hgives (List.ne_nil_of_mem hmem) hfile
  rw [← content?_of_begin hw hbegin hlt (hjournal ▸ hc), ← hpanel.1] at hread
  rw [htree, ← hpanel.1] at hcontent
  rw [hjournal, ← hpanel.2] at hc
  obtain ⟨plan, _, hfits, _⟩ | ⟨e, v, hrun, hkept, hquiet, _⟩ :=
    run_execute h o (atPanel settings x)
  · exact absurd hfits (not_fits_of_section hpath hcontent hc hread hmem plan)
  · exact fix_of_error h hrun hkept hquiet hd

end Command

end ImportRepair
