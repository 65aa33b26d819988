import ImportRepair.Proofs.Mapping.Loading
import ImportRepair.Proofs.Run.Advisers
import ImportRepair.Proofs.Yaml.Lines
import Mathlib.Data.List.Find

/-!
# Mappings of plain lines

A file that gives each type its module on a line of its own, both as bare identifiers, is the
mapping that it looks like, with two exceptions: a module may not be a word for a truth value or for
nothing, and a type may not be too long for a key.

Results:
* `extend_lines`: what lines add to a mapping.
* `load_document`: what a file of lines comes to.
-/

namespace ImportRepair.Mapping

open Yaml

variable {ended : Bool} {path : Text} {mapping lines : Mapping} {e : Text × Text} {w : World}

/-! ## The entries of lines -/

/-- The entries that lines are read as. -/
def entriesOf (lines : Mapping) : Entries := lines.map fun e => (plainValue e.1, plainValue e.2)

theorem put_of_not_mem {type : Text} (h : type ∉ mapping.map (·.1)) (module : Text) :
    mapping.put type module = mapping ++ [(type, module)] := by
  induction mapping with
  | nil => rfl
  | cons first mapping ih =>
    rw [List.map_cons, List.mem_cons, not_or] at h
    rw [put, if_neg (Ne.symm h.1), ih h.2, List.cons_append]

/-- A line is refused for its module: if it is a word. -/
theorem isRefused_line (h : IsNamed e) :
    isRefused (plainValue e.1, plainValue e.2) = isWord e.2 := by
  rw [isRefused, holdsLongNumber_plainValue, Bool.false_or, Bool.eq_iff_iff, ← module?_eq_none_iff,
    module?_plainValue h.value]
  cases isWord e.2 <;> simp

/-- Lines of new types are added to a mapping as they are. -/
theorem extend_lines (hnamed : ∀ e ∈ lines, IsNamed e)
    (hshown : ∀ e ∈ lines, showsItself e.1 = true) (hmodules : ∀ e ∈ lines, isWord e.2 = false)
    (hnew : ((mapping ++ lines).map (·.1)).Nodup) (path : Text) :
    extend path mapping (entriesOf lines) = .ok (mapping ++ lines) := by
  induction lines generalizing mapping with
  | nil => rw [List.append_nil]; rfl
  | cons e lines ih =>
    obtain ⟨he, hnamed⟩ := List.forall_mem_cons.1 hnamed
    obtain ⟨hself, hshown⟩ := List.forall_mem_cons.1 hshown
    obtain ⟨hmodule, hmodules⟩ := List.forall_mem_cons.1 hmodules
    have htype : e.1 ∉ mapping.map (·.1) := by
      rw [List.map_append, List.map_cons, List.nodup_append] at hnew
      exact fun hmem => hnew.2.2 _ hmem _ (List.mem_cons_self ..) rfl
    have hsplit : mapping ++ e :: lines = mapping ++ [e] ++ lines := by simp
    rw [hsplit] at hnew ⊢
    rw [← ih hnamed hshown hmodules hnew, entriesOf, List.map_cons, extend, Value.shown,
      holdsLongNumber_plainValue, module?_plainValue he.value, hmodule, display_plainValue hself]
    show extend path (mapping.put e.1 e.2) (entriesOf lines) = _
    rw [put_of_not_mem htype]

/-! ## Files of lines -/

section Files

variable (hfile : w.tree.readBytes (Path.plain path) = .ok (Utf8.encodeAll (document ended lines)))
  (hnamed : ∀ e ∈ lines, IsNamed e)
include hfile hnamed

/-- A file with a type that is too long for a key is refused. -/
theorem load_of_long (hlong : ∃ e ∈ lines, Scan.maxKeyLength < e.1.length) :
    (load path).run w = .error (.mapping (.malformed (Path.plain path))) w := by
  have hread : ofTree w.tree (Path.plain path) =
      .error (.mapping (.malformed (Path.plain path))) := by
    rw [ofTree, hfile]
    simp only [ofBytes, readBytes_document_of_long ended hnamed hlong]
    rfl
  rw [run_load, hread]

variable (hshort : ∀ e ∈ lines, e.1.length ≤ Scan.maxKeyLength)
  (hshown : ∀ e ∈ lines, showsItself e.1 = true) (hdistinct : (lines.map (·.1)).Nodup)
include hshort hshown hdistinct

/-- The mapping of a file of lines is made of their entries. -/
theorem ofTree_lines :
    ofTree w.tree (Path.plain path) =
      if lines.isEmpty then .ok none else
          (extend (Path.plain path) [] (entriesOf lines)).map some := by
  have hkeys : lines.Pairwise fun e e' => (plainValue e.1).sameKey (plainValue e'.1) = false := by
    refine (List.pairwise_map.1 hdistinct).imp_of_mem fun he he' hne => ?_
    rw [← Bool.not_eq_true]
    exact fun hsame => hne (eq_of_sameKey (hshown _ he) (hshown _ he') hsame)
  rw [ofTree, hfile]
  simp only [ofBytes, readBytes_document ended hnamed hshort hkeys]
  cases lines.isEmpty <;> rfl

/-- The first module that is a word is refused, and its type is named. -/
theorem load_of_word (hword : lines.find? (fun e => isWord e.2) = some e) :
    (load path).run w = .error (.mapping (.badModule e.1 (Path.plain path))) w := by
  have hmem := List.mem_of_find?_eq_some hword
  have hempty : lines.isEmpty = false := List.isEmpty_eq_false_iff.2 (List.ne_nil_of_mem hmem)
  have hrefused : List.find? isRefused (entriesOf lines) =
      some (plainValue e.1, plainValue e.2) := by
    rw [entriesOf, List.find?_map, Option.map_eq_some_iff]
    exact ⟨e, (List.find?_congr fun e' he' => isRefused_line (hnamed e' he')).trans hword, rfl⟩
  rw [run_load, ofTree_lines hfile hnamed hshort hshown hdistinct, hempty, if_neg nofun,
    extend_of_refused hrefused, refusal, holdsLongNumber_plainValue,
    display_plainValue (hshown e hmem)]
  rfl

/-- Without such modules the lines are the mapping. -/
theorem load_of_modules (hmodules : ∀ e ∈ lines, isWord e.2 = false) :
    ∃ v, (load path).run w = .ok lines v := by
  rw [run_load, ofTree_lines hfile hnamed hshort hshown hdistinct,
    extend_lines hnamed hshown hmodules (by rwa [List.nil_append])]
  cases hempty : lines.isEmpty with
  | true => exact ⟨w, by rw [List.isEmpty_iff.1 hempty]; rfl⟩
  | false => exact ⟨_, rfl⟩

end Files

/-- What a file of lines comes to, whose types are distinct and are shown as they are written. If a
type is too long for a key, the file is refused as malformed; else if a module is a word, the first
type with such a module is named; else the lines are the mapping, in their order, and whoever
resolves by it gives each type its module. -/
theorem load_document (ended : Bool) (path : Text) (w : World) (hnamed : ∀ e ∈ lines, IsNamed e)
    (hshown : ∀ e ∈ lines, showsItself e.1 = true) (hdistinct : (lines.map (·.1)).Nodup)
    (hfile : w.tree.readBytes (Path.plain path) = .ok (Utf8.encodeAll (document ended lines))) :
    ((∃ e ∈ lines, Scan.maxKeyLength < e.1.length) →
        (load path).run w = .error (.mapping (.malformed (Path.plain path))) w) ∧
      ((∀ e ∈ lines, e.1.length ≤ Scan.maxKeyLength) →
        (∀ e, lines.find? (fun e => isWord e.2) = some e →
            (load path).run w = .error (.mapping (.badModule e.1 (Path.plain path))) w) ∧
          ((∀ e ∈ lines, isWord e.2 = false) → ∃ v, (load path).run w = .ok lines v ∧
            ∀ e ∈ lines, ∀ rest interactive,
              Adviser.Answers (Resolver.resolve ⟨lines :: rest, interactive⟩) e.1 e.2)) := by
  refine ⟨load_of_long hfile hnamed,
    fun hshort => ⟨fun e => load_of_word hfile hnamed hshort hshown hdistinct,
    fun hmodules => ?_⟩⟩
  obtain ⟨v, hv⟩ := load_of_modules hfile hnamed hshort hshown hdistinct hmodules
  refine ⟨v, hv, fun e he rest interactive => Resolver.answers_of_mapped? ?_⟩
  obtain ⟨c, t, hmodule, -⟩ := Text.isIdentifier.exists_cons (hnamed e he).value
  have hlookup : lines.lookup e.1 = some e.2 := by
    obtain ⟨before, after, hlines⟩ := List.append_of_mem he
    refine List.lookup_eq_some_iff.2 ⟨before, after, hlines, fun p hp => ?_⟩
    rw [hlines, List.map_append, List.map_cons, List.nodup_append] at hdistinct
    rw [bne_iff_ne]
    exact (hdistinct.2.2 _ (List.mem_map_of_mem hp) _ (List.mem_cons_self ..)).symm
  rw [Resolver.mapped?, hlookup, Option.filter_some, hmodule]
  rfl

/-- Two lines, the second of which is not ended. -/
theorem load_document_sample :
    ∃ v, (load "/log").run (World.sample "Foo: Bar\nBaz_2: _Net") =
      .ok [("Foo", "Bar"), ("Baz_2", "_Net")] v := by
  have hnamed : ∀ e ∈ ([("Foo", "Bar"), ("Baz_2", "_Net")] : Mapping), IsNamed e :=
    List.forall_mem_cons.2 ⟨⟨by decide, by decide⟩,
      List.forall_mem_singleton.2 ⟨by decide, by decide⟩⟩
  obtain ⟨-, hshort⟩ := load_document false "/log" (World.sample "Foo: Bar\nBaz_2: _Net") hnamed
    (by decide) (by decide) (by decide +kernel)
  obtain ⟨v, hv, -⟩ := (hshort (by decide)).2 (by decide)
  exact ⟨v, hv⟩

/-- Not every file of such lines is the mapping that it looks like: a module may be a
word for a truth value. -/
theorem not_load_document :
    ¬∀ (lines : Mapping) (w : World), (∀ e ∈ lines, IsNamed e) → (lines.map (·.1)).Nodup →
    w.tree.readBytes "/log" = .ok (Utf8.encodeAll (document true lines)) →
      ∃ mapping v, (load "/log").run w = .ok mapping v ∧
        ∀ type, mapping.lookup type = lines.lookup type := by
  intro hall
  have hnamed : ∀ e ∈ ([("Foo", "yes")] : Mapping), IsNamed e :=
    List.forall_mem_singleton.2 ⟨by decide, by decide⟩
  have hfile : (World.sample "Foo: yes\n").tree.readBytes (Path.plain "/log") =
      .ok (Utf8.encodeAll (document true [("Foo", "yes")])) := by decide +kernel
  obtain ⟨mapping, v, hv, -⟩ :=
    hall [("Foo", "yes")] (World.sample "Foo: yes\n") hnamed (by decide) hfile
  have hrefused :=
    load_of_word hfile hnamed (by decide) (by decide) (by decide) (e := ("Foo", "yes")) (by decide)
  rw [hv] at hrefused
  cases hrefused

end ImportRepair.Mapping
