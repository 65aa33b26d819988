import ImportRepair.Proofs.Keeping
import ImportRepair.Proofs.Reference.Listings
import ImportRepair.Reference.Reader
import Mathlib.Data.List.Dedup

/-!
# How an index is built

An index is gathered from a list of references, and further ones are put into it one by one. It
keeps a set of paths for each type, and never an empty one. What it holds, what it lists and which
indexes it is the same as depends on the set of all these references alone: neither their order
counts, nor repetitions, nor which of them came with the list.

Results:
* `Index.Built.mem_references`: an index holds exactly the references that were given.
* `Index.size_eq`: the size of an index is the number of distinct types.
* `Index.same_iff_groups`: two indexes are the same exactly if they group the same
  paths under the same types.
* `Index.Built.canonical`: all of this about an index that was built in any way.
-/

namespace ImportRepair.Index

variable {a b : Index} {given given' : List Reference}

/-! ## Histories -/

/-- An index that was built from some references: gathered from a list of them, with the others put
in one after the other. -/
inductive Built : List Reference → Index → Prop
  | gathered {references w index v} :
      (gather references).run w = .ok index v → Built references index
  | inserted {given index} (r : Reference) : Built given index →
      Built (given ++ [r]) (index.insert r)

/-- An index holds exactly the references that were given. -/
theorem Built.mem_references (h : Built given a) {r : Reference} :
    r ∈ a.references ↔ r ∈ given := by
  induction h with
  | gathered hrun =>
    cases hrun
    exact mem_ofList
  | inserted s _ ih => rw [mem_insert, ih, List.mem_append, List.mem_singleton]

/-! ## Listings -/

/-- The size of an index is the number of distinct types. -/
theorem size_eq (index : Index) :
    index.size = (index.references.map (·.type)).dedup.length := by
  have hperm : (index.entries.map Prod.fst).Perm (index.references.map (·.type)).dedup := by
    rw [List.perm_ext_iff_of_nodup index.distinct (List.nodup_dedup _)]
    intro type
    rw [mem_keys_iff, List.mem_dedup, List.mem_map]
    constructor
    · rintro ⟨path, hr⟩
      exact ⟨_, hr, rfl⟩
    · rintro ⟨r, hr, rfl⟩
      exact ⟨r.path, hr⟩
  rw [size, ← hperm.length_eq, List.length_map]

/-- A type was reported exactly if some path is listed for it. -/
theorem contains_iff {type : Text} : a.contains type = true ↔ a.pathsFor type ≠ [] := by
  rw [contains, Option.isSome_iff_exists]
  constructor
  · rintro ⟨paths, hpaths⟩
    have hentry := lookup_eq_some_iff.1 hpaths
    obtain ⟨path, hpath⟩ := List.exists_mem_of_ne_nil _ (a.filled _ hentry).1
    exact List.ne_nil_of_mem (mem_pathsFor.2 ((mem_references_iff hentry).2 hpath))
  · intro h
    obtain ⟨path, hpath⟩ := List.exists_mem_of_ne_nil _ h
    obtain ⟨paths, hentry, _⟩ := mem_standFor.1 (mem_pathsFor.1 hpath)
    exact ⟨paths, lookup_eq_some_iff.2 hentry⟩

/-- No type stands in an index without a path. -/
theorem paths_ne_nil {group : Text × List Text} (h : group ∈ a.groups) : group.2 ≠ [] := by
  rw [groups] at h
  obtain ⟨type, htype, rfl⟩ := List.mem_map.1 h
  obtain ⟨path, hpath⟩ := mem_types.1 htype
  exact List.ne_nil_of_mem (mem_pathsFor.2 hpath)

/-- Two indexes are the same exactly if they group the same paths under the same types. -/
theorem same_iff_groups : a.same b = true ↔ a.groups = b.groups := by
  rw [same_eq_true_iff]
  constructor
  · intro h
    rw [groups, groups, types_congr h]
    exact List.map_congr_left fun type _ => by rw [pathsFor_congr fun path => h ⟨type, path⟩]
  · intro h r
    have hmem : ∀ index : Index, r ∈ index.references ↔
        ∃ group ∈ index.groups, group.1 = r.type ∧ r.path ∈ group.2 := by
      intro index
      rw [groups]
      constructor
      · intro hr
        refine ⟨_, List.mem_map_of_mem (mem_types.2 ⟨r.path, hr⟩), rfl, ?_⟩
        exact mem_pathsFor.2 hr
      · rintro ⟨group, hgroup, htype, hpath⟩
        obtain ⟨type, _, rfl⟩ := List.mem_map.1 hgroup
        have hr := mem_pathsFor.1 hpath
        rw [show type = r.type from htype] at hr
        exact hr
    rw [hmem a, hmem b, h]

/-- However an index was built, it holds exactly the references that were given: the entry of a type
has the paths that were given for it, and at least one. It lists the types and the paths of each
type in strictly increasing order, no type without a path. It contains a type exactly if it lists a
path for it, and its size is the number of distinct types. It is the same as another index, and
groups the same, exactly if that one was built from the same set of references. -/
theorem Built.canonical (h : Built given a) :
    (∀ type paths, (type, paths) ∈ a.entries →
      paths ≠ [] ∧ ∀ path, path ∈ paths ↔ ⟨type, path⟩ ∈ given) ∧
    (∀ type path, path ∈ a.pathsFor type ↔ ⟨type, path⟩ ∈ given) ∧
    (∀ type, type ∈ a.types ↔ ∃ path, ⟨type, path⟩ ∈ given) ∧
    a.types.Pairwise (· < ·) ∧ (∀ type, (a.pathsFor type).Pairwise (· < ·)) ∧
    (∀ group ∈ a.groups, group.2 ≠ []) ∧
    (∀ type, a.contains type = true ↔ a.pathsFor type ≠ []) ∧
    a.size = (given.map (·.type)).dedup.length ∧
    ∀ given' b, Built given' b →
      (a.same b = true ↔ ∀ r, r ∈ given ↔ r ∈ given') ∧
        (a.same b = true ↔ a.groups = b.groups) := by
  refine ⟨fun type paths hentry => ⟨(a.filled _ hentry).1, fun path => ?_⟩,
    fun type path => ?_, fun type => ?_, a.sorted_types, a.sorted_pathsFor,
    fun group => paths_ne_nil, fun type => contains_iff, ?_,
    fun given' b hb => ⟨?_, same_iff_groups⟩⟩
  · rw [← mem_references_iff hentry, h.mem_references]
  · rw [mem_pathsFor, h.mem_references]
  · simp only [mem_types, h.mem_references]
  · have hmem : ∀ type, type ∈ a.references.map (·.type) ↔ type ∈ given.map (·.type) := by
      intro type
      simp only [List.mem_map, h.mem_references]
    have hperm := (List.perm_ext_iff_of_nodup (List.nodup_dedup _) (List.nodup_dedup _)).2
      fun type => (List.mem_dedup.trans (hmem type)).trans List.mem_dedup.symm
    rw [size_eq, hperm.length_eq]
  · simp only [same_eq_true_iff, h.mem_references, hb.mem_references]

/-- A reference that came with the list in one index, and was put in afterwards, twice, in
another. -/
theorem Built.canonical_split :
    (ofList [⟨"Foo", "/b"⟩, ⟨"Bar", "/a"⟩]).same
      (((ofList [⟨"Bar", "/a"⟩]).insert ⟨"Foo", "/b"⟩).insert ⟨"Foo", "/b"⟩) = true := by
  have hgathered : ∀ references, Built references (ofList references) := fun references =>
    .gathered (w := World.new (.empty []) 0 [] {}) rfl
  have hfirst := hgathered [⟨"Foo", "/b"⟩, ⟨"Bar", "/a"⟩]
  have hsecond := ((hgathered [⟨"Bar", "/a"⟩]).inserted ⟨"Foo", "/b"⟩).inserted ⟨"Foo", "/b"⟩
  obtain ⟨_, _, _, _, _, _, _, _, hsame⟩ := hfirst.canonical
  refine (hsame _ _ hsecond).1.2 fun r => ?_
  simp [or_comm]

end ImportRepair.Index
