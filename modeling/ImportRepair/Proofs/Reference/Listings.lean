import ImportRepair.Reference.Index
import Mathlib.Data.List.Lex
import Mathlib.Data.List.Sort

/-!
# What the listings of an index depend on

A strictly increasing list is determined by its members. So the listings of an index depend on which
references it holds, and not on the order in which these came. The same goes for which indexes it is
the same as: that each type has an entry, and none an empty one, is what makes the comparison of
entries one of references.

Results:
* `Index.same_eq_true_iff`: indexes are the same exactly if they hold the same references.
* `Index.types_congr`, `Index.pathsFor_congr`: indexes with the same references list the same.
* `Index.types_below`: the types of the references below a type are the first ones.
-/

namespace ImportRepair

/-- Texts that are below a given one come first in an increasing list. -/
theorem filter_below {before rest : List Text} {t : Text}
    (h : (before ++ t :: rest).Pairwise (· < ·)) :
    (before ++ t :: rest).filter (· < t) = before := by
  obtain ⟨_, htail, hbefore⟩ := List.pairwise_append.1 h
  rw [List.filter_append, List.filter_eq_self.2, List.filter_eq_nil_iff.2, List.append_nil]
  · intro u hu
    rw [decide_eq_true_eq]
    obtain rfl | hu := List.mem_cons.1 hu
    · exact List.lt_irrefl u
    · exact List.lt_asymm ((List.pairwise_cons.1 htail).1 u hu)
  · intro u hu
    exact decide_eq_true (hbefore u hu t (List.mem_cons_self ..))

namespace Index

variable {a b : Index}

theorem sorted_types (index : Index) : index.types.Pairwise (· < ·) := Text.sortDistinct_sorted _

theorem sorted_pathsFor (index : Index) (type : Text) : (index.pathsFor type).Pairwise (· < ·) :=
  Text.sortDistinct_sorted _

/-! ## Sameness -/

/-- The entry of a type holds the paths that reported it. -/
theorem mem_references_iff {type path : Text} {paths : List Text}
    (h : (type, paths) ∈ a.entries) : ⟨type, path⟩ ∈ a.references ↔ path ∈ paths := by
  rw [references, mem_standFor]
  constructor
  · rintro ⟨others, hentry, hpath⟩
    have hfound := lookup_eq_some_iff.2 h
    rw [lookup_eq_some_iff.2 hentry, Option.some_inj] at hfound
    exact hfound ▸ hpath
  · exact fun hpath => ⟨paths, h, hpath⟩

theorem sameSet_eq_true_iff {paths others : List Text} :
    sameSet paths others = true ↔ ∀ path, path ∈ paths ↔ path ∈ others := by
  rw [sameSet, Bool.and_eq_true, List.all_eq_true, List.all_eq_true]
  simp only [List.contains_iff_mem]
  exact ⟨fun h path => ⟨h.1 path, h.2 path⟩,
    fun h => ⟨fun path => (h path).1, fun path => (h path).2⟩⟩

theorem same_eq_true : a.same b = true ↔ a.size = b.size ∧
    ∀ type paths, (type, paths) ∈ a.entries →
      ∃ others, (type, others) ∈ b.entries ∧ ∀ path, path ∈ paths ↔ path ∈ others := by
  rw [same, Bool.and_eq_true, decide_eq_true_eq, List.all_eq_true, Prod.forall]
  refine and_congr_right fun _ => forall_congr' fun type => forall_congr' fun paths => ?_
  refine imp_congr_right fun _ => ?_
  simp only [← lookup_eq_some_iff]
  cases b.entries.lookup type with
  | none => simp
  | some others => simp [sameSet_eq_true_iff]

/-- Indexes have the same types if they hold the same references, since no type stands in an
index without a path. -/
theorem perm_keys (h : ∀ r, r ∈ a.references ↔ r ∈ b.references) :
    (a.entries.map Prod.fst).Perm (b.entries.map Prod.fst) := by
  rw [List.perm_ext_iff_of_nodup a.distinct b.distinct]
  intro type
  simp only [mem_keys_iff, h]

theorem size_congr (h : ∀ r, r ∈ a.references ↔ r ∈ b.references) : a.size = b.size := by
  have hlength := (perm_keys h).length_eq
  rwa [List.length_map, List.length_map] at hlength

/-- Two indexes are the same exactly if they hold the same references. -/
theorem same_eq_true_iff : a.same b = true ↔ ∀ r, r ∈ a.references ↔ r ∈ b.references := by
  rw [same_eq_true]
  constructor
  · rintro ⟨hsize, hentries⟩
    have hsubset : a.entries.map Prod.fst ⊆ b.entries.map Prod.fst := by
      intro type htype
      obtain ⟨⟨_, paths⟩, hentry, rfl⟩ := List.mem_map.1 htype
      obtain ⟨others, hothers, _⟩ := hentries _ _ hentry
      exact List.mem_map.2 ⟨_, hothers, rfl⟩
    -- there are as many types in both, so none of the second is missing in the first
    have hkeys : (a.entries.map Prod.fst).Perm (b.entries.map Prod.fst) := by
      refine (List.subperm_of_subset a.distinct hsubset).perm_of_length_le ?_
      rw [List.length_map, List.length_map]
      exact hsize.symm.le
    intro r
    have hmem : r.type ∈ a.entries.map Prod.fst → (r ∈ a.references ↔ r ∈ b.references) := by
      intro htype
      obtain ⟨⟨_, paths⟩, hentry, htype⟩ := List.mem_map.1 htype
      obtain rfl : _ = r.type := htype
      obtain ⟨others, hothers, hsame⟩ := hentries _ _ hentry
      rw [mem_references_iff hentry, mem_references_iff hothers, hsame]
    constructor
    · intro hr
      exact (hmem (mem_keys_iff.2 ⟨r.path, hr⟩)).1 hr
    · intro hr
      exact (hmem (hkeys.mem_iff.2 (mem_keys_iff.2 ⟨r.path, hr⟩))).2 hr
  · intro h
    refine ⟨size_congr h, fun type paths hentry => ?_⟩
    have htype : type ∈ b.entries.map Prod.fst :=
      (perm_keys h).mem_iff.1 (List.mem_map.2 ⟨_, hentry, rfl⟩)
    obtain ⟨⟨_, others⟩, hothers, rfl⟩ := List.mem_map.1 htype
    refine ⟨others, hothers, fun path => ?_⟩
    rw [← mem_references_iff hentry, ← mem_references_iff hothers, h]

/-! ## Listings -/

/-- Indexes with the same references for a type list the same paths for it. -/
theorem pathsFor_congr {type : Text}
    (h : ∀ path, ⟨type, path⟩ ∈ a.references ↔ ⟨type, path⟩ ∈ b.references) :
    a.pathsFor type = b.pathsFor type :=
  (a.sorted_pathsFor type).eq_of_mem_iff (b.sorted_pathsFor type) fun path => by
    rw [mem_pathsFor, mem_pathsFor, h]

/-- Indexes with the same references list the same types. -/
theorem types_congr (h : ∀ r, r ∈ a.references ↔ r ∈ b.references) : a.types = b.types :=
  a.sorted_types.eq_of_mem_iff b.sorted_types fun type => by
    simp only [mem_types, h]

/-- The types of the references below a type are the first ones. -/
theorem types_below {type : Text}
    (h : ∀ r, r ∈ b.references ↔ r ∈ a.references ∧ r.type < type) :
    b.types = a.types.filter (· < type) := by
  refine b.sorted_types.eq_of_mem_iff (a.sorted_types.filter _) fun t => ?_
  rw [List.mem_filter, mem_types, mem_types, decide_eq_true_eq]
  simp only [h]
  exact exists_and_right

theorem isEmpty_iff_types : a.isEmpty = true ↔ a.types = [] := by
  rw [isEmpty, List.isEmpty_iff]
  constructor
  · intro h
    rw [types, h]
    rfl
  · intro h
    have hkeys : a.entries.map Prod.fst = [] := by
      rw [List.eq_nil_iff_forall_not_mem]
      intro type htype
      have hmem : type ∈ a.types := Text.mem_sortDistinct.2 htype
      rw [h] at hmem
      cases hmem
    exact List.map_eq_nil_iff.1 hkeys

end Index

end ImportRepair
