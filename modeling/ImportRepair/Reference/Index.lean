import ImportRepair.Reference.ErrorLine
import ImportRepair.Text.Quoted

/-!
# The index of references

The paths that reported each missing type, each type with its set of paths. Types and the
paths of a type are listed in code-point order, so the listings do not depend on the order in
which the references came.

Results:
* `Index.mem_insert`, `Index.mem_ofList`: what an index holds.
* `Index.mem_types`, `Index.mem_pathsFor`: what its listings hold.
-/

namespace ImportRepair

/-- The paths that reported each missing type, in the order of their first appearance. -/
structure Index where
  entries : List (Text × List Text)
  /-- No type has two entries. -/
  distinct : (entries.map Prod.fst).Nodup := by simp
  /-- Every type has a path, and no path is there twice. -/
  filled : ∀ entry ∈ entries, entry.2 ≠ [] ∧ entry.2.Nodup := by simp

namespace Index

/-! ## Building -/

/-- The index without references. -/
def empty : Index := { entries := [] }

/-- A set of texts with a text more. One that it has changes nothing. -/
def adjoin (text : Text) (texts : List Text) : List Text :=
  if text ∈ texts then texts else texts ++ [text]

/-- Entries with a path added to those of a type. A new type comes last. -/
def addTo (type path : Text) : List (Text × List Text) → List (Text × List Text)
  | [] => [(type, adjoin path [])]
  | (known, paths) :: rest =>
    if known = type then (known, adjoin path paths) :: rest
    else (known, paths) :: addTo type path rest

theorem mem_adjoin {text added : Text} {texts : List Text} :
    text ∈ adjoin added texts ↔ text ∈ texts ∨ text = added := by
  unfold adjoin
  split
  · next h => exact ⟨Or.inl, fun htext => htext.elim id fun e => e ▸ h⟩
  · rw [List.mem_append, List.mem_singleton]

theorem adjoin_ne_nil (text : Text) (texts : List Text) : adjoin text texts ≠ [] :=
  List.ne_nil_of_mem (mem_adjoin.2 (Or.inr rfl))

theorem nodup_adjoin (text : Text) {texts : List Text} (h : texts.Nodup) :
    (adjoin text texts).Nodup := by
  unfold adjoin
  split
  · exact h
  · next hnew =>
    rw [List.nodup_append]
    refine ⟨h, by simp, ?_⟩
    intro a ha b hb hab
    rw [List.mem_singleton.1 hb] at hab
    exact hnew (hab ▸ ha)

/-- The types of entries with a path more: the type of the path is among them. -/
theorem map_fst_addTo (type path : Text) (entries : List (Text × List Text)) :
    (addTo type path entries).map Prod.fst = adjoin type (entries.map Prod.fst) := by
  induction entries with
  | nil => rfl
  | cons entry rest ih =>
    obtain ⟨known, paths⟩ := entry
    rw [addTo]
    split
    · next h =>
      subst h
      show known :: rest.map Prod.fst = adjoin known (known :: rest.map Prod.fst)
      rw [adjoin, if_pos (List.mem_cons_self ..)]
    · next h =>
      show known :: (addTo type path rest).map Prod.fst = adjoin type (known :: rest.map Prod.fst)
      rw [ih, adjoin, adjoin]
      by_cases hmem : type ∈ rest.map Prod.fst
      · rw [if_pos hmem, if_pos (List.mem_cons_of_mem _ hmem)]
      · have hnew : type ∉ known :: rest.map Prod.fst := by
          rw [List.mem_cons]
          rintro (rfl | hrest) <;> contradiction
        rw [if_neg hmem, if_neg hnew, List.cons_append]

/-- Entries keep that every type has a path, and no path is there twice. -/
theorem filled_addTo (type path : Text) {entries : List (Text × List Text)}
    (h : ∀ entry ∈ entries, entry.2 ≠ [] ∧ entry.2.Nodup) :
    ∀ entry ∈ addTo type path entries, entry.2 ≠ [] ∧ entry.2.Nodup := by
  induction entries with
  | nil =>
    rw [addTo, List.forall_mem_singleton]
    exact ⟨adjoin_ne_nil path [], nodup_adjoin path List.nodup_nil⟩
  | cons entry rest ih =>
    obtain ⟨known, paths⟩ := entry
    rw [List.forall_mem_cons] at h
    rw [addTo]
    split
    · rw [List.forall_mem_cons]
      exact ⟨⟨adjoin_ne_nil path paths, nodup_adjoin path h.1.2⟩, h.2⟩
    · rw [List.forall_mem_cons]
      exact ⟨h.1, ih h.2⟩

/-- The index with a reference more. One that it has changes nothing. -/
def insert (r : Reference) (index : Index) : Index where
  entries := addTo r.type r.path index.entries
  distinct := by
    rw [map_fst_addTo]
    exact nodup_adjoin r.type index.distinct
  filled := filled_addTo r.type r.path index.filled

/-- The index of a list of references. -/
def ofList (rs : List Reference) : Index := rs.foldl (fun index r => index.insert r) empty

/-! ## Listings -/

/-- The paths of a type in the order of their first appearance. A type without an entry has none. -/
def unsortedPathsFor (index : Index) (type : Text) : List Text :=
  (index.entries.lookup type).getD []

/-- The distinct missing types, in code-point order. -/
def types (index : Index) : List Text := Text.sortDistinct (index.entries.map Prod.fst)

/-- The paths that reported a type, in code-point order. -/
def pathsFor (index : Index) (type : Text) : List Text :=
  Text.sortDistinct (index.unsortedPathsFor type)

/-- The number of distinct types. -/
def size (index : Index) : Nat := index.entries.length

/-- Whether nothing was reported. -/
def isEmpty (index : Index) : Bool := index.entries.isEmpty

/-- Whether a type was reported. -/
def contains (index : Index) (type : Text) : Bool := (index.entries.lookup type).isSome

/-- Whether two sets of paths hold the same. -/
def sameSet (paths others : List Text) : Bool :=
  paths.all (others.contains ·) && others.all (paths.contains ·)

/-- Whether two indexes have the same types, with the same set of paths each. -/
def same (a b : Index) : Bool :=
  a.size = b.size && a.entries.all fun (type, paths) =>
    match b.entries.lookup type with
    | some others => sameSet paths others
    | none => false

/-- Types with their paths, both in code-point order. -/
def groups (index : Index) : List (Text × List Text) :=
  index.types.map fun type => (type, index.pathsFor type)

/-- The index as a program would write it. -/
def literal (index : Index) : Text :=
  let group : Text × List Text → Text := fun (type, paths) =>
    type.quoted ++ ": \x7b" ++ Text.join ", " (paths.map Text.quoted) ++ "\x7d"
  "BrokenReferenceIndex(\x7b" ++ Text.join ", " (index.entries.map group) ++ "\x7d)"

/-! ## References -/

/-- The references that entries stand for. -/
def standFor (entries : List (Text × List Text)) : List Reference :=
  entries.flatMap fun (type, paths) => paths.map (⟨type, ·⟩)

/-- The references that an index holds. -/
def references (index : Index) : List Reference := standFor index.entries

theorem standFor_cons (type : Text) (paths : List Text) (rest : List (Text × List Text)) :
    standFor ((type, paths) :: rest) = paths.map (⟨type, ·⟩) ++ standFor rest := rfl

theorem mem_standFor {entries : List (Text × List Text)} {r : Reference} :
    r ∈ standFor entries ↔ ∃ paths, (r.type, paths) ∈ entries ∧ r.path ∈ paths := by
  rw [standFor, List.mem_flatMap]
  constructor
  · rintro ⟨⟨type, paths⟩, hentry, hr⟩
    obtain ⟨path, hpath, rfl⟩ := List.mem_map.1 hr
    exact ⟨paths, hentry, hpath⟩
  · rintro ⟨paths, hentry, hpath⟩
    exact ⟨_, hentry, List.mem_map_of_mem hpath⟩

/-- Entries with a path more stand for one reference more. -/
theorem mem_standFor_addTo {entries : List (Text × List Text)} {r s : Reference} :
    s ∈ standFor (addTo r.type r.path entries) ↔ s ∈ standFor entries ∨ s = r := by
  have hadd : ∀ paths : List Text, s ∈ (adjoin r.path paths).map (Reference.mk r.type) ↔
      s ∈ paths.map (Reference.mk r.type) ∨ s = r := by
    intro paths
    simp only [List.mem_map, mem_adjoin]
    constructor
    · rintro ⟨path, hpath | rfl, rfl⟩
      · exact Or.inl ⟨path, hpath, rfl⟩
      · exact Or.inr rfl
    · rintro (⟨path, hpath, rfl⟩ | rfl)
      · exact ⟨path, Or.inl hpath, rfl⟩
      · exact ⟨s.path, Or.inr rfl, rfl⟩
  induction entries with
  | nil =>
    rw [addTo, standFor_cons, List.mem_append, hadd]
    simp [standFor]
  | cons entry rest ih =>
    obtain ⟨known, paths⟩ := entry
    rw [addTo]
    split
    · next h =>
      rw [h, standFor_cons, standFor_cons, List.mem_append, List.mem_append, hadd, or_right_comm]
    · rw [standFor_cons, standFor_cons, List.mem_append, List.mem_append, or_assoc]
      exact or_congr_right ih

theorem mem_insert {r s : Reference} {index : Index} :
    s ∈ (index.insert r).references ↔ s ∈ index.references ∨ s = r := mem_standFor_addTo

theorem mem_foldl_insert {rs : List Reference} {s : Reference} {index : Index} :
    s ∈ (rs.foldl (fun index r => index.insert r) index).references ↔
      s ∈ index.references ∨ s ∈ rs := by
  induction rs generalizing index with
  | nil => simp
  | cons r rs ih => rw [List.foldl_cons, ih, mem_insert, List.mem_cons, or_assoc]

theorem mem_ofList {rs : List Reference} {s : Reference} :
    s ∈ (ofList rs).references ↔ s ∈ rs := by
  rw [ofList, mem_foldl_insert]
  simp [empty, references, standFor]

/-- The entry of a type is what is found for it. -/
theorem lookup_eq_some_iff {index : Index} {type : Text} {paths : List Text} :
    index.entries.lookup type = some paths ↔ (type, paths) ∈ index.entries := by
  have hdistinct := index.distinct
  generalize index.entries = entries at hdistinct
  induction entries with
  | nil => simp
  | cons entry rest ih =>
    obtain ⟨known, others⟩ := entry
    rw [List.map_cons, List.nodup_cons] at hdistinct
    rw [List.lookup_cons, List.mem_cons, Prod.mk.injEq]
    by_cases h : type = known
    · subst h
      have hrest : (type, paths) ∉ rest := fun hmem =>
        hdistinct.1 (List.mem_map.2 ⟨_, hmem, rfl⟩)
      simp [hrest, eq_comm]
    · rw [beq_false_of_ne h]
      simp only [h, false_and, false_or]
      exact ih hdistinct.2

/-- A type has an entry exactly if some path reported it. -/
theorem mem_keys_iff {index : Index} {type : Text} :
    type ∈ index.entries.map Prod.fst ↔ ∃ path, ⟨type, path⟩ ∈ index.references := by
  rw [List.mem_map]
  constructor
  · rintro ⟨⟨_, paths⟩, hentry, rfl⟩
    obtain ⟨path, hpath⟩ := List.exists_mem_of_ne_nil _ (index.filled _ hentry).1
    exact ⟨path, mem_standFor.2 ⟨paths, hentry, hpath⟩⟩
  · rintro ⟨path, h⟩
    obtain ⟨paths, hentry, _⟩ := mem_standFor.1 h
    exact ⟨_, hentry, rfl⟩

theorem mem_types {index : Index} {type : Text} :
    type ∈ index.types ↔ ∃ path, ⟨type, path⟩ ∈ index.references := by
  rw [types, Text.mem_sortDistinct, mem_keys_iff]

theorem mem_pathsFor {index : Index} {type path : Text} :
    path ∈ index.pathsFor type ↔ ⟨type, path⟩ ∈ index.references := by
  rw [pathsFor, Text.mem_sortDistinct, unsortedPathsFor, references, mem_standFor]
  constructor
  · intro h
    cases hpaths : index.entries.lookup type with
    | none =>
      rw [hpaths] at h
      cases h
    | some paths =>
      rw [hpaths] at h
      exact ⟨paths, lookup_eq_some_iff.1 hpaths, h⟩
  · rintro ⟨paths, hentry, hpath⟩
    rw [lookup_eq_some_iff.2 hentry]
    exact hpath

end Index

end ImportRepair
