import ImportRepair.Proofs.Settings.Sections
import ImportRepair.Proofs.Yaml.Keys

/-!
# Settings over the defaults

When a file is merged over the defaults, an entry of the file wins, a mapping over a mapping is
merged again, and whatever the file does not have stays. The defaults have no mappings below their
sections, so in a section the file's value wins as it is. A default can only be lost with its whole
section, if the file has no mapping there.

Results:
* `Settings.find?_merge`: the value at a key after merging.
* `Settings.mem_merge`: an entry with a key of its own is taken over.
* `Settings.isSectioned_merge_iff`: every section is a mapping unless the file has something else
  there.
* `Settings.get?_merge`, `Settings.mem_sectionOf_merge`: what a section holds after
  merging over the defaults.
-/

namespace ImportRepair

/-! ## Entries -/

namespace Entries

variable {es : Entries} {e : Value × Value} {k key v value : Value} {name : Text}

/-- An entry is there, under its first spelling, for every value that is found. -/
theorem exists_of_find? (h : find? key es = some v) : ∃ k, (k, v) ∈ es ∧ k.sameKey key = true := by
  induction es with
  | nil => cases h
  | cons e es ih =>
    rw [find?_cons] at h
    split at h
    · next hsame =>
      cases h
      exact ⟨e.1, List.mem_cons_self .., hsame⟩
    · obtain ⟨k, hk, hsame⟩ := ih h
      exact ⟨k, List.mem_cons_of_mem _ hk, hsame⟩

theorem mem_of_get? (h : get? es name = some v) : (.text name, v) ∈ es := by
  obtain ⟨k, hmem, hk⟩ := exists_of_find? h
  rw [← Value.sameKey_text.1 hk]
  exact hmem

theorem find?_of_mem (h : Distinct es) (he : e ∈ es) (hkey : e.1.isKey = true) :
    find? e.1 es = some e.2 := by
  induction es with
  | nil => cases he
  | cons first es ih =>
    obtain ⟨hfirst, hrest⟩ := List.pairwise_cons.1 h
    rw [find?_cons]
    obtain rfl | he := List.mem_cons.1 he
    · rw [if_pos (Value.sameKey_self hkey)]
    · rw [if_neg (hfirst _ he), ih hrest he]

theorem get?_of_mem (h : Distinct es) (he : (.text name, v) ∈ es) : get? es name = some v :=
  find?_of_mem h he rfl

theorem find?_eq_none_iff : find? key es = none ↔ ∀ e ∈ es, ¬e.1.sameKey key = true := by
  induction es with
  | nil => simp [find?]
  | cons e es ih =>
    rw [find?_cons, List.forall_mem_cons, ← ih]
    split
    · next hsame => simp [hsame]
    · next hother => simp [hother]

/-- A key of its own comes last. -/
theorem put_eq_append (h : find? key es = none) (value : Value) :
    put key value es = es ++ [(key, value)] := by
  induction es with
  | nil => rfl
  | cons e es ih =>
    obtain ⟨hfirst, hrest⟩ := List.forall_mem_cons.1 (find?_eq_none_iff.1 h)
    rw [put_cons, if_neg hfirst, ih (find?_eq_none_iff.2 hrest)]
    rfl

/-- A value put where it is already changes nothing. -/
theorem put_of_find? (h : find? key es = some v) : put key v es = es := by
  induction es with
  | nil => cases h
  | cons e es ih =>
    rw [find?_cons] at h
    rw [put_cons]
    split at h
    · next hsame =>
      cases h
      rw [if_pos hsame]
    · next hother => rw [if_neg hother, ih h]

/-- An entry with another key stays. -/
theorem mem_put_of_mem (h : e ∈ es) (hkey : ¬e.1.sameKey key = true) : e ∈ put key value es := by
  induction es with
  | nil => cases h
  | cons first es ih =>
    rw [put_cons]
    split
    · next hsame =>
      obtain rfl | hmem := List.mem_cons.1 h
      · exact absurd hsame hkey
      · exact List.mem_cons_of_mem _ hmem
    · obtain rfl | hmem := List.mem_cons.1 h
      · exact List.mem_cons_self ..
      · exact List.mem_cons_of_mem _ (ih hmem)

/-- A key that is not put is not found. -/
theorem find?_put_eq_none (h : find? k es = none) (hkey : ¬key.sameKey k = true) :
    find? k (put key value es) = none := by
  rw [find?_put, if_neg hkey, h]

end Entries

namespace Settings

variable {base added loaded : Entries} {e : Value × Value} {name key : Text} {v : Value}

/-! ## Merging -/

/-- A value wins as it is over anything but a mapping. -/
theorem mergeValue_eq {base : Option Value} (h : base.bind Value.entries? = none) (v : Value) :
    mergeValue base v = v := by
  cases v with
  | map added =>
    cases base with
    | none => rfl
    | some b => cases b <;> first | rfl | cases h
  | _ => rfl

/-- The value at a key: that of what is added, merged over that of the base, or
else that of the base. -/
theorem find?_merge (h : Entries.Distinct added) (base : Entries) (key : Value) :
    Entries.find? key (merge base added) =
      ((Entries.find? key added).map (mergeValue (Entries.find? key base))).or
        (Entries.find? key base) := by
  induction added generalizing base with
  | nil => rfl
  | cons e added ih =>
    obtain ⟨hfirst, hrest⟩ := List.pairwise_cons.1 h
    rw [merge, ih hrest, Entries.find?_put, Entries.find?_cons]
    by_cases hk : e.1.sameKey key = true
    · have hnone : Entries.find? key added = none := by
        refine Entries.find?_eq_none_iff.2 fun e' he' hsame => hfirst e' he' ?_
        rw [Value.sameKey_congr hsame]
        exact hk
      have hbase : Entries.find? e.1 base = Entries.find? key base := Entries.find?_congr hk base
      rw [if_pos hk, if_pos hk, hnone, hbase]
      rfl
    · rw [if_neg hk, if_neg hk]

/-- The value at a text: that of what is added, merged over that of the base, or
else that of the base. -/
theorem get?_mergeEntries (h : Entries.Distinct added) (base : Entries) (name : Text) :
    Entries.get? (merge base added) name =
      ((Entries.get? added name).map (mergeValue (Entries.get? base name))).or
        (Entries.get? base name) :=
  find?_merge h base (.text name)

/-- An entry that has another key than all those that are added stays. -/
theorem mem_merge_of_mem (h : e ∈ base) (hkeys : ∀ e' ∈ added, ¬e.1.sameKey e'.1 = true) :
    e ∈ merge base added := by
  induction added generalizing base with
  | nil => exact h
  | cons first added ih =>
    obtain ⟨hfirst, hrest⟩ := List.forall_mem_cons.1 hkeys
    exact ih (Entries.mem_put_of_mem h hfirst) hrest

/-- An entry with a key of its own is taken over. -/
theorem mem_merge (h : Entries.Distinct added) (he : e ∈ added)
    (hnew : Entries.find? e.1 base = none) :
    e ∈ merge base added := by
  induction added generalizing base with
  | nil => cases he
  | cons first added ih =>
    obtain ⟨hfirst, hrest⟩ := List.pairwise_cons.1 h
    rw [merge]
    obtain rfl | he := List.mem_cons.1 he
    · refine mem_merge_of_mem ?_ hfirst
      rw [Entries.put_eq_append hnew, hnew, mergeValue_eq rfl]
      exact List.mem_append_right _ (List.mem_singleton.2 rfl)
    · exact ih hrest he (Entries.find?_put_eq_none hnew (hfirst e he))

/-! ## Merging over the defaults -/

/-- The sections of the defaults hold no mappings. -/
theorem entries?_default (hn : name ∈ sections) (key : Text) :
    (get? defaults name key).bind Value.entries? = none := by
  have hflat : ∀ name ∈ sections, ∀ e ∈ sectionOf defaults name, e.2.entries?.isNone = true := by
    decide
  cases hv : get? defaults name key with
  | none => rfl
  | some v => exact Option.isNone_iff_eq_none.1 (hflat name hn _ (Entries.mem_of_get? hv))

/-- The keys of the defaults are texts. -/
theorem isNamed_default (hn : name ∈ sections) (he : e ∈ sectionOf defaults name) :
    ∃ key, e.1 = .text key := by
  have hnamed : ∀ name ∈ sections, ∀ e ∈ sectionOf defaults name, e.1.text?.isSome = true := by
    decide
  obtain ⟨key, hkey⟩ := Option.isSome_iff_exists.1 (hnamed name hn e he)
  refine ⟨key, ?_⟩
  revert hkey
  cases e.1 <;> simp [Value.text?]

/-- What stands at a section after merging over the defaults. -/
theorem get?_section (h : Entries.Distinct loaded) (hn : name ∈ sections) :
    Entries.get? (merge defaults loaded) name =
      match Entries.get? loaded name with
      | none => some (.map (sectionOf defaults name))
      | some (.map entries) => some (.map (merge (sectionOf defaults name) entries))
      | some v => some v := by
  obtain ⟨entries, he⟩ := isSectioned_defaults name hn
  rw [get?_mergeEntries h, he, sectionOf_eq he]
  cases Entries.get? loaded name with
  | none => rfl
  | some v => cases v <;> rfl

/-- Every section is a mapping unless the file has something else there. -/
theorem isSectioned_merge_iff (h : Entries.Distinct loaded) :
    IsSectioned (merge defaults loaded) ↔
      ∀ name ∈ sections, ∀ v, Entries.get? loaded name = some v → ∃ entries, v = .map entries := by
  refine forall₂_congr fun name hn => ?_
  rw [get?_section h hn]
  cases Entries.get? loaded name with
  | none => simp
  | some v => cases v <;> simp

/-- A section is that of the file merged over that of the defaults. -/
theorem sectionOf_merge (h : Entries.Distinct loaded) (hs : IsSectioned (merge defaults loaded))
    (hn : name ∈ sections) :
    sectionOf (merge defaults loaded) name =
      merge (sectionOf defaults name) (sectionOf loaded name) := by
  have hfound := get?_section h hn
  have hmap := (isSectioned_merge_iff h).1 hs name hn
  rw [sectionOf, hfound,
    show sectionOf loaded name = ((Entries.get? loaded name).bind Value.entries?).getD [] from rfl]
  cases hl : Entries.get? loaded name with
  | none => rfl
  | some v =>
    obtain ⟨entries, rfl⟩ := hmap v hl
    rfl

/-- The value at a key of a section: that of the file, or else that of the defaults. -/
theorem get?_merge (h : Entries.Distinct loaded) (hs : IsSectioned (merge defaults loaded))
    (hsection : Entries.Distinct (sectionOf loaded name)) (hn : name ∈ sections) (key : Text) :
    get? (merge defaults loaded) name key = (get? loaded name key).or (get? defaults name key) := by
  have hvalue : ∀ v, mergeValue (get? defaults name key) v = v :=
    mergeValue_eq (entries?_default hn key)
  rw [get?, sectionOf_merge h hs hn, get?_mergeEntries hsection]
  change ((get? loaded name key).map (mergeValue (get? defaults name key))).or
    (get? defaults name key) = _
  simp only [funext hvalue, Option.map_id']

/-- The entries of a section of a file have each key once. -/
theorem distinct_sectionOf (h : (Value.map loaded).IsKeyed 2) (name : Text) :
    Entries.Distinct (sectionOf loaded name) := by
  rw [sectionOf]
  cases hv : Entries.get? loaded name with
  | none => exact .nil
  | some v =>
    have hkeyed := h.2 _ (Entries.mem_of_get? hv)
    cases v with
    | map entries => exact hkeyed.1
    | _ => exact .nil

/-- Every default has a value after merging over it. -/
theorem isSome_merge (hkeyed : (Value.map loaded).IsKeyed 2)
    (hs : IsSectioned (merge defaults loaded)) (hn : name ∈ sections)
    (hdefault : (get? defaults name key).isSome = true) :
    (get? (merge defaults loaded) name key).isSome = true := by
  rw [get?_merge hkeyed.1 hs (distinct_sectionOf hkeyed name) hn, Option.isSome_or,
    hdefault, Bool.or_true]

/-- The entries of a section of the file are there after merging over the defaults. -/
theorem mem_sectionOf_merge (h : Entries.Distinct loaded) (hs : IsSectioned (merge defaults loaded))
    (hsection : Entries.Distinct (sectionOf loaded name)) (hn : name ∈ sections)
    (he : e ∈ sectionOf loaded name) : e ∈ sectionOf (merge defaults loaded) name := by
  cases hnew : Entries.find? e.1 (sectionOf defaults name) with
  | none =>
    rw [sectionOf_merge h hs hn]
    exact mem_merge hsection he hnew
  | some v =>
    obtain ⟨k, hmem, hk⟩ := Entries.exists_of_find? hnew
    obtain ⟨key, rfl⟩ := isNamed_default hn hmem
    obtain ⟨k, value⟩ := e
    obtain rfl := Value.text_sameKey.1 hk
    refine Entries.mem_of_get? ?_
    show get? (merge defaults loaded) name key = some value
    rw [get?_merge h hs hsection hn, get?, Entries.get?_of_mem hsection he]
    rfl

end Settings

end ImportRepair
