import ImportRepair.Proofs.Settings.Merging
import ImportRepair.Proofs.Value.Ways

/-!
# Nested mappings merged over one another

A nested mapping is a tree whose branches are keys, and a way of keys leads to a place in it. What
merging leaves at such a place is settled by what both trees have there and on the way to it,
whatever stands beside the way. The proof follows the way: one key leads from two mappings and their
merger to two values and theirs.

Results:
* `Value.along?_merge_cons`: the first key of a way, after merging.
* `Settings.merge_along`: what merging leaves at each place, and that merging once more changes
  nothing.
-/

namespace ImportRepair

/-! ## Nested mappings -/

namespace Value

/-- A nested mapping as a tree: its keys can be keys, none stands twice, and what stands at them is
a tree again. Whatever is no mapping is a leaf. -/
inductive IsNested : Value → Prop
  | leaf {v : Value} (h : v.entries? = none) : IsNested v
  | mapping {es : Entries} (distinct : es.Distinct) (keys : ∀ e ∈ es, e.1.isKey = true)
      (below : ∀ e ∈ es, IsNested e.2) : IsNested (.map es)

variable {v key : Value} {es : Entries}

namespace IsNested

theorem distinct (h : (map es).IsNested) : es.Distinct := by
  cases h with
  | leaf h => cases h
  | mapping distinct _ _ => exact distinct

theorem isKey (h : (map es).IsNested) {e : Value × Value} (he : e ∈ es) : e.1.isKey = true := by
  cases h with
  | leaf h => cases h
  | mapping _ keys _ => exact keys e he

theorem of_mem (h : (map es).IsNested) {e : Value × Value} (he : e ∈ es) : e.2.IsNested := by
  cases h with
  | leaf h => cases h
  | mapping _ _ below => exact below e he

theorem find? (h : (map es).IsNested) (hv : es.find? key = some v) : v.IsNested := by
  obtain ⟨k, hmem, -⟩ := Entries.exists_of_find? hv
  exact h.of_mem hmem

end IsNested

end Value

namespace Settings

open Value

variable {base added : Entries} {b? : Option Value} {v w key : Value} {way : List Value}

/-! ## One place -/

/-- What stands at the end of a way in a value that was merged over another one, if there was
one. -/
structure IsMergedAlong (base? : Option Value) (added merged : Value)
    (way : List Value) : Prop where
  /-- What is added wins unless it is a mapping that meets mappings all the way. -/
  overridden : ∀ v, added.along? way = some v →
    (v.entries? = none ∨ ∃ q, q <+: way ∧ ∀ b, base? = some b → ¬b.HasMapping q) →
    merged.along? way = some v
  /-- A mapping that meets mappings all the way is merged with the one it meets at the end. -/
  joined : ∀ b, base? = some b → (∀ q, q <+: way → b.HasMapping q) →
    (∀ q, q <+: way → added.HasMapping q) →
    ∃ old new, b.along? way = some (.map old) ∧ added.along? way = some (.map new) ∧
      merged.along? way = some (.map (merge old new))
  /-- Where nothing is added, and nothing but mappings on the way, the base stays. -/
  kept : added.along? way = none → ¬added.IsBlocked way →
    merged.along? way = base?.bind (along? way)
  /-- Where nothing is added but something else than a mapping on the way, nothing stands. -/
  covered : added.along? way = none → added.IsBlocked way → merged.along? way = none

theorem mergeValue_leaf (h : v.entries? = none) (b? : Option Value) : mergeValue b? v = v := by
  cases v <;> first | rfl | cases h

/-- What is no mapping is taken as it is. -/
theorem IsMergedAlong.of_leaf (h : v.entries? = none) (base? : Option Value) (way : List Value) :
    IsMergedAlong base? v v way where
  overridden := fun _ hu _ => hu
  joined := fun _ _ _ hadded =>
    absurd (hadded way (List.prefix_refl way)) (not_hasMapping_of_leaf h way)
  kept := by
    intro hnone hfree
    cases way with
    | nil => cases hnone
    | cons key way => exact absurd (isBlocked_of_leaf h key way) hfree
  covered := fun hnone _ => hnone

/-- Without a mapping to meet, a mapping is taken as it is. -/
theorem IsMergedAlong.of_bare (h : b?.bind entries? = none) (v : Value) (way : List Value) :
    IsMergedAlong b? v v way where
  overridden := fun _ hu _ => hu
  joined := by
    rintro b rfl hb -
    exact absurd (hb [] List.nil_prefix) (not_hasMapping_of_leaf h [])
  kept := by
    intro hnone _
    cases way with
    | nil => cases hnone
    | cons key way =>
      rw [hnone]
      cases b? with
      | none => rfl
      | some b => exact (along?_cons_of_leaf h key way).symm
  covered := fun hnone _ => hnone

/-- Two mappings that meet are merged. -/
theorem IsMergedAlong.of_maps (base added : Entries) :
    IsMergedAlong (some (.map base)) (.map added) (.map (merge base added)) [] where
  overridden := by
    rintro v hv (hleaf | ⟨q, hq, hbase⟩)
    · cases hv
      cases hleaf
    · rw [List.prefix_nil] at hq
      exact absurd (hq ▸ hasMapping_map base) (hbase _ rfl)
  joined := by
    rintro _ ⟨⟩ - -
    exact ⟨base, added, rfl, rfl, rfl⟩
  kept := nofun
  covered := nofun

/-- One key leads from two mappings and their merger to what both have there, and
to the merger of that. -/
theorem along?_merge_cons (h : Entries.Distinct added) (base : Entries) (key : Value)
    (way : List Value) :
    (map (merge base added)).along? (key :: way) =
      match Entries.find? key added with
      | none => (map base).along? (key :: way)
      | some w => (mergeValue (Entries.find? key base) w).along? way := by
  rw [along?_map_cons, along?_map_cons, find?_merge h]
  cases Entries.find? key added <;> rfl

/-- Where nothing is added at the first key, the base stays. -/
theorem IsMergedAlong.of_missing (h : Entries.Distinct added) (base : Entries)
    (hkey : Entries.find? key added = none) (way : List Value) :
    IsMergedAlong (some (.map base)) (.map added) (.map (merge base added)) (key :: way) := by
  have hadded : ∀ q, (map added).along? (key :: q) = none := by
    intro q
    rw [along?_map_cons, hkey]
    rfl
  refine ⟨?_, ?_, ?_, ?_⟩
  · intro v hv
    rw [hadded] at hv
    cases hv
  · intro b _ _ hmaps
    obtain ⟨es, hes⟩ := hmaps _ (List.prefix_refl _)
    rw [hadded] at hes
    cases hes
  · intro _ _
    rw [along?_merge_cons h, hkey]
    rfl
  · intro _ hblocked
    exact absurd hblocked (not_isBlocked_of_missing hkey)

/-- Where something is added at the first key, the rest of the way leads through that. -/
theorem IsMergedAlong.of_found (h : Entries.Distinct added)
    (hkey : Entries.find? key added = some w)
    (hrest : IsMergedAlong (Entries.find? key base) w (mergeValue (Entries.find? key base) w) way) :
    IsMergedAlong (some (.map base)) (.map added) (.map (merge base added)) (key :: way) := by
  have hadded : ∀ q, (map added).along? (key :: q) = w.along? q := by
    intro q
    rw [along?_map_cons, hkey]
    rfl
  have hmerged : (map (merge base added)).along? (key :: way) =
      (mergeValue (Entries.find? key base) w).along? way := by
    rw [along?_merge_cons h, hkey]
  refine ⟨?_, ?_, ?_, ?_⟩
  · rintro v hv hwins
    rw [hadded] at hv
    rw [hmerged]
    apply hrest.overridden v hv
    refine hwins.imp_right ?_
    rintro ⟨q, hq, hbase⟩
    obtain rfl | ⟨q, rfl, hq'⟩ := List.prefix_cons_iff.1 hq
    · exact absurd (hasMapping_map base) (hbase _ rfl)
    · exact ⟨q, hq', fun b hb hmap => hbase _ rfl ((hasMapping_map_cons hb).2 hmap)⟩
  · rintro _ ⟨⟩ hbase hmaps
    obtain ⟨es, hes⟩ := hbase [key] (List.prefix_cons_inj key |>.2 List.nil_prefix)
    rw [along?_map_cons] at hes
    obtain ⟨b, hb, -⟩ := Option.bind_eq_some_iff.1 hes
    rw [along?_map_cons, hb, hadded, hmerged]
    apply hrest.joined b hb
    · intro q hq
      exact (hasMapping_map_cons hb).1 (hbase (key :: q) (List.prefix_cons_inj key |>.2 hq))
    · intro q hq
      exact (hasMapping_map_cons hkey).1 (hmaps (key :: q) (List.prefix_cons_inj key |>.2 hq))
  · intro hnone hfree
    rw [hadded] at hnone
    rw [hmerged]
    exact hrest.kept hnone fun hblocked => hfree ((isBlocked_map_cons hkey).2 hblocked)
  · intro hnone hblocked
    rw [hadded] at hnone
    rw [hmerged]
    exact hrest.covered hnone ((isBlocked_map_cons hkey).1 hblocked)

/-- Only two mappings that meet have to be looked into. -/
theorem IsMergedAlong.of_meeting (way : List Value)
    (h : ∀ base added, b? = some (.map base) → v = .map added →
      IsMergedAlong b? v (mergeValue b? v) way) :
    IsMergedAlong b? v (mergeValue b? v) way := by
  cases hv : v.entries? with
  | none =>
    rw [mergeValue_leaf hv]
    exact .of_leaf hv b? way
  | some added =>
    cases hb : b?.bind entries? with
    | none =>
      rw [mergeValue_eq hb]
      exact .of_bare hb v way
    | some base =>
      obtain ⟨b, rfl, hbase⟩ := Option.bind_eq_some_iff.1 hb
      obtain rfl := eq_map_of_entries? hbase
      exact h base added rfl (eq_map_of_entries? hv)

/-- What stands along any way in a value that was merged over another one. -/
theorem isMergedAlong_mergeValue (h : v.IsNested) (b? : Option Value) (way : List Value) :
    IsMergedAlong b? v (mergeValue b? v) way := by
  induction way generalizing b? v with
  | nil =>
    refine .of_meeting [] ?_
    rintro base added rfl rfl
    exact .of_maps base added
  | cons key way ih =>
    refine .of_meeting (key :: way) ?_
    rintro base added rfl rfl
    cases hkey : Entries.find? key added with
    | none => exact .of_missing h.distinct base hkey way
    | some w => exact .of_found h.distinct hkey (ih (h.find? hkey) _)

/-! ## Merging once more -/

/-- Merging what is there already changes nothing. -/
theorem merge_of_absorbed {es : Entries}
    (h : ∀ e ∈ added, ∃ v, Entries.find? e.1 es = some v ∧ mergeValue (some v) e.2 = v) :
    merge es added = es := by
  induction added with
  | nil => rfl
  | cons e added ih =>
    obtain ⟨⟨v, hv, habsorbed⟩, hrest⟩ := List.forall_mem_cons.1 h
    rw [merge, hv, habsorbed, Entries.put_of_find? hv]
    exact ih hrest

/-- Merging the same value once more changes nothing. -/
theorem mergeValue_mergeValue (h : v.IsNested) (b? : Option Value) :
    mergeValue (some (mergeValue b? v)) v = mergeValue b? v := by
  induction h generalizing b? with
  | leaf hleaf => rw [mergeValue_leaf hleaf, mergeValue_leaf hleaf]
  | @mapping added hdistinct hkeys _ ih =>
    have hfind : ∀ e ∈ added, Entries.find? e.1 added = some e.2 := fun e he =>
      Entries.find?_of_mem hdistinct he (hkeys e he)
    cases hb : b?.bind entries? with
    | none =>
      -- without a mapping to meet, what is added meets itself
      rw [mergeValue_eq hb]
      refine congrArg Value.map (merge_of_absorbed fun e he => ⟨e.2, hfind e he, ?_⟩)
      have hnone : mergeValue none e.2 = e.2 := mergeValue_eq rfl e.2
      have hself := ih e he none
      rwa [hnone] at hself
    | some base =>
      obtain ⟨b, rfl, hbase⟩ := Option.bind_eq_some_iff.1 hb
      obtain rfl := eq_map_of_entries? hbase
      refine congrArg Value.map (merge_of_absorbed fun e he =>
        ⟨_, ?_, ih e he (Entries.find? e.1 base)⟩)
      rw [find?_merge hdistinct, hfind e he]
      rfl

/-- At every place, merging nested mappings leaves what is added unless it is a mapping that meets
mappings all the way, which is merged; where nothing is added it leaves the base, unless something
else than a mapping is added on the way. Merging the same once more changes nothing. -/
theorem merge_along (base : Entries) (h : (Value.map added).IsNested) :
    (∀ way, IsMergedAlong (some (.map base)) (.map added) (.map (merge base added)) way) ∧
      merge (merge base added) added = merge base added := by
  refine ⟨isMergedAlong_mergeValue h (some (.map base)), ?_⟩
  have hagain := mergeValue_mergeValue h (some (.map base))
  exact Value.map.inj hagain

/-- The extension of a file wins over that of the defaults beside it, and a text where a section was
leaves nothing of the section. -/
theorem merge_along_extension :
    let added : Entries :=
      [(.text "build_log", table [("file_extension", .text "kt")]), (.text "ui", .text "none")]
    let merged := Value.map (merge defaults added)
    (Value.map added).IsNested ∧
      merged.along? [.text "build_log", .text "file_extension"] = some (.text "kt") ∧
      merged.along? [.text "build_log", .text "default_path"] = some (.text "output.txt") ∧
      merged.along? [.text "ui", .text "type"] = none ∧
      merge (merge defaults added) added = merge defaults added := by
  intro added merged
  have hnested : (Value.map added).IsNested := by
    refine .mapping (by unfold Entries.Distinct; decide) (by decide) ?_
    simp only [added, List.forall_mem_cons]
    refine ⟨.mapping (List.pairwise_singleton ..) (by decide) ?_, .leaf rfl, nofun⟩
    rintro e he
    rw [List.map_singleton, List.mem_singleton] at he
    rw [he]
    exact .leaf rfl
  obtain ⟨halong, hagain⟩ := merge_along defaults hnested
  refine ⟨hnested, (halong _).overridden _ rfl (.inl rfl), (halong _).kept rfl ?_,
    (halong _).covered rfl ?_, hagain⟩
  · rw [isBlocked_map_cons (v := table [("file_extension", .text "kt")]) rfl]
    exact not_isBlocked_of_missing rfl
  · exact ⟨[.text "ui"], .text "none", ⟨[.text "type"], rfl⟩, by simp, rfl, rfl⟩

end Settings

end ImportRepair
