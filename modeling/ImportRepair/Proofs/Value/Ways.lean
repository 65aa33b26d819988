import ImportRepair.Proofs.Settings.Sections
import Mathlib.Data.List.Infix

/-!
# Ways of keys

A way of keys leads into nested mappings, key by key, to a value or to nothing. What is put
somewhere is found along every way through that place, and ways that part from it lead to
what they led to before.

Results:
* `Value.along?_cons_set`: one key of a way, after a value was put at a text.
* `Settings.along?_set`: a value put at a key of a section is met only where a way has to do with
  it.
-/

namespace ImportRepair

namespace Value

/-- The value at the end of a way of keys. -/
def along? : List Value → Value → Option Value
  | [], v => some v
  | key :: way, v => (v.entries?.bind (Entries.find? key)).bind (along? way)

/-- Whether a way of keys leads to a mapping. -/
def HasMapping (v : Value) (way : List Value) : Prop := ∃ es, v.along? way = some (.map es)

/-- Whether a way of keys leads, before its end, to something else than a mapping. -/
def IsBlocked (v : Value) (way : List Value) : Prop :=
  ∃ q u, q <+: way ∧ q ≠ way ∧ v.along? q = some u ∧ u.entries? = none

variable {v : Value} {es : Entries} {key : Value} {way q : List Value}

@[simp] theorem along?_nil (v : Value) : v.along? [] = some v := rfl

@[simp] theorem along?_map_cons (es : Entries) (key : Value) (way : List Value) :
    (map es).along? (key :: way) = (es.find? key).bind (along? way) := rfl

theorem along?_cons_of_leaf (h : v.entries? = none) (key : Value) (way : List Value) :
    v.along? (key :: way) = none := by
  rw [along?, h]
  rfl

theorem eq_map_of_entries? (h : v.entries? = some es) : v = .map es := by
  cases v <;> cases h
  rfl

theorem hasMapping_map (es : Entries) : (map es).HasMapping [] := ⟨es, rfl⟩

theorem not_hasMapping_of_leaf (h : v.entries? = none) (way : List Value) : ¬v.HasMapping way := by
  rintro ⟨es, hes⟩
  cases way with
  | nil =>
    rw [along?_nil] at hes
    cases hes
    cases h
  | cons key way =>
    rw [along?_cons_of_leaf h] at hes
    cases hes

theorem hasMapping_map_cons (hv : es.find? key = some v) :
    (map es).HasMapping (key :: way) ↔ v.HasMapping way := by
  unfold HasMapping
  rw [along?_map_cons, hv]
  rfl

theorem isBlocked_of_leaf (h : v.entries? = none) (key : Value) (way : List Value) :
    v.IsBlocked (key :: way) :=
  ⟨[], v, List.nil_prefix, (List.cons_ne_nil _ _).symm, rfl, h⟩

theorem not_isBlocked_of_missing (h : es.find? key = none) : ¬(map es).IsBlocked (key :: way) := by
  rintro ⟨q, u, hq, -, hu, hleaf⟩
  obtain rfl | ⟨q, rfl, -⟩ := List.prefix_cons_iff.1 hq
  · cases hu
    cases hleaf
  · rw [along?_map_cons, h] at hu
    cases hu

theorem isBlocked_map_cons (hv : es.find? key = some v) :
    (map es).IsBlocked (key :: way) ↔ v.IsBlocked way := by
  have halong : ∀ q, (map es).along? (key :: q) = v.along? q := by
    intro q
    rw [along?_map_cons, hv]
    rfl
  constructor
  · rintro ⟨q, u, hq, hne, hu, hleaf⟩
    obtain rfl | ⟨q, rfl, hq'⟩ := List.prefix_cons_iff.1 hq
    · cases hu
      cases hleaf
    · exact ⟨q, u, hq', by simpa using hne, halong q ▸ hu, hleaf⟩
  · rintro ⟨q, u, hq, hne, hu, hleaf⟩
    exact ⟨key :: q, u, List.prefix_cons_inj key |>.2 hq, by simpa using hne, halong q ▸ hu, hleaf⟩

/-! ## Ways that part -/

/-- Ways that part before either of them ends. -/
def Apart (p q : List Value) : Prop := ¬p <+: q ∧ ¬q <+: p

theorem apart_cons {k : Value} {p : List Value} :
    Apart (k :: p) (key :: q) ↔ k ≠ key ∨ Apart p q := by
  unfold Apart
  rw [List.cons_prefix_cons, List.cons_prefix_cons]
  by_cases hk : k = key
  · simp [hk]
  · simp [hk, Ne.symm hk]

theorem Apart.exists_cons {k : Value} {p : List Value} (h : Apart (k :: p) way) :
    ∃ key q, way = key :: q := by
  cases way with
  | nil => exact absurd List.nil_prefix h.2
  | cons key q => exact ⟨key, q, rfl⟩

/-- A way leads through what was put at its first key, or leads where it led. -/
theorem along?_cons_set (es : Entries) (name : Text) (v key : Value) (way : List Value) :
    (map (es.set name v)).along? (key :: way) =
      if (text name).sameKey key then v.along? way else (map es).along? (key :: way) := by
  rw [along?_map_cons, along?_map_cons, Entries.set, Entries.find?_put]
  split <;> rfl

end Value

namespace Settings

open Value

variable {settings entries : Entries} {name key : Text} {way : List Value}

/-- A value put at a key of a section is not met on ways that part from it. -/
theorem along?_set (h : settings.get? name = some (.map entries)) (v : Value)
    (hway : Apart [.text name, .text key] way) :
    (map (set settings name key v)).along? way = (map settings).along? way := by
  obtain ⟨k, way, rfl⟩ := hway.exists_cons
  rw [set, sectionOf_eq h, along?_cons_set]
  split
  · next hname =>
    obtain rfl := text_sameKey.1 hname
    have hrest := (apart_cons.1 hway).resolve_left fun hne => hne rfl
    obtain ⟨k, way, rfl⟩ := hrest.exists_cons
    have hkey : ¬(text key).sameKey k = true := by
      intro hsame
      obtain rfl := text_sameKey.1 hsame
      have hnil := (apart_cons.1 hrest).resolve_left fun hne => hne rfl
      exact hnil.1 List.nil_prefix
    rw [along?_cons_set, if_neg hkey, along?_map_cons settings]
    change _ = (settings.get? name).bind (along? (k :: way))
    rw [h]
    rfl
  · rfl

end Settings

end ImportRepair
