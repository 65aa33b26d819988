import ImportRepair.Proofs.Value.Keys
import ImportRepair.Settings.LookUp

/-!
# Sections of settings

Settings that were loaded have a mapping for every section, and keep it whatever is put into them.
So a value can be looked up in a section without fail.

Results:
* `Entries.get?_put`, `Entries.get?_set`: a value put at a key is found there, and the
  values at other keys stay.
* `Settings.isSectioned_defaults`: the defaults have their sections.
* `Settings.get?_set`: the same for the keys of sections.
* `Settings.sectionAt_eq`: looking a section up does not fail.
* `Settings.item_eq_ok_iff`: an item is there exactly if its section is a mapping that has the key.
-/

namespace ImportRepair

/-! ## Entries -/

theorem Value.sameKey_text {k : Value} {key : Text} :
    k.sameKey (.text key) = true ↔ k = .text key := by
  cases k <;> simp [Value.sameKey, Value.wholeNumber?]

theorem Value.text_sameKey {key : Text} {k : Value} :
    (Value.text key).sameKey k = true ↔ k = .text key := by
  cases k <;> simp [Value.sameKey, Value.wholeNumber?, eq_comm]

namespace Entries

theorem get?_cons (e : Value × Value) (es : Entries) (name : Text) :
    get? (e :: es) name = if e.1.sameKey (.text name) then some e.2 else get? es name := rfl

/-- A value put at any key is found at a text if the key is that text. -/
theorem get?_put (es : Entries) (k v : Value) (name : Text) :
    get? (put k v es) name = if k.sameKey (.text name) then some v else get? es name :=
  find?_put es k v (.text name)

theorem get?_set (es : Entries) (key key' : Text) (v : Value) :
    (es.set key v).get? key' = if key = key' then some v else es.get? key' := by
  rw [set, get?_put]
  simp only [Value.sameKey_text, Value.text.injEq]

end Entries

namespace Settings

/-! ## Sections -/

/-- Every section is a mapping. -/
def IsSectioned (settings : Entries) : Prop :=
  ∀ name ∈ sections, ∃ entries, settings.get? name = some (.map entries)

variable {settings : Entries} {section_ name key : Text} {v : Value}

theorem sectionOf_eq {entries : Entries} (h : settings.get? name = some (.map entries)) :
    sectionOf settings name = entries := by
  rw [sectionOf, h]
  rfl

theorem isSectioned_defaults : IsSectioned defaults := by
  intro name hn
  have hsome : ((defaults.get? name).bind Value.entries?).isSome = true := by
    revert name
    decide
  obtain ⟨entries, he⟩ := Option.isSome_iff_exists.1 hsome
  obtain ⟨v, hv, hentries⟩ := Option.bind_eq_some_iff.1 he
  cases v <;> cases hentries
  exact ⟨_, hv⟩

/-- Looking a section up does not fail. -/
theorem sectionAt_eq (h : IsSectioned settings) (hn : name ∈ sections) :
    sectionAt (.map settings) name = .ok (.map (sectionOf settings name)) := by
  obtain ⟨entries, he⟩ := h name hn
  rw [sectionAt, lookUp, he, sectionOf_eq he]
  rfl

/-- Settings that are a mapping are taken as they are, also if they are empty. -/
theorem map_or_empty (settings : Entries) :
    (if (Value.map settings).isTruthy then Value.map settings else .map []) = .map settings := by
  cases settings <;> rfl

theorem sectionOf_putMap (settings entries : Entries) (name name' : Text) :
    sectionOf (settings.set name (.map entries)) name' =
      if name = name' then entries else sectionOf settings name' := by
  rw [sectionOf, Entries.get?_set]
  split <;> rfl

/-- A value put at a key of a section is found there, and the values at other keys stay. -/
theorem get?_set (settings : Entries) (section_ section' key key' : Text) (v : Value) :
    get? (set settings section_ key v) section' key' =
      if section_ = section' ∧ key = key' then some v else get? settings section' key' := by
  rw [get?, set, sectionOf_putMap]
  by_cases hs : section_ = section'
  · rw [if_pos hs, Entries.get?_set, get?, hs]
    simp
  · rw [if_neg hs, if_neg fun h => hs h.1, get?]

theorem IsSectioned.putMap (h : IsSectioned settings) (name : Text) (entries : Entries) :
    IsSectioned (settings.set name (.map entries)) := by
  intro name' hn
  rw [Entries.get?_set]
  split
  · exact ⟨entries, rfl⟩
  · exact h name' hn

theorem IsSectioned.set (h : IsSectioned settings) (section_ key : Text) (v : Value) :
    IsSectioned (Settings.set settings section_ key v) := h.putMap section_ _

/-! ## Items -/

/-- An item is there exactly if its section is a mapping that has the key. -/
theorem item_eq_ok_iff : item settings name key = .ok v ↔ get? settings name key = some v := by
  rw [item, get?, sectionOf, itemOf]
  cases settings.get? name with
  | none =>
    constructor
    · rintro ⟨⟩
    · rintro ⟨⟩
  | some value =>
    cases value with
    | map entries =>
      show itemOf (.map entries) key = .ok v ↔ Entries.get? entries key = some v
      rw [itemOf]
      cases Entries.get? entries key with
      | none => simp
      | some value => simp
    | _ =>
      constructor
      · rintro ⟨⟩
      · rintro ⟨⟩

theorem setItem_eq {entries : Entries} (h : settings.get? name = some (.map entries)) :
    setItem settings name key v = .ok (set settings name key v) := by
  rw [setItem, itemOf, h]
  rfl

theorem eq_of_setItem {settings' : Entries} (h : setItem settings name key v = .ok settings') :
    settings' = set settings name key v := by
  rw [setItem, itemOf] at h
  cases hsection : settings.get? name with
  | none =>
    rw [hsection] at h
    cases h
  | some value =>
    rw [hsection] at h
    cases value <;> cases h
    rfl

end Settings

end ImportRepair
