import ImportRepair.Mapping
import Mathlib.Data.List.TakeWhile

/-!
# The entries of a module mapping

Each entry of a document gives a type its module. The key counts as the text that shows it, so keys
of several kinds can be one type: the type keeps the place of the first of them and has the module
of the last. An entry whose value tells no module, or whose key cannot be shown, ends the reading.

Results:
* `Text.strip_eq_nil_iff`, `Text.isTrimmed_strip`: what stripping leaves.
* `lookup_put`, `keys_put`: a mapping with a module put at a type.
* `extend_of_refused`: the first entry that is refused decides the failure.
* `extend_of_taken`: what a mapping comes to if no entry is refused.
-/

namespace ImportRepair

/-! ## Blanks around a text -/

namespace Text

/-- A text without blanks at its ends. -/
def IsTrimmed (t : Text) : Prop :=
  (∀ c ∈ t.head?, c.isBlank = false) ∧ ∀ c ∈ t.getLast?, c.isBlank = false

variable {p : CodePoint → Bool} {t : Text}

theorem dropRightWhile_eq_nil_iff : dropRightWhile p t = [] ↔ ∀ c ∈ t, p c = true := by
  rw [dropRightWhile, List.reverse_eq_nil_iff, List.dropWhile_eq_nil_iff]
  simp

/-- What is left of a text ends where the text goes on with something else. -/
theorem getLast?_dropRightWhile {c : CodePoint} (h : c ∈ (dropRightWhile p t).getLast?) :
    p c = false := by
  have hhead := List.head?_dropWhile_not p t.reverse
  rw [dropRightWhile, List.getLast?_reverse] at h
  rw [Option.mem_def.1 h] at hhead
  exact hhead

theorem head?_dropWhile_blank {c : CodePoint} (h : c ∈ (t.dropWhile p).head?) : p c = false := by
  have hhead := List.head?_dropWhile_not p t
  rw [Option.mem_def.1 h] at hhead
  exact hhead

/-- What is left of a text starts as the text does. -/
theorem head?_dropRightWhile {c : CodePoint} (h : c ∈ (dropRightWhile p t).head?) :
    c ∈ t.head? := by
  have hprefix : dropRightWhile p t <+: t := by
    have hsuffix := List.dropWhile_suffix p (l := t.reverse)
    rw [← List.reverse_prefix, List.reverse_reverse] at hsuffix
    exact hsuffix
  obtain ⟨rest, hrest⟩ := hprefix
  cases hleft : dropRightWhile p t with
  | nil =>
    rw [hleft] at h
    cases h
  | cons d left =>
    rw [hleft] at h hrest
    rw [← hrest]
    exact h

/-- A text is stripped to nothing if there is nothing but blanks. -/
theorem strip_eq_nil_iff : strip t = [] ↔ t.all CodePoint.isBlank = true := by
  rw [strip, dropRightWhile_eq_nil_iff, List.all_eq_true]
  constructor
  · intro h
    have hnil : t.dropWhile CodePoint.isBlank = [] := by
      cases hleft : t.dropWhile CodePoint.isBlank with
      | nil => rfl
      | cons c left =>
        have hblank : c.isBlank = false := head?_dropWhile_blank (t := t) (by rw [hleft]; rfl)
        rw [h c (by rw [hleft]; exact List.mem_cons_self ..)] at hblank
        cases hblank
    exact List.dropWhile_eq_nil_iff.1 hnil
  · intro h c hc
    exact h c (List.dropWhile_suffix _ |>.subset hc)

/-- A stripped text has no blanks at its ends. -/
theorem isTrimmed_strip (t : Text) : (strip t).IsTrimmed :=
  ⟨fun _ h => head?_dropWhile_blank (head?_dropRightWhile h), fun _ h => getLast?_dropRightWhile h⟩

end Text

namespace Mapping

variable {type module path : Text} {mapping result : Mapping} {v key value : Value}
  {entries : Entries}

/-! ## Modules -/

/-- Whether a value tells no module: it is no text, or nothing but blanks. -/
def lacksModule : Value → Bool
  | .text t => t.all CodePoint.isBlank
  | _ => true

theorem module?_eq_none_iff : module? v = none ↔ lacksModule v = true := by
  cases v with
  | text t =>
    rw [module?, lacksModule, ← Text.strip_eq_nil_iff]
    by_cases h : Text.strip t = [] <;> simp [h]
  | _ => exact ⟨fun _ => rfl, fun _ => rfl⟩

/-- The module that a value tells is its text without the blanks around it. -/
theorem module?_eq_some_iff :
    module? v = some module ↔ ∃ t, v = .text t ∧ Text.strip t = module ∧ module ≠ [] := by
  cases v with
  | text t =>
    rw [module?]
    by_cases h : Text.strip t = []
    · rw [if_pos h]
      refine ⟨nofun, ?_⟩
      rintro ⟨u, hu, hmodule, hne⟩
      cases hu
      exact absurd (hmodule ▸ h) hne
    · rw [if_neg h, Option.some.injEq]
      constructor
      · rintro rfl
        exact ⟨t, rfl, rfl, h⟩
      · rintro ⟨u, hu, hmodule, -⟩
        cases hu
        exact hmodule
  | _ => exact ⟨nofun, fun ⟨t, h, _⟩ => by cases h⟩

/-! ## Putting modules -/

/-- A mapping with a module put at a type has it there, and is the same elsewhere. -/
theorem lookup_put (type module : Text) (mapping : Mapping) (t : Text) :
    (mapping.put type module).lookup t = if t = type then some module else mapping.lookup t := by
  have hcons : ∀ (u m : Text) (rest : Mapping),
      List.lookup t ((u, m) :: rest) = if t = u then some m else List.lookup t rest := by
    intro u m rest
    rw [List.lookup_cons]
    by_cases h : t = u
    · rw [if_pos h, beq_iff_eq.2 h]
    · rw [if_neg h, beq_eq_false_iff_ne.2 h]
  induction mapping with
  | nil => exact hcons type module []
  | cons first mapping ih =>
    obtain ⟨u, m⟩ := first
    rw [put]
    by_cases hu : u = type
    · subst hu
      rw [if_pos rfl, hcons, hcons]
      by_cases h : t = u <;> simp only [h, if_true, if_false]
    · rw [if_neg hu, hcons, hcons, ih]
      by_cases h : t = u
      · rw [if_pos h, if_pos h, if_neg (h ▸ hu)]
      · rw [if_neg h, if_neg h]

theorem removeAll_singleton (type : Text) (types : List Text) :
    [type].removeAll types = if types.contains type then [] else [type] := by
  rw [List.removeAll, List.filter_cons, List.filter_nil]
  by_cases h : type ∈ types <;> simp [h]

/-- A new type comes last, and one that is there keeps its place. -/
theorem keys_put (type module : Text) (mapping : Mapping) :
    (mapping.put type module).map (·.1) =
      mapping.map (·.1) ++ [type].removeAll (mapping.map (·.1)) := by
  rw [removeAll_singleton]
  induction mapping with
  | nil => rfl
  | cons first mapping ih =>
    obtain ⟨u, m⟩ := first
    rw [put]
    by_cases hu : u = type
    · subst hu
      simp
    · rw [if_neg hu, List.map_cons, List.map_cons, ih]
      by_cases h : type ∈ mapping.map (·.1) <;> simp [h, Ne.symm hu]

/-- An entry of a mapping with a module put is the one that is put, or an entry from before. -/
theorem of_mem_put {e : Text × Text} (h : e ∈ mapping.put type module) :
    e = (type, module) ∨ e ∈ mapping := by
  induction mapping with
  | nil => exact Or.inl (List.mem_singleton.1 h)
  | cons first mapping ih =>
    obtain ⟨t, m⟩ := first
    rw [put] at h
    split at h
    · next ht =>
      obtain rfl | hmem := List.mem_cons.1 h
      · exact Or.inl (by rw [ht])
      · exact Or.inr (List.mem_cons_of_mem _ hmem)
    · obtain rfl | hmem := List.mem_cons.1 h
      · exact Or.inr (List.mem_cons_self ..)
      · exact (ih hmem).imp id (List.mem_cons_of_mem _)

/-! ## Entries -/

/-- Whether an entry is refused: its key cannot be shown, or its value tells no module. -/
def isRefused (e : Value × Value) : Bool := e.1.holdsLongNumber || lacksModule e.2

/-- The failure for an entry that is refused. -/
def refusal (path : Text) (key : Value) : Failure :=
  if key.holdsLongNumber then .longNumber else .mapping (.badModule key.display path)

/-- A mapping as entries make it: each text that shows a key, in the order of the first of these
keys, with the module of the last of them. -/
structure Normalises (entries : Entries) (mapping : Mapping) : Prop where
  keys : mapping.map (·.1) = (entries.map (·.1.display)).eraseDups
  modules : ∀ type, mapping.lookup type =
    ((entries.filter fun e => e.1.display = type).getLast?).bind fun e => module? e.2

theorem extend_cons_of_taken (h : isRefused (key, value) = false) (path : Text) (mapping : Mapping)
    (rest : Entries) :
    ∃ module, module? value = some module ∧
      extend path mapping ((key, value) :: rest) =
        extend path (mapping.put key.display module) rest := by
  obtain ⟨hshown, htold⟩ := Bool.or_eq_false_iff.1 h
  cases hmodule : module? value with
  | none => cases (module?_eq_none_iff.1 hmodule).symm.trans htold
  | some module =>
    refine ⟨module, rfl, ?_⟩
    rw [extend, Value.shown, hshown, hmodule]
    rfl

theorem extend_cons_of_refused (h : isRefused (key, value) = true) (path : Text) (mapping : Mapping)
    (rest : Entries) : extend path mapping ((key, value) :: rest) = .error (refusal path key) := by
  rw [extend, Value.shown, refusal]
  cases hshown : key.holdsLongNumber with
  | true => rfl
  | false =>
    rw [isRefused, hshown, Bool.false_or] at h
    rw [module?_eq_none_iff.2 h]
    rfl

/-- The first entry that is refused decides the failure. -/
theorem extend_of_refused {e : Value × Value} (h : List.find? isRefused entries = some e)
    (path : Text) (mapping : Mapping) :
    extend path mapping entries = .error (refusal path e.1) := by
  induction entries generalizing mapping with
  | nil => cases h
  | cons first entries ih =>
    obtain ⟨key, value⟩ := first
    cases hfirst : isRefused (key, value) with
    | true =>
      rw [List.find?_cons_of_pos hfirst] at h
      cases h
      exact extend_cons_of_refused hfirst path mapping entries
    | false =>
      rw [List.find?_cons_of_neg (by simp [hfirst])] at h
      obtain ⟨module, -, hextend⟩ := extend_cons_of_taken hfirst path mapping entries
      rw [hextend]
      exact ih h _

/-- Putting one more type into a mapping that has the types seen so far, in the order of
their first occurrences. -/
theorem keys_put_eraseDups {seen : List Text} (h : mapping.map (·.1) = seen.eraseDups)
    (type module : Text) :
    (mapping.put type module).map (·.1) = (seen ++ [type]).eraseDups := by
  rw [keys_put, h, List.eraseDups_append, removeAll_singleton, removeAll_singleton]
  simp only [List.contains_eq_mem, List.mem_eraseDups]
  split <;> rfl

/-- If no entry is refused, a mapping is extended by the types that the keys count as, in their
order, and has the module of the last entry for a type. -/
theorem extend_returns (h : ∀ e ∈ entries, isRefused e = false) (path : Text) {seen : List Text}
    (hseen : mapping.map (·.1) = seen.eraseDups) :
    ∃ result, extend path mapping entries = .ok result ∧
      result.map (·.1) = (seen ++ entries.map (·.1.display)).eraseDups ∧
      ∀ type, result.lookup type =
        (((entries.filter fun e => e.1.display = type).getLast?).bind fun e =>
        module? e.2).or (mapping.lookup type) := by
  induction entries generalizing mapping seen with
  | nil => exact ⟨mapping, rfl, by rw [List.map_nil, List.append_nil, hseen], fun _ => rfl⟩
  | cons first entries ih =>
    obtain ⟨hfirst, hrest⟩ := List.forall_mem_cons.1 h
    obtain ⟨module, hmodule, hextend⟩ := extend_cons_of_taken hfirst path mapping entries
    obtain ⟨result, hresult, hkeys, hlookup⟩ :=
      ih hrest (keys_put_eraseDups hseen first.1.display module)
    refine ⟨result, hextend.trans hresult, ?_, fun type => ?_⟩
    · rw [hkeys, List.append_assoc, List.singleton_append, List.map_cons]
    rw [hlookup, lookup_put]
    by_cases htype : first.1.display = type
    · rw [if_pos htype.symm, List.filter_cons_of_pos (by simpa using htype), List.getLast?_cons]
      cases hlast : (entries.filter fun e => e.1.display = type).getLast? with
      | none => simp [hmodule]
      | some last =>
        -- the last entry is not refused either, so the one before it does not count
        have htaken := hrest last (List.mem_filter.1 (List.mem_of_getLast? hlast)).1
        cases htold : module? last.2 with
        | none => cases (module?_eq_none_iff.1 htold).symm.trans (Bool.or_eq_false_iff.1 htaken).2
        | some m => simp [htold]
    · rw [if_neg (Ne.symm htype), List.filter_cons_of_neg (by simpa using htype)]

/-- A module of an extended mapping is told by a value, or it was there before. -/
theorem forall_mem_extend {P : Text → Prop} (hP : ∀ v m, module? v = some m → P m)
    (hmapping : ∀ e ∈ mapping, P e.2) (h : extend path mapping entries = .ok result) :
    ∀ e ∈ result, P e.2 := by
  induction entries generalizing mapping with
  | nil =>
    cases h
    exact hmapping
  | cons first entries ih =>
    obtain ⟨key, value⟩ := first
    cases hfirst : isRefused (key, value) with
    | true =>
      rw [extend_cons_of_refused hfirst] at h
      cases h
    | false =>
      obtain ⟨module, hmodule, hextend⟩ := extend_cons_of_taken hfirst path mapping entries
      refine ih (fun e he => ?_) (hextend ▸ h)
      obtain rfl | hmem := of_mem_put he
      · exact hP value module hmodule
      · exact hmapping e hmem

/-- If no entry is refused, the mapping has what the entries give. -/
theorem extend_of_taken (h : List.find? isRefused entries = none) (path : Text) :
    ∃ result, extend path [] entries = .ok result ∧ Normalises entries result := by
  have hnone : ([] : Mapping).map (·.1) = ([] : List Text).eraseDups := List.eraseDups_nil.symm
  have htaken : ∀ e ∈ entries, isRefused e = false := by simpa using List.find?_eq_none.1 h
  obtain ⟨result, hresult, hkeys, hlookup⟩ := extend_returns htaken path hnone
  exact ⟨result, hresult, hkeys, fun type => by rw [hlookup, List.lookup_nil, Option.or_none]⟩

end Mapping

end ImportRepair
