import ImportRepair.Proofs.Files.Spelling
import ImportRepair.Proofs.Mapping.Entries
import ImportRepair.Proofs.Text.Stream

/-!
# Identifiers as plain scalars

A plain scalar that is an identifier is a truth value or nothing if it is one of certain
words, and the text itself otherwise: it is never a number or a date. Of the words only two
are shown as they are written.

Results:
* `implicitTag_of_isIdentifier`, `scalarValue_of_isIdentifier`: what an identifier is taken for.
* `module?_plainValue`: which identifiers are modules.
* `display_plainValue`, `eq_of_sameKey`: which identifiers count as keys by their own text.
-/

namespace ImportRepair

/-! ## Identifiers -/

/-- A letter or an underscore. -/
def CodePoint.startsIdentifier (c : CodePoint) : Bool := c.isAsciiLetter || c.val = 95

/-- A letter, a digit or an underscore. -/
def CodePoint.isOfIdentifier (c : CodePoint) : Bool := c.startsIdentifier || c.isAsciiDigit

/-- A letter or an underscore, followed by letters, digits and underscores. -/
def Text.isIdentifier (t : Text) : Bool :=
  (t.head?.map CodePoint.startsIdentifier).getD false && t.all CodePoint.isOfIdentifier

variable {c : CodePoint} {t u : Text}

theorem CodePoint.val_of_startsIdentifier (h : c.startsIdentifier = true) :
    65 ≤ c.val ∧ c.val ≤ 90 ∨ c.val = 95 ∨ 97 ≤ c.val ∧ c.val ≤ 122 := by
  simp only [startsIdentifier, isAsciiLetter, Bool.or_eq_true, Bool.and_eq_true,
    decide_eq_true_eq] at h
  omega

theorem CodePoint.val_of_isOfIdentifier (h : c.isOfIdentifier = true) :
    48 ≤ c.val ∧ c.val ≤ 57 ∨ 65 ≤ c.val ∧ c.val ≤ 90 ∨ c.val = 95 ∨ 97 ≤ c.val ∧ c.val ≤ 122 := by
  simp only [isOfIdentifier, Bool.or_eq_true, isAsciiDigit, Bool.and_eq_true,
    decide_eq_true_eq] at h
  obtain hstart | hdigit := h
  · exact Or.inr (val_of_startsIdentifier hstart)
  · exact Or.inl hdigit

namespace Text.isIdentifier

theorem exists_cons (h : t.isIdentifier = true) :
    ∃ c u, t = c :: u ∧ c.startsIdentifier = true ∧ ∀ d ∈ t, d.isOfIdentifier = true := by
  rw [Text.isIdentifier, Bool.and_eq_true, List.all_eq_true] at h
  obtain ⟨hstart, hall⟩ := h
  cases t with
  | nil => cases hstart
  | cons c u => exact ⟨c, u, rfl, hstart, hall⟩

theorem forall_mem (h : t.isIdentifier = true) : ∀ c ∈ t, c.isOfIdentifier = true := by
  obtain ⟨_, _, _, _, hall⟩ := exists_cons h
  exact hall

/-- An identifier holds no other characters. -/
theorem not_mem (h : t.isIdentifier = true) (hc : c.isOfIdentifier = false) : c ∉ t := by
  intro hmem
  rw [forall_mem h c hmem] at hc
  cases hc

end Text.isIdentifier

theorem CodePoint.isBlank_of_isOfIdentifier (h : c.isOfIdentifier = true) : c.isBlank = false := by
  have hval := val_of_isOfIdentifier h
  simp only [isBlank, Bool.or_eq_false_iff, Bool.and_eq_false_iff, decide_eq_false_iff_not]
  omega

/-- An identifier has no blanks to be stripped. -/
theorem Text.strip_of_isIdentifier (h : t.isIdentifier = true) : Text.strip t = t := by
  have hdrop : ∀ u : Text, (∀ c ∈ u, c.isOfIdentifier = true) →
      u.dropWhile CodePoint.isBlank = u := by
    intro u hu
    cases u with
    | nil => rfl
    | cons c u =>
      rw [List.dropWhile_cons_of_neg]
      simp [CodePoint.isBlank_of_isOfIdentifier (hu c (List.mem_cons_self ..))]
  have hall := isIdentifier.forall_mem h
  rw [strip, hdrop t hall, dropRightWhile,
    hdrop t.reverse fun c hc => hall c (List.mem_reverse.1 hc), List.reverse_reverse]

namespace Yaml

/-! ## What an identifier is taken for -/

/-- An identifier that is a word for a truth value or for nothing. -/
def isWord (t : Text) : Bool := Spelling.isBool t || Spelling.isNull t

/-- The value of an identifier. -/
def plainValue (t : Text) : Value :=
  if Spelling.isBool t then .bool ((truthWords.lookup (Text.toLower t)).getD false)
  else if Spelling.isNull t then .null
  else .text t

@[simp] theorem own_plainValue (t : Text) (mark : Nat) :
    (plainValue t).own mark = plainValue t := by
  unfold plainValue
  split
  · rfl
  · split <;> rfl

theorem isFloat_of_isIdentifier (h : t.isIdentifier = true) : Spelling.isFloat t = false := by
  obtain ⟨c, u, rfl, hstart, hall⟩ := Text.isIdentifier.exists_cons h
  have hval := CodePoint.val_of_startsIdentifier hstart
  have hpoint : Spelling.splitPoint? (c :: u) = none := by
    have hwhole : (c :: u).takeWhile (fun d => d.val ≠ 46) = c :: u := by
      rw [List.takeWhile_eq_self_iff]
      intro d hd
      have hd' := CodePoint.val_of_isOfIdentifier (hall d hd)
      simp only [decide_eq_true_eq]
      omega
    rw [Spelling.splitPoint?, hwhole, List.drop_length]
  have hsign : ¬(c.val = 43 ∨ c.val = 45) := by omega
  simp only [Spelling.isFloat, Spelling.unsigned, if_neg hsign, hpoint]

theorem isInt_of_isIdentifier (h : t.isIdentifier = true) : Spelling.isInt t = false := by
  obtain ⟨c, u, rfl, hstart, hall⟩ := Text.isIdentifier.exists_cons h
  have hval := CodePoint.val_of_startsIdentifier hstart
  have hsign : ¬(c.val = 43 ∨ c.val = 45) := by omega
  have hzero : ¬c.val = 48 := by omega
  have hwhole : Spelling.isWholePart (c :: u) = false := by
    have hdigit : c.isAsciiDigit = false := by
      simp only [CodePoint.isAsciiDigit, Bool.and_eq_false_iff, decide_eq_false_iff_not]
      omega
    simp [Spelling.isWholePart, hdigit]
  have hsixty : ∀ first, Spelling.isSexagesimal first (c :: u) = false := by
    intro first
    rw [Spelling.isSexagesimal, Text.splitAt_of_not_mem (Text.isIdentifier.not_mem h (by decide))]
  simp [Spelling.isInt, Spelling.unsigned, hsign, hzero, hwhole, hsixty]

theorem isDate_of_isIdentifier (h : t.isIdentifier = true) : DateText.isDate t = false := by
  obtain ⟨c, u, rfl, hstart, hall⟩ := Text.isIdentifier.exists_cons h
  have hval := CodePoint.val_of_startsIdentifier hstart
  have hdigit : c.isAsciiDigit = false := by
    simp only [CodePoint.isAsciiDigit, Bool.and_eq_false_iff, decide_eq_false_iff_not]
    omega
  have hyear : DateText.digits? 4 4 (c :: u) = none := by
    simp [DateText.digits?, hdigit]
  rw [DateText.isDate, DateText.read?, hyear]
  rfl

/-- An identifier is a truth value, nothing, or a text. -/
theorem implicitTag_of_isIdentifier (h : t.isIdentifier = true) :
    implicitTag t =
      if Spelling.isBool t then .bool else if Spelling.isNull t then .null else .str := by
  have hne : ∀ c : CodePoint, c.isOfIdentifier = false → t ≠ [c] := by
    rintro c hc rfl
    exact Text.isIdentifier.not_mem h hc (List.mem_singleton_self c)
  have hlast : t.getLast? ≠ some (10 : CodePoint) := fun hmem =>
    Text.isIdentifier.not_mem h (by decide) (List.mem_of_getLast? hmem)
  have hmerge : t ≠ ("<<" : Text) := by
    rintro rfl
    revert h
    decide
  have hvalue : t ≠ ("=" : Text) := hne _ (by decide)
  have hindicator : ¬(t = ("!" : Text) ∨ t = ("&" : Text) ∨ t = ("*" : Text)) := by
    rintro (h | h | h) <;> exact hne _ (by decide) h
  rw [implicitTag, if_neg hlast]
  simp only [spelledTag, isFloat_of_isIdentifier h, isInt_of_isIdentifier h,
    isDate_of_isIdentifier h, if_neg hmerge, if_neg hvalue, if_neg hindicator,
    Bool.false_eq_true, if_false]

/-- The value of an identifier is found without fail. -/
theorem scalarValue_of_isIdentifier (h : t.isIdentifier = true) :
    scalarValue (implicitTag t) t = .ok (plainValue t) := by
  rw [implicitTag_of_isIdentifier h, plainValue]
  cases hbool : Spelling.isBool t with
  | true =>
    have hall : ∀ w ∈ [("yes" : Text), "Yes", "YES", "no", "No", "NO", "true", "True", "TRUE",
      "false", "False",
        "FALSE", "on", "On", "ON", "off", "Off", "OFF"],
        (truthWords.lookup (Text.toLower w)).isSome = true := by
      decide +kernel
    obtain ⟨b, hb⟩ := Option.isSome_iff_exists.1 (hall t (List.contains_iff_mem.1 hbool))
    simp only [if_true, scalarValue, hb, Option.getD_some]
  | false => cases hnull : Spelling.isNull t <;> simp [scalarValue]

/-! ## As a module, and as a key -/

/-- An identifier is a module unless it is a word. -/
theorem module?_plainValue (h : t.isIdentifier = true) :
    Mapping.module? (plainValue t) = if isWord t then none else some t := by
  obtain ⟨c, u, hcons, -, -⟩ := Text.isIdentifier.exists_cons h
  have hstrip := Text.strip_of_isIdentifier h
  have hne : t ≠ [] := by simp [hcons]
  rw [plainValue, isWord]
  cases hbool : Spelling.isBool t <;> cases hnull : Spelling.isNull t <;>
    simp [Mapping.module?, hstrip, hne]

/-- An identifier that counts as a key by its own text: no word, or one that is
shown as it is written. -/
def showsItself (t : Text) : Bool := !isWord t || t = ("True" : Text) || t = ("False" : Text)

theorem plainValue_of_showsItself (h : showsItself t = true) :
    plainValue t = .text t ∨ ∃ b, plainValue t = .bool b ∧ (Value.bool b).display = t := by
  have of_isBool : ∀ {w : Text} {b : Bool}, Spelling.isBool w = true →
    truthWords.lookup (Text.toLower w) = some b →
      plainValue w = .bool b := by
    intro w b hw hb
    rw [plainValue, if_pos hw, hb, Option.getD_some]
  simp only [showsItself, Bool.or_eq_true, decide_eq_true_eq, Bool.not_eq_true'] at h
  obtain (hword | rfl) | rfl := h
  · simp only [isWord, Bool.or_eq_false_iff] at hword
    exact Or.inl (by simp [plainValue, hword])
  · exact Or.inr ⟨true, of_isBool (by decide +kernel) (by decide +kernel), rfl⟩
  · exact Or.inr ⟨false, of_isBool (by decide +kernel) (by decide +kernel), rfl⟩

/-- Such an identifier is shown as it is written. -/
theorem display_plainValue (h : showsItself t = true) : (plainValue t).display = t := by
  obtain hv | ⟨b, hv, hb⟩ := plainValue_of_showsItself h
  · rw [hv]
    rfl
  · rw [hv, hb]

theorem holdsLongNumber_plainValue (t : Text) : (plainValue t).holdsLongNumber = false := by
  rw [plainValue]
  split
  · rfl
  · split <;> rfl

/-- Two such identifiers are different keys, unless they are the same. -/
theorem eq_of_sameKey (ht : showsItself t = true) (hu : showsItself u = true)
    (h : (plainValue t).sameKey (plainValue u) = true) : t = u := by
  rw [← display_plainValue ht, ← display_plainValue hu]
  obtain hv | ⟨b, hv, -⟩ := plainValue_of_showsItself ht <;>
    obtain hw | ⟨b', hw, -⟩ := plainValue_of_showsItself hu <;> rw [hv, hw] at h ⊢
  · rw [of_decide_eq_true h]
  · cases h
  · cases h
  · cases b <;> cases b' <;> first | rfl | cases h

end Yaml

end ImportRepair
