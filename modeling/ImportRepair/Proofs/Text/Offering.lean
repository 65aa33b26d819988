import ImportRepair.Proofs.Text.Insertion
import ImportRepair.Text.Lines

/-!
# Offering lines to a text

An import line that goes into a text is in it once. An occurrence before it would start with an
anchor before the first one, and an occurrence after it would be one of the text before. One that
starts inside the line would go on past its line feed, which stands nowhere else in an import line.

Lines that are offered one after the other need not be import lines: they may hold line feeds and
further anchors, and each of them goes in before those that went in earlier. Nothing that starts
with the anchor can lie across the first anchor, so no line is ever torn apart by a later one.

Results:
* `startsWith_drop_splice_iff`: where a word stands that was put in before the first
  occurrence of its beginning.
* `Insertion.insert?_once`: an import line that goes in is in the text once, at the first anchor.
* `Insertion.Keeps`: what a text keeps when lines are offered to it.
* `Insertion.foldlM_insert?_stable`: lines that are offered one after the other are all
  taken, and lose nothing.
-/

namespace ImportRepair

/-! ## Occurrences that do not overlap -/

section Overlaps

variable {α : Type _} [DecidableEq α] {word body rest s : List α} {e : α} {k : Nat}

/-- A word that is in a list has a first occurrence. -/
theorem exists_firstIndex? (h : word <:+: s) : ∃ k, firstIndex? word s = some k := by
  rw [← Option.ne_none_iff_exists', ne_eq, firstIndex?_eq_none_iff, not_not]
  exact h

/-- A word whose end stands nowhere else in it does not start within an occurrence of itself: the
end of that occurrence would be one of its earlier letters. -/
theorem not_startsWith_within (he : e ∉ body) {i : Nat} (hpos : 0 < i) (hi : i ≤ body.length) :
    startsWith (body ++ [e]) ((body ++ [e]).drop i ++ rest) = false := by
  rw [← Bool.not_eq_true, startsWith_iff]
  rintro ⟨r, hr⟩
  apply he
  have hlast : ((body ++ [e]).drop i ++ rest)[body.length - i]? = some e := by
    rw [List.drop_append_of_le_length hi, List.append_assoc, List.getElem?_append_right (by simp)]
    simp
  have hinner : (body ++ [e] ++ r)[body.length - i]? = body[body.length - i]? := by
    rw [List.append_assoc, List.getElem?_append_left (by omega)]
  rw [hr, hinner] at hlast
  exact List.mem_of_getElem? hlast

omit [DecidableEq α] in
/-- Past the index at which a word was put in. -/
theorem drop_splice_of_le (hk : k ≤ s.length) {j : Nat} (hj : k ≤ j) :
    (splice k word s).drop j = (word ++ s.drop k).drop (j - k) := by
  rw [← drop_splice hk, List.drop_drop]
  congr 1
  omega

omit [DecidableEq α] in
/-- Without the word that was put in, a list is what it was before. -/
theorem splice_cut (hk : k ≤ s.length) :
    (splice k word s).take k ++ (splice k word s).drop (k + word.length) = s := by
  rw [take_splice hk, drop_splice_of_le hk (by omega), Nat.add_sub_cancel_left, List.drop_left,
    List.take_append_drop]

/-- A word that is not in a list and does not overlap itself stands at one index after it was put in
before the first occurrence of what it starts with. -/
theorem startsWith_drop_splice_iff (he : e ∉ body) (hword : word <+: body ++ [e])
    (hk : firstIndex? word s = some k) (hs : ¬body ++ [e] <:+: s) (j : Nat) :
    startsWith (body ++ [e]) ((splice k (body ++ [e]) s).drop j) = true ↔ j = k := by
  have hle : k ≤ s.length := (firstIndex?_eq_some_iff.1 hk).1
  constructor
  · intro hj
    obtain hlt | heq | hgt := Nat.lt_trichotomy j k
    · -- the word's beginning would occur before its first occurrence
      obtain ⟨-, -, hmin⟩ := firstIndex?_eq_some_iff.1 (firstIndex?_splice hk (Or.inr hword))
      obtain ⟨r, hr⟩ := startsWith_iff.1 hj
      obtain ⟨x, hx⟩ := hword
      have hearly : startsWith word ((splice k (body ++ [e]) s).drop j) = true := by
        rw [startsWith_iff, hr, ← hx]
        exact ⟨x ++ r, List.append_assoc ..⟩
      rw [hmin j hlt] at hearly
      cases hearly
    · exact heq
    · rw [drop_splice_of_le hle hgt.le] at hj
      by_cases hin : j - k ≤ body.length
      · rw [List.drop_append_of_le_length (by simp; omega),
          not_startsWith_within he (by omega) hin] at hj
        cases hj
      · -- the word would occur in what follows, which was there before
        exfalso
        apply hs
        rw [List.drop_append, List.drop_of_length_le (by simp; omega), List.nil_append,
          List.drop_drop] at hj
        obtain ⟨r, hr⟩ := startsWith_iff.1 hj
        have hprefix : body ++ [e] <+: s.drop (k + (j - k - (body ++ [e]).length)) := ⟨r, hr.symm⟩
        exact hprefix.isInfix.trans (List.drop_suffix _ s).isInfix
  · rintro rfl
    rw [drop_splice hle]
    exact startsWith_iff.2 ⟨_, rfl⟩

end Overlaps

namespace Insertion

/-! ## One import line -/

variable {k : Nat} {t l : Text} {lines : List Text}

/-- A line that is in the text already changes nothing. -/
theorem insert?_of_infix (h : l <:+: t) : insert? t l = some t := by
  rw [insert?, occursIn_iff.2 h, if_pos rfl]

/-- A line that is not in the text goes in before the first anchor. -/
theorem insert?_of_not_infix (hk : firstIndex? anchor t = some k) (h : ¬l <:+: t) :
    insert? t l = some (splice k l t) := by
  have hocc : occursIn l t = false := by
    rw [← Bool.not_eq_true, occursIn_iff]
    exact h
  exact (insert?_eq_some_iff hocc).2 ⟨k, hk, rfl⟩

/-- An import line that is not in a text with an anchor goes in, and then stands at one index only:
the one of the first anchor. Without it, the text is what it was before. -/
theorem insert?_once {text module : Text} (hmodule : Text.lf ∉ module)
    (hline : ¬line module <:+: text) (hanchor : anchor <:+: text) :
    ∃ new k, insert? text (line module) = some new ∧ firstIndex? anchor new = some k ∧
      (∀ j, startsWith (line module) (new.drop j) = true ↔ j = k) ∧
      new.take k ++ new.drop (k + (line module).length) = text := by
  obtain ⟨k, hk⟩ := exists_firstIndex? hanchor
  have hbody : Text.lf ∉ ("import " : Text) ++ module := by
    rw [List.mem_append, not_or]
    exact ⟨by decide, hmodule⟩
  refine ⟨splice k (line module) text, k, insert?_of_not_infix hk hline,
    firstIndex?_splice hk (Or.inr (anchor_prefix_line module)), ?_, ?_⟩
  · exact startsWith_drop_splice_iff hbody (anchor_prefix_line module) hk hline
  · exact splice_cut (firstIndex?_eq_some_iff.1 hk).1

/-- The line of a module that is named like the anchor, between a word and a line
that are anchors too. -/
theorem insert?_once_named_import :
    insert? "// import\nimport X\n" (line "import") =
      some ("// import import\nimport\nimport X\n" : Text) ∧
      ∀ j, startsWith (line "import") (("// import import\nimport\nimport X\n" : Text).drop j) =
        true ↔ j = 3 := by
  have hinsert : insert? "// import\nimport X\n" (line "import") =
      some ("// import import\nimport\nimport X\n" : Text) := by decide
  have hmodule : Text.lf ∉ ("import" : Text) := by decide
  have hline : ¬line "import" <:+: ("// import\nimport X\n" : Text) := by decide
  have hanchor : anchor <:+: ("// import\nimport X\n" : Text) := by decide
  obtain ⟨new, k, hnew, -, hplaces, -⟩ := insert?_once hmodule hline hanchor
  rw [hinsert, Option.some.injEq] at hnew
  rw [← hnew] at hplaces
  obtain rfl := (hplaces 3).1 (by decide)
  exact ⟨hinsert, hplaces⟩

/-! ## Lines one after the other -/

/-- What a text keeps when lines are offered to it: the first anchor stays where it is, and whatever
starts with the anchor and occurs in the text still occurs. -/
structure Keeps (k : Nat) (t u : Text) : Prop where
  anchored : firstIndex? anchor u = some k
  occurring : ∀ l, anchor <+: l → l <:+: t → l <:+: u

theorem Keeps.refl {k : Nat} {t : Text} (hk : firstIndex? anchor t = some k) : Keeps k t t :=
  ⟨hk, fun _ _ hl => hl⟩

theorem Keeps.trans {k : Nat} {t u v : Text} (h : Keeps k t u) (h' : Keeps k u v) : Keeps k t v :=
  ⟨h'.anchored, fun l hl ht => h'.occurring l hl (h.occurring l hl ht)⟩

/-- A text with an anchor takes every line that starts with the anchor. -/
theorem insert?_keeps (hk : firstIndex? anchor t = some k) (hl : anchor <+: l) :
    ∃ u, insert? t l = some u ∧ Keeps k t u ∧ l <:+: u := by
  by_cases hin : l <:+: t
  · exact ⟨t, insert?_of_infix hin, .refl hk, hin⟩
  · refine ⟨splice k l t, insert?_of_not_infix hk hin, ⟨?_, ?_⟩, ⟨t.take k, t.drop k, rfl⟩⟩
    · exact firstIndex?_splice hk (Or.inr hl)
    · intro m hm ht
      exact infix_splice hk hm ht

/-- Lines that are all in the text already change nothing, in whatever order they are offered. -/
theorem foldlM_insert?_of_infix (h : ∀ l ∈ lines, l <:+: t) : lines.foldlM insert? t = some t := by
  induction lines with
  | nil => rfl
  | cons l lines ih =>
    rw [List.forall_mem_cons] at h
    rw [List.foldlM_cons, insert?_of_infix h.1]
    exact ih h.2

/-- A text with an anchor takes all lines that start with the anchor, one after the other. -/
theorem foldlM_insert?_keeps (hk : firstIndex? anchor t = some k)
    (hlines : ∀ l ∈ lines, anchor <+: l) :
    ∃ u, lines.foldlM insert? t = some u ∧ Keeps k t u ∧ ∀ l ∈ lines, l <:+: u := by
  induction lines generalizing t with
  | nil => exact ⟨t, rfl, .refl hk, List.forall_mem_nil _⟩
  | cons l lines ih =>
    rw [List.forall_mem_cons] at hlines
    obtain ⟨u, hu, hkeeps, hin⟩ := insert?_keeps hk hlines.1
    obtain ⟨v, hv, hrest, hall⟩ := ih hkeeps.anchored hlines.2
    refine ⟨v, ?_, hkeeps.trans hrest, ?_⟩
    · rw [List.foldlM_cons, hu]
      exact hv
    · -- the line stays in the text while the others are offered
      exact List.forall_mem_cons.2 ⟨hrest.occurring l hlines.1 hin, hall⟩

/-- A text with an anchor takes all lines that start with the anchor, one after the other. Each of
them leaves the first anchor where it is and everything that starts with the anchor in the text. In
the end all of them are in the text, which is not changed if they are offered again in any order. -/
theorem foldlM_insert?_stable {text : Text} (hanchor : anchor <:+: text)
    (hlines : ∀ l ∈ lines, anchor <+: l) :
    ∃ k last, firstIndex? anchor text = some k ∧ lines.foldlM insert? text = some last ∧
      (∀ before l after, lines = before ++ l :: after →
        ∃ t u, before.foldlM insert? text = some t ∧ insert? t l = some u ∧
          after.foldlM insert? u = some last ∧
          firstIndex? anchor t = some k ∧ firstIndex? anchor u = some k ∧
          ∀ s, anchor <+: s → s <:+: t → s <:+: u) ∧
      (∀ l ∈ lines, l <:+: last) ∧
      ∀ again : List Text, again.Perm lines → again.foldlM insert? last = some last := by
  obtain ⟨k, hk⟩ := exists_firstIndex? hanchor
  obtain ⟨last, hlast, -, hall⟩ := foldlM_insert?_keeps hk hlines
  refine ⟨k, last, hk, hlast, ?_, hall, ?_⟩
  · rintro before l after rfl
    rw [List.forall_mem_append, List.forall_mem_cons] at hlines
    obtain ⟨t, ht, hbefore, -⟩ := foldlM_insert?_keeps hk hlines.1
    obtain ⟨u, hu, hstep, -⟩ := insert?_keeps hbefore.anchored hlines.2.1
    rw [List.foldlM_append, ht] at hlast
    change (l :: after).foldlM insert? t = some last at hlast
    rw [List.foldlM_cons, hu] at hlast
    exact ⟨t, u, ht, hu, hlast, hbefore.anchored, hstep.anchored, hstep.occurring⟩
  · intro again hperm
    apply foldlM_insert?_of_infix
    intro l hl
    exact hall l (hperm.mem_iff.1 hl)

/-- Lines that hold each other, a line feed and further anchors. -/
def tangled : List Text := ["import B", "import A\nimport B\n", "importimport"]

/-- Tangled lines are all taken, and change nothing if they are offered again from the last
one to the first one. -/
theorem foldlM_insert?_stable_tangled :
    ∃ last : Text, tangled.foldlM insert? "@x import Z\n" = some last ∧
      (∀ l ∈ tangled, l <:+: last) ∧
      tangled.reverse.foldlM insert? last = some last := by
  have hanchor : anchor <:+: ("@x import Z\n" : Text) := by decide
  have hlines : ∀ l ∈ tangled, anchor <+: l := by decide
  obtain ⟨-, last, -, hlast, -, hall, hagain⟩ := foldlM_insert?_stable hanchor hlines
  exact ⟨last, hlast, hall, hagain _ (List.reverse_perm tangled)⟩

end Insertion

end ImportRepair
