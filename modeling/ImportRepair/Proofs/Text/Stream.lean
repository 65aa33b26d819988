import ImportRepair.Proofs.Text.Lines
import ImportRepair.Text.Stream

/-!
# Streams of ASCII text

A file of ASCII characters can be cut anywhere between its bytes without cutting a character. So
whatever parts it is read in, the portions that are taken from it are its text, cut at the number
of characters asked for.

Results:
* `encodeAll_take`, `encodeAll_drop`: a cut of the bytes is a cut of the text.
* `Holds.readPart`, `Holds.fill`, `Holds.take`: what is ready and what is still to be read stay the
  text.
* `Holds.portions`: the portions of a file are its text.
-/

namespace ImportRepair

/-- A text of ASCII characters without carriage returns. -/
def Text.IsAscii (t : Text) : Prop := ∀ c ∈ t, c.val < 0x80 ∧ c ≠ Text.cr

namespace Text.IsAscii

variable {t : Text}

theorem take (h : t.IsAscii) (n : Nat) : IsAscii (t.take n) :=
  fun c hc => h c (List.mem_of_mem_take hc)

theorem drop (h : t.IsAscii) (n : Nat) : IsAscii (t.drop n) :=
  fun c hc => h c (List.mem_of_mem_drop hc)

theorem isScalar (h : t.IsAscii) : t.isScalar = true := by
  rw [Text.isScalar_iff]
  intro c hc
  have hlow := (h c hc).1
  have hnot : ¬0xD800 ≤ c.val := by omega
  simp [CodePoint.isSurrogate, hnot]

theorem cr_not_mem (h : t.IsAscii) : Text.cr ∉ t := fun hc => (h _ hc).2 rfl

theorem unifyLineEnds (h : t.IsAscii) : Text.unifyLineEnds t = t := by
  have hall := Text.unifyLineEnds_append h.cr_not_mem []
  rwa [List.append_nil, Text.unifyLineEnds, List.append_nil] at hall

/-- Every character has one byte. -/
theorem encodeAll_eq (h : t.IsAscii) : Utf8.encodeAll t = t.map fun c => Utf8.octet c.val := by
  induction t with
  | nil => rfl
  | cons c t ih =>
    have hc : Utf8.encodePoint c = [Utf8.octet c.val] := by
      rw [Utf8.encodePoint, if_pos (h c (List.mem_cons_self ..)).1]
    rw [Utf8.encodeAll, List.flatMap_cons, hc, List.map_cons, List.singleton_append,
      ← ih fun d hd => h d (List.mem_cons_of_mem _ hd)]
    rfl

theorem encodeAll_take (h : t.IsAscii) (n : Nat) :
    (Utf8.encodeAll t).take n = Utf8.encodeAll (t.take n) := by
  rw [h.encodeAll_eq, (h.take n).encodeAll_eq, List.map_take]

theorem encodeAll_drop (h : t.IsAscii) (n : Nat) :
    (Utf8.encodeAll t).drop n = Utf8.encodeAll (t.drop n) := by
  rw [h.encodeAll_eq, (h.drop n).encodeAll_eq, List.map_drop]

theorem length_encodeAll (h : t.IsAscii) : (Utf8.encodeAll t).length = t.length := by
  rw [h.encodeAll_eq, List.length_map]

theorem decodePart (h : t.IsAscii) : Utf8.decodePart (Utf8.encodeAll t) = .ok (t, []) := by
  rw [Utf8.decodePart, Utf8.decode_encodeAll h.isScalar]

end Text.IsAscii

namespace TextStream

variable {s : TextStream} {t : Text}

/-- A stream from which a text is still to be taken: some of it is ready, and the rest stands in the
bytes. Nothing is cut off between. -/
structure Holds (s : TextStream) (t : Text) : Prop where
  waiting : s.waiting = []
  returned : s.returned = false
  rest : ∃ rest, Text.IsAscii rest ∧ s.bytes = Utf8.encodeAll rest ∧ t = s.ready ++ rest

theorem holds_start (h : t.IsAscii) : (start (Utf8.encodeAll t)).Holds t :=
  ⟨rfl, rfl, t, h, rfl, rfl⟩

theorem unify_of_isAscii (h : t.IsAscii) : unify false false t = (t, false) := by
  have hlast : t.getLast? ≠ some Text.cr := fun hcr => h.cr_not_mem (List.mem_of_getLast? hcr)
  simp only [unify, Bool.false_and, Bool.false_eq_true, if_false, if_neg hlast, h.unifyLineEnds]

/-- Reading a part makes characters ready, and leaves fewer bytes. -/
theorem Holds.readPart (h : s.Holds t) (hbytes : s.bytes ≠ []) (wanted : Nat) :
    ∃ s', s.readPart wanted = .ok s' ∧ s'.Holds t ∧ s'.bytes.length < s.bytes.length := by
  obtain ⟨hwaiting, hreturned, rest, hrest, hb, rfl⟩ := h
  have hlength : 0 < s.partLength wanted :=
    lt_of_lt_of_le (by decide : 0 < leastPart) (Nat.le_max_left ..)
  have hpart : (s.bytes.take (s.partLength wanted)).isEmpty = false := by
    rw [List.isEmpty_eq_false_iff, Ne, List.take_eq_nil_iff]
    rintro (hzero | hnone)
    · omega
    · exact hbytes hnone
  generalize hn : s.partLength wanted = n at hlength hpart
  have hread : s.readPart wanted = .ok ⟨s.bytes.drop n, [], false, s.ready ++ rest.take n,
      (s.bytes.take n).length, (rest.take n).length⟩ := by
    have hdecoded : Utf8.decodePart (s.bytes.take n) = .ok (rest.take n, []) := by
      rw [hb, hrest.encodeAll_take, (hrest.take n).decodePart]
    simp only [TextStream.readPart, hn, hpart, hwaiting, hreturned, List.nil_append, hdecoded,
      Bool.false_eq_true, if_false, bind, Except.bind, pure, Except.pure,
      unify_of_isAscii (hrest.take n)]
  refine ⟨_, hread, ⟨rfl, rfl, rest.drop n, hrest.drop n, ?_, ?_⟩, ?_⟩
  · exact (congrArg (List.drop n) hb).trans (hrest.encodeAll_drop n)
  · rw [List.append_assoc, List.take_append_drop]
  · have hpos : 0 < s.bytes.length := List.length_pos_iff.2 hbytes
    have hdrop := List.length_drop (i := n) (l := s.bytes)
    simp only [hdrop]
    omega

/-- Filling goes on until enough characters are ready, or there are no more. -/
theorem Holds.fill (h : s.Holds t) (count : Nat) {parts : Nat} (hparts : s.bytes.length < parts) :
    ∃ s', s.fill count parts = .ok s' ∧ s'.Holds t ∧ (count ≤ s'.ready.length ∨ s'.ready = t) := by
  induction parts generalizing s with
  | zero => omega
  | succ parts ih =>
    rw [TextStream.fill]
    by_cases henough : count ≤ s.ready.length
    · exact ⟨s, by simp [henough], h, Or.inl henough⟩
    by_cases hbytes : s.bytes = []
    · refine ⟨s, by simp [isRead, hbytes, h.waiting, h.returned], h, Or.inr ?_⟩
      obtain ⟨rest, hrest, hb, ht⟩ := h.rest
      have hlength := hrest.length_encodeAll
      rw [← hb, hbytes] at hlength
      rw [ht, List.length_eq_zero_iff.1 hlength.symm, List.append_nil]
    · obtain ⟨s', hread, hholds, hfewer⟩ := h.readPart hbytes (count - s.ready.length)
      obtain ⟨u, hfill, hu⟩ := ih hholds (by omega)
      have hmore : (decide (count ≤ s.ready.length) || s.isRead) = false := by
        simp [henough, isRead, hbytes]
      exact ⟨u, by rw [hmore, hread]; exact hfill, hu⟩

/-- Taking characters cuts the text. -/
theorem Holds.take (h : s.Holds t) (count : Nat) :
    ∃ s', s.take count = .ok (t.take count, s') ∧ s'.Holds (t.drop count) := by
  obtain ⟨u, hfill, hu, hready⟩ := h.fill count (Nat.lt_add_of_pos_right (by decide : 0 < 2))
  obtain ⟨rest, hrest, hb, ht⟩ := hu.rest
  have htake : u.ready.take count = t.take count := by
    obtain hlength | hall := hready
    · rw [ht, List.take_append_of_le_length hlength]
    · rw [hall]
  refine ⟨{ u with ready := u.ready.drop count }, ?_, hu.waiting, hu.returned, rest, hrest, hb, ?_⟩
  · rw [TextStream.take, hfill, ← htake]
    rfl
  · obtain hlength | hall := hready
    · rw [ht, List.drop_append_of_le_length hlength]
    · rw [hall] at ht ⊢
      rw [List.self_eq_append_right.1 ht, List.append_nil]

/-- The portions that are taken are the text. -/
theorem Holds.portions (h : s.Holds t) {count most : Nat} (hcount : 0 < count)
    (hmost : t.length ≤ most) :
    ∃ portions, s.portions count most = (portions, none) ∧ portions.flatten = t := by
  induction most generalizing s t with
  | zero => exact ⟨[], rfl, (List.length_eq_zero_iff.1 (Nat.le_zero.1 hmost)).symm⟩
  | succ most ih =>
    obtain ⟨s', htake, hs'⟩ := h.take count
    rw [TextStream.portions, htake]
    cases ht : t.take count with
    | nil =>
      refine ⟨[], rfl, ?_⟩
      obtain hzero | hnone := List.take_eq_nil_iff.1 ht
      · omega
      · exact hnone.symm
    | cons c portion =>
      have hlength := congrArg List.length ht
      rw [List.length_take, List.length_cons] at hlength
      obtain ⟨portions, hportions, hflat⟩ := ih hs' (by rw [List.length_drop]; omega)
      refine ⟨(c :: portion) :: portions, by simp only [hportions], ?_⟩
      rw [List.flatten_cons, hflat, ← ht, List.take_append_drop]

end TextStream

end ImportRepair
