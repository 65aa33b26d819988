import ImportRepair.Proofs.Files.Spelling
import ImportRepair.Text.Wrap

/-!
# What is on the lines of a text

A text that is broken into lines gets blanks, where a tab is filled up and where half a wide
character is cut off, and nothing else. So what holds of blanks and of all its code points holds of
everything on its lines.

Results:
* `forall_mem_wrap`: there is nothing but blanks on the lines that is not in the text.
-/

namespace ImportRepair.Text

variable {P : CodePoint → Prop} {t line : Text} {ws parts : List Text}

/-! ## Tabs -/

theorem forall_mem_fillTabs (hblank : P ' ') (h : ∀ part ∈ parts, ∀ c ∈ part, P c) (column : Nat) :
    ∀ c ∈ fillTabs column parts, P c := by
  induction parts generalizing column with
  | nil => exact List.forall_mem_nil _
  | cons part rest ih =>
    rw [List.forall_mem_cons] at h
    cases rest with
    | nil => exact h.1
    | cons next rest =>
      rw [fillTabs]
      · have hpart : ∀ c ∈ part ++ [(' ' : CodePoint)], P c :=
          List.forall_mem_append.2 ⟨h.1, List.forall_mem_singleton.2 hblank⟩
        refine List.forall_mem_append.2 ⟨List.forall_mem_append.2 ⟨hpart, ?_⟩, ih h.2 _⟩
        exact List.forall_mem_replicate.2 (Or.inr hblank)
      · exact List.cons_ne_nil next rest

theorem forall_mem_expandTabs (hblank : P ' ') (h : ∀ c ∈ line, P c) : ∀ c ∈ expandTabs line, P c :=
  forall_mem_fillTabs hblank (fun _ hpart => forall_mem_of_mem_splitAt h hpart) 0

/-! ## Cutting -/

theorem forall_mem_crop (hblank : P ' ') {clusters : List Cluster}
    (h : ∀ x ∈ clusters, ∀ c ∈ x.text, P c) (width : Nat) : ∀ c ∈ crop width clusters, P c := by
  induction clusters generalizing width with
  | nil => exact List.forall_mem_nil _
  | cons cluster rest ih =>
    rw [List.forall_mem_cons] at h
    rw [crop]
    split
    · exact List.forall_mem_nil _
    · split
      · exact List.forall_mem_append.2 ⟨h.1, ih h.2 _⟩
      · exact List.forall_mem_singleton.2 hblank

/-- What is in a cluster is in the text. -/
theorem forall_mem_clusters (h : ∀ c ∈ t, P c) : ∀ x ∈ clusters t, ∀ c ∈ x.text, P c := by
  intro x hx c hc
  refine h c ?_
  rw [← flatten_clusters t, List.mem_flatten]
  exact ⟨x.text, List.mem_map_of_mem hx, hc⟩

theorem forall_mem_cut (hblank : P ' ') (h : ∀ c ∈ line, P c) (width : Nat) :
    ∀ c ∈ cut .fold width line, P c := by
  rw [cut]
  split
  · exact h
  · exact forall_mem_crop hblank (forall_mem_clusters h) width

/-! ## Lines -/

/-- What is on the lines that are filled is in the words. -/
theorem forall_mem_fill (h : ∀ c ∈ ws.flatten, P c) (width : Nat) :
    ∀ l ∈ fill .fold width [] ws, ∀ c ∈ l, P c := by
  intro l hl c hc
  refine h c ?_
  have hflat := flatten_fill .fold width [] ws
  rw [List.nil_append] at hflat
  rw [← hflat]
  exact List.mem_flatten.2 ⟨l, hl, hc⟩

/-- What is in the words is in the text. -/
theorem forall_mem_words (h : ∀ c ∈ t, P c) : ∀ c ∈ (words t).flatten, P c := by
  rw [words, flatten_wordsFrom]
  split
  · exact List.forall_mem_nil _
  · exact h

theorem forall_mem_breakLine (hblank : P ' ') (h : ∀ c ∈ line, P c) (width : Nat) :
    ∀ l ∈ breakLine .fold width line, ∀ c ∈ l, P c := by
  intro l hl
  have htabs := forall_mem_expandTabs hblank h
  have hwords := forall_mem_words htabs
  obtain ⟨u, hu, rfl⟩ := List.mem_map.1 hl
  refine forall_mem_cut hblank (fun c hc => ?_) width
  have hmem := List.mem_of_mem_take hc
  split at hu
  · rw [List.mem_singleton.1 hu] at hmem
    exact htabs c hmem
  · exact forall_mem_fill hwords width u hu c hmem

/-- There is nothing but blanks on the lines of a text that is not in it. -/
theorem forall_mem_wrap (hblank : P ' ') (h : ∀ c ∈ t, P c) (width : Nat) :
    ∀ l ∈ wrap .fold width t, ∀ c ∈ l, P c := by
  intro l hl
  obtain ⟨line, hline, hl⟩ := List.mem_flatMap.1 hl
  exact forall_mem_breakLine hblank (forall_mem_of_mem_splitAt h hline) width l hl

end ImportRepair.Text
