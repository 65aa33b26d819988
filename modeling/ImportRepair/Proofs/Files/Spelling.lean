import ImportRepair.Files.Walk
import Mathlib.Tactic

/-!
# How paths are spelled

A path is split into names at its slashes, and the path of a place is its names joined by slashes.
So the names of a place's path are the names of the place. The length of a path is the length of its
parts, and whether a text can be a path depends on its code points alone.

Results:
* `Text.splitAt_join`: the pieces of joined pieces are the pieces.
* `FileTree.checkPath_eq_ok_iff`: which texts are paths.
* `PlainPath.names_display_ofPlace`: the names of a place's path.
-/

namespace ImportRepair

/-! ## Splitting and joining -/

namespace Text

theorem splitAt_of_not_mem {sep : CodePoint} {t : Text} (h : sep ∉ t) : splitAt sep t = [t] := by
  induction t with
  | nil => rfl
  | cons c t ih =>
    rw [List.mem_cons, not_or] at h
    rw [splitAt, if_neg (Ne.symm h.1), ih h.2]

/-- Splitting peels off the piece before the first separator. -/
theorem splitAt_append {sep : CodePoint} {piece : Text} (h : sep ∉ piece) (t : Text) :
    splitAt sep (piece ++ sep :: t) = piece :: splitAt sep t := by
  induction piece with
  | nil => rw [List.nil_append, splitAt, if_pos rfl]
  | cons c piece ih =>
    rw [List.mem_cons, not_or] at h
    rw [List.cons_append, splitAt, if_neg (Ne.symm h.1), ih h.2]

theorem join_cons_cons (sep t u : Text) (ts : List Text) :
    join sep (t :: u :: ts) = t ++ (sep ++ join sep (u :: ts)) := by
  rw [join, List.append_assoc]
  simp

theorem splitAt_join {sep : CodePoint} {pieces : List Text} (hne : pieces ≠ [])
    (h : ∀ piece ∈ pieces, sep ∉ piece) : splitAt sep (join [sep] pieces) = pieces := by
  induction pieces with
  | nil => exact absurd rfl hne
  | cons piece pieces ih =>
    rw [List.forall_mem_cons] at h
    cases pieces with
    | nil => exact splitAt_of_not_mem h.1
    | cons next pieces =>
      rw [join_cons_cons, List.singleton_append, splitAt_append h.1, ih (by simp) h.2]

theorem not_mem_of_mem_splitAt {sep : CodePoint} {t piece : Text} (h : piece ∈ splitAt sep t) :
    sep ∉ piece := by
  induction t generalizing piece with
  | nil =>
    rw [splitAt, List.mem_singleton] at h
    simp [h]
  | cons c t ih =>
    rw [splitAt] at h
    split at h
    · next hc =>
      obtain rfl | h := List.mem_cons.1 h
      · simp
      · exact ih h
    · next hc =>
      split at h
      · rw [List.mem_singleton.1 h]
        simpa using Ne.symm hc
      · next first rest hs =>
        rw [hs] at ih
        obtain rfl | h := List.mem_cons.1 h
        · rw [List.mem_cons, not_or]
          exact ⟨Ne.symm hc, ih (List.mem_cons_self ..)⟩
        · exact ih (List.mem_cons_of_mem _ h)

/-- What holds of all code points of a text holds of those of its pieces. -/
theorem forall_mem_of_mem_splitAt {P : CodePoint → Prop} {sep : CodePoint} {t piece : Text}
    (ht : ∀ c ∈ t, P c) (h : piece ∈ splitAt sep t) : ∀ c ∈ piece, P c := by
  induction t generalizing piece with
  | nil =>
    rw [splitAt, List.mem_singleton] at h
    simp [h]
  | cons c t ih =>
    rw [List.forall_mem_cons] at ht
    rw [splitAt] at h
    split at h
    · obtain rfl | h := List.mem_cons.1 h
      · simp
      · exact ih ht.2 h
    · split at h
      · rw [List.mem_singleton.1 h]
        simpa using ht.1
      · next first rest hs =>
        rw [hs] at ih
        obtain rfl | h := List.mem_cons.1 h
        · rw [List.forall_mem_cons]
          exact ⟨ht.1, ih ht.2 (List.mem_cons_self ..)⟩
        · exact ih ht.2 (List.mem_cons_of_mem _ h)

theorem join_concat {sep : Text} {ts : List Text} (h : ts ≠ []) (t : Text) :
    join sep (ts ++ [t]) = join sep ts ++ (sep ++ t) := by
  induction ts with
  | nil => exact absurd rfl h
  | cons u us ih =>
    cases us with
    | nil => simp [join]
    | cons v vs =>
      rw [List.cons_append, List.cons_append, join_cons_cons, ← List.cons_append, ih (by simp),
        join_cons_cons]
      simp only [List.append_assoc]

theorem forall_mem_join {P : CodePoint → Prop} {sep : Text} {ts : List Text} (hsep : ∀ c ∈ sep, P c)
    (h : ∀ t ∈ ts, ∀ c ∈ t, P c) : ∀ c ∈ join sep ts, P c := by
  induction ts with
  | nil => simp [join]
  | cons t ts ih =>
    rw [List.forall_mem_cons] at h
    cases ts with
    | nil => exact h.1
    | cons u us =>
      intro c hc
      rw [join_cons_cons, List.mem_append, List.mem_append] at hc
      obtain hc | hc | hc := hc
      · exact h.1 c hc
      · exact hsep c hc
      · exact ih h.2 c hc

end Text

/-! ## Names -/

namespace Path

/-- A text without null characters and without code points that no file name can hold. -/
def IsClean (path : Text) : Prop := ∀ c ∈ path, c ≠ 0 ∧ isForbidden c = false

instance (path : Text) : Decidable (IsClean path) :=
  decidable_of_iff (path.all fun c => c ≠ 0 && !isForbidden c) (by simp [IsClean])

/-- A name that stands for an entry of a directory. -/
structure IsName (name : Text) : Prop where
  notIdle : isIdle name = false
  notAbove : name ≠ above
  noSlash : slash ∉ name
  short : byteLength name ≤ maxName
  clean : IsClean name

theorem isClean_slash : IsClean [slash] := by decide

theorem isClean_here : IsClean here := by decide

theorem isClean_above : IsClean above := by decide

theorem noSlash_of_mem_names {path name : Text} (h : name ∈ names path) : slash ∉ name :=
  Text.not_mem_of_mem_splitAt h

theorem isClean_of_mem_names {path name : Text} (hp : IsClean path) (h : name ∈ names path) :
    IsClean name :=
  Text.forall_mem_of_mem_splitAt hp h

theorem names_slash_cons (path : Text) : names (slash :: path) = [] :: names path := by
  rw [names, Text.splitAt, if_pos rfl]
  rfl

theorem isIdle_nil : isIdle [] = true := rfl

theorem isIdle_above : isIdle above = false := by decide

/-! ## Lengths -/

theorem byteLength_append (s t : Text) : byteLength (s ++ t) = byteLength s + byteLength t := by
  induction s with
  | nil => exact (Nat.zero_add _).symm
  | cons c s ih =>
    show (if c.isSurrogate then 1 else (Utf8.encodePoint c).length) + byteLength (s ++ t) =
      (if c.isSurrogate then 1 else (Utf8.encodePoint c).length) + byteLength s + byteLength t
    rw [ih, Nat.add_assoc]

theorem byteLength_cons (c : CodePoint) (t : Text) :
    byteLength (c :: t) = byteLength [c] + byteLength t :=
  byteLength_append [c] t

end Path

namespace FileTree

theorem encodingFault?_eq_none_iff {path : Text} :
    Path.encodingFault? path = none ↔ ∀ c ∈ path, Path.isForbidden c = false := by
  rw [Path.encodingFault?, Option.map_eq_none_iff, List.findIdx?_eq_none_iff]

theorem checkPath_eq_ok_iff {path : Text} : checkPath path = .ok () ↔ Path.IsClean path := by
  unfold checkPath Path.IsClean
  cases h : Path.encodingFault? path with
  | none =>
    have hall := encodingFault?_eq_none_iff.1 h
    by_cases h0 : path.contains 0 = true
    · have hmem : (0 : CodePoint) ∈ path := List.contains_iff_mem.1 h0
      simp only [h0, if_true, reduceCtorEq, false_iff]
      intro hclean
      exact (hclean 0 hmem).1 rfl
    · simp only [h0, Bool.false_eq_true, if_false, true_iff]
      intro c hc
      exact ⟨fun hc0 => h0 (List.contains_iff_mem.2 (hc0 ▸ hc)), hall c hc⟩
  | some e =>
    simp only [reduceCtorEq, false_iff]
    intro hclean
    rw [encodingFault?_eq_none_iff.2 fun c hc => (hclean c hc).2] at h
    cases h

end FileTree

/-! ## The paths of places -/

namespace PlainPath

theorem display_ofPlace (place : Place) :
    (ofPlace place).display = Path.slash :: Text.join [Path.slash] place.reverse := by
  simp [display, ofPlace]

theorem parent_ofPlace (name : Text) (place : Place) :
    (ofPlace (name :: place)).parent = ofPlace place := by
  simp [parent, ofPlace]

theorem name_ofPlace (name : Text) (place : Place) : (ofPlace (name :: place)).name = name := by
  simp [PlainPath.name, ofPlace]

theorem child_ofPlace (name : Text) (place : Place) :
    (ofPlace place).child name = ofPlace (name :: place) := by
  simp [child, ofPlace]

theorem isAbsolute_display_ofPlace (place : Place) :
    Path.isAbsolute (ofPlace place).display = true := by
  simp [display_ofPlace, Path.isAbsolute]

theorem display_ofPlace_ne_nil (place : Place) : (ofPlace place).display ≠ [] := by
  simp [display_ofPlace]

theorem names_display_ofPlace {place : Place} (hne : place ≠ [])
    (h : ∀ name ∈ place, Path.slash ∉ name) :
    Path.names (ofPlace place).display = [] :: place.reverse := by
  rw [display_ofPlace, Path.names_slash_cons, Path.names, Text.splitAt_join (by simpa using hne)]
  simpa using h

theorem isClean_display_ofPlace {place : Place} (h : ∀ name ∈ place, Path.IsClean name) :
    Path.IsClean (ofPlace place).display := by
  rw [display_ofPlace]
  intro c hc
  obtain rfl | hc := List.mem_cons.1 hc
  · exact Path.isClean_slash _ (by simp)
  · exact Text.forall_mem_join Path.isClean_slash
      (fun name hn => h name (List.mem_reverse.1 hn)) c hc

/-- A longer name makes a longer path. -/
theorem byteLength_display_mono {name longer : Text} (place : Place)
    (h : Path.byteLength name ≤ Path.byteLength longer) :
    Path.byteLength (ofPlace (name :: place)).display ≤
      Path.byteLength (ofPlace (longer :: place)).display := by
  rw [display_ofPlace, display_ofPlace, List.reverse_cons, List.reverse_cons,
    Path.byteLength_cons, Path.byteLength_cons _ (Text.join _ _)]
  by_cases hp : place.reverse = []
  · rw [hp]
    exact Nat.add_le_add_left h _
  · rw [Text.join_concat hp, Text.join_concat hp]
    simp only [Path.byteLength_append]
    omega

/-- The path of a place is no longer than the paths of what stands in it. -/
theorem byteLength_display_le (name : Text) (place : Place) :
    Path.byteLength (ofPlace place).display ≤
      Path.byteLength (ofPlace (name :: place)).display := by
  rw [display_ofPlace, display_ofPlace, List.reverse_cons, Path.byteLength_cons,
    Path.byteLength_cons _ (Text.join _ (_ ++ _))]
  by_cases hp : place.reverse = []
  · rw [hp]
    exact Nat.add_le_add_left (Nat.zero_le _) _
  · rw [Text.join_concat hp]
    simp only [Path.byteLength_append]
    omega

end PlainPath

end ImportRepair
